-- The system that processes live on, as far as it has a say in what becomes of
-- their calls: who a process is to it, and how it answers when a process starts
-- a child, runs a program or becomes root.
import ProcessTree.Config.Environment
import ProcessTree.Spawn.Launch

namespace ProcessTree

/-- Who a process is to the system: its ids as it sees them, whether it may map ids that are not its
own, and whether it lives in a user namespace whose ids nobody mapped. -/
structure Credentials extends MapWriter where
  confined : Bool
  deriving DecidableEq, Repr

namespace Credentials

/-- The root user, who may map the ids of others too, or only its own. -/
def root (mayMap : Bool) : Credentials := ⟨⟨0, 0, mayMap, mayMap⟩, false⟩

/-- The same process once it is root of its user namespace. -/
def asRoot (c : Credentials) : Credentials := { c with user := 0, group := 0 }

end Credentials

/-- A program that is about to run: its path, its arguments with its name first, and its variables. -/
structure ExecCall where
  path : OsText
  args : List OsText
  environment : Environment
  deriving DecidableEq, Repr

/-- How a system answers. Nothing is said here about what is answered when: a system may grant
everything, refuse everything, or tell processes apart. -/
structure Host where
  /-- A process that was started from outside. -/
  initial : Credentials
  /-- A child, by its parent and by what it is started with. -/
  inherits : Credentials → SpawnOptions → Credentials
  /-- The next call of a process on the way to a child. -/
  answers : Credentials → Launch → Except SpawnFault Unit
  /-- Running a program. -/
  executes : Credentials → ExecCall → Except Errno Unit
  /-- Becoming root. -/
  assumesRoot : Credentials → Except Errno Unit

namespace Host

/-- A system that grants its root user all it asks for. -/
def obliging : Host where
  initial := .root true
  inherits parent _ := parent
  answers _ _ := .ok ()
  executes _ _ := .ok ()
  assumesRoot _ := .ok ()

end Host

end ProcessTree
