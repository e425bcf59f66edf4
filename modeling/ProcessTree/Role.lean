-- The roles of a process tree, and how a process is told to enter one.
import ProcessTree.Text.Numeral

namespace ProcessTree

/-- What a process is in its tree: the root, or one of the roles that the root's binary is run
again in. -/
inductive Role where
  | root
  | zygote
  | worker
  | job
  deriving DecidableEq, Repr, Inhabited

/-- How a child finds the descriptors of its channel: moved to 3 and 4, or left where they are
and named in its arguments. -/
inductive FdPassing where
  | fixed
  | numbered
  deriving DecidableEq, Repr, Inhabited

/-- The descriptors a process reads its channel from and writes it to. -/
structure ChannelFds where
  read : Int32
  write : Int32
  deriving DecidableEq, Repr, Inhabited

namespace ChannelFds

/-- The descriptors of a channel that was moved into place. -/
def fixed : ChannelFds := ⟨3, 4⟩

end ChannelFds

namespace Role

/-- The name of a role. -/
def name : Role → String
  | .root => "root"
  | .zygote => "zygote"
  | .worker => "worker"
  | .job => "job"

/-- The role of a name. -/
def ofName? (name : String) : Option Role := [root, zygote, worker, job].find? (·.name == name)

/-- The argument that selects a role; the root has none. -/
def flag? : Role → Option String
  | .root => none
  | .zygote => some "--zygote"
  | .worker => some "--worker"
  | .job => some "--job"

/-- The role that an argument selects. -/
def ofFlag? (flag : String) : Option Role :=
  [Role.zygote, .worker, .job].find? (·.flag? == some flag)

/-- A signed number of 32 bits as its hexadecimal digits, in two's complement. -/
def hexWord (n : Int32) : String := Numeral.hex n.toUInt32.toNat

/-- The arguments after the program's name that make it enter a role over the descriptors. -/
def reentryArgs (role : Role) (passing : FdPassing) (fds : ChannelFds) : List String :=
  match role.flag? with
  | none => []
  | some flag =>
    match passing with
    | .fixed => [flag]
    | .numbered => [flag, hexWord fds.read, hexWord fds.write]

end Role

end ProcessTree
