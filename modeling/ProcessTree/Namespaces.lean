-- The kernel namespaces that a process is created in.
import ProcessTree.Message

namespace ProcessTree

/-- Which new namespaces a process is created in. -/
structure Namespaces where
  user : Bool
  pid : Bool
  mount : Bool
  net : Bool
  ipc : Bool
  uts : Bool
  deriving DecidableEq, Repr, Inhabited

namespace Namespaces

/-- No new namespace. -/
def none : Namespaces := ⟨false, false, false, false, false, false⟩

/-- What a worker gets unless told otherwise. -/
def worker : Namespaces := { none with user := true, pid := true, mount := true }

/-- What a job of an identity gets. -/
def job (identity : JobIdentity) : Namespaces :=
  { none with user := identity != .shared, pid := true, mount := true }

/-- The flags of the new namespaces, each with its name and its bit, in the order of the bits that
the names are shown in. -/
def flags (n : Namespaces) : List (Bool × String × Nat) := [
  (n.mount, "CLONE_NEWNS", 0x20000),
  (n.uts, "CLONE_NEWUTS", 0x4000000),
  (n.ipc, "CLONE_NEWIPC", 0x8000000),
  (n.user, "CLONE_NEWUSER", 0x10000000),
  (n.pid, "CLONE_NEWPID", 0x20000000),
  (n.net, "CLONE_NEWNET", 0x40000000)]

/-- The names of the flags that are set. -/
def flagNames (n : Namespaces) : List String := (n.flags.filter (·.1)).map (·.2.1)

/-- The flags as the number that creates the process. -/
def bits (n : Namespaces) : Nat := ((n.flags.filter (·.1)).map (·.2.2)).foldr (· + ·) 0

/-- Whether no new namespace is created. -/
def isEmpty (n : Namespaces) : Bool := n.flagNames.isEmpty

open MessagePack in
instance : Coded Namespaces where
  toValue? n := some (.ofFields [
    ("user", .bool n.user), ("pid", .bool n.pid), ("mount", .bool n.mount),
    ("net", .bool n.net), ("ipc", .bool n.ipc), ("uts", .bool n.uts)])
  ofValue? v :=
    match v.fields? ["user", "pid", "mount", "net", "ipc", "uts"] with
    | some [some user, some pid, some mount, some net, some ipc, some uts] => do
      let user ← user.bool?
      let pid ← pid.bool?
      let mount ← mount.bool?
      let net ← net.bool?
      let ipc ← ipc.bool?
      let uts ← uts.bool?
      return ⟨user, pid, mount, net, ipc, uts⟩
    | _ => Option.none

end Namespaces

end ProcessTree
