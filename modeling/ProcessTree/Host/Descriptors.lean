-- Descriptor tables: which numbers of a process are open, what each stands for,
-- and which of them the process loses when it runs another program.
import ProcessTree.Errno
import ProcessTree.Role

namespace ProcessTree

/-- What a descriptor stands for: an end of a pipe, or a device, which is no pipe and takes reads
and writes. -/
inductive OpenFile where
  | readEnd (pipe : Nat)
  | writeEnd (pipe : Nat)
  | device
  deriving DecidableEq, Repr, Inhabited

/-- An open descriptor. -/
structure Descriptor where
  file : OpenFile
  /-- Whether it is closed when the process runs another program. -/
  closeOnExec : Bool
  deriving DecidableEq, Repr, Inhabited

/-- The open descriptors of a process by their numbers. -/
abbrev FdTable := List (Nat × Descriptor)

namespace FdTable

/-- The three descriptors that every process starts with. -/
def standard : FdTable := [0, 1, 2].map fun fd => (fd, ⟨.device, false⟩)

/-- The descriptor of a number; negative numbers are never open. -/
def get? (t : FdTable) (fd : Int) : Option Descriptor :=
  (t.find? fun entry => (entry.1 : Int) == fd).map Prod.snd

/-- Whether a number is not in use. -/
def isFree (t : FdTable) (fd : Nat) : Bool := t.all (·.1 != fd)

/-- The lowest number from `least` up that is not in use. -/
def lowestFree (t : FdTable) (least : Nat) : Nat :=
  ((List.range' least (t.length + 1)).find? t.isFree).getD (least + t.length)

/-- Closes a number. -/
def close (t : FdTable) (fd : Nat) : FdTable := t.filter (·.1 != fd)

/-- Opens a number anew, closing what it stood for. -/
def set (t : FdTable) (fd : Nat) (d : Descriptor) : FdTable := t.close fd ++ [(fd, d)]

/-- Opens a file under the lowest free number from `least` up. -/
def install (t : FdTable) (least : Nat) (d : Descriptor) : Nat × FdTable :=
  let fd := t.lowestFree least
  (fd, t.set fd d)

/-- Copies a descriptor to the lowest free number from `least` up; the copy is closed on exec. -/
def duplicate (t : FdTable) (fd least : Nat) : Except Errno (Nat × FdTable) :=
  match t.get? fd with
  | some d => .ok (t.install least ⟨d.file, true⟩)
  | none => .error .badDescriptor

/-- Copies a descriptor to a given number; the copy outlives an exec. A descriptor copied onto
itself stays as it is. -/
def place (t : FdTable) (fd target : Nat) : Except Errno FdTable :=
  match t.get? fd with
  | some d => .ok (if fd = target then t else t.set target ⟨d.file, false⟩)
  | none => .error .badDescriptor

/-- Says whether a descriptor is closed on exec. -/
def setCloseOnExec (t : FdTable) (fd : Nat) (closeOnExec : Bool) : Except Errno FdTable :=
  if t.isFree fd then .error .badDescriptor
  else .ok (t.map fun (n, d) => (n, if n = fd then { d with closeOnExec } else d))

/-- What is left when the process runs another program. -/
def afterExec (t : FdTable) : FdTable := t.filter fun entry => !entry.2.closeOnExec

/-- Whether a file is open under some number. -/
def holds (t : FdTable) (file : OpenFile) : Bool := t.any (·.2.file == file)

end FdTable

end ProcessTree
