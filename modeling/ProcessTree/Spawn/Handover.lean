-- Handing a channel over to a child: how the descriptors of a child that was
-- just created are moved before it runs its program, and how its program takes
-- them over.
import ProcessTree.Error
import ProcessTree.Host.Descriptors

namespace ProcessTree

/-- The ends of a channel that a child gets, by their numbers. -/
structure ChildEnds where
  receive : Nat
  send : Nat
  deriving DecidableEq, Repr

/-! ## Before the program runs -/

namespace Handover

/-- Descriptors that have to move are first copied to this number or above, out of the way of
those they move to. -/
def parking : Nat := 10

/-- Moves the ends to where a child looks for them by default. -/
def toFixed (t : FdTable) (ends : ChildEnds) : Except Errno FdTable := do
  let (receive, t) ← t.duplicate ends.receive parking
  let (send, t) ← t.duplicate ends.send parking
  let t ← t.place receive 3
  t.place send 4

/-- Leaves the ends under their numbers and keeps them open. -/
def toNumbered (t : FdTable) (ends : ChildEnds) : Except Errno FdTable := do
  let t ← t.setCloseOnExec ends.receive false
  t.setCloseOnExec ends.send false

/-- All that happens to the descriptors of a child before its program runs; `status` is the pipe
that would report a failure. -/
def prepare (passing : FdPassing) (ends : ChildEnds) (status : Nat) (t : FdTable) :
    Except Errno FdTable := do
  let (_, t) ← t.duplicate status parking
  match passing with
  | .fixed => toFixed t ends
  | .numbered => toNumbered t ends

/-- The descriptors of the child once its program runs. -/
def run (passing : FdPassing) (ends : ChildEnds) (status : Nat) (t : FdTable) :
    Except Errno FdTable :=
  (prepare passing ends status t).map FdTable.afterExec

/-- The ends as the child is told them. -/
def told (ends : ChildEnds) : ChannelFds := ⟨Int32.ofNat ends.receive, Int32.ofNat ends.send⟩

end Handover

/-! ## Once it runs -/

namespace ChannelFds

/-- Whether a descriptor can be read from. -/
def probeRead (t : FdTable) (fd : Int32) : Except ReentryError Unit :=
  match t.get? fd.toInt with
  | some ⟨.readEnd _, _⟩ | some ⟨.device, _⟩ => .ok ()
  | some ⟨.writeEnd _, _⟩ | none => .error (.inherit "read" fd.toInt .badDescriptor)

/-- Whether a descriptor can be written to; a pipe that nobody reads still can. -/
def probeWrite (t : FdTable) (fd : Int32) : Except ReentryError Unit :=
  match t.get? fd.toInt with
  | some ⟨.writeEnd _, _⟩ | some ⟨.device, _⟩ => .ok ()
  | some ⟨.readEnd _, _⟩ | none => .error (.inherit "write" fd.toInt .badDescriptor)

/-- Takes the descriptors over, so that programs that are run later do not get them. The one to
read is probed first. -/
def adopt (t : FdTable) (fds : ChannelFds) : Except ReentryError FdTable := do
  probeRead t fds.read
  probeWrite t fds.write
  let t ← (t.setCloseOnExec fds.read.toInt.toNat true).mapError (.inherit "read" fds.read.toInt)
  (t.setCloseOnExec fds.write.toInt.toNat true).mapError (.inherit "write" fds.write.toInt)

end ChannelFds

end ProcessTree
