-- Running a role by itself: its input is already there when it starts, and what
-- it writes is collected.
import ProcessTree.Machine.Run

namespace ProcessTree.Machine

/-- A channel that a role is started over: what it has open, and what it is told of it. Its input
is pipe 0, and what it writes goes into pipe 1. -/
structure RoleChannel where
  table : FdTable
  fds : ChannelFds

/-- A channel under two numbers. -/
def RoleChannel.over (read write : Nat) : RoleChannel where
  table := FdTable.standard ++ [(read, ⟨.readEnd 0, false⟩), (write, ⟨.writeEnd 1, false⟩)]
  fds := ⟨Int32.ofNat read, Int32.ofNat write⟩

/-- What surrounds a role that runs by itself. -/
structure Surroundings where
  input : Bytes
  /-- A signal that comes when the input is consumed; until then the input does not end. -/
  endSignal : Option Signal
  /-- Whether anyone reads what the role writes. -/
  isHeard : Bool

/-- Adds whoever reads what a role writes, and whoever keeps its input from ending. -/
def surround (m : Machine) (s : Surroundings) : Option Nat × Machine :=
  let (listener, m) :=
    if s.isHeard then
      let (pid, m) := m.addOrphan [(3, ⟨.readEnd 1, false⟩)] (.standIn .fixed (.collects []))
      (some pid, m)
    else (none, m)
  if s.endSignal.isSome then (listener, (m.addOrphan [(4, ⟨.writeEnd 0, false⟩)] .outside).2)
  else (listener, m)

/-- What a process has collected. -/
def collected (m : Machine) (pid : Nat) : Bytes :=
  match (m.proc? pid).map Proc.program with
  | some (.standIn _ (.collects seen)) => seen
  | _ => []

/-- How a role that has ended went; a role that a signal ended did nothing wrong. -/
def roleResult (m : Machine) (pid : Nat) : Except ReentryError Unit :=
  match (m.proc? pid).map Proc.program with
  | some (.role r) => r.result?.getD (.ok ())
  | _ => .ok ()

/-- Runs a role on a machine without processes until it ends: how it went, and what it wrote. -/
def reenter (m : Machine) (role : Role) (channel : RoleChannel)
    (config : Except ConfigError Config) (s : Surroundings) :
    Except ReentryError Unit × Bytes :=
  let m := { m with pipes := [Pipe.empty.push s.input, .empty] }
  let (pid, m) := m.addOrphan channel.table (.role (.start role channel.fds config))
  let (listener, m) := m.surround s
  let m := s.endSignal.elim m fun signal => m.settle.signal pid signal
  let m := m.finish pid
  (m.roleResult pid, listener.elim [] m.collected)

end ProcessTree.Machine
