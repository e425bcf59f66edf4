-- Closing a process: quit is sent and the channel closed, once in its life; then
-- SIGTERM is sent unless the process has ended; and when the deadline passes,
-- SIGKILL.
import ProcessTree.Process.Monitor

namespace ProcessTree

/-- How long something may take. -/
inductive Limit where
  /-- Until the deadline that the caller gave, if there is one. -/
  | deadline
  /-- Until the caller's deadline, or as long as a killed process gets when there is none. -/
  | deadlineOrGrace
  /-- As long as a killed process gets. -/
  | grace
  deriving DecidableEq, Repr

namespace Limit

/-- The point in time of a limit for something that began at `since`. -/
def time (deadline : Option Nat) (since grace : Nat) : Limit → Option Nat
  | .deadline => deadline
  | .deadlineOrGrace => some (deadline.getD (since + grace))
  | .grace => some (since + grace)

end Limit

/-- What a close asks for next. -/
inductive CloseRequest where
  /-- Sends quit; how that goes does not matter. -/
  | sendQuit (limit : Limit)
  | closeChannel
  | readRecord
  | signal (signal : Signal)
  | wait (limit : Limit)
  deriving DecidableEq, Repr

/-- What a request came to. -/
inductive CloseAnswer where
  | done
  | failed (errno : Errno)
  | record (r : ExitRecord)
  | waited (result : Except ProcessError ExitState)
  deriving Repr

/-- Where a close stands. -/
inductive Closing where
  | quitting
  | disconnecting
  | checking
  | terminating
  | waiting
  | killing
  | reaping
  | finished (result : Except ProcessError ExitState)
  deriving Repr

namespace Closing

/-- A close of a process whose channel is still held, or is not. -/
def start (holdsChannel : Bool) : Closing := if holdsChannel then .quitting else .checking

/-- What a close asks for next; nothing once it has finished. -/
def request? : Closing → Option CloseRequest
  | .quitting => some (.sendQuit .deadlineOrGrace)
  | .disconnecting => some .closeChannel
  | .checking => some .readRecord
  | .terminating => some (.signal .term)
  | .waiting => some (.wait .deadline)
  | .killing => some (.signal .kill)
  | .reaping => some (.wait .grace)
  | .finished _ => none

/-- Goes on with an answer. An answer to another request changes nothing. -/
def answer : Closing → CloseAnswer → Closing
  | .quitting, .done => .disconnecting
  | .disconnecting, .done => .checking
  | .checking, .record r => if r.isSome then .waiting else .terminating
  | .terminating, .done => .waiting
  | .waiting, .waited (.error .deadlineExceeded) => .killing
  | .waiting, .waited result => .finished result
  | .killing, .done => .reaping
  | .terminating, .failed e | .killing, .failed e => .finished (.error (.signal e))
  | .reaping, .waited result => .finished result
  | c, _ => c

end Closing

end ProcessTree
