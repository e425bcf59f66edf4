-- How the end of a process comes to be known. It is written into a record once,
-- and read by all who wait for it. The monitor of the process writes it: it
-- registers with the system, and whenever the process can be waited for it waits
-- without hanging, until it knows how the process ended or why that cannot be
-- known.
import ProcessTree.Error

namespace ProcessTree

/-! ## The record -/

/-- What is known of a process's end: nothing yet, how it ended, or why that could not be
observed. -/
abbrev ExitRecord := Option (Except Errno ExitState)

namespace ExitRecord

/-- Writes the record, unless it is written. -/
def write (r : ExitRecord) (outcome : Except Errno ExitState) : ExitRecord :=
  r.or (some outcome)

/-- What those who wait are told of an outcome. -/
def told : Except Errno ExitState → Except ProcessError ExitState
  | .ok state => .ok state
  | .error errno => .error (.wait errno)

/-- How a wait ends now, if it does: with the record, even after its deadline, else when the
deadline has passed. -/
def wait (r : ExitRecord) (expired : Bool) : Option (Except ProcessError ExitState) :=
  match r with
  | some outcome => some (told outcome)
  | none => if expired then some (.error .deadlineExceeded) else none

end ExitRecord

/-! ## The monitor -/

/-- The error number of a failure; one that has none counts as EIO. -/
def IoFailure.errno : IoFailure → Errno
  | .system errno => errno
  | .told _ => ⟨5⟩

/-- What waiting for a process without hanging reports. -/
inductive WaitReport where
  | exited (code : Int)
  | signaled (signal : Signal)
  /-- It has not ended: it lives, was stopped or goes on. -/
  | going
  deriving DecidableEq, Repr

namespace WaitReport

/-- How the process ended, if it has. -/
def state? : WaitReport → Option ExitState
  | .exited code => some (.exited code)
  | .signaled signal => some (.signaled signal)
  | .going => none

end WaitReport

/-- Where a monitor stands. -/
inductive Monitor where
  /-- Registering for the end of the process. -/
  | registering
  /-- Until the process can be waited for. -/
  | watching
  /-- Waiting for it without hanging. -/
  | asking
  | observed (outcome : Except Errno ExitState)
  /-- The record is written. -/
  | finished
  deriving Repr

/-- What the system answers a monitor. -/
inductive MonitorAnswer where
  | done
  /-- Registering, or the wait for the end, failed. -/
  | failed (failure : IoFailure)
  /-- The process could not be waited for. -/
  | refused (errno : Errno)
  | reported (report : WaitReport)
  deriving Repr

namespace Monitor

/-- Goes on with an answer. An answer to another request changes nothing. -/
def answer : Monitor → MonitorAnswer → Monitor
  | .registering, .done => .watching
  | .watching, .done => .asking
  | .registering, .failed failure | .watching, .failed failure => .observed (.error failure.errno)
  | .asking, .refused errno =>
    if errno = .interrupted then .watching else .observed (.error errno)
  | .asking, .reported report =>
    match report.state? with
    | some state => .observed (.ok state)
    | none => .watching
  | monitor, _ => monitor

/-- A monitor that knows the end observes nothing more. -/
theorem answer_finished (a : MonitorAnswer) : finished.answer a = finished := by
  cases a <;> rfl

theorem answer_ne_finished {monitor : Monitor} (h : monitor ≠ .finished) (a : MonitorAnswer) :
    monitor.answer a ≠ .finished := by
  unfold answer
  split
  · exact Monitor.noConfusion
  · exact Monitor.noConfusion
  · exact Monitor.noConfusion
  · exact Monitor.noConfusion
  · split <;> exact Monitor.noConfusion
  · split <;> exact Monitor.noConfusion
  · exact h

end Monitor

end ProcessTree
