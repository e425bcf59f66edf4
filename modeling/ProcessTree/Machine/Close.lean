-- Closing a child on a machine: the requests of `Closing` are answered one by
-- one, and those that take time are answered when their time has come.
import ProcessTree.Machine.Signals

namespace ProcessTree

namespace CloseRun

/-- A close that begins now. -/
def start (holdsChannel : Bool) (deadline : Option Nat) (now : Nat) : CloseRun :=
  ⟨.start holdsChannel, deadline, now⟩

/-- The point in time at which a close goes on by itself, if there is one. -/
def limit? (run : CloseRun) (grace : Nat) : Option Nat :=
  match run.closing.request? with
  | some (.sendQuit limit) | some (.wait limit) => limit.time run.deadline run.since grace
  | _ => none

/-- Whether what it asks for now has taken too long. -/
def isExpired (run : CloseRun) (grace now : Nat) : Bool := (run.limit? grace).any (· ≤ now)

/-- Goes on with an answer that comes now. -/
def answer (run : CloseRun) (a : CloseAnswer) (now : Nat) : CloseRun :=
  { run with closing := run.closing.answer a, since := now }

end CloseRun

namespace Machine

/-- Answers what the close of a child asks for, if that can be answered now. What concerns its
channel counts as done: whoever holds one answers it before. -/
def closeStep? (m : Machine) (h : Handle) (run : CloseRun) : Option (CloseRun × Machine) :=
  match run.closing.request? with
  | none => none
  | some (.sendQuit _) | some .closeChannel => some (run.answer .done m.clock, m)
  | some .readRecord => some (run.answer (.record h.exit) m.clock, m)
  | some (.signal s) => some (run.answer .done m.clock, m.signal h.pid s)
  | some (.wait _) =>
    (h.exit.wait (run.isExpired h.killGrace.toMillis m.clock)).map fun result =>
      (run.answer (.waited result) m.clock, m)

end Machine

end ProcessTree
