-- Running a machine: one process moves after the other, and when none can move
-- the clock goes on to the next point in time that someone waits for.
import ProcessTree.Machine.RoleMoves
import ProcessTree.Machine.StandInMoves

namespace ProcessTree.Machine

/-! ## Moves -/

/-- One move of a process, if it can move. -/
def moveOf? (m : Machine) (p : Proc) : Option Machine :=
  if p.isActive then
    match p.program with
    | .outside => none
    | .role r => m.roleMove? p r
    | .standIn fds s => m.standInMove? p.pid fds s
  else none

/-- One move of the first process that can move. -/
def move? (m : Machine) : Option Machine := m.procs.findSome? m.moveOf?

/-- The point in time at which a process goes on by itself, if there is one. -/
def timerOf? (p : Proc) : Option Nat :=
  match p.isActive, p.program with
  | true, .role r =>
    match r.jobs, r.closing with
    | job :: _, some run => run.limit? job.killGrace.toMillis
    | _, _ => none
  | _, _ => none

/-- The next point in time at which a process goes on by itself. -/
def timer? (m : Machine) : Option Nat := (m.procs.filterMap timerOf?).min?

/-- Lets time go on to a later point. -/
def advance (m : Machine) (time : Nat) : Machine := { m with clock := max m.clock time }

/-! ## Runs -/

/-- How many bytes are still to be handled: those in pipes, and those to be written. -/
def bytesLeft (m : Machine) : Nat :=
  (m.pipes.map (·.size)).foldr (· + ·) 0 + (m.procs.map fun p =>
    match p.program with
    | .standIn _ (.answers left _) => left.length
    | .standIn _ (.playsJobs _ _ seen left _) => seen.length + left.length
    | _ => 0).foldr (· + ·) 0

/-- A bound on the moves that a machine makes by itself: each byte is written, read and acted on
by a bounded number of moves, and each process starts, is closed and ends by some more. -/
def work (m : Machine) : Nat := 64 * (m.bytesLeft + m.procs.length + 16)

theorem work_ne_zero (m : Machine) : m.work ≠ 0 := by
  unfold work
  omega

/-- Moves until nothing can move, so many times at most. -/
def settleWithin : Nat → Machine → Machine
  | 0, m => m
  | fuel + 1, m =>
    match m.move? with
    | some m' => settleWithin fuel m'
    | none => m

/-- Moves until nothing can move without time going on. -/
def settle (m : Machine) : Machine := m.settleWithin m.work

/-- Moves until a process has ended, and lets time go on where nothing else can; stops where
nothing can happen any more. -/
def finishWithin (pid : Nat) : Nat → Machine → Machine
  | 0, m => m
  | fuel + 1, m =>
    if !m.isAlive pid then m
    else match m.move? with
      | some m' => finishWithin pid fuel m'
      | none =>
        match m.timer? with
        | some time => finishWithin pid fuel (m.advance time)
        | none => m

/-- Moves until a process has ended, and from there until nothing can move. -/
def finish (m : Machine) (pid : Nat) : Machine := (m.finishWithin pid m.work).settle

end ProcessTree.Machine
