-- A root at work: it has one child on a machine, and jobs when the child is a
-- worker. Its calls are the only thing it does by itself; while one waits, its
-- background work and the other processes go on, and then time.
import ProcessTree.Machine.Run
import ProcessTree.Worker.StartCall

namespace ProcessTree

/-- A root with its child. -/
structure Root where
  machine : Machine
  /-- The root's own process. -/
  self : Nat
  child : Handle
  /-- The channel to the child, until it is closed. -/
  channel : Option (Channel ReplyMessage)
  /-- The channels of its jobs, until they are closed. -/
  jobs : List (Option (Channel JobReply))
  outstanding : Outstanding

namespace Root

/-- The time on the machine. -/
def now (r : Root) : Nat := r.machine.clock

/-! ## Starting the child -/

/-- Starts a child from a new process of a machine, with a channel between the two. -/
def spawn (machine : Machine) (options : SpawnOptions) (outbound inbound : Registry) :
    Except ProcessError Root :=
  let (self, machine) := machine.addOrphan .standard .outside
  match machine.spawn self options with
  | (.error e, _) => .error e
  | (.ok (child, ends), machine) =>
    match machine.openChannel self outbound inbound ends.send ends.receive with
    | (.error e, _) => .error (.channel e)
    | (.ok channel, machine) => .ok {
        machine := machine
        self := self
        child := child
        channel := some channel
        jobs := []
        outstanding := .start }

/-! ## Work in the background -/

/-- Reads the channel of the first job that has something to read. -/
def pumpJobs? (m : Machine) (self : Nat) :
    List (Option (Channel JobReply)) → Option (List (Option (Channel JobReply)) × Machine)
  | [] => none
  | job :: rest =>
    match job.bind (m.pump? self) with
    | some (job, m) => some (some job :: rest, m)
    | none => (pumpJobs? m self rest).map fun (rest, m) => (job :: rest, m)

/-- One move of the root's own background work: it watches its child and reads its channels. -/
def background? (r : Root) : Option Root :=
  match r.machine.watch? r.child with
  | some (child, machine) => some { r with child, machine }
  | none =>
    match r.channel.bind (r.machine.pump? r.self) with
    | some (channel, machine) => some { r with channel := some channel, machine }
    | none => (pumpJobs? r.machine r.self r.jobs).map fun (jobs, machine) => { r with jobs, machine }

/-- One move of the root's background work or of another process. -/
def move? (r : Root) : Option Root :=
  r.background?.or (r.machine.move?.map fun machine => { r with machine })

/-- Lets the next thing happen: a move, or else time goes on to the next point that anyone waits
for, the root until `limit`. -/
def pass? (r : Root) (limit : Option Nat) : Option Root :=
  match r.move? with
  | some r => some r
  | none => (limit.toList ++ r.machine.timer?.toList).min?.map fun time =>
    { r with machine := r.machine.advance time }

/-! ## Waiting -/

/-- How waiting for something ends. -/
inductive Awaited (α : Type) where
  | came (a : α)
  | expired
  /-- It never comes. -/
  | never

/-- Waits for what `poll` looks for until the deadline, so many moves at most. What has come counts
even after the deadline. -/
def awaitWithin {α : Type} (poll : Root → Option α × Root) (deadline : Option Nat) :
    Nat → Root → Awaited α × Root
  | 0, r => (.never, r)
  | fuel + 1, r =>
    match poll r with
    | (some a, r) => (.came a, r)
    | (none, r) =>
      if deadline.any (· ≤ r.now) then (.expired, r)
      else match r.pass? deadline with
        | some r => awaitWithin poll deadline fuel r
        | none => (.never, r)

/-- Waits for what `poll` looks for until the deadline. -/
def await {α : Type} (r : Root) (poll : Root → Option α × Root) (deadline : Option Nat) :
    Awaited α × Root :=
  awaitWithin poll deadline r.machine.work r

/-- The deadline that is so many milliseconds away. -/
def deadlineIn (r : Root) (millis : Option Nat) : Option Nat := millis.map (r.now + ·)

/-- Lets everything happen that can happen now. -/
def settle (r : Root) : Root := go r.machine.work r
where
  go : Nat → Root → Root
    | 0, r => r
    | fuel + 1, r =>
      match r.move? with
      | some r => go fuel r
      | none => r

/-- Does nothing for some time. -/
def pause (r : Root) (millis : Nat) : Root :=
  (r.await (fun r => ((none : Option Unit), r)) (some (r.now + millis))).2

end Root

end ProcessTree
