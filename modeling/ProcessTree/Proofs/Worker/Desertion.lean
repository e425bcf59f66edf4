-- Jobs whatever becomes of the calls that asked for them. A call may come to its deadline, be
-- dropped, or not get hold of the job; the worker goes on, takes a signal or loses its channel.
import ProcessTree.Proofs.Worker.Copying
import ProcessTree.Proofs.Worker.Ground

namespace ProcessTree

/-- The calls, the worker and the jobs that it starts. -/
structure Desertion extends Pickup where
  /-- The processes of the jobs, in the order in which they were started. -/
  jobs : List Nat
  /-- How many jobs there were when the worker last took an event. -/
  attended : Nat
  /-- The places of the jobs that the root has made a channel to. -/
  connected : List Nat

namespace Desertion

/-! ## Moves -/

inductive Move where
  /-- What may happen as long as the worker's loop goes on. A call that cannot copy a descriptor is
  over, and so is one that makes no channel of them. -/
  | pickup (move : Pickup.Move)
  /-- The worker's loop takes a signal. -/
  | signal (s : Signal)
  /-- It takes the end of its channel, or what else that fails with. -/
  | lose
  /-- The worker ends. -/
  | fall (state : ExitState)
  /-- The root starts another process. -/
  | launch (options : SpawnOptions)
  /-- A job goes on. -/
  | goOn (k : Nat)
  /-- A job reads its channel, even where it could do something else. -/
  | listen (k : Nat)
  /-- A job takes a signal, even where there is a message. -/
  | notice (k : Nat)
  | strike (k : Nat) (s : Signal)

/-- Nothing has happened yet on this machine. -/
def begin (machine : Machine) (root worker : Nat) (parent : Int32) : Desertion :=
  { Pickup.start machine root worker parent with jobs := [], attended := 0, connected := [] }

/-- The next child of the worker can be told its ends. -/
def tells (x : Desertion) : Bool :=
  let ends := (x.machine.openEnds x.worker).1.child
  decide (ends.receive ≤ Invocation.maxFd) && decide (ends.send ≤ Invocation.maxFd)

/-- The worker starts a job, and that is the next process. -/
def make? (x : Desertion) : Option Desertion :=
  if x.tells then
    (x.toPickup.next? .make).map fun pickup => { x with
      toPickup := pickup
      jobs := x.jobs ++ (pickup.opened.drop x.opened.length).map fun _ => x.machine.nextPid }
  else none

/-- The worker's loop takes an event that is no message. -/
def attend (x : Desertion) (exchange : Exchange) (r : RoleRun) (event : LoopEvent) : Desertion :=
  { x with
    exchange
    machine := x.machine.onEvent x.worker r event
    attended := x.opened.length }

def lose? (x : Desertion) : Option Desertion :=
  match x.machine.roleOf? x.worker, x.exchange.down.recv? with
  | some r, some (.error e, _) =>
    (x.exchange.next? .hear).map fun exchange => x.attend exchange r (.failed e)
  | _, _ => none

/-- A job, while it can do something, with the role that it plays. -/
def job? (x : Desertion) (k : Nat) : Option (Proc × RoleRun) :=
  x.jobs[k]?.bind fun pid => (x.machine.proc? pid).bind fun p =>
    if p.isActive then (x.machine.roleOf? pid).map fun r => (p, r) else none

/-- A loop that waits takes the next signal. -/
def notice? (m : Machine) (p : Proc) (r : RoleRun) : Option Machine :=
  match r.loop.stage, r.channel with
  | .awaiting, some _ => (m.catch? p.pid).map fun (s, m) => m.onEvent p.pid r (.signal s)
  | _, _ => none

/-- What a move leads to, where it is possible. -/
def next? (x : Desertion) : Move → Option Desertion
  | .pickup .make => x.make?
  | .pickup .hear => (x.toPickup.next? .hear).map fun pickup =>
      { x with toPickup := pickup, attended := x.opened.length }
  | .pickup .connect => (x.toPickup.next? .connect).map fun pickup => { x with
      toPickup := pickup
      connected := x.connected ++ (pickup.exchange.desk.holder.bind Caller.place).toList }
  | .pickup move => (x.toPickup.next? move).map fun pickup => { x with toPickup := pickup }
  | .signal s => (x.machine.roleOf? x.worker).bind fun r =>
      (x.exchange.next? (.worker (.signal s))).map fun exchange => x.attend exchange r (.signal s)
  | .lose => x.lose?
  | .fall state => some { x with machine := x.machine.endProc x.worker state }
  | .launch options => some { x with machine := (x.machine.spawn x.root options).2 }
  | .goOn k => (x.job? k).bind fun (p, r) =>
      (x.machine.roleMove? p r).map fun machine => { x with machine }
  | .listen k => (x.job? k).bind fun (p, r) => r.channel.bind fun c =>
      (x.machine.backgroundMove? p.pid r c).map fun machine => { x with machine }
  | .notice k => (x.job? k).bind fun (p, r) =>
      (notice? x.machine p r).map fun machine => { x with machine }
  | .strike k s => x.jobs[k]?.map fun pid => { x with machine := x.machine.signal pid s }

/-- Whatever else happens on the machine: the worker keeps what it keeps, nobody gets hold of what a
job is written to over, nothing comes to a job that the root has made no channel to, and a job that
lives on is what it was. How the system answers from now on is left open. -/
structure Undisturbed (x : Desertion) (m : Machine) : Prop where
  grounded : m.Grounded x.root x.worker
  handoff : m.handoffOf x.worker = x.machine.handoffOf x.worker
  gains : ∀ pipe ∈ x.opened, ∀ who, x.machine.Within (.writeEnd (pipe + 1)) who →
    m.Within (.writeEnd (pipe + 1)) who
  longer : x.machine.pipes.length ≤ m.pipes.length
  later : x.machine.nextPid ≤ m.nextPid
  pipes : ∀ k pipe, x.opened[k]? = some pipe → k ∉ x.connected →
    m.pipes[pipe + 1]? = x.machine.pipes[pipe + 1]?
  jobs : ∀ pid ∈ x.jobs, ∀ p, x.machine.proc? pid = some p →
    ∃ p', m.proc? pid = some p' ∧ (p'.life = .alive → p' = p)

/-- Each attempt to start a process may be answered otherwise than the one before. -/
theorem undisturbed_host {x : Desertion} (h : x.machine.Grounded x.root x.worker) (host : Host) :
    x.Undisturbed { x.machine with host } where
  grounded :=
    ⟨h.apart, h.root, h.worker, h.behaviour, h.configured, h.fresh, h.formed⟩
  handoff := rfl
  gains _ _ _ hwithin := hwithin
  longer := Nat.le_refl _
  later := Nat.le_refl _
  pipes _ _ _ _ := rfl
  jobs _ _ p hp := ⟨p, hp, fun _ => rfl⟩

/-- One thing that happens. -/
inductive Step (x : Desertion) : Desertion → Prop where
  | move {move : Move} {x' : Desertion} (h : x.next? move = some x') : Step x x'
  | others {m : Machine} (h : x.Undisturbed m) : Step x { x with machine := m }

end Desertion

end ProcessTree
