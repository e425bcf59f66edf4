-- How the root gets hold of a job. The worker reports two numbers, which mean
-- something in its own table only, and only until its next event. The call that
-- is told of them copies what they stand for, one after the other.
import ProcessTree.Proofs.Worker.Exchange
import ProcessTree.Proofs.Worker.Handoff
import ProcessTree.Proofs.Worker.Turns

namespace ProcessTree

/-! ## The system -/

/-- A job that a call has returned. -/
structure Returned where
  caller : Caller
  /-- The first of the two pipes that were made for the job. -/
  pipe : Nat
  /-- The numbers of the root that it is connected with. -/
  writer : Nat
  reader : Nat
  /-- Whether they were not closed yet. -/
  isHeld : Bool

/-- What its numbers stand for. -/
def Returned.files (j : Returned) : List (Nat × OpenFile) :=
  if j.isHeld then [(j.writer, .writeEnd (j.pipe + 1)), (j.reader, .readEnd j.pipe)] else []

/-- The calls, the worker's loop and their channel, on a machine. -/
structure Pickup where
  exchange : Exchange
  machine : Machine
  root : Nat
  worker : Nat
  /-- The first pipe of each job that was started. -/
  opened : List Nat
  /-- What the call that has its turn has copied from the worker. -/
  fetched : List Nat
  returned : List Returned

namespace Pickup

inductive Move where
  /-- A call goes on, or is told that it will not be given what it asked for. -/
  | root (move : Desk.Move)
  | receive
  /-- The call that has its turn copies the next of the two descriptors. -/
  | fetch
  /-- It makes a channel of them. -/
  | connect
  /-- The job is sent its begin, and the call returns it. -/
  | greet
  /-- A job that was returned is let go of. -/
  | letGo (i : Nat)
  | worker (move : Service.Move)
  /-- The worker starts a job. -/
  | make
  /-- The worker's loop takes a message. -/
  | hear
  | down (carry : Link.Carry)
  | up (carry : Link.Carry)

/-- Nothing has happened yet on this machine. -/
def start (machine : Machine) (root worker : Nat) (parent : Int32) : Pickup where
  exchange := .start parent
  machine := machine
  root := root
  worker := worker
  opened := []
  fetched := []
  returned := []

/-- A call that is over closes what it has copied. -/
def release (x : Pickup) : Pickup :=
  match x.exchange.desk.holder with
  | none => { x with machine := x.machine.closeFds x.root x.fetched, fetched := [] }
  | some _ => x

/-- The call that has its turn is told what came of what it asked for. -/
def settle? (x : Pickup) (answer : StartAnswer) : Option Pickup :=
  (x.exchange.next? (.root (.settle answer))).map fun exchange => release { x with exchange }

def fetch? (x : Pickup) : Option Pickup :=
  match x.exchange.desk.holder.bind (·.call.request?) with
  | some (.fetch number) =>
    match x.machine.fetch x.root x.worker number.toInt with
    | (.ok copy, machine) =>
      settle? { x with machine, fetched := x.fetched ++ [copy] } (.fetched (.ok ()))
    | (.error e, machine) => settle? { x with machine } (.fetched (.error e))
  | _ => none

def connect? (x : Pickup) : Option Pickup :=
  match x.fetched with
  | [writer, reader] =>
    match (x.machine.openChannel x.root Direction.rootToJob.registry Direction.jobToRoot.registry
        writer reader : Except ChannelError (Channel JobReply) × Machine) with
    | (.ok _, machine) => settle? { x with machine } (.connected (.ok ()))
    | (.error e, machine) =>
      settle? { x with machine, fetched := [] } (.connected (.error e))
  | _ => none

def greet? (x : Pickup) : Option Pickup :=
  match x.exchange.desk.holder, x.fetched with
  | some ⟨identity, .greeting reply, some place⟩, [writer, reader] =>
    settle? { x with
      fetched := []
      returned := x.returned ++ [⟨⟨identity, .finished (.ok reply), some place⟩,
        x.opened[place]?.getD 0, writer, reader, true⟩] } (.sent (.ok ()))
  | _, _ => none

def letGo? (x : Pickup) (i : Nat) : Option Pickup :=
  (x.returned[i]?).map fun j => { x with
    machine := x.machine.closeFds x.root (j.files.map Prod.fst)
    returned := x.returned.set i { j with isHeld := false } }

/-- A signal ends the worker's loop, and is left out here. -/
def worker? (x : Pickup) : Service.Move → Option Pickup
  | .signal _ | .make (.ok _) => none
  | move =>
    (x.machine.roleOf? x.worker).bind fun r =>
      (x.exchange.next? (.worker move)).map fun exchange => { x with
        exchange
        machine := x.machine.setRole x.worker { r with loop := exchange.service.loop } }

/-- Numbers that do not fit into a reply are never given out. -/
def fits (ends : Machine.NewChannel) : Bool :=
  (Int32.ofNat ends.receive).toInt == ends.receive && (Int32.ofNat ends.send).toInt == ends.send

def make? (x : Pickup) : Option Pickup :=
  match x.machine.roleOf? x.worker, x.exchange.service.loop.stage with
  | some r, .starting request =>
    match r.config with
    | .error _ => none
    | .ok config =>
      let machine := x.machine.startJob x.worker r config request
      match (x.machine.spawn x.worker (.job config request.identity x.machine.running)).1 with
      | .error e =>
        (x.exchange.next? (.worker (.make (.error (.process e))))).map fun exchange =>
          { x with exchange, machine }
      | .ok (job, ends) =>
        if fits ends then
          (x.exchange.next? (.worker (.make (.ok (Machine.replyOf job ends))))).map fun exchange =>
            { x with exchange, machine, opened := x.opened ++ [x.machine.pipes.length] }
        else none
  | _, _ => none

/-- The end of the channel ends the worker's loop too, and is left out here. -/
def hear? (x : Pickup) : Option Pickup :=
  match x.machine.roleOf? x.worker, x.exchange.down.recv? with
  | some r, some (.ok m, _) =>
    (x.exchange.next? .hear).map fun exchange =>
      { x with exchange, machine := x.machine.onEvent x.worker r (.message m) }
  | _, _ => none

def next? (x : Pickup) : Move → Option Pickup
  | .root move =>
    if move.gives then none
    else (x.exchange.next? (.root move)).map fun exchange => release { x with exchange }
  | .receive => (x.exchange.next? .receive).map fun exchange => release { x with exchange }
  | .fetch => x.fetch?
  | .connect => x.connect?
  | .greet => x.greet?
  | .letGo i => x.letGo? i
  | .worker move => x.worker? move
  | .make => x.make?
  | .hear => x.hear?
  | .down carry => (x.exchange.next? (.down carry)).map fun exchange => { x with exchange }
  | .up carry => (x.exchange.next? (.up carry)).map fun exchange => { x with exchange }

/-- The numbers of the root that belong to calls and jobs, and what they stand for. -/
def inHand (x : Pickup) : List (Nat × OpenFile) := x.returned.flatMap Returned.files

/-- Whatever else happens on the machine: the worker lives on, and nobody but the two processes
themselves has a say in what their numbers stand for. Who they are to the system, and how the
system answers from now on, is left open. -/
structure Undisturbed (x : Pickup) (m : Machine) : Prop where
  alive : m.isAlive x.worker = x.machine.isAlive x.worker
  role : ∀ r, x.machine.roleOf? x.worker = some r → ∃ r', m.roleOf? x.worker = some r' ∧
    r'.config = r.config ∧ r'.loop = r.loop ∧ r'.handoff = r.handoff
  worker : ∀ r receive send, x.machine.roleOf? x.worker = some r →
    r.handoff = some (receive, send) → ∀ n ∈ [receive, send],
      (m.fdsOf x.worker).file? n = (x.machine.fdsOf x.worker).file? n
  there : ∃ p, m.proc? x.root = some p
  root : ∀ n ∈ x.fetched ++ x.inHand.map Prod.fst,
    (m.fdsOf x.root).file? n = (x.machine.fdsOf x.root).file? n
  pipes : x.machine.pipes.length ≤ m.pipes.length

/-- One thing that happens. -/
inductive Step (x : Pickup) : Pickup → Prop where
  | move {move : Move} {x' : Pickup} (h : x.next? move = some x') : Step x x'
  | others {m : Machine} (h : x.Undisturbed m) : Step x { x with machine := m }

/-- Each attempt to start a job may be answered otherwise than the one before. -/
theorem undisturbed_host (x : Pickup) (hthere : ∃ p, x.machine.proc? x.root = some p)
    (host : Host) : x.Undisturbed { x.machine with host } where
  alive := rfl
  role r hrole := ⟨r, hrole, rfl, rfl, rfl⟩
  worker _ _ _ _ _ _ _ := rfl
  there := hthere
  root _ _ := rfl
  pipes := Nat.le_refl _

/-- The worker has done nothing but make its channel. -/
structure Ready (m : Machine) (root worker : Nat) : Prop where
  apart : root ≠ worker
  root : ∃ p, m.proc? root = some p
  worker : ∃ r config, m.Plays worker r [] ∧ r.config = .ok config ∧ r.loop = .start .worker ∧
    r.handoff = none

/-! ## What a move does -/

section Moving

variable {x x' : Pickup}

theorem settle?_eq_some {answer : StartAnswer} (hmove : x.settle? answer = some x') :
    ∃ exchange, x.exchange.next? (.root (.settle answer)) = some exchange ∧
      x' = release { x with exchange } := by
  obtain ⟨exchange, hnext, rfl⟩ := Option.map_eq_some_iff.mp hmove
  exact ⟨exchange, hnext, rfl⟩

theorem next?_root_eq_some {move : Desk.Move} (hmove : x.next? (.root move) = some x') :
    ∃ exchange, move.gives = false ∧ x.exchange.next? (.root move) = some exchange ∧
      x' = release { x with exchange } := by
  simp only [next?] at hmove
  split at hmove
  · cases hmove
  · rename_i hgives
    obtain ⟨exchange, hnext, rfl⟩ := Option.map_eq_some_iff.mp hmove
    exact ⟨exchange, Bool.eq_false_of_not_eq_true hgives, hnext, rfl⟩

theorem next?_fetch_eq_some (hmove : x.next? .fetch = some x') :
    ∃ hd number machine, x.exchange.desk.holder = some hd ∧
      hd.call.request? = some (.fetch number) ∧
      ((∃ copy, x.machine.fetch x.root x.worker number.toInt = (.ok copy, machine) ∧
          settle? { x with machine, fetched := x.fetched ++ [copy] } (.fetched (.ok ())) =
            some x') ∨
        ∃ e, x.machine.fetch x.root x.worker number.toInt = (.error e, machine) ∧
          settle? { x with machine } (.fetched (.error e)) = some x') := by
  simp only [next?, fetch?] at hmove
  split at hmove
  · rename_i number hasks
    obtain ⟨hd, hholder, hrequest⟩ := Option.bind_eq_some_iff.mp hasks
    split at hmove
    · rename_i copy machine hfetch
      exact ⟨hd, number, machine, hholder, hrequest, Or.inl ⟨copy, hfetch, hmove⟩⟩
    · rename_i e machine hfetch
      exact ⟨hd, number, machine, hholder, hrequest, Or.inr ⟨e, hfetch, hmove⟩⟩
  · cases hmove

theorem next?_connect_eq_some (hmove : x.next? .connect = some x') :
    ∃ writer reader machine, x.fetched = [writer, reader] ∧
      ((∃ channel : Channel JobReply, x.machine.openChannel x.root Direction.rootToJob.registry
            Direction.jobToRoot.registry writer reader = (.ok channel, machine) ∧
          settle? { x with machine } (.connected (.ok ())) = some x') ∨
        ∃ e, (x.machine.openChannel x.root Direction.rootToJob.registry
            Direction.jobToRoot.registry writer reader :
              Except ChannelError (Channel JobReply) × Machine) = (.error e, machine) ∧
          settle? { x with machine, fetched := [] } (.connected (.error e)) = some x') := by
  simp only [next?, connect?] at hmove
  split at hmove
  · rename_i writer reader hfetched
    split at hmove
    · rename_i channel machine hopen
      exact ⟨writer, reader, machine, hfetched, Or.inl ⟨channel, hopen, hmove⟩⟩
    · rename_i e machine hopen
      exact ⟨writer, reader, machine, hfetched, Or.inr ⟨e, hopen, hmove⟩⟩
  · cases hmove

theorem next?_greet_eq_some (hmove : x.next? .greet = some x') :
    ∃ identity reply place writer reader,
      x.exchange.desk.holder = some ⟨identity, .greeting reply, some place⟩ ∧
      x.fetched = [writer, reader] ∧
      settle? { x with
        fetched := []
        returned := x.returned ++ [⟨⟨identity, .finished (.ok reply), some place⟩,
          x.opened[place]?.getD 0, writer, reader, true⟩] } (.sent (.ok ())) = some x' := by
  simp only [next?, greet?] at hmove
  split at hmove
  · rename_i identity reply place writer reader hholder hfetched
    exact ⟨identity, reply, place, writer, reader, hholder, hfetched, hmove⟩
  · cases hmove

theorem next?_worker_eq_some {move : Service.Move} (hmove : x.next? (.worker move) = some x') :
    ∃ r exchange, (∀ signal, move ≠ .signal signal) ∧ (∀ result, move ≠ .make (.ok result)) ∧
      x.machine.roleOf? x.worker = some r ∧
      x.exchange.next? (.worker move) = some exchange ∧
      x' = { x with
        exchange
        machine := x.machine.setRole x.worker { r with loop := exchange.service.loop } } := by
  simp only [next?] at hmove
  unfold worker? at hmove
  split at hmove
  · cases hmove
  · cases hmove
  · rename_i hsignal hmake
    obtain ⟨r, hrole, hmove⟩ := Option.bind_eq_some_iff.mp hmove
    obtain ⟨exchange, hnext, rfl⟩ := Option.map_eq_some_iff.mp hmove
    exact ⟨r, exchange, hsignal, hmake, hrole, hnext, rfl⟩

/-- A job is started, and its numbers can be told; or none is. -/
theorem next?_make_eq_some (hmove : x.next? .make = some x') :
    ∃ r request config, x.machine.roleOf? x.worker = some r ∧ r.config = .ok config ∧
      ∃ started exchange,
      ((∃ e, x.machine.spawn x.worker (.job config request.identity x.machine.running) =
            (.error e, started) ∧
          x.exchange.next? (.worker (.make (.error (.process e)))) = some exchange ∧
          x' = { x with exchange, machine := x.machine.startJob x.worker r config request }) ∨
        ∃ job ends, x.machine.spawn x.worker (.job config request.identity x.machine.running) =
            (.ok (job, ends), started) ∧ fits ends = true ∧
          x.exchange.next? (.worker (.make (.ok (Machine.replyOf job ends)))) = some exchange ∧
          x' = { x with
            exchange
            machine := x.machine.startJob x.worker r config request
            opened := x.opened ++ [x.machine.pipes.length] }) := by
  simp only [next?, make?] at hmove
  split at hmove
  · rename_i r request hrole hstage
    split at hmove
    · cases hmove
    · rename_i config hconfig
      refine ⟨r, request, config, hrole, hconfig, ?_⟩
      rcases hspawn : x.machine.spawn x.worker
        (.job config request.identity x.machine.running) with ⟨e | ⟨job, ends⟩, started⟩
      · rw [hspawn] at hmove
        obtain ⟨exchange, hnext, rfl⟩ := Option.map_eq_some_iff.mp hmove
        exact ⟨started, exchange, Or.inl ⟨e, rfl, hnext, rfl⟩⟩
      · rw [hspawn] at hmove
        simp only at hmove
        split at hmove
        · rename_i hfits
          obtain ⟨exchange, hnext, rfl⟩ := Option.map_eq_some_iff.mp hmove
          exact ⟨started, exchange, Or.inr ⟨job, ends, rfl, hfits, hnext, rfl⟩⟩
        · cases hmove
  · cases hmove

theorem next?_hear_eq_some (hmove : x.next? .hear = some x') :
    ∃ r m down exchange, x.machine.roleOf? x.worker = some r ∧
      x.exchange.down.recv? = some (.ok m, down) ∧ x.exchange.next? .hear = some exchange ∧
      x' = { x with
        exchange
        machine := x.machine.onEvent x.worker r (.message m) } := by
  simp only [next?, hear?] at hmove
  split at hmove
  · rename_i r m down hrole hrecv
    obtain ⟨exchange, hnext, rfl⟩ := Option.map_eq_some_iff.mp hmove
    exact ⟨r, m, down, exchange, hrole, hrecv, hnext, rfl⟩
  · cases hmove

end Moving

end Pickup

end ProcessTree
