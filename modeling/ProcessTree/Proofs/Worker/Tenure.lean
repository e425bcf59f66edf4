-- A worker and the jobs that it starts, from its first event to its end. However its loop ends,
-- each job is closed once, in the order in which they were started, and all with the deadline that
-- was set when the loop was over. A job whose end is not known then is killed.
import ProcessTree.Proofs.Process.Escalation
import ProcessTree.Proofs.Role.Undisturbed

namespace ProcessTree

open HandleLife (dropSignal?)

/-- What a worker does about its jobs. -/
inductive JobDeed where
  | starts (pid : Nat)
  /-- Its loop is over, and it turns to its jobs. -/
  | leaves (clock : Nat)
  | closes (pid : Nat) (deadline : Option Nat)
  /-- The close of a job has returned. -/
  | closed (pid : Nat) (result : Except ProcessError ExitState)
  /-- It lets go of a job of whose end this is known, and sends it this. -/
  | drops (pid : Nat) (exit : ExitRecord) (signal : Option Signal)
  deriving DecidableEq, Repr

/-- How a worker ended with a job. -/
structure JobEnd where
  pid : Nat
  /-- What the close returned. -/
  result : Except ProcessError ExitState
  /-- What was known of its end when the worker let go of it. -/
  exit : ExitRecord

/-- All that a worker does at the end about one of its jobs. -/
def JobEnd.deeds (deadline : Option Nat) (e : JobEnd) : List JobDeed :=
  [.closes e.pid deadline, .closed e.pid e.result, .drops e.pid e.exit (dropSignal? e.exit)]

/-- The jobs of a role by their numbers. -/
def RoleRun.pids (r : RoleRun) : List Nat := r.jobs.map (·.pid)

/-- Whether no close is under way. -/
def RoleRun.isBetween (r : RoleRun) : Bool := r.closing.all (·.closing.request?.isNone)

/-- A worker on a machine, with what it has done about its jobs. -/
structure Tenure where
  machine : Machine
  worker : Nat
  deeds : List JobDeed

namespace Tenure

/-! ## Moves -/

inductive Move where
  /-- The worker takes an event, whichever it is. -/
  | take (event : LoopEvent)
  /-- It has tried to become root. -/
  | assume (outcome : Except Errno Unit)
  /-- It tries to start the job that it was asked for. -/
  | make
  /-- It cannot even try that. -/
  | fail (e : ReentryError)
  /-- It has tried to send a reply. -/
  | reply (outcome : Except ChannelError Unit)
  /-- The monitor of one of its jobs writes down what it has observed. -/
  | record (i : Nat) (outcome : Except Errno ExitState)
  /-- It goes on with closing its jobs. -/
  | close
  /-- The signal that a close asks for cannot be sent. -/
  | refuse (errno : Errno)

/-- A worker that has not taken an event yet. -/
def start (machine : Machine) (worker : Nat) : Tenure := ⟨machine, worker, []⟩

/-- The worker goes on like this. -/
def play (x : Tenure) (r : RoleRun) : Tenure := { x with machine := x.machine.setRole x.worker r }

/-- What has come to its end when the jobs are closed further. -/
def settled (clock : Nat) (r : RoleRun) : List JobDeed :=
  match r.closing, r.jobs with
  | none, _ => [.leaves clock]
  | some _, [] => []
  | some run, job :: _ =>
    match run.closing with
    | .finished result => [.closed job.pid result, .drops job.pid job.exit (dropSignal? job.exit)]
    | _ => []

/-- The close that begins when the jobs are closed further and the worker then goes on like this. -/
def begun (r r' : RoleRun) : List JobDeed :=
  match r.isBetween, r'.jobs, r'.closing with
  | true, job :: _, some run => [.closes job.pid run.deadline]
  | _, _, _ => []

/-- What came of starting a job. -/
def started : Except ProcessError (Handle × Machine.NewChannel) → List JobDeed
  | .ok (job, _) => [.starts job.pid]
  | .error _ => []

def make? (x : Tenure) (r : RoleRun) (request : Start) : Option Tenure :=
  r.config.toOption.map fun config =>
    { x with
      machine := x.machine.startJob x.worker r config request
      deeds := x.deeds ++
        started (x.machine.spawn x.worker (.job config request.identity x.machine.running)).1 }

def close? (x : Tenure) (r : RoleRun) : Option Tenure :=
  r.config.toOption.bind fun config =>
    (x.machine.closeJobs? x.worker r config).map fun machine =>
      { x with
        machine
        deeds := x.deeds ++ settled x.machine.clock r ++
          ((machine.roleOf? x.worker).map (begun r)).getD [] }

def refuse? (x : Tenure) (r : RoleRun) (errno : Errno) : Option Tenure :=
  r.closing.bind fun run =>
    (Supervision.signalOf? run.closing).map fun _ =>
      x.play { r with closing := some (run.answer (.failed errno) x.machine.clock) }

/-- What a worker that stands like this makes of a move, where it is possible. -/
def act? (x : Tenure) (r : RoleRun) (move : Move) : Option Tenure :=
  match move, r.loop.stage with
  | .take event, .awaiting => some { x with machine := x.machine.onEvent x.worker r event }
  | .assume outcome, .assuming => some (x.play { r with loop := r.loop.onAssumed outcome })
  | .make, .starting request => x.make? r request
  | .fail e, .starting _ => some (x.play { r with loop := r.loop.onStarted (.error e) })
  | .reply outcome, .replying _ => some (x.play { r with loop := r.loop.onReplied outcome })
  | .record i outcome, _ =>
    some (x.play { r with
      jobs := r.jobs.modify i fun job => { job with exit := job.exit.write outcome } })
  | .close, .leaving _ => x.close? r
  | .refuse errno, .leaving _ => x.refuse? r errno
  | _, _ => none

/-- What a move leads to, where it is possible. -/
def next? (x : Tenure) (move : Move) : Option Tenure :=
  (x.machine.roleOf? x.worker).bind fun r => x.act? r move

/-- All that a worker that stands like this can do. -/
inductive Acts (x : Tenure) (r : RoleRun) : Tenure → Prop where
  | take (hstage : r.loop.stage = .awaiting) (event : LoopEvent) :
      Acts x r { x with machine := x.machine.onEvent x.worker r event }
  | assume (hstage : r.loop.stage = .assuming) (outcome : Except Errno Unit) :
      Acts x r (x.play { r with loop := r.loop.onAssumed outcome })
  | make {request : Start} {x' : Tenure} (hstage : r.loop.stage = .starting request)
      (hmove : x.make? r request = some x') : Acts x r x'
  | fail {request : Start} (hstage : r.loop.stage = .starting request) (e : ReentryError) :
      Acts x r (x.play { r with loop := r.loop.onStarted (.error e) })
  | reply {result : StartResult} (hstage : r.loop.stage = .replying result)
      (outcome : Except ChannelError Unit) :
      Acts x r (x.play { r with loop := r.loop.onReplied outcome })
  | record (i : Nat) (outcome : Except Errno ExitState) :
      Acts x r (x.play { r with
        jobs := r.jobs.modify i fun job => { job with exit := job.exit.write outcome } })
  | close {result : Except ReentryError Unit} {x' : Tenure}
      (hstage : r.loop.stage = .leaving result) (hmove : x.close? r = some x') : Acts x r x'
  | refuse {result : Except ReentryError Unit} {errno : Errno} {x' : Tenure}
      (hstage : r.loop.stage = .leaving result) (hmove : x.refuse? r errno = some x') : Acts x r x'

/-- Whatever else happens on the machine: nobody but the worker decides about its jobs. How the
system answers from now on is left open. -/
def Undisturbed (x : Tenure) (m : Machine) : Prop :=
  ∀ r, x.machine.roleOf? x.worker = some r → ∃ r', m.roleOf? x.worker = some r' ∧
    r'.config = r.config ∧ r'.loop = r.loop ∧ r'.jobs = r.jobs ∧ r'.closing = r.closing

/-- One thing that happens. -/
inductive Step (x : Tenure) : Tenure → Prop where
  | move {move : Move} {x' : Tenure} (h : x.next? move = some x') : Step x x'
  | others {m : Machine} (h : x.Undisturbed m) : Step x { x with machine := m }

/-- The worker has done nothing but make its channel. -/
def Ready (m : Machine) (worker : Nat) (config : Config) : Prop :=
  ∃ r, m.roleOf? worker = some r ∧ r.config = .ok config ∧ r.loop = .start .worker ∧ r.jobs = [] ∧
    r.closing = none

variable {x x' : Tenure} {r : RoleRun} {config : Config}

/-- All that closing the jobs further can do. -/
theorem closeJobs?_cases {m m' : Machine} {pid : Nat}
    (h : m.closeJobs? pid r config = some m') :
    (r.jobs = [] ∧ m' = m.setRole pid { r with loop := r.loop.onJobsClosed }) ∨
    (∃ job rest, r.jobs = job :: rest ∧ r.closing = none ∧ m' = m.setRole pid { r with
      closing := some (.start false (some (m.clock + config.shutdownTimeout.toMillis)) m.clock) }) ∨
    (∃ job rest run result, r.jobs = job :: rest ∧ r.closing = some run ∧
      run.closing = .finished result ∧ m' = (m.dropHandle job).setRole pid { r with
        jobs := rest
        closing := some (.start false run.deadline m.clock) }) ∨
    ∃ job rest run run' m₁, r.jobs = job :: rest ∧ r.closing = some run ∧
      (∀ result, run.closing ≠ .finished result) ∧ m.closeStep? job run = some (run', m₁) ∧
      m' = m₁.setRole pid { r with closing := some run' } := by
  cases hjobs : r.jobs with
  | nil =>
    simp only [Machine.closeJobs?, hjobs, Option.some.injEq] at h
    exact .inl ⟨rfl, h.symm⟩
  | cons job rest =>
    cases hclosing : r.closing with
    | none =>
      simp only [Machine.closeJobs?, hjobs, hclosing, Option.some.injEq] at h
      exact .inr (.inl ⟨job, rest, rfl, rfl, h.symm⟩)
    | some run =>
      cases hrun : run.closing with
      | finished result =>
        simp only [Machine.closeJobs?, hjobs, hclosing, hrun, Option.some.injEq] at h
        exact .inr (.inr (.inl ⟨job, rest, run, result, rfl, rfl, hrun, h.symm⟩))
      | _ =>
        simp only [Machine.closeJobs?, hjobs, hclosing, hrun] at h
        obtain ⟨⟨run', m₁⟩, hstep, rfl⟩ := Option.map_eq_some_iff.mp h
        exact .inr (.inr (.inr ⟨job, rest, run, run', m₁, rfl, rfl, by simp [hrun], hstep, rfl⟩))

/-- A job is started and the worker knows it, or none is. -/
theorem make?_eq_some {request : Start} (hconfig : r.config = .ok config)
    (hmove : x.make? r request = some x') :
    (∃ e m, x.machine.spawn x.worker (.job config request.identity x.machine.running) =
        (.error e, m) ∧ x' = { x with
          machine := m.setRole x.worker { r with
            loop := r.loop.onStarted (.error (.process e)) } }) ∨
      ∃ job ends m, x.machine.spawn x.worker (.job config request.identity x.machine.running) =
        (.ok (job, ends), m) ∧ x' = { x with
          machine := m.setRole x.worker { r with
            jobs := r.jobs ++ [job]
            handoff := some (ends.receive, ends.send)
            loop := r.loop.onStarted (.ok (Machine.replyOf job ends)) }
          deeds := x.deeds ++ [.starts job.pid] } := by
  have hsome : r.config.toOption = some config := by
    rw [hconfig]
    rfl
  unfold make? Machine.startJob at hmove
  rcases hspawn : x.machine.spawn x.worker (.job config request.identity x.machine.running) with
    ⟨e | ⟨job, ends⟩, m⟩
  · simp only [hsome, hspawn, started, Option.map_some, List.append_nil,
      Option.some.injEq] at hmove
    exact .inl ⟨e, m, rfl, hmove.symm⟩
  · simp only [hsome, hspawn, started, Option.map_some, Option.some.injEq] at hmove
    exact .inr ⟨job, ends, m, rfl, hmove.symm⟩

theorem acts_of_next? {move : Move} (hmove : x.next? move = some x') :
    ∃ r, x.machine.roleOf? x.worker = some r ∧ x.Acts r x' := by
  obtain ⟨r, hrole, hact⟩ := Option.bind_eq_some_iff.mp hmove
  refine ⟨r, hrole, ?_⟩
  unfold act? at hact
  split at hact
  · rename_i event hstage
    cases hact
    exact .take hstage event
  · rename_i outcome hstage
    cases hact
    exact .assume hstage outcome
  · rename_i request hstage
    exact .make hstage hact
  · rename_i e _ hstage
    cases hact
    exact .fail hstage e
  · rename_i outcome _ hstage
    cases hact
    exact .reply hstage outcome
  · rename_i i outcome
    cases hact
    exact .record i outcome
  · rename_i hstage
    exact .close hstage hact
  · rename_i hstage
    exact .refuse hstage hact
  · cases hact

/-! ## The loop of a worker -/

/-- A worker's loop that has not ended; it does not end before its jobs are closed. -/
structure Working (l : RoleLoop) : Prop where
  role : l.role = .worker
  going : ∀ result, l.stage ≠ .ended result

theorem working_leave {l : RoleLoop} (h : l.role = .worker) (result : Except ReentryError Unit) :
    Working (l.leave result) where
  role := h
  going := by simp [RoleLoop.leave, h]

theorem working_onEvent {l : RoleLoop} (h : l.role = .worker) (event : LoopEvent) :
    Working (l.onEvent event) := by
  cases event with
  | signal s => exact working_leave h _
  | failed e => cases e <;> exact working_leave h _
  | message m =>
    cases m with
    | quit => exact working_leave h _
    | begin body =>
      by_cases htakes : l.takesBegin = true
      · simp only [RoleLoop.onEvent, if_pos htakes]
        exact ⟨h, nofun⟩
      · simp only [RoleLoop.onEvent, if_neg htakes]
        exact working_leave h _
    | start body =>
      simp only [RoleLoop.onEvent, if_pos h]
      exact ⟨h, nofun⟩

theorem working_onAssumed {l : RoleLoop} (h : l.role = .worker) (outcome : Except Errno Unit) :
    Working (l.onAssumed outcome) := by
  cases outcome with
  | ok u => exact ⟨h, nofun⟩
  | error e => exact working_leave h _

theorem working_onStarted {l : RoleLoop} (h : l.role = .worker)
    (outcome : Except ReentryError StartResult) : Working (l.onStarted outcome) := by
  cases outcome with
  | ok result => exact ⟨h, nofun⟩
  | error e => exact working_leave h _

theorem working_onReplied {l : RoleLoop} (h : l.role = .worker)
    (outcome : Except ChannelError Unit) : Working (l.onReplied outcome) := by
  cases outcome with
  | ok u => exact ⟨h, nofun⟩
  | error e => exact working_leave h _

/-! ## The invariant -/

/-- Before the first close all that was done is starting the jobs that the worker knows. -/
structure Before (x : Tenure) (r : RoleRun) : Prop where
  closing : r.closing = none
  deeds : x.deeds = r.pids.map .starts

/-- The worker has ended with some of its jobs, and is at the first of the others. -/
structure During (config : Config) (x : Tenure) (r : RoleRun) (since : Nat) (ends : List JobEnd)
    (run : CloseRun) : Prop where
  closing : r.closing = some run
  deadline : run.deadline = some (since + config.shutdownTimeout.toMillis)
  deeds : x.deeds = (ends.map JobEnd.pid ++ r.pids).map .starts ++ .leaves since ::
    (ends.flatMap (JobEnd.deeds run.deadline) ++
      (r.pids.head?.map fun pid => .closes pid run.deadline).toList)

/-- It has ended with all of them. -/
def After (config : Config) (x : Tenure) (r : RoleRun) : Prop :=
  r.jobs = [] ∧ ∃ (since : Nat) (ends : List JobEnd),
    x.deeds = (ends.map JobEnd.pid).map .starts ++ .leaves since ::
      ends.flatMap (JobEnd.deeds (some (since + config.shutdownTimeout.toMillis)))

def StandsAt (config : Config) (x : Tenure) (r : RoleRun) : LoopStage → Prop
  | .awaiting | .assuming | .starting _ | .replying _ => x.Before r
  | .leaving _ => x.Before r ∨ ∃ since ends run, x.During config r since ends run
  | .ended _ => x.After config r

structure Sound (config : Config) (x : Tenure) (r : RoleRun) : Prop where
  role : x.machine.roleOf? x.worker = some r
  configured : r.config = .ok config
  worker : r.loop.role = .worker
  stands : x.StandsAt config r r.loop.stage

theorem Sound.standsAt (h : x.Sound config r) {stage : LoopStage} (hstage : r.loop.stage = stage) :
    x.StandsAt config r stage := hstage ▸ h.stands

/-- Nothing but starting jobs was done, and the loop has not ended. -/
theorem sound_of_before (hrole : x.machine.roleOf? x.worker = some r)
    (hconfig : r.config = .ok config) (hworking : Working r.loop) (hbefore : x.Before r) :
    x.Sound config r := by
  refine ⟨hrole, hconfig, hworking.role, ?_⟩
  cases hstage : r.loop.stage with
  | awaiting | assuming | starting _ | replying _ => exact hbefore
  | leaving _ => exact .inl hbefore
  | ended result => exact absurd hstage (hworking.going result)

theorem role_play (h : x.machine.roleOf? x.worker = some r) (r' : RoleRun) :
    (x.play r').machine.roleOf? (x.play r').worker = some r' := Machine.roleOf?_setRole h

/-- The loop goes on, and there is nothing new about the jobs. -/
theorem sound_play (h : x.Sound config r) (hbefore : x.Before r) {loop : RoleLoop}
    (hworking : Working loop) : (x.play { r with loop }).Sound config { r with loop } :=
  sound_of_before (role_play h.role _) h.configured hworking ⟨hbefore.closing, hbefore.deeds⟩

theorem sound_take (h : x.Sound config r) (hbefore : x.Before r) (event : LoopEvent) :
    ∃ r', ({ x with machine := x.machine.onEvent x.worker r event } : Tenure).Sound config r' := by
  refine ⟨{ r with handoff := none, loop := r.loop.onEvent event }, sound_of_before ?_ h.configured
    (working_onEvent h.worker event) ⟨hbefore.closing, hbefore.deeds⟩⟩
  apply Machine.roleOf?_setRole (r := r)
  rw [Machine.roleOf?_closeFds, h.role]

theorem sound_make (h : x.Sound config r) (hbefore : x.Before r) {request : Start}
    (hmove : x.make? r request = some x') : ∃ r', x'.Sound config r' := by
  rcases make?_eq_some h.configured hmove with
    ⟨e, m, hspawn, rfl⟩ | ⟨job, ends, m, hspawn, rfl⟩
  · exact ⟨_, sound_of_before (Machine.roleOf?_setRole (Machine.roleOf?_spawn h.role hspawn))
      h.configured (working_onStarted h.worker (.error (.process e)))
      ⟨hbefore.closing, hbefore.deeds⟩⟩
  · refine ⟨_, sound_of_before (Machine.roleOf?_setRole (Machine.roleOf?_spawn h.role hspawn))
      h.configured (working_onStarted h.worker (.ok (Machine.replyOf job ends)))
      ⟨hbefore.closing, ?_⟩⟩
    simp [hbefore.deeds, RoleRun.pids]

/-! ## Closing the jobs -/

theorem settled_of_none (clock : Nat) (hclosing : r.closing = none) :
    settled clock r = [.leaves clock] := by
  unfold settled
  rw [hclosing]

theorem settled_of_all {run : CloseRun} (clock : Nat) (hclosing : r.closing = some run)
    (hjobs : r.jobs = []) : settled clock r = [] := by
  unfold settled
  rw [hclosing, hjobs]

theorem settled_of_finished {run : CloseRun} {job : Handle} {rest : List Handle}
    {result : Except ProcessError ExitState} (clock : Nat) (hclosing : r.closing = some run)
    (hjobs : r.jobs = job :: rest) (hrun : run.closing = .finished result) :
    settled clock r =
      [.closed job.pid result, .drops job.pid job.exit (dropSignal? job.exit)] := by
  simp only [settled, hclosing, hjobs, hrun]

/-- While a close is under way, nothing comes to its end. -/
theorem settled_of_going {run : CloseRun} (clock : Nat) (hclosing : r.closing = some run)
    (hgoing : ∀ result, run.closing ≠ .finished result) : settled clock r = [] := by
  cases hjobs : r.jobs with
  | nil => exact settled_of_all clock hclosing hjobs
  | cons job rest =>
    cases hrun : run.closing with
    | finished result => exact absurd hrun (hgoing result)
    | _ => simp only [settled, hclosing, hjobs, hrun]

theorem isBetween_of_none (h : r.closing = none) : r.isBetween = true := by
  unfold RoleRun.isBetween
  rw [h]
  rfl

theorem isBetween_of_finished {run : CloseRun} {result : Except ProcessError ExitState}
    (hclosing : r.closing = some run) (hrun : run.closing = .finished result) :
    r.isBetween = true := by
  simp [RoleRun.isBetween, hclosing, hrun, Closing.request?]

theorem isBetween_of_going {run : CloseRun} (hclosing : r.closing = some run)
    (hgoing : ∀ result, run.closing ≠ .finished result) : r.isBetween = false := by
  cases hrun : run.closing with
  | finished result => exact absurd hrun (hgoing result)
  | _ => simp [RoleRun.isBetween, hclosing, hrun, Closing.request?]

theorem begun_of_busy (hbusy : r.isBetween = false) (r' : RoleRun) : begun r r' = [] := by
  unfold begun
  rw [hbusy]

theorem begun_of_between (hbetween : r.isBetween = true) (r' : RoleRun) {run : CloseRun}
    (hclosing : r'.closing = some run) :
    begun r r' = (r'.pids.head?.map fun pid => .closes pid run.deadline).toList := by
  unfold begun RoleRun.pids
  rw [hbetween, hclosing]
  cases r'.jobs <;> rfl

theorem begun_of_none (r' : RoleRun) (hjobs : r'.jobs = []) : begun r r' = [] := by
  unfold begun
  rw [hjobs]
  cases r.isBetween <;> rfl

theorem close?_eq_some (hconfig : r.config = .ok config) (hmove : x.close? r = some x') :
    ∃ m, x.machine.closeJobs? x.worker r config = some m ∧ x' = { x with
      machine := m
      deeds := x.deeds ++ settled x.machine.clock r ++
        ((m.roleOf? x.worker).map (begun r)).getD [] } := by
  have hsome : r.config.toOption = some config := by
    rw [hconfig]
    rfl
  unfold close? at hmove
  rw [hsome] at hmove
  obtain ⟨m, hclose, heq⟩ := Option.map_eq_some_iff.mp hmove
  exact ⟨m, hclose, heq.symm⟩

/-- The worker goes on like this after it has closed its jobs further. -/
theorem sound_of_close (h : x.Sound config r) {m : Machine} (hrole : m.roleOf? x.worker = some r)
    {r' : RoleRun} (hconfig : r'.config = r.config) (hloop : r'.loop.role = r.loop.role)
    (hstands : (⟨m.setRole x.worker r', x.worker,
      x.deeds ++ settled x.machine.clock r ++ begun r r'⟩ : Tenure).StandsAt config r'
        r'.loop.stage) :
    ({ x with
      machine := m.setRole x.worker r'
      deeds := x.deeds ++ settled x.machine.clock r ++
        (((m.setRole x.worker r').roleOf? x.worker).map (begun r)).getD [] } :
      Tenure).Sound config r' := by
  have hrole' : (m.setRole x.worker r').roleOf? x.worker = some r' := Machine.roleOf?_setRole hrole
  refine ⟨hrole', hconfig.trans h.configured, hloop.trans h.worker, ?_⟩
  rw [hrole']
  exact hstands

/-- All jobs are closed. -/
theorem after_of_none {loop : RoleLoop} {m : Machine} (hjobs : r.jobs = [])
    (hleaving : x.Before r ∨ ∃ since ends run, x.During config r since ends run) :
    (⟨m, x.worker, x.deeds ++ settled x.machine.clock r ++ begun r { r with loop }⟩ :
      Tenure).After config { r with loop } := by
  have hpids : r.pids = [] := by
    unfold RoleRun.pids
    rw [hjobs]
    rfl
  refine ⟨hjobs, ?_⟩
  rw [begun_of_none { r with loop } hjobs, List.append_nil]
  rcases hleaving with ⟨hclosing, hdeeds⟩ | ⟨since, ends, run, hclosing, hdeadline, hdeeds⟩
  · refine ⟨x.machine.clock, [], ?_⟩
    simp [hdeeds, hpids, settled_of_none _ hclosing]
  · refine ⟨since, ends, ?_⟩
    rw [hdeadline] at hdeeds
    simp [hdeeds, hpids, settled_of_all _ hclosing hjobs]

theorem during_of_before {m : Machine} (hclosing : r.closing = none) (hbefore : x.Before r)
    {run : CloseRun}
    (hrun : run.deadline = some (x.machine.clock + config.shutdownTimeout.toMillis)) :
    (⟨m, x.worker, x.deeds ++ settled x.machine.clock r ++ begun r { r with closing := some run }⟩ :
      Tenure).During config { r with closing := some run } x.machine.clock [] run := by
  refine ⟨rfl, hrun, ?_⟩
  rw [begun_of_between (isBetween_of_none hclosing) { r with closing := some run } rfl,
    settled_of_none _ hclosing]
  simp [hbefore.deeds, RoleRun.pids]

/-- The worker has ended with a job, and comes to the next. -/
theorem During.next {since : Nat} {ends : List JobEnd} {run run' : CloseRun} {job : Handle}
    {rest : List Handle} {result : Except ProcessError ExitState} {m : Machine}
    (h : x.During config r since ends run) (hjobs : r.jobs = job :: rest)
    (hrun : run.closing = .finished result) (hdeadline : run'.deadline = run.deadline) :
    (⟨m, x.worker, x.deeds ++ settled x.machine.clock r ++
      begun r { r with jobs := rest, closing := some run' }⟩ : Tenure).During config
        { r with jobs := rest, closing := some run' } since
        (ends ++ [⟨job.pid, result, job.exit⟩]) run' := by
  refine ⟨rfl, hdeadline.trans h.deadline, ?_⟩
  have hpids : r.pids = job.pid :: rest.map (·.pid) := by
    unfold RoleRun.pids
    rw [hjobs]
    rfl
  rw [begun_of_between (isBetween_of_finished h.closing hrun)
      { r with jobs := rest, closing := some run' } rfl,
    settled_of_finished _ h.closing hjobs hrun, h.deeds, hpids, hdeadline]
  simp [JobEnd.deeds, RoleRun.pids]

/-- The close under way goes on. -/
theorem During.goOn {since : Nat} {ends : List JobEnd} {run run' : CloseRun} {m : Machine}
    (h : x.During config r since ends run) (hgoing : ∀ result, run.closing ≠ .finished result)
    (hdeadline : run'.deadline = run.deadline) :
    (⟨m, x.worker, x.deeds ++ settled x.machine.clock r ++
      begun r { r with closing := some run' }⟩ : Tenure).During config
        { r with closing := some run' } since ends run' := by
  refine ⟨rfl, hdeadline.trans h.deadline, ?_⟩
  rw [begun_of_busy (isBetween_of_going h.closing hgoing), settled_of_going _ h.closing hgoing,
    List.append_nil, List.append_nil, hdeadline]
  exact h.deeds

theorem deadline_closeStep? {m m' : Machine} {job : Handle} {run run' : CloseRun}
    (h : m.closeStep? job run = some (run', m')) : run'.deadline = run.deadline := by
  obtain ⟨closing, deadline, since⟩ := run
  cases closing with
  | quitting | disconnecting | checking | terminating | killing =>
    cases h
    rfl
  | waiting | reaping =>
    obtain ⟨result, -, heq⟩ := Option.map_eq_some_iff.mp h
    cases heq
    rfl
  | finished result => cases h

theorem during_of_closing {run : CloseRun}
    (h : x.Before r ∨ ∃ since ends run, x.During config r since ends run)
    (hclosing : r.closing = some run) : ∃ since ends, x.During config r since ends run := by
  rcases h with ⟨hnone, -⟩ | ⟨since, ends, run', hduring⟩
  · rw [hclosing] at hnone
    cases hnone
  · obtain rfl : run' = run := Option.some.inj (hduring.closing.symm.trans hclosing)
    exact ⟨since, ends, hduring⟩

theorem sound_close (h : x.Sound config r) {result : Except ReentryError Unit}
    (hstage : r.loop.stage = .leaving result) (hmove : x.close? r = some x') :
    ∃ r', x'.Sound config r' := by
  have hleaving : x.Before r ∨ ∃ since ends run, x.During config r since ends run :=
    h.standsAt hstage
  obtain ⟨m, hclose, rfl⟩ := close?_eq_some h.configured hmove
  -- Nothing is left to close; or the first close begins, with the deadline for all; or a job has
  -- been closed, and the next has its turn; or the close under way goes on.
  rcases closeJobs?_cases hclose with ⟨hjobs, rfl⟩ | ⟨job, rest, hjobs, hclosing, rfl⟩ |
    ⟨job, rest, run, result', hjobs, hclosing, hrun, rfl⟩ |
    ⟨job, rest, run, run', m₁, hjobs, hclosing, hgoing, hstep, rfl⟩
  · have hloop : r.loop.onJobsClosed = { r.loop with stage := .ended result } := by
      simp only [RoleLoop.onJobsClosed, hstage]
    refine ⟨_, sound_of_close h h.role rfl (by rw [hloop]) ?_⟩
    simp only [hloop]
    exact after_of_none hjobs hleaving
  · have hbefore : x.Before r := by
      rcases hleaving with hbefore | ⟨since, ends, run, hsome, -⟩
      · exact hbefore
      · rw [hclosing] at hsome
        cases hsome
    refine ⟨_, sound_of_close h h.role rfl rfl ?_⟩
    rw [show RoleLoop.stage _ = LoopStage.leaving result from hstage]
    exact .inr ⟨_, _, _, during_of_before hclosing hbefore rfl⟩
  · obtain ⟨since, ends, hduring⟩ := during_of_closing hleaving hclosing
    refine ⟨_, sound_of_close h (by rw [Machine.roleOf?_dropHandle, h.role]) rfl rfl ?_⟩
    rw [show RoleLoop.stage _ = LoopStage.leaving result from hstage]
    exact .inr ⟨_, _, _, hduring.next hjobs hrun rfl⟩
  · obtain ⟨since, ends, hduring⟩ := during_of_closing hleaving hclosing
    refine ⟨_, sound_of_close h (by rw [Machine.roleOf?_closeStep? hstep, h.role]) rfl rfl ?_⟩
    rw [show RoleLoop.stage _ = LoopStage.leaving result from hstage]
    exact .inr ⟨_, _, _, hduring.goOn hgoing (deadline_closeStep? hstep)⟩

/-- A close whose signal cannot be sent ends with that, and is over like any other. -/
theorem sound_refuse (h : x.Sound config r) {result : Except ReentryError Unit} {errno : Errno}
    (hstage : r.loop.stage = .leaving result) (hmove : x.refuse? r errno = some x') :
    ∃ r', x'.Sound config r' := by
  obtain ⟨run, hclosing, hmove⟩ := Option.bind_eq_some_iff.mp hmove
  obtain ⟨_, -, rfl⟩ := Option.map_eq_some_iff.mp hmove
  obtain ⟨since, ends, hduring⟩ := during_of_closing (h.standsAt hstage) hclosing
  refine ⟨_, role_play h.role _, h.configured, h.worker, ?_⟩
  rw [show RoleLoop.stage _ = LoopStage.leaving result from hstage]
  exact .inr ⟨since, ends, _, rfl, hduring.deadline, hduring.deeds⟩

/-! ## The system -/

/-- What the invariant says of a worker depends on its jobs' numbers only. -/
theorem StandsAt.same {m : Machine} {r' : RoleRun} {stage : LoopStage}
    (h : x.StandsAt config r stage) (hpids : r'.pids = r.pids) (hclosing : r'.closing = r.closing) :
    ({ x with machine := m } : Tenure).StandsAt config r' stage := by
  have hbefore : x.Before r → ({ x with machine := m } : Tenure).Before r' := by
    rintro ⟨hnone, hdeeds⟩
    exact ⟨hclosing.trans hnone, by rw [hpids]; exact hdeeds⟩
  cases stage with
  | awaiting | assuming | starting _ | replying _ => exact hbefore h
  | leaving _ =>
    refine Or.imp hbefore ?_ h
    rintro ⟨since, ends, run, hsome, hdeadline, hdeeds⟩
    exact ⟨since, ends, run, hclosing.trans hsome, hdeadline, by rw [hpids]; exact hdeeds⟩
  | ended _ =>
    obtain ⟨hjobs, hdeeds⟩ := h
    refine ⟨?_, hdeeds⟩
    unfold RoleRun.pids at hpids
    rw [hjobs] at hpids
    exact List.map_eq_nil_iff.mp hpids

theorem sound_record (h : x.Sound config r) (i : Nat) (outcome : Except Errno ExitState) :
    ∃ r', (x.play { r with
      jobs := r.jobs.modify i fun job => { job with exit := job.exit.write outcome } }).Sound
        config r' := by
  refine ⟨_, role_play h.role _, h.configured, h.worker, h.stands.same ?_ rfl⟩
  unfold RoleRun.pids
  apply List.ext_getElem?
  intro k
  simp only [List.getElem?_map, List.getElem?_modify]
  split <;> cases r.jobs[k]? <;> rfl

theorem sound_next (h : x.Sound config r) {move : Move} (hmove : x.next? move = some x') :
    ∃ r', x'.Sound config r' := by
  obtain ⟨r₁, hrole, hacts⟩ := acts_of_next? hmove
  obtain rfl : r₁ = r := Option.some.inj (hrole.symm.trans h.role)
  cases hacts with
  | take hstage event => exact sound_take h (h.standsAt hstage) event
  | assume hstage outcome =>
    exact ⟨_, sound_play h (h.standsAt hstage) (working_onAssumed h.worker outcome)⟩
  | make hstage hmove => exact sound_make h (h.standsAt hstage) hmove
  | fail hstage e =>
    exact ⟨_, sound_play h (h.standsAt hstage) (working_onStarted h.worker (.error e))⟩
  | reply hstage outcome =>
    exact ⟨_, sound_play h (h.standsAt hstage) (working_onReplied h.worker outcome)⟩
  | record i outcome => exact sound_record h i outcome
  | close hstage hmove => exact sound_close h hstage hmove
  | refuse hstage hmove => exact sound_refuse h hstage hmove

theorem sound_others (h : x.Sound config r) {m : Machine} (hothers : x.Undisturbed m) :
    ∃ r', ({ x with machine := m } : Tenure).Sound config r' := by
  obtain ⟨r', hrole, hconfig, hloop, hjobs, hclosing⟩ := hothers r h.role
  refine ⟨r', hrole, hconfig.trans h.configured, hloop ▸ h.worker, ?_⟩
  rw [hloop]
  refine h.stands.same ?_ hclosing
  unfold RoleRun.pids
  rw [hjobs]

theorem sound_start {m : Machine} {worker : Nat} (h : Ready m worker config) :
    ∃ r, (start m worker).Sound config r := by
  obtain ⟨r, hrole, hconfig, hloop, hjobs, hclosing⟩ := h
  refine ⟨r, sound_of_before hrole hconfig ?_ ⟨hclosing, ?_⟩⟩
  · rw [hloop]
    exact ⟨rfl, nofun⟩
  · simp [start, RoleRun.pids, hjobs]

/-! ## Letting go of a job -/

/-- A worker that lets go of the first of its jobs kills it, unless its end is known. -/
def LetsGo (x x' : Tenure) (pid : Nat) (exit : ExitRecord) : Prop :=
  ∃ r r' job, x.machine.roleOf? x.worker = some r ∧ r.jobs.head? = some job ∧ job.pid = pid ∧
    job.exit = exit ∧ x'.machine =
      (if exit.isNone then x.machine.signal pid .kill else x.machine).setRole x.worker r'

/-- The same worker goes on, and lets go of a job only in that way. -/
def GoesOn (x x' : Tenure) : Prop :=
  x'.worker = x.worker ∧ ∃ new, x'.deeds = x.deeds ++ new ∧
    ∀ pid exit signal, .drops pid exit signal ∈ new → x.LetsGo x' pid exit

theorem goesOn_of_none {new : List JobDeed} (hworker : x'.worker = x.worker)
    (hdeeds : x'.deeds = x.deeds ++ new) (hnone : ∀ pid exit signal, .drops pid exit signal ∉ new) :
    x.GoesOn x' :=
  ⟨hworker, new, hdeeds, fun pid exit signal h => absurd h (hnone pid exit signal)⟩

theorem goesOn_of_same (hworker : x'.worker = x.worker) (hdeeds : x'.deeds = x.deeds) :
    x.GoesOn x' :=
  goesOn_of_none hworker (by rw [hdeeds, List.append_nil]) fun _ _ _ => List.not_mem_nil

theorem drops_not_started (result : Except ProcessError (Handle × Machine.NewChannel)) (pid : Nat)
    (exit : ExitRecord) (signal : Option Signal) : .drops pid exit signal ∉ started result := by
  cases result <;> simp [started]

theorem drops_not_begun (r r' : RoleRun) (pid : Nat) (exit : ExitRecord) (signal : Option Signal) :
    .drops pid exit signal ∉ begun r r' := by
  unfold begun
  split <;> simp

theorem goesOn_close (hrole : x.machine.roleOf? x.worker = some r) (hmove : x.close? r = some x') :
    x.GoesOn x' := by
  obtain ⟨config, hconfig, hmove⟩ := Option.bind_eq_some_iff.mp hmove
  obtain ⟨m, hclose, rfl⟩ := Option.map_eq_some_iff.mp hmove
  refine ⟨rfl, _, List.append_assoc .., ?_⟩
  intro pid exit signal hmem
  -- A close that begins lets go of nothing: that is done by what has come to its end.
  have hsettled : .drops pid exit signal ∈ settled x.machine.clock r := by
    rcases List.mem_append.mp hmem with hmem | hmem
    · exact hmem
    · cases hnow : m.roleOf? x.worker with
      | none => simp [hnow] at hmem
      | some r' =>
        rw [hnow] at hmem
        exact absurd hmem (drops_not_begun r r' pid exit signal)
  rcases closeJobs?_cases hclose with ⟨hjobs, -⟩ | ⟨job, rest, hjobs, hclosing, -⟩ |
    ⟨job, rest, run, result, hjobs, hclosing, hrun, rfl⟩ |
    ⟨job, rest, run, run', m₁, hjobs, hclosing, hgoing, -, -⟩
  · cases hclosing : r.closing with
    | none => simp [settled_of_none _ hclosing] at hsettled
    | some run => simp [settled_of_all _ hclosing hjobs] at hsettled
  · simp [settled_of_none _ hclosing] at hsettled
  · simp only [settled_of_finished _ hclosing hjobs hrun, List.mem_cons, JobDeed.drops.injEq,
      reduceCtorEq, false_or, List.not_mem_nil, or_false] at hsettled
    obtain ⟨rfl, rfl, -⟩ := hsettled
    exact ⟨r, _, job, hrole, by rw [hjobs]; rfl, rfl, rfl, rfl⟩
  · simp [settled_of_going _ hclosing hgoing] at hsettled

theorem goesOn_next {move : Move} (hmove : x.next? move = some x') : x.GoesOn x' := by
  obtain ⟨r, hrole, hacts⟩ := acts_of_next? hmove
  cases hacts with
  | take | assume | fail | reply | record => exact goesOn_of_same rfl rfl
  | make _ hmove =>
    obtain ⟨config, -, rfl⟩ := Option.map_eq_some_iff.mp hmove
    exact goesOn_of_none rfl rfl (drops_not_started _)
  | close _ hmove => exact goesOn_close hrole hmove
  | refuse _ hmove =>
    obtain ⟨run, -, hmove⟩ := Option.bind_eq_some_iff.mp hmove
    obtain ⟨_, -, rfl⟩ := Option.map_eq_some_iff.mp hmove
    exact goesOn_of_same rfl rfl

theorem sound_run {m : Machine} {worker : Nat} (h : Ready m worker config)
    (hrun : Relation.ReflTransGen Step (start m worker) x) :
    x.worker = worker ∧ ∃ r, x.Sound config r := by
  induction hrun with
  | refl => exact ⟨rfl, sound_start h⟩
  | tail _ hstep ih =>
    obtain ⟨hworker, r, h⟩ := ih
    cases hstep with
    | move hmove => exact ⟨(goesOn_next hmove).1.trans hworker, sound_next h hmove⟩
    | others hothers => exact ⟨hworker, sound_others h hothers⟩

/-! ## A machine at work -/

theorem undisturbed_of_same {m : Machine}
    (h : m.roleOf? x.worker = x.machine.roleOf? x.worker) : x.Undisturbed m :=
  fun r hrole => ⟨r, h.trans hrole, rfl, rfl, rfl, rfl⟩

/-- Each attempt to start a job may be answered otherwise than the one before. -/
theorem undisturbed_host (x : Tenure) (host : Host) : x.Undisturbed { x.machine with host } :=
  undisturbed_of_same rfl

/-- The role of the worker changes in what is not about its jobs. -/
theorem undisturbed_setRole {m : Machine} (hrole : x.machine.roleOf? x.worker = some r)
    (hsame : m.roleOf? x.worker = x.machine.roleOf? x.worker) {r' : RoleRun}
    (hconfig : r'.config = r.config) (hloop : r'.loop = r.loop) (hjobs : r'.jobs = r.jobs)
    (hclosing : r'.closing = r.closing) : x.Undisturbed (m.setRole x.worker r') := by
  intro r₁ hrole₁
  obtain rfl : r = r₁ := Option.some.inj (hrole.symm.trans hrole₁)
  exact ⟨r', Machine.roleOf?_setRole (hsame.trans hrole), hconfig, hloop, hjobs, hclosing⟩

/-- A row of steps leads to this machine. -/
def Reaches (x : Tenure) (m : Machine) : Prop :=
  ∃ deeds, Relation.ReflTransGen Step x ⟨m, x.worker, deeds⟩

theorem reaches_of_others {m : Machine} (h : x.Undisturbed m) : x.Reaches m :=
  ⟨x.deeds, .single (.others h)⟩

theorem reaches_of_move (move : Move) {m : Machine} {deeds : List JobDeed}
    (h : x.next? move = some ⟨m, x.worker, deeds⟩) : x.Reaches m :=
  ⟨deeds, .single (.move h)⟩

/-- First something else happens, and then the worker moves. -/
theorem reaches_after_others (move : Move) {m m' : Machine} (hothers : x.Undisturbed m)
    (h : ({ x with machine := m } : Tenure).next? move = some ⟨m', x.worker, x.deeds⟩) :
    x.Reaches m' :=
  ⟨x.deeds, .tail (.single (.others hothers)) (.move h)⟩

theorem next?_of_role {move : Move} (hrole : x.machine.roleOf? x.worker = some r) :
    x.next? move = x.act? r move := by
  unfold next?
  rw [hrole]
  rfl

theorem reaches_event {m' : Machine} {c : Channel ControlMessage}
    (hrole : x.machine.roleOf? x.worker = some r) (hstage : r.loop.stage = .awaiting)
    (hmove : x.machine.event? x.worker r c = some m') : x.Reaches m' := by
  unfold Machine.event? at hmove
  split at hmove
  · rename_i received inbound _
    cases hmove
    have hothers : x.Undisturbed
        (x.machine.setRole x.worker { r with channel := some { c with inbound } }) :=
      undisturbed_setRole hrole rfl rfl rfl rfl rfl
    apply reaches_after_others (.take (Machine.eventOf received)) hothers
    rw [next?_of_role (Machine.roleOf?_setRole hrole)]
    simp only [act?, hstage, Machine.onEvent, Machine.closeFds_setRole]
  · obtain ⟨⟨s, m₁⟩, hcatch, rfl⟩ := Option.map_eq_some_iff.mp hmove
    have hsame : m₁.roleOf? x.worker = x.machine.roleOf? x.worker :=
      Machine.roleOf?_catch? hcatch
    apply reaches_after_others (.take (.signal s))
      (undisturbed_of_same hsame)
    rw [next?_of_role (hsame.trans hrole)]
    simp only [act?, hstage]

theorem reaches_reply {m' : Machine} {c : Channel ControlMessage} {result : StartResult}
    (hrole : x.machine.roleOf? x.worker = some r) (hstage : r.loop.stage = .replying result)
    (hmove : x.machine.reply? x.worker r c result = some m') : x.Reaches m' := by
  unfold Machine.reply? at hmove
  split at hmove
  · rename_i sent c₁ m₁ hsend
    cases hmove
    have hsame : m₁.roleOf? x.worker = x.machine.roleOf? x.worker := Machine.roleOf?_send hsend
    have hothers : x.Undisturbed (m₁.setRole x.worker { r with channel := some c₁ }) :=
      undisturbed_setRole hrole hsame rfl rfl rfl rfl
    apply reaches_after_others (.reply sent) hothers
    rw [next?_of_role (Machine.roleOf?_setRole (hsame.trans hrole))]
    simp only [act?, hstage, play, Machine.setRole_setRole]
  · rename_i c₁ m₁ hsend
    split at hmove
    · cases hmove
    · cases hmove
      have hsame : m₁.roleOf? x.worker = x.machine.roleOf? x.worker := Machine.roleOf?_send hsend
      exact reaches_of_others (undisturbed_setRole hrole hsame rfl rfl rfl rfl)

theorem reaches_loop {p : Proc} {m' : Machine} {c : Channel ControlMessage}
    (hpid : p.pid = x.worker) (hrole : x.machine.roleOf? x.worker = some r)
    (hconfig : r.config = .ok config) (hmove : x.machine.loopMove? p r config c = some m') :
    x.Reaches m' := by
  have hsome : r.config.toOption = some config := by
    rw [hconfig]
    rfl
  unfold Machine.loopMove? at hmove
  rw [hpid] at hmove
  cases hstage : r.loop.stage with
  | awaiting =>
    simp only [hstage] at hmove
    exact reaches_event hrole hstage hmove
  | assuming =>
    simp only [hstage, Option.some.injEq] at hmove
    subst hmove
    have hsame : (x.machine.becomeRoot x.worker (x.machine.host.assumesRoot p.credentials)).roleOf?
        x.worker = x.machine.roleOf? x.worker := Machine.roleOf?_becomeRoot _
    apply reaches_after_others (.assume (x.machine.host.assumesRoot p.credentials))
      (undisturbed_of_same hsame)
    rw [next?_of_role (hsame.trans hrole)]
    simp only [act?, hstage, play]
  | starting request =>
    simp only [hstage, Option.some.injEq] at hmove
    apply reaches_of_move .make
    rw [next?_of_role hrole, ← hmove]
    simp only [act?, hstage, make?, hsome, Option.map_some]
    rfl
  | replying result =>
    simp only [hstage] at hmove
    exact reaches_reply hrole hstage hmove
  | leaving result =>
    simp only [hstage] at hmove
    apply reaches_of_move .close
    rw [next?_of_role hrole]
    simp only [act?, hstage, close?, hsome, Option.bind_some, hmove, Option.map_some]
    rfl
  | ended result =>
    simp only [hstage] at hmove
    cases hmove

theorem reaches_background {m' : Machine} {c : Channel ControlMessage}
    (hrole : x.machine.roleOf? x.worker = some r)
    (hmove : x.machine.backgroundMove? x.worker r c = some m') : x.Reaches m' := by
  unfold Machine.backgroundMove? at hmove
  split at hmove
  · rename_i jobs m₁ hwatch
    cases hmove
    obtain ⟨hsame, i, outcome, rfl⟩ := Machine.watchJobs?_eq_some hwatch
    apply reaches_after_others (.record i outcome)
      (undisturbed_of_same hsame)
    rw [next?_of_role (hsame.trans hrole)]
    rfl
  · obtain ⟨⟨c₁, m₁⟩, hpump, rfl⟩ := Option.map_eq_some_iff.mp hmove
    exact reaches_of_others
      (undisturbed_setRole hrole (Machine.roleOf?_pump? hpump) rfl rfl rfl rfl)

/-- Each move of a worker at work is a row of these steps. -/
theorem a_working_machine_takes_these_steps {p : Proc} {c : Channel ControlMessage} {m' : Machine}
    (hp : x.machine.proc? x.worker = some p) (hprogram : p.program = .role r)
    (hconfig : r.config = .ok config) (hchannel : r.channel = some c) (hgoing : r.result? = none)
    (hmove : x.machine.roleMove? p r = some m') : x.Reaches m' := by
  have hpid : p.pid = x.worker := by
    simpa using List.find?_some hp
  have hrole : x.machine.roleOf? x.worker = some r := by
    unfold Machine.roleOf?
    rw [hp, Option.bind_some, hprogram]
  simp only [Machine.roleMove?, hgoing, hconfig, hchannel, Option.or_eq_some_iff] at hmove
  rcases hmove with hloop | ⟨-, hbackground⟩
  · exact reaches_loop hpid hrole hconfig hloop
  · rw [hpid] at hbackground
    exact reaches_background hrole hbackground

/-! ## The law -/

/-- However the loop of a worker ends, and whatever the system makes of its attempts to start jobs,
it has closed all the jobs that it has started when it returns: each of them once, in the order in
which they were started, and all with the deadline that was set when the loop was over, whatever
came of closing the ones before. It lets go of a job right after it is closed, and kills it then
unless its end is known. -/
theorem no_job_is_left_behind {machine : Machine} {worker : Nat}
    (hready : Ready machine worker config)
    (hrun : Relation.ReflTransGen Step (start machine worker) x) :
    (∀ r result, x.machine.roleOf? worker = some r → r.loop.stage = .ended result →
      r.jobs = [] ∧ ∃ (since : Nat) (ends : List JobEnd),
        x.deeds = (ends.map JobEnd.pid).map .starts ++ .leaves since ::
          ends.flatMap (JobEnd.deeds (some (since + config.shutdownTimeout.toMillis)))) ∧
    ∀ move x', x.next? move = some x' → x.GoesOn x' := by
  obtain ⟨rfl, r, h⟩ := sound_run hready hrun
  refine ⟨?_, fun move x' => goesOn_next⟩
  intro r' result hrole hstage
  obtain rfl : r = r' := Option.some.inj (h.role.symm.trans hrole)
  exact h.standsAt hstage

/-! ## Two jobs that are left running -/

/-- What a list of moves leads to, when nothing else happens. -/
def run? (x : Tenure) : List Move → Option Tenure
  | [] => some x
  | move :: moves => (x.next? move).bind fun x' => x'.run? moves

theorem steps_of_run? {moves : List Move} (hrun : x.run? moves = some x') :
    Relation.ReflTransGen Step x x' := by
  induction moves generalizing x with
  | nil =>
    cases hrun
    exact .refl
  | cons move moves ih =>
    obtain ⟨x₁, hmove, hrun⟩ := Option.bind_eq_some_iff.mp hrun
    exact .head (.move hmove) (ih hrun)

/-- A worker by itself, which has made its channel. -/
def soleWorker : Machine :=
  ((Machine.empty .obliging ⟨[]⟩ .role []).addOrphan .standard
    (.role { RoleRun.start .worker ⟨0, 1⟩ (.ok (.initial 0 0)) with startUp := .started })).2

theorem stage_of_result? {result : Except ReentryError Unit} (h : r.result? = some result) :
    r.loop.stage = .ended result := by
  unfold RoleRun.result? at h
  split at h
  · cases h
    assumption
  · cases h

theorem ready_soleWorker : Ready soleWorker 2 (.initial 0 0) := ⟨_, rfl, rfl, rfl, rfl, rfl⟩

/-- It starts a job that has a root of its own and one that shares its ids, and cannot send the second
reply. The second job ends by itself, and the
first cannot be sent a signal when it is closed. -/
def twoJobs : List Move :=
  [.take (.message (.start ⟨.mapRoot⟩)), .make, .reply (.ok ()),
    .take (.message (.start ⟨.shared⟩)), .make, .reply (.error .streamClosed),
    .record 1 (.ok (.exited 0)), .close, .close, .refuse .notPermitted]

/-- Both jobs are closed, also the one of which nobody was told, and only the first is killed. -/
theorem a_job_that_nobody_was_told_of_is_closed :
    ∃ x₁ x₂ x r, Relation.ReflTransGen Step (start soleWorker 2) x₁ ∧
      x₁.next? .close = some x₂ ∧ x₁.LetsGo x₂ 3 none ∧ Relation.ReflTransGen Step x₂ x ∧
      x.machine.roleOf? 2 = some r ∧ r.loop.stage = .ended (.error (.channel .streamClosed)) ∧
      r.jobs = [] ∧
      x.deeds = [.starts 3, .starts 4, .leaves 0, .closes 3 (some 5000),
        .closed 3 (.error (.signal .notPermitted)), .drops 3 none (some .kill),
        .closes 4 (some 5000), .closed 4 (.ok (.exited 0)),
        .drops 4 (some (.ok (.exited 0))) none] := by
  have hrun : (do
      let x₁ ← (start soleWorker 2).run? twoJobs
      let x₂ ← x₁.next? .close
      let x ← x₂.run? (List.replicate 4 .close)
      let r ← x.machine.roleOf? 2
      pure (x₂.deeds.drop x₁.deeds.length, r.result?, x.deeds)) =
      some ([.closed 3 (.error (.signal .notPermitted)), .drops 3 none (some .kill),
          .closes 4 (some 5000)],
        some (.error (.channel .streamClosed)),
        [.starts 3, .starts 4, .leaves 0, .closes 3 (some 5000),
          .closed 3 (.error (.signal .notPermitted)), .drops 3 none (some .kill),
          .closes 4 (some 5000), .closed 4 (.ok (.exited 0)),
          .drops 4 (some (.ok (.exited 0))) none]) := by
    decide +kernel
  obtain ⟨x₁, hfirst, hrun⟩ := Option.bind_eq_some_iff.mp hrun
  obtain ⟨x₂, hdrop, hrun⟩ := Option.bind_eq_some_iff.mp hrun
  obtain ⟨x, hrest, hrun⟩ := Option.bind_eq_some_iff.mp hrun
  obtain ⟨r, hrole, hrun⟩ := Option.bind_eq_some_iff.mp hrun
  simp only [pure, Option.some.injEq, Prod.mk.injEq] at hrun
  obtain ⟨hnew, hresult, hdeeds⟩ := hrun
  have hstage := stage_of_result? hresult
  have hsteps := steps_of_run? hfirst
  obtain ⟨-, hmoves⟩ := no_job_is_left_behind ready_soleWorker hsteps
  obtain ⟨-, new, hgrown, hdrops⟩ := hmoves .close x₂ hdrop
  obtain ⟨hended, -⟩ := no_job_is_left_behind ready_soleWorker
    ((hsteps.tail (.move hdrop)).trans (steps_of_run? hrest))
  rw [hgrown, List.drop_left] at hnew
  refine ⟨x₁, x₂, x, r, hsteps, hdrop, hdrops 3 none (some .kill) ?_, steps_of_run? hrest, hrole,
    hstage, (hended r _ hrole hstage).1, hdeeds⟩
  simp [hnew]

end Tenure

end ProcessTree
