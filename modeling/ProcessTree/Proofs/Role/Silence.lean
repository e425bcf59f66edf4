-- A job to which nothing is said. It goes through its start and waits; once nobody can write to it
-- any more it finds the end of its channel, and its loop ends in good order.
import ProcessTree.Proofs.Role.Entry

namespace ProcessTree

/-- How many steps of its start a role has still before it. -/
def StartUp.left : StartUp → Nat
  | .configuring => 4
  | .adopting => 3
  | .installing => 2
  | .connecting => 1
  | .started => 0

namespace Machine

variable {m m' m₁ : Machine} {pid other pipe : Nat} {p p' : Proc} {r r' : RoleRun}

/-! ## Signals from others -/

/-- Processes may have ended or been sent signals; one that lives on is what it was, and has the
same open, and one that has ended has nothing open. -/
structure Strikes (m m' : Machine) : Prop where
  rest : m' = { m with procs := m'.procs }
  pids : m'.procs.map Proc.pid = m.procs.map Proc.pid
  procs : ∀ pid p, m.proc? pid = some p → ∃ p', m'.proc? pid = some p' ∧
    (p'.fds = p.fds ∨ p'.fds = []) ∧
      (p'.life = .alive → p.life = .alive ∧ p'.program = p.program ∧ p'.fds = p.fds)

theorem strikes_refl (m : Machine) : m.Strikes m :=
  ⟨rfl, rfl, fun _ p hp => ⟨p, hp, .inl rfl, fun halive => ⟨halive, rfl, rfl⟩⟩⟩

theorem Strikes.trans (h : m.Strikes m₁) (h' : m₁.Strikes m') : m.Strikes m' := by
  refine ⟨by rw [h'.rest, h.rest], h'.pids.trans h.pids, ?_⟩
  intro pid p hp
  obtain ⟨p₁, hp₁, hkept, hsame⟩ := h.procs pid p hp
  obtain ⟨p', hp', hkept', hsame'⟩ := h'.procs pid p₁ hp₁
  refine ⟨p', hp', ?_, ?_⟩
  · rcases hkept' with hfds | hfds
    · rw [hfds]
      exact hkept
    · exact .inr hfds
  intro halive
  obtain ⟨halive₁, hprogram, hfds⟩ := hsame' halive
  obtain ⟨halive₀, hprogram₁, hfds₁⟩ := hsame halive₁
  exact ⟨halive₀, hprogram.trans hprogram₁, hfds.trans hfds₁⟩

theorem Loses.strikes (h : m.Loses m') : m.Strikes m' := by
  refine ⟨h.rest, h.pids, ?_⟩
  intro pid p hp
  rcases h.procs pid with hsame | ⟨q, state, hq, -, hended⟩
  · exact ⟨p, hsame.trans hp, .inl rfl, fun halive => ⟨halive, rfl, rfl⟩⟩
  · exact ⟨_, hended, .inr rfl, fun halive => absurd halive (q.life_ended state)⟩

theorem strikes_modify {f : Proc → Proc} (hf : ∀ p, (f p).pid = p.pid)
    (hsame : ∀ p, (f p).life = p.life ∧ (f p).program = p.program ∧ (f p).fds = p.fds) :
    m.Strikes (m.modify other f) := by
  refine ⟨rfl, pids_modify hf, ?_⟩
  intro pid p hp
  refine ⟨if pid = other then f p else p, by rw [proc?_modify m other pid hf, hp]; rfl, ?_⟩
  obtain ⟨hlife, hprogram, hfds⟩ := hsame p
  by_cases hpid : pid = other
  · rw [if_pos hpid, hlife]
    exact ⟨.inl hfds, fun halive => ⟨halive, hprogram, hfds⟩⟩
  · rw [if_neg hpid]
    exact ⟨.inl rfl, fun halive => ⟨halive, rfl, rfl⟩⟩

theorem strikes_takeSignal (m : Machine) (pid : Nat) (s : Signal) :
    m.Strikes (m.takeSignal pid s) := by
  unfold takeSignal
  split
  · exact strikes_refl m
  · split
    · exact strikes_modify (fun _ => rfl) fun _ => ⟨rfl, rfl, rfl⟩
    · split
      · exact strikes_refl m
      · split
        · exact strikes_refl m
        · split
          · exact (loses_endProc m pid _).strikes
          · exact strikes_modify (fun _ => rfl) fun _ => ⟨rfl, rfl, rfl⟩
          · exact strikes_refl m
          · exact strikes_refl m

theorem strikes_takeSignals (signals : List Signal) (m : Machine) (pid : Nat) :
    m.Strikes (signals.foldl (fun m s => m.takeSignal pid s) m) := by
  induction signals generalizing m with
  | nil => exact strikes_refl m
  | cons s signals ih =>
    rw [List.foldl_cons]
    exact (strikes_takeSignal m pid s).trans (ih _)

theorem strikes_signal (m : Machine) (pid : Nat) (s : Signal) : m.Strikes (m.signal pid s) := by
  unfold signal
  split
  · exact strikes_refl m
  · split
    · exact strikes_refl m
    · split
      · exact (loses_endProc m pid _).strikes
      · exact strikes_modify (fun _ => rfl) fun _ => ⟨rfl, rfl, rfl⟩
      · refine Strikes.trans ?_ (strikes_takeSignals _ _ _)
        exact strikes_modify (fun _ => rfl) fun _ => ⟨rfl, rfl, rfl⟩
      · split
        · exact strikes_modify (fun _ => rfl) fun _ => ⟨rfl, rfl, rfl⟩
        · exact strikes_takeSignal m pid _

/-! ## Jobs that hear nothing -/

/-- Nothing is on its way in this pipe. -/
def IsDrained (m : Machine) (pipe : Nat) : Prop := ∃ q, m.pipes[pipe]? = some q ∧ q.size = 0

/-- How a job listens that has heard nothing: it has its end of this pipe, or has found the end of
its channel. -/
def Listens (p : Proc) (r : RoleRun) (pipe : Nat) : Prop :=
  match r.channel with
  | none => r.startUp ≠ .started ∧ r.loop.stage = .awaiting ∧ r.fds.Finds p.fds pipe
  | some c =>
    (c.inbound = .start Direction.rootToJob.registry ∧
      ∃ n : Nat, c.reader = some n ∧ p.fds.file? n = some (.readEnd pipe)) ∨
    c.inbound = (Inbound.start Direction.rootToJob.registry).fail .channelClosed

/-- A job that has heard nothing, and goes on or has ended well. -/
structure Quiet (p : Proc) (r : RoleRun) (pipe : Nat) : Prop where
  program : p.program = .role r
  role : r.role = .job ∧ r.loop.role = .job
  idle : r.jobs = [] ∧ r.handoff = none
  configured : ∃ config, r.config = .ok config
  stage : r.loop.stage = .awaiting ∨ r.loop.stage = .ended (.ok ())
  listens : Listens p r pipe

/-- The job has heard nothing, as long as it lives, and nothing is on its way to it. -/
structure Silent (m : Machine) (pid pipe : Nat) : Prop where
  drained : m.IsDrained pipe
  quiet : ∃ p, m.proc? pid = some p ∧ (p.life = .alive → ∃ r, Quiet p r pipe)

theorem Quiet.notWorker (h : Quiet p r pipe) : r.loop.role ≠ .worker := by
  rw [h.role.2]
  decide

/-- What the process is otherwise does not matter. -/
theorem Quiet.of_same (h : Quiet p r pipe) (hprogram : p'.program = p.program)
    (hfds : p'.fds = p.fds) : Quiet p' r pipe := by
  obtain ⟨hrole, hroles, hidle, hconfigured, hstage, hlistens⟩ := h
  refine ⟨hprogram.trans hrole, hroles, hidle, hconfigured, hstage, ?_⟩
  unfold Listens at hlistens ⊢
  rw [hfds]
  exact hlistens

theorem Silent.strikes (h : m.Silent pid pipe) (hstrikes : m.Strikes m') : m'.Silent pid pipe := by
  obtain ⟨p, hp, hquiet⟩ := h.quiet
  obtain ⟨p', hp', -, hsame⟩ := hstrikes.procs pid p hp
  refine ⟨?_, p', hp', ?_⟩
  · have hdrained := h.drained
    unfold IsDrained at hdrained ⊢
    rw [hstrikes.rest]
    exact hdrained
  · intro halive
    obtain ⟨halive₀, hprogram, hfds⟩ := hsame halive
    obtain ⟨r, hr⟩ := hquiet halive₀
    exact ⟨r, hr.of_same hprogram hfds⟩

/-- What others do and what comes into other pipes is nothing to a job. -/
theorem Silent.others (h : m.Silent pid pipe) (hp : m'.proc? pid = m.proc? pid)
    (hpipe : m'.pipes[pipe]? = m.pipes[pipe]?) : m'.Silent pid pipe := by
  obtain ⟨⟨q, hq, hsize⟩, p, hproc, hquiet⟩ := h
  exact ⟨⟨q, hpipe.trans hq, hsize⟩, p, hp.trans hproc, hquiet⟩

/-! ## Its moves -/

/-- The job goes on as `r`, and still has heard nothing. -/
structure Proceeds (m m' : Machine) (pid pipe : Nat) (p : Proc) (r : RoleRun) : Prop where
  touches : m.Touches m' pid
  quiet : ∃ p', m'.proc? pid = some p' ∧ p'.life = p.life ∧ p'.stopped = p.stopped ∧
    Quiet p' r pipe

theorem Proceeds.silent (h : m.Proceeds m' pid pipe p r) (hsilent : m.Silent pid pipe) :
    m'.Silent pid pipe := by
  obtain ⟨q, hq, hsize⟩ := hsilent.drained
  obtain ⟨p', hp', -, -, hquiet⟩ := h.quiet
  exact ⟨⟨q, by rw [h.touches.pipes, hq], hsize⟩, p', hp', fun _ => ⟨r, hquiet⟩⟩

/-- Whatever it has to do until it has its channel goes well. -/
theorem Quiet.start (h : Quiet p r pipe) (hp : m.proc? pid = some p) (hnone : r.channel = none) :
    ∃ r', m.Proceeds (m.startMove p r) pid pipe p r' ∧ r'.startUp.left < r.startUp.left := by
  obtain ⟨hprogram, hrole, hidle, ⟨config, hconfig⟩, hstage, hlistens⟩ := h
  unfold Listens at hlistens
  simp only [hnone] at hlistens
  obtain ⟨hunstarted, hawaiting, hfinds⟩ := hlistens
  have hdirections : r.role.directions? = some (.jobToRoot, .rootToJob) := by
    rw [hrole.1]
    rfl
  obtain ⟨t, handled, r', htouches, hself, hfiles, hstep⟩ :=
    startMove_step hp hconfig hdirections hfinds hunstarted
  refine ⟨r', ⟨htouches, _, hself, rfl, rfl, ?_⟩, ?_⟩
  · cases hstep with
    | configured | adopted | installed =>
      refine ⟨rfl, hrole, hidle, ⟨config, hconfig⟩, hstage, ?_⟩
      unfold Listens
      simp only [hnone]
      exact ⟨by decide, hawaiting, hfinds.same hfiles⟩
    | connected _ read write hread =>
      refine ⟨rfl, hrole, hidle, ⟨config, hconfig⟩, hstage, ?_⟩
      exact .inl ⟨rfl, read, rfl, (hfiles read).trans hread⟩
  · cases hstep with
    | configured hstart | adopted hstart | installed hstart | connected hstart =>
      rw [hstart]
      simp [StartUp.left]

/-- An event that comes to a job that has heard nothing ends its loop. -/
theorem Quiet.take (h : Quiet p r pipe) (hp : m.proc? pid = some p) {c : Channel ControlMessage}
    (hchannel : r.channel = some c) {event : LoopEvent}
    (hevent : event = .message .quit ∨ (∃ s, event = .signal s) ∨ event = .failed .channelClosed) :
    ∃ r', m.Proceeds (m.onEvent pid r event) pid pipe p r' ∧ r'.loop.stage = .ended (.ok ()) := by
  rw [onEvent_of_idle m pid h.idle.2, RoleLoop.onEvent_of_graceful h.notWorker hevent]
  refine ⟨{ r with loop := { r.loop with stage := .ended (.ok ()) } },
    ⟨touches_setRole m pid _, _, proc?_setRole hp _, rfl, rfl, ?_⟩, rfl⟩
  refine ⟨rfl, h.role, h.idle, h.configured, .inr rfl, ?_⟩
  have hlistens := h.listens
  unfold Listens at hlistens ⊢
  rw [hchannel] at hlistens
  simp only [hchannel]
  exact hlistens

theorem Quiet.caught (h : Quiet p r pipe) (hp : m.proc? pid = some p) {c : Channel ControlMessage}
    (hchannel : r.channel = some c) {s : Signal} (hcatch : m.catch? pid = some (s, m₁)) :
    ∃ r', m.Proceeds (m₁.onEvent pid r (.signal s)) pid pipe p r' ∧
      r'.loop.stage = .ended (.ok ()) := by
  obtain ⟨rest, -, rfl⟩ := catch?_eq_some hp hcatch
  have htouches : m.Touches (m.modify pid fun p => { p with caught := rest }) pid :=
    touches_modify (fun _ => rfl) fun _ _ _ h => h
  have hself : (m.modify pid fun p => { p with caught := rest }).proc? pid =
      some { p with caught := rest } := proc?_change hp fun _ => rfl
  have hquiet : Quiet { p with caught := rest } r pipe := h.of_same rfl rfl
  obtain ⟨r', hproceeds, hended⟩ := hquiet.take hself hchannel (.inr (.inl ⟨s, rfl⟩))
  exact ⟨r', ⟨htouches.trans hproceeds.touches, hproceeds.quiet⟩, hended⟩

/-- All that it can get is the end of its channel, or a signal. -/
theorem Quiet.event (h : Quiet p r pipe) (hp : m.proc? pid = some p) {c : Channel ControlMessage}
    (hchannel : r.channel = some c) (hmove : m.event? pid r c = some m') :
    ∃ r', m.Proceeds m' pid pipe p r' ∧ r'.loop.stage = .ended (.ok ()) := by
  have hlistens := h.listens
  unfold Listens at hlistens
  rw [hchannel] at hlistens
  rcases hlistens with ⟨hinbound, -⟩ | hinbound
  · have hrecv : c.inbound.recv? = none := by
      rw [hinbound]
      rfl
    simp only [event?, hrecv] at hmove
    obtain ⟨⟨s, m₁⟩, hcatch, rfl⟩ := Option.map_eq_some_iff.mp hmove
    exact h.caught hp hchannel hcatch
  · have hrecv : c.inbound.recv? = some (.error .channelClosed, c.inbound) := by
      rw [hinbound]
      rfl
    simp only [event?, hrecv, Option.some.injEq] at hmove
    rw [← hchannel] at hmove
    subst hmove
    exact h.take hp hchannel (.inr (.inr rfl))

/-- It has nothing to read; where nobody can write to it, it finds the end of its channel. -/
theorem pump?_of_start {c : Channel ControlMessage} {n : Nat}
    (hinbound : c.inbound = .start Direction.rootToJob.registry) (hreader : c.reader = some n)
    (hfile : (m.fdsOf pid).file? n = some (.readEnd pipe)) (hdrained : m.IsDrained pipe) :
    m.pump? pid c = if m.isHeld (.writeEnd pipe) then none else
      some ({ c with inbound := c.inbound.fail .channelClosed, reader := none },
        m.closeFds pid [n]) := by
  obtain ⟨q, hpipe, hsize⟩ := hdrained
  have hdeliver : c.inbound.deliver? = none := by
    rw [hinbound]
    rfl
  have hwants : c.inbound.wants = 5 := by
    rw [hinbound]
    rfl
  have hread := read_of_file (n := 5) hfile hpipe
  rw [if_pos hsize] at hread
  by_cases hheld : m.isHeld (.writeEnd pipe) = true
  · rw [if_pos hheld] at hread ⊢
    simp only [pump?, hdeliver, hwants, hreader, hread]
  · rw [if_neg hheld] at hread ⊢
    have hover : (c.inbound.fail .channelClosed).isOver = true := rfl
    simp only [pump?, hdeliver, hwants, hreader, hread, settleReader, hover, if_true,
      Option.toList_some]

/-- It has found the end of its channel. -/
theorem Quiet.close (h : Quiet p r pipe) (hp : m.proc? pid = some p) {c : Channel ControlMessage}
    (hinbound : c.inbound = .start Direction.rootToJob.registry) (n : Nat) {r' : RoleRun}
    (hr' : r' = { r with
      channel := some { c with inbound := c.inbound.fail .channelClosed, reader := none } }) :
    m.Proceeds ((m.closeFds pid [n]).setRole pid r') pid pipe p r' := by
  have hclosed : (m.closeFds pid [n]).proc? pid =
      some { p with fds := [n].foldl FdTable.close p.fds } := proc?_change hp fun _ => rfl
  refine ⟨(touches_closeFds m pid [n]).trans (touches_setRole _ _ _), _, proc?_setRole hclosed r',
    rfl, rfl, ?_⟩
  subst hr'
  refine ⟨rfl, h.role, h.idle, h.configured, h.stage, ?_⟩
  unfold Listens
  exact .inr (by rw [hinbound])

/-- To read is to find the end of its channel. -/
theorem Quiet.listen (h : Quiet p r pipe) (hp : m.proc? pid = some p) (hdrained : m.IsDrained pipe)
    {c : Channel ControlMessage} (hchannel : r.channel = some c)
    (hmove : m.backgroundMove? pid r c = some m') :
    m.Proceeds m' pid pipe p { r with
      channel := some { c with inbound := c.inbound.fail .channelClosed, reader := none } } := by
  rw [backgroundMove?_of_idle h.idle.1] at hmove
  obtain ⟨⟨c', m₁⟩, hpump, rfl⟩ := Option.map_eq_some_iff.mp hmove
  have hlistens := h.listens
  unfold Listens at hlistens
  rw [hchannel] at hlistens
  rcases hlistens with ⟨hinbound, n, hreader, hfile⟩ | hinbound
  · rw [← fdsOf_eq hp] at hfile
    rw [pump?_of_start hinbound hreader hfile hdrained] at hpump
    obtain ⟨-, hpump⟩ := Option.ite_none_left_eq_some.mp hpump
    cases hpump
    exact h.close hp hinbound n rfl
  · have hdeliver : c.inbound.deliver? = none := by
      rw [hinbound]
      rfl
    have hwants : c.inbound.wants = 0 := by
      rw [hinbound]
      rfl
    simp only [pump?, hdeliver, hwants, reduceCtorEq] at hpump

/-- Whatever it does next, it has heard nothing then either, or it exits with code 0. -/
theorem Quiet.move (h : Quiet p r pipe) (hp : m.proc? pid = some p) (hdrained : m.IsDrained pipe)
    (hmove : m.roleMove? p r = some m') :
    m' = m.endProc pid (.exited 0) ∨ ∃ r', m.Proceeds m' pid pipe p r' := by
  obtain ⟨config, hconfig⟩ := h.configured
  have hcases := roleMove?_cases hconfig h.stage hmove
  rw [pid_of_proc? hp] at hcases
  rcases hcases with ⟨-, rfl⟩ | ⟨-, ⟨hnone, rfl⟩ | ⟨c, hchannel, hevent | hbackground⟩⟩
  · exact .inl rfl
  · obtain ⟨r', hproceeds, -⟩ := h.start hp hnone
    exact .inr ⟨r', hproceeds⟩
  · obtain ⟨r', hproceeds, -⟩ := h.event hp hchannel hevent
    exact .inr ⟨r', hproceeds⟩
  · exact .inr ⟨_, h.listen hp hdrained hchannel hbackground⟩

/-! ## Its end -/

/-- A process makes a move of its own. -/
def GoesOn (pid : Nat) (m m' : Machine) : Prop :=
  ∃ p, m.proc? pid = some p ∧ m.moveOf? p = some m'

/-- By moves of its own a process comes to where its loop has ended well. -/
def EndsWell (m : Machine) (pid : Nat) : Prop :=
  ∃ m', Relation.ReflTransGen (GoesOn pid) m m' ∧
    ∃ r, m'.roleOf? pid = some r ∧ r.loop.stage = .ended (.ok ())

theorem endsWell_of_ended (hp : m.proc? pid = some p) (h : Quiet p r pipe)
    (hended : r.loop.stage = .ended (.ok ())) : m.EndsWell pid := by
  refine ⟨m, .refl, r, ?_, hended⟩
  unfold roleOf?
  simp [hp, h.program]

theorem EndsWell.of_move (h : m'.EndsWell pid) (hp : m.proc? pid = some p)
    (hactive : p.isActive = true) (hprogram : p.program = .role r)
    (hmove : m.roleMove? p r = some m') : m.EndsWell pid := by
  obtain ⟨m₁, hrun, hended⟩ := h
  refine ⟨m₁, .head ⟨p, hp, ?_⟩ hrun, hended⟩
  unfold moveOf?
  simp only [hactive, if_true, hprogram, hmove]

/-- A job that waits and gets something to react to. -/
theorem Quiet.endsWell_of_event (h : Quiet p r pipe) (hp : m.proc? pid = some p)
    (hactive : p.isActive = true) {c : Channel ControlMessage} (hchannel : r.channel = some c)
    (hawaiting : r.loop.stage = .awaiting) (hevent : m.event? pid r c = some m') :
    m.EndsWell pid := by
  obtain ⟨config, hconfig⟩ := h.configured
  obtain ⟨r', hproceeds, hended⟩ := h.event hp hchannel hevent
  obtain ⟨p', hp', -, -, hquiet⟩ := hproceeds.quiet
  have hresult : r.result? = none := by
    unfold RoleRun.result?
    rw [hawaiting]
  refine (endsWell_of_ended hp' hquiet hended).of_move hp hactive h.program ?_
  simp only [roleMove?, hresult, hconfig, hchannel, loopMove?, hawaiting, pid_of_proc? hp, hevent,
    Option.some_or]

/-- A job that has its channel comes to its end, if nobody can write to it. -/
theorem Quiet.endsWell_of_started (h : Quiet p r pipe) (hp : m.proc? pid = some p)
    (hactive : p.isActive = true) (hdrained : m.IsDrained pipe)
    (hfree : m.isHeld (.writeEnd pipe) = false) {c : Channel ControlMessage}
    (hchannel : r.channel = some c) : m.EndsWell pid := by
  rcases h.stage with hawaiting | hended
  · cases hevent : m.event? pid r c with
    | some m' => exact h.endsWell_of_event hp hactive hchannel hawaiting hevent
    | none =>
      have hlistens := h.listens
      unfold Listens at hlistens
      rw [hchannel] at hlistens
      rcases hlistens with ⟨hinbound, n, hreader, hfile⟩ | hinbound
      · -- It reads first, and finds the end of its channel then.
        rw [← fdsOf_eq hp] at hfile
        have hpump := pump?_of_start hinbound hreader hfile hdrained
        rw [hfree, if_neg Bool.false_ne_true] at hpump
        obtain ⟨r', hr'⟩ : ∃ r', r' = { r with channel := some { c with
          inbound := c.inbound.fail .channelClosed, reader := none } } := ⟨_, rfl⟩
        obtain ⟨config, hconfig⟩ := h.configured
        have hresult : r.result? = none := by
          unfold RoleRun.result?
          rw [hawaiting]
        have hmove : m.roleMove? p r = some ((m.closeFds pid [n]).setRole pid r') := by
          simp only [roleMove?, hresult, hconfig, hchannel, loopMove?, hawaiting,
            pid_of_proc? hp, hevent, Option.none_or, backgroundMove?_of_idle h.idle.1, hpump,
            Option.map_some, hr']
        obtain ⟨-, p', hp', hlife, hstopped, hquiet⟩ := h.close hp hinbound n hr'
        have hactive' : p'.isActive = true := by
          unfold Proc.isActive at hactive ⊢
          rw [hlife, hstopped]
          exact hactive
        have hevent' : ∃ m', ((m.closeFds pid [n]).setRole pid r').event? pid r'
            { c with inbound := c.inbound.fail .channelClosed, reader := none } = some m' := by
          unfold event?
          rw [hinbound]
          exact ⟨_, rfl⟩
        obtain ⟨m', hevent'⟩ := hevent'
        refine EndsWell.of_move ?_ hp hactive h.program hmove
        exact hquiet.endsWell_of_event hp' hactive' (by rw [hr']) (by rw [hr', hawaiting]) hevent'
      · unfold event? at hevent
        rw [hinbound] at hevent
        cases hevent
  · exact endsWell_of_ended hp h hended

/-- A job that has heard nothing comes to the end of its channel once nobody can write to it, and
its loop ends well; however far it is with its start. -/
theorem Quiet.endsWell (h : Quiet p r pipe) (hp : m.proc? pid = some p)
    (hactive : p.isActive = true) (hdrained : m.IsDrained pipe)
    (hfree : m.isHeld (.writeEnd pipe) = false) : m.EndsWell pid := by
  -- By induction on what is left of its start.
  induction hleft : r.startUp.left using Nat.strong_induction_on generalizing m p r with
  | _ left ih =>
    cases hchannel : r.channel with
    | some c => exact h.endsWell_of_started hp hactive hdrained hfree hchannel
    | none =>
      obtain ⟨r', hproceeds, hless⟩ := h.start hp hchannel
      obtain ⟨p', hp', hlife, hstopped, hquiet⟩ := hproceeds.quiet
      have hactive' : p'.isActive = true := by
        unfold Proc.isActive at hactive ⊢
        rw [hlife, hstopped]
        exact hactive
      have hdrained' : (m.startMove p r).IsDrained pipe := by
        unfold IsDrained at hdrained ⊢
        rw [hproceeds.touches.pipes]
        exact hdrained
      have hfree' : (m.startMove p r).isHeld (.writeEnd pipe) = false :=
        (hproceeds.touches.gains _ _ (within_of_isHeld hfree fun _ _ => False)).isHeld fun _ _ => id
      obtain ⟨config, hconfig⟩ := h.configured
      have hresult : r.result? = none := by
        have hlistens := h.listens
        unfold Listens at hlistens
        rw [hchannel] at hlistens
        unfold RoleRun.result?
        rw [hlistens.2.1]
      have hmove : m.roleMove? p r = some (m.startMove p r) := by
        simp only [roleMove?, hresult, hconfig, hchannel]
      exact (ih _ (hleft ▸ hless) hquiet hp' hactive' hdrained' hfree' rfl).of_move hp hactive
        h.program hmove

end Machine

end ProcessTree
