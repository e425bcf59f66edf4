-- What a job does, whatever it hears: it starts nothing, so it changes its own process and what is
-- on its way in pipes, and gains nothing by it.
import ProcessTree.Proofs.Role.Silence

namespace ProcessTree

/-- A role that plays a job. -/
structure RoleRun.IsJob (r : RoleRun) : Prop where
  role : r.role = .job ∧ r.loop.role = .job
  idle : r.jobs = [] ∧ r.handoff = none
  stage : r.loop.stage = .awaiting ∨ r.loop.stage = .assuming ∨
    ∃ result, r.loop.stage = .ended result

/-- The loop of a job waits no longer after an event: it is about to become root, or over. -/
theorem RoleLoop.onEvent_of_job {l : RoleLoop} (hrole : l.role = .job) (event : LoopEvent) :
    (l.onEvent event).role = .job ∧ ((l.onEvent event).stage = .assuming ∨
      ∃ result, (l.onEvent event).stage = .ended result) := by
  have hleave (result : Except ReentryError Unit) :
      (l.leave result).role = .job ∧ (l.leave result).stage = .ended result := by
    unfold leave
    rw [if_neg (by rw [hrole]; decide)]
    exact ⟨hrole, rfl⟩
  have hover (result : Except ReentryError Unit) : (l.leave result).role = .job ∧
      ((l.leave result).stage = .assuming ∨ ∃ result', (l.leave result).stage = .ended result') :=
    ⟨(hleave result).1, .inr ⟨result, (hleave result).2⟩⟩
  cases event with
  | signal s => exact hover _
  | failed e => cases e <;> exact hover _
  | message m =>
    cases m with
    | quit => exact hover _
    | begin body =>
      unfold onEvent
      by_cases htakes : l.takesBegin = true
      · simp only [htakes, if_true]
        exact ⟨hrole, .inl trivial⟩
      · simp only [htakes]
        exact hover _
    | start body =>
      unfold onEvent
      simp only [hrole, reduceCtorEq, if_false]
      exact hover _

namespace Machine

variable {m m' m₁ : Machine} {pid pipe : Nat} {p : Proc} {r : RoleRun}

/-- No process has changed but this one, nobody has anything open that it had not before, and
nothing has come into a pipe that was empty. -/
structure Works (m m' : Machine) (pid : Nat) : Prop where
  rest : m' = { m with procs := m'.procs, pipes := m'.pipes }
  pids : m'.procs.map Proc.pid = m.procs.map Proc.pid
  others : ∀ q, q ≠ pid → m'.proc? q = m.proc? q
  gains : m.NoneGains m'
  length : m'.pipes.length = m.pipes.length
  drained : ∀ pipe, m.IsDrained pipe → m'.IsDrained pipe

theorem Touches.works (h : m.Touches m' pid) : m.Works m' pid := by
  refine ⟨?_, h.pids, h.others, h.gains, by rw [h.pipes], ?_⟩
  · rw [h.pipes]
    exact h.rest
  · intro pipe hdrained
    unfold IsDrained at hdrained ⊢
    rw [h.pipes]
    exact hdrained

theorem Works.trans (h : m.Works m₁ pid) (h' : m₁.Works m' pid) : m.Works m' pid :=
  ⟨by rw [h'.rest, h.rest], h'.pids.trans h.pids,
    fun q hne => (h'.others q hne).trans (h.others q hne), h.gains.trans h'.gains,
    h'.length.trans h.length, fun pipe hdrained => h'.drained pipe (h.drained pipe hdrained)⟩

/-- Reading takes out what there is, and changes no process. -/
theorem works_read {fd : Int} {n : Nat} {call : ReadCall} (h : m.read pid fd n = (call, m')) :
    m.Works m' pid ∧ m'.procs = m.procs := by
  have hrefl : m.Works m pid :=
    ⟨rfl, rfl, fun _ _ => rfl, noneGains_refl m, rfl, fun _ hdrained => hdrained⟩
  unfold Machine.read at h
  split at h
  · cases h
    exact ⟨hrefl, rfl⟩
  · cases h
    exact ⟨hrefl, rfl⟩
  · cases h
    exact ⟨hrefl, rfl⟩
  · rename_i read _ _
    split at h
    · cases h
      exact ⟨hrefl, rfl⟩
    · rename_i hsome
      cases h
      refine ⟨⟨rfl, rfl, fun _ _ => rfl, noneGains_refl m, by simp [setPipe], ?_⟩, rfl⟩
      rintro pipe ⟨q, hq, hsize⟩
      have hne : read ≠ pipe := by
        rintro rfl
        unfold pipeAt at hsome
        rw [hq] at hsome
        exact hsome hsize
      exact ⟨q, by simp only [setPipe]; rw [List.getElem?_set_ne hne, hq], hsize⟩

/-- Its receiver goes on. -/
theorem works_pump? {c c' : Channel ControlMessage} (hp : m.proc? pid = some p)
    (h : m.pump? pid c = some (c', m')) :
    m.Works m' pid ∧ ∃ p', m'.proc? pid = some p' ∧ p'.program = p.program := by
  have hsettle {c c' : Channel ControlMessage} {m₁ m' : Machine} (hprocs : m₁.procs = m.procs)
      (hworks : m.Works m₁ pid) (h : m₁.settleReader pid c = (c', m')) :
      m.Works m' pid ∧ ∃ p', m'.proc? pid = some p' ∧ p'.program = p.program := by
    obtain ⟨-, gone, rfl, -⟩ := settleReader_cases h
    have hp₁ : m₁.proc? pid = some p := by
      unfold proc?
      rw [hprocs]
      exact hp
    have hclosed : (m₁.closeFds pid gone).proc? pid =
        some { p with fds := gone.foldl FdTable.close p.fds } := proc?_change hp₁ fun _ => rfl
    exact ⟨hworks.trans (touches_closeFds m₁ pid gone).works, _, hclosed, rfl⟩
  unfold Machine.pump? at h
  split at h
  · cases h
    exact ⟨⟨rfl, rfl, fun _ _ => rfl, noneGains_refl m, rfl, fun _ hdrained => hdrained⟩, p, hp,
      rfl⟩
  · split at h
    · cases h
    · cases h
    · split at h
      · cases h
      all_goals
        rename_i hread
        obtain ⟨hworks, hprocs⟩ := works_read hread
        exact hsettle hprocs hworks (Option.some.inj h)

/-! ## A job at work -/

/-- The process plays a job, as long as it lives. -/
def PlaysJob (m : Machine) (pid : Nat) : Prop :=
  ∃ p, m.proc? pid = some p ∧ (p.life = .alive → ∃ r, p.program = .role r ∧ r.IsJob)

/-- It has gone on, and plays a job. -/
def WorksOn (m m' : Machine) (pid : Nat) : Prop := m.Works m' pid ∧ m'.PlaysJob pid

theorem Quiet.isJob (h : Quiet p r pipe) : r.IsJob :=
  ⟨h.role, h.idle, h.stage.imp id fun hended => .inr ⟨_, hended⟩⟩

theorem Silent.playsJob (h : m.Silent pid pipe) : m.PlaysJob pid := by
  obtain ⟨p, hp, hquiet⟩ := h.quiet
  refine ⟨p, hp, ?_⟩
  intro halive
  obtain ⟨r, hr⟩ := hquiet halive
  exact ⟨r, hr.program, hr.isJob⟩

theorem PlaysJob.others (h : m.PlaysJob pid) (hp : m'.proc? pid = m.proc? pid) :
    m'.PlaysJob pid := by
  unfold PlaysJob
  rw [hp]
  exact h

theorem PlaysJob.strikes (h : m.PlaysJob pid) (hstrikes : m.Strikes m') : m'.PlaysJob pid := by
  obtain ⟨p, hp, hplays⟩ := h
  obtain ⟨p', hp', -, hsame⟩ := hstrikes.procs pid p hp
  refine ⟨p', hp', ?_⟩
  intro halive
  obtain ⟨halive₀, hprogram, -⟩ := hsame halive
  rw [hprogram]
  exact hplays halive₀

theorem worksOn_setRole (hp : m.proc? pid = some p) (hr : r.IsJob) :
    m.WorksOn (m.setRole pid r) pid :=
  ⟨(touches_setRole m pid r).works, _, proc?_setRole hp r, fun _ => ⟨r, rfl, hr⟩⟩

/-- First the process is changed, and then its role. -/
theorem Works.setRole (h : m.Works m₁ pid) (hp : m₁.proc? pid = some p) (hr : r.IsJob) :
    m.WorksOn (m₁.setRole pid r) pid := by
  obtain ⟨hworks, hplays⟩ := worksOn_setRole hp hr
  exact ⟨h.trans hworks, hplays⟩

/-- Whether its start goes well or not. -/
theorem worksOn_startMove (hp : m.proc? pid = some p) (h : r.IsJob) :
    m.WorksOn (m.startMove p r) pid := by
  have hpid := pid_of_proc? hp
  have hfinish (result : Except ReentryError Unit) : (r.finish result).IsJob :=
    ⟨h.role, h.idle, .inr (.inr ⟨result, rfl⟩)⟩
  have hconnect : m.WorksOn (m.connect pid r) pid := by
    have hdirections : r.role.directions? = some (.jobToRoot, .rootToJob) := by
      rw [h.role.1]
      rfl
    unfold Machine.connect Machine.openChannel
    simp only [hdirections]
    cases checkEnds (m.fdsOf pid) r.fds.write.toInt.toNat r.fds.read.toInt.toNat with
    | ok _ => exact worksOn_setRole hp ⟨h.role, h.idle, h.stage⟩
    | error e =>
      exact (touches_closeFds m pid _).works.setRole (proc?_change hp fun _ => rfl) (hfinish _)
  unfold startMove
  rw [hpid]
  split
  · exact worksOn_setRole hp (hfinish _)
  · exact worksOn_setRole hp ⟨h.role, h.idle, h.stage⟩
  · unfold Machine.adopt
    rw [hpid]
    cases hadopt : r.fds.adopt p.fds with
    | error e => exact worksOn_setRole hp (hfinish _)
    | ok t =>
      obtain ⟨htouches, hadopted⟩ := touches_adopt hp hadopt
      exact htouches.works.setRole hadopted ⟨h.role, h.idle, h.stage⟩
  · have htouches : m.Touches (m.modify pid fun p => { p with handled := Signal.termination })
        pid := touches_modify (fun _ => rfl) fun _ _ _ h => h
    exact htouches.works.setRole (proc?_change hp fun _ => rfl) ⟨h.role, h.idle, h.stage⟩
  · exact hconnect
  · exact hconnect

/-- Whatever event it takes. -/
theorem worksOn_onEvent (hp : m.proc? pid = some p) (h : r.IsJob) (event : LoopEvent) :
    m.WorksOn (m.onEvent pid r event) pid := by
  rw [onEvent_of_idle m pid h.idle.2]
  obtain ⟨hrole, hstage⟩ := RoleLoop.onEvent_of_job h.role.2 event
  exact worksOn_setRole hp ⟨⟨h.role.1, hrole⟩, h.idle, .inr hstage⟩

theorem worksOn_caught (hp : m.proc? pid = some p) (h : r.IsJob) {s : Signal}
    (hcatch : m.catch? pid = some (s, m₁)) : m.WorksOn (m₁.onEvent pid r (.signal s)) pid := by
  obtain ⟨rest, -, rfl⟩ := catch?_eq_some hp hcatch
  have htouches : m.Touches (m.modify pid fun p => { p with caught := rest }) pid :=
    touches_modify (fun _ => rfl) fun _ _ _ h => h
  have hself : (m.modify pid fun p => { p with caught := rest }).proc? pid =
      some { p with caught := rest } := proc?_change hp fun _ => rfl
  obtain ⟨hworks, hplays⟩ := worksOn_onEvent hself h (.signal s)
  exact ⟨htouches.works.trans hworks, hplays⟩

theorem worksOn_backgroundMove? (hp : m.proc? pid = some p) (h : r.IsJob)
    {c : Channel ControlMessage} (hmove : m.backgroundMove? pid r c = some m') :
    m.WorksOn m' pid := by
  rw [backgroundMove?_of_idle h.idle.1] at hmove
  obtain ⟨⟨c', m₁⟩, hpump, rfl⟩ := Option.map_eq_some_iff.mp hmove
  obtain ⟨hworks, p', hp', -⟩ := works_pump? hp hpump
  exact hworks.setRole hp' ⟨h.role, h.idle, h.stage⟩

theorem touches_becomeRoot (hp : m.proc? pid = some p) (outcome : Except Errno Unit) :
    m.Touches (m.becomeRoot pid outcome) pid ∧
      ∃ p', (m.becomeRoot pid outcome).proc? pid = some p' := by
  cases outcome with
  | ok _ =>
    have htouches : m.Touches (m.becomeRoot pid (.ok ())) pid :=
      touches_modify (fun _ => rfl) fun _ _ _ h => h
    exact ⟨htouches, _, proc?_change hp fun _ => rfl⟩
  | error e => exact ⟨⟨alters_refl m pid, noneGains_refl m⟩, p, hp⟩

/-- Whatever a job does next, it ends or goes on. -/
theorem worksOn_roleMove? (hp : m.proc? pid = some p) (h : r.IsJob)
    (hmove : m.roleMove? p r = some m') :
    (∃ code, m' = m.endProc pid (.exited code)) ∨ m.WorksOn m' pid := by
  have hpid := pid_of_proc? hp
  unfold roleMove? at hmove
  rw [hpid] at hmove
  split at hmove
  · exact .inl ⟨_, (Option.some.inj hmove).symm⟩
  · rename_i config c hresult _ _
    refine .inr ?_
    rcases Option.or_eq_some_iff.mp hmove with hloop | ⟨-, hbackground⟩
    · unfold loopMove? at hloop
      rw [hpid] at hloop
      rcases h.stage with hstage | hstage | ⟨result, hstage⟩
      · simp only [hstage, event?] at hloop
        split at hloop
        · rename_i inbound hrecv
          have hjob : RoleRun.IsJob { r with channel := some { c with inbound := inbound } } :=
            ⟨h.role, h.idle, h.stage⟩
          cases hloop
          exact worksOn_onEvent hp hjob _
        · obtain ⟨⟨s, m₁⟩, hcatch, rfl⟩ := Option.map_eq_some_iff.mp hloop
          exact worksOn_caught hp h hcatch
      · simp only [hstage, Option.some.injEq] at hloop
        subst hloop
        obtain ⟨htouches, p', hp'⟩ := touches_becomeRoot hp (m.host.assumesRoot p.credentials)
        refine htouches.works.setRole hp' ⟨?_, h.idle, ?_⟩
        · unfold RoleLoop.onAssumed
          split
          · exact h.role
          · unfold RoleLoop.leave
            exact h.role
        · unfold RoleLoop.onAssumed
          split
          · exact .inl rfl
          · unfold RoleLoop.leave
            rw [if_neg (by rw [h.role.2]; decide)]
            exact .inr (.inr ⟨_, rfl⟩)
      · simp only [hstage, reduceCtorEq] at hloop
    · exact worksOn_backgroundMove? hp h hbackground
  · exact .inr ((Option.some.inj hmove) ▸ worksOn_startMove hp h)

end Machine

end ProcessTree
