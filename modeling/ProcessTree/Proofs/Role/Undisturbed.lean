-- What leaves a process in the role that it plays: whatever changes what processes have open, sends
-- signals, or starts children.
import ProcessTree.Proofs.Worker.Handoff

namespace ProcessTree.Machine

variable {m m' : Machine} {pid other : Nat} {r r' : RoleRun}

/-! ## Single changes -/

/-- A change of a process that does not touch what it does. -/
def Modest (f : Proc → Proc) : Prop := ∀ p, (f p).pid = p.pid ∧ (f p).program = p.program

theorem roleOf?_modify {f : Proc → Proc} (hf : Modest f) :
    (m.modify other f).roleOf? pid = m.roleOf? pid := by
  unfold roleOf?
  rw [proc?_modify m other pid fun p => (hf p).1]
  cases m.proc? pid with
  | none => rfl
  | some p =>
    have hprogram : (if pid = other then f p else p).program = p.program := by
      by_cases hpid : pid = other
      · rw [if_pos hpid, (hf p).2]
      · rw [if_neg hpid]
    simp only [Option.map_some, Option.bind_some, hprogram]

theorem roleOf?_modifyFds {f : FdTable → FdTable} :
    (m.modifyFds other f).roleOf? pid = m.roleOf? pid := roleOf?_modify fun _ => ⟨rfl, rfl⟩

theorem roleOf?_closeFds {fds : List Nat} : (m.closeFds other fds).roleOf? pid = m.roleOf? pid :=
  roleOf?_modifyFds

theorem roleOf?_becomeRoot (outcome : Except Errno Unit) :
    (m.becomeRoot other outcome).roleOf? pid = m.roleOf? pid := by
  cases outcome with
  | ok _ => exact roleOf?_modify fun _ => ⟨rfl, rfl⟩
  | error e => rfl

theorem roleOf?_setRole (h : m.roleOf? pid = some r) :
    (m.setRole pid r').roleOf? pid = some r' := by
  obtain ⟨p, hp, -⟩ := Option.bind_eq_some_iff.mp h
  unfold roleOf? setRole
  rw [proc?_setProgram_self, hp]
  rfl

theorem roleOf?_addProc {make : Nat → Proc} (h : m.roleOf? pid = some r) :
    (m.addProc make).2.roleOf? pid = some r := by
  obtain ⟨p, hp, hrole⟩ := Option.bind_eq_some_iff.mp h
  unfold roleOf?
  rw [proc?_addProc hp]
  exact hrole

/-- Only the last role that is set counts. -/
theorem setRole_setRole : (m.setRole pid r).setRole pid r' = m.setRole pid r' := by
  simp only [setRole, setProgram, modify, List.map_map]
  congr 2
  funext p
  by_cases hp : p.pid = pid <;> simp [hp]

/-- What a process has open does not depend on its role. -/
theorem closeFds_setRole {fds : List Nat} :
    ((m.setRole pid r).closeFds pid fds).setRole pid r' = (m.closeFds pid fds).setRole pid r' := by
  simp only [setRole, setProgram, closeFds, modifyFds, modify, List.map_map]
  congr 2
  funext p
  by_cases hp : p.pid = pid <;> simp [hp]

/-! ## Signals -/

theorem roleOf?_endAll (state : ExitState) (depth : Nat) (pids : List Nat) (m : Machine) :
    (endAll state depth pids m).roleOf? pid = m.roleOf? pid := by
  induction depth generalizing state pids m with
  | zero => rfl
  | succ depth ih =>
    simp only [endAll]
    induction pids generalizing m with
    | nil => rfl
    | cons q pids ihp =>
      rw [List.foldl_cons, ihp]
      split
      · rw [ih]
        refine roleOf?_modify fun p => ?_
        split <;> exact ⟨rfl, rfl⟩
      · rfl

theorem roleOf?_takeSignal {s : Signal} : (m.takeSignal other s).roleOf? pid = m.roleOf? pid := by
  unfold takeSignal
  split
  · rfl
  · split
    · exact roleOf?_modify fun _ => ⟨rfl, rfl⟩
    · split
      · rfl
      · split
        · rfl
        · split
          · exact roleOf?_endAll _ _ _ _
          · exact roleOf?_modify fun _ => ⟨rfl, rfl⟩
          · rfl
          · rfl

theorem roleOf?_takeSignals (signals : List Signal) (m : Machine) :
    (signals.foldl (fun m s => m.takeSignal other s) m).roleOf? pid = m.roleOf? pid := by
  induction signals generalizing m with
  | nil => rfl
  | cons s signals ih => rw [List.foldl_cons, ih, roleOf?_takeSignal]

/-- A signal may end a process, and does not change what it was doing. -/
theorem roleOf?_signal {s : Signal} : (m.signal other s).roleOf? pid = m.roleOf? pid := by
  unfold signal
  split
  · rfl
  · split
    · rfl
    · split
      · exact roleOf?_endAll _ _ _ _
      · exact roleOf?_modify fun _ => ⟨rfl, rfl⟩
      · rw [roleOf?_takeSignals]
        exact roleOf?_modify fun _ => ⟨rfl, rfl⟩
      · split
        · exact roleOf?_modify fun _ => ⟨rfl, rfl⟩
        · exact roleOf?_takeSignal

theorem roleOf?_dropHandle {h : Handle} : (m.dropHandle h).roleOf? pid = m.roleOf? pid := by
  unfold dropHandle
  split
  · exact roleOf?_signal
  · rfl

theorem roleOf?_closeStep? {h : Handle} {run run' : CloseRun}
    (hstep : m.closeStep? h run = some (run', m')) : m'.roleOf? pid = m.roleOf? pid := by
  obtain ⟨closing, deadline, since⟩ := run
  cases closing with
  | quitting | disconnecting | checking =>
    cases hstep
    rfl
  | terminating | killing =>
    cases hstep
    exact roleOf?_signal
  | waiting | reaping =>
    obtain ⟨result, -, heq⟩ := Option.map_eq_some_iff.mp hstep
    cases heq
    rfl
  | finished result => cases hstep

/-! ## Children -/

theorem roleOf?_openPipe {reader writer : Nat} (hopen : m.openPipe other = (reader, writer, m')) :
    m'.roleOf? pid = m.roleOf? pid := by
  cases hopen
  exact roleOf?_modifyFds

theorem roleOf?_launch {options : SpawnOptions} {ends : ChildEnds}
    {result : Except ProcessError Nat} (hrole : m.roleOf? pid = some r)
    (h : m.launch other options ends = (result, m')) : m'.roleOf? pid = some r := by
  obtain ⟨_, _, m₁, _, _, m₂, hfirst, hsecond, hresult⟩ := launch_eq h
  have hopened : m₂.roleOf? pid = some r := by
    rw [roleOf?_openPipe hsecond, roleOf?_openPipe hfirst, hrole]
  rcases hresult with ⟨-, rfl⟩ | ⟨fds, -, -, rfl⟩
  · rw [roleOf?_closeFds, hopened]
  · apply roleOf?_addProc
    rw [roleOf?_closeFds, hopened]

theorem roleOf?_spawn {options : SpawnOptions} {result : Except ProcessError (Handle × NewChannel)}
    (hrole : m.roleOf? pid = some r) (h : m.spawn other options = (result, m')) :
    m'.roleOf? pid = some r := by
  obtain ⟨ends, m₁, hends, hresult⟩ := spawn_eq h
  have hopened : m₁.roleOf? pid = some r := by
    rcases hfirst : m.openPipe other with ⟨_, _, m₂⟩
    rcases hsecond : m₂.openPipe other with ⟨_, _, m₃⟩
    unfold openEnds at hends
    rw [hfirst] at hends
    simp only [hsecond] at hends
    cases hends
    rw [roleOf?_openPipe hsecond, roleOf?_openPipe hfirst, hrole]
  rcases hresult with ⟨child, hlaunch, -⟩ | ⟨e, closed, hlaunch, -, rfl⟩
  · exact roleOf?_launch hopened hlaunch
  · rw [roleOf?_closeFds]
    exact roleOf?_launch hopened hlaunch

/-! ## Ends of children -/

theorem roleOf?_reap? {outcome : Except Errno ExitState}
    (h : m.reap? other = some (outcome, m')) : m'.roleOf? pid = m.roleOf? pid := by
  unfold reap? at h
  split at h
  · cases h
    rfl
  · split at h <;> cases h
    · exact roleOf?_modify fun _ => ⟨rfl, rfl⟩
    · rfl

/-- Whoever watches the jobs of a role writes down the end of one of them. -/
theorem watchJobs?_eq_some {jobs jobs' : List Handle} (h : m.watchJobs? jobs = some (jobs', m')) :
    m'.roleOf? pid = m.roleOf? pid ∧ ∃ i outcome,
      jobs' = jobs.modify i fun job => { job with exit := job.exit.write outcome } := by
  induction jobs generalizing jobs' with
  | nil => cases h
  | cons job rest ih =>
    unfold watchJobs? at h
    cases hwatch : m.watch? job with
    | some seen =>
      rw [hwatch] at h
      cases h
      obtain ⟨-, outcome, hreap, heq⟩ := watch?_eq_some hwatch
      refine ⟨roleOf?_reap? hreap, 0, outcome, ?_⟩
      rw [heq]
      rfl
    | none =>
      rw [hwatch] at h
      obtain ⟨⟨rest', m₁⟩, hrest, heq⟩ := Option.map_eq_some_iff.mp h
      cases heq
      obtain ⟨hrole, i, outcome, rfl⟩ := ih hrest
      exact ⟨hrole, i + 1, outcome, rfl⟩

theorem roleOf?_catch? {s : Signal} (h : m.catch? other = some (s, m')) :
    m'.roleOf? pid = m.roleOf? pid := by
  unfold catch? at h
  split at h
  · cases h
    exact roleOf?_modify fun _ => ⟨rfl, rfl⟩
  · cases h

/-! ## Channels -/

section Channels

variable {In : Type}

theorem roleOf?_read {fd : Int} {n : Nat} {call : ReadCall} (h : m.read other fd n = (call, m')) :
    m'.roleOf? pid = m.roleOf? pid := by
  unfold read at h
  split at h
  · cases h
    rfl
  · cases h
    rfl
  · cases h
    rfl
  · split at h
    · cases h
      rfl
    · cases h
      rfl

theorem roleOf?_write {fd : Int} {offered : Bytes} {call : WriteCall}
    (h : m.write other fd offered = (call, m')) : m'.roleOf? pid = m.roleOf? pid := by
  unfold write at h
  split at h
  · cases h
    rfl
  · cases h
    rfl
  · cases h
    rfl
  · split at h
    · cases h
      rfl
    · split at h
      · cases h
        rfl
      · split at h
        · cases h
          rfl
        · cases h
          rfl

theorem roleOf?_settleReader [Message In] {c c' : Channel In}
    (h : m.settleReader other c = (c', m')) : m'.roleOf? pid = m.roleOf? pid := by
  unfold settleReader at h
  split at h
  · cases h
    exact roleOf?_closeFds
  · cases h
    rfl

theorem roleOf?_pump? [Message In] {c c' : Channel In} (h : m.pump? other c = some (c', m')) :
    m'.roleOf? pid = m.roleOf? pid := by
  unfold pump? at h
  split at h
  · cases h
    rfl
  · split at h
    · cases h
    · cases h
    · split at h
      · cases h
      all_goals
        rename_i hread
        rw [roleOf?_settleReader (Option.some.inj h), roleOf?_read hread]

theorem roleOf?_finishWriter {c c' : Channel In} {e : ChannelError}
    (h : m.finishWriter other c e = (c', m')) : m'.roleOf? pid = m.roleOf? pid := by
  cases h
  exact roleOf?_closeFds

theorem roleOf?_push (m : Machine) (fd : Nat) (c : Channel In) (s : Sending) :
    (m.push other fd c s).2.2.roleOf? pid = m.roleOf? pid := by
  fun_induction push m other fd c s with
  | case1 | case2 => rfl
  | case3 _ _ _ _ _ hwrite _ _ hfinish =>
    exact (roleOf?_finishWriter hfinish).trans (roleOf?_write hwrite)
  | case4 _ _ _ _ _ _ hfinish hwrite =>
    exact (roleOf?_finishWriter hfinish).trans (roleOf?_write hwrite)
  | case5 _ _ _ _ _ hwrite _ ih => exact ih.trans (roleOf?_write hwrite)

theorem roleOf?_goOn (m : Machine) (c : Channel In) :
    (m.goOn other c).2.2.roleOf? pid = m.roleOf? pid := by
  unfold goOn
  split
  · rfl
  · rfl
  · exact roleOf?_push m _ c _

theorem roleOf?_send {Out : Type} [Message Out] {c c' : Channel In} {message : Out}
    {answer : Option (Except ChannelError Unit)} (h : m.send other c message = (answer, c', m')) :
    m'.roleOf? pid = m.roleOf? pid := by
  unfold send at h
  split at h
  · rw [← roleOf?_goOn m c, h]
  · split at h
    · rw [← roleOf?_goOn m, h]
    · cases h
      rfl

end Channels

end ProcessTree.Machine
