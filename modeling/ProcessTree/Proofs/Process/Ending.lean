-- How a process ends: what is left of it, what becomes of the others, and which of the signals
-- that come to it end it.
import ProcessTree.Machine.Close
import ProcessTree.Proofs.Process.Spawning

namespace ProcessTree

/-- What is left of a process that ends. -/
def Proc.ended (p : Proc) (state : ExitState) : Proc := { p with life := .ended state, fds := [] }

theorem Proc.life_ended (p : Proc) (state : ExitState) : (p.ended state).life ≠ .alive := by
  simp [ended]

namespace Machine

variable {m m' m₁ : Machine} {pid other : Nat} {p : Proc} {state : ExitState}

theorem pid_of_proc? (hp : m.proc? pid = some p) : p.pid = pid := by
  simpa using List.find?_some hp

/-! ## Ends -/

/-- Some of the processes have ended, and nothing else has changed. -/
structure Loses (m m' : Machine) : Prop where
  procs : ∀ pid, m'.proc? pid = m.proc? pid ∨
    ∃ p state, m.proc? pid = some p ∧ p.life = .alive ∧ m'.proc? pid = some (p.ended state)
  pids : m'.procs.map Proc.pid = m.procs.map Proc.pid
  rest : m' = { m with procs := m'.procs }

theorem loses_refl (m : Machine) : m.Loses m := ⟨fun _ => .inl rfl, rfl, rfl⟩

theorem Loses.pipes (h : m.Loses m') : m'.pipes = m.pipes := by
  rw [h.rest]

/-- A process ends once. -/
theorem Loses.proc?_of_over (h : m.Loses m') (hp : m.proc? pid = some p) (hover : p.life ≠ .alive) :
    m'.proc? pid = some p := by
  rcases h.procs pid with hsame | ⟨q, state, hq, halive, -⟩
  · rw [hsame, hp]
  · rw [hp] at hq
    cases hq
    exact absurd halive hover

theorem Loses.trans (h : m.Loses m₁) (h' : m₁.Loses m') : m.Loses m' := by
  refine ⟨?_, h'.pids.trans h.pids, by rw [h'.rest, h.rest]⟩
  intro pid
  rcases h.procs pid with hsame | ⟨p, state, hp, halive, hended⟩
  · rw [← hsame]
    exact h'.procs pid
  · exact .inr ⟨p, state, hp, halive, h'.proc?_of_over hended (p.life_ended state)⟩

/-- What a process has open afterwards, it had open before. -/
theorem Loses.get?_fdsOf (h : m.Loses m') {n : Int} {d : Descriptor}
    (hget : (m'.fdsOf pid).get? n = some d) : (m.fdsOf pid).get? n = some d := by
  rcases h.procs pid with hsame | ⟨p, state, -, -, hended⟩
  · unfold fdsOf at hget ⊢
    rw [← hsame]
    exact hget
  · rw [fdsOf_eq hended] at hget
    cases hget

theorem pid_endOne (state : ExitState) (p : Proc) :
    (if p.life = .alive then { p with life := .ended state, fds := [] } else p : Proc).pid =
      p.pid := by
  split <;> rfl

theorem loses_endOne (m : Machine) (pid : Nat) (state : ExitState) :
    m.Loses (m.endOne pid state) := by
  refine ⟨?_, pids_modify (pid_endOne state), rfl⟩
  intro q
  unfold endOne
  rw [proc?_modify m pid q (pid_endOne state)]
  cases hp : m.proc? q with
  | none => exact .inl rfl
  | some p =>
    by_cases hends : q = pid ∧ p.life = .alive
    · refine .inr ⟨p, state, rfl, hends.2, ?_⟩
      rw [Option.map_some, if_pos hends.1, if_pos hends.2]
      rfl
    · refine .inl ?_
      rw [Option.map_some]
      by_cases hq : q = pid
      · rw [if_pos hq, if_neg fun halive => hends ⟨hq, halive⟩]
      · rw [if_neg hq]

theorem loses_endAll (state : ExitState) (depth : Nat) (pids : List Nat) (m : Machine) :
    m.Loses (endAll state depth pids m) := by
  induction depth generalizing state pids m with
  | zero => exact loses_refl m
  | succ depth ih =>
    simp only [endAll]
    induction pids generalizing m with
    | nil => exact loses_refl m
    | cons pid pids ihp =>
      rw [List.foldl_cons]
      refine Loses.trans ?_ (ihp _)
      split
      · exact (loses_endOne m pid state).trans (ih _ _ _)
      · exact loses_refl m

theorem loses_endProc (m : Machine) (pid : Nat) (state : ExitState) :
    m.Loses (m.endProc pid state) := loses_endAll state _ _ m

theorem proc?_endProc (hp : m.proc? pid = some p) (halive : p.life = .alive) :
    (m.endProc pid state).proc? pid = some (p.ended state) := by
  obtain ⟨depth, hdepth⟩ : ∃ depth, m.procs.length = depth + 1 :=
    Nat.exists_eq_add_one_of_ne_zero fun hnone => by
      rw [proc?, List.length_eq_zero_iff.mp hnone] at hp
      cases hp
  have hone : (m.endOne pid state).proc? pid = some (p.ended state) := by
    unfold endOne
    rw [proc?_modify_self (pid_endOne state), hp, Option.map_some, if_pos halive]
    rfl
  unfold endProc
  rw [hdepth]
  simp only [endAll, List.foldl_cons, List.foldl_nil, hp]
  exact (loses_endAll _ _ _ _).proc?_of_over hone (p.life_ended state)

/-! ## Signals -/

/-- Nothing comes to a process that has ended. -/
theorem signal_of_over (hp : m.proc? pid = some p) (hover : p.life ≠ .alive) (s : Signal) :
    m.signal pid s = m := by
  unfold signal
  simp only [hp, if_pos hover]

theorem signal_kill (hp : m.proc? pid = some p) (halive : p.life = .alive) :
    m.signal pid .kill = m.endProc pid (.signaled .kill) := by
  unfold signal
  simp only [hp, halive, ne_eq, not_true_eq_false, if_false]

/-- SIGTERM ends a process that is not stopped, unless it handles it. -/
theorem signal_term (hp : m.proc? pid = some p) (halive : p.life = .alive)
    (hgoing : p.stopped = false) (hheeds : Signal.term ∉ p.ignored) (hfirst : p.first = false) :
    m.signal pid .term =
      if Signal.term ∈ p.handled then m.modify pid fun p => { p with caught := p.caught ++ [.term] }
      else m.endProc pid (.signaled .term) := by
  unfold signal
  simp only [hp, halive, hgoing, ne_eq, not_true_eq_false, if_false, Bool.false_eq_true]
  unfold takeSignal
  simp only [hp, hheeds, hfirst, Bool.false_eq_true, false_and, if_false]
  rfl

/-- The end of a process is observed as it was. -/
theorem reap?_of_ended (hp : m.proc? pid = some p) (hended : p.life = .ended state) :
    m.reap? pid = some (.ok state, m.modify pid fun p => { p with life := .reaped }) := by
  unfold reap?
  simp only [hp, hended]

theorem reap?_of_alive (hp : m.proc? pid = some p) (halive : p.life = .alive) :
    m.reap? pid = none := by
  unfold reap?
  simp only [hp, halive]

end Machine

end ProcessTree
