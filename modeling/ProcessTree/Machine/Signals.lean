-- How processes end: by themselves, by signals, and with those they depend on;
-- and how an end is observed.
import ProcessTree.Machine.Basic

namespace ProcessTree.Machine

/-! ## Ends -/

/-- Ends a process: what it had open is closed. -/
def endOne (m : Machine) (pid : Nat) (state : ExitState) : Machine :=
  m.modify pid fun p =>
    if p.life = .alive then { p with life := .ended state, fds := [] } else p

/-- The processes that end with a process: those it leaves behind in its pid namespace, and those
that asked for it. -/
def dependants (m : Machine) (p : Proc) : List Nat :=
  (m.procs.filter fun c => c.parent = p.pid ∧ (p.first ∨ c.dieWithParent)).map (·.pid)

/-- Ends processes with all that depend on them, down to so many generations. -/
def endAll (state : ExitState) : Nat → List Nat → Machine → Machine
  | 0, _, m => m
  | depth + 1, pids, m => pids.foldl (fun m pid =>
      match m.proc? pid with
      | some p => endAll (.signaled .kill) depth (m.dependants p) (m.endOne pid state)
      | none => m) m

/-- Ends a process and all that depend on it. -/
def endProc (m : Machine) (pid : Nat) (state : ExitState) : Machine :=
  endAll state m.procs.length [pid] m

/-- Observes the end of a process, if it has ended, and leaves nothing of it. -/
def reap? (m : Machine) (pid : Nat) : Option (Except Errno ExitState × Machine) :=
  match m.proc? pid with
  | none => some (.error .noChild, m)
  | some p =>
    match p.life with
    | .alive => none
    | .ended state => some (.ok state, m.modify pid fun p => { p with life := .reaped })
    | .reaped => some (.error .noChild, m)

/-- Observing an end takes no time, and finds how the process ended or that there is none. -/
theorem reap?_eq_some {m m' : Machine} {pid : Nat} {outcome : Except Errno ExitState}
    (h : m.reap? pid = some (outcome, m')) :
    m'.clock = m.clock ∧ (outcome = .error .noChild ∨ ∃ state, outcome = .ok state) := by
  unfold reap? at h
  split at h
  · cases h
    exact ⟨rfl, Or.inl rfl⟩
  · split at h
    · cases h
    · cases h
      exact ⟨rfl, Or.inr ⟨_, rfl⟩⟩
    · cases h
      exact ⟨rfl, Or.inl rfl⟩

/-! ## Signals -/

/-- What a signal does to a process that is not stopped. -/
def takeSignal (m : Machine) (pid : Nat) (s : Signal) : Machine :=
  match m.proc? pid with
  | none => m
  | some p =>
    if s ∈ p.handled then m.modify pid fun p => { p with caught := p.caught ++ [s] }
    else if s ∈ p.ignored then m
    else if p.first ∧ s.effect ≠ .continues then m
    else match s.effect with
      | .ends => m.endProc pid (.signaled s)
      | .stops => m.modify pid fun p => { p with stopped := true }
      | .nothing | .continues => m

/-- Sends a signal to a process; one that has ended takes none. -/
def signal (m : Machine) (pid : Nat) (s : Signal) : Machine :=
  match m.proc? pid with
  | none => m
  | some p =>
    if p.life ≠ .alive then m
    else match s with
      | .kill => m.endProc pid (.signaled .kill)
      | .stop => m.modify pid fun p => { p with stopped := true }
      | .cont =>
        let m := m.modify pid fun p => { p with stopped := false, pending := [] }
        p.pending.foldl (fun m s => m.takeSignal pid s) m
      | s =>
        if p.stopped then m.modify pid fun p => { p with pending := p.pending ++ [s] }
        else m.takeSignal pid s

/-- Takes one of the signals that a process has caught. -/
def catch? (m : Machine) (pid : Nat) : Option (Signal × Machine) :=
  match (m.proc? pid).map (·.caught) with
  | some (s :: rest) => some (s, m.modify pid fun p => { p with caught := rest })
  | _ => none

/-! ## Children -/

/-- Writes down how a child ended, if it has and that was not written down: what the one who
watches it does. -/
def watch? (m : Machine) (h : Handle) : Option (Handle × Machine) :=
  if h.exit.isSome then none
  else (m.reap? h.pid).map fun (outcome, m) => ({ h with exit := h.exit.write outcome }, m)

theorem watch?_eq_some {m m' : Machine} {h h' : Handle} (hwatch : m.watch? h = some (h', m')) :
    h.exit = none ∧ ∃ outcome, m.reap? h.pid = some (outcome, m') ∧
      h' = { h with exit := h.exit.write outcome } := by
  unfold watch? at hwatch
  split at hwatch
  · cases hwatch
  · rename_i hunset
    obtain ⟨⟨outcome, m₁⟩, hreap, heq⟩ := Option.map_eq_some_iff.mp hwatch
    cases heq
    exact ⟨by simpa using hunset, outcome, hreap, rfl⟩

/-- Lets go of a child: it is killed unless its end is known. -/
def dropHandle (m : Machine) (h : Handle) : Machine :=
  if h.exit.isNone then m.signal h.pid .kill else m

end ProcessTree.Machine
