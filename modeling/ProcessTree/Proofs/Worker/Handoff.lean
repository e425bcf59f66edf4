-- What a worker keeps open for the root. Any event closes it; a job that is
-- started replaces it by the worker's own ends of two new pipes. The root copies
-- what the numbers stand for at that moment.
import ProcessTree.Machine.Channels
import ProcessTree.Proofs.Process.Spawning

namespace ProcessTree.Machine

variable {m m' : Machine} {pid other : Nat} {p : Proc} {r r' : RoleRun}
  {owned kept : List (Nat × OpenFile)}

/-- The role that a process plays. -/
def roleOf? (m : Machine) (pid : Nat) : Option RoleRun :=
  (m.proc? pid).bind fun p =>
    match p.program with
    | .role r => some r
    | _ => none

/-- The process is there, and has these open. -/
structure Has (m : Machine) (pid : Nat) (owned : List (Nat × OpenFile)) : Prop where
  there : ∃ p, m.proc? pid = some p
  holds : (m.fdsOf pid).Holds owned

/-- The process lives, plays this role, and has these open. -/
structure Plays (m : Machine) (pid : Nat) (r : RoleRun) (owned : List (Nat × OpenFile)) :
    Prop where
  alive : m.isAlive pid = true
  role : m.roleOf? pid = some r
  holds : (m.fdsOf pid).Holds owned

theorem Plays.proc (h : m.Plays pid r owned) :
    ∃ p, m.proc? pid = some p ∧ p.life = .alive ∧ p.program = .role r := by
  obtain ⟨p, hp, hrole⟩ := Option.bind_eq_some_iff.mp h.role
  have halive := h.alive
  simp only [isAlive, hp, Option.any_some, beq_iff_eq] at halive
  refine ⟨p, hp, halive, ?_⟩
  cases hprogram : p.program with
  | role r' =>
    rw [hprogram] at hrole
    cases hrole
    rfl
  | _ =>
    rw [hprogram] at hrole
    cases hrole

theorem plays_of_proc (hp : m.proc? pid = some p) (halive : p.life = .alive)
    (hrole : p.program = .role r) (howned : p.fds.Holds owned) : m.Plays pid r owned := by
  refine ⟨?_, ?_, ?_⟩
  · simp [isAlive, hp, halive]
  · simp [roleOf?, hp, hrole]
  · rw [fdsOf_eq hp]
    exact howned

theorem Plays.has (h : m.Plays pid r owned) : m.Has pid owned := by
  obtain ⟨p, hp, -⟩ := h.proc
  exact ⟨⟨p, hp⟩, h.holds⟩

theorem Has.sublist (h : m.Has pid owned) (hkept : kept.Sublist owned) : m.Has pid kept :=
  ⟨h.there, h.holds.sublist hkept⟩

/-! ## Changes -/

theorem Rewired.plays (h : m.Rewired m' pid kept) (hplays : m.Plays pid r owned) :
    m'.Plays pid r kept := by
  obtain ⟨p, hp, halive, hrole⟩ := hplays.proc
  obtain ⟨t, ht, howned⟩ := h.self p hp
  exact plays_of_proc ht halive hrole howned

theorem Rewired.has (h : m.Rewired m' pid kept) (hhas : m.Has pid owned) : m'.Has pid kept := by
  obtain ⟨p, hp⟩ := hhas.there
  obtain ⟨t, ht, howned⟩ := h.self p hp
  refine ⟨⟨_, ht⟩, ?_⟩
  rw [fdsOf_eq ht]
  exact howned

/-- Another process is as it was. -/
theorem Rewired.plays_other (h : m.Rewired m' pid kept) (hne : other ≠ pid)
    (hplays : m.Plays other r owned) : m'.Plays other r owned := by
  obtain ⟨p, hp, halive, hrole⟩ := hplays.proc
  have hholds := hplays.holds
  rw [fdsOf_eq hp] at hholds
  exact plays_of_proc (h.others other p hne hp) halive hrole hholds

theorem Rewired.has_other (h : m.Rewired m' pid kept) (hne : other ≠ pid)
    (hhas : m.Has other owned) : m'.Has other owned := by
  obtain ⟨p, hp⟩ := hhas.there
  have hholds := hhas.holds
  rw [fdsOf_eq hp] at hholds
  have hp' := h.others other p hne hp
  refine ⟨⟨p, hp'⟩, ?_⟩
  rw [fdsOf_eq hp']
  exact hholds

theorem Plays.withRole (h : m.Plays pid r owned) (r' : RoleRun) :
    (m.setRole pid r').Plays pid r' owned := by
  obtain ⟨p, hp, halive, -⟩ := h.proc
  have hholds := h.holds
  rw [fdsOf_eq hp] at hholds
  have hp' : (m.setRole pid r').proc? pid = some { p with program := .role r' } := by
    unfold setRole
    rw [proc?_setProgram_self, hp]
    rfl
  exact plays_of_proc hp' halive rfl hholds

theorem Has.withRole_other (h : m.Has other owned) (hne : other ≠ pid) (r' : RoleRun) :
    (m.setRole pid r').Has other owned := by
  obtain ⟨p, hp⟩ := h.there
  have hholds := h.holds
  rw [fdsOf_eq hp] at hholds
  have hp' : (m.setRole pid r').proc? other = some p := by
    unfold setRole
    rw [proc?_setProgram_ne hne, hp]
  refine ⟨⟨p, hp'⟩, ?_⟩
  rw [fdsOf_eq hp']
  exact hholds

/-! ## What is kept for the root -/

/-- The worker's ends of the channel that is made of a pipe and the next one. -/
def parentEnds (pipe : Nat) (ends : Nat × Nat) : List (Nat × OpenFile) :=
  [(ends.1, .readEnd pipe), (ends.2, .writeEnd (pipe + 1))]

/-- What a worker keeps for the root, if it keeps anything. -/
def keptEnds (pipe : Nat) (handoff : Option (Nat × Nat)) : List (Nat × OpenFile) :=
  handoff.elim [] (parentEnds pipe)

/-- Whatever the event is, the worker keeps nothing after it. -/
theorem plays_onEvent {pipe : Nat} (event : LoopEvent)
    (h : m.Plays pid r (keptEnds pipe r.handoff)) :
    (m.onEvent pid r event).Plays pid
      { r with handoff := none, loop := r.loop.onEvent event } [] ∧
    (∀ other owned, other ≠ pid → m.Has other owned →
      (m.onEvent pid r event).Has other owned) ∧
    (m.onEvent pid r event).pipes = m.pipes := by
  have hholds : (m.fdsOf pid).Holds ([] ++ keptEnds pipe r.handoff) := h.holds
  have hclosed : m.Rewired (m.closeFds pid
      (r.handoff.elim [] fun ends => [ends.1, ends.2])) pid [] := by
    refine rewired_closeFds hholds ?_
    cases r.handoff with
    | none => simp
    | some ends => simp [keptEnds, parentEnds]
  refine ⟨(hclosed.plays h).withRole _, ?_, rfl⟩
  intro other owned hne hhas
  exact (hclosed.has_other hne hhas).withRole_other hne _

/-! ## Starting a job -/

section Starting

variable {config : Config} {request : Start} {started : Machine}

theorem plays_startJob_error {e : ProcessError} (h : m.Plays pid r owned)
    (hspawn : m.spawn pid (.job config request.identity m.running) = (.error e, started)) :
    (m.startJob pid r config request).Plays pid
      { r with loop := r.loop.onStarted (.error (.process e)) } owned ∧
    (∀ other kept, other ≠ pid → m.Has other kept →
      (m.startJob pid r config request).Has other kept) ∧
    m.pipes.length ≤ (m.startJob pid r config request).pipes.length := by
  obtain ⟨p, hp, -⟩ := h.proc
  have hrewired : m.Rewired started pid owned := rewired_spawn hp h.holds hspawn
  unfold startJob
  rw [hspawn]
  refine ⟨(hrewired.plays h).withRole _, ?_, hrewired.grows⟩
  intro other kept hne hhas
  exact (hrewired.has_other hne hhas).withRole_other hne _

/-- The worker keeps its own ends of the job's pipes under the numbers that it reports, and the
job has the other ends. -/
theorem plays_startJob_ok {job : Handle} {ends : NewChannel} (h : m.Plays pid r owned)
    (hspawn : m.spawn pid (.job config request.identity m.running) =
      (.ok (job, ends), started)) :
    (m.startJob pid r config request).Plays pid
      { r with
        jobs := r.jobs ++ [job]
        handoff := some (ends.receive, ends.send)
        loop := r.loop.onStarted (.ok (replyOf job ends)) }
      (parentEnds m.pipes.length (ends.receive, ends.send)) ∧
    (∀ other kept, other ≠ pid → m.Has other kept →
      (m.startJob pid r config request).Has other kept) ∧
    m.pipes.length + 2 ≤ (m.startJob pid r config request).pipes.length ∧
    ∃ c ∈ (m.startJob pid r config request).procs, c.pid = job.pid ∧ c.parent = pid ∧
      c.fds.holds (.readEnd (m.pipes.length + 1)) = true ∧
      c.fds.holds (.writeEnd m.pipes.length) = true := by
  obtain ⟨p, hp, -⟩ := h.proc
  obtain ⟨hrewired, hpipes, c, hc, hpid, hparent, hreceive, hsend⟩ :=
    rewired_spawn hp h.holds hspawn
  unfold startJob
  rw [hspawn]
  refine ⟨?_, ?_, hpipes, ?_⟩
  · exact ((hrewired.sublist (List.sublist_append_right _ _)).plays h).withRole _
  · intro other kept hne hhas
    exact (hrewired.has_other hne hhas).withRole_other hne _
  · refine ⟨if c.pid = pid then { c with program := .role _ } else c,
      List.mem_map_of_mem hc, ?_⟩
    by_cases hsame : c.pid = pid
    · simp only [hsame, if_true]
      exact ⟨hsame ▸ hpid, hparent, hreceive, hsend⟩
    · simp only [hsame, if_false]
      exact ⟨hpid, hparent, hreceive, hsend⟩

end Starting

/-! ## Copying -/

/-- A number that stands for something in a process that lives can be copied, and the copy stands
for the same. -/
theorem fetch_of_file {donor number : Nat} {file : OpenFile} (halive : m.isAlive donor = true)
    (hfile : (m.fdsOf donor).file? number = some file) (hhas : m.Has pid owned) :
    ∃ copy copied, m.fetch pid donor number = (.ok copy, copied) ∧
      m.Rewired copied pid (owned ++ [(copy, file)]) := by
  obtain ⟨d, hd, rfl⟩ := Option.map_eq_some_iff.mp hfile
  refine ⟨_, _, ?_, rewired_modifyFds m pid (f := fun _ => _) (hhas.holds.install 0 ⟨d.file, true⟩)⟩
  unfold fetch
  simp only [halive, hd]
  rfl

/-- The two ends that a root copies make a channel. -/
theorem openChannel_of_file {In : Type} {outbound inbound : Registry} {writer reader : Nat}
    {i j : Nat} (hwriter : (m.fdsOf pid).file? writer = some (.writeEnd i))
    (hreader : (m.fdsOf pid).file? reader = some (.readEnd j)) :
    (m.openChannel pid outbound inbound writer reader :
      Except ChannelError (Channel In) × Machine) =
        (.ok (.start outbound inbound writer reader), m) := by
  have hends : checkEnds (m.fdsOf pid) writer reader = .ok () := by
    unfold checkEnds
    unfold FdTable.file? at hwriter hreader
    rw [hwriter, hreader]
    rfl
  unfold openChannel
  rw [hends]

end ProcessTree.Machine
