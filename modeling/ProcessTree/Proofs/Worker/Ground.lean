-- The machine that a root and its worker are on. What they count on stays so, whatever they, their
-- children and the signals that come to them do.
import ProcessTree.Proofs.Role.JobMoves
import ProcessTree.Proofs.Role.Undisturbed

namespace ProcessTree.Machine

variable {m m' : Machine} {pid other root worker : Nat} {p : Proc} {r r' : RoleRun}
  {options : SpawnOptions}

/-! ## What a role keeps -/

/-- What a role keeps for the root. -/
def handoffOf (m : Machine) (pid : Nat) : Option (Nat × Nat) :=
  (m.roleOf? pid).bind RoleRun.handoff

theorem handoffOf_of_role (h : m'.roleOf? pid = m.roleOf? pid) :
    m'.handoffOf pid = m.handoffOf pid := by
  unfold handoffOf
  rw [h]

theorem handoffOf_of_proc (h : m'.proc? pid = m.proc? pid) :
    m'.handoffOf pid = m.handoffOf pid := by
  refine handoffOf_of_role ?_
  unfold roleOf?
  rw [h]

theorem handoffOf_setRole (h : m.roleOf? pid = some r) (r' : RoleRun) :
    (m.setRole pid r').handoffOf pid = r'.handoff := by
  unfold handoffOf
  rw [roleOf?_setRole h]
  rfl

theorem roleOf?_endProc {state : ExitState} : (m.endProc other state).roleOf? pid = m.roleOf? pid :=
  roleOf?_endAll _ _ _ _

/-! ## Processes that are there -/

/-- The process is there, and its numbers stand for one thing each. -/
def IsThere (m : Machine) (pid : Nat) : Prop := ∃ p, m.proc? pid = some p ∧ p.fds.Single

theorem IsThere.of_proc (h : m.IsThere pid) (hsame : m'.proc? pid = m.proc? pid) :
    m'.IsThere pid := by
  obtain ⟨p, hp, hsingle⟩ := h
  exact ⟨p, hsame.trans hp, hsingle⟩

theorem IsThere.modify {f : Proc → Proc} (h : m.IsThere pid) (hf : ∀ p, (f p).pid = p.pid)
    (hfds : ∀ p, p.fds.Single → (f p).fds.Single) : (m.modify other f).IsThere pid := by
  obtain ⟨p, hp, hsingle⟩ := h
  refine ⟨if pid = other then f p else p, by rw [proc?_modify m other pid hf, hp]; rfl, ?_⟩
  split
  · exact hfds p hsingle
  · exact hsingle

theorem IsThere.closeFds (h : m.IsThere pid) (gone : List Nat) :
    (m.closeFds other gone).IsThere pid :=
  h.modify (fun _ => rfl) fun _ hsingle => hsingle.closeAll gone

theorem IsThere.strikes (h : m.IsThere pid) (hstrikes : m.Strikes m') : m'.IsThere pid := by
  obtain ⟨p, hp, hsingle⟩ := h
  obtain ⟨p', hp', hfds, -⟩ := hstrikes.procs pid p hp
  refine ⟨p', hp', ?_⟩
  rcases hfds with hfds | hfds
  · rw [hfds]
    exact hsingle
  · rw [hfds]
    exact List.nodup_nil

/-! ## Copies -/

theorem fetch_error {donor : Nat} {number : Int} {e : BrokerError}
    (h : m.fetch pid donor number = (.error e, m')) : m' = m := by
  unfold Machine.fetch at h
  split at h
  · cases h
    rfl
  · split at h
    · cases h
      rfl
    · cases h

theorem alters_fetch {donor : Nat} {number : Int} {result : Except BrokerError Nat}
    (h : m.fetch pid donor number = (result, m')) : m.Alters m' pid := by
  unfold Machine.fetch at h
  split at h
  · cases h
    exact alters_refl m pid
  · split at h
    · cases h
      exact alters_refl m pid
    · cases h
      exact alters_modify fun _ => rfl

/-! ## Children -/

/-- What is left of an attempt to start a child, whatever comes of it. -/
structure Spawns (m m' : Machine) (pid : Nat) : Prop where
  self : ∀ p, m.proc? pid = some p →
    ∃ t : FdTable, m'.proc? pid = some { p with fds := t } ∧ (p.fds.Single → t.Single)
  others : ∀ q p, q ≠ pid → m.proc? q = some p → m'.proc? q = some p
  pipes : m'.pipes = m.pipes ++ List.replicate 4 .empty
  later : m.nextPid ≤ m'.nextPid
  fresh : (∀ q ∈ m.procs, q.pid < m.nextPid) → ∀ q ∈ m'.procs, q.pid < m'.nextPid
  behaviour : m'.behaviour = m.behaviour
  configured : m'.configOf = m.configOf

theorem spawns_of_spawn {result : Except ProcessError (Handle × NewChannel)}
    (hp : m.proc? pid = some p) (h : m.spawn pid options = (result, m')) : m.Spawns m' pid := by
  have hothers : ∀ q p, q ≠ pid → m.proc? q = some p → m'.proc? q = some p := by
    have hrewired := rewired_spawn hp (FdTable.holds_nil (m.fdsOf pid)) h
    cases result with
    | error e => exact hrewired.others
    | ok started => exact hrewired.1.others
  obtain ⟨closed, hopens, hclosed⟩ := opens_spawn hp h
  have hpid : closed.nextPid = m.nextPid := by rw [hopens.rest]
  have hpipes : closed.pipes = m.pipes ++ List.replicate 4 .empty := by rw [hopens.rest]
  have hbehaviour : closed.behaviour = m.behaviour := by rw [hopens.rest]
  have hold {q : Proc} (hfresh : ∀ q ∈ m.procs, q.pid < m.nextPid) (hq : q ∈ closed.procs) :
      q.pid < m.nextPid := by
    have hmem := List.mem_map_of_mem (f := Proc.pid) hq
    rw [hopens.pids] at hmem
    obtain ⟨q', hq', hsame⟩ := List.mem_map.mp hmem
    exact hsame ▸ hfresh q' hq'
  have hconfig : closed.configOf = m.configOf := by
    rw [hopens.rest]
    rfl
  rcases hclosed with ⟨e, -, rfl⟩ | ⟨job, ends, t, -, rfl⟩
  · refine ⟨hopens.self, hothers, hpipes, Nat.le_of_eq hpid.symm, ?_, hbehaviour, hconfig⟩
    intro hfresh q hq
    rw [hpid]
    exact hold hfresh hq
  · refine ⟨?_, hothers, hpipes, ?_, ?_, hbehaviour, hconfig⟩
    · intro p hp
      obtain ⟨t, ht, hsingle⟩ := hopens.self p hp
      exact ⟨t, proc?_addProc ht, hsingle⟩
    · exact hpid ▸ Nat.le_succ closed.nextPid
    · intro hfresh q hq
      refine Nat.lt_succ_iff.mpr ?_
      rcases List.mem_append.mp hq with hq | hq
      · exact hpid ▸ Nat.le_of_lt (hold hfresh hq)
      · rw [List.mem_singleton.mp hq]
        exact Nat.le_refl _

theorem Spawns.isThere (h : m.Spawns m' pid) (hthere : m.IsThere other) : m'.IsThere other := by
  obtain ⟨p, hp, hsingle⟩ := hthere
  by_cases hpid : other = pid
  · obtain ⟨t, ht, hsingle'⟩ := h.self p (hpid ▸ hp)
    exact ⟨_, hpid ▸ ht, hsingle' hsingle⟩
  · exact ⟨p, h.others other p hpid hp, hsingle⟩

theorem Spawns.length (h : m.Spawns m' pid) : m'.pipes.length = m.pipes.length + 4 := by
  rw [h.pipes, List.length_append, List.length_replicate]

theorem Spawns.pipe (h : m.Spawns m' pid) {i : Nat} (hi : i < m.pipes.length) :
    m'.pipes[i]? = m.pipes[i]? := by
  rw [h.pipes, List.getElem?_append_left hi]

/-- What the roles keep is not touched by it. -/
theorem Spawns.handoffOf (h : m.Spawns m' pid) (hthere : m.IsThere other) :
    m'.handoffOf other = m.handoffOf other := by
  obtain ⟨p, hp, -⟩ := hthere
  refine handoffOf_of_role ?_
  unfold roleOf?
  by_cases hpid : other = pid
  · obtain ⟨t, ht, -⟩ := h.self p (hpid ▸ hp)
    rw [hpid, ht, ← hpid, hp]
    rfl
  · rw [h.others other p hpid hp, hp]

/-- A job that was just started has heard nothing. -/
theorem Offspring.silent {config : Config} {identity : JobIdentity} {ends : ChildEnds}
    {t : FdTable} (h : Offspring m m' pid (.job config identity m.running) ends t)
    (hbehaviour : m.behaviour = .role)
    (hconfigured : ∀ credentials, ∃ config, m.configOf credentials = .ok config)
    (hbounded : ends.receive ≤ Invocation.maxFd ∧ ends.send ≤ Invocation.maxFd) :
    m'.Silent m.nextPid (m.pipes.length + 1) := by
  obtain ⟨config', hconfig⟩ := hconfigured
    (m.host.inherits (m.credentialsOf pid) (.job config identity m.running))
  have hprogram := h.program nofun hbehaviour hbounded
  rw [hconfig] at hprogram
  obtain ⟨hread, hwrite⟩ := Handover.toInt_told_placed config.fdPassing hbounded
  have hreads := h.read
  have hwrites := h.write
  rw [show (SpawnOptions.job config identity m.running).fdPassing = config.fdPassing from rfl]
    at hreads hwrites
  refine ⟨⟨.empty, by rw [h.pipes]; simp, rfl⟩, _, h.proc, fun _ => ⟨_, hprogram, ⟨rfl, rfl⟩,
    ⟨rfl, rfl⟩, ⟨config', rfl⟩, .inl rfl, ?_⟩⟩
  rw [hread] at hreads
  rw [hwrite] at hwrites
  exact ⟨nofun, rfl, _, _, _, hread, hwrite, hreads, hwrites⟩

/-! ## The ground -/

/-- A machine on which a root and its worker are at work: both are there, children play their roles
and find a configuration, and nobody can write into a pipe or have the number of a process that
there is not. -/
structure Grounded (m : Machine) (root worker : Nat) : Prop where
  apart : root ≠ worker
  root : m.IsThere root
  worker : m.IsThere worker
  behaviour : m.behaviour = .role
  configured : ∀ credentials, ∃ config, m.configOf credentials = .ok config
  fresh : ∀ q ∈ m.procs, q.pid < m.nextPid
  formed : ∀ i, m.pipes.length ≤ i → m.isHeld (.writeEnd i) = false

theorem NoneGains.isHeld (h : m.NoneGains m') {file : OpenFile} (hheld : m.isHeld file = false) :
    m'.isHeld file = false :=
  (h file _ (within_of_isHeld hheld fun _ _ => False)).isHeld fun _ _ => id

/-- Changes of processes that leave both parties there, and of what is in pipes. -/
theorem Grounded.of_rest (h : m.Grounded root worker)
    (hrest : m' = { m with procs := m'.procs, pipes := m'.pipes })
    (hpids : m'.procs.map Proc.pid = m.procs.map Proc.pid)
    (hlength : m'.pipes.length = m.pipes.length)
    (hheld : ∀ i, m.isHeld (.writeEnd i) = false → m'.isHeld (.writeEnd i) = false)
    (hroot : m'.IsThere root) (hworker : m'.IsThere worker) : m'.Grounded root worker := by
  refine ⟨h.apart, hroot, hworker, ?_, ?_, ?_, ?_⟩
  · rw [hrest]
    exact h.behaviour
  · rw [hrest]
    exact h.configured
  · intro q hq
    have hmem := List.mem_map_of_mem (f := Proc.pid) hq
    rw [hpids] at hmem
    obtain ⟨q', hq', hsame⟩ := List.mem_map.mp hmem
    rw [hrest, ← hsame]
    exact h.fresh q' hq'
  · intro i hi
    rw [hlength] at hi
    exact hheld i (h.formed i hi)

theorem Grounded.works (h : m.Grounded root worker) (hworks : m.Works m' pid) (hroot : pid ≠ root)
    (hworker : pid ≠ worker) : m'.Grounded root worker :=
  h.of_rest hworks.rest hworks.pids hworks.length (fun _ => hworks.gains.isHeld)
    (h.root.of_proc (hworks.others _ hroot.symm)) (h.worker.of_proc (hworks.others _ hworker.symm))

theorem Grounded.strikes (h : m.Grounded root worker) (hstrikes : m.Strikes m')
    (hgains : m.NoneGains m') : m'.Grounded root worker := by
  have hpipes : m'.pipes = m.pipes := by rw [hstrikes.rest]
  refine h.of_rest ?_ hstrikes.pids (by rw [hpipes]) (fun _ => hgains.isHeld)
    (h.root.strikes hstrikes) (h.worker.strikes hstrikes)
  rw [hpipes]
  exact hstrikes.rest

theorem Grounded.modify {f : Proc → Proc} (h : m.Grounded root worker)
    (hf : ∀ p, (f p).pid = p.pid) (hfds : ∀ p, p.fds.Single → (f p).fds.Single)
    (hheld : ∀ i, m.isHeld (.writeEnd i) = false → (m.modify pid f).isHeld (.writeEnd i) = false) :
    (m.modify pid f).Grounded root worker :=
  h.of_rest rfl (pids_modify hf) rfl hheld (h.root.modify hf hfds) (h.worker.modify hf hfds)

theorem Grounded.setRole (h : m.Grounded root worker) (pid : Nat) (r : RoleRun) :
    (m.setRole pid r).Grounded root worker :=
  h.modify (fun _ => rfl) (fun _ hsingle => hsingle) fun _ => (noneGains_setRole m pid r).isHeld

theorem Grounded.closeFds (h : m.Grounded root worker) (pid : Nat) (gone : List Nat) :
    (m.closeFds pid gone).Grounded root worker :=
  h.of_rest rfl (pids_modify fun _ => rfl) rfl (fun _ => (noneGains_closeFds m pid gone).isHeld)
    (h.root.closeFds gone) (h.worker.closeFds gone)

theorem Grounded.onEvent (h : m.Grounded root worker) (pid : Nat) (r : RoleRun)
    (event : LoopEvent) : (m.onEvent pid r event).Grounded root worker :=
  (h.closeFds pid _).setRole pid _

theorem Grounded.fetch {donor : Nat} {number : Int} {result : Except BrokerError Nat}
    (h : m.Grounded root worker) (hthere : m.IsThere pid)
    (hfetch : m.fetch pid donor number = (result, m')) : m'.Grounded root worker := by
  have hsingle : (m.fdsOf pid).Single := by
    obtain ⟨p, hp, hsingle⟩ := hthere
    rw [fdsOf_eq hp]
    exact hsingle
  have hfetched := hfetch
  unfold Machine.fetch at hfetch
  split at hfetch
  · cases hfetch
    exact h
  · split at hfetch
    · cases hfetch
      exact h
    · cases hfetch
      refine h.modify (fun _ => rfl) (fun _ _ => hsingle.set _ _) fun i hfree => ?_
      exact ((within_of_isHeld hfree fun _ _ => False).fetch hfetched (fun _ _ => id)
        fun _ _ => id).isHeld fun _ _ => id

theorem Grounded.spawn {result : Except ProcessError (Handle × NewChannel)}
    (h : m.Grounded root worker) (hthere : m.IsThere pid)
    (hspawn : m.spawn pid options = (result, m')) : m'.Grounded root worker := by
  obtain ⟨p, hp, hsingle⟩ := hthere
  have hspawns := spawns_of_spawn hp hspawn
  refine ⟨h.apart, hspawns.isThere h.root, hspawns.isThere h.worker,
    hspawns.behaviour.trans h.behaviour, by rw [hspawns.configured]; exact h.configured,
    hspawns.fresh h.fresh, ?_⟩
  intro i hi
  rw [hspawns.length] at hi
  have hfree := within_of_isHeld (h.formed i (by omega)) fun _ _ => False
  refine (hfree.spawn hp hsingle ?_ hspawn).isHeld fun _ _ => id
  rintro k hk (hfile | hfile)
  · cases hfile
  · have := OpenFile.writeEnd.inj hfile
    omega

end ProcessTree.Machine
