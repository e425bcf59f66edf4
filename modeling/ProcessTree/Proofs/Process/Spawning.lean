-- What a process has open after it started a child, and what the others have:
-- the two pipes are new, the process keeps its own ends under two new numbers,
-- the child has the other ends, and nobody else's descriptors change.
import ProcessTree.Machine.RoleMoves
import ProcessTree.Proofs.Process.Descriptors

namespace ProcessTree.Machine

variable {m m' m₁ : Machine} {pid other : Nat} {p : Proc}

/-! ## Processes -/

theorem proc?_modify (m : Machine) (pid other : Nat) {f : Proc → Proc}
    (hf : ∀ p, (f p).pid = p.pid) :
    (m.modify pid f).proc? other =
      (m.proc? other).map fun p => if other = pid then f p else p := by
  unfold proc? modify
  rw [List.find?_map, show ((fun p : Proc => p.pid == other) ∘
    fun p => if p.pid = pid then f p else p) = fun p => p.pid == other from ?_]
  · cases hfind : m.procs.find? fun p => p.pid == other with
    | none => rfl
    | some p =>
      have hp : p.pid = other := by simpa using List.find?_some hfind
      simp [hp]
  · funext p
    by_cases hp : p.pid = pid
    · simp [hp, hf]
    · simp [hp]

theorem proc?_modify_self {f : Proc → Proc} (hf : ∀ p, (f p).pid = p.pid) :
    (m.modify pid f).proc? pid = (m.proc? pid).map f := by
  simp [proc?_modify m pid pid hf]

theorem proc?_modify_ne {f : Proc → Proc} (hf : ∀ p, (f p).pid = p.pid) (hne : other ≠ pid) :
    (m.modify pid f).proc? other = m.proc? other := by
  simp [proc?_modify m pid other hf, hne]

theorem pids_modify {f : Proc → Proc} (hf : ∀ p, (f p).pid = p.pid) :
    (m.modify pid f).procs.map Proc.pid = m.procs.map Proc.pid := by
  unfold modify
  rw [List.map_map]
  refine List.map_congr_left fun p _ => ?_
  by_cases hp : p.pid = pid
  · simp [hp, hf]
  · simp [hp]

theorem proc?_addProc {make : Nat → Proc} (h : m.proc? other = some p) :
    (m.addProc make).2.proc? other = some p := by
  unfold proc? at h
  simp [proc?, addProc, List.find?_append, h]

theorem proc?_modifyFds_self {f : FdTable → FdTable} :
    (m.modifyFds pid f).proc? pid = (m.proc? pid).map fun p => { p with fds := f p.fds } :=
  proc?_modify_self fun _ => rfl

theorem proc?_modifyFds_ne {f : FdTable → FdTable} (hne : other ≠ pid) :
    (m.modifyFds pid f).proc? other = m.proc? other :=
  proc?_modify_ne (fun _ => rfl) hne

theorem proc?_setProgram_self {program : Program} :
    (m.setProgram pid program).proc? pid = (m.proc? pid).map fun p => { p with program } :=
  proc?_modify_self fun _ => rfl

theorem proc?_setProgram_ne {program : Program} (hne : other ≠ pid) :
    (m.setProgram pid program).proc? other = m.proc? other :=
  proc?_modify_ne (fun _ => rfl) hne

theorem fdsOf_eq (h : m.proc? pid = some p) : m.fdsOf pid = p.fds := by
  simp [fdsOf, h]

/-! ## Descriptors -/

/-- Of this process only the descriptors have changed, and it has these open; the other processes
are as they were, and there are as many pipes or more. -/
structure Rewired (m m' : Machine) (pid : Nat) (owned : List (Nat × OpenFile)) : Prop where
  self : ∀ p, m.proc? pid = some p →
    ∃ t : FdTable, m'.proc? pid = some { p with fds := t } ∧ t.Holds owned
  others : ∀ q p, q ≠ pid → m.proc? q = some p → m'.proc? q = some p
  grows : m.pipes.length ≤ m'.pipes.length

variable {owned kept : List (Nat × OpenFile)}

theorem Rewired.trans (h : m.Rewired m₁ pid owned) (h' : m₁.Rewired m' pid kept) :
    m.Rewired m' pid kept := by
  refine ⟨?_, ?_, Nat.le_trans h.grows h'.grows⟩
  · intro p hp
    obtain ⟨t, ht, -⟩ := h.self p hp
    obtain ⟨t', ht', howned⟩ := h'.self _ ht
    exact ⟨t', ht', howned⟩
  · intro q p hne hq
    exact h'.others q p hne (h.others q p hne hq)

theorem rewired_refl (howned : (m.fdsOf pid).Holds owned) : m.Rewired m pid owned := by
  refine ⟨?_, fun _ _ _ hq => hq, Nat.le_refl _⟩
  intro p hp
  rw [fdsOf_eq hp] at howned
  exact ⟨p.fds, hp, howned⟩

theorem Rewired.sublist (h : m.Rewired m' pid owned) (hkept : kept.Sublist owned) :
    m.Rewired m' pid kept := by
  refine ⟨?_, h.others, h.grows⟩
  intro p hp
  obtain ⟨t, ht, howned⟩ := h.self p hp
  exact ⟨t, ht, howned.sublist hkept⟩

theorem Rewired.perm (h : m.Rewired m' pid owned) (hkept : kept.Perm owned) :
    m.Rewired m' pid kept := by
  refine ⟨?_, h.others, h.grows⟩
  intro p hp
  obtain ⟨t, ht, howned⟩ := h.self p hp
  exact ⟨t, ht, howned.perm hkept⟩

theorem Rewired.holds (h : m.Rewired m' pid owned) (hp : m.proc? pid = some p) :
    (m'.fdsOf pid).Holds owned ∧ ∃ p', m'.proc? pid = some p' ∧ p'.life = p.life ∧
      p'.program = p.program := by
  obtain ⟨t, ht, howned⟩ := h.self p hp
  refine ⟨?_, _, ht, rfl, rfl⟩
  rw [fdsOf_eq ht]
  exact howned

theorem rewired_modifyFds (m : Machine) (pid : Nat) {f : FdTable → FdTable}
    (hf : (f (m.fdsOf pid)).Holds owned) : m.Rewired (m.modifyFds pid f) pid owned := by
  refine ⟨?_, ?_, Nat.le_refl _⟩
  · intro p hp
    rw [fdsOf_eq hp] at hf
    refine ⟨f p.fds, ?_, hf⟩
    rw [proc?_modifyFds_self, hp]
    rfl
  · intro q p hne hq
    rw [proc?_modifyFds_ne hne, hq]

theorem rewired_closeFds {gone : List Nat} (howned : (m.fdsOf pid).Holds (kept ++ owned))
    (hgone : ∀ n ∈ gone, n ∈ owned.map Prod.fst) : m.Rewired (m.closeFds pid gone) pid kept :=
  rewired_modifyFds m pid (howned.close hgone)

/-- A new process leaves those that there are as they are. -/
theorem Rewired.addProc (h : m.Rewired m' pid owned) (make : Nat → Proc) :
    m.Rewired (m'.addProc make).2 pid owned := by
  refine ⟨?_, ?_, h.grows⟩
  · intro p hp
    obtain ⟨t, ht, howned⟩ := h.self p hp
    exact ⟨t, proc?_addProc ht, howned⟩
  · intro q p hne hq
    exact proc?_addProc (h.others q p hne hq)

/-- A new pipe, with its ends under two new numbers. -/
theorem rewired_openPipe {reader writer : Nat} (howned : (m.fdsOf pid).Holds owned)
    (hopen : m.openPipe pid = (reader, writer, m')) :
    m.Rewired m' pid
      (owned ++ [(reader, .readEnd m.pipes.length), (writer, .writeEnd m.pipes.length)]) ∧
      m'.pipes.length = m.pipes.length + 1 := by
  cases hopen
  have hboth := (howned.install 0 ⟨.readEnd m.pipes.length, true⟩).install 0
    ⟨.writeEnd m.pipes.length, true⟩
  rw [List.append_assoc] at hboth
  have hrewired := rewired_modifyFds (m.addPipe .empty).2 pid (f := fun _ => _) hboth
  have hlength : (m.pipes ++ [Pipe.empty]).length = m.pipes.length + 1 := by simp
  refine ⟨⟨hrewired.self, hrewired.others, ?_⟩, hlength⟩
  exact Nat.le_trans (Nat.le_succ _) (Nat.le_of_eq hlength.symm)

/-! ## Starting a child -/

/-- The child's ends are closed, and nothing else that was open. -/
theorem rewired_launch {options : SpawnOptions} {ends : ChildEnds} {f g : OpenFile}
    {result : Except ProcessError Nat} (hp : m.proc? pid = some p)
    (howned : (m.fdsOf pid).Holds (owned ++ [(ends.receive, f), (ends.send, g)]))
    (h : m.launch pid options ends = (result, m')) :
    m.Rewired m' pid owned ∧ ∀ child, result = .ok child →
      ∃ c ∈ m'.procs, c.pid = child ∧ c.parent = pid ∧ c.fds.holds f = true ∧
        c.fds.holds g = true := by
  obtain ⟨syncRead, syncWrite, m₁, statusRead, statusWrite, m₂, hfirst, hsecond, hresult⟩ :=
    launch_eq h
  have hopened := (rewired_openPipe howned hfirst).1
  obtain ⟨howned₁, p₁, hp₁, -⟩ := hopened.holds hp
  have hopened' := (rewired_openPipe howned₁ hsecond).1
  obtain ⟨howned₂, p₂, hp₂, -⟩ := hopened'.holds hp₁
  have hapart := howned₂
  rw [List.append_assoc, List.append_assoc] at hapart
  have hclosed : m.Rewired (m₂.closeFds pid
      [syncRead, syncWrite, statusRead, statusWrite, ends.receive, ends.send]) pid owned :=
    (hopened.trans hopened').trans (rewired_closeFds hapart (by simp))
  rcases hresult with ⟨⟨e, rfl⟩, rfl⟩ | ⟨fds, hrun, rfl, rfl⟩
  · exact ⟨hclosed, nofun⟩
  · refine ⟨hclosed.addProc _, ?_⟩
    rintro child hchild
    cases hchild
    have hreceive := howned₂.2 ends.receive f (by simp)
    have hsend := howned₂.2 ends.send g (by simp)
    obtain ⟨hf, hg⟩ := Handover.holds_of_run hreceive hsend hrun
    exact ⟨_, List.mem_append_right _ List.mem_cons_self, rfl, rfl, hf, hg⟩

/-- The two pipes of a new channel: the ends of the process that makes it, and its child's. -/
theorem rewired_openEnds {ends : NewChannel} (hp : m.proc? pid = some p)
    (howned : (m.fdsOf pid).Holds owned) (h : m.openEnds pid = (ends, m')) :
    m.Rewired m' pid (owned ++
      [(ends.receive, .readEnd m.pipes.length), (ends.send, .writeEnd (m.pipes.length + 1))] ++
      [(ends.child.receive, .readEnd (m.pipes.length + 1)),
        (ends.child.send, .writeEnd m.pipes.length)]) ∧
      m'.pipes.length = m.pipes.length + 2 := by
  rcases hfirst : m.openPipe pid with ⟨receive, childSend, m₁⟩
  rcases hsecond : m₁.openPipe pid with ⟨childReceive, send, m₂⟩
  unfold openEnds at h
  rw [hfirst] at h
  simp only [hsecond] at h
  cases h
  obtain ⟨hopened, hlength⟩ := rewired_openPipe howned hfirst
  obtain ⟨howned₁, p₁, hp₁, -⟩ := hopened.holds hp
  obtain ⟨hopened', hlength'⟩ := rewired_openPipe howned₁ hsecond
  have hboth := hopened.trans hopened'
  rw [hlength, List.append_assoc] at hboth
  refine ⟨?_, by rw [hlength', hlength]⟩
  rw [List.append_assoc]
  refine hboth.perm (.append_left owned (.cons _ ?_))
  exact List.reverse_perm [(childSend, _), (childReceive, _), (send, _)]

/-- A process that starts a child keeps its own ends of two new pipes, and the child has the other
ends; if no child is started it keeps nothing. -/
theorem rewired_spawn {options : SpawnOptions}
    {result : Except ProcessError (Handle × NewChannel)} (hp : m.proc? pid = some p)
    (howned : (m.fdsOf pid).Holds owned) (h : m.spawn pid options = (result, m')) :
    match result with
    | .error _ => m.Rewired m' pid owned
    | .ok (job, ends) =>
      m.Rewired m' pid (owned ++ [(ends.receive, .readEnd m.pipes.length),
        (ends.send, .writeEnd (m.pipes.length + 1))]) ∧
      m.pipes.length + 2 ≤ m'.pipes.length ∧
      ∃ c ∈ m'.procs, c.pid = job.pid ∧ c.parent = pid ∧
        c.fds.holds (.readEnd (m.pipes.length + 1)) = true ∧
        c.fds.holds (.writeEnd m.pipes.length) = true := by
  obtain ⟨ends, m₁, hends, hresult⟩ := spawn_eq h
  obtain ⟨hopened, hlength⟩ := rewired_openEnds hp howned hends
  obtain ⟨howned₁, p₁, hp₁, -⟩ := hopened.holds hp
  rcases hresult with ⟨child, hlaunch, rfl⟩ | ⟨e, closed, hlaunch, rfl, rfl⟩
  · obtain ⟨hrewired, hchild⟩ := rewired_launch hp₁ howned₁ hlaunch
    obtain ⟨c, hc, hpid, hparent, hreceive, hsend⟩ := hchild child rfl
    refine ⟨hopened.trans hrewired, ?_, c, hc, hpid, hparent, hreceive, hsend⟩
    rw [← hlength]
    exact hrewired.grows
  · obtain ⟨hrewired, -⟩ := rewired_launch hp₁ howned₁ hlaunch
    obtain ⟨howned₂, -⟩ := hrewired.holds hp₁
    refine (hopened.trans hrewired).trans (rewired_closeFds howned₂ ?_)
    simp

end ProcessTree.Machine
