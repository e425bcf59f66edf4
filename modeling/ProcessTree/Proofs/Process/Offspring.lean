-- What a child is that was just started: a process of its own that is about to play its role, with
-- the ends of its channel where its arguments say, and the pipes of that channel without anything
-- in them.
import ProcessTree.Proofs.Process.Arrival
import ProcessTree.Proofs.Process.Spawning

namespace ProcessTree.Machine

open Handover (told placed)

variable {m m' m₁ : Machine} {pid : Nat} {p : Proc} {options : SpawnOptions} {k l : Nat}

/-! ## Opening pipes -/

/-- A process has opened so many new pipes, and may have closed some of their ends. -/
structure Opens (m m' : Machine) (pid count : Nat) : Prop where
  rest : m' = { m with procs := m'.procs, pipes := m.pipes ++ List.replicate count .empty }
  pids : m'.procs.map Proc.pid = m.procs.map Proc.pid
  self : ∀ p, m.proc? pid = some p →
    ∃ t : FdTable, m'.proc? pid = some { p with fds := t } ∧ (p.fds.Single → t.Single)

theorem Opens.trans (h : m.Opens m₁ pid k) (h' : m₁.Opens m' pid l) : m.Opens m' pid (k + l) := by
  refine ⟨?_, h'.pids.trans h.pids, ?_⟩
  · rw [h'.rest, h.rest, ← List.replicate_append_replicate, ← List.append_assoc]
  · intro p hp
    obtain ⟨t, ht, hsingle⟩ := h.self p hp
    obtain ⟨t', ht', hsingle'⟩ := h'.self _ ht
    exact ⟨t', ht', hsingle' ∘ hsingle⟩

theorem opens_closeFds (m : Machine) (pid : Nat) (gone : List Nat) :
    m.Opens (m.closeFds pid gone) pid 0 := by
  refine ⟨?_, pids_modify fun _ => rfl, ?_⟩
  · simp [closeFds, modifyFds, modify]
  · intro p hp
    refine ⟨gone.foldl FdTable.close p.fds, ?_, fun hsingle => hsingle.closeAll gone⟩
    unfold closeFds
    rw [proc?_modifyFds_self, hp]
    rfl

theorem opens_openPipe {reader writer : Nat} (hopen : m.openPipe pid = (reader, writer, m')) :
    m.Opens m' pid 1 := by
  have hm' : m' = (m.addPipe .empty).2.modifyFds pid fun _ =>
      (((m.fdsOf pid).install 0 ⟨.readEnd m.pipes.length, true⟩).2.install 0
        ⟨.writeEnd m.pipes.length, true⟩).2 := by
    cases hopen
    rfl
  rw [hm']
  refine ⟨rfl, pids_modify fun _ => rfl, ?_⟩
  intro p hp
  have hproc : (m.addPipe .empty).2.proc? pid = some p := hp
  rw [proc?_modifyFds_self, hproc, fdsOf_eq hp]
  exact ⟨_, rfl, fun hsingle => (hsingle.set _ _).set _ _⟩

theorem opens_openEnds {ends : NewChannel} (h : m.openEnds pid = (ends, m')) :
    m.Opens m' pid 2 := by
  rcases hfirst : m.openPipe pid with ⟨receive, childSend, m₁⟩
  rcases hsecond : m₁.openPipe pid with ⟨childReceive, send, m₂⟩
  unfold openEnds at h
  rw [hfirst] at h
  simp only [hsecond] at h
  cases h
  exact (opens_openPipe hfirst).trans (opens_openPipe hsecond)

/-- What a child would be does not depend on the pipes. -/
theorem Opens.newProc (h : m.Opens m' pid k) (hp : m.proc? pid = some p) (ends : ChildEnds)
    (fds : FdTable) (child : Nat) :
    m'.newProc pid options ends fds child = m.newProc pid options ends fds child := by
  obtain ⟨t, ht, -⟩ := h.self p hp
  have hcredentials : m'.credentialsOf pid = m.credentialsOf pid := by
    unfold credentialsOf
    rw [ht, hp]
    rfl
  unfold Machine.newProc
  rw [hcredentials, h.rest]
  rfl

theorem opens_launch {ends : ChildEnds} {result : Except ProcessError Nat}
    (h : m.launch pid options ends = (result, m')) :
    ∃ closed, m.Opens closed pid 2 ∧ ((∃ e, result = .error e ∧ m' = closed) ∨
      ∃ child t, result = .ok child ∧ m' = (closed.addProc (m.newProc pid options ends t)).2) := by
  obtain ⟨syncRead, syncWrite, m₁, statusRead, statusWrite, m₂, hfirst, hsecond, hresult⟩ :=
    launch_eq h
  refine ⟨_, ((opens_openPipe hfirst).trans (opens_openPipe hsecond)).trans (opens_closeFds m₂ pid
    [syncRead, syncWrite, statusRead, statusWrite, ends.receive, ends.send]), ?_⟩
  rcases hresult with ⟨⟨e, rfl⟩, rfl⟩ | ⟨t, -, rfl, rfl⟩
  · exact .inl ⟨e, rfl, rfl⟩
  · exact .inr ⟨_, t, rfl, rfl⟩

/-- Whatever comes of an attempt to start a child, its pipes have been opened, and there is no more
than the child beside. -/
theorem opens_spawn {result : Except ProcessError (Handle × NewChannel)} (hp : m.proc? pid = some p)
    (h : m.spawn pid options = (result, m')) :
    ∃ closed, m.Opens closed pid 4 ∧ ((∃ e, result = .error e ∧ m' = closed) ∨
      ∃ job ends t, result = .ok (job, ends) ∧
        m' = (closed.addProc (m.newProc pid options ends.child t)).2) := by
  obtain ⟨ends, m₁, hends, hresult⟩ := spawn_eq h
  have hopens := opens_openEnds hends
  rcases hresult with ⟨child, hlaunch, rfl⟩ | ⟨e, closed, hlaunch, rfl, rfl⟩
  · obtain ⟨closed, hclosed, ⟨e, he, -⟩ | ⟨child', t, -, rfl⟩⟩ := opens_launch hlaunch
    · cases he
    · refine ⟨closed, hopens.trans hclosed, .inr ⟨_, ends, t, rfl, ?_⟩⟩
      rw [funext (hopens.newProc hp ends.child t)]
  · obtain ⟨closed', hclosed, ⟨e', -, rfl⟩ | ⟨child', t, he, -⟩⟩ := opens_launch hlaunch
    · exact ⟨_, (hopens.trans hclosed).trans (opens_closeFds _ pid [ends.receive, ends.send]),
        .inl ⟨e, rfl, rfl⟩⟩
    · cases he

/-! ## Being started -/

/-- A new process is found by the number that it got. -/
theorem proc?_addProc_self {make : Nat → Proc} (hfresh : ∀ q ∈ m.procs, q.pid < m.nextPid)
    (hmake : (make m.nextPid).pid = m.nextPid) :
    (m.addProc make).2.proc? m.nextPid = some (make m.nextPid) := by
  have hnone : m.procs.find? (·.pid == m.nextPid) = none := by
    rw [List.find?_eq_none]
    intro q hq hsame
    have hless := hfresh q hq
    rw [beq_iff_eq] at hsame
    omega
  simp [addProc, proc?, List.find?_append, hnone, hmake]

/-- A process that was just started with its end of a channel over the next two pipes. -/
structure Offspring (m m' : Machine) (pid : Nat) (options : SpawnOptions) (ends : ChildEnds)
    (t : FdTable) : Prop where
  proc : m'.proc? m.nextPid = some (m.newProc pid options ends t m.nextPid)
  apart : ends.receive ≠ ends.send
  read : t.file? (told (placed options.fdPassing ends)).read.toInt =
    some (.readEnd (m.pipes.length + 1))
  write : t.file? (told (placed options.fdPassing ends)).write.toInt =
    some (.writeEnd m.pipes.length)
  pipes : m'.pipes = m.pipes ++ List.replicate 4 .empty

theorem offspring_of_launch {ends : NewChannel} {child : Nat} (hp : m.proc? pid = some p)
    (hsingle : p.fds.Single) (hfresh : ∀ q ∈ m.procs, q.pid < m.nextPid)
    (hbounded : ends.child.receive ≤ Invocation.maxFd ∧ ends.child.send ≤ Invocation.maxFd)
    (hends : m.openEnds pid = (ends, m₁))
    (h : m₁.launch pid options ends.child = (.ok child, m')) :
    child = m.nextPid ∧ ∃ t, Offspring m m' pid options ends.child t := by
  obtain ⟨hrewired, -⟩ := rewired_openEnds hp (FdTable.holds_nil _) hends
  obtain ⟨howned₁, -⟩ := hrewired.holds hp
  obtain ⟨syncRead, syncWrite, m₂, statusRead, statusWrite, m₃, hfirst, hsecond, hresult⟩ :=
    launch_eq h
  have hopened := (opens_openEnds hends).trans
    ((opens_openPipe hfirst).trans (opens_openPipe hsecond))
  obtain ⟨t, ht, htable⟩ := hopened.self p hp
  have hclosed := hopened.trans (opens_closeFds m₃ pid
    [syncRead, syncWrite, statusRead, statusWrite, ends.child.receive, ends.child.send])
  obtain ⟨t₁, ht₁, -⟩ := (opens_openEnds hends).self p hp
  have hrewired₂ := (rewired_openPipe howned₁ hfirst).1
  obtain ⟨howned₂, -⟩ := hrewired₂.holds ht₁
  have hrewired₃ := (rewired_openPipe howned₂ hsecond).1
  obtain ⟨t₂, ht₂, -⟩ := (opens_openPipe hfirst).self _ ht₁
  obtain ⟨howned₃, -⟩ := hrewired₃.holds ht₂
  rcases hresult with ⟨⟨e, he⟩, -⟩ | ⟨fds, hrun, heq, rfl⟩
  · cases he
  · cases heq
    rw [fdsOf_eq ht] at hrun howned₃
    obtain ⟨d, hd, hdfile⟩ := Option.map_eq_some_iff.mp
      (howned₃.2 ends.child.receive (.readEnd (m.pipes.length + 1)) (by simp))
    obtain ⟨e, he, hefile⟩ := Option.map_eq_some_iff.mp
      (howned₃.2 ends.child.send (.writeEnd m.pipes.length) (by simp))
    obtain ⟨report, hreport, -⟩ := Option.map_eq_some_iff.mp
      (howned₃.2 statusWrite (.writeEnd m₂.pipes.length) (by simp))
    have hne : ends.child.receive ≠ ends.child.send := by
      intro hsame
      rw [hsame, he] at hd
      cases hd
      rw [hdfile] at hefile
      cases hefile
    obtain ⟨fds', hrun', -, harrived⟩ := Handover.arrived_of_open options.fdPassing
      (htable hsingle) hne hbounded hd he hreport
    rw [hrun] at hrun'
    cases hrun'
    have hpid := congrArg Machine.nextPid hclosed.rest
    have hfresh' : ∀ q ∈ (m₃.closeFds pid [syncRead, syncWrite, statusRead, statusWrite,
        ends.child.receive, ends.child.send]).procs, q.pid < m.nextPid := by
      intro q hq
      have hmem := List.mem_map_of_mem (f := Proc.pid) hq
      rw [hclosed.pids] at hmem
      obtain ⟨q', hq', hsame⟩ := List.mem_map.mp hmem
      rw [← hsame]
      exact hfresh q' hq'
    refine ⟨hpid, fds, ?_, hne, ?_, ?_, ?_⟩
    · rw [← (opens_openEnds hends).newProc hp, ← hpid]
      exact proc?_addProc_self (by rw [hpid]; exact hfresh') rfl
    · rw [harrived.read]
      unfold FdTable.file?
      rw [hd, Option.map_some, hdfile]
    · rw [harrived.write]
      unfold FdTable.file?
      rw [he, Option.map_some, hefile]
    · exact congrArg Machine.pipes hclosed.rest

theorem offspring_of_spawn {child : Handle} {ends : NewChannel} (hp : m.proc? pid = some p)
    (hsingle : p.fds.Single) (hfresh : ∀ q ∈ m.procs, q.pid < m.nextPid)
    (hbounded : ends.child.receive ≤ Invocation.maxFd ∧ ends.child.send ≤ Invocation.maxFd)
    (h : m.spawn pid options = (.ok (child, ends), m')) :
    child = ⟨options.role, m.nextPid, none, options.killGrace⟩ ∧
      ∃ t, Offspring m m' pid options ends.child t := by
  obtain ⟨ends', m₁, hends, ⟨number, hlaunch, heq⟩ | ⟨e, closed, -, heq, -⟩⟩ := spawn_eq h
  · cases heq
    obtain ⟨rfl, hoffspring⟩ := offspring_of_launch hp hsingle hfresh hbounded hends hlaunch
    exact ⟨rfl, hoffspring⟩
  · cases heq

/-- A child that plays its role is told the ends that it has, and finds its configuration where any
child of its parent would. -/
theorem Offspring.program {ends : ChildEnds} {t : FdTable} (h : Offspring m m' pid options ends t)
    (hrole : options.role ≠ .root) (hbehaviour : m.behaviour = .role)
    (hbounded : ends.receive ≤ Invocation.maxFd ∧ ends.send ≤ Invocation.maxFd) :
    (m.newProc pid options ends t m.nextPid).program =
      .role (.start options.role (told (placed options.fdPassing ends))
        (m.configOf (m.host.inherits (m.credentialsOf pid) options))) := by
  have hargs : Invocation.ofArgs (argsOf options ends) = _ :=
    Handover.ofArgs_placed hrole options.fdPassing options.executable h.apart hbounded
  unfold Machine.newProc programOf
  simp only [hargs, hbehaviour]
  rfl

end ProcessTree.Machine
