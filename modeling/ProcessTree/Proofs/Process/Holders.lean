-- Who has a file open. It gets from one process to another by a copy, or with a child that is
-- started while it would stay open; whatever else a process does, nobody gains it.
import ProcessTree.Machine.Channels
import ProcessTree.Proofs.Process.Ending
import ProcessTree.Proofs.Process.Offspring

namespace ProcessTree

/-- A file is an end of this pipe. -/
def OpenFile.IsOf (file : OpenFile) (pipe : Nat) : Prop :=
  file = .readEnd pipe ∨ file = .writeEnd pipe

namespace FdTable

variable {t : FdTable} {file : OpenFile} {ns ns' : Nat → Prop} {gone : List Nat} {n : Nat}
  {d : Descriptor}

/-! ## Tables -/

/-- A file is open under these numbers at most, and closed when another program is run. -/
def Within (t : FdTable) (file : OpenFile) (ns : Nat → Prop) : Prop :=
  ∀ entry ∈ t, entry.2.file = file → ns entry.1 ∧ entry.2.closeOnExec = true

theorem within_nil (file : OpenFile) (ns : Nat → Prop) : Within [] file ns := by
  intro entry hentry
  cases hentry

theorem Within.mono (h : t.Within file ns) (hns : ∀ n, ns n → ns' n) : t.Within file ns' := by
  intro entry hentry hfile
  obtain ⟨hn, hcloses⟩ := h entry hentry hfile
  exact ⟨hns _ hn, hcloses⟩

theorem Within.set (h : t.Within file ns) (hns : ∀ n, ns n → ns' n)
    (hd : d.file = file → ns' n ∧ d.closeOnExec = true) : (t.set n d).Within file ns' := by
  intro entry hentry hfile
  rcases List.mem_append.mp hentry with hentry | hentry
  · exact h.mono hns entry (List.mem_filter.mp hentry).1 hfile
  · rw [List.mem_singleton.mp hentry] at hfile ⊢
    exact hd hfile

theorem mem_closeAll {entry : Nat × Descriptor} (h : entry ∈ gone.foldl FdTable.close t) :
    entry ∈ t ∧ entry.1 ∉ gone := by
  induction gone generalizing t with
  | nil => exact ⟨h, List.not_mem_nil⟩
  | cons n gone ih =>
    obtain ⟨hentry, hgone⟩ := ih h
    obtain ⟨hentry, hne⟩ := List.mem_filter.mp hentry
    refine ⟨hentry, ?_⟩
    rw [List.mem_cons, not_or]
    exact ⟨by simpa using hne, hgone⟩

theorem Within.closeAll (h : t.Within file ns) (hns : ∀ n, ns n → n ∈ gone ∨ ns' n) :
    (gone.foldl FdTable.close t).Within file ns' := by
  intro entry hentry hfile
  obtain ⟨hentry, hgone⟩ := mem_closeAll hentry
  obtain ⟨hn, hcloses⟩ := h entry hentry hfile
  exact ⟨(hns _ hn).resolve_left hgone, hcloses⟩

/-- To say that more is closed changes nothing here. -/
theorem Within.closeOnExec {t' : FdTable} (h : t.Within file ns)
    (hset : t.setCloseOnExec n true = .ok t') : t'.Within file ns := by
  unfold FdTable.setCloseOnExec at hset
  split at hset
  · cases hset
  · cases hset
    intro entry hentry hfile
    obtain ⟨⟨k, e⟩, hold, rfl⟩ := List.mem_map.mp hentry
    have hold' := h (k, e) hold
    by_cases hk : k = n
    · simp only [if_pos hk] at hfile ⊢
      exact ⟨(hold' hfile).1, trivial⟩
    · simp only [if_neg hk] at hfile ⊢
      exact hold' hfile

theorem Single.get?_of_mem (h : t.Single) (hmem : (n, d) ∈ t) : t.get? n = some d := by
  induction t with
  | nil => cases hmem
  | cons entry t ih =>
    obtain ⟨hnew, hrest⟩ := List.nodup_cons.mp h
    rcases List.mem_cons.mp hmem with rfl | hmem
    · exact get?_cons_self
    · have hne : entry.1 ≠ n := fun hsame =>
        hnew (hsame ▸ List.mem_map_of_mem (f := Prod.fst) hmem)
      rw [show entry = (entry.1, entry.2) from rfl, get?_cons_ne hne]
      exact ih hrest hmem

end FdTable

/-- A child gets nothing that its spawner would close, but for the ends of its channel. -/
theorem Handover.within_of_run {passing : FdPassing} {ends : ChildEnds} {status : Nat}
    {t t' : FdTable} {file : OpenFile} {ns : Nat → Prop} {d e report : Descriptor}
    (hsingle : t.Single) (hne : ends.receive ≠ ends.send) (hreceive : t.get? ends.receive = some d)
    (hsend : t.get? ends.send = some e) (hstatus : t.get? status = some report)
    (hrun : run passing ends status t = .ok t') (h : t.Within file ns) (hd : d.file ≠ file)
    (he : e.file ≠ file) : t'.Within file fun _ => False := by
  obtain ⟨t₁, hprepare, hgot, hgot', hmoves⟩ :=
    prepare_of_open passing hne hreceive hsend hstatus
  obtain rfl : t₁.afterExec = t' := by
    unfold run at hrun
    rw [hprepare] at hrun
    exact Except.ok.inj hrun
  have hsingle' := hmoves.single hsingle
  intro entry hentry hfile
  have hget := FdTable.Single.get?_of_mem
    (hsingle'.sublist (List.filter_sublist.map _) : t₁.afterExec.Single) hentry
  rw [FdTable.get?_afterExec hsingle'] at hget
  by_cases hplaced : entry.1 ∈ [(placed passing ends).receive, (placed passing ends).send]
  · -- Where its channel is placed it has the ends of that.
    obtain ⟨hget, -⟩ := Option.filter_eq_some_iff.mp hget
    simp only [List.mem_cons, List.not_mem_nil, or_false] at hplaced
    rcases hplaced with hn | hn
    · rw [hn, hgot] at hget
      rw [← Option.some.inj hget] at hfile
      exact absurd hfile hd
    · rw [hn, hgot'] at hget
      rw [← Option.some.inj hget] at hfile
      exact absurd hfile he
  · have hold := hmoves.others _ hplaced
    unfold FdTable.survivor at hold
    rw [hold] at hget
    obtain ⟨hget, hstays⟩ := Option.filter_eq_some_iff.mp hget
    obtain ⟨old, hfind, heq⟩ := Option.map_eq_some_iff.mp (FdTable.get?_eq t _ ▸ hget)
    have hcloses := (h old (List.mem_of_find?_eq_some hfind) (heq ▸ hfile)).2
    rw [heq] at hcloses
    rw [hcloses] at hstays
    cases hstays

namespace Machine

variable {m m' m₁ : Machine} {file : OpenFile} {who who' : Nat → Nat → Prop} {pid : Nat} {p : Proc}
  {gone : List Nat} {options : SpawnOptions}

/-! ## Machines -/

/-- A file is open in each process under these numbers at most, and closed when that runs another
program. -/
def Within (m : Machine) (file : OpenFile) (who : Nat → Nat → Prop) : Prop :=
  ∀ p ∈ m.procs, p.fds.Within file (who p.pid)

/-- Whatever is open, it was open in that process before, and under that number. -/
def NoneGains (m m' : Machine) : Prop := ∀ file who, m.Within file who → m'.Within file who

theorem noneGains_refl (m : Machine) : m.NoneGains m := fun _ _ h => h

theorem NoneGains.trans (h : m.NoneGains m₁) (h' : m₁.NoneGains m') : m.NoneGains m' :=
  fun file who hwithin => h' file who (h file who hwithin)

theorem Within.mono (h : m.Within file who) (hwho : ∀ q n, who q n → who' q n) :
    m.Within file who' :=
  fun p hp => (h p hp).mono (hwho p.pid)

/-- A file that nobody has is not open. -/
theorem Within.isHeld (h : m.Within file who) (hwho : ∀ q n, ¬who q n) : m.isHeld file = false := by
  rw [← Bool.not_eq_true]
  intro hheld
  obtain ⟨p, hp, hholds⟩ := List.any_eq_true.mp hheld
  obtain ⟨entry, hentry, hfile⟩ := List.any_eq_true.mp hholds
  exact hwho _ _ (h p hp entry hentry (by simpa using hfile)).1

theorem within_of_isHeld (h : m.isHeld file = false) (who : Nat → Nat → Prop) :
    m.Within file who := by
  intro p hp entry hentry hfile
  have hheld : m.isHeld file = true :=
    List.any_eq_true.mpr ⟨p, hp, List.any_eq_true.mpr ⟨entry, hentry, by simpa using hfile⟩⟩
  rw [h] at hheld
  cases hheld

theorem Within.fdsOf (h : m.Within file who) (pid : Nat) :
    (m.fdsOf pid).Within file (who pid) := by
  cases hp : m.proc? pid with
  | none =>
    unfold Machine.fdsOf
    rw [hp]
    exact FdTable.within_nil _ _
  | some p =>
    rw [fdsOf_eq hp, ← pid_of_proc? hp]
    exact h p (List.mem_of_find?_eq_some hp)

/-! ## Changes of one process -/

theorem Within.modify {f : Proc → Proc} (h : m.Within file who) (hf : ∀ p, (f p).pid = p.pid)
    (hwho : ∀ q n, q ≠ pid → who q n → who' q n)
    (hfds : ∀ p, p.fds.Within file (who pid) → (f p).fds.Within file (who' pid)) :
    (m.modify pid f).Within file who' := by
  intro p hp
  obtain ⟨old, hold, rfl⟩ := List.mem_map.mp hp
  have hwithin := h old hold
  by_cases hpid : old.pid = pid
  · rw [if_pos hpid, hf, hpid]
    rw [hpid] at hwithin
    exact hfds old hwithin
  · rw [if_neg hpid]
    exact hwithin.mono fun n => hwho _ n hpid

theorem noneGains_modify {f : Proc → Proc} (hf : ∀ p, (f p).pid = p.pid)
    (hfds : ∀ p file ns, p.fds.Within file ns → (f p).fds.Within file ns) :
    m.NoneGains (m.modify pid f) := fun _ _ h =>
  h.modify hf (fun _ _ _ hn => hn) fun p hp => hfds p _ _ hp

theorem noneGains_setRole (m : Machine) (pid : Nat) (r : RoleRun) :
    m.NoneGains (m.setRole pid r) :=
  noneGains_modify (fun _ => rfl) fun _ _ _ h => h

theorem Within.closeFds (h : m.Within file who)
    (hwho : ∀ q n, who q n → (q = pid ∧ n ∈ gone) ∨ who' q n) :
    (m.closeFds pid gone).Within file who' := by
  refine h.modify (fun _ => rfl) ?_ fun p hp => hp.closeAll ?_
  · intro q n hne hn
    exact (hwho q n hn).resolve_left fun hq => hne hq.1
  · intro n hn
    exact (hwho pid n hn).imp And.right id

theorem noneGains_closeFds (m : Machine) (pid : Nat) (gone : List Nat) :
    m.NoneGains (m.closeFds pid gone) := fun _ _ h => h.closeFds fun _ _ hn => .inr hn

/-! ## Ends and signals -/

theorem noneGains_endOne (m : Machine) (pid : Nat) (state : ExitState) :
    m.NoneGains (m.endOne pid state) := by
  refine noneGains_modify (pid_endOne state) ?_
  intro p file ns h
  split
  · exact FdTable.within_nil _ _
  · exact h

theorem noneGains_endAll (state : ExitState) (depth : Nat) (pids : List Nat) (m : Machine) :
    m.NoneGains (endAll state depth pids m) := by
  induction depth generalizing state pids m with
  | zero => exact noneGains_refl m
  | succ depth ih =>
    simp only [endAll]
    induction pids generalizing m with
    | nil => exact noneGains_refl m
    | cons pid pids ihp =>
      rw [List.foldl_cons]
      refine NoneGains.trans ?_ (ihp _)
      split
      · exact (noneGains_endOne m pid state).trans (ih _ _ _)
      · exact noneGains_refl m

theorem noneGains_endProc (m : Machine) (pid : Nat) (state : ExitState) :
    m.NoneGains (m.endProc pid state) := noneGains_endAll state _ _ m

theorem noneGains_takeSignal (m : Machine) (pid : Nat) (s : Signal) :
    m.NoneGains (m.takeSignal pid s) := by
  unfold takeSignal
  split
  · exact noneGains_refl m
  · split
    · exact noneGains_modify (fun _ => rfl) fun _ _ _ h => h
    · split
      · exact noneGains_refl m
      · split
        · exact noneGains_refl m
        · split
          · exact noneGains_endProc m pid _
          · exact noneGains_modify (fun _ => rfl) fun _ _ _ h => h
          · exact noneGains_refl m
          · exact noneGains_refl m

theorem noneGains_takeSignals (signals : List Signal) (m : Machine) (pid : Nat) :
    m.NoneGains (signals.foldl (fun m s => m.takeSignal pid s) m) := by
  induction signals generalizing m with
  | nil => exact noneGains_refl m
  | cons s signals ih =>
    rw [List.foldl_cons]
    exact (noneGains_takeSignal m pid s).trans (ih _)

theorem noneGains_signal (m : Machine) (pid : Nat) (s : Signal) :
    m.NoneGains (m.signal pid s) := by
  have hmodify {f : Proc → Proc} (hf : ∀ p, (f p).pid = p.pid) (hfds : ∀ p, (f p).fds = p.fds) :
      m.NoneGains (m.modify pid f) := noneGains_modify hf fun p _ _ h => (hfds p).symm ▸ h
  unfold signal
  split
  · exact noneGains_refl m
  · split
    · exact noneGains_refl m
    · split
      · exact noneGains_endProc m pid _
      · exact hmodify (fun _ => rfl) fun _ => rfl
      · refine NoneGains.trans ?_ (noneGains_takeSignals _ _ _)
        exact hmodify (fun _ => rfl) fun _ => rfl
      · split
        · exact hmodify (fun _ => rfl) fun _ => rfl
        · exact noneGains_takeSignal m pid _

/-! ## Copies and pipes -/

/-- A copy is of what the donor had under that number. -/
theorem Within.fetch {donor copy : Nat} {number : Int} (h : m.Within file who)
    (hfetch : m.fetch pid donor number = (.ok copy, m')) (hwho : ∀ q n, who q n → who' q n)
    (hcopy : ∀ n : Nat, n = number → who donor n → who' pid copy) : m'.Within file who' := by
  unfold Machine.fetch at hfetch
  split at hfetch
  · cases hfetch
  · split at hfetch
    · cases hfetch
    · rename_i d hd
      cases hfetch
      refine h.modify (fun _ => rfl) (fun q n _ => hwho q n) fun _ _ => ?_
      refine (h.fdsOf pid).set (hwho pid) ?_
      intro hfile
      refine ⟨?_, rfl⟩
      obtain ⟨entry, hfind, rfl⟩ := Option.map_eq_some_iff.mp hd
      exact hcopy entry.1 (by simpa using List.find?_some hfind)
        ((h.fdsOf donor) entry (List.mem_of_find?_eq_some hfind) hfile).1

theorem Within.openPipe {reader writer : Nat} (h : m.Within file who)
    (hopen : m.openPipe pid = (reader, writer, m')) (hwho : ∀ q n, who q n → who' q n)
    (hreader : file = .readEnd m.pipes.length → who' pid reader)
    (hwriter : file = .writeEnd m.pipes.length → who' pid writer) : m'.Within file who' := by
  cases hopen
  have hpipe : (m.addPipe .empty).2.Within file who := h
  refine hpipe.modify (fun _ => rfl) (fun q n _ => hwho q n) fun _ _ => ?_
  exact ((hpipe.fdsOf pid).set (hwho pid) fun hfile => ⟨hreader hfile.symm, rfl⟩).set
    (fun _ hn => hn) fun hfile => ⟨hwriter hfile.symm, rfl⟩

theorem Within.addProc {make : Nat → Proc} (h : m.Within file who)
    (hmake : (make m.nextPid).fds.Within file fun _ => False) :
    (m.addProc make).2.Within file who := by
  intro p hp
  rcases List.mem_append.mp hp with hp | hp
  · exact h p hp
  · rw [List.mem_singleton.mp hp]
    exact hmake.mono fun _ => False.elim

/-! ## Children -/

/-- Starting a child gives nobody a file, unless that is an end of its channel or of a pipe that is
opened for the attempt. -/
theorem Within.launch {ends : ChildEnds} {f g : OpenFile} {owned : List (Nat × OpenFile)}
    {result : Except ProcessError Nat} (h : m.Within file who) (hp : m.proc? pid = some p)
    (hsingle : p.fds.Single)
    (howned : (m.fdsOf pid).Holds (owned ++ [(ends.receive, f), (ends.send, g)])) (hf : f ≠ file)
    (hg : g ≠ file) (hnew : ∀ i < 2, ¬file.IsOf (m.pipes.length + i))
    (hlaunch : m.launch pid options ends = (result, m')) : m'.Within file who := by
  obtain ⟨syncRead, syncWrite, m₁, statusRead, statusWrite, m₂, hfirst, hsecond, hresult⟩ :=
    launch_eq hlaunch
  have hopens₁ := opens_openPipe hfirst
  have hopens₂ := opens_openPipe hsecond
  obtain ⟨hrewired₁, hlength₁⟩ := rewired_openPipe howned hfirst
  obtain ⟨t₁, ht₁, hsingle₁⟩ := hopens₁.self p hp
  have howned₁ := (hrewired₁.holds hp).1
  have howned₂ := ((rewired_openPipe howned₁ hsecond).1.holds ht₁).1
  obtain ⟨t₂, ht₂, hsingle₂⟩ := hopens₂.self _ ht₁
  have hwithin₁ : m₁.Within file who := h.openPipe hfirst (fun _ _ hn => hn)
    (fun hfile => absurd (.inl hfile) (hnew 0 (by decide)))
    fun hfile => absurd (.inr hfile) (hnew 0 (by decide))
  have hwithin₂ : m₂.Within file who := by
    refine hwithin₁.openPipe hsecond (fun _ _ hn => hn) ?_ ?_
    · intro hfile
      rw [hlength₁] at hfile
      exact absurd (.inl hfile) (hnew 1 (by decide))
    · intro hfile
      rw [hlength₁] at hfile
      exact absurd (.inr hfile) (hnew 1 (by decide))
  have hclosed := noneGains_closeFds m₂ pid
    [syncRead, syncWrite, statusRead, statusWrite, ends.receive, ends.send] file who hwithin₂
  rcases hresult with ⟨-, rfl⟩ | ⟨fds, hrun, -, rfl⟩
  · exact hclosed
  · refine hclosed.addProc ?_
    rw [fdsOf_eq ht₂] at hrun howned₂
    obtain ⟨d, hd, hdfile⟩ := Option.map_eq_some_iff.mp (howned₂.2 ends.receive f (by simp))
    obtain ⟨e, he, hefile⟩ := Option.map_eq_some_iff.mp (howned₂.2 ends.send g (by simp))
    obtain ⟨report, hreport, -⟩ := Option.map_eq_some_iff.mp
      (howned₂.2 statusWrite (.writeEnd m₁.pipes.length) (by simp))
    have hne : ends.receive ≠ ends.send := by
      have hnodup := howned.1
      simp only [List.map_append, List.nodup_append] at hnodup
      simpa using hnodup.2.1
    have hwithin := hwithin₂.fdsOf pid
    rw [fdsOf_eq ht₂] at hwithin
    exact Handover.within_of_run (hsingle₂ (hsingle₁ hsingle)) hne hd he hreport hrun hwithin
      (hdfile ▸ hf) (hefile ▸ hg)

theorem Within.openEnds {ends : NewChannel} (h : m.Within file who)
    (hopen : m.openEnds pid = (ends, m')) (hwho : ∀ q n, who q n → who' q n)
    (hreceive : file = .readEnd m.pipes.length → who' pid ends.receive)
    (hsend : file = .writeEnd (m.pipes.length + 1) → who' pid ends.send)
    (hchild : file ≠ .readEnd (m.pipes.length + 1) ∧ file ≠ .writeEnd m.pipes.length) :
    m'.Within file who' := by
  rcases hfirst : m.openPipe pid with ⟨receive, childSend, m₁⟩
  rcases hsecond : m₁.openPipe pid with ⟨childReceive, send, m₂⟩
  unfold Machine.openEnds at hopen
  rw [hfirst] at hopen
  simp only [hsecond] at hopen
  cases hopen
  have hlength : m₁.pipes.length = m.pipes.length + 1 := by
    rw [(opens_openPipe hfirst).rest]
    simp
  refine (h.openPipe hfirst hwho hreceive fun hfile => absurd hfile hchild.2).openPipe hsecond
    (fun _ _ hn => hn) ?_ ?_
  · intro hfile
    rw [hlength] at hfile
    exact absurd hfile hchild.1
  · intro hfile
    rw [hlength] at hfile
    exact hsend hfile

/-- The child gets its own ends of the channel. -/
theorem Within.launch_ends {ends : NewChannel} {result : Except ProcessError Nat}
    (hopen : m.openEnds pid = (ends, m₁)) (h : m₁.Within file who) (hp : m.proc? pid = some p)
    (hsingle : p.fds.Single)
    (hchild : file ≠ .readEnd (m.pipes.length + 1) ∧ file ≠ .writeEnd m.pipes.length)
    (hnew : ∀ i < 2, ¬file.IsOf (m.pipes.length + 2 + i))
    (hlaunch : m₁.launch pid options ends.child = (result, m')) : m'.Within file who := by
  obtain ⟨hrewired, hlength⟩ := rewired_openEnds hp (FdTable.holds_nil _) hopen
  obtain ⟨t, ht, hsingle'⟩ := (opens_openEnds hopen).self p hp
  rw [← hlength] at hnew
  exact h.launch ht (hsingle' hsingle) (hrewired.holds hp).1 hchild.1.symm hchild.2.symm hnew
    hlaunch

/-- To start a child gives nobody anything, but for the ends of the pipes that are opened for it. -/
theorem Within.spawn {result : Except ProcessError (Handle × NewChannel)} (h : m.Within file who)
    (hp : m.proc? pid = some p) (hsingle : p.fds.Single)
    (hnew : ∀ i < 4, ¬file.IsOf (m.pipes.length + i))
    (hspawn : m.spawn pid options = (result, m')) : m'.Within file who := by
  have hother (i : Nat) (hi : i < 4) : file ≠ .readEnd (m.pipes.length + i) ∧
      file ≠ .writeEnd (m.pipes.length + i) := not_or.mp (hnew i hi)
  have hchild := And.intro (hother 1 (by decide)).1 (hother 0 (by decide)).2
  obtain ⟨ends, m₁, hopen, hresult⟩ := spawn_eq hspawn
  have hopened := h.openEnds hopen (fun _ _ hn => hn)
    (fun hfile => absurd hfile (hother 0 (by decide)).1)
    (fun hfile => absurd hfile (hother 1 (by decide)).2) hchild
  have hstatus : ∀ i < 2, ¬file.IsOf (m.pipes.length + 2 + i) := by
    intro i hi
    rw [Nat.add_assoc]
    exact hnew (2 + i) (by omega)
  rcases hresult with ⟨child, hlaunch, -⟩ | ⟨e, closed, hlaunch, -, rfl⟩
  · exact hopened.launch_ends hopen hp hsingle hchild hstatus hlaunch
  · exact noneGains_closeFds _ _ _ _ _
      (hopened.launch_ends hopen hp hsingle hchild hstatus hlaunch)

/-- Only the spawner has the end that it writes to its child over, under the number it is told. -/
theorem Within.spawn_own {job : Handle} {ends : NewChannel}
    (h : m.Within (.writeEnd (m.pipes.length + 1)) fun _ _ => False) (hp : m.proc? pid = some p)
    (hsingle : p.fds.Single) (hspawn : m.spawn pid options = (.ok (job, ends), m')) :
    m'.Within (.writeEnd (m.pipes.length + 1)) fun q n => q = pid ∧ n = ends.send := by
  obtain ⟨ends', m₁, hopen, ⟨child, hlaunch, heq⟩ | ⟨e, closed, -, heq, -⟩⟩ := spawn_eq hspawn
  · cases heq
    have hchild : OpenFile.writeEnd (m.pipes.length + 1) ≠ .readEnd (m.pipes.length + 1) ∧
        OpenFile.writeEnd (m.pipes.length + 1) ≠ .writeEnd m.pipes.length := by simp
    have hopened : m₁.Within (.writeEnd (m.pipes.length + 1))
        fun q n => q = pid ∧ n = ends.send :=
      h.openEnds hopen (fun _ _ => False.elim) nofun (fun _ => ⟨rfl, rfl⟩) hchild
    refine hopened.launch_ends hopen hp hsingle hchild ?_ hlaunch
    intro i _ hof
    rcases hof with hfile | hfile
    · cases hfile
    · have := OpenFile.writeEnd.inj hfile
      omega
  · cases heq

end Machine

end ProcessTree
