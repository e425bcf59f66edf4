-- What a child has once its program runs: its two ends of the channel, under
-- the numbers that its arguments name, and of all other descriptors only those
-- that were to stay open, wherever in the table the ends and the pipes lay.
import ProcessTree.Proofs.Invocation
import ProcessTree.Proofs.Process.Descriptors

namespace ProcessTree.FdTable

variable {t t' : FdTable} {n k fd least : Nat} {d : Descriptor}

/-! ## Tables -/

/-- Every number is entered once. -/
def Single (t : FdTable) : Prop := (t.map Prod.fst).Nodup

theorem Single.close (h : t.Single) (n : Nat) : (t.close n).Single :=
  h.sublist (List.filter_sublist.map _)

theorem single_standard : FdTable.standard.Single := by
  unfold Single
  decide

theorem Single.closeAll (h : t.Single) (gone : List Nat) : (gone.foldl FdTable.close t).Single := by
  induction gone generalizing t with
  | nil => exact h
  | cons n gone ih => exact ih (h.close n)

theorem Single.set (h : t.Single) (n : Nat) (d : Descriptor) : (t.set n d).Single := by
  unfold Single FdTable.set
  rw [List.map_append, List.nodup_append]
  refine ⟨h.close n, List.nodup_singleton n, ?_⟩
  rintro k hk _ hn rfl
  obtain ⟨entry, hentry, rfl⟩ := List.mem_map.mp hk
  have hne := (List.mem_filter.mp hentry).2
  simp_all

theorem Single.setCloseOnExec {b : Bool} (h : t.Single) (hset : t.setCloseOnExec fd b = .ok t') :
    t'.Single := by
  unfold FdTable.setCloseOnExec at hset
  split at hset
  · cases hset
  · cases hset
    unfold Single
    rw [List.map_map]
    exact h

theorem get?_cons_self : get? ((n, d) :: t) n = some d := by
  simp [get?_eq]

theorem get?_cons_ne (h : k ≠ n) : get? ((k, d) :: t) n = get? t n := by
  simp [get?_eq, h]

theorem get?_of_notMem (h : n ∉ t.map Prod.fst) : t.get? n = none := by
  rw [get?_eq, Option.map_eq_none_iff, List.find?_eq_none]
  intro entry hentry hn
  obtain rfl : entry.1 = n := by simpa using hn
  exact h (List.mem_map_of_mem hentry)

theorem afterExec_cons (k : Nat) (d : Descriptor) (t : FdTable) :
    afterExec ((k, d) :: t) = if d.closeOnExec then t.afterExec else (k, d) :: t.afterExec := by
  cases hclose : d.closeOnExec <;> simp [afterExec, hclose]

/-- A change of program leaves a number with what it stood for, unless that was to be closed. -/
theorem get?_afterExec (h : t.Single) (n : Nat) :
    t.afterExec.get? n = (t.get? n).filter (!·.closeOnExec) := by
  induction t with
  | nil => rfl
  | cons entry t ih =>
    obtain ⟨k, e⟩ := entry
    obtain ⟨hnew, hrest⟩ := List.nodup_cons.mp h
    replace ih := ih hrest
    rw [afterExec_cons]
    by_cases hk : k = n
    · subst hk
      rw [get?_cons_self]
      cases hclose : e.closeOnExec with
      | true =>
        -- The number is entered once, so nothing behind the entry takes its place.
        rw [if_pos rfl, ih, get?_of_notMem hnew]
        simp [Option.filter, hclose]
      | false =>
        rw [if_neg (by decide), get?_cons_self]
        simp [Option.filter, hclose]
    · rw [get?_cons_ne hk]
      cases hclose : e.closeOnExec with
      | true => rw [if_pos rfl, ih]
      | false => rw [if_neg (by decide), get?_cons_ne hk, ih]

/-! ## Steps -/

/-- What a number will stand for once another program is run. -/
def survivor (t : FdTable) (n : Nat) : Option Descriptor := (t.get? n).filter (!·.closeOnExec)

/-- A change of the table that another program sees at these numbers only. -/
structure Moves (moved : List Nat) (t t' : FdTable) : Prop where
  single : t.Single → t'.Single
  others : ∀ n ∉ moved, t'.survivor n = t.survivor n

theorem Moves.trans {moved moved' : List Nat} {t'' : FdTable} (h : Moves moved t t')
    (h' : Moves moved' t' t'') : Moves (moved ++ moved') t t'' := by
  refine ⟨h'.single ∘ h.single, ?_⟩
  intro n hn
  rw [List.mem_append, not_or] at hn
  exact (h'.others n hn.2).trans (h.others n hn.1)

theorem moves_of_get? {moved : List Nat} (hsingle : t.Single → t'.Single)
    (h : ∀ n ∉ moved, t'.get? n = t.get? n) : Moves moved t t' := by
  refine ⟨hsingle, ?_⟩
  intro n hn
  unfold survivor
  rw [h n hn]

/-- A copy lies under a number that was free, and another program does not see it. -/
theorem duplicate_of_open (h : t.get? fd = some d) (least : Nat) :
    ∃ copy t', t.duplicate fd least = .ok (copy, t') ∧ least ≤ copy ∧
      t'.get? copy = some ⟨d.file, true⟩ ∧
      (∀ n : Nat, t.get? n ≠ none → n ≠ copy ∧ t'.get? n = t.get? n) ∧ Moves [] t t' := by
  refine ⟨_, _, by unfold duplicate; rw [h]; rfl, le_lowestFree t least, get?_install_self, ?_, ?_⟩
  · intro n hn
    obtain ⟨e, he⟩ := Option.ne_none_iff_exists'.mp hn
    exact ⟨ne_lowestFree he, by rw [get?_install he, he]⟩
  · refine ⟨fun hsingle => hsingle.set _ _, ?_⟩
    intro n _
    unfold survivor
    by_cases hn : n = t.lowestFree least
    · rw [hn, get?_of_isFree (isFree_lowestFree t least)]
      simp [install, get?_set_self, Option.filter]
    · simp [install, get?_set_ne hn]

theorem place_of_open (target : Nat) (h : t.get? fd = some d) (hne : fd ≠ target) :
    ∃ t', t.place fd target = .ok t' ∧ t'.get? target = some ⟨d.file, false⟩ ∧
      (∀ n : Nat, n ≠ target → t'.get? n = t.get? n) ∧ Moves [target] t t' := by
  have hrest (n : Nat) (hn : n ≠ target) : (t.set target ⟨d.file, false⟩).get? n = t.get? n :=
    get?_set_ne hn
  refine ⟨t.set target ⟨d.file, false⟩, ?_, get?_set_self, hrest, ?_⟩
  · simp [place, h, hne]
  · apply moves_of_get? fun hsingle => hsingle.set _ _
    intro n hn
    exact hrest n (List.ne_of_not_mem_cons hn)

theorem keepOpen_of_open (h : t.get? fd = some d) :
    ∃ t', t.setCloseOnExec fd false = .ok t' ∧ t'.get? fd = some ⟨d.file, false⟩ ∧
      (∀ n : Nat, n ≠ fd → t'.get? n = t.get? n) ∧ Moves [fd] t t' := by
  have hused : t.isFree fd = false := by
    by_contra hfree
    rw [get?_of_isFree (by simpa using hfree)] at h
    cases h
  obtain ⟨t', hset⟩ : ∃ t', t.setCloseOnExec fd false = .ok t' := by
    unfold setCloseOnExec
    rw [if_neg (by simp [hused])]
    exact ⟨_, rfl⟩
  have hrest (n : Nat) (hn : n ≠ fd) : t'.get? n = t.get? n := by
    cases hold : t.get? n with
    | some e => rw [get?_setCloseOnExec hset hold, if_neg hn]
    | none =>
      unfold setCloseOnExec at hset
      rw [if_neg (by simp [hused])] at hset
      cases hset
      rw [get?_eq, Option.map_eq_none_iff, List.find?_eq_none] at hold ⊢
      intro entry hentry
      obtain ⟨entry', hentry', rfl⟩ := List.mem_map.mp hentry
      exact hold entry' hentry'
  refine ⟨t', hset, ?_, hrest, ?_⟩
  · rw [get?_setCloseOnExec hset h, if_pos rfl]
  · apply moves_of_get? fun hsingle => hsingle.setCloseOnExec hset
    intro n hn
    exact hrest n (List.ne_of_not_mem_cons hn)

end ProcessTree.FdTable

namespace ProcessTree.Handover

open ProcessTree.FdTable

variable {t : FdTable} {ends : ChildEnds} {d e : Descriptor}

/-! ## Where the ends lie -/

/-- The numbers of the ends once the program runs. -/
def placed (passing : FdPassing) (ends : ChildEnds) : ChildEnds :=
  match passing with
  | .fixed => ⟨3, 4⟩
  | .numbered => ends

/-- The ends are moved away before anything is moved to where they may have been. -/
theorem toFixed_of_open (hreceive : t.get? ends.receive = some d)
    (hsend : t.get? ends.send = some e) :
    ∃ t', toFixed t ends = .ok t' ∧ t'.get? (3 : Nat) = some ⟨d.file, false⟩ ∧
      t'.get? (4 : Nat) = some ⟨e.file, false⟩ ∧ Moves [3, 4] t t' := by
  obtain ⟨receive, t₁, hcopy, hle, hgot, hkept, hmoves⟩ := duplicate_of_open hreceive parking
  have hsend₁ : t₁.get? ends.send = some e := by
    rw [(hkept ends.send (by simp [hsend])).2, hsend]
  obtain ⟨send, t₂, hcopy', hle', hgot', hkept', hmoves'⟩ := duplicate_of_open hsend₁ parking
  have hreceive₂ : t₂.get? receive = some ⟨d.file, true⟩ := by
    rw [(hkept' receive (by simp [hgot])).2, hgot]
  have hparking : parking = 10 := rfl
  obtain ⟨t₃, hplace, hthree, hrest, hmoves₃⟩ := place_of_open 3 hreceive₂ (by omega)
  have hsend₃ : t₃.get? send = some ⟨e.file, true⟩ := by
    rw [hrest send (by omega), hgot']
  obtain ⟨t₄, hplace', hfour, hrest', hmoves₄⟩ := place_of_open 4 hsend₃ (by omega)
  refine ⟨t₄, ?_, ?_, hfour, ((hmoves.trans hmoves').trans hmoves₃).trans hmoves₄⟩
  · simp [toFixed, hcopy, hcopy', hplace, hplace', bind, Except.bind]
  · rw [hrest' 3 (by decide), hthree]

theorem toNumbered_of_open (hne : ends.receive ≠ ends.send)
    (hreceive : t.get? ends.receive = some d) (hsend : t.get? ends.send = some e) :
    ∃ t', toNumbered t ends = .ok t' ∧ t'.get? ends.receive = some ⟨d.file, false⟩ ∧
      t'.get? ends.send = some ⟨e.file, false⟩ ∧ Moves [ends.receive, ends.send] t t' := by
  obtain ⟨t₁, hset, hgot, hrest, hmoves⟩ := keepOpen_of_open hreceive
  rw [← hrest ends.send hne.symm] at hsend
  obtain ⟨t₂, hset', hgot', hrest', hmoves'⟩ := keepOpen_of_open hsend
  refine ⟨t₂, ?_, ?_, hgot', hmoves.trans hmoves'⟩
  · simp [toNumbered, hset, hset', bind, Except.bind]
  · rw [hrest' ends.receive hne, hgot]

theorem prepare_of_open {status : Nat} {report : Descriptor} (passing : FdPassing)
    (hne : ends.receive ≠ ends.send) (hreceive : t.get? ends.receive = some d)
    (hsend : t.get? ends.send = some e) (hstatus : t.get? status = some report) :
    ∃ t', prepare passing ends status t = .ok t' ∧
      t'.get? (placed passing ends).receive = some ⟨d.file, false⟩ ∧
      t'.get? (placed passing ends).send = some ⟨e.file, false⟩ ∧
      Moves [(placed passing ends).receive, (placed passing ends).send] t t' := by
  obtain ⟨parked, t₁, hpark, -, -, hkept, hmoves⟩ := duplicate_of_open hstatus parking
  rw [← (hkept ends.receive (by simp [hreceive])).2] at hreceive
  rw [← (hkept ends.send (by simp [hsend])).2] at hsend
  unfold prepare
  rw [hpark]
  cases passing with
  | fixed =>
    obtain ⟨t', hrun, hthree, hfour, hmoves'⟩ := toFixed_of_open hreceive hsend
    exact ⟨t', hrun, hthree, hfour, hmoves.trans hmoves'⟩
  | numbered =>
    obtain ⟨t', hrun, hgot, hgot', hmoves'⟩ := toNumbered_of_open hne hreceive hsend
    exact ⟨t', hrun, hgot, hgot', hmoves.trans hmoves'⟩

/-! ## What a role finds -/

/-- What a child has from its spawner under different numbers, all to be closed when a program
runs: the ends of its channel, the pipe that it waits on and the one that reports a failure. -/
structure Given (t : FdTable) (ends : ChildEnds) (sync status : Nat) : Prop where
  single : t.Single
  apart : [ends.receive, ends.send, sync, status].Nodup
  closing : ∀ n ∈ [ends.receive, ends.send, sync, status], ∃ file, t.get? n = some ⟨file, true⟩
  bounded : ends.receive ≤ Invocation.maxFd ∧ ends.send ≤ Invocation.maxFd

/-- Every number of a file is to be closed when a program runs. -/
def Withheld (t : FdTable) (file : OpenFile) : Prop :=
  ∀ (n : Nat) d, t.get? n = some d → d.file = file → d.closeOnExec = true

/-- What a program finds that looks for its channel under `fds`, in the table `t'` that was `t`
before it ran. -/
structure Arrived (t t' : FdTable) (ends : ChildEnds) (fds : ChannelFds) : Prop where
  read : t'.file? fds.read.toInt = t.file? ends.receive
  write : t'.file? fds.write.toInt = t.file? ends.send
  /-- Any other number is as it was, unless it was to be closed. -/
  others : ∀ n : Nat, (n : Int) ≠ fds.read.toInt → (n : Int) ≠ fds.write.toInt →
    t'.get? n = t.survivor n
  /-- So a withheld file is there as an end of the channel, and only once, or not at all. -/
  withheld : ∀ file, Withheld t file → ∀ n : Nat, t'.file? n = some file →
    (n = fds.read.toInt ∧ t.file? ends.receive = some file) ∨
      (n = fds.write.toInt ∧ t.file? ends.send = some file)

theorem Arrived.of_others {t' : FdTable} {fds : ChannelFds}
    (hread : t'.file? fds.read.toInt = t.file? ends.receive)
    (hwrite : t'.file? fds.write.toInt = t.file? ends.send)
    (hothers : ∀ n : Nat, (n : Int) ≠ fds.read.toInt → (n : Int) ≠ fds.write.toInt →
      t'.get? n = t.survivor n) : Arrived t t' ends fds := by
  refine ⟨hread, hwrite, hothers, ?_⟩
  intro file hwithheld n hfile
  by_cases hn : (n : Int) = fds.read.toInt
  · rw [hn, hread] at hfile
    exact Or.inl ⟨hn, hfile⟩
  by_cases hn' : (n : Int) = fds.write.toInt
  · rw [hn', hwrite] at hfile
    exact Or.inr ⟨hn', hfile⟩
  -- Under any other number only what was to stay open is left.
  unfold FdTable.file? at hfile
  rw [hothers n hn hn'] at hfile
  obtain ⟨d, hd, rfl⟩ := Option.map_eq_some_iff.mp hfile
  obtain ⟨hold, hstays⟩ := Option.filter_eq_some_iff.mp hd
  rw [hwithheld n d hold rfl] at hstays
  cases hstays

/-- The arguments of a child name the numbers that its ends are placed under. -/
theorem ofArgs_placed {role : Role} (hrole : role ≠ .root) (passing : FdPassing)
    (program : OsText) (hne : ends.receive ≠ ends.send)
    (hbounded : ends.receive ≤ Invocation.maxFd ∧ ends.send ≤ Invocation.maxFd) :
    Invocation.ofArgs (program :: (role.reentryArgs passing (told ends)).map .ofText) =
      .ok (.reentry role (told (placed passing ends))) := by
  cases passing with
  | fixed => exact Invocation.ofArgs_fixed hrole program (told ends)
  | numbered =>
    unfold Invocation.maxFd at hbounded
    have hreceive : (told ends).read.toInt = ends.receive := Int32.toInt_ofNat_of_lt (by omega)
    have hsend : (told ends).write.toInt = ends.send := Int32.toInt_ofNat_of_lt (by omega)
    apply Invocation.ofArgs_numbered hrole program
    · omega
    · omega
    · intro hsame
      have hint := congrArg Int32.toInt hsame
      omega

/-- The numbers that a child is told are those that its ends are placed under. -/
theorem toInt_told_placed (passing : FdPassing)
    (hbounded : ends.receive ≤ Invocation.maxFd ∧ ends.send ≤ Invocation.maxFd) :
    (told (placed passing ends)).read.toInt = (placed passing ends).receive ∧
      (told (placed passing ends)).write.toInt = (placed passing ends).send := by
  have hplaced : (placed passing ends).receive ≤ Invocation.maxFd ∧
      (placed passing ends).send ≤ Invocation.maxFd := by
    cases passing with
    | fixed => exact (by decide : 3 ≤ Invocation.maxFd ∧ 4 ≤ Invocation.maxFd)
    | numbered => exact hbounded
  unfold Invocation.maxFd at hplaced
  exact ⟨Int32.toInt_ofNat_of_lt (by omega), Int32.toInt_ofNat_of_lt (by omega)⟩

/-- Wherever the ends lay, a program finds them under the numbers that they are placed under. -/
theorem arrived_of_open {status : Nat} {report : Descriptor} (passing : FdPassing)
    (hsingle : t.Single) (hne : ends.receive ≠ ends.send)
    (hbounded : ends.receive ≤ Invocation.maxFd ∧ ends.send ≤ Invocation.maxFd)
    (hreceive : t.get? ends.receive = some d) (hsend : t.get? ends.send = some e)
    (hstatus : t.get? status = some report) :
    ∃ t', run passing ends status t = .ok t' ∧ t'.Single ∧
      Arrived t t' ends (told (placed passing ends)) := by
  obtain ⟨t', hprepare, hgot, hgot', hmoves⟩ := prepare_of_open passing hne hreceive hsend hstatus
  obtain ⟨hread, hwrite⟩ := toInt_told_placed passing hbounded
  have hsingle' := hmoves.single hsingle
  have hleft (n : Nat) : t'.afterExec.get? n = t'.survivor n := get?_afterExec hsingle' n
  refine ⟨t'.afterExec, by unfold run; rw [hprepare]; rfl,
    hsingle'.sublist (List.filter_sublist.map _), Arrived.of_others ?_ ?_ ?_⟩
  · unfold FdTable.file?
    rw [hread, hleft, survivor, hgot, hreceive]
    rfl
  · unfold FdTable.file?
    rw [hwrite, hleft, survivor, hgot', hsend]
    rfl
  · intro n hn hn'
    rw [hread] at hn
    rw [hwrite] at hn'
    rw [hleft]
    apply hmoves.others
    simp only [List.mem_cons, List.not_mem_nil, or_false, not_or]
    omega

/-- A role finds both ends of its channel where its arguments say, and nothing else that was to be
closed, wherever the descriptors of its spawner lay. -/
theorem a_role_finds_its_channel_and_nothing_withheld {role : Role} (hrole : role ≠ .root)
    (passing : FdPassing) {sync status : Nat} (h : Given t ends sync status) (program : OsText) :
    ∃ t' fds, run passing ends status t = .ok t' ∧
      Invocation.ofArgs (program :: (role.reentryArgs passing (told ends)).map .ofText) =
        .ok (.reentry role fds) ∧
      Arrived t t' ends fds := by
  obtain ⟨f, hreceive⟩ := h.closing ends.receive (by simp)
  obtain ⟨g, hsend⟩ := h.closing ends.send (by simp)
  obtain ⟨_, hstatus⟩ := h.closing status (by simp)
  have hne : ends.receive ≠ ends.send := by
    have hapart := h.apart
    simp only [List.nodup_cons, List.mem_cons, not_or] at hapart
    exact hapart.1.1
  obtain ⟨t', hrun, -, harrived⟩ :=
    arrived_of_open passing h.single hne h.bounded hreceive hsend hstatus
  exact ⟨t', told (placed passing ends), hrun, ofArgs_placed hrole passing program hne h.bounded,
    harrived⟩

/-- A table whose ends lie the wrong way round under 3 and 4. -/
def crossed : FdTable :=
  [(0, ⟨.device, false⟩), (3, ⟨.writeEnd 1, true⟩), (4, ⟨.readEnd 2, true⟩),
    (5, ⟨.readEnd 3, true⟩), (6, ⟨.writeEnd 4, true⟩), (7, ⟨.readEnd 1, true⟩)]

theorem given_crossed : Given crossed ⟨4, 3⟩ 5 6 := by
  refine ⟨by unfold Single; decide, by decide, ?_, by decide⟩
  intro n hn
  simp only [List.mem_cons, List.not_mem_nil, or_false] at hn
  rcases hn with rfl | rfl | rfl | rfl
  · exact ⟨.readEnd 2, rfl⟩
  · exact ⟨.writeEnd 1, rfl⟩
  · exact ⟨.readEnd 3, rfl⟩
  · exact ⟨.writeEnd 4, rfl⟩

theorem a_worker_finds_its_crossed_ends :
    Role.worker ≠ .root ∧ Given crossed ⟨4, 3⟩ 5 6 ∧
      ∃ t' fds, run .fixed ⟨4, 3⟩ 6 crossed = .ok t' ∧
        Invocation.ofArgs
          (.ofText "tree" :: (Role.worker.reentryArgs .fixed (told ⟨4, 3⟩)).map .ofText) =
            .ok (.reentry .worker fds) ∧
        Arrived crossed t' ⟨4, 3⟩ fds :=
  ⟨by decide, given_crossed, a_role_finds_its_channel_and_nothing_withheld (by decide) .fixed
    given_crossed (.ofText "tree")⟩

end ProcessTree.Handover
