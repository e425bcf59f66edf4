-- What the numbers of a descriptor table stand for: a new number is one that was
-- free, and nothing that is opened or closed under other numbers changes what a
-- number stands for. A child has the ends of its channel once its program runs.
import Mathlib.Data.List.Nodup
import Mathlib.Data.List.Perm.Subperm
import ProcessTree.Spawn.Handover

namespace ProcessTree.FdTable

variable {t : FdTable} {n k least : Nat} {d : Descriptor}

/-- What a number stands for. -/
def file? (t : FdTable) (fd : Int) : Option OpenFile := (t.get? fd).map Descriptor.file

/-! ## Single numbers -/

theorem get?_eq (t : FdTable) (n : Nat) : t.get? n = (t.find? (·.1 == n)).map Prod.snd := by
  unfold get?
  congr 2
  funext entry
  rw [Bool.eq_iff_iff, beq_iff_eq, beq_iff_eq]
  omega

theorem get?_of_isFree (h : t.isFree n = true) : t.get? n = none := by
  rw [get?_eq, Option.map_eq_none_iff, List.find?_eq_none]
  intro entry hentry
  have hne := List.all_eq_true.mp h entry hentry
  simpa using hne

theorem get?_close_ne (h : k ≠ n) : (t.close n).get? k = t.get? k := by
  rw [get?_eq, get?_eq, close, List.find?_filter]
  congr 2
  funext entry
  by_cases hk : entry.1 = k
  · simp [hk, h]
  · simp [hk]

theorem get?_close_self : (t.close n).get? n = none := by
  apply get?_of_isFree
  simp [isFree, close]

theorem get?_set_self : (t.set n d).get? n = some d := by
  have hclosed := get?_close_self (t := t) (n := n)
  rw [get?_eq, Option.map_eq_none_iff] at hclosed
  rw [get?_eq]
  simp [set, List.find?_append, hclosed]

theorem get?_set_ne (h : k ≠ n) : (t.set n d).get? k = t.get? k := by
  rw [← get?_close_ne (t := t) h, get?_eq, get?_eq, set, List.find?_append]
  simp [Ne.symm h]

/-! ## New numbers -/

/-- As many numbers as there are entries cannot all be in use with one more. -/
theorem isFree_lowestFree (t : FdTable) (least : Nat) : t.isFree (t.lowestFree least) = true := by
  unfold lowestFree
  cases hfind : (List.range' least (t.length + 1)).find? t.isFree with
  | some fd => exact List.find?_some hfind
  | none =>
    have hused : List.range' least (t.length + 1) ⊆ t.map Prod.fst := by
      intro fd hfd
      have htaken := List.find?_eq_none.mp hfind fd hfd
      simpa [isFree] using htaken
    have hlength := (List.subperm_of_subset List.nodup_range' hused).length_le
    rw [List.length_range', List.length_map] at hlength
    omega

theorem le_lowestFree (t : FdTable) (least : Nat) : least ≤ t.lowestFree least := by
  unfold lowestFree
  cases hfind : (List.range' least (t.length + 1)).find? t.isFree with
  | some fd =>
    have hmem := List.mem_of_find?_eq_some hfind
    rw [List.mem_range'] at hmem
    obtain ⟨i, -, rfl⟩ := hmem
    exact Nat.le_add_right ..
  | none => exact Nat.le_add_right ..

/-- A number in use is not given out. -/
theorem ne_lowestFree (h : t.get? n = some d) : n ≠ t.lowestFree least := by
  rintro rfl
  rw [get?_of_isFree (isFree_lowestFree t least)] at h
  cases h

theorem get?_install_self : (t.install least d).2.get? (t.install least d).1 = some d :=
  get?_set_self

theorem get?_install {e : Descriptor} (h : t.get? n = some e) :
    (t.install least d).2.get? n = some e := by
  rw [show (t.install least d).2 = t.set (t.lowestFree least) d from rfl,
    get?_set_ne (ne_lowestFree h), h]

/-! ## Numbers that come and go -/

/-- A table with new numbers: they stood for nothing before, and the others stand for what they
stood for. -/
structure Adds (t t' : FdTable) (news : List Nat) : Prop where
  fresh : ∀ n ∈ news, t.get? n = none
  same : ∀ n : Nat, n ∉ news → t'.get? n = t.get? n

theorem adds_install (t : FdTable) (least : Nat) (d : Descriptor) :
    t.Adds (t.install least d).2 [(t.install least d).1] where
  fresh := by
    intro n hn
    rw [List.mem_singleton.mp hn]
    exact get?_of_isFree (isFree_lowestFree t least)
  same := by
    intro n hn
    exact get?_set_ne fun heq => hn (List.mem_singleton.mpr heq)

theorem Adds.trans {t t' t'' : FdTable} {news more : List Nat} (h : t.Adds t' news)
    (h' : t'.Adds t'' more) : t.Adds t'' (news ++ more) where
  fresh := by
    intro n hn
    by_cases hnew : n ∈ news
    · exact h.fresh n hnew
    · rw [← h.same n hnew]
      exact h'.fresh n ((List.mem_append.mp hn).resolve_left hnew)
  same := by
    intro n hn
    rw [List.mem_append, not_or] at hn
    rw [h'.same n hn.2, h.same n hn.1]

theorem get?_closeAll (t : FdTable) (gone : List Nat) (n : Nat) :
    (gone.foldl FdTable.close t).get? n = if n ∈ gone then none else t.get? n := by
  induction gone generalizing t with
  | nil => rfl
  | cons k gone ih =>
    rw [List.foldl_cons, ih]
    by_cases hgone : n ∈ gone
    · rw [if_pos hgone, if_pos (List.mem_cons_of_mem k hgone)]
    · rw [if_neg hgone]
      by_cases hk : n = k
      · rw [hk, get?_close_self, if_pos List.mem_cons_self]
      · rw [get?_close_ne hk, if_neg fun hmem => (List.mem_cons.mp hmem).elim hk hgone]

/-- Once the new numbers are closed, and some others with them, the rest is as it was. -/
theorem Adds.get?_closeAll {t t' : FdTable} {news : List Nat} (h : t.Adds t' news)
    (gone : List Nat) (n : Nat) :
    ((news ++ gone).foldl FdTable.close t').get? n = if n ∈ gone then none else t.get? n := by
  rw [FdTable.get?_closeAll]
  by_cases hnew : n ∈ news
  · rw [if_pos (List.mem_append_left gone hnew), h.fresh n hnew, ite_self]
  · by_cases hgone : n ∈ gone
    · rw [if_pos hgone, if_pos (List.mem_append_right news hgone)]
    · rw [if_neg hgone, if_neg fun hmem => (List.mem_append.mp hmem).elim hnew hgone,
        h.same n hnew]

/-! ## Many numbers -/

/-- These numbers, all different, stand for these files. -/
def Holds (t : FdTable) (owned : List (Nat × OpenFile)) : Prop :=
  (owned.map Prod.fst).Nodup ∧ ∀ n file, (n, file) ∈ owned → t.file? n = some file

variable {owned kept : List (Nat × OpenFile)}

theorem holds_nil (t : FdTable) : t.Holds [] := ⟨List.nodup_nil, nofun⟩

theorem Holds.sublist (h : t.Holds owned) (hkept : kept.Sublist owned) : t.Holds kept :=
  ⟨h.1.sublist (hkept.map _), fun n file hmem => h.2 n file (hkept.subset hmem)⟩

theorem Holds.perm (h : t.Holds owned) (hkept : kept.Perm owned) : t.Holds kept :=
  ⟨(hkept.map _).nodup_iff.mpr h.1, fun n file hmem => h.2 n file (hkept.subset hmem)⟩

/-- A table that has the same under these numbers. -/
theorem Holds.of_same {t' : FdTable} (h : t.Holds owned)
    (hsame : ∀ n ∈ owned.map Prod.fst, t'.file? n = t.file? n) : t'.Holds owned := by
  refine ⟨h.1, ?_⟩
  intro n file hmem
  rw [hsame n (List.mem_map_of_mem hmem)]
  exact h.2 n file hmem

theorem Holds.install (h : t.Holds owned) (least : Nat) (d : Descriptor) :
    (t.install least d).2.Holds (owned ++ [((t.install least d).1, d.file)]) := by
  have hnew : ∀ n file, (n, file) ∈ owned → n ≠ t.lowestFree least := by
    intro n file hmem
    obtain ⟨e, he, -⟩ := Option.map_eq_some_iff.mp (h.2 n file hmem)
    exact ne_lowestFree he
  constructor
  · rw [List.map_append, List.nodup_append]
    refine ⟨h.1, List.nodup_singleton _, ?_⟩
    intro n hn k hk
    obtain ⟨⟨n, file⟩, hmem, rfl⟩ := List.mem_map.mp hn
    rw [List.map_singleton, List.mem_singleton] at hk
    rw [hk]
    exact hnew n file hmem
  · intro n file hmem
    rcases List.mem_append.mp hmem with hmem | hmem
    · obtain ⟨e, he, hfile⟩ := Option.map_eq_some_iff.mp (h.2 n file hmem)
      unfold file?
      rw [get?_install he]
      exact congrArg some hfile
    · cases List.mem_singleton.mp hmem
      unfold file?
      rw [get?_install_self]
      rfl

/-- Closing some of the numbers leaves the others. -/
theorem Holds.close (h : t.Holds (kept ++ owned)) {gone : List Nat}
    (hgone : ∀ n ∈ gone, n ∈ owned.map Prod.fst) : (gone.foldl FdTable.close t).Holds kept := by
  have hapart := h.1
  rw [List.map_append, List.nodup_append] at hapart
  replace h := h.sublist (List.sublist_append_left kept owned)
  induction gone generalizing t with
  | nil => exact h
  | cons n gone ih =>
    refine ih (fun k hk => hgone k (List.mem_cons_of_mem n hk)) (h.of_same ?_)
    intro k hk
    unfold file?
    rw [get?_close_ne]
    exact hapart.2.2 k hk n (hgone n List.mem_cons_self)

/-! ## What a child has -/

/-- What is not closed when another program is run is there when it runs. -/
theorem holds_afterExec {file : OpenFile} (h : t.get? n = some ⟨file, false⟩) :
    t.afterExec.holds file = true := by
  obtain ⟨entry, hfind, hentry⟩ := Option.map_eq_some_iff.mp h
  refine List.any_eq_true.mpr ⟨entry, List.mem_filter.mpr ⟨List.mem_of_find?_eq_some hfind, ?_⟩, ?_⟩
  · rw [hentry]
    rfl
  · rw [hentry]
    exact beq_self_eq_true file

theorem get?_setCloseOnExec {t' : FdTable} {fd : Nat} {b : Bool}
    (hset : t.setCloseOnExec fd b = .ok t') {e : Descriptor} (h : t.get? n = some e) :
    t'.get? n = some (if n = fd then { e with closeOnExec := b } else e) := by
  unfold setCloseOnExec at hset
  split at hset
  · cases hset
  · cases hset
    rw [get?_eq] at h ⊢
    obtain ⟨⟨k, e'⟩, hfind, rfl⟩ := Option.map_eq_some_iff.mp h
    obtain rfl : k = n := by simpa using List.find?_some hfind
    rw [List.find?_map, show ((fun entry : Nat × Descriptor => entry.1 == k) ∘
      fun x : Nat × Descriptor => (x.1, if x.1 = fd then { x.2 with closeOnExec := b } else x.2)) =
        fun entry : Nat × Descriptor => entry.1 == k from rfl, hfind]
    rfl

theorem duplicate_eq_ok {t' : FdTable} {fd copy : Nat}
    (h : t.duplicate fd least = .ok (copy, t')) :
    ∃ e, t.get? fd = some e ∧ t'.get? copy = some ⟨e.file, true⟩ ∧ least ≤ copy ∧
      ∀ (n : Nat) e', t.get? n = some e' → t'.get? n = some e' := by
  unfold duplicate at h
  split at h
  · rename_i e he
    cases h
    exact ⟨e, he, get?_install_self, le_lowestFree t least, fun n e' he' => get?_install he'⟩
  · cases h

theorem place_eq_ok {t' : FdTable} {fd target : Nat} (hne : fd ≠ target)
    (h : t.place fd target = .ok t') :
    ∃ e, t.get? fd = some e ∧ t'.get? target = some ⟨e.file, false⟩ ∧
      ∀ n : Nat, n ≠ target → t'.get? n = t.get? n := by
  unfold place at h
  split at h
  · rename_i e he
    rw [if_neg hne] at h
    cases h
    exact ⟨e, he, get?_set_self, fun n hn => get?_set_ne hn⟩
  · cases h

end ProcessTree.FdTable

namespace ProcessTree.Handover

open ProcessTree.FdTable

variable {t t' : FdTable} {ends : ChildEnds} {f g : OpenFile}

/-- The copies are made at other numbers than those they are then moved to. -/
theorem holds_of_toFixed (hreceive : t.file? ends.receive = some f)
    (hsend : t.file? ends.send = some g) (h : toFixed t ends = .ok t') :
    t'.afterExec.holds f = true ∧ t'.afterExec.holds g = true := by
  obtain ⟨⟨receive, t₁⟩, hcopy, h⟩ := bind_eq_ok_iff.mp h
  obtain ⟨⟨send, t₂⟩, hcopy', h⟩ := bind_eq_ok_iff.mp h
  obtain ⟨t₃, hplace, hplace'⟩ := bind_eq_ok_iff.mp h
  obtain ⟨e, he, hgot, hle, hkept⟩ := duplicate_eq_ok hcopy
  obtain ⟨e', he', hgot', hle', hkept'⟩ := duplicate_eq_ok hcopy'
  have hparking : parking = 10 := rfl
  obtain ⟨r, hr, hthree, hrest⟩ := place_eq_ok (by omega : receive ≠ 3) hplace
  obtain ⟨s, hs, hfour, hrest'⟩ := place_eq_ok (by omega : send ≠ 4) hplace'
  rw [hkept' receive _ hgot] at hr
  cases hr
  rw [hrest send (by omega), hgot'] at hs
  cases hs
  have hf : e.file = f := by simpa [file?, he] using hreceive
  have hg : e'.file = g := by
    obtain ⟨e₀, he₀, hfile⟩ := Option.map_eq_some_iff.mp hsend
    rw [hkept _ _ he₀] at he'
    cases he'
    exact hfile
  rw [← hrest' 3 (by omega)] at hthree
  rw [hf] at hthree
  rw [hg] at hfour
  exact ⟨holds_afterExec hthree, holds_afterExec hfour⟩

theorem holds_of_toNumbered (hreceive : t.file? ends.receive = some f)
    (hsend : t.file? ends.send = some g) (h : toNumbered t ends = .ok t') :
    t'.afterExec.holds f = true ∧ t'.afterExec.holds g = true := by
  obtain ⟨t₁, hset, hset'⟩ := bind_eq_ok_iff.mp h
  obtain ⟨e, he, rfl⟩ := Option.map_eq_some_iff.mp hreceive
  obtain ⟨e', he', rfl⟩ := Option.map_eq_some_iff.mp hsend
  have hr := get?_setCloseOnExec hset' (get?_setCloseOnExec hset he)
  have hs := get?_setCloseOnExec hset' (get?_setCloseOnExec hset he')
  rw [if_pos rfl] at hr hs
  constructor
  · apply holds_afterExec (n := ends.receive)
    rw [hr]
    by_cases hsame : ends.receive = ends.send
    · rw [if_pos hsame]
    · rw [if_neg hsame]
  · apply holds_afterExec (n := ends.send)
    rw [hs]
    by_cases hsame : ends.send = ends.receive
    · rw [if_pos hsame]
    · rw [if_neg hsame]

/-- A child whose program runs has both ends of its channel. -/
theorem holds_of_run {passing : FdPassing} {status : Nat}
    (hreceive : t.file? ends.receive = some f) (hsend : t.file? ends.send = some g)
    (h : run passing ends status t = .ok t') : t'.holds f = true ∧ t'.holds g = true := by
  unfold run at h
  obtain ⟨t₁, hprepare, rfl⟩ : ∃ t₁, prepare passing ends status t = .ok t₁ ∧
      t' = t₁.afterExec := by
    cases hprepare : prepare passing ends status t with
    | error e =>
      rw [hprepare] at h
      cases h
    | ok t₁ =>
      rw [hprepare] at h
      cases h
      exact ⟨t₁, rfl, rfl⟩
  obtain ⟨⟨parked, t₂⟩, hpark, hmove⟩ := bind_eq_ok_iff.mp hprepare
  obtain ⟨-, -, -, -, hkept⟩ := duplicate_eq_ok hpark
  have hstill : ∀ (n : Nat) file, t.file? n = some file → t₂.file? n = some file := by
    intro n file hfile
    obtain ⟨e, he, rfl⟩ := Option.map_eq_some_iff.mp hfile
    exact Option.map_eq_some_iff.mpr ⟨e, hkept n e he, rfl⟩
  cases passing with
  | fixed => exact holds_of_toFixed (hstill _ _ hreceive) (hstill _ _ hsend) hmove
  | numbered => exact holds_of_toNumbered (hstill _ _ hreceive) (hstill _ _ hsend) hmove

end ProcessTree.Handover
