-- The laws of a tag registry: it is looked up both ways, and both ways agree. A
-- list of entries makes a registry unless one of them clashes with an earlier
-- one; the first that does is the one that is refused. The two tables of the
-- registry are filled entry by entry, so what they hold is said of the entries
-- put into them so far.
import Mathlib
import ProcessTree.Registry

namespace ProcessTree

namespace Registry

/-! ## Entries that clash -/

/-- No two entries have their tag in common, and no two their kind. -/
def Distinct (entries : List (UInt8 × String)) : Prop :=
  (entries.map Prod.fst).Nodup ∧ (entries.map Prod.snd).Nodup

/-- The tag or the kind of an entry is that of an earlier one. -/
def Clashes (earlier : List (UInt8 × String)) (entry : UInt8 × String) : Prop :=
  entry.1 ∈ earlier.map Prod.fst ∨ entry.2 ∈ earlier.map Prod.snd

/-- Of the entries that clash with those before them, this one is the first. -/
structure FirstClash (entries earlier : List (UInt8 × String)) (entry : UInt8 × String) : Prop where
  splits : ∃ later, entries = earlier ++ entry :: later
  clashes : Clashes earlier entry
  first : ∀ front e back, earlier = front ++ e :: back → ¬ Clashes front e

/-- What is said of an entry that clashes: its tag counts before its kind. -/
inductive Complaint (name : String) (earlier : List (UInt8 × String)) :
    UInt8 × String → RegistryError → Prop
  | tag {tag : UInt8} {kind : String} (again : tag ∈ earlier.map Prod.fst) :
      Complaint name earlier (tag, kind) (.duplicateTag name tag)
  | kind {tag : UInt8} {kind : String} (fresh : tag ∉ earlier.map Prod.fst)
      (again : kind ∈ earlier.map Prod.snd) :
      Complaint name earlier (tag, kind) (.duplicateKind name kind)

theorem distinct_snoc_iff (entries : List (UInt8 × String)) (entry : UInt8 × String) :
    Distinct (entries ++ [entry]) ↔ Distinct entries ∧ ¬ Clashes entries entry := by
  have hsnoc {α : Type} (l : List α) (a : α) : (l ++ [a]).Nodup ↔ l.Nodup ∧ a ∉ l := by
    rw [List.nodup_append_comm, List.singleton_append, List.nodup_cons, and_comm]
  unfold Distinct Clashes
  rw [List.map_append, List.map_append, List.map_singleton, List.map_singleton, hsnoc, hsnoc]
  tauto

/-- A list is distinct when none of its entries clashes with those before it. -/
theorem distinct_iff_not_clashes (entries : List (UInt8 × String)) :
    Distinct entries ↔
      ∀ front entry back, entries = front ++ entry :: back → ¬ Clashes front entry := by
  induction entries using List.reverseRecOn with
  | nil => simp [Distinct]
  | append_singleton entries last ih =>
    rw [distinct_snoc_iff, ih]
    constructor
    · rintro ⟨hfront, hlast⟩ front entry back heq
      rcases List.eq_nil_or_concat back with rfl | ⟨back, last', rfl⟩
      · obtain ⟨rfl, rfl⟩ := List.append_singleton_inj.mp heq
        exact hlast
      · rw [List.concat_eq_append, ← List.cons_append, ← List.append_assoc] at heq
        obtain ⟨rfl, -⟩ := List.append_singleton_inj.mp heq
        exact hfront front entry back rfl
    · intro hnone
      refine ⟨fun front entry back heq => ?_, hnone entries last [] rfl⟩
      refine hnone front entry (back ++ [last]) ?_
      rw [heq, List.append_assoc, List.cons_append]

theorem FirstClash.distinct {entries earlier : List (UInt8 × String)} {entry : UInt8 × String}
    (h : FirstClash entries earlier entry) : Distinct earlier :=
  (distinct_iff_not_clashes earlier).mpr h.first

/-- A list without a first clash has none. -/
theorem distinct_or_firstClash (entries : List (UInt8 × String)) :
    Distinct entries ∨ ∃ earlier entry, FirstClash entries earlier entry := by
  induction entries using List.reverseRecOn with
  | nil => exact .inl (by simp [Distinct])
  | append_singleton entries last ih =>
    rcases ih with hdistinct | ⟨earlier, entry, ⟨later, rfl⟩, hclash, hfirst⟩
    · by_cases hlast : Clashes entries last
      · refine .inr ⟨entries, last, ⟨[], rfl⟩, hlast, ?_⟩
        exact (distinct_iff_not_clashes entries).mp hdistinct
      · exact .inl ((distinct_snoc_iff entries last).mpr ⟨hdistinct, hlast⟩)
    · exact .inr ⟨earlier, entry, ⟨later ++ [last], by simp⟩, hclash, hfirst⟩

theorem FirstClash.exists_complaint {entries earlier : List (UInt8 × String)}
    {entry : UInt8 × String} (h : FirstClash entries earlier entry) (name : String) :
    ∃ e, Complaint name earlier entry e := by
  by_cases htag : entry.1 ∈ earlier.map Prod.fst
  · exact ⟨_, .tag htag⟩
  · exact ⟨_, .kind htag (h.clashes.resolve_left htag)⟩

end Registry

/-! ## Filling the tables -/

namespace TagTables

open Registry

/-- Both maps hold these entries and nothing else, and each entry once. -/
structure Holds (t : TagTables) (entries : List (UInt8 × String)) : Prop where
  kinds : ∀ (tag : UInt8) (kind : String), t.kinds[tag]? = some kind ↔ (tag, kind) ∈ entries
  tags : ∀ (tag : UInt8) (kind : String), t.tags[kind]? = some tag ↔ (tag, kind) ∈ entries
  size : t.kinds.size = entries.length

variable {t : TagTables} {name : String} {entries earlier : List (UInt8 × String)} {tag : UInt8}
  {kind : String}

theorem holds_empty : empty.Holds [] := by
  refine ⟨?_, ?_, Std.TreeMap.size_emptyc⟩
  · simp [empty]
  · simp [empty]

theorem Holds.mem_kinds (h : t.Holds entries) : tag ∈ t.kinds ↔ tag ∈ entries.map Prod.fst := by
  rw [Std.TreeMap.mem_iff_isSome_getElem?, Option.isSome_iff_exists]
  simp [h.kinds]

theorem Holds.mem_tags (h : t.Holds entries) : kind ∈ t.tags ↔ kind ∈ entries.map Prod.snd := by
  rw [Std.TreeMap.mem_iff_isSome_getElem?, Option.isSome_iff_exists]
  simp [h.tags]

/-- An entry that clashes with none goes into both maps. -/
theorem Holds.put (h : t.Holds earlier) (hclash : ¬ Clashes earlier (tag, kind)) (name : String) :
    ∃ t', t.put name tag kind = .ok t' ∧ t'.Holds (earlier ++ [(tag, kind)]) := by
  obtain ⟨htag, hkind⟩ := not_or.mp hclash
  have hkinds : tag ∉ t.kinds := fun hmem => htag (h.mem_kinds.mp hmem)
  have htags : kind ∉ t.tags := fun hmem => hkind (h.mem_tags.mp hmem)
  rw [put_eq, if_neg hkinds, if_neg htags]
  refine ⟨_, rfl, ?_, ?_, ?_⟩
  · intro tag' kind'
    rw [getElem?_insert_fresh hkinds, h.kinds, List.mem_append, List.mem_singleton, Prod.mk_inj]
  · intro tag' kind'
    rw [getElem?_insert_fresh htags, h.tags, List.mem_append, List.mem_singleton, Prod.mk_inj,
      and_comm]
  · rw [Std.TreeMap.size_insert, if_neg (by simpa using hkinds), h.size, List.length_append,
      List.length_singleton]

theorem Holds.put_error {e : RegistryError} (h : t.Holds earlier)
    (hcomplaint : Complaint name earlier (tag, kind) e) : t.put name tag kind = .error e := by
  rw [put_eq]
  cases hcomplaint with
  | tag again => rw [if_pos (h.mem_kinds.mpr again)]
  | kind fresh again =>
    rw [if_neg fun hmem => fresh (h.mem_kinds.mp hmem), if_pos (h.mem_tags.mpr again)]

/-- Entries that clash with none are all put in, and then come the others. -/
theorem Holds.fill (h : t.Holds earlier) (hdistinct : Distinct (earlier ++ entries))
    (name : String) (others : List (UInt8 × String)) :
    ∃ t' : TagTables, t'.Holds (earlier ++ entries) ∧
      t.fill name (entries ++ others) = t'.fill name others := by
  induction entries generalizing t earlier with
  | nil => exact ⟨t, by simpa using h, rfl⟩
  | cons entry entries ih =>
    obtain ⟨tag, kind⟩ := entry
    have hclash : ¬ Clashes earlier (tag, kind) :=
      (distinct_iff_not_clashes _).mp hdistinct earlier (tag, kind) entries rfl
    obtain ⟨t₁, hput, hholds⟩ := h.put hclash name
    rw [List.append_cons] at hdistinct ⊢
    obtain ⟨t', hholds', hrest⟩ := ih hholds hdistinct
    refine ⟨t', hholds', ?_⟩
    rw [List.cons_append, TagTables.fill, hput]
    exact hrest

theorem fill_of_distinct (name : String) (h : Distinct entries) :
    ∃ t, empty.fill name entries = .ok t ∧ t.Holds entries := by
  obtain ⟨t, hholds, hfill⟩ := holds_empty.fill h name []
  rw [List.append_nil] at hfill
  exact ⟨t, hfill, hholds⟩

/-- The first entry that clashes ends it, and what is behind that does not matter. -/
theorem fill_of_firstClash {entry : UInt8 × String} {e : RegistryError}
    (h : FirstClash entries earlier entry) (hcomplaint : Complaint name earlier entry e) :
    empty.fill name entries = .error e := by
  obtain ⟨later, rfl⟩ := h.splits
  obtain ⟨tag, kind⟩ := entry
  obtain ⟨t, hholds, hfill⟩ := holds_empty.fill h.distinct name ((tag, kind) :: later)
  rw [List.nil_append] at hholds
  rw [hfill, TagTables.fill, hholds.put_error hcomplaint]
  rfl

end TagTables

/-! ## Building a registry -/

namespace Registry

open TagTables

theorem ofList_of_distinct (name : String) {entries : List (UInt8 × String)}
    (h : Distinct entries) : ∃ r, ofList name entries = .ok r := by
  obtain ⟨t, hfill, -⟩ := fill_of_distinct name h
  exact ⟨⟨t, name, inverse_empty.fill hfill⟩, ofList_eq_ok_iff.mpr ⟨hfill, rfl⟩⟩

theorem distinct_of_ofList {name : String} {entries : List (UInt8 × String)} {r : Registry}
    (h : ofList name entries = .ok r) : Distinct entries := by
  obtain ⟨hfill, -⟩ := ofList_eq_ok_iff.mp h
  rcases distinct_or_firstClash entries with hdistinct | ⟨earlier, entry, hclash⟩
  · exact hdistinct
  · obtain ⟨e, hcomplaint⟩ := hclash.exists_complaint name
    rw [fill_of_firstClash hclash hcomplaint] at hfill
    cases hfill

/-- The registry of a list holds its entries. -/
theorem holds_of_ofList {name : String} {entries : List (UInt8 × String)} {r : Registry}
    (h : ofList name entries = .ok r) : r.Holds entries := by
  obtain ⟨t, hfill, hholds⟩ := fill_of_distinct name (distinct_of_ofList h)
  obtain ⟨hfill', -⟩ := ofList_eq_ok_iff.mp h
  cases hfill.symm.trans hfill'
  exact hholds

theorem ofList_refuses_iff {name : String} {entries : List (UInt8 × String)} {e : RegistryError} :
    ofList name entries = .error e ↔
      ∃ earlier entry, FirstClash entries earlier entry ∧ Complaint name earlier entry e := by
  rw [ofList_eq_error_iff]
  constructor
  · intro h
    rcases distinct_or_firstClash entries with hdistinct | ⟨earlier, entry, hclash⟩
    · obtain ⟨t, hfill, -⟩ := fill_of_distinct name hdistinct
      cases h.symm.trans hfill
    · obtain ⟨e', hcomplaint⟩ := hclash.exists_complaint name
      cases h.symm.trans (fill_of_firstClash hclash hcomplaint)
      exact ⟨earlier, entry, hclash, hcomplaint⟩
  · rintro ⟨earlier, entry, hclash, hcomplaint⟩
    exact fill_of_firstClash hclash hcomplaint

/-- A list of entries makes a registry exactly when all tags differ and all kinds differ. Each tag
then stands for one kind and each kind for one tag, those of the list and no others. Any other list
is refused for the first entry that clashes with an earlier one, by its tag if that is there already
and else by its kind. -/
theorem a_list_makes_a_bijection_or_its_first_clash_is_named (name : String)
    (entries : List (UInt8 × String)) :
    ((∃ r, ofList name entries = .ok r) ↔
      (entries.map Prod.fst).Nodup ∧ (entries.map Prod.snd).Nodup) ∧
    (∀ r, ofList name entries = .ok r → r.name = name ∧
      (∀ tag kind, (r.kindOf? tag = some kind ↔ r.tagOf? kind = some tag) ∧
        (r.tagOf? kind = some tag ↔ (tag, kind) ∈ entries)) ∧
      r.size = entries.length ∧ (r.isEmpty = true ↔ entries = [])) ∧
    ∀ e, ofList name entries = .error e ↔
      ∃ earlier entry, FirstClash entries earlier entry ∧ Complaint name earlier entry e := by
  refine ⟨⟨?_, ofList_of_distinct name⟩, ?_, fun _ => ofList_refuses_iff⟩
  · rintro ⟨r, hr⟩
    exact distinct_of_ofList hr
  · intro r hr
    have hholds := holds_of_ofList hr
    refine ⟨(ofList_eq_ok_iff.mp hr).2, fun tag kind => ⟨r.inverse tag kind, ?_⟩, hholds.size, ?_⟩
    · exact hholds.tags tag kind
    · rw [isEmpty, Std.TreeMap.isEmpty_eq_size_eq_zero, hholds.size, beq_iff_eq,
        List.length_eq_zero_iff]

/-- Of an entry whose tag and kind are both there already, in different entries, the tag counts. -/
theorem a_tag_clashes_before_a_kind :
    (∃ r, ofList "test" [(1, "begin"), (2, "start")] = .ok r ∧
      (r.kindOf? 2 = some "start" ↔ r.tagOf? "start" = some 2)) ∧
    ofList "test" [(1, "begin"), (2, "start"), (2, "begin"), (1, "quit")] =
      .error (.duplicateTag "test" 2) := by
  obtain ⟨hbuilt, hpairs, -⟩ :=
    a_list_makes_a_bijection_or_its_first_clash_is_named "test" [(1, "begin"), (2, "start")]
  obtain ⟨-, -, hrefused⟩ := a_list_makes_a_bijection_or_its_first_clash_is_named "test"
    [(1, "begin"), (2, "start"), (2, "begin"), (1, "quit")]
  obtain ⟨r, hr⟩ := hbuilt.mpr (by simp)
  obtain ⟨-, hboth, -⟩ := hpairs r hr
  refine ⟨⟨r, hr, (hboth 2 "start").1⟩, (hrefused _).mpr ?_⟩
  have hfirst : Distinct [(1, "begin"), (2, "start")] := by simp [Distinct]
  refine ⟨[(1, "begin"), (2, "start")], (2, "begin"), ⟨⟨[(1, "quit")], rfl⟩, ?_, ?_⟩, ?_⟩
  · simp [Clashes]
  · exact (distinct_iff_not_clashes _).mp hfirst
  · exact .tag (by simp)

end Registry

end ProcessTree
