-- Which values a record takes for its fields. A field is designated by name, as
-- text or as bytes, or by its place; what designates no field is passed over; and
-- a record is read exactly when every field is given what it may be given.
import ProcessTree.Proofs.MessagePack.Records

namespace ProcessTree.MessagePack

/-! ## Designations -/

/-- Whether a key designates the field of this name and place. -/
def Value.designates (name : String) (place : Nat) : Value → Bool
  | .str bytes | .bin bytes => bytes == Bytes.ofText name
  | .uint n => n == place
  | _ => false

theorem placeOf?_eq_some_iff {names : List String} (h : names.Nodup) {bytes : Bytes} {place : Nat} :
    placeOf? names bytes = some place ↔
      ∃ name, names[place]? = some name ∧ bytes = Bytes.ofText name := by
  unfold placeOf?
  rw [List.findIdx?_eq_some_iff_getElem]
  constructor
  · rintro ⟨hlt, heq, -⟩
    exact ⟨names[place], List.getElem?_eq_getElem hlt, (beq_iff_eq.mp heq).symm⟩
  · rintro ⟨name, hname, rfl⟩
    obtain ⟨hlt, rfl⟩ := List.getElem?_eq_some_iff.mp hname
    refine ⟨hlt, beq_iff_eq.mpr rfl, ?_⟩
    intro j hj heq
    have hname := Bytes.ofText_injective (beq_iff_eq.mp heq)
    exact absurd (h.getElem_inj_iff.mp hname) (Nat.ne_of_lt hj)

theorem place?_eq_some_iff {names : List String} (h : names.Nodup) {key : Value} {place : Nat} :
    key.place? names = some place ↔
      ∃ name, names[place]? = some name ∧ key.designates name place := by
  cases key with
  | str bytes =>
    simp only [Value.place?, Value.designates, beq_iff_eq]
    exact placeOf?_eq_some_iff h
  | bin bytes =>
    simp only [Value.place?, Value.designates, beq_iff_eq]
    exact placeOf?_eq_some_iff h
  | uint n =>
    simp only [Value.place?, Value.designates, beq_iff_eq]
    constructor
    · intro hplace
      split at hplace
      · rename_i hlt
        cases hplace
        exact ⟨names[place], List.getElem?_eq_getElem hlt, rfl⟩
      · cases hplace
    · rintro ⟨name, hname, rfl⟩
      obtain ⟨hlt, -⟩ := List.getElem?_eq_some_iff.mp hname
      exact if_pos hlt
  | nil => simp [Value.place?, Value.designates]
  | bool b => simp [Value.place?, Value.designates]
  | int n => simp [Value.place?, Value.designates]
  | float bytes => simp [Value.place?, Value.designates]
  | array items => simp [Value.place?, Value.designates]
  | map entries => simp [Value.place?, Value.designates]
  | ext type data => simp [Value.place?, Value.designates]

/-- The values that a map's entries give to the field of this name and place. -/
def valuesFor (name : String) (place : Nat) (entries : List (Value × Value)) : List Value :=
  (entries.filter fun entry => entry.1.designates name place).map Prod.snd

theorem valuesFor_cons (name : String) (place : Nat) (key value : Value)
    (entries : List (Value × Value)) :
    valuesFor name place ((key, value) :: entries) =
      (if key.designates name place then [value] else []) ++ valuesFor name place entries := by
  unfold valuesFor
  rw [List.filter_cons]
  split <;> rfl

/-! ## Slots -/

/-- What the slot at a place holds, as a list of one value or none. -/
def slotAt (slots : List (Option Value)) (place : Nat) : List Value := slots[place]?.join.toList

theorem slotAt_of_getElem? {slots : List (Option Value)} {place : Nat} {slot : Option Value}
    (h : slots[place]? = some slot) : slotAt slots place = slot.toList := by
  unfold slotAt
  rw [h, Option.join_some]

theorem length_slotAt_le (slots : List (Option Value)) (place : Nat) :
    (slotAt slots place).length ≤ 1 := by
  unfold slotAt
  cases slots[place]?.join <;> simp

theorem slotAt_set (slots : List (Option Value)) (place other : Nat) (value : Value)
    (h : place < slots.length) :
    slotAt (slots.set place (some value)) other =
      if place = other then [value] else slotAt slots other := by
  unfold slotAt
  rw [List.getElem?_set]
  split
  · rename_i heq
    subst heq
    simp
  · rfl

theorem slots_ext {slots slots' : List (Option Value)} (hlen : slots'.length = slots.length)
    (h : ∀ place, place < slots.length → slotAt slots' place = slotAt slots place) :
    slots' = slots := by
  apply List.ext_getElem hlen
  intro place h' hlt
  have hslot := h place hlt
  rw [slotAt_of_getElem? (List.getElem?_eq_getElem hlt),
    slotAt_of_getElem? (List.getElem?_eq_getElem h')] at hslot
  simpa using congrArg List.head? hslot

theorem toList_head?_of_length_le {values : List Value} (h : values.length ≤ 1) :
    values.head?.toList = values := by
  rcases values with _ | ⟨value, _ | ⟨other, rest⟩⟩
  · rfl
  · rfl
  · simp at h

/-- The slots after the entries: every key is one, and to what a slot held comes what the entries
give to its field, all in all one value at most. -/
def Filled (names : List String) (slots : List (Option Value)) (entries : List (Value × Value))
    (slots' : List (Option Value)) : Prop :=
  (∀ entry ∈ entries, entry.1.isKey) ∧ slots'.length = slots.length ∧
    ∀ place name, names[place]? = some name →
      slotAt slots' place = slotAt slots place ++ valuesFor name place entries

theorem fillAll?_eq_some_iff {names : List String} (hnames : names.Nodup)
    {slots slots' : List (Option Value)} (hslots : slots.length = names.length)
    (entries : List (Value × Value)) :
    fillAll? names slots entries = some slots' ↔ Filled names slots entries slots' := by
  induction entries generalizing slots with
  | nil =>
    unfold fillAll? Filled
    constructor
    · rintro hsome
      cases hsome
      exact ⟨by simp, rfl, fun place name _ => by simp [valuesFor]⟩
    · rintro ⟨-, hlen, hplaces⟩
      refine congrArg some (slots_ext hlen ?_).symm
      intro place hlt
      rw [hslots] at hlt
      simpa [valuesFor] using hplaces place names[place] (List.getElem?_eq_getElem hlt)
  | cons entry entries ih =>
    obtain ⟨key, value⟩ := entry
    unfold fillAll?
    cases hkey : key.isKey with
    | false => simp [Filled, hkey]
    | true =>
      simp only [if_true]
      cases hplace : key.place? names with
      | none =>
        simp only
        rw [ih hslots]
        unfold Filled
        simp only [List.forall_mem_cons, hkey, true_and, valuesFor_cons]
        refine and_congr_right fun _ => and_congr_right fun _ => forall₃_congr ?_
        intro place name hname
        have hnot : key.designates name place = false := by
          cases hd : key.designates name place with
          | false => rfl
          | true =>
            have hfound := (place?_eq_some_iff hnames).mpr ⟨name, hname, hd⟩
            rw [hplace] at hfound
            cases hfound
        rw [if_neg (by simp [hnot]), List.nil_append]
      | some place =>
        simp only
        obtain ⟨name, hname, hd⟩ := (place?_eq_some_iff hnames).mp hplace
        obtain ⟨hlt, -⟩ := List.getElem?_eq_some_iff.mp hname
        rw [← hslots] at hlt
        have hslot : slots[place]? = some slots[place] := List.getElem?_eq_getElem hlt
        unfold fill?
        rw [hslot]
        cases hheld : slots[place] with
        | some held =>
          simp only [reduceCtorEq, false_iff]
          rintro ⟨-, -, hplaces⟩
          have htwo := length_slotAt_le slots' place
          rw [hplaces place name hname, slotAt_of_getElem? hslot, hheld, valuesFor_cons,
            if_pos hd] at htwo
          simp at htwo
        | none =>
          simp only
          rw [ih (by simpa using hslots)]
          unfold Filled
          simp only [List.forall_mem_cons, hkey, true_and, valuesFor_cons, List.length_set]
          refine and_congr_right fun _ => and_congr_right fun _ => forall₃_congr ?_
          intro other name' hname'
          rw [slotAt_set _ _ _ _ hlt]
          split
          · rename_i heq
            subst heq
            obtain rfl : name' = name := Option.some.inj (hname'.symm.trans hname)
            rw [if_pos hd, slotAt_of_getElem? hslot, hheld]
            simp
          · rename_i hne
            have hnot : ¬ key.designates name' other = true := fun hd' =>
              hne (Option.some.inj (hplace.symm.trans
                ((place?_eq_some_iff hnames).mpr ⟨name', hname', hd'⟩)))
            rw [if_neg hnot, List.nil_append]

/-! ## What a value gives to a record -/

/-- The values that a value gives to the field of this name and place: a map by designation, an
array by place, a byte string a byte each. -/
def Value.valuesOf (name : String) (place : Nat) : Value → List Value
  | .map entries => valuesFor name place entries
  | .array items => items[place]?.toList
  | .bin bytes => (bytes[place]?.map .ofByte).toList
  | _ => []

/-- A value that may stand for a record of so many fields. -/
def Value.IsRecord (count : Nat) : Value → Prop
  | .map entries => ∀ entry ∈ entries, entry.1.isKey
  | .array items => items.length ≤ count
  | .bin _ => True
  | _ => False

theorem slotAt_replicate (n place : Nat) : slotAt (List.replicate n none) place = [] := by
  unfold slotAt
  rw [List.getElem?_replicate]
  split <;> rfl

theorem length_padded (n : Nat) (values : List Value) : (padded n values).length = n := by
  unfold padded
  simp only [List.length_append, List.length_map, List.length_take, List.length_replicate]
  omega

theorem slotAt_padded {n place : Nat} (values : List Value) (h : place < n) :
    slotAt (padded n values) place = values[place]?.toList := by
  unfold slotAt padded
  rcases Nat.lt_or_ge place values.length with hlt | hge
  · rw [List.getElem?_append_left (by simp; omega)]
    simp [List.getElem?_take_of_lt h, hlt]
  · rw [List.getElem?_append_right (by simp; omega), List.getElem?_replicate,
      List.getElem?_eq_none hge]
    split <;> rfl

theorem padded_eq_iff {n : Nat} {values : List Value} {slots : List (Option Value)} :
    padded n values = slots ↔ slots.length = n ∧
      ∀ place, place < n → slotAt slots place = values[place]?.toList := by
  constructor
  · rintro rfl
    exact ⟨length_padded n values, fun place => slotAt_padded values⟩
  · rintro ⟨rfl, h⟩
    refine slots_ext (length_padded _ _) fun place hlt => ?_
    rw [slotAt_padded values hlt, h place hlt]

theorem forall_place_iff {names : List String} {P : Nat → Prop} :
    (∀ place, place < names.length → P place) ↔
      ∀ place name, names[place]? = some name → P place := by
  constructor
  · intro h place name hname
    exact h place (List.getElem?_eq_some_iff.mp hname).1
  · intro h place hlt
    exact h place names[place] (List.getElem?_eq_getElem hlt)

/-- The slots of a record are filled exactly with what the value gives to the fields. -/
theorem fields?_eq_some_iff {names : List String} (hnames : names.Nodup) {v : Value}
    {slots : List (Option Value)} :
    v.fields? names = some slots ↔ v.IsRecord names.length ∧ slots.length = names.length ∧
      ∀ place name, names[place]? = some name → slotAt slots place = v.valuesOf name place := by
  cases v with
  | map entries =>
    simp only [Value.fields?, Value.IsRecord, Value.valuesOf]
    rw [fillAll?_eq_some_iff hnames (List.length_replicate ..)]
    simp only [Filled, List.length_replicate, slotAt_replicate, List.nil_append]
  | array items =>
    simp only [Value.fields?, Value.IsRecord, Value.valuesOf]
    rw [← forall_place_iff (P := fun place => slotAt slots place = items[place]?.toList),
      ← padded_eq_iff]
    split
    · rename_i hle
      simp [hle]
    · rename_i hgt
      simp [hgt]
  | bin bytes =>
    simp only [Value.fields?, Value.IsRecord, Value.valuesOf, true_and, Option.some.injEq]
    rw [padded_eq_iff, forall_place_iff]
    simp
  | nil => simp [Value.fields?, Value.IsRecord]
  | bool b => simp [Value.fields?, Value.IsRecord]
  | uint n => simp [Value.fields?, Value.IsRecord]
  | int n => simp [Value.fields?, Value.IsRecord]
  | float bytes => simp [Value.fields?, Value.IsRecord]
  | str bytes => simp [Value.fields?, Value.IsRecord]
  | ext type data => simp [Value.fields?, Value.IsRecord]

theorem length_of_fields? {names : List String} (hnames : names.Nodup) {v : Value}
    {slots : List (Option Value)} (h : v.fields? names = some slots) :
    slots.length = names.length :=
  ((fields?_eq_some_iff hnames).mp h).2.1

/-! ## Records by their fields -/

/-- A field of a record: its name, its part of the record, which values say what of the part, and
what the part is when the field is missing, unless it has to be there. -/
structure RecordField (α : Type) where
  name : String
  {Part : Type}
  part : α → Part
  Reads : Value → Part → Prop
  missing? : Option Part := none

/-- What the values given to a field say about its part: one value at most, and one unless the
field may be missing. -/
def RecordField.Gives {α : Type} (field : RecordField α) (values : List Value)
    (part : field.Part) : Prop :=
  match values with
  | [] => field.missing? = some part
  | [value] => field.Reads value part
  | _ => False

@[simp] theorem RecordField.gives_nil {α : Type} (field : RecordField α) (part : field.Part) :
    field.Gives [] part ↔ field.missing? = some part := Iff.rfl

@[simp] theorem RecordField.gives_singleton {α : Type} (field : RecordField α) (value : Value)
    (part : field.Part) : field.Gives [value] part ↔ field.Reads value part := Iff.rfl

/-- The values given to a field say something about its part. -/
def RecordField.Accepts {α : Type} (field : RecordField α) (values : List Value) : Prop :=
  ∃ part, field.Gives values part

/-- A value reads as a record when it gives every field its part. -/
def ReadsAs {α : Type} (fields : List (RecordField α)) (v : Value) (a : α) : Prop :=
  v.IsRecord fields.length ∧ ∀ (place : Nat) (field : RecordField α), fields[place]? = some field →
    field.Gives (v.valuesOf field.name place) (field.part a)

theorem RecordField.length_le_of_gives {α : Type} {field : RecordField α} {values : List Value}
    {part : field.Part} (h : field.Gives values part) : values.length ≤ 1 := by
  rcases values with _ | ⟨value, _ | ⟨other, rest⟩⟩
  · exact Nat.zero_le 1
  · exact Nat.le_refl 1
  · exact h.elim

/-- A value reads as a record when the slots that it fills give every field its part. -/
theorem readsAs_iff_slots {α : Type} {fields : List (RecordField α)}
    (hnames : (fields.map RecordField.name).Nodup) {v : Value} {a : α} :
    ReadsAs fields v a ↔ ∃ slots, v.fields? (fields.map RecordField.name) = some slots ∧
      List.Forall₂ (fun (field : RecordField α) slot => field.Gives slot.toList (field.part a))
        fields slots := by
  simp only [fields?_eq_some_iff hnames, List.length_map, List.forall₂_iff_get]
  constructor
  · rintro ⟨hrecord, hgives⟩
    refine ⟨fields.mapIdx fun place field => (v.valuesOf field.name place).head?,
      ⟨hrecord, by simp, ?_⟩, by simp, ?_⟩
    · intro place name hname
      obtain ⟨field, hfield, rfl⟩ := by simpa using hname
      have hlen := RecordField.length_le_of_gives (hgives place field hfield)
      rw [slotAt_of_getElem? (by rw [List.getElem?_mapIdx, hfield, Option.map_some])]
      exact toList_head?_of_length_le hlen
    · intro place hplace _
      have hget := hgives place fields[place] (List.getElem?_eq_getElem hplace)
      simpa [toList_head?_of_length_le (RecordField.length_le_of_gives hget)] using hget
  · rintro ⟨slots, ⟨hrecord, hlen, hslots⟩, -, hgives⟩
    refine ⟨hrecord, fun place field hfield => ?_⟩
    obtain ⟨hplace, rfl⟩ := List.getElem?_eq_some_iff.mp hfield
    have hget := hgives place hplace (hlen ▸ hplace)
    have hslot := hslots place fields[place].name (by simp [hfield])
    rw [slotAt_of_getElem? (List.getElem?_eq_getElem (hlen ▸ hplace))] at hslot
    rw [← hslot]
    exact hget

end ProcessTree.MessagePack
