-- Records as MessagePack maps: a record that was written in the order of its
-- fields gives every field its own value, and an integer of 32 bits gives
-- itself.
import ProcessTree.MessagePack.Shape
import ProcessTree.Proofs.MessagePack.RoundTrip

namespace ProcessTree

theorem Bytes.ofText_injective {s t : String} (h : Bytes.ofText s = Bytes.ofText t) : s = t := by
  unfold Bytes.ofText at h
  exact String.toByteArray_inj.mp (ByteArray.ext (Array.toList_inj.mp h))

namespace MessagePack

/-! ## Names -/

theorem placeOf?_append (before after : List String) (name : String)
    (h : (before ++ name :: after).Nodup) :
    placeOf? (before ++ name :: after) (Bytes.ofText name) = some before.length := by
  have hnot : name ∉ before := fun hmem =>
    (List.nodup_append.mp h).2.2 name hmem name List.mem_cons_self rfl
  unfold placeOf?
  rw [List.findIdx?_eq_some_iff_getElem]
  refine ⟨by simp, by simp, ?_⟩
  intro j hj heq
  rw [List.getElem_append_left hj] at heq
  have hname := Bytes.ofText_injective (beq_iff_eq.mp heq)
  exact hnot (hname ▸ List.getElem_mem hj)

/-! ## Fields -/

/-- Fields in their order fill the places from the first one that is still free. -/
theorem fillAll?_inOrder (before after : List (String × Value))
    (h : ((before ++ after).map Prod.fst).Nodup) :
    fillAll? ((before ++ after).map Prod.fst)
      (before.map (fun field => some field.2) ++ List.replicate after.length none)
      (after.map fun (name, value) => (.ofText name, value)) =
        some ((before ++ after).map fun field => some field.2) := by
  induction after generalizing before with
  | nil => simp [fillAll?]
  | cons field after ih =>
    obtain ⟨name, value⟩ := field
    have hplace : (Value.ofText name).place? ((before ++ (name, value) :: after).map Prod.fst) =
        some (before.map Prod.fst).length := by
      rw [List.map_append, List.map_cons] at h ⊢
      exact placeOf?_append _ _ name h
    have hfill : fill? (before.map (fun field => some field.2) ++
        List.replicate (after.length + 1) none) (before.map Prod.fst).length value =
          some ((before ++ [(name, value)]).map (fun field => some field.2) ++
            List.replicate after.length none) := by
      unfold fill?
      simp only [List.length_map, List.replicate_succ]
      rw [List.getElem?_append_right (by simp), List.set_append_right _ _ (by simp)]
      simp
    have hrest := ih (before ++ [(name, value)]) (by simpa using h)
    simp only [List.append_assoc, List.singleton_append] at hrest
    unfold fillAll?
    simp only [List.map_cons, List.length_cons]
    rw [if_pos (by rfl)]
    simp only [hplace, hfill]
    exact hrest

/-- A record gives every field the value that it was written with. -/
theorem fields?_ofFields (fields : List (String × Value)) (names : List String)
    (hnames : fields.map Prod.fst = names) (h : names.Nodup) :
    (Value.ofFields fields).fields? names = some (fields.map fun field => some field.2) := by
  subst hnames
  have := fillAll?_inOrder [] fields h
  simpa [Value.fields?, Value.ofFields] using this

/-! ## Integers of 32 bits -/

theorem int32?_ofInt (n : Int32) : (Value.ofInt n.toInt).int32? = some n := by
  have hle := n.le_toInt
  have hlt := n.toInt_lt
  have hint : (Value.ofInt n.toInt).int? (-2147483648) 2147483647 = some n.toInt := by
    unfold Value.ofInt Value.int?
    split_ifs with h
    · simp only
      rw [if_pos (by omega), Int.toNat_of_nonneg h]
    · simp only
      rw [if_pos (by omega)]
  unfold Value.int32?
  rw [hint, Option.map_some, Int32.ofInt_toInt]

theorem fits_ofInt32 (levels : Nat) (n : Int32) : (Value.ofInt n.toInt).Fits levels := by
  have hle := n.le_toInt
  have hlt := n.toInt_lt
  have hspan : Bytes.span 8 = 18446744073709551616 := by decide
  unfold Value.ofInt
  split_ifs with h
  · unfold Value.Fits
    omega
  · unfold Value.Fits
    omega

/-! ## Records that fit -/

theorem fits_ofText (levels : Nat) (text : String)
    (h : (Bytes.ofText text).length < Bytes.span 4) : (Value.ofText text).Fits levels := by
  unfold Value.ofText Value.Fits
  exact h

/-- A record fits when it has few fields, with short names and values that fit. -/
theorem fits_ofFields (levels : Nat) (fields : List (String × Value)) (names : List String)
    (hnames : fields.map Prod.fst = names) (hlen : names.length < Bytes.span 4)
    (hshort : ∀ name ∈ names, (Bytes.ofText name).length < Bytes.span 4)
    (hvalues : ∀ field ∈ fields, field.2.Fits levels) :
    (Value.ofFields fields).Fits (levels + 1) := by
  subst hnames
  unfold Value.ofFields Value.Fits
  refine ⟨by simpa using hlen, ?_⟩
  intro entry hentry
  obtain ⟨field, hfield, rfl⟩ := List.mem_map.mp hentry
  have hname := hshort field.1 (List.mem_map_of_mem hfield)
  exact ⟨fits_ofText levels field.1 hname, hvalues field hfield⟩

/-! ## Coded types -/

/-- A coded value is read back from its payload, whatever follows it, when its written form fits
and stands for it. -/
theorem unpack?_pack {α : Type} [Coded α] (a : α) (v : Value) (rest : Bytes)
    (hto : Coded.toValue? a = some v) (hof : Coded.ofValue? v = some a)
    (hfit : v.Fits maxLevels) :
    pack? a = some v.write ∧ unpack? (v.write ++ rest) = some a := by
  constructor
  · unfold pack?
    rw [hto, Option.map_some]
  · unfold unpack?
    rw [read_write v rest hfit]
    exact hof

end MessagePack

end ProcessTree
