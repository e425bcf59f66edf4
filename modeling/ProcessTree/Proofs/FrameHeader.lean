-- The laws of frame headers: five bytes are as good as a tag with a length of
-- 32 bits. Every such pair has one header, every five bytes are the header of
-- the pair that is read from them, and a length beyond that has none.
import ProcessTree.Frame
import ProcessTree.Proofs.Bytes

namespace ProcessTree.Frame

variable {tag : UInt8} {length : Nat} {bytes : Bytes}

/-! ## From a tag and a length -/

theorem header_eq_ok (h : length < Bytes.span 4) :
    header tag length = .ok (tag :: Bytes.ofNat 4 length) := by
  unfold header
  rw [if_pos h]

theorem header_eq_error (h : Bytes.span 4 ≤ length) :
    header tag length = .error (.payloadTooLarge length) := by
  unfold header
  rw [if_neg (by omega)]

theorem length_header (tag : UInt8) (length : Nat) :
    (tag :: Bytes.ofNat 4 length).length = headerSize := by
  rw [List.length_cons, Bytes.length_ofNat]
  rfl

theorem lengthOf_header (tag : UInt8) (h : length < Bytes.span 4) :
    lengthOf (tag :: Bytes.ofNat 4 length) = length :=
  Bytes.toNat_ofNat 4 length h

theorem header_eq_ok_iff :
    header tag length = .ok bytes ↔
      length < Bytes.span 4 ∧ bytes = tag :: Bytes.ofNat 4 length := by
  by_cases h : length < Bytes.span 4
  · rw [header_eq_ok h]
    simp [h, eq_comm]
  · rw [header_eq_error (by omega)]
    simp [h]

/-! ## From five bytes -/

/-- Five bytes are a tag and the four bytes of a length. -/
theorem exists_of_length (h : bytes.length = headerSize) :
    ∃ tag a b c d, bytes = [tag, a, b, c, d] := by
  have hfive : bytes.length = 5 := h
  rcases bytes with _ | ⟨tag, _ | ⟨a, rest⟩⟩
  · cases hfive
  · cases hfive
  · obtain ⟨b, c, d, rfl⟩ := List.length_eq_three.mp (by simpa using hfive)
    exact ⟨tag, a, b, c, d, rfl⟩

/-- The header of the tag and the length that five bytes tell are these bytes. -/
theorem header_of_bytes (h : bytes.length = headerSize) :
    header (tagOf bytes) (lengthOf bytes) = .ok bytes := by
  obtain ⟨tag, a, b, c, d, rfl⟩ := exists_of_length h
  have hspan : lengthOf [tag, a, b, c, d] < Bytes.span 4 := Bytes.toNat_lt_span [a, b, c, d]
  have hback : Bytes.ofNat 4 (lengthOf [tag, a, b, c, d]) = [a, b, c, d] :=
    Bytes.ofNat_toNat [a, b, c, d]
  rw [header_eq_ok hspan, hback]
  rfl

/-- The length that four bytes tell, the most significant first. -/
theorem lengthOf_bytes (tag a b c d : UInt8) :
    lengthOf [tag, a, b, c, d] =
      a.toNat * 2 ^ 24 + b.toNat * 2 ^ 16 + c.toNat * 2 ^ 8 + d.toNat := by
  simp only [lengthOf, Bytes.toNat, List.tail_cons, List.foldl_cons, List.foldl_nil]
  omega

/-! ## The law -/

/-- A tag and a length have a header exactly when 32 bits can tell the length, and nothing but a
length that they cannot tell is complained about. Their header is the five bytes from which just
this tag and this length are read: the tag in front, then the length from its most significant byte
on. So headers and the pairs that they tell correspond one to one, in both directions. -/
theorem a_header_is_a_tag_with_a_length (tag : UInt8) (length : Nat) (bytes : Bytes) :
    ((∃ written, header tag length = .ok written) ↔ length ≤ 2 ^ 32 - 1) ∧
      (∀ e, header tag length = .error e ↔
        2 ^ 32 - 1 < length ∧ e = .payloadTooLarge length) ∧
      (header tag length = .ok bytes ↔
        bytes.length = 5 ∧ tagOf bytes = tag ∧ lengthOf bytes = length) ∧
      (header tag length = .ok bytes ↔ ∃ a b c d : UInt8, bytes = [tag, a, b, c, d] ∧
        length = a.toNat * 2 ^ 24 + b.toNat * 2 ^ 16 + c.toNat * 2 ^ 8 + d.toNat) := by
  have hspan : Bytes.span 4 = 2 ^ 32 := by decide
  have hread : header tag length = .ok bytes ↔
      bytes.length = headerSize ∧ tagOf bytes = tag ∧ lengthOf bytes = length := by
    constructor
    · intro h
      obtain ⟨hlt, rfl⟩ := header_eq_ok_iff.mp h
      exact ⟨length_header tag length, rfl, lengthOf_header tag hlt⟩
    · rintro ⟨hlength, rfl, rfl⟩
      exact header_of_bytes hlength
  refine ⟨?_, ?_, hread, ?_⟩
  · simp only [header_eq_ok_iff, exists_and_left, exists_eq, and_true]
    omega
  · intro e
    by_cases h : length < Bytes.span 4
    · rw [header_eq_ok h]
      simp only [reduceCtorEq, false_iff, not_and]
      omega
    · rw [header_eq_error (by omega), Except.error.injEq, eq_comm]
      simp only [iff_and_self]
      omega
  · rw [hread]
    constructor
    · rintro ⟨hlength, rfl, rfl⟩
      obtain ⟨tag, a, b, c, d, rfl⟩ := exists_of_length hlength
      exact ⟨a, b, c, d, rfl, lengthOf_bytes tag a b c d⟩
    · rintro ⟨a, b, c, d, rfl, rfl⟩
      exact ⟨rfl, rfl, lengthOf_bytes tag a b c d⟩

example : header 7 4294967295 = .ok [7, 255, 255, 255, 255] := by decide

end ProcessTree.Frame
