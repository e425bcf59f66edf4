-- The laws of byte strings: a number that fits its width is read back from its
-- bytes, and a byte string is split where it can be split and nowhere else.
import Mathlib
import ProcessTree.Bytes

namespace ProcessTree.Bytes

/-! ## Numbers -/

theorem toNat_ofNat_byte {n : Nat} (h : n < 256) : (UInt8.ofNat n).toNat = n := by
  rw [UInt8.toNat_ofNat']
  exact Nat.mod_eq_of_lt h

theorem toNat_append_byte (bytes : Bytes) (b : UInt8) :
    toNat (bytes ++ [b]) = toNat bytes * 256 + b.toNat := by
  simp [toNat]

/-- Bytes tell numbers below their span apart: each is read back as it was written. -/
theorem toNat_ofNat (width n : Nat) (h : n < span width) : toNat (ofNat width n) = n := by
  induction width generalizing n with
  | zero =>
    have : n = 0 := by unfold span at h; omega
    subst this
    rfl
  | succ width ih =>
    unfold span at h
    have hdiv : n / 256 < span width := by omega
    unfold ofNat
    rw [toNat_append_byte, ih _ hdiv, UInt8.toNat_ofNat']
    omega

/-- So many bytes never make a number beyond their span. -/
theorem toNat_lt_span (bytes : Bytes) : toNat bytes < span bytes.length := by
  induction bytes using List.reverseRecOn with
  | nil => decide
  | append_singleton bytes b ih =>
    have hb := b.toNat_lt
    rw [toNat_append_byte, List.length_append, List.length_singleton, span]
    omega

/-- Bytes are those of the number that they make. -/
theorem ofNat_toNat (bytes : Bytes) : ofNat bytes.length (toNat bytes) = bytes := by
  induction bytes using List.reverseRecOn with
  | nil => rfl
  | append_singleton bytes b ih =>
    have hb := b.toNat_lt
    have hfront : (toNat bytes * 256 + b.toNat) / 256 = toNat bytes := by omega
    have hlast : UInt8.ofNat (toNat bytes * 256 + b.toNat) = b := by
      apply UInt8.toNat_inj.mp
      rw [UInt8.toNat_ofNat']
      omega
    rw [List.length_append, List.length_singleton, toNat_append_byte, ofNat, hfront, ih, hlast]

/-! ## Splitting -/

theorem split?_eq_some_iff {n : Nat} {bytes head rest : Bytes} :
    bytes.split? n = some (head, rest) ↔ bytes = head ++ rest ∧ head.length = n := by
  unfold split?
  constructor
  · intro h
    simp only at h
    split at h
    · rename_i hlen
      simp only [Option.some.injEq, Prod.mk.injEq] at h
      obtain ⟨rfl, rfl⟩ := h
      exact ⟨(List.take_append_drop n bytes).symm, hlen⟩
    · cases h
  · rintro ⟨rfl, rfl⟩
    simp

theorem split?_append (head rest : Bytes) :
    split? head.length (head ++ rest) = some (head, rest) :=
  split?_eq_some_iff.mpr ⟨rfl, rfl⟩

theorem split?_eq_none_iff {n : Nat} {bytes : Bytes} :
    bytes.split? n = none ↔ bytes.length < n := by
  unfold split?
  simp only [ite_eq_right_iff, reduceCtorEq, imp_false, List.length_take]
  omega

theorem split?_rest_length {n : Nat} {bytes head rest : Bytes}
    (h : bytes.split? n = some (head, rest)) : rest.length + n = bytes.length := by
  obtain ⟨rfl, rfl⟩ := split?_eq_some_iff.mp h
  simp only [List.length_append]
  omega

end ProcessTree.Bytes
