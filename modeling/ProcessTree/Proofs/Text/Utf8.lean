-- Reading UTF-8 is the inverse of writing it: a byte string is read as a text
-- exactly when it is what the text is written as.
import ProcessTree.Proofs.Bytes
import ProcessTree.Text.Utf8

namespace ProcessTree

/-- A function gives all results when it gives one for each item. -/
theorem mapM_eq_some_iff {α β : Type} {f : α → Option β} {items : List α} {results : List β} :
    items.mapM f = some results ↔ List.Forall₂ (fun a b => f a = some b) items results := by
  induction items generalizing results with
  | nil => simp [eq_comm]
  | cons a items ih =>
    simp only [List.mapM_cons, Option.bind_eq_bind, Option.bind_eq_some_iff, Option.pure_def,
      Option.some.injEq]
    constructor
    · rintro ⟨b, hb, rest, hrest, rfl⟩
      exact .cons hb (ih.mp hrest)
    · intro h
      obtain ⟨b, rest, hb, hrest, rfl⟩ := List.forall₂_cons_left_iff.mp h
      exact ⟨b, hb, rest, ih.mpr hrest, rfl⟩

namespace Utf8

/-! ## The bytes of one character -/

/-- A byte that continues a character. -/
def Tail (b : UInt8) : Prop := 0x80 ≤ b.toNat ∧ b.toNat < 0xC0

/-- Bytes that stand for a character, with its number: in one byte to four, in no more than it
needs, and no surrogate among them. -/
inductive CharBytes : Bytes → Nat → Prop where
  | one (a : UInt8) (h : a.toNat < 0x80) : CharBytes [a] a.toNat
  | two (a b : UInt8) (low : 0xC2 ≤ a.toNat) (high : a.toNat < 0xE0) (hb : Tail b) :
      CharBytes [a, b] ((a.toNat - 0xC0) * 64 + (b.toNat - 0x80))
  | three (a b c : UInt8) (low : 0xE0 ≤ a.toNat) (high : a.toNat < 0xF0) (hb : Tail b)
      (hc : Tail c) (least : a.toNat = 0xE0 → 0xA0 ≤ b.toNat)
      (most : a.toNat = 0xED → b.toNat < 0xA0) :
      CharBytes [a, b, c] (((a.toNat - 0xE0) * 64 + (b.toNat - 0x80)) * 64 + (c.toNat - 0x80))
  | four (a b c d : UInt8) (low : 0xF0 ≤ a.toNat) (high : a.toNat < 0xF5) (hb : Tail b)
      (hc : Tail c) (hd : Tail d) (least : a.toNat = 0xF0 → 0x90 ≤ b.toNat)
      (most : a.toNat = 0xF4 → b.toNat < 0x90) :
      CharBytes [a, b, c, d]
        ((((a.toNat - 0xF0) * 64 + (b.toNat - 0x80)) * 64 + (c.toNat - 0x80)) * 64 +
          (d.toNat - 0x80))

/-- The bytes that a character is written as stand for it. -/
theorem charBytes_utf8EncodeChar (c : Char) : CharBytes (String.utf8EncodeChar c) c.toNat := by
  have hvalid : c.toNat < 55296 ∨ 57343 < c.toNat ∧ c.toNat < 1114112 := c.valid
  unfold String.utf8EncodeChar
  change CharBytes (if c.toNat ≤ 127 then _ else _) c.toNat
  simp only [show c.val.toNat = c.toNat from rfl]
  split_ifs with h1 h2 h3
  · have h := CharBytes.one (UInt8.ofNat c.toNat)
    rw [Bytes.toNat_ofNat_byte (by omega)] at h
    exact h (by omega)
  · have h := CharBytes.two (UInt8.ofNat (c.toNat / 64 % 32 + 192))
      (UInt8.ofNat (c.toNat % 64 + 128))
    unfold Tail at h
    rw [Bytes.toNat_ofNat_byte (by omega), Bytes.toNat_ofNat_byte (by omega)] at h
    convert h (by omega) (by omega) (by omega) using 1
    omega
  · have h := CharBytes.three (UInt8.ofNat (c.toNat / 4096 % 16 + 224))
      (UInt8.ofNat (c.toNat / 64 % 64 + 128)) (UInt8.ofNat (c.toNat % 64 + 128))
    unfold Tail at h
    rw [Bytes.toNat_ofNat_byte (by omega), Bytes.toNat_ofNat_byte (by omega),
      Bytes.toNat_ofNat_byte (by omega)] at h
    convert h (by omega) (by omega) (by omega) (by omega) (by omega) (by omega) using 1
    omega
  · have h := CharBytes.four (UInt8.ofNat (c.toNat / 262144 % 8 + 240))
      (UInt8.ofNat (c.toNat / 4096 % 64 + 128)) (UInt8.ofNat (c.toNat / 64 % 64 + 128))
      (UInt8.ofNat (c.toNat % 64 + 128))
    unfold Tail at h
    rw [Bytes.toNat_ofNat_byte (by omega), Bytes.toNat_ofNat_byte (by omega),
      Bytes.toNat_ofNat_byte (by omega), Bytes.toNat_ofNat_byte (by omega)] at h
    convert h (by omega) (by omega) (by omega) (by omega) (by omega) (by omega) (by omega) using 1
    omega

theorem toNat_charOfNat {n : Nat} (h : n < 55296 ∨ 57343 < n ∧ n < 1114112) :
    (Char.ofNat n).toNat = n := by
  rw [Char.toNat_ofNat, if_pos h]

/-- Bytes that stand for a character are those that it is written as. -/
theorem CharBytes.eq_utf8EncodeChar {bytes : Bytes} {n : Nat} (h : CharBytes bytes n) :
    bytes = String.utf8EncodeChar (Char.ofNat n) := by
  unfold String.utf8EncodeChar
  simp only [show (Char.ofNat n).val.toNat = (Char.ofNat n).toNat from rfl]
  cases h with
  | one a ha =>
    rw [toNat_charOfNat (by omega), if_pos (by omega), UInt8.ofNat_toNat]
  | two a b low high hb =>
    unfold Tail at hb
    rw [toNat_charOfNat (by omega), if_neg (by omega), if_pos (by omega)]
    simp only [List.cons.injEq, ← UInt8.toNat_inj, and_true]
    rw [Bytes.toNat_ofNat_byte (by omega), Bytes.toNat_ofNat_byte (by omega)]
    omega
  | three a b c low high hb hc least most =>
    unfold Tail at hb hc
    rw [toNat_charOfNat (by omega), if_neg (by omega), if_neg (by omega), if_pos (by omega)]
    simp only [List.cons.injEq, ← UInt8.toNat_inj, and_true]
    rw [Bytes.toNat_ofNat_byte (by omega), Bytes.toNat_ofNat_byte (by omega),
      Bytes.toNat_ofNat_byte (by omega)]
    omega
  | four a b c d low high hb hc hd least most =>
    unfold Tail at hb hc hd
    rw [toNat_charOfNat (by omega), if_neg (by omega), if_neg (by omega), if_neg (by omega)]
    simp only [List.cons.injEq, ← UInt8.toNat_inj, and_true]
    rw [Bytes.toNat_ofNat_byte (by omega), Bytes.toNat_ofNat_byte (by omega),
      Bytes.toNat_ofNat_byte (by omega), Bytes.toNat_ofNat_byte (by omega)]
    omega

/-! ## First bytes -/

theorem lead?_one {a : UInt8} (h : a.toNat < 0x80) : lead? a = some ⟨0, 0x80, 0xBF, a.toNat⟩ := by
  simp only [lead?, if_pos h]

theorem lead?_two {a : UInt8} (low : 0xC2 ≤ a.toNat) (high : a.toNat < 0xE0) :
    lead? a = some ⟨1, 0x80, 0xBF, a.toNat - 0xC0⟩ := by
  simp only [lead?]
  rw [if_neg (by omega), if_neg (by omega), if_pos high]

/-- The least byte that may come second in a character of three bytes, and the greatest. -/
def lowOfThree (a : UInt8) : UInt8 := if a.toNat = 0xE0 then 0xA0 else 0x80
def highOfThree (a : UInt8) : UInt8 := if a.toNat = 0xED then 0x9F else 0xBF

theorem lead?_three {a : UInt8} (low : 0xE0 ≤ a.toNat) (high : a.toNat < 0xF0) :
    lead? a = some ⟨2, lowOfThree a, highOfThree a, a.toNat - 0xE0⟩ := by
  simp only [lead?, lowOfThree, highOfThree]
  rw [if_neg (by omega), if_neg (by omega), if_neg (by omega)]
  by_cases h0 : a.toNat = 0xE0
  · simp [h0]
  · by_cases hd : a.toNat = 0xED
    · simp [hd]
    · simp [h0, hd, high]

/-- The least byte that may come second in a character of four bytes, and the greatest. -/
def lowOfFour (a : UInt8) : UInt8 := if a.toNat = 0xF0 then 0x90 else 0x80
def highOfFour (a : UInt8) : UInt8 := if a.toNat = 0xF4 then 0x8F else 0xBF

theorem lead?_four {a : UInt8} (low : 0xF0 ≤ a.toNat) (high : a.toNat < 0xF5) :
    lead? a = some ⟨3, lowOfFour a, highOfFour a, a.toNat - 0xF0⟩ := by
  simp only [lead?, lowOfFour, highOfFour]
  rw [if_neg (by omega), if_neg (by omega), if_neg (by omega), if_neg (by omega),
    if_neg (by omega), if_neg (by omega)]
  by_cases h0 : a.toNat = 0xF0
  · simp [h0]
  · by_cases h4 : a.toNat = 0xF4
    · simp [h4]
    · rw [if_neg h0, if_pos (by omega), if_neg h0, if_neg h4]

theorem lead?_none {a : UInt8} (h : 0x80 ≤ a.toNat ∧ a.toNat < 0xC2 ∨ 0xF5 ≤ a.toNat) :
    lead? a = none := by
  simp only [lead?]
  rcases h with h | h
  · rw [if_neg (by omega), if_pos h.2]
  · rw [if_neg (by omega), if_neg (by omega), if_neg (by omega), if_neg (by omega),
      if_neg (by omega), if_neg (by omega), if_neg (by omega), if_neg (by omega),
      if_neg (by omega)]

theorem lead?_owed {a : UInt8} (h : 0x80 ≤ a.toNat) {low high : UInt8} {bits : Nat} :
    lead? a ≠ some ⟨0, low, high, bits⟩ := by
  unfold lead?
  simp only
  split_ifs <;> simp
  omega

/-! ## Reading one character -/

/-- What is left of a character: how many bytes, what the first of them may be, and the number
that they add to. -/
inductive Finishes : Lead → Bytes → Nat → Prop where
  | last (low high b : UInt8) (bits : Nat) (hlow : low ≤ b) (hhigh : b ≤ high) :
      Finishes ⟨1, low, high, bits⟩ [b] (bits * 64 + (b.toNat - 0x80))
  | more (owed : Nat) (low high b : UInt8) (bits : Nat) (rest : Bytes) (n : Nat)
      (hlow : low ≤ b) (hhigh : b ≤ high)
      (h : Finishes ⟨owed + 1, 0x80, 0xBF, bits * 64 + (b.toNat - 0x80)⟩ rest n) :
      Finishes ⟨owed + 2, low, high, bits⟩ (b :: rest) n

theorem step_last {low high b : UInt8} {bits : Nat} {done : Bytes} (h : low ≤ b ∧ b ≤ high) :
    step (some ⟨done, ⟨1, low, high, bits⟩⟩) b =
      ([.char (Char.ofNat (bits * 64 + (b.toNat - 0x80)))], none) := by
  simp only [step, h, and_self, if_true]

theorem step_more {owed : Nat} {low high b : UInt8} {bits : Nat} {done : Bytes}
    (h : low ≤ b ∧ b ≤ high) :
    step (some ⟨done, ⟨owed + 2, low, high, bits⟩⟩) b =
      ([], some ⟨b :: done, ⟨owed + 1, 0x80, 0xBF, bits * 64 + (b.toNat - 0x80)⟩⟩) := by
  have howed : ¬ owed + 2 = 1 := by omega
  simp only [step, h, and_self, if_true, howed, if_false]
  rfl

theorem step_broken {owed : Nat} {low high b : UInt8} {bits : Nat} {done : Bytes}
    (h : ¬ (low ≤ b ∧ b ≤ high)) :
    .broken done.reverse ∈ (step (some ⟨done, ⟨owed, low, high, bits⟩⟩) b).1 := by
  simp only [step, h, if_false]
  exact List.mem_cons_self

theorem piecesFrom_cons (open? : Option Pending) (b : UInt8) (rest : Bytes) :
    piecesFrom open? (b :: rest) = (step open? b).1 ++ piecesFrom (step open? b).2 rest := by
  cases open? <;> rfl

/-- A character that has begun is read when the bytes that it owes follow. -/
theorem piecesFrom_finishes {promise : Lead} {bytes : Bytes} {n : Nat}
    (h : Finishes promise bytes n) (done rest : Bytes) :
    piecesFrom (some ⟨done, promise⟩) (bytes ++ rest) =
      .char (Char.ofNat n) :: piecesFrom none rest := by
  induction h generalizing done with
  | last low high b bits hlow hhigh =>
    rw [List.singleton_append, piecesFrom_cons, step_last ⟨hlow, hhigh⟩]
    rfl
  | more owed low high b bits more n hlow hhigh _ ih =>
    rw [List.cons_append, piecesFrom_cons, step_more ⟨hlow, hhigh⟩]
    exact ih (b :: done)

/-- All pieces are characters. -/
def Whole (pieces : List Piece) : Prop := ∀ piece ∈ pieces, ∃ c, piece = .char c

/-- A character that has begun and is not broken has the bytes that it owes behind it. -/
theorem finishes_of_whole {owed : Nat} {low high : UInt8} {bits : Nat} {done bytes : Bytes}
    (h : Whole (piecesFrom (some ⟨done, ⟨owed + 1, low, high, bits⟩⟩) bytes)) :
    ∃ front rest n, bytes = front ++ rest ∧ Finishes ⟨owed + 1, low, high, bits⟩ front n := by
  induction owed generalizing low high bits done bytes with
  | zero =>
    cases bytes with
    | nil => simpa [piecesFrom] using h _ List.mem_cons_self
    | cons b rest =>
      by_cases hb : low ≤ b ∧ b ≤ high
      · exact ⟨[b], rest, _, rfl, .last low high b bits hb.1 hb.2⟩
      · rw [piecesFrom_cons] at h
        simpa using h _ (List.mem_append_left _ (step_broken hb))
  | succ owed ih =>
    cases bytes with
    | nil => simpa [piecesFrom] using h _ List.mem_cons_self
    | cons b rest =>
      by_cases hb : low ≤ b ∧ b ≤ high
      · rw [piecesFrom_cons, step_more hb] at h
        obtain ⟨front, rest, n, rfl, hfin⟩ := ih h
        exact ⟨b :: front, rest, n, rfl, .more owed low high b bits front n hb.1 hb.2 hfin⟩
      · rw [piecesFrom_cons] at h
        simpa using h _ (List.mem_append_left _ (step_broken hb))

theorem tail_iff {b : UInt8} : 0x80 ≤ b ∧ b ≤ 0xBF ↔ Tail b := by
  simp only [UInt8.le_iff_toNat_le, Tail]
  exact and_congr_right fun _ => Nat.lt_succ_iff.symm

theorem range_three {a b : UInt8} : lowOfThree a ≤ b ∧ b ≤ highOfThree a ↔
    Tail b ∧ (a.toNat = 0xE0 → 0xA0 ≤ b.toNat) ∧ (a.toNat = 0xED → b.toNat < 0xA0) := by
  simp only [UInt8.le_iff_toNat_le, Tail, lowOfThree, highOfThree]
  by_cases h0 : a.toNat = 0xE0
  · simp [h0]
    omega
  · by_cases hd : a.toNat = 0xED
    · simp [hd]
      omega
    · simp [h0, hd]
      omega

theorem range_four {a b : UInt8} : lowOfFour a ≤ b ∧ b ≤ highOfFour a ↔
    Tail b ∧ (a.toNat = 0xF0 → 0x90 ≤ b.toNat) ∧ (a.toNat = 0xF4 → b.toNat < 0x90) := by
  simp only [UInt8.le_iff_toNat_le, Tail, lowOfFour, highOfFour]
  by_cases h0 : a.toNat = 0xF0
  · simp [h0]
    omega
  · by_cases h4 : a.toNat = 0xF4
    · simp [h4]
      omega
    · simp [h0, h4]
      omega

/-- The bytes of a character are read as that character, whatever follows. -/
theorem piecesFrom_charBytes {bytes : Bytes} {n : Nat} (h : CharBytes bytes n) (rest : Bytes) :
    piecesFrom none (bytes ++ rest) = .char (Char.ofNat n) :: piecesFrom none rest := by
  cases h with
  | one a ha =>
    simp only [List.singleton_append, piecesFrom_cons, step, start, lead?_one ha, if_true]
  | two a b low high hb =>
    obtain ⟨hlow, hhigh⟩ := tail_iff.mpr hb
    have hfin := Finishes.last 0x80 0xBF b (a.toNat - 0xC0) hlow hhigh
    simp only [List.cons_append, piecesFrom_cons none, step, start, lead?_two low high,
      Nat.one_ne_zero, if_false]
    exact piecesFrom_finishes hfin [a] rest
  | three a b c low high hb hc least most =>
    obtain ⟨hlow, hhigh⟩ := range_three.mpr ⟨hb, least, most⟩
    obtain ⟨hlow', hhigh'⟩ := tail_iff.mpr hc
    have hfin := Finishes.more 0 _ _ b (a.toNat - 0xE0) [c] _ hlow hhigh
      (.last 0x80 0xBF c _ hlow' hhigh')
    simp only [List.cons_append, piecesFrom_cons none, step, start, lead?_three low high,
      OfNat.ofNat_ne_zero, if_false]
    exact piecesFrom_finishes hfin [a] rest
  | four a b c d low high hb hc hd least most =>
    obtain ⟨hlow, hhigh⟩ := range_four.mpr ⟨hb, least, most⟩
    obtain ⟨hlow', hhigh'⟩ := tail_iff.mpr hc
    obtain ⟨hlow'', hhigh''⟩ := tail_iff.mpr hd
    have hfin := Finishes.more 1 _ _ b (a.toNat - 0xF0) [c, d] _ hlow hhigh
      (.more 0 0x80 0xBF c _ [d] _ hlow' hhigh' (.last 0x80 0xBF d _ hlow'' hhigh''))
    simp only [List.cons_append, piecesFrom_cons none, step, start, lead?_four low high,
      OfNat.ofNat_ne_zero, if_false]
    exact piecesFrom_finishes hfin [a] rest

/-- A first byte and the bytes that it owes stand for a character. -/
theorem charBytes_of_finishes {a : UInt8} {promise : Lead} {bytes : Bytes} {n : Nat}
    (ha : lead? a = some promise) (h : Finishes promise bytes n) : CharBytes (a :: bytes) n := by
  rcases Nat.lt_or_ge a.toNat 0x80 with h1 | h1
  · rw [lead?_one h1] at ha
    cases ha
    cases h
  rcases Nat.lt_or_ge a.toNat 0xC2 with h2 | h2
  · rw [lead?_none (.inl ⟨h1, h2⟩)] at ha
    cases ha
  rcases Nat.lt_or_ge a.toNat 0xE0 with h3 | h3
  · rw [lead?_two h2 h3] at ha
    cases ha
    cases h with
    | last low high b bits hlow hhigh => exact .two a b h2 h3 (tail_iff.mp ⟨hlow, hhigh⟩)
  rcases Nat.lt_or_ge a.toNat 0xF0 with h4 | h4
  · rw [lead?_three h3 h4] at ha
    cases ha
    cases h with
    | more owed low high b bits rest n hlow hhigh h =>
      obtain ⟨hb, least, most⟩ := range_three.mp ⟨hlow, hhigh⟩
      cases h with
      | last low high c bits hlow hhigh =>
        exact .three a b c h3 h4 hb (tail_iff.mp ⟨hlow, hhigh⟩) least most
  rcases Nat.lt_or_ge a.toNat 0xF5 with h5 | h5
  · rw [lead?_four h4 h5] at ha
    cases ha
    cases h with
    | more owed low high b bits rest n hlow hhigh h =>
      obtain ⟨hb, least, most⟩ := range_four.mp ⟨hlow, hhigh⟩
      cases h with
      | more owed low high c bits rest n hlow hhigh h =>
        cases h with
        | last low' high' d bits hlow' hhigh' =>
          exact .four a b c d h4 h5 hb (tail_iff.mp ⟨hlow, hhigh⟩) (tail_iff.mp ⟨hlow', hhigh'⟩)
            least most
  · rw [lead?_none (.inr h5)] at ha
    cases ha

/-- What is read as characters only has the bytes of a character at its front. -/
theorem charBytes_of_whole {a : UInt8} {bytes : Bytes} (h : Whole (piecesFrom none (a :: bytes))) :
    ∃ front rest n, bytes = front ++ rest ∧ CharBytes (a :: front) n := by
  rw [piecesFrom_cons] at h
  cases ha : lead? a with
  | none =>
    simp only [step, start, ha] at h
    simpa using h _ List.mem_cons_self
  | some promise =>
    obtain ⟨owed, low, high, bits⟩ := promise
    cases owed with
    | zero =>
      rcases Nat.lt_or_ge a.toNat 0x80 with h1 | h1
      · exact ⟨[], bytes, _, rfl, .one a h1⟩
      · exact absurd ha (lead?_owed h1)
    | succ owed =>
      simp only [step, start, ha, Nat.succ_ne_zero, if_false, List.nil_append] at h
      obtain ⟨front, rest, n, rfl, hfin⟩ := finishes_of_whole h
      exact ⟨front, rest, n, rfl, charBytes_of_finishes ha hfin⟩

/-! ## Reading a whole text -/

theorem ofText_eq (text : String) :
    Bytes.ofText text = text.toList.flatMap String.utf8EncodeChar := by
  obtain ⟨chars, rfl⟩ : ∃ chars, text = String.ofList chars :=
    ⟨text.toList, String.ofList_toList.symm⟩
  simp [Bytes.ofText, String.toUTF8, List.utf8Encode]

theorem pieces_flatMap (chars : List Char) :
    pieces (chars.flatMap String.utf8EncodeChar) = chars.map .char := by
  unfold pieces
  induction chars with
  | nil => rfl
  | cons c chars ih =>
    rw [List.flatMap_cons, piecesFrom_charBytes (charBytes_utf8EncodeChar c), Char.ofNat_toNat, ih,
      List.map_cons]

/-- What is read as characters only is what these characters are written as. -/
theorem eq_flatMap_of_pieces {bytes : Bytes} {chars : List Char}
    (h : pieces bytes = chars.map .char) : bytes = chars.flatMap String.utf8EncodeChar := by
  unfold pieces at h
  induction chars generalizing bytes with
  | nil =>
    cases bytes with
    | nil => rfl
    | cons a bytes =>
      have hwhole : Whole (piecesFrom none (a :: bytes)) := by simp [Whole, h]
      obtain ⟨front, rest, n, rfl, hn⟩ := charBytes_of_whole hwhole
      rw [← List.cons_append, piecesFrom_charBytes hn] at h
      cases h
  | cons c chars ih =>
    cases bytes with
    | nil => cases h
    | cons a bytes =>
      have hwhole : Whole (piecesFrom none (a :: bytes)) := by simp [Whole, h]
      obtain ⟨front, rest, n, rfl, hn⟩ := charBytes_of_whole hwhole
      rw [← List.cons_append, piecesFrom_charBytes hn, List.map_cons, List.cons.injEq,
        Piece.char.injEq] at h
      rw [← List.cons_append, List.flatMap_cons, ← h.1, ← hn.eq_utf8EncodeChar, ih h.2]

/-- A byte string is read as a text exactly when the text is written so. -/
theorem decode?_eq_some_iff {bytes : Bytes} {text : String} :
    decode? bytes = some text ↔ bytes = Bytes.ofText text := by
  rw [ofText_eq]
  unfold decode?
  simp only [Option.map_eq_some_iff]
  constructor
  · rintro ⟨chars, hchars, rfl⟩
    rw [mapM_eq_some_iff] at hchars
    rw [String.toList_ofList]
    apply eq_flatMap_of_pieces
    generalize pieces bytes = all at hchars ⊢
    induction hchars with
    | nil => rfl
    | @cons piece c pieces chars hpiece _ ih =>
      cases piece with
      | char c' =>
        obtain rfl : c' = c := Option.some.inj hpiece
        rw [ih, List.map_cons]
      | broken bytes => cases hpiece
  · rintro rfl
    refine ⟨text.toList, ?_, String.ofList_toList⟩
    rw [pieces_flatMap, mapM_eq_some_iff, List.forall₂_map_left_iff]
    exact List.forall₂_same.mpr fun c _ => rfl

end Utf8

end ProcessTree
