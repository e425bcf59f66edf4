-- Numerals in any base: what they are made of, which number they stand for, and
-- that the digits of a number are read back as that number.
import Mathlib
import ProcessTree.Text.Numeral

namespace ProcessTree.Numeral

variable {base : Nat}

/-! ## Digits -/

/-- A digit is a character of seven bits, and no sign. -/
theorem bounds_of_digit? {c : Char} {value : Nat} (h : digit? base c = some value) :
    c.toNat < 128 ∧ c ≠ '+' := by
  have hcode : 48 ≤ c.toNat ∧ c.toNat < 128 := by
    unfold digit? at h
    obtain ⟨hvalue, -⟩ := Option.filter_eq_some_iff.mp h
    split at hvalue
    · omega
    · split at hvalue
      · omega
      · split at hvalue
        · omega
        · cases hvalue
  refine ⟨hcode.2, ?_⟩
  rintro rfl
  exact absurd hcode.1 (by decide)

theorem digit?_digitChar {d : Nat} (h : d < base) (hbase : base ≤ 16) :
    digit? base (Nat.digitChar d) = some d := by
  have hvalue : digit? 16 (Nat.digitChar d) = some d := by
    have hd : d < 16 := by omega
    interval_cases d <;> rfl
  unfold digit? at hvalue ⊢
  rw [Option.filter_eq_some_iff] at hvalue ⊢
  exact ⟨hvalue.1, by simpa using h⟩

theorem exists_digitChar (hbase : 1 < base) {n : Nat} {c : Char} (h : c ∈ Nat.toDigits base n) :
    ∃ d < base, c = Nat.digitChar d := by
  induction n using Nat.strongRecOn with
  | ind n ih =>
    rw [Nat.toDigits_eq_if hbase] at h
    by_cases hn : n < base
    · rw [if_pos hn, List.mem_singleton] at h
      exact ⟨n, hn, h⟩
    · rw [if_neg hn, List.mem_append, List.mem_singleton] at h
      rcases h with h | h
      · exact ih (n / base) (Nat.div_lt_self (by omega) hbase) h
      · exact ⟨n % base, Nat.mod_lt n (by omega), h⟩

theorem bounds_of_mem_toDigits (hbase : 1 < base) (hmost : base ≤ 16) {n : Nat} {c : Char}
    (h : c ∈ Nat.toDigits base n) : c.toNat < 128 ∧ c ≠ '+' := by
  obtain ⟨d, hd, rfl⟩ := exists_digitChar hbase h
  exact bounds_of_digit? (digit?_digitChar hd hmost)

/-! ## Digit strings -/

theorem digitsFrom?_append (n : Nat) (front back : List Char) :
    digitsFrom? base n (front ++ back) =
      (digitsFrom? base n front).bind (digitsFrom? base · back) := by
  induction front generalizing n with
  | nil => rfl
  | cons c front ih =>
    simp only [List.cons_append, digitsFrom?]
    cases digit? base c with
    | none => rfl
    | some d => exact ih (n * base + d)

/-- Digits are read from the first to the last. -/
theorem digitsFrom?_eq_some_iff {chars : List Char} {start n : Nat} :
    digitsFrom? base start chars = some n ↔
      ∃ values, List.Forall₂ (fun c value => digit? base c = some value) chars values ∧
        n = values.foldl (fun n value => n * base + value) start := by
  induction chars generalizing start with
  | nil => simp [digitsFrom?, eq_comm]
  | cons c chars ih =>
    unfold digitsFrom?
    cases hc : digit? base c with
    | none => simp [List.forall₂_cons_left_iff, hc]
    | some value =>
      simp only
      rw [ih]
      constructor
      · rintro ⟨values, hvalues, rfl⟩
        exact ⟨value :: values, .cons hc hvalues, rfl⟩
      · rintro ⟨values, hvalues, rfl⟩
        obtain ⟨value', values', hc', hvalues', rfl⟩ := List.forall₂_cons_left_iff.mp hvalues
        rw [hc, Option.some.injEq] at hc'
        subst hc'
        exact ⟨values', hvalues', rfl⟩

theorem foldl_eq_ofDigits (values : List Nat) :
    values.foldl (fun n value => n * base + value) 0 = Nat.ofDigits base values.reverse := by
  rw [Nat.ofDigits_eq_foldr, List.foldr_reverse]
  simp [Nat.mul_comm, Nat.add_comm]

/-- The number of a digit string is the one that its digits have by their places. -/
theorem digits?_eq_some_iff_ofDigits {chars : List Char} {n : Nat} :
    digits? base chars = some n ↔ chars ≠ [] ∧
      ∃ values, List.Forall₂ (fun c value => digit? base c = some value) chars values ∧
        n = Nat.ofDigits base values.reverse := by
  unfold digits?
  by_cases hnil : chars = []
  · simp [hnil]
  · rw [if_neg (by simpa using hnil), digitsFrom?_eq_some_iff]
    simp only [foldl_eq_ofDigits]
    exact ⟨fun h => ⟨hnil, h⟩, fun h => h.2⟩

theorem bounds_of_digits? {chars : List Char} {n : Nat} (h : digits? base chars = some n) :
    chars ≠ [] ∧ ∀ c ∈ chars, c.toNat < 128 ∧ c ≠ '+' := by
  obtain ⟨hnil, values, hvalues, -⟩ := digits?_eq_some_iff_ofDigits.mp h
  refine ⟨hnil, ?_⟩
  clear h hnil
  induction hvalues with
  | nil => simp
  | cons hvalue _ ih =>
    rw [List.forall_mem_cons]
    exact ⟨bounds_of_digit? hvalue, ih⟩

/-- The last digit comes off the end, and the digits before it are those of a smaller number. -/
theorem digitsFrom?_toDigits (hbase : 1 < base) (hmost : base ≤ 16) (n : Nat) :
    digitsFrom? base 0 (Nat.toDigits base n) = some n := by
  induction n using Nat.strongRecOn with
  | ind n ih =>
    rw [Nat.toDigits_eq_if hbase]
    by_cases hn : n < base
    · rw [if_pos hn]
      simp [digitsFrom?, digit?_digitChar hn hmost]
    · have hlast : n % base < base := Nat.mod_lt n (by omega)
      rw [if_neg hn, digitsFrom?_append, ih (n / base) (Nat.div_lt_self (by omega) hbase)]
      simp only [Option.bind_some, digitsFrom?, digit?_digitChar hlast hmost]
      rw [Nat.div_add_mod']

theorem digits?_toDigits (hbase : 1 < base) (hmost : base ≤ 16) (n : Nat) :
    digits? base (Nat.toDigits base n) = some n := by
  unfold digits?
  rw [if_neg (by simp)]
  exact digitsFrom?_toDigits hbase hmost n

/-! ## Numerals -/

/-- A numeral is its digits, behind a sign that may be there. -/
theorem read?_eq_some_iff {chars : List Char} {most n : Nat} :
    read? base most chars = some n ↔
      (∃ sign digits, chars = sign ++ digits ∧ (sign = [] ∨ sign = ['+']) ∧
        digits? base digits = some n) ∧ n ≤ most := by
  unfold read?
  rw [Option.filter_eq_some_iff, decide_eq_true_eq]
  refine and_congr_left fun _ => ?_
  constructor
  · intro h
    split at h
    · rename_i rest
      exact ⟨['+'], rest, rfl, Or.inr rfl, h⟩
    · exact ⟨[], chars, rfl, Or.inl rfl, h⟩
  · rintro ⟨sign, digits, rfl, rfl | rfl, hdigits⟩
    · obtain ⟨-, hbounds⟩ := bounds_of_digits? hdigits
      split
      · rename_i rest heq
        -- The sign is no digit, so nothing was taken off the front.
        rw [List.nil_append] at heq
        subst heq
        exact absurd rfl (hbounds '+' List.mem_cons_self).2
      · exact hdigits
    · exact hdigits

/-- The digits of a number are read as that number, and as nothing where it is too great. -/
theorem read?_toDigits (hbase : 1 < base) (hmost : base ≤ 16) (most n : Nat) :
    read? base most (Nat.toDigits base n) = if n ≤ most then some n else none := by
  have hdigits := digits?_toDigits hbase hmost n
  -- No other number is read from these digits, whatever sign is looked for.
  have hread (m : Nat) : read? base most (Nat.toDigits base n) = some m ↔ m = n ∧ n ≤ most := by
    rw [read?_eq_some_iff]
    constructor
    · rintro ⟨⟨sign, digits, heq, rfl | rfl, hm⟩, hle⟩
      · rw [List.nil_append] at heq
        rw [← heq, hdigits, Option.some.injEq] at hm
        subst hm
        exact ⟨rfl, hle⟩
      · have hplus : '+' ∈ Nat.toDigits base n := by
          rw [heq]
          exact List.mem_cons_self
        exact absurd rfl (bounds_of_mem_toDigits hbase hmost hplus).2
    · rintro ⟨rfl, hle⟩
      exact ⟨⟨[], _, rfl, Or.inl rfl, hdigits⟩, hle⟩
  split
  · rename_i hle
    exact (hread n).mpr ⟨rfl, hle⟩
  · rename_i hgt
    rw [Option.eq_none_iff_forall_ne_some]
    exact fun m hm => hgt ((hread m).mp hm).2

/-! ## Decimal numbers -/

/-- A character is a decimal digit of this value. -/
def DecimalDigit (c : Char) (value : Nat) : Prop := value < 10 ∧ c.toNat = 0x30 + value

/-- Characters are the decimal digits of a number, at least one. -/
def DecimalDigits (chars : List Char) (n : Nat) : Prop :=
  chars ≠ [] ∧
    ∃ values, List.Forall₂ DecimalDigit chars values ∧ n = Nat.ofDigits 10 values.reverse

/-- Characters are a decimal number: at least one digit, with or without a plus sign. -/
def Decimal (chars : List Char) (n : Nat) : Prop :=
  ∃ sign digits values, chars = sign ++ digits ∧ (sign = [] ∨ sign = ['+']) ∧ digits ≠ [] ∧
    List.Forall₂ DecimalDigit digits values ∧ n = Nat.ofDigits 10 values.reverse

theorem digit?_eq_some_iff_decimalDigit {c : Char} {value : Nat} :
    digit? 10 c = some value ↔ DecimalDigit c value := by
  unfold digit? DecimalDigit
  rw [Option.filter_eq_some_iff, decide_eq_true_eq]
  constructor
  · rintro ⟨hvalue, hlt⟩
    split at hvalue
    · cases hvalue
      omega
    · split at hvalue
      · cases hvalue
        omega
      · split at hvalue
        · cases hvalue
          omega
        · cases hvalue
  · rintro ⟨hlt, hcode⟩
    rw [if_pos (by omega)]
    exact ⟨congrArg some (by omega), hlt⟩

theorem digits?_eq_some_iff_decimalDigits {chars : List Char} {n : Nat} :
    digits? 10 chars = some n ↔ DecimalDigits chars n := by
  have hdigit : (fun c value => digit? 10 c = some value) = DecimalDigit := by
    funext c value
    exact propext digit?_eq_some_iff_decimalDigit
  rw [digits?_eq_some_iff_ofDigits, hdigit]
  rfl

theorem read?_eq_some_iff_decimal {chars : List Char} {most n : Nat} :
    read? 10 most chars = some n ↔ Decimal chars n ∧ n ≤ most := by
  rw [read?_eq_some_iff]
  refine and_congr_left fun _ => ?_
  simp only [digits?_eq_some_iff_decimalDigits]
  constructor
  · rintro ⟨sign, digits, hchars, hsign, hnil, values, hvalues, hn⟩
    exact ⟨sign, digits, values, hchars, hsign, hnil, hvalues, hn⟩
  · rintro ⟨sign, digits, values, hchars, hsign, hnil, hvalues, hn⟩
    exact ⟨sign, digits, hchars, hsign, hnil, values, hvalues, hn⟩

/-- Digits stand for one number. -/
theorem DecimalDigits.unique {chars : List Char} {n n' : Nat} (h : DecimalDigits chars n)
    (h' : DecimalDigits chars n') : n = n' := by
  rw [← digits?_eq_some_iff_decimalDigits] at h h'
  exact Option.some.inj (h.symm.trans h')

theorem decimalDigits_decimal (n : Nat) : DecimalDigits (decimal n).toList n := by
  rw [decimal, String.toList_ofList, ← digits?_eq_some_iff_decimalDigits]
  exact digits?_toDigits (by omega) (by omega) n

/-- The digits of a number are nothing but digits. -/
theorem isDigit_of_mem_decimal {n : Nat} {c : Char} (h : c ∈ (decimal n).toList) :
    c.isDigit = true := by
  rw [decimal, String.toList_ofList] at h
  exact Nat.isDigit_of_mem_toDigits (by omega) (by omega) h

end ProcessTree.Numeral
