-- What people write where a number is asked for: blanks (the Unicode property
-- White_Space) around an unsigned numeral, which is an optional plus sign and at
-- least one digit.
namespace ProcessTree

/-! ## Blanks -/

namespace Text

/-- The characters that count as blank. -/
def isBlank (c : Char) : Bool :=
  let n := c.toNat
  (0x09 ≤ n && n ≤ 0x0D) || n = 0x20 || n = 0x85 || n = 0xA0 || n = 0x1680 ||
    (0x2000 ≤ n && n ≤ 0x200A) || n = 0x2028 || n = 0x2029 || n = 0x202F || n = 0x205F ||
    n = 0x3000

theorem isBlank_of_isWhitespace (c : Char) (h : c.isWhitespace = true) : isBlank c = true := by
  have h' : c = ' ' ∨ c = '\t' ∨ c = '\r' ∨ c = '\n' := by
    simpa [Char.isWhitespace, or_assoc] using h
  rcases h' with h | h | h | h <;> subst h <;> decide

/-- The characters without the blanks at both ends. -/
def trimmed (chars : List Char) : List Char :=
  ((chars.dropWhile isBlank).reverse.dropWhile isBlank).reverse

end Text

/-! ## Numerals -/

namespace Numeral

/-- The value of a digit, letters of both cases included, when it is one of the base. -/
def digit? (base : Nat) (c : Char) : Option Nat :=
  let n := c.toNat
  let value :=
    if 48 ≤ n ∧ n ≤ 57 then some (n - 48)
    else if 97 ≤ n ∧ n ≤ 122 then some (n - 87)
    else if 65 ≤ n ∧ n ≤ 90 then some (n - 55)
    else none
  value.filter (· < base)

/-- The value of digits read on from `n`, `none` when a character is no digit. -/
def digitsFrom? (base : Nat) : Nat → List Char → Option Nat
  | n, [] => some n
  | n, c :: rest =>
    match digit? base c with
    | some d => digitsFrom? base (n * base + d) rest
    | none => none

/-- The value of a digit string with at least one digit. -/
def digits? (base : Nat) (chars : List Char) : Option Nat :=
  if chars.isEmpty then none else digitsFrom? base 0 chars

/-- The value of a numeral that is at most `most`. -/
def read? (base most : Nat) (chars : List Char) : Option Nat :=
  let digits := match chars with
    | '+' :: rest => rest
    | _ => chars
  (digits? base digits).filter (· ≤ most)

/-- The lower-case hexadecimal digits of a number, without leading zeros. -/
def hex (n : Nat) : String := String.ofList (Nat.toDigits 16 n)

/-- The decimal digits of a number, without leading zeros. -/
def decimal (n : Nat) : String := String.ofList (Nat.toDigits 10 n)

/-- The greatest number of 32 bits. -/
def word32 : Nat := 4294967295

/-- The greatest number of 64 bits. -/
def word64 : Nat := 18446744073709551615

end Numeral

end ProcessTree
