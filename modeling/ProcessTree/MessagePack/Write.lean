-- Writing MessagePack values, each number and length in the fewest bytes.
import ProcessTree.MessagePack.Value

namespace ProcessTree.MessagePack

/-- The least width among `widths` that holds `n`, with its place; the last one otherwise. -/
def leastWidth (n : Nat) : List (UInt8 × Nat) → UInt8 × Nat
  | [] => (0, 0)
  | [last] => last
  | (marker, width) :: rest => if n < Bytes.span width then (marker, width) else leastWidth n rest

/-- A marker followed by a number in the least width that holds it. -/
def writeSized (n : Nat) (widths : List (UInt8 × Nat)) : Bytes :=
  let (marker, width) := leastWidth n widths
  marker :: Bytes.ofNat width n

/-- Writes an unsigned number. -/
def writeUint (n : Nat) : Bytes :=
  if n < 0x80 then [UInt8.ofNat n]
  else writeSized n [(0xCC, 1), (0xCD, 2), (0xCE, 4), (0xCF, 8)]

/-- Writes a negative number. -/
def writeNegative (n : Int) : Bytes :=
  if -32 ≤ n then [UInt8.ofNat (n + 256).toNat]
  else if -0x80 ≤ n then 0xD0 :: Bytes.ofNat 1 (n + Bytes.span 1).toNat
  else if -0x8000 ≤ n then 0xD1 :: Bytes.ofNat 2 (n + Bytes.span 2).toNat
  else if -0x80000000 ≤ n then 0xD2 :: Bytes.ofNat 4 (n + Bytes.span 4).toNat
  else 0xD3 :: Bytes.ofNat 8 (n + Bytes.span 8).toNat

/-- Writes a number, as unsigned unless it is negative. -/
def writeInt (n : Int) : Bytes := if 0 ≤ n then writeUint n.toNat else writeNegative n

/-- The start of a text of `n` bytes. -/
def strHead (n : Nat) : Bytes :=
  if n < 32 then [UInt8.ofNat (0xA0 + n)] else writeSized n [(0xD9, 1), (0xDA, 2), (0xDB, 4)]

/-- The start of a byte string of `n` bytes. -/
def binHead (n : Nat) : Bytes := writeSized n [(0xC4, 1), (0xC5, 2), (0xC6, 4)]

/-- The start of an array of `n` items. -/
def arrayHead (n : Nat) : Bytes :=
  if n < 16 then [UInt8.ofNat (0x90 + n)] else writeSized n [(0xDC, 2), (0xDD, 4)]

/-- The start of a map of `n` entries. -/
def mapHead (n : Nat) : Bytes :=
  if n < 16 then [UInt8.ofNat (0x80 + n)] else writeSized n [(0xDE, 2), (0xDF, 4)]

/-- The start of an extension of `n` bytes. -/
def extHead (n : Nat) : Bytes := writeSized n [(0xC7, 1), (0xC8, 2), (0xC9, 4)]

mutual

/-- Writes a value. -/
def Value.write : Value → Bytes
  | .nil => [0xC0]
  | .bool false => [0xC2]
  | .bool true => [0xC3]
  | .uint n => writeUint n
  | .int n => writeInt n
  | .float bytes => (if bytes.length = 4 then 0xCA else 0xCB) :: bytes
  | .str bytes => strHead bytes.length ++ bytes
  | .bin bytes => binHead bytes.length ++ bytes
  | .array items => arrayHead items.length ++ writeItems items
  | .map entries => mapHead entries.length ++ writeEntries entries
  | .ext type data => extHead data.length ++ type :: data

/-- Writes values one after the other. -/
def writeItems : List Value → Bytes
  | [] => []
  | item :: rest => item.write ++ writeItems rest

/-- Writes entries one after the other, each key before its value. -/
def writeEntries : List (Value × Value) → Bytes
  | [] => []
  | (key, value) :: rest => key.write ++ value.write ++ writeEntries rest

end

end ProcessTree.MessagePack
