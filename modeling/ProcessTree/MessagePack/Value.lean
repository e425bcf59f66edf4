-- MessagePack values and how they are read. A first byte announces what follows;
-- arrays, maps and extensions count as one level of nesting each, and only so
-- many levels are read.
import ProcessTree.Bytes

namespace ProcessTree.MessagePack

/-- A MessagePack value. The width of a number or of a length is not part of it; whether an
integer was announced as unsigned or as signed is. -/
inductive Value where
  | nil
  | bool (b : Bool)
  | uint (n : Nat)
  | int (n : Int)
  /-- The four or eight bytes of a floating-point number. -/
  | float (bytes : Bytes)
  | str (bytes : Bytes)
  | bin (bytes : Bytes)
  | array (items : List Value)
  | map (entries : List (Value × Value))
  | ext (type : UInt8) (data : Bytes)
  deriving Repr, Inhabited

/-! ## First bytes -/

/-- How long something is: known from the first byte, or told by the next `width` bytes. -/
inductive Length where
  | known (n : Nat)
  | told (width : Nat)
  deriving DecidableEq, Repr

/-- What a first byte announces. -/
inductive Marker where
  /-- The value is complete. -/
  | whole (value : Value)
  | uint (width : Nat)
  | int (width : Nat)
  | float (width : Nat)
  | str (length : Length)
  | bin (length : Length)
  | array (length : Length)
  | map (length : Length)
  | ext (length : Length)
  /-- The byte announces nothing. -/
  | reserved

/-- What a first byte announces. -/
def Marker.ofByte (b : UInt8) : Marker :=
  let n := b.toNat
  if n < 0x80 then .whole (.uint n)
  else if n < 0x90 then .map (.known (n - 0x80))
  else if n < 0xA0 then .array (.known (n - 0x90))
  else if n < 0xC0 then .str (.known (n - 0xA0))
  else if 0xE0 ≤ n then .whole (.int (n - 256))
  else match n with
    | 0xC0 => .whole .nil
    | 0xC2 => .whole (.bool false)
    | 0xC3 => .whole (.bool true)
    | 0xC4 => .bin (.told 1)
    | 0xC5 => .bin (.told 2)
    | 0xC6 => .bin (.told 4)
    | 0xC7 => .ext (.told 1)
    | 0xC8 => .ext (.told 2)
    | 0xC9 => .ext (.told 4)
    | 0xCA => .float 4
    | 0xCB => .float 8
    | 0xCC => .uint 1
    | 0xCD => .uint 2
    | 0xCE => .uint 4
    | 0xCF => .uint 8
    | 0xD0 => .int 1
    | 0xD1 => .int 2
    | 0xD2 => .int 4
    | 0xD3 => .int 8
    | 0xD4 => .ext (.known 1)
    | 0xD5 => .ext (.known 2)
    | 0xD6 => .ext (.known 4)
    | 0xD7 => .ext (.known 8)
    | 0xD8 => .ext (.known 16)
    | 0xD9 => .str (.told 1)
    | 0xDA => .str (.told 2)
    | 0xDB => .str (.told 4)
    | 0xDC => .array (.told 2)
    | 0xDD => .array (.told 4)
    | 0xDE => .map (.told 2)
    | 0xDF => .map (.told 4)
    | _ => .reserved

/-! ## Reading -/

/-- A reader takes a value off the front of a byte string. -/
abbrev Reader (α : Type) := Bytes → Option (α × Bytes)

/-- Reads a length. -/
def Length.read : Length → Reader Nat
  | .known n, bytes => some (n, bytes)
  | .told width, bytes =>
    match bytes.split? width with
    | some (head, rest) => some (head.toNat, rest)
    | none => none

/-- Reads a length and as many bytes. -/
def Length.readBytes (length : Length) : Reader Bytes := fun bytes =>
  match length.read bytes with
  | some (n, rest) => rest.split? n
  | none => none

/-- The signed number that `width` bytes stand for, in two's complement. -/
def signed (width : Nat) (bytes : Bytes) : Int :=
  let n := bytes.toNat
  if 2 * n < Bytes.span width then n else (n : Int) - Bytes.span width

/-- Reads `n` things one after the other onto `done`, which has the latest first. -/
def readOnto {α : Type} (one : Reader α) : Nat → List α → Reader (List α)
  | 0, done, bytes => some (done.reverse, bytes)
  | n + 1, done, bytes =>
    match one bytes with
    | some (a, rest) => readOnto one n (a :: done) rest
    | none => none

/-- Reads `n` things one after the other. -/
def readMany {α : Type} (one : Reader α) (n : Nat) : Reader (List α) := readOnto one n []

/-- Reads two things one after the other. -/
def readPair {α : Type} (one : Reader α) : Reader (α × α) := fun bytes =>
  match one bytes with
  | none => none
  | some (a, rest) =>
    match one rest with
    | none => none
    | some (b, rest') => some ((a, b), rest')

/-- Reads what a first byte announced; `inner?` reads the values inside, if another level may be
entered. -/
def readAnnounced (inner? : Option (Reader Value)) : Marker → Reader Value
  | .whole value, bytes => some (value, bytes)
  | .uint width, bytes =>
    (bytes.split? width).map fun (head, rest) => (.uint head.toNat, rest)
  | .int width, bytes =>
    (bytes.split? width).map fun (head, rest) => (.int (signed width head), rest)
  | .float width, bytes => (bytes.split? width).map fun (head, rest) => (.float head, rest)
  | .str length, bytes => (length.readBytes bytes).map fun (text, rest) => (.str text, rest)
  | .bin length, bytes => (length.readBytes bytes).map fun (data, rest) => (.bin data, rest)
  | .array length, bytes =>
    match inner?, length.read bytes with
    | some inner, some (n, rest) =>
      (readMany inner n rest).map fun (items, rest') => (.array items, rest')
    | _, _ => none
  | .map length, bytes =>
    match inner?, length.read bytes with
    | some inner, some (n, rest) =>
      (readMany (readPair inner) n rest).map fun (entries, rest') => (.map entries, rest')
    | _, _ => none
  | .ext length, bytes =>
    match inner?, length.read bytes with
    | some _, some (n, type :: rest) =>
      (Bytes.split? n rest).map fun (data, rest') => (.ext type data, rest')
    | _, _ => none
  | .reserved, _ => none

/-- Reads one value, first byte included. -/
def readWith (inner? : Option (Reader Value)) : Reader Value
  | [] => none
  | b :: rest => readAnnounced inner? (Marker.ofByte b) rest

/-- Reads one value that nests at most `levels` deep. -/
def readNested : Nat → Reader Value
  | 0 => readWith none
  | levels + 1 => readWith (some (readNested levels))

/-- How deep a value may nest. -/
def maxLevels : Nat := 1023

/-- Reads one value. -/
def read : Reader Value := readNested maxLevels

end ProcessTree.MessagePack
