-- What a program's data looks like as MessagePack: records with named fields,
-- names out of a closed set, and integers of a range.
import ProcessTree.MessagePack.Write

namespace ProcessTree.MessagePack

/-- A text as a value. -/
def Value.ofText (text : String) : Value := .str (Bytes.ofText text)

/-- An integer as a value. -/
def Value.ofInt (n : Int) : Value := if 0 ≤ n then .uint n.toNat else .int n

/-- A record as a value: its fields by name, in their order. -/
def Value.ofFields (fields : List (String × Value)) : Value :=
  .map (fields.map fun (name, value) => (.ofText name, value))

/-- The items as values. -/
def Value.ofList (items : List Value) : Value := .array items

/-! ## Scalars -/

/-- The integer that a value stands for, of whatever width and sign, when it is in the range. -/
def Value.int? (least most : Int) : Value → Option Int
  | .uint n => if least ≤ n ∧ (n : Int) ≤ most then some n else none
  | .int n => if least ≤ n ∧ n ≤ most then some n else none
  | _ => none

/-- The signed number of 32 bits that a value stands for. -/
def Value.int32? (v : Value) : Option Int32 :=
  (v.int? (-2147483648) 2147483647).map Int32.ofInt

/-- The unsigned number of 32 bits that a value stands for. -/
def Value.uint32? (v : Value) : Option UInt32 :=
  (v.int? 0 4294967295).map fun n => UInt32.ofNat n.toNat

/-- The unsigned number of 64 bits that a value stands for. -/
def Value.uint64? (v : Value) : Option UInt64 :=
  (v.int? 0 18446744073709551615).map fun n => UInt64.ofNat n.toNat

/-- The truth value that a value stands for. -/
def Value.bool? : Value → Option Bool
  | .bool b => some b
  | _ => none

/-- The bytes of a text or byte string. -/
def Value.bytes? : Value → Option Bytes
  | .str bytes => some bytes
  | .bin bytes => some bytes
  | _ => none

/-! ## Names out of a closed set -/

/-- The place of a name, by its bytes. -/
def placeOf? (names : List String) (bytes : Bytes) : Option Nat :=
  names.findIdx? fun name => Bytes.ofText name == bytes

/-- The place in `names` that a value designates, by name or, unsigned, by number. -/
def Value.place? (names : List String) : Value → Option Nat
  | .str bytes => placeOf? names bytes
  | .bin bytes => placeOf? names bytes
  | .uint n => if n < names.length then some n else none
  | _ => none

/-- The choice that a value makes among `names`: a designation, or a map with one entry from a
designation to nil. -/
def Value.choice? (names : List String) : Value → Option Nat
  | .map [(key, .nil)] => key.place? names
  | .map _ => none
  | value => value.place? names

/-! ## Records -/

/-- Whether a value may be the key of a record's entry. -/
def Value.isKey : Value → Bool
  | .str _ | .bin _ | .uint _ => true
  | _ => false

/-- Puts a value into a place that holds none yet. -/
def fill? (values : List (Option Value)) (place : Nat) (value : Value) :
    Option (List (Option Value)) :=
  match values[place]? with
  | some none => some (values.set place (some value))
  | _ => none

/-- Goes through a map's entries: each key has to be one, unknown fields are passed over, and no
field may come twice. -/
def fillAll? (names : List String) :
    List (Option Value) → List (Value × Value) → Option (List (Option Value))
  | values, [] => some values
  | values, (key, value) :: rest =>
    if key.isKey then
      match key.place? names with
      | none => fillAll? names values rest
      | some place =>
        match fill? values place value with
        | none => none
        | some values' => fillAll? names values' rest
    else none

/-- The first `n` values, with nothing in the places that are left over. -/
def padded (n : Nat) (values : List Value) : List (Option Value) :=
  (values.take n).map some ++ List.replicate (n - values.length) none

/-- The byte of a byte string as the value of a field: an integer and nothing else. -/
def Value.ofByte (b : UInt8) : Value := .int b.toNat

/-- The fields that a value gives to a record with these field names: from a map by name or
number, from an array by place, from a byte string a byte each, what is left over ignored. -/
def Value.fields? (names : List String) : Value → Option (List (Option Value))
  | .map entries => fillAll? names (List.replicate names.length none) entries
  | .array items => if items.length ≤ names.length then some (padded names.length items) else none
  | .bin bytes => some (padded names.length (bytes.map .ofByte))
  | _ => none

/-! ## Coded types -/

/-- A type with a MessagePack form. -/
class Coded (α : Type) where
  /-- The written form, which a few values lack. -/
  toValue? : α → Option Value
  ofValue? : Value → Option α

/-- The payload of a coded value. -/
def pack? {α : Type} [Coded α] (a : α) : Option Bytes := (Coded.toValue? a).map Value.write

/-- The coded value at the front of a payload; what follows it is ignored. -/
def unpack? {α : Type} [Coded α] (payload : Bytes) : Option α :=
  match read payload with
  | some (value, _) => Coded.ofValue? value
  | none => none

end ProcessTree.MessagePack
