-- Lengths of time in whole seconds and nanoseconds.
import ProcessTree.MessagePack.Shape

namespace ProcessTree

/-- A length of time. -/
structure Duration where
  secs : UInt64
  nanos : UInt32
  nanos_lt : nanos.toNat < 1000000000 := by decide
  deriving DecidableEq, Repr

namespace Duration

instance : Inhabited Duration := ⟨⟨0, 0, by decide⟩⟩

/-- A length of whole seconds. -/
def ofSecs (secs : UInt64) : Duration := ⟨secs, 0, by decide⟩

theorem nanos_ofNat_lt {n : Nat} (h : n < 1000000000) :
    (UInt32.ofNat n).toNat < 1000000000 := by
  have : n < 4294967296 := Nat.lt_trans h (by decide)
  simpa [Nat.mod_eq_of_lt this] using h

/-- A length of milliseconds. -/
def ofMillis (millis : UInt64) : Duration where
  secs := UInt64.ofNat (millis.toNat / 1000)
  nanos := UInt32.ofNat (millis.toNat % 1000 * 1000000)
  nanos_lt := nanos_ofNat_lt (by omega)

/-- The length of seconds and nanoseconds, full seconds carried over, unless it is too long. -/
def ofParts? (secs : UInt64) (nanos : UInt32) : Option Duration :=
  let total := secs.toNat + nanos.toNat / 1000000000
  if total < UInt64.size then
    some ⟨UInt64.ofNat total, UInt32.ofNat (nanos.toNat % 1000000000), nanos_ofNat_lt (by omega)⟩
  else none

/-- A length in whole milliseconds, rounded up. -/
def toMillis (d : Duration) : Nat := d.secs.toNat * 1000 + (d.nanos.toNat + 999999) / 1000000

open MessagePack

/-- The two parts by name, in either order; unlike a record's fields they are named by text
only, and nothing may stand beside them. -/
def partsOfEntries : List (Value × Value) → Option (Value × Value)
  | [(key, value), (key', value')] =>
    match key.bytes?, key'.bytes? with
    | some name, some name' =>
      if name = Bytes.ofText "secs" ∧ name' = Bytes.ofText "nanos" then some (value, value')
      else if name = Bytes.ofText "nanos" ∧ name' = Bytes.ofText "secs" then some (value', value)
      else none
    | _, _ => none
  | _ => none

/-- The seconds and nanoseconds that a value gives. -/
def parts? : Value → Option (Value × Value)
  | .map entries => partsOfEntries entries
  | .array [secs, nanos] => some (secs, nanos)
  | .bin (secs :: nanos :: _) => some (.ofByte secs, .ofByte nanos)
  | _ => none

instance : Coded Duration where
  toValue? d := some (.ofFields [
    ("secs", .uint d.secs.toNat), ("nanos", .uint d.nanos.toNat)])
  ofValue? v := do
    let (secs, nanos) ← parts? v
    ofParts? (← secs.uint64?) (← nanos.uint32?)

end Duration

end ProcessTree
