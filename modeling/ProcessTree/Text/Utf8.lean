-- Reading bytes as UTF-8. A byte string splits into characters and broken
-- stretches; a broken stretch is a byte that starts no character, or the
-- longest start of a character that its next byte does not continue.
import ProcessTree.Bytes

namespace ProcessTree.Utf8

/-- One stretch of a byte string. -/
inductive Piece where
  | char (c : Char)
  | broken (bytes : Bytes)
  deriving DecidableEq, Repr

/-- What a first byte promises: how many bytes continue the character, the range of the
first of them, and the bits that the first byte gives. -/
structure Lead where
  owed : Nat
  low : UInt8
  high : UInt8
  bits : Nat

/-- What `b` promises as the first byte of a character, `none` when it starts no character. -/
def lead? (b : UInt8) : Option Lead :=
  let n := b.toNat
  if n < 0x80 then some ⟨0, 0x80, 0xBF, n⟩
  else if n < 0xC2 then none
  else if n < 0xE0 then some ⟨1, 0x80, 0xBF, n - 0xC0⟩
  else if n = 0xE0 then some ⟨2, 0xA0, 0xBF, 0⟩
  else if n = 0xED then some ⟨2, 0x80, 0x9F, 0xD⟩
  else if n < 0xF0 then some ⟨2, 0x80, 0xBF, n - 0xE0⟩
  else if n = 0xF0 then some ⟨3, 0x90, 0xBF, 0⟩
  else if n < 0xF4 then some ⟨3, 0x80, 0xBF, n - 0xF0⟩
  else if n = 0xF4 then some ⟨3, 0x80, 0x8F, 4⟩
  else none

/-- A character that has begun: its bytes so far, newest first, and what is still owed. -/
structure Pending where
  bytes : Bytes
  promise : Lead

/-- Starts a character at `b`, between characters. -/
def start (b : UInt8) : List Piece × Option Pending :=
  match lead? b with
  | none => ([.broken [b]], none)
  | some promise =>
    if promise.owed = 0 then ([.char (Char.ofNat promise.bits)], none)
    else ([], some ⟨[b], promise⟩)

/-- One turn of the reader: the pieces that `b` completes, and the character left open. -/
def step : Option Pending → UInt8 → List Piece × Option Pending
  | none, b => start b
  | some ⟨bytes, promise⟩, b =>
    if promise.low ≤ b ∧ b ≤ promise.high then
      let bits := promise.bits * 64 + (b.toNat - 0x80)
      if promise.owed = 1 then ([.char (Char.ofNat bits)], none)
      else ([], some ⟨b :: bytes, ⟨promise.owed - 1, 0x80, 0xBF, bits⟩⟩)
    else
      let (pieces, next) := start b
      (.broken bytes.reverse :: pieces, next)

/-- The pieces of a byte string after a character left open. -/
def piecesFrom : Option Pending → Bytes → List Piece
  | none, [] => []
  | some pending, [] => [.broken pending.bytes.reverse]
  | open?, b :: rest =>
    let (pieces, next) := step open? b
    pieces ++ piecesFrom next rest

/-- The pieces of a byte string. -/
def pieces (bytes : Bytes) : List Piece := piecesFrom none bytes

/-- The text of a byte string, when no stretch of it is broken. -/
def decode? (bytes : Bytes) : Option String :=
  let chars := (pieces bytes).mapM fun
    | .char c => some c
    | .broken _ => none
  chars.map String.ofList

/-- The text of a byte string, each broken stretch shown as U+FFFD. -/
def lossy (bytes : Bytes) : String :=
  String.ofList ((pieces bytes).map fun
    | .char c => c
    | .broken _ => Char.ofNat 0xFFFD)

end ProcessTree.Utf8
