-- The buffer that payloads are read into. It is kept from one frame to the
-- next, so it may hold bytes of earlier frames behind those of this one; one
-- that grew very large is given back.
import ProcessTree.Bytes

namespace ProcessTree

/-- A receive buffer. -/
structure Buffer where
  /-- How many bytes it has room for. -/
  size : Nat
  /-- The bytes of this frame, the latest first. -/
  fresh : Bytes
  /-- The bytes of earlier frames behind them; what follows is zero. -/
  stale : Bytes
  deriving Repr

namespace Buffer

/-- The buffer without room. -/
def empty : Buffer := ⟨0, [], []⟩

/-- A buffer with more room than this is not kept. -/
def retained : Nat := 1024 * 1024

/-- Goes back to the front, for the next frame. -/
def rewind (b : Buffer) : Buffer := { b with fresh := [], stale := b.fresh.reverse ++ b.stale }

/-- Makes room for at least `n` bytes. -/
def grow (b : Buffer) (n : Nat) : Buffer := { b with size := max b.size n }

/-- Puts one byte of this frame behind the others. -/
def put (b : Buffer) (byte : UInt8) : Buffer :=
  { b with fresh := byte :: b.fresh, stale := b.stale.tail }

/-- Puts bytes of this frame behind the others. -/
def putAll (b : Buffer) (bytes : Bytes) : Buffer := bytes.foldl put b

/-- The first `n` bytes of the buffer. -/
def slice (b : Buffer) (n : Nat) : Bytes := (b.fresh.reverse ++ b.stale).take n

/-- Gives a buffer back that has more room than is kept. -/
def release (b : Buffer) : Buffer := if retained < b.size then empty else b

end Buffer

end ProcessTree
