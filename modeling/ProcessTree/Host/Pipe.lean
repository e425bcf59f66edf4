-- A pipe: a queue of bytes with room for so many.
import ProcessTree.Bytes

namespace ProcessTree

/-- The bytes on their way in a pipe. -/
structure Pipe where
  /-- The bytes that are read first. -/
  front : Bytes
  /-- The bytes behind them, the latest first. -/
  back : Bytes
  /-- How many bytes there are. -/
  size : Nat
  size_eq : size = front.length + back.length

namespace Pipe

/-- How many bytes a pipe takes. -/
def capacity : Nat := 65536

/-- Up to so many bytes are written all at once or not at all. -/
def atomic : Nat := 4096

/-- A pipe without bytes. -/
def empty : Pipe := ⟨[], [], 0, rfl⟩

instance : Inhabited Pipe := ⟨empty⟩

/-- The bytes in the order in which they are read. -/
def bytes (p : Pipe) : Bytes := p.front ++ p.back.reverse

theorem length_bytes (p : Pipe) : p.bytes.length = p.size := by
  simp [bytes, p.size_eq]

/-- Puts bytes behind the others. -/
def push (p : Pipe) (bytes : Bytes) : Pipe where
  front := p.front
  back := bytes.reverse ++ p.back
  size := p.size + bytes.length
  size_eq := by rw [p.size_eq]; simp; omega

theorem bytes_push (p : Pipe) (bytes : Bytes) : (p.push bytes).bytes = p.bytes ++ bytes := by
  simp [push, Pipe.bytes]

/-- The same bytes, all of them in front. -/
def forward (p : Pipe) : Bytes := if p.back.isEmpty then p.front else p.bytes

theorem forward_eq (p : Pipe) : p.forward = p.bytes := by
  unfold forward bytes
  split
  · simp_all
  · rfl

/-- Takes up to `n` bytes out. -/
def pull (p : Pipe) (n : Nat) : Bytes × Pipe :=
  let bytes := p.forward
  (bytes.take n, ⟨bytes.drop n, [], p.size - n, by
    simp [bytes, forward_eq, length_bytes]⟩)

theorem pull_fst_append_bytes (p : Pipe) (n : Nat) :
    (p.pull n).1 ++ (p.pull n).2.bytes = p.bytes := by
  simp [pull, Pipe.bytes, forward_eq]

/-- How many of so many bytes a write call puts into the pipe now. -/
def accepts (p : Pipe) (offered : Nat) : Nat :=
  let n := min (capacity - p.size) offered
  if offered ≤ atomic ∧ n < offered then 0 else n

end Pipe

end ProcessTree
