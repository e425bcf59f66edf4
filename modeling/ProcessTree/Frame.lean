-- Frames: the units a channel is made of. A frame is a header of five bytes, one
-- for the tag and four for the payload's length, and then the payload.
import ProcessTree.Error

namespace ProcessTree.Frame

/-- How many bytes a header has. -/
def headerSize : Nat := 5

/-- The header of a frame; a length that four bytes cannot tell has none. -/
def header (tag : UInt8) (length : Nat) : Except ChannelError Bytes :=
  if length < Bytes.span 4 then .ok (tag :: Bytes.ofNat 4 length)
  else .error (.payloadTooLarge length)

/-- The tag in a header. -/
def tagOf (header : Bytes) : UInt8 := header.headD 0

/-- The length in a header. -/
def lengthOf (header : Bytes) : Nat := Bytes.toNat header.tail

/-- The tag and the payload of the first frame of a stream, and what follows it; nothing while the
frame is not complete. -/
def next? (bytes : Bytes) : Option (UInt8 × Bytes × Bytes) := do
  let (header, rest) ← bytes.split? headerSize
  let (payload, rest) ← rest.split? (lengthOf header)
  return (tagOf header, payload, rest)

/-- The complete frames of a stream, at most so many, and the bytes after them. -/
def takeFrames : Nat → Bytes → List (UInt8 × Bytes) × Bytes
  | 0, bytes => ([], bytes)
  | n + 1, bytes =>
    match next? bytes with
    | none => ([], bytes)
    | some (tag, payload, rest) =>
      let (frames, rest) := takeFrames n rest
      ((tag, payload) :: frames, rest)

/-- The complete frames of a stream: there are never more than bytes. -/
def all (bytes : Bytes) : List (UInt8 × Bytes) := (takeFrames bytes.length bytes).1

end ProcessTree.Frame
