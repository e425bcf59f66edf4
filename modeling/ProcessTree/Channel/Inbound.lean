-- The inbound direction of a channel. A receiver reads one frame after the
-- other, decodes it and puts the message into a queue with room for one; while
-- the queue is full it holds the message and reads no further. The first thing
-- that goes wrong ends the receiver, and is what every later `recv` is told
-- once the queue is empty.
import ProcessTree.Channel.Buffer
import ProcessTree.Frame
import ProcessTree.Message
import ProcessTree.Registry

namespace ProcessTree

/-- Where a receiver stands. -/
inductive Receiver (M : Type) where
  /-- Reading a header, of which these bytes are there. -/
  | header (seen : Bytes)
  /-- Reading the payload of a frame, of which `missing` bytes are not there yet. -/
  | payload (kind : String) (length missing : Nat)
  /-- Waiting for room in the queue. -/
  | holding (message : M)
  | ended
  deriving Repr

/-- The inbound direction of a channel. -/
structure Inbound (M : Type) where
  registry : Registry
  receiver : Receiver M
  buffer : Buffer
  /-- The message that is ready for a `recv`. -/
  queue : Option M
  /-- What ended the receiver. -/
  terminal : Option ChannelError

namespace Inbound

variable {M : Type}

/-- The direction before anything was read. -/
def start (registry : Registry) : Inbound M := ⟨registry, .header [], .empty, none, none⟩

/-- How many bytes the receiver would take from the stream now. -/
def wants (i : Inbound M) : Nat :=
  match i.receiver with
  | .header seen => Frame.headerSize - seen.length
  | .payload _ _ missing => missing
  | .holding _ | .ended => 0

/-- Whether the receiver has let go of the stream. -/
def isOver (i : Inbound M) : Bool :=
  match i.receiver with
  | .ended => true
  | _ => false

/-! ## The receiver -/

/-- Ends the receiver for good; the first reason stays. -/
def fail (i : Inbound M) (e : ChannelError) : Inbound M :=
  { i with receiver := .ended, terminal := i.terminal.or (some e) }

variable [Message M]

/-- Decodes the payload in the buffer. -/
def decode (i : Inbound M) (kind : String) (length : Nat) : Inbound M :=
  match Message.decode kind (i.buffer.slice length) with
  | .ok message => { i with receiver := .holding message, buffer := i.buffer.release }
  | .error e => i.fail e

/-- Goes on from a complete header: the buffer is only touched for a tag that stands for
something. -/
def enter (i : Inbound M) (header : Bytes) : Inbound M :=
  let tag := Frame.tagOf header
  let length := Frame.lengthOf header
  match i.registry.kindOf? tag with
  | none => i.fail (.unknownTag i.registry.name tag)
  | some kind =>
    let i := { i with buffer := i.buffer.rewind.grow length }
    if length = 0 then i.decode kind 0
    else { i with receiver := .payload kind length length }

/-- Takes bytes that a read gave, at most as many as were wanted. -/
def take (i : Inbound M) (bytes : Bytes) : Inbound M :=
  match i.receiver with
  | .header seen =>
    let seen := seen ++ bytes
    if Frame.headerSize ≤ seen.length then i.enter seen
    else { i with receiver := .header seen }
  | .payload kind length missing =>
    let missing := missing - bytes.length
    let i := { i with buffer := i.buffer.putAll bytes }
    if missing = 0 then i.decode kind length
    else { i with receiver := .payload kind length missing }
  | .holding _ | .ended => i

/-! ## The queue -/

/-- Puts the message that is held into the queue, if there is room. -/
def deliver? (i : Inbound M) : Option (Inbound M) :=
  match i.receiver, i.queue with
  | .holding message, none => some { i with receiver := .header [], queue := some message }
  | _, _ => none

/-- Stops the receiver: a message it holds is lost, the one in the queue is not. -/
def stop (i : Inbound M) : Inbound M := { i with receiver := .ended }

/-- What a `recv` gets now, with the direction afterwards; nothing while it has to wait. -/
def recv? (i : Inbound M) : Option (Except ChannelError M × Inbound M) :=
  match i.queue with
  | some message => some (.ok message, { i with queue := none })
  | none =>
    if i.isOver then some (.error (i.terminal.getD .channelClosed), i) else none

end Inbound

end ProcessTree
