-- The outbound direction of a channel. A message is written as the header and
-- then the payload of its frame, each until it is complete. The first write
-- that fails ends the direction for good, and is what every later `send` is
-- told; closing ends it too.
import ProcessTree.Frame
import ProcessTree.Message
import ProcessTree.Registry

namespace ProcessTree

/-- What a write call of a stream gives: how many of the bytes it was offered it took, or why it
failed. -/
inductive WriteOutcome where
  | took (n : Nat)
  | failed (failure : IoFailure)
  deriving DecidableEq, Repr

/-- What is left to write of a frame. -/
structure Sending where
  header : Bytes
  payload : Bytes
  deriving DecidableEq, Repr

namespace Sending

/-- The bytes that the next write call is offered; none when the frame is complete. -/
def offer (s : Sending) : Bytes := if s.header.isEmpty then s.payload else s.header

/-- What is left after a write call took `n` of the bytes it was offered. -/
def drop (s : Sending) (n : Nat) : Sending :=
  if s.header.isEmpty then { s with payload := s.payload.drop n }
  else { s with header := s.header.drop n }

/-- How many bytes are left. -/
def size (s : Sending) : Nat := s.header.length + s.payload.length

theorem size_drop_lt (s : Sending) (n : Nat) (hs : s.offer ≠ []) (hn : n ≠ 0) :
    (s.drop n).size < s.size := by
  obtain ⟨header, payload⟩ := s
  cases header with
  | nil =>
    cases payload with
    | nil => simp [offer] at hs
    | cons b rest => simp [drop, size]; omega
  | cons b rest => simp [drop, size]; omega

end Sending

/-- The outbound direction of a channel. -/
structure Outbound where
  registry : Registry
  /-- Whether the channel still holds its stream. -/
  isOpen : Bool
  /-- What ended the direction. -/
  terminal : Option ChannelError

namespace Outbound

/-- The direction before anything was sent. -/
def start (registry : Registry) : Outbound := ⟨registry, true, none⟩

/-- What a `send` on a direction that has ended is told. -/
def refusal (o : Outbound) : ChannelError := o.terminal.getD .channelClosed

/-- Ends the direction for good; the first reason stays. -/
def finish (o : Outbound) (e : ChannelError) : Outbound :=
  { o with isOpen := false, terminal := o.terminal.or (some e) }

/-- Closes the direction. -/
def close (o : Outbound) : Outbound := o.finish .channelClosed

/-- The frame of a message, or why this direction has none for it. Nothing is written. -/
def frame {M : Type} [Message M] (o : Outbound) (message : M) : Except ChannelError Sending :=
  match o.registry.tagOf? (Message.kind message) with
  | none => .error (.unknownMessageType o.registry.name (Message.kind message))
  | some tag =>
    match Message.encode message with
    | .error e => .error e
    | .ok payload =>
      match Frame.header tag payload.length with
      | .error e => .error e
      | .ok header => .ok ⟨header, payload⟩

/-- The frame that a `send` starts to write, or why it writes nothing. -/
def begin {M : Type} [Message M] (o : Outbound) (message : M) : Except ChannelError Sending :=
  match o.frame message with
  | .error e => .error e
  | .ok sending => if o.isOpen then .ok sending else .error o.refusal

/-- Goes on after a write call: with what is left of the frame, or with the error that ends the
direction. A call that takes none of the bytes it is offered is an error too. -/
def onWrite (o : Outbound) (s : Sending) : WriteOutcome → Except ChannelError Sending × Outbound
  | .failed failure => (.error (.io failure), o.finish (.io failure))
  | .took 0 => (.error .streamClosed, o.finish .streamClosed)
  | .took (n + 1) => (.ok (s.drop (n + 1)), o)

theorem onWrite_eq_ok {o o' : Outbound} {s left : Sending} {outcome : WriteOutcome}
    (h : o.onWrite s outcome = (.ok left, o')) :
    ∃ n, outcome = .took n ∧ n ≠ 0 ∧ left = s.drop n ∧ o' = o := by
  unfold onWrite at h
  split at h
  · cases h
  · cases h
  · rename_i n
    cases h
    exact ⟨n + 1, rfl, Nat.succ_ne_zero n, rfl, rfl⟩

/-- Writes what is left of a frame, call by call, until it is complete or a call fails. -/
def write {σ : Type} (call : σ → Bytes → σ × WriteOutcome) (o : Outbound) (stream : σ)
    (s : Sending) : Except ChannelError Unit × Outbound × σ :=
  if _hs : s.offer = [] then (.ok (), o, stream)
  else
    match call stream s.offer with
    | (stream, outcome) =>
      match _hw : o.onWrite s outcome with
      | (.error e, o) => (.error e, o, stream)
      | (.ok left, o) => write call o stream left
termination_by s.size
decreasing_by
  obtain ⟨n, -, hn, rfl, -⟩ := onWrite_eq_ok _hw
  exact s.size_drop_lt n (by assumption) hn

/-- Sends a message over a stream. -/
def send {σ M : Type} [Message M] (call : σ → Bytes → σ × WriteOutcome) (o : Outbound)
    (stream : σ) (message : M) : Except ChannelError Unit × Outbound × σ :=
  match o.begin message with
  | .error e => (.error e, o, stream)
  | .ok sending => o.write call stream sending

end Outbound

end ProcessTree
