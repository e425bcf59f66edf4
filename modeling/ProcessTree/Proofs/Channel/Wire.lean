-- Frames on the wire: the bytes that a message is sent as, why a message is not
-- sent at all, and how the parser of the other end reads the frames back.
import ProcessTree.Channel.Outbound
import ProcessTree.Proofs.FrameParser
import ProcessTree.Proofs.Messages
import ProcessTree.Proofs.Registry

namespace ProcessTree

/-! ## Frames on the wire -/

namespace Message

variable {M : Type} [Message M]

/-- The bytes of a message's frame; none for a message that no frame can be made of. -/
def wire (r : Registry) (m : M) : Bytes :=
  match r.tagOf? (kind m), (encode m : Except ChannelError Bytes) with
  | some tag, .ok payload => tag :: Bytes.ofNat 4 payload.length ++ payload
  | _, _ => []

/-- Why no frame can be made of a message. -/
inductive Refused (r : Registry) (m : M) : ChannelError → Prop where
  | unknown (hkind : r.tagOf? (kind m) = none) :
      Refused r m (.unknownMessageType r.name (kind m))
  | unencodable {tag : UInt8} {e : ChannelError} (htag : r.tagOf? (kind m) = some tag)
      (hencode : encode m = .error e) : Refused r m e
  | tooLarge {tag : UInt8} {payload : Bytes} (htag : r.tagOf? (kind m) = some tag)
      (hencode : encode m = .ok payload) (hlength : Bytes.span 4 ≤ payload.length) :
      Refused r m (.payloadTooLarge payload.length)

/-- These bytes are the front of a message's frame, and not all of it. -/
def Partly (r : Registry) (m : M) (bytes : Bytes) : Prop :=
  ∃ rest, rest ≠ [] ∧ bytes ++ rest = wire r m

end Message

namespace Sending

/-- The bytes that are left. -/
def rest (s : Sending) : Bytes := s.header ++ s.payload

theorem offer_eq_nil_iff (s : Sending) : s.offer = [] ↔ s.rest = [] := by
  obtain ⟨header, payload⟩ := s
  unfold offer rest
  cases header with
  | nil => rfl
  | cons byte header => simp

theorem take_rest_drop (s : Sending) (n : Nat) : s.offer.take n ++ (s.drop n).rest = s.rest := by
  obtain ⟨header, payload⟩ := s
  unfold offer rest drop
  cases header with
  | nil => simp
  | cons byte header =>
    simp only [List.isEmpty_cons, Bool.false_eq_true, if_false]
    rw [← List.append_assoc, List.take_append_drop]

end Sending

namespace Outbound

variable {M : Type} [Message M]

theorem frame_spec (o : Outbound) (m : M) :
    (∃ e, o.frame m = .error e ∧ Message.Refused o.registry m e) ∨
      (∃ s, o.frame m = .ok s ∧ s.header ≠ [] ∧ s.rest = Message.wire o.registry m ∧
        ∀ e, ¬ Message.Refused o.registry m e) := by
  unfold frame
  cases htag : o.registry.tagOf? (Message.kind m) with
  | none => exact Or.inl ⟨_, rfl, .unknown htag⟩
  | some tag =>
    simp only
    cases hencode : (Message.encode m : Except ChannelError Bytes) with
    | error e => exact Or.inl ⟨e, rfl, .unencodable htag hencode⟩
    | ok payload =>
      simp only
      by_cases hlength : payload.length < Bytes.span 4
      · rw [Frame.header_eq_ok hlength]
        refine Or.inr ⟨_, rfl, List.cons_ne_nil _ _, ?_, ?_⟩
        · unfold Message.wire Sending.rest
          rw [htag, hencode]
        · intro e hrefused
          cases hrefused with
          | unknown hkind => rw [htag] at hkind; cases hkind
          | unencodable htag' hencode' => rw [hencode] at hencode'; cases hencode'
          | tooLarge htag' hencode' hlarge =>
            rw [hencode] at hencode'
            cases hencode'
            omega
      · rw [Frame.header_eq_error (by omega)]
        exact Or.inl ⟨_, rfl, .tooLarge htag hencode (by omega)⟩

/-- Each message is refused for one reason only. -/
theorem frame_eq_error_iff (o : Outbound) (m : M) (e : ChannelError) :
    o.frame m = .error e ↔ Message.Refused o.registry m e := by
  constructor
  · intro h
    rcases frame_spec o m with ⟨e', he', hrefused⟩ | ⟨s, hs, -⟩
    · rw [h] at he'
      cases he'
      exact hrefused
    · rw [h] at hs
      cases hs
  · intro h
    unfold frame
    cases h with
    | unknown hkind => rw [hkind]
    | unencodable htag hencode => rw [htag, hencode]
    | tooLarge htag hencode hlength =>
      rw [htag, hencode]
      simp only [Frame.header_eq_error hlength]

theorem frame_eq_ok {o : Outbound} {m : M} {s : Sending} (h : o.frame m = .ok s) :
    s.offer ≠ [] ∧ s.rest = Message.wire o.registry m ∧
      ∀ e, ¬ Message.Refused o.registry m e := by
  rcases frame_spec o m with ⟨e, he, -⟩ | ⟨s', hs', hheader, hrest, hnot⟩
  · rw [h] at he
    cases he
  · rw [h] at hs'
    cases hs'
    refine ⟨?_, hrest, hnot⟩
    rw [ne_eq, Sending.offer_eq_nil_iff]
    unfold Sending.rest
    intro hnil
    exact hheader (List.append_eq_nil_iff.mp hnil).1

/-- A message that no frame can be made of is refused for that, whatever has become of the
direction. -/
theorem begin_of_refused {o : Outbound} {m : M} {e : ChannelError}
    (h : Message.Refused o.registry m e) : o.begin m = .error e := by
  unfold begin
  rw [(frame_eq_error_iff o m e).mpr h]

theorem begin_of_not_refused {o : Outbound} {m : M}
    (h : ∀ e, ¬ Message.Refused o.registry m e) :
    ∃ s, o.frame m = .ok s ∧ o.begin m = if o.isOpen then .ok s else .error o.refusal := by
  rcases frame_spec o m with ⟨e, -, hrefused⟩ | ⟨s, hs, -⟩
  · exact absurd hrefused (h e)
  · refine ⟨s, hs, ?_⟩
    unfold begin
    rw [hs]

end Outbound

/-! ## Reading frames back -/

namespace Message

open ProcessTree.Frame

variable {M : Type} [Message M]

theorem not_refused_of_registered (hreads : ReadsBack M) {r : Registry} {m : M} {tag : UInt8}
    (htag : r.tagOf? (kind m) = some tag) (e : ChannelError) : ¬ Refused r m e := by
  obtain ⟨payload, hencode, hlength, -⟩ := hreads m
  intro hrefused
  cases hrefused with
  | unknown hkind =>
    rw [htag] at hkind
    cases hkind
  | unencodable htag' hencode' =>
    rw [hencode] at hencode'
    cases hencode'
  | tooLarge htag' hencode' hlarge =>
    rw [hencode] at hencode'
    cases hencode'
    omega

theorem registered_of_not_refused {r : Registry} {m : M} (h : ∀ e, ¬ Refused r m e) :
    ∃ tag, r.tagOf? (kind m) = some tag := by
  cases htag : r.tagOf? (kind m) with
  | none => exact absurd (.unknown htag) (h _)
  | some tag => exact ⟨tag, rfl⟩

/-- The frame of a message gives the message back, whatever follows it. -/
theorem parse_wire (hreads : ReadsBack M) {r : Registry} {m : M} {tag : UInt8}
    (htag : r.tagOf? (kind m) = some tag) (rest : Bytes) :
    parse (M := M) r (wire r m ++ rest) =
      (m :: (parse (M := M) r rest).1, (parse (M := M) r rest).2) := by
  obtain ⟨payload, hencode, hlength, hdecode⟩ := hreads m
  have hkind : r.kindOf? (tagOf (tag :: Bytes.ofNat 4 payload.length)) = some (kind m) :=
    (r.tagOf?_iff_kindOf? tag (kind m)).mp htag
  have hparse := parse_frame (M := M) r rest (length_header tag payload.length) hkind
    (lengthOf_header tag hlength).symm
  rw [hdecode] at hparse
  unfold wire
  rw [htag, hencode, List.append_assoc]
  exact hparse

/-- The front of a frame gives no message yet. -/
theorem parse_partly (hreads : ReadsBack M) {r : Registry} {m : M} {bytes : Bytes}
    (h : Partly r m bytes) : parse (M := M) r bytes = ([], .short bytes) := by
  obtain ⟨rest, hrest, hwire⟩ := h
  obtain ⟨payload, hencode, hlength, hdecode⟩ := hreads m
  unfold wire at hwire
  cases htag : r.tagOf? (kind m) with
  | none =>
    rw [htag] at hwire
    exact absurd (List.append_eq_nil_iff.mp hwire).2 hrest
  | some tag =>
    rw [htag, hencode] at hwire
    simp only at hwire
    by_cases hshort : bytes.length < headerSize
    · exact parse_short r hshort
    · have hheader := length_header tag payload.length
      obtain ⟨part, rfl⟩ : ∃ part, bytes = tag :: Bytes.ofNat 4 payload.length ++ part := by
        have hprefix : (tag :: Bytes.ofNat 4 payload.length) <+: bytes :=
          List.prefix_of_prefix_length_le ⟨payload, rfl⟩ ⟨rest, hwire⟩ (by omega)
        obtain ⟨part, hpart⟩ := hprefix
        exact ⟨part, hpart.symm⟩
      refine parse_partial r hheader ((r.tagOf?_iff_kindOf? tag (kind m)).mp htag) ?_
      rw [lengthOf_header tag hlength]
      rw [List.append_assoc] at hwire
      have hpart := congrArg List.length (List.append_cancel_left hwire)
      have hpos := List.length_pos_iff.mpr hrest
      rw [List.length_append] at hpart
      omega

/-- Frames that follow each other give their messages in that order. -/
theorem parse_wires (hreads : ReadsBack M) {r : Registry} (messages : List M) (rest : Bytes)
    (hregistered : ∀ m ∈ messages, ∃ tag, r.tagOf? (kind m) = some tag) :
    parse (M := M) r (messages.flatMap (wire r) ++ rest) =
      (messages ++ (parse (M := M) r rest).1, (parse (M := M) r rest).2) := by
  induction messages with
  | nil => rfl
  | cons m messages ih =>
    obtain ⟨tag, htag⟩ := hregistered m List.mem_cons_self
    rw [List.flatMap_cons, List.append_assoc, parse_wire hreads htag,
      ih fun m' hm' => hregistered m' (List.mem_cons_of_mem _ hm')]
    rfl

end Message

end ProcessTree
