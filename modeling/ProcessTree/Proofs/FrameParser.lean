-- The reference parser of a stream of frames, and its laws. From the front of
-- the stream it takes a header, looks the tag up, takes as many bytes as the
-- header says and decodes them, again and again. What it gives depends on the
-- bytes alone, and more bytes only ever add messages.
import ProcessTree.Frame
import ProcessTree.Message
import ProcessTree.Registry
import ProcessTree.Proofs.FrameHeader

namespace ProcessTree.Frame

/-! ## The parser -/

/-- How a parser comes to its end. -/
inductive Stop where
  /-- The bytes are over, and these ones are of a frame that is not complete. -/
  | short (left : Bytes)
  /-- The next frame cannot be received, whatever bytes follow. -/
  | failed (e : ChannelError)

section Parser

variable {M : Type} [Message M]

/-- The messages of a stream, from its front on, and how they come to their end. -/
def parse (r : Registry) (bytes : Bytes) : List M × Stop :=
  match _hheader : bytes.split? headerSize with
  | none => ([], .short bytes)
  | some (header, rest) =>
    match r.kindOf? (tagOf header) with
    | none => ([], .failed (.unknownTag r.name (tagOf header)))
    | some kind =>
      match _hpayload : rest.split? (lengthOf header) with
      | none => ([], .short bytes)
      | some (payload, rest') =>
        match Message.decode kind payload with
        | .error e => ([], .failed e)
        | .ok message =>
          let (messages, stop) := parse r rest'
          (message :: messages, stop)
termination_by bytes.length
decreasing_by
  have hrest := Bytes.split?_rest_length _hheader
  have hrest' := Bytes.split?_rest_length _hpayload
  have : headerSize = 5 := rfl
  omega

theorem parse_short (r : Registry) {bytes : Bytes} (h : bytes.length < headerSize) :
    parse (M := M) r bytes = ([], .short bytes) := by
  rw [parse]
  split
  · rfl
  · rename_i header rest hheader
    rw [Bytes.split?_eq_none_iff.mpr h] at hheader
    cases hheader

/-- A tag that stands for nothing ends the parser, whatever follows the header. -/
theorem parse_unknown (r : Registry) {header : Bytes} (rest : Bytes)
    (hlen : header.length = headerSize) (hkind : r.kindOf? (tagOf header) = none) :
    parse (M := M) r (header ++ rest) = ([], .failed (.unknownTag r.name (tagOf header))) := by
  have hsplit := Bytes.split?_eq_some_iff.mpr ⟨(rfl : header ++ rest = _), hlen⟩
  rw [parse]
  split
  · rename_i hnone
    rw [hsplit] at hnone
    cases hnone
  · rename_i header' rest' hheader
    rw [hsplit] at hheader
    cases hheader
    simp only [hkind]

theorem parse_partial (r : Registry) {header part : Bytes} {kind : String}
    (hlen : header.length = headerSize) (hkind : r.kindOf? (tagOf header) = some kind)
    (hpart : part.length < lengthOf header) :
    parse (M := M) r (header ++ part) = ([], .short (header ++ part)) := by
  have hsplit := Bytes.split?_eq_some_iff.mpr ⟨(rfl : header ++ part = _), hlen⟩
  rw [parse]
  split
  · rfl
  · rename_i header' rest' hheader
    rw [hsplit] at hheader
    cases hheader
    simp only [hkind]
    split
    · rfl
    · rename_i payload rest'' hpayload
      rw [Bytes.split?_eq_none_iff.mpr hpart] at hpayload
      cases hpayload

/-- A complete frame gives its message, or ends the parser when its payload does not decode. -/
theorem parse_frame (r : Registry) {header payload : Bytes} (rest : Bytes) {kind : String}
    (hlen : header.length = headerSize) (hkind : r.kindOf? (tagOf header) = some kind)
    (hpayload : payload.length = lengthOf header) :
    parse (M := M) r (header ++ (payload ++ rest)) =
      match (Message.decode kind payload : Except ChannelError M) with
      | .error e => ([], .failed e)
      | .ok message => (message :: (parse r rest).1, (parse (M := M) r rest).2) := by
  have hsplit := Bytes.split?_eq_some_iff.mpr ⟨(rfl : header ++ (payload ++ rest) = _), hlen⟩
  have hsplit' := Bytes.split?_eq_some_iff.mpr ⟨(rfl : payload ++ rest = _), hpayload⟩
  rw [parse]
  split
  · rename_i hnone
    rw [hsplit] at hnone
    cases hnone
  · rename_i header' rest' hheader
    rw [hsplit] at hheader
    cases hheader
    simp only [hkind]
    split
    · rename_i hnone
      rw [hsplit'] at hnone
      cases hnone
    · rename_i payload' rest'' heq
      rw [hsplit'] at heq
      cases heq
      rfl

/-! ## One frame after the other -/

/-- The front of a stream, as the parser sees it. -/
inductive Front (r : Registry) : Bytes → Prop where
  | short {bytes : Bytes} (h : bytes.length < headerSize) : Front r bytes
  | unknown {header : Bytes} (rest : Bytes) (hlen : header.length = headerSize)
      (hkind : r.kindOf? (tagOf header) = none) : Front r (header ++ rest)
  | partly {header part : Bytes} {kind : String} (hlen : header.length = headerSize)
      (hkind : r.kindOf? (tagOf header) = some kind)
      (hpart : part.length < lengthOf header) : Front r (header ++ part)
  | frame {header payload : Bytes} (rest : Bytes) {kind : String}
      (hlen : header.length = headerSize) (hkind : r.kindOf? (tagOf header) = some kind)
      (hpayload : payload.length = lengthOf header) : Front r (header ++ (payload ++ rest))

theorem front (r : Registry) (bytes : Bytes) : Front r bytes := by
  cases hheader : bytes.split? headerSize with
  | none => exact .short (Bytes.split?_eq_none_iff.mp hheader)
  | some split =>
    obtain ⟨header, rest⟩ := split
    obtain ⟨rfl, hlen⟩ := Bytes.split?_eq_some_iff.mp hheader
    cases hkind : r.kindOf? (tagOf header) with
    | none => exact .unknown rest hlen hkind
    | some kind =>
      cases hpayload : rest.split? (lengthOf header) with
      | none => exact .partly hlen hkind (Bytes.split?_eq_none_iff.mp hpayload)
      | some split =>
        obtain ⟨payload, rest'⟩ := split
        obtain ⟨rfl, hlength⟩ := Bytes.split?_eq_some_iff.mp hpayload
        exact .frame rest' hlen hkind hlength

/-- Bytes that come later complete the frame that was left, and add their own messages. -/
theorem parse_append_of_short (r : Registry) {a left : Bytes} {messages : List M} (b : Bytes)
    (h : parse r a = (messages, .short left)) :
    parse r (a ++ b) =
      (messages ++ (parse r (left ++ b)).1, (parse (M := M) r (left ++ b)).2) := by
  -- By induction on the number of bytes: a frame takes at least its header.
  induction hn : a.length using Nat.strongRecOn generalizing a messages with
  | ind n ih =>
    cases front r a with
    | short hlen =>
      rw [parse_short r hlen] at h
      cases h
      rfl
    | unknown rest hlen hkind =>
      rw [parse_unknown r rest hlen hkind] at h
      cases h
    | partly hlen hkind hpart =>
      rw [parse_partial r hlen hkind hpart] at h
      cases h
      rfl
    | @frame header payload rest kind hlen hkind hpayload =>
      rw [parse_frame r rest hlen hkind hpayload] at h
      rw [List.append_assoc, List.append_assoc, parse_frame r (rest ++ b) hlen hkind hpayload]
      cases hdecode : (Message.decode kind payload : Except ChannelError M) with
      | error e =>
        rw [hdecode] at h
        cases h
      | ok message =>
        rw [hdecode] at h
        simp only [Prod.mk.injEq] at h
        obtain ⟨rfl, hstop⟩ := h
        have hsize : rest.length < n := by
          simp only [List.length_append] at hn
          have : headerSize = 5 := rfl
          omega
        have := ih rest.length hsize (a := rest) (Prod.ext rfl hstop) rfl
        simp only [this, List.cons_append]

/-- Nothing that comes later is looked at once the parser has failed. -/
theorem parse_append_of_failed (r : Registry) {a : Bytes} {messages : List M} {e : ChannelError}
    (b : Bytes) (h : parse r a = (messages, .failed e)) :
    parse r (a ++ b) = (messages, .failed e) := by
  induction hn : a.length using Nat.strongRecOn generalizing a messages with
  | ind n ih =>
    cases front r a with
    | short hlen =>
      rw [parse_short r hlen] at h
      cases h
    | unknown rest hlen hkind =>
      rw [parse_unknown r rest hlen hkind] at h
      rw [List.append_assoc, parse_unknown r (rest ++ b) hlen hkind]
      exact h
    | partly hlen hkind hpart =>
      rw [parse_partial r hlen hkind hpart] at h
      cases h
    | @frame header payload rest kind hlen hkind hpayload =>
      rw [parse_frame r rest hlen hkind hpayload] at h
      rw [List.append_assoc, List.append_assoc, parse_frame r (rest ++ b) hlen hkind hpayload]
      cases hdecode : (Message.decode kind payload : Except ChannelError M) with
      | error e' =>
        rw [hdecode] at h
        exact h
      | ok message =>
        rw [hdecode] at h
        simp only [Prod.mk.injEq] at h
        obtain ⟨rfl, hstop⟩ := h
        have hsize : rest.length < n := by
          simp only [List.length_append] at hn
          have : headerSize = 5 := rfl
          omega
        have := ih rest.length hsize (a := rest) (Prod.ext rfl hstop) rfl
        simp only [this]

/-- The messages of the front of a stream are the first messages of the whole. -/
theorem parse_prefix (r : Registry) {a b : Bytes} (h : a <+: b) :
    (parse (M := M) r a).1 <+: (parse (M := M) r b).1 := by
  obtain ⟨rest, rfl⟩ := h
  cases hstop : (parse (M := M) r a).2 with
  | short left =>
    rw [parse_append_of_short r rest (Prod.ext rfl hstop)]
    exact List.prefix_append _ _
  | failed e =>
    rw [parse_append_of_failed r rest (Prod.ext rfl hstop)]

/-- The parser fails over a tag that stands for nothing, or over what the decoder says. -/
theorem parse_failed (r : Registry) (bytes : Bytes) (e : ChannelError)
    (h : (parse (M := M) r bytes).2 = .failed e) :
    (∃ tag, r.kindOf? tag = none ∧ e = .unknownTag r.name tag) ∨
      ∃ kind payload, (Message.decode kind payload : Except ChannelError M) = .error e := by
  induction hn : bytes.length using Nat.strongRecOn generalizing bytes with
  | ind n ih =>
    cases front r bytes with
    | short hlen =>
      rw [parse_short r hlen] at h
      cases h
    | unknown rest hlen hkind =>
      rw [parse_unknown r rest hlen hkind] at h
      cases h
      exact Or.inl ⟨_, hkind, rfl⟩
    | partly hlen hkind hpart =>
      rw [parse_partial r hlen hkind hpart] at h
      cases h
    | @frame header payload rest kind hlen hkind hpayload =>
      rw [parse_frame r rest hlen hkind hpayload] at h
      cases hdecode : (Message.decode kind payload : Except ChannelError M) with
      | error e' =>
        rw [hdecode] at h
        cases h
        exact Or.inr ⟨kind, payload, hdecode⟩
      | ok message =>
        rw [hdecode] at h
        have hsize : rest.length < n := by
          simp only [List.length_append] at hn
          have : headerSize = 5 := rfl
          omega
        exact ih rest.length hsize rest h rfl

end Parser

end ProcessTree.Frame
