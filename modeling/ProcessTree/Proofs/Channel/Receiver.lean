-- The receiver of a channel follows the parser of its stream: after any reads
-- the messages that it decoded are those that the parser finds in the bytes
-- read, and it stands where the parser stops. Neither the sizes of the reads
-- nor the bytes of earlier frames in the buffer play a part.
import ProcessTree.Channel.Inbound
import ProcessTree.Proofs.FrameParser

namespace ProcessTree

open ProcessTree.Frame

/-! ## The buffer -/

namespace Buffer

@[simp] theorem fresh_putAll (b : Buffer) (bytes : Bytes) :
    (b.putAll bytes).fresh = bytes.reverse ++ b.fresh := by
  induction bytes generalizing b with
  | nil => rfl
  | cons byte bytes ih =>
    have : b.putAll (byte :: bytes) = (b.put byte).putAll bytes := rfl
    rw [this, ih]
    simp [put]

@[simp] theorem fresh_rewind (b : Buffer) : b.rewind.fresh = [] := rfl

@[simp] theorem fresh_grow (b : Buffer) (n : Nat) : (b.grow n).fresh = b.fresh := rfl

/-- What is decoded are the bytes of this frame: earlier ones lie behind them. -/
theorem slice_of_length (b : Buffer) {n : Nat} (h : b.fresh.length = n) :
    b.slice n = b.fresh.reverse := by
  unfold slice
  rw [List.take_append_of_le_length (by rw [List.length_reverse]; omega),
    List.take_of_length_le (by rw [List.length_reverse]; omega)]

end Buffer

namespace Inbound

variable {M : Type}

/-! ## What a receiver has decoded -/

/-- The message that waits for room in the queue. -/
def held (i : Inbound M) : List M :=
  match i.receiver with
  | .holding message => [message]
  | _ => []

/-- The messages that are decoded and not received yet, the next one first. -/
def ahead (i : Inbound M) : List M := i.queue.toList ++ i.held

/-- The receiver stands where the parser stops. One that has ended has done so over a frame that
cannot be received, or for a cause that its stream gave it. -/
def Stands (i : Inbound M) (cause : ChannelError → Prop) (stop : Stop) : Prop :=
  match i.receiver with
  | .header seen => stop = .short seen ∧ seen.length < headerSize ∧ i.terminal = none
  | .payload kind length missing => ∃ header, stop = .short (header ++ i.buffer.fresh.reverse) ∧
      header.length = headerSize ∧ i.registry.kindOf? (tagOf header) = some kind ∧
      lengthOf header = length ∧ i.buffer.fresh.length + missing = length ∧ 0 < missing ∧
      i.terminal = none
  | .holding _ => stop = .short [] ∧ i.terminal = none
  | .ended => ∃ e, i.terminal = some e ∧
      (stop = .failed e ∨ (∃ left, stop = .short left) ∧ cause e)

/-! ## The queue -/

theorem deliver?_eq_some {i i' : Inbound M} (h : i.deliver? = some i') :
    ∃ message, i.receiver = .holding message ∧ i.queue = none ∧
      i' = { i with receiver := .header [], queue := some message } := by
  unfold deliver? at h
  split at h
  · rename_i message hreceiver hqueue
    cases h
    exact ⟨message, hreceiver, hqueue, rfl⟩
  · cases h

/-- A `recv` gets the message in the queue, or else what ended the receiver, once it has ended. -/
theorem recv?_eq_some {i i' : Inbound M} {answer : Except ChannelError M}
    (h : i.recv? = some (answer, i')) :
    (∃ message, i.queue = some message ∧ answer = .ok message ∧ i' = { i with queue := none }) ∨
      (i.queue = none ∧ i.receiver = .ended ∧ i' = i ∧
        answer = .error (i.terminal.getD .channelClosed)) := by
  unfold recv? at h
  split at h
  · rename_i message hqueue
    cases h
    exact Or.inl ⟨message, hqueue, rfl, rfl⟩
  · rename_i hqueue
    unfold isOver at h
    split at h
    · rename_i hreceiver
      cases h
      exact Or.inr ⟨hqueue, hreceiver, rfl, rfl⟩
    · cases h

/-- A receiver that wants no bytes puts a message into the queue, or its consumer has something to
receive. -/
theorem passes_on_of_stands {i : Inbound M} {cause : ChannelError → Prop} {stop : Stop}
    (h : i.Stands cause stop) (hzero : i.wants = 0) : i.deliver?.isSome ∨ i.recv?.isSome := by
  cases hqueue : i.queue with
  | some message =>
    refine Or.inr ?_
    simp only [recv?, hqueue]
    rfl
  | none =>
    unfold Stands at h
    unfold wants at hzero
    split at h
    · rename_i seen hreceiver
      simp only [hreceiver] at hzero
      omega
    · rename_i kind length missing hreceiver
      obtain ⟨header, -, -, -, -, -, hmissing, -⟩ := h
      simp only [hreceiver] at hzero
      omega
    · rename_i message hreceiver
      refine Or.inl ?_
      simp only [deliver?, hqueue, hreceiver]
      rfl
    · rename_i hreceiver
      refine Or.inr ?_
      simp only [recv?, isOver, hqueue, hreceiver]
      rfl

/-- A receiver that wants bytes holds no message and has not ended. -/
theorem open_of_wants {i : Inbound M} (hpos : 0 < i.wants) : i.held = [] ∧ i.isOver = false := by
  unfold wants at hpos
  unfold held isOver
  split at hpos
  · rename_i seen hreceiver
    rw [hreceiver]
    exact ⟨rfl, rfl⟩
  · rename_i kind length missing hreceiver
    rw [hreceiver]
    exact ⟨rfl, rfl⟩
  · omega
  · omega

/-! ## What a receiver has before it -/

/-- What a receiver can still do without reading: a message that is held goes into the queue and is
received, and the receiver ends once. -/
def load (i : Inbound M) : Nat :=
  2 * i.held.length + i.queue.toList.length + if i.isOver then 0 else 1

theorem length_held_le (i : Inbound M) : i.held.length ≤ 1 := by
  unfold held
  split
  · exact Nat.le_refl 1
  · exact Nat.zero_le 1

theorem load_deliver {i i' : Inbound M} (h : i.deliver? = some i') : i'.load < i.load := by
  obtain ⟨message, hreceiver, hqueue, rfl⟩ := deliver?_eq_some h
  unfold load held isOver
  rw [hreceiver, hqueue]
  simp

theorem load_recv {i : Inbound M} {message : M} (h : i.queue = some message) :
    ({ i with queue := none } : Inbound M).load < i.load := by
  unfold load held isOver
  rw [h]
  simp

theorem load_fail {i : Inbound M} (hpos : 0 < i.wants) (e : ChannelError) :
    (i.fail e).load < i.load := by
  obtain ⟨hheld, hover⟩ := open_of_wants hpos
  have hover' : (i.fail e).isOver = true := rfl
  have hheld' : (i.fail e).held = [] := rfl
  have hqueue' : (i.fail e).queue = i.queue := rfl
  unfold load
  rw [hheld, hover, hheld', hover', hqueue']
  exact Nat.lt_succ_self _

variable [Message M]

/-! ## Following the parser -/

/-- The receiver has read these bytes, and whoever receives from it has got these messages. -/
structure Follows (i : Inbound M) (cause : ChannelError → Prop) (read : Bytes) (got : List M) :
    Prop where
  decoded : (parse (M := M) i.registry read).1 = got ++ i.ahead
  stands : i.Stands cause (parse (M := M) i.registry read).2

theorem follows_start (r : Registry) (cause : ChannelError → Prop) :
    (Inbound.start r : Inbound M).Follows cause [] [] := by
  have hparse : parse (M := M) (Inbound.start r : Inbound M).registry [] = ([], .short []) :=
    parse_short r (by decide)
  constructor
  · rw [hparse]
    rfl
  · rw [hparse]
    exact ⟨rfl, by decide, rfl⟩

theorem Follows.mono {i : Inbound M} {cause cause' : ChannelError → Prop} {read : Bytes}
    {got : List M} (h : i.Follows cause read got) (hcause : ∀ e, cause e → cause' e) :
    i.Follows cause' read got := by
  refine ⟨h.decoded, ?_⟩
  have hstands := h.stands
  unfold Stands at hstands ⊢
  split at hstands
  · exact hstands
  · exact hstands
  · exact hstands
  · obtain ⟨e, hterm, hstop | ⟨hshort, he⟩⟩ := hstands
    · exact ⟨e, hterm, Or.inl hstop⟩
    · exact ⟨e, hterm, Or.inr ⟨hshort, hcause e he⟩⟩

/-! ## Reading -/

theorem decode_frame (i : Inbound M) (kind : String) (length : Nat) :
    (i.decode kind length).registry = i.registry ∧ (i.decode kind length).queue = i.queue := by
  unfold decode
  split <;> exact ⟨rfl, rfl⟩

theorem enter_frame (i : Inbound M) (header : Bytes) :
    (i.enter header).registry = i.registry ∧ (i.enter header).queue = i.queue := by
  unfold enter
  simp only
  split
  · exact ⟨rfl, rfl⟩
  · split
    · exact decode_frame _ _ _
    · exact ⟨rfl, rfl⟩

theorem take_frame (i : Inbound M) (bytes : Bytes) :
    (i.take bytes).registry = i.registry ∧ (i.take bytes).queue = i.queue := by
  unfold take
  split
  · simp only
    split
    · exact enter_frame _ _
    · exact ⟨rfl, rfl⟩
  · simp only
    split
    · exact decode_frame _ _ _
    · exact ⟨rfl, rfl⟩
  · exact ⟨rfl, rfl⟩
  · exact ⟨rfl, rfl⟩

/-- A payload that is complete is decoded as the parser decodes it. -/
theorem decode_parses (i : Inbound M) (cause : ChannelError → Prop) {header payload : Bytes}
    {kind : String} (hlen : header.length = headerSize)
    (hkind : i.registry.kindOf? (tagOf header) = some kind)
    (hpayload : payload.length = lengthOf header)
    (hslice : i.buffer.slice (lengthOf header) = payload) (hterm : i.terminal = none) :
    (parse (M := M) i.registry (header ++ payload)).1 = (i.decode kind (lengthOf header)).held ∧
      (i.decode kind (lengthOf header)).Stands cause
        (parse (M := M) i.registry (header ++ payload)).2 := by
  have hrest : parse (M := M) i.registry [] = ([], .short []) := parse_short i.registry (by decide)
  have hparse := parse_frame (M := M) i.registry [] hlen hkind hpayload
  rw [List.append_nil, hrest] at hparse
  rw [hparse]
  unfold decode
  rw [hslice]
  cases (Message.decode kind payload : Except ChannelError M) with
  | ok message => exact ⟨rfl, rfl, hterm⟩
  | error e =>
    refine ⟨rfl, e, ?_, Or.inl rfl⟩
    unfold fail
    rw [hterm]
    rfl

/-- A header that is complete is acted upon as the parser does. -/
theorem enter_parses (i : Inbound M) (cause : ChannelError → Prop) {header : Bytes}
    (hlen : header.length = headerSize) (hterm : i.terminal = none) :
    (parse (M := M) i.registry header).1 = (i.enter header).held ∧
      (i.enter header).Stands cause (parse (M := M) i.registry header).2 := by
  unfold enter
  simp only
  cases hkind : i.registry.kindOf? (tagOf header) with
  | none =>
    have hparse := parse_unknown (M := M) i.registry [] hlen hkind
    rw [List.append_nil] at hparse
    rw [hparse]
    refine ⟨rfl, _, ?_, Or.inl rfl⟩
    unfold fail
    rw [hterm]
    rfl
  | some kind =>
    simp only
    split
    · rename_i hzero
      have hempty : ([] : Bytes).length = lengthOf header := by rw [hzero]; rfl
      have := decode_parses { i with buffer := i.buffer.rewind.grow (lengthOf header) } cause
        hlen hkind hempty (by rw [hzero]; rfl) hterm
      rw [hzero, List.append_nil] at this
      rw [hzero]
      exact this
    · rename_i hpos
      have hshort : ([] : Bytes).length < lengthOf header := by rw [List.length_nil]; omega
      have hparse := parse_partial (M := M) i.registry hlen hkind hshort
      rw [List.append_nil] at hparse
      rw [hparse]
      refine ⟨rfl, header, ?_, hlen, hkind, rfl, ?_, by omega, hterm⟩
      · simp
      · simp

theorem wants_of_stands {i : Inbound M} {cause : ChannelError → Prop} {stop : Stop}
    (h : i.Stands cause stop) :
    (i.wants = 0 ∧ ∀ bytes, i.take bytes = i) ∨
      (0 < i.wants ∧ i.terminal = none ∧ ∃ left, stop = .short left) := by
  unfold Stands at h
  split at h
  · rename_i seen hreceiver
    obtain ⟨hstop, hseen, hterm⟩ := h
    unfold wants
    rw [hreceiver]
    exact Or.inr ⟨by simp only; omega, hterm, _, hstop⟩
  · rename_i kind length missing hreceiver
    obtain ⟨header, hstop, -, -, -, -, hpos, hterm⟩ := h
    unfold wants
    rw [hreceiver]
    exact Or.inr ⟨hpos, hterm, _, hstop⟩
  · rename_i message hreceiver
    unfold wants take
    rw [hreceiver]
    exact Or.inl ⟨rfl, fun _ => rfl⟩
  · rename_i hreceiver
    unfold wants take
    rw [hreceiver]
    exact Or.inl ⟨rfl, fun _ => rfl⟩

theorem load_take {i : Inbound M} (hpos : 0 < i.wants) (bytes : Bytes) :
    (i.take bytes).load ≤ i.load + 2 := by
  obtain ⟨hheld, hover⟩ := open_of_wants hpos
  obtain ⟨-, hqueue⟩ := take_frame i bytes
  have hone := (i.take bytes).length_held_le
  unfold load
  rw [hheld, hover, hqueue]
  simp only [List.length_nil, Bool.false_eq_true, if_false]
  split
  · omega
  · omega

/-- A read is acted upon as the parser acts upon what was left with the bytes of the read behind
it. -/
theorem take_parses (i : Inbound M) (cause : ChannelError → Prop) {left : Bytes} (bytes : Bytes)
    (h : i.Stands cause (.short left)) (hpos : 0 < i.wants) (hle : bytes.length ≤ i.wants) :
    (parse (M := M) i.registry (left ++ bytes)).1 = (i.take bytes).held ∧
      (i.take bytes).Stands cause (parse (M := M) i.registry (left ++ bytes)).2 := by
  unfold Stands at h
  unfold wants at hpos hle
  unfold take
  split at h
  · rename_i seen hreceiver
    obtain ⟨hstop, hseen, hterm⟩ := h
    cases hstop
    simp only [hreceiver] at hle ⊢
    split
    · rename_i hfull
      refine enter_parses i cause ?_ hterm
      simp only [List.length_append] at hfull ⊢
      omega
    · rename_i hpart
      rw [parse_short _ (by omega)]
      exact ⟨rfl, rfl, by omega, hterm⟩
  · rename_i kind length missing hreceiver
    obtain ⟨header, hstop, hlen, hkind, rfl, hsum, -, hterm⟩ := h
    cases hstop
    simp only [hreceiver] at hle ⊢
    have hfresh : (i.buffer.putAll bytes).fresh.reverse = i.buffer.fresh.reverse ++ bytes := by
      simp
    have hlength : (i.buffer.fresh.reverse ++ bytes).length = lengthOf header -
        (missing - bytes.length) := by
      simp only [List.length_append, List.length_reverse]
      omega
    rw [List.append_assoc]
    split
    · rename_i hfull
      -- What is decoded of the buffer are the bytes of this frame, whatever lies behind them.
      have hpayload : (i.buffer.fresh.reverse ++ bytes).length = lengthOf header := by omega
      refine decode_parses { i with buffer := i.buffer.putAll bytes } cause hlen hkind hpayload
        ?_ hterm
      rw [Buffer.slice_of_length, hfresh]
      rw [← List.length_reverse, hfresh, hpayload]
    · rename_i hpart
      rw [parse_partial _ hlen hkind (by omega)]
      refine ⟨rfl, header, ?_, hlen, hkind, rfl, ?_, by omega, hterm⟩
      · simp only
        rw [hfresh]
      · simp only
        rw [← List.length_reverse, hfresh, hlength]
        omega
  · rename_i message hreceiver
    simp only [hreceiver] at hpos
    omega
  · rename_i hreceiver
    simp only [hreceiver] at hpos
    omega

/-- A read takes the receiver from where the parser stops to where it stops with the bytes of
the read behind the others. -/
theorem Follows.take {i : Inbound M} {cause : ChannelError → Prop} {read : Bytes} {got : List M}
    (h : i.Follows cause read got) (bytes : Bytes) (hle : bytes.length ≤ i.wants) :
    (i.take bytes).Follows cause (read ++ bytes) got := by
  rcases wants_of_stands h.stands with ⟨hzero, hsame⟩ | ⟨hpos, -, left, hstop⟩
  · have hnil : bytes = [] := List.eq_nil_of_length_eq_zero (by omega)
    rw [hsame, hnil, List.append_nil]
    exact h
  · obtain ⟨hregistry, hqueue⟩ := take_frame i bytes
    have hheld := (open_of_wants hpos).1
    have hstands := h.stands
    rw [hstop] at hstands
    obtain ⟨hmessages, hafter⟩ := take_parses i cause bytes hstands hpos hle
    have hparse := parse_append_of_short (M := M) i.registry bytes (Prod.ext rfl hstop)
    constructor
    · have hdecoded := h.decoded
      unfold ahead at hdecoded ⊢
      rw [hheld, List.append_nil] at hdecoded
      rw [hregistry, hqueue, hparse]
      show (parse (M := M) i.registry read).1 ++ _ = _
      rw [hdecoded, hmessages, List.append_assoc]
    · rw [hregistry, hparse]
      exact hafter

/-! ## The end of the stream -/

/-- A receiver that wants bytes and is told instead that there are none ends for that cause. -/
theorem Follows.fail {i : Inbound M} {cause : ChannelError → Prop} {read : Bytes} {got : List M}
    (h : i.Follows cause read got) (hpos : 0 < i.wants) (e : ChannelError) (he : cause e) :
    (i.fail e).Follows cause read got := by
  rcases wants_of_stands h.stands with ⟨hzero, -⟩ | ⟨-, hterm, left, hstop⟩
  · omega
  · have hheld := (open_of_wants hpos).1
    constructor
    · have hdecoded := h.decoded
      unfold ahead at hdecoded ⊢
      rw [hheld] at hdecoded
      exact hdecoded
    · refine ⟨e, ?_, Or.inr ⟨⟨left, hstop⟩, he⟩⟩
      unfold Inbound.fail
      rw [hterm]
      rfl

/-- A frame that cannot be received has ended the receiver already. -/
theorem Follows.latched {i : Inbound M} {cause : ChannelError → Prop} {read : Bytes}
    {got : List M} (h : i.Follows cause read got) {e : ChannelError}
    (hfailed : (parse (M := M) i.registry read).2 = .failed e) : i.terminal = some e := by
  have hstands := h.stands
  rw [hfailed] at hstands
  unfold Stands at hstands
  split at hstands
  · cases hstands.1
  · obtain ⟨header, hstop, -⟩ := hstands
    cases hstop
  · cases hstands.1
  · obtain ⟨e', hterm, hstop | ⟨⟨left, hstop⟩, -⟩⟩ := hstands
    · cases hstop
      exact hterm
    · cases hstop

/-! ## Receiving -/

theorem Follows.deliver {i i' : Inbound M} {cause : ChannelError → Prop} {read : Bytes}
    {got : List M} (h : i.Follows cause read got) (hi : i.deliver? = some i') :
    i'.Follows cause read got := by
  obtain ⟨message, hreceiver, hqueue, rfl⟩ := deliver?_eq_some hi
  have hstands := h.stands
  unfold Stands at hstands
  simp only [hreceiver] at hstands
  obtain ⟨hstop, hterm⟩ := hstands
  constructor
  · have hdecoded := h.decoded
    unfold ahead held at hdecoded ⊢
    rw [hreceiver, hqueue] at hdecoded
    exact hdecoded
  · rw [hstop]
    exact ⟨rfl, by decide, hterm⟩

theorem Follows.recv_ok {i : Inbound M} {cause : ChannelError → Prop} {read : Bytes}
    {got : List M} {message : M} (h : i.Follows cause read got) (hqueue : i.queue = some message) :
    ({ i with queue := none } : Inbound M).Follows cause read (got ++ [message]) := by
  constructor
  · have hdecoded := h.decoded
    unfold ahead at hdecoded
    rw [hqueue] at hdecoded
    rw [List.append_assoc]
    exact hdecoded
  · exact h.stands

/-- A receiver that has ended, with an empty queue, has given all messages of the bytes it read,
and its reason is that of the parser or a cause that the stream gave it. -/
theorem Follows.ended {i : Inbound M} {cause : ChannelError → Prop} {read : Bytes} {got : List M}
    (h : i.Follows cause read got) (hqueue : i.queue = none) (hreceiver : i.receiver = .ended) :
    (parse (M := M) i.registry read).1 = got ∧ ∃ e, i.terminal = some e ∧
      ((parse (M := M) i.registry read).2 = .failed e ∨
        (∃ left, (parse (M := M) i.registry read).2 = .short left) ∧ cause e) := by
  have hdecoded := h.decoded
  have hstands := h.stands
  unfold ahead held at hdecoded
  unfold Stands at hstands
  rw [hqueue, hreceiver] at hdecoded
  simp only [hreceiver] at hstands
  exact ⟨by simpa using hdecoded, hstands⟩

end Inbound

end ProcessTree
