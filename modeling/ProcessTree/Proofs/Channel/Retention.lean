-- The buffer of a receiver: how much room it keeps, what it grows for, and what
-- of it is decoded. Here the receiver goes on in single steps, so that the buffer
-- is seen between the last read of a frame and its decoding.
import ProcessTree.Proofs.Channel.Reception

namespace ProcessTree

open ProcessTree.Frame

/-- Behind complete frames, all received, a stream has this header of a frame of this kind. -/
structure Frame.Heads (M : Type) [Message M] (r : Registry) (front header : Bytes)
    (kind : String) : Prop where
  complete : (parse (M := M) r front).2 = .short []
  whole : header.length = headerSize
  registered : r.kindOf? (tagOf header) = some kind

/-- The front goes on with a frame whose payload is decoded. -/
theorem Frame.Heads.parse_frame {M : Type} [Message M] {r : Registry}
    {front header payload : Bytes} {kind : String} (h : Heads M r front header kind)
    (hpayload : payload.length = lengthOf header) {message : M}
    (hdecode : Message.decode kind payload = .ok message) :
    (parse (M := M) r (front ++ (header ++ payload))).2 = .short [] := by
  have hnone : ([] : Bytes).length < headerSize := by decide
  have hframe := Frame.parse_frame (M := M) r [] h.whole h.registered hpayload
  rw [List.append_nil, hdecode, parse_short r hnone] at hframe
  rw [parse_append_of_short r _ (Prod.ext rfl h.complete), List.nil_append, hframe]

/-! ## The room of a buffer -/

namespace Buffer

/-- What a buffer holds, of this frame and of earlier ones, is in its room. -/
def Sized (b : Buffer) : Prop := b.fresh.length + b.stale.length ≤ b.size

theorem sized_empty : empty.Sized := Nat.le_refl 0

theorem Sized.rewind {b : Buffer} (h : b.Sized) : b.rewind.Sized := by
  unfold Sized at h ⊢
  simp only [Buffer.rewind, List.length_nil, List.length_append, List.length_reverse]
  omega

theorem Sized.grow {b : Buffer} (h : b.Sized) (n : Nat) : (b.grow n).Sized :=
  Nat.le_trans h (Nat.le_max_left b.size n)

@[simp] theorem size_putAll (b : Buffer) (bytes : Bytes) : (b.putAll bytes).size = b.size := by
  induction bytes generalizing b with
  | nil => rfl
  | cons byte bytes ih => exact ih (b.put byte)

/-- Bytes that there is room for overwrite those of earlier frames, and then what is zero. -/
theorem Sized.putAll {b : Buffer} (h : b.Sized) {bytes : Bytes}
    (hroom : b.fresh.length + bytes.length ≤ b.size) : (b.putAll bytes).Sized := by
  induction bytes generalizing b with
  | nil => exact h
  | cons byte bytes ih =>
    rw [List.length_cons] at hroom
    have hput : (b.put byte).fresh.length + bytes.length ≤ (b.put byte).size := by
      simp only [put, List.length_cons]
      omega
    refine ih ?_ hput
    unfold Sized at h ⊢
    simp only [put, List.length_cons, List.length_tail]
    omega

theorem Sized.release {b : Buffer} (h : b.Sized) : b.release.Sized := by
  unfold Buffer.release
  split
  · exact sized_empty
  · exact h

theorem size_release_le_retained (b : Buffer) : b.release.size ≤ retained := by
  unfold release
  split
  · exact Nat.zero_le retained
  · omega

theorem size_release_le (b : Buffer) : b.release.size ≤ b.size := by
  unfold release
  split
  · exact Nat.zero_le b.size
  · exact Nat.le_refl b.size

end Buffer

/-! ## Reading apart from decoding -/

namespace Inbound

variable {M : Type}

/-- Takes bytes that a read gave; a payload that they complete is left to be decoded. -/
def absorb (i : Inbound M) (bytes : Bytes) : Inbound M :=
  match i.receiver with
  | .header seen =>
    let header := seen ++ bytes
    if headerSize ≤ header.length then
      match i.registry.kindOf? (tagOf header) with
      | none => i.fail (.unknownTag i.registry.name (tagOf header))
      | some kind =>
        { i with
          receiver := .payload kind (lengthOf header) (lengthOf header)
          buffer := i.buffer.rewind.grow (lengthOf header) }
    else { i with receiver := .header header }
  | .payload kind length missing =>
    { i with
      receiver := .payload kind length (missing - bytes.length)
      buffer := i.buffer.putAll bytes }
  | .holding _ | .ended => i

/-- One read call with what has arrived, as far as the decoding. -/
def fetch (i : Inbound M) : List Arrival → Inbound M × List Arrival
  | [] => (i, [])
  | .chunk bytes :: rest =>
    let left := bytes.drop i.wants
    (i.absorb (bytes.take i.wants), if left.isEmpty then rest else .chunk left :: rest)
  | .failed failure :: rest => (i.fail (.io failure), rest)
  | .finished :: rest => (i.fail .channelClosed, .finished :: rest)

/-- All that taking bytes can do to a receiver that wants them. -/
inductive Absorbs (i : Inbound M) (bytes : Bytes) : Inbound M → Prop
  | more {seen : Bytes} (reads : i.receiver = .header seen)
      (short : (seen ++ bytes).length < headerSize) :
      Absorbs i bytes { i with receiver := .header (seen ++ bytes) }
  | unknown {seen : Bytes} (reads : i.receiver = .header seen)
      (whole : (seen ++ bytes).length = headerSize)
      (strange : i.registry.kindOf? (tagOf (seen ++ bytes)) = none) :
      Absorbs i bytes (i.fail (.unknownTag i.registry.name (tagOf (seen ++ bytes))))
  | known {seen : Bytes} {kind : String} (reads : i.receiver = .header seen)
      (whole : (seen ++ bytes).length = headerSize)
      (registered : i.registry.kindOf? (tagOf (seen ++ bytes)) = some kind) :
      Absorbs i bytes { i with
        receiver := .payload kind (lengthOf (seen ++ bytes)) (lengthOf (seen ++ bytes))
        buffer := i.buffer.rewind.grow (lengthOf (seen ++ bytes)) }
  | fill {kind : String} {length missing : Nat}
      (reads : i.receiver = .payload kind length missing) (fits : bytes.length ≤ missing) :
      Absorbs i bytes { i with
        receiver := .payload kind length (missing - bytes.length)
        buffer := i.buffer.putAll bytes }

theorem absorbs_absorb {i : Inbound M} {bytes : Bytes} (hpos : 0 < i.wants)
    (hle : bytes.length ≤ i.wants) : i.Absorbs bytes (i.absorb bytes) := by
  unfold wants at hpos hle
  unfold absorb
  cases hreceiver : i.receiver with
  | header seen =>
    simp only [hreceiver] at hpos hle ⊢
    split
    · rename_i hfull
      have hwhole : (seen ++ bytes).length = headerSize := by
        rw [List.length_append] at hfull ⊢
        omega
      cases hkind : i.registry.kindOf? (tagOf (seen ++ bytes)) with
      | none => exact .unknown hreceiver hwhole hkind
      | some kind => exact .known hreceiver hwhole hkind
    · rename_i hpart
      exact .more hreceiver (Nat.lt_of_not_le hpart)
  | payload kind length missing =>
    simp only [hreceiver] at hle
    exact .fill hreceiver hle
  | holding message =>
    simp only [hreceiver] at hpos
    omega
  | ended =>
    simp only [hreceiver] at hpos
    omega

theorem Absorbs.registry {i i' : Inbound M} {bytes : Bytes} (h : i.Absorbs bytes i') :
    i'.registry = i.registry := by
  cases h <;> rfl

/-- All that a read call does: bytes of the stream are absorbed, or it is told that there are
none. -/
theorem fetch_cases {i : Inbound M} (hpos : 0 < i.wants) (arrival : Arrival)
    (rest : List Arrival) :
    (∃ bytes, (arrival :: rest).flatMap Arrival.bytes =
        bytes ++ (i.fetch (arrival :: rest)).2.flatMap Arrival.bytes ∧
        i.Absorbs bytes (i.fetch (arrival :: rest)).1) ∨
      ∃ e, (i.fetch (arrival :: rest)).1 = i.fail e ∧
        (i.fetch (arrival :: rest)).2.flatMap Arrival.bytes =
          (arrival :: rest).flatMap Arrival.bytes := by
  cases arrival with
  | chunk bytes =>
    refine .inl ⟨bytes.take i.wants, ?_, absorbs_absorb hpos (by simp)⟩
    simp only [fetch]
    split
    · rename_i hleft
      have hall : bytes.take i.wants = bytes := by
        have hsplit := List.take_append_drop i.wants bytes
        rw [List.isEmpty_iff.mp hleft, List.append_nil] at hsplit
        exact hsplit
      rw [hall]
      rfl
    · simp only [List.flatMap_cons, Arrival.bytes]
      rw [← List.append_assoc, List.take_append_drop]
  | failed failure => exact .inr ⟨_, rfl, rfl⟩
  | finished => exact .inr ⟨_, rfl, rfl⟩

section Decoding

variable [Message M]

/-- Decodes the payload that is complete, if there is one. -/
def finish (i : Inbound M) : Inbound M :=
  match i.receiver with
  | .payload kind length 0 => i.decode kind length
  | _ => i

theorem finish_of_payload {i : Inbound M} {kind : String} {length missing : Nat}
    (h : i.receiver = .payload kind length missing) :
    i.finish = if missing = 0 then i.decode kind length else i := by
  unfold finish
  rw [h]
  cases missing with
  | zero => rfl
  | succ missing => rfl

theorem finish_of_ended {i : Inbound M} (h : i.receiver = .ended) : i.finish = i := by
  unfold finish
  rw [h]

/-- Decoding looks at the buffer only, and ends the reading of a frame. -/
theorem decode_of_receiver (i : Inbound M) (receiver : Receiver M) (kind : String)
    (length : Nat) : { i with receiver }.decode kind length = i.decode kind length := by
  unfold decode
  cases Message.decode (M := M) kind (i.buffer.slice length) with
  | ok message => rfl
  | error e => rfl

/-- To take bytes is to absorb them and then to decode what is complete. -/
theorem take_eq_finish (i : Inbound M) (bytes : Bytes) :
    i.take bytes = (i.absorb bytes).finish := by
  unfold take absorb
  cases hreceiver : i.receiver with
  | header seen =>
    simp only
    split
    · unfold enter
      simp only
      cases hkind : i.registry.kindOf? (tagOf (seen ++ bytes)) with
      | none => rfl
      | some kind =>
        simp only
        rw [finish_of_payload rfl]
        split
        · rename_i hzero
          rw [hzero]
          exact (decode_of_receiver { i with buffer := i.buffer.rewind.grow 0 }
            (.payload kind 0 0) kind 0).symm
        · rfl
    · rfl
  | payload kind length missing =>
    simp only
    rw [finish_of_payload rfl]
    split
    · exact (decode_of_receiver _ _ kind length).symm
    · rfl
  | holding message =>
    unfold finish
    rw [hreceiver]
  | ended => exact (finish_of_ended hreceiver).symm

theorem read_eq_finish (i : Inbound M) (arrival : Arrival) (rest : List Arrival) :
    i.read (arrival :: rest) =
      ((i.fetch (arrival :: rest)).1.finish, (i.fetch (arrival :: rest)).2) := by
  cases arrival with
  | chunk bytes => exact congrArg (·, _) (i.take_eq_finish _)
  | failed failure => exact congrArg (·, _) (finish_of_ended rfl).symm
  | finished => exact congrArg (·, _) (finish_of_ended rfl).symm

/-! ## What a receiver keeps -/

/-- Of the bytes that the receiver has read behind complete frames, what its buffer holds; and the
room that it has for them. Between two frames there is little of it. -/
def Stage (i : Inbound M) (front left : Bytes) : Prop :=
  match i.receiver with
  | .header seen => left = seen ∧ seen.length < headerSize ∧ i.buffer.size ≤ Buffer.retained
  | .payload kind length missing => ∃ header, left = header ++ i.buffer.fresh.reverse ∧
      Heads M i.registry front header kind ∧ lengthOf header = length ∧
      i.buffer.fresh.length + missing = length ∧ length ≤ i.buffer.size
  | .holding _ => left = [] ∧ i.buffer.size ≤ Buffer.retained
  | .ended => True

/-- The receiver has read complete frames, and these bytes behind them. -/
structure Keeps (i : Inbound M) (front left : Bytes) : Prop where
  complete : (parse (M := M) i.registry front).2 = .short []
  sized : i.buffer.Sized
  stage : i.Stage front left

variable {i i' : Inbound M} {front left bytes : Bytes}

theorem keeps_start (r : Registry) : (Inbound.start r : Inbound M).Keeps [] [] := by
  constructor
  · rw [parse_short _ (by decide)]
  · exact Buffer.sized_empty
  · exact ⟨rfl, by decide, Nat.zero_le _⟩

theorem Keeps.of_header (h : i.Keeps front left) {seen : Bytes}
    (reads : i.receiver = .header seen) :
    left = seen ∧ seen.length < headerSize ∧ i.buffer.size ≤ Buffer.retained := by
  have hstage := h.stage
  unfold Stage at hstage
  simpa only [reads] using hstage

theorem Keeps.of_payload (h : i.Keeps front left) {kind : String} {length missing : Nat}
    (reads : i.receiver = .payload kind length missing) :
    ∃ header, left = header ++ i.buffer.fresh.reverse ∧
      Heads M i.registry front header kind ∧ lengthOf header = length ∧
      i.buffer.fresh.length + missing = length ∧ length ≤ i.buffer.size := by
  have hstage := h.stage
  unfold Stage at hstage
  simpa only [reads] using hstage

/-- Bytes that are absorbed come behind those that were read. -/
theorem Keeps.absorbs (h : i.Keeps front left) (hi : i.Absorbs bytes i') :
    i'.Keeps front (left ++ bytes) := by
  cases hi with
  | more reads short =>
    obtain ⟨rfl, -, hlittle⟩ := h.of_header reads
    exact ⟨h.complete, h.sized, rfl, short, hlittle⟩
  | unknown reads whole strange => exact ⟨h.complete, h.sized, trivial⟩
  | @known seen kind reads whole registered =>
    obtain ⟨rfl, -, -⟩ := h.of_header reads
    refine ⟨h.complete, h.sized.rewind.grow _, left ++ bytes, ?_, ⟨h.complete, whole, registered⟩,
      rfl, ?_, Nat.le_max_right _ _⟩
    · simp
    · simp
  | @fill kind length missing reads fits =>
    obtain ⟨header, rfl, hheads, hlength, hcount, hroom⟩ := h.of_payload reads
    refine ⟨h.complete, h.sized.putAll (by omega), header, ?_, hheads, hlength, ?_, ?_⟩
    · simp
    · simp only [Buffer.fresh_putAll, List.length_append, List.length_reverse]
      omega
    · rw [Buffer.size_putAll]
      exact hroom

/-- The buffer grows with the last byte of a header, for the frame of that header. -/
theorem Keeps.grown (h : i.Keeps front left) (hi : i.Absorbs bytes i')
    (hgrown : i.buffer.size < i'.buffer.size) :
    ∃ kind, Heads M i.registry front (left ++ bytes) kind ∧
      i'.buffer.size = max i.buffer.size (lengthOf (left ++ bytes)) := by
  cases hi with
  | more reads short => exact absurd hgrown (Nat.lt_irrefl _)
  | unknown reads whole strange => exact absurd hgrown (Nat.lt_irrefl _)
  | @known seen kind reads whole registered =>
    obtain ⟨rfl, -, -⟩ := h.of_header reads
    exact ⟨kind, ⟨h.complete, whole, registered⟩, rfl⟩
  | fill reads fits =>
    rw [Buffer.size_putAll] at hgrown
    exact absurd hgrown (Nat.lt_irrefl _)

theorem Keeps.fail (h : i.Keeps front left) (e : ChannelError) : (i.fail e).Keeps front left :=
  ⟨h.complete, h.sized, trivial⟩

/-- A complete payload in the buffer is what was read behind the header of its frame. -/
theorem Keeps.slice (h : i.Keeps front left) {kind : String} {length : Nat}
    (hreceiver : i.receiver = .payload kind length 0) :
    ∃ header, left = header ++ i.buffer.slice length ∧ Heads M i.registry front header kind ∧
      lengthOf header = length ∧ (i.buffer.slice length).length = length := by
  obtain ⟨header, rfl, hheads, hlength, hcount, -⟩ := h.of_payload hreceiver
  have hslice := i.buffer.slice_of_length hcount
  exact ⟨header, by rw [hslice], hheads, hlength, by rw [hslice, List.length_reverse]; exact hcount⟩

/-- A frame that is decoded is one more of those that are complete, and little room is left. -/
theorem Keeps.decode (h : i.Keeps front left) {kind : String} {length : Nat}
    (hreceiver : i.receiver = .payload kind length 0) :
    ∃ front' left', (i.decode kind length).Keeps front' left' ∧ front' ++ left' = front ++ left ∧
      (i.decode kind length).buffer.size ≤ i.buffer.size := by
  obtain ⟨header, rfl, hheads, hlength, hwhole⟩ := h.slice hreceiver
  unfold Inbound.decode
  cases hdecode : Message.decode (M := M) kind (i.buffer.slice length) with
  | ok message =>
    refine ⟨front ++ (header ++ i.buffer.slice length), [], ⟨?_, h.sized.release, rfl, ?_⟩,
      List.append_nil _, i.buffer.size_release_le⟩
    · exact hheads.parse_frame (hwhole.trans hlength.symm) hdecode
    · exact i.buffer.size_release_le_retained
  | error e => exact ⟨front, _, h.fail e, rfl, Nat.le_refl _⟩

theorem Keeps.deliver (h : i.Keeps front left) (hi : i.deliver? = some i') :
    i'.Keeps front left := by
  obtain ⟨message, hreceiver, -, rfl⟩ := deliver?_eq_some hi
  have hstage := h.stage
  unfold Stage at hstage
  simp only [hreceiver] at hstage
  obtain ⟨rfl, hlittle⟩ := hstage
  exact ⟨h.complete, h.sized, rfl, by decide, hlittle⟩

end Decoding

end Inbound

namespace Reception

variable {M : Type} [Message M]

/-! ## Single steps -/

/-- A move of a reception, reading and decoding apart. -/
inductive Step where
  | read
  /-- The payload that is complete is handed to the decoder. -/
  | decode
  | deliver
  | recv
  deriving DecidableEq

/-- What a step leads to, where it is possible. -/
def step? (t : Reception M) : Step → Option (Reception M)
  | .read =>
    if t.inbound.wants = 0 ∨ t.arrivals.isEmpty then none
    else
      let (inbound, arrivals) := t.inbound.fetch t.arrivals
      some { t with inbound, arrivals }
  | .decode =>
    match t.inbound.receiver with
    | .payload kind length 0 => some { t with inbound := t.inbound.decode kind length }
    | _ => none
  | .deliver => t.next? .deliver
  | .recv => t.next? .recv

/-- A row of steps. -/
def steps? (t : Reception M) : List Step → Option (Reception M)
  | [] => some t
  | step :: steps => (t.step? step).bind fun t' => t'.steps? steps

variable {t t' : Reception M}

theorem steps?_append (steps others : List Step) :
    t.steps? (steps ++ others) = (t.steps? steps).bind (·.steps? others) := by
  induction steps generalizing t with
  | nil => rfl
  | cons step steps ih =>
    simp only [List.cons_append, steps?, Option.bind_assoc, ih]

theorem step?_read_eq_some (h : t.step? .read = some t') :
    0 < t.inbound.wants ∧ ∃ arrival rest, t.arrivals = arrival :: rest ∧
      t' = ⟨(t.inbound.fetch (arrival :: rest)).1, (t.inbound.fetch (arrival :: rest)).2,
        t.answers⟩ := by
  simp only [step?] at h
  split at h
  · cases h
  · rename_i hmove
    cases h
    obtain ⟨arrival, rest, harrivals⟩ : ∃ arrival rest, t.arrivals = arrival :: rest :=
      List.exists_cons_of_ne_nil (by simpa using fun hnil => hmove (.inr hnil))
    refine ⟨by omega, arrival, rest, harrivals, ?_⟩
    rw [harrivals]

theorem step?_decode_eq_some (h : t.step? .decode = some t') :
    ∃ kind length, t.inbound.receiver = .payload kind length 0 ∧
      t' = { t with inbound := t.inbound.decode kind length } := by
  simp only [step?] at h
  split at h
  · rename_i kind length hreceiver
    cases h
    exact ⟨kind, length, hreceiver, rfl⟩
  · cases h

/-- A receiver finishes in one step or none. -/
theorem steps_of_finish (t : Reception M) :
    ∃ steps, t.steps? steps = some { t with inbound := t.inbound.finish } := by
  by_cases hcomplete : ∃ kind length, t.inbound.receiver = .payload kind length 0
  · obtain ⟨kind, length, hreceiver⟩ := hcomplete
    refine ⟨[.decode], ?_⟩
    rw [Inbound.finish_of_payload hreceiver]
    simp only [steps?, step?, hreceiver]
    rfl
  · refine ⟨[], ?_⟩
    unfold Inbound.finish
    split
    · rename_i kind length hreceiver
      exact absurd ⟨kind, length, hreceiver⟩ hcomplete
    · rfl

/-- A read is one step, or two where a payload is complete with it. -/
theorem steps_of_read (h : t.next? .read = some t') : ∃ steps, t.steps? steps = some t' := by
  obtain ⟨hpos, ht'⟩ := next?_read_eq_some h
  cases harrivals : t.arrivals with
  | nil => simp [next?, harrivals] at h
  | cons arrival rest =>
    rw [harrivals, Inbound.read_eq_finish] at ht'
    obtain ⟨steps, hsteps⟩ := steps_of_finish ⟨(t.inbound.fetch (arrival :: rest)).1,
      (t.inbound.fetch (arrival :: rest)).2, t.answers⟩
    have hread : ¬ (t.inbound.wants = 0 ∨ (arrival :: rest).isEmpty = true) := by
      simp only [List.isEmpty_cons, Bool.false_eq_true, or_false]
      omega
    refine ⟨.read :: steps, ?_⟩
    rw [steps?, step?, harrivals, if_neg hread, ht']
    exact hsteps

/-- Each move of a reception is a row of these steps. -/
theorem steps_of_next? {move : Move} (h : t.next? move = some t') :
    ∃ steps, t.steps? steps = some t' := by
  cases move with
  | read => exact steps_of_read h
  | deliver => exact ⟨[.deliver], by rw [steps?, step?, h]; rfl⟩
  | recv => exact ⟨[.recv], by rw [steps?, step?, h]; rfl⟩

/-- So is each row of moves. -/
theorem steps_of_run? {moves : List Move} (h : t.run? moves = some t') :
    ∃ steps, t.steps? steps = some t' := by
  induction moves generalizing t with
  | nil => exact ⟨[], h⟩
  | cons move moves ih =>
    obtain ⟨mid, hmove, hrest⟩ := Option.bind_eq_some_iff.mp h
    obtain ⟨steps, hsteps⟩ := steps_of_next? hmove
    obtain ⟨others, hothers⟩ := ih hrest
    refine ⟨steps ++ others, ?_⟩
    rw [steps?_append, hsteps]
    exact hothers

/-! ## The invariant -/

/-- The reception has read complete frames of the whole stream, and these bytes behind them. -/
structure Kept (t : Reception M) (r : Registry) (whole front left : Bytes) : Prop where
  registry : t.inbound.registry = r
  bytes : front ++ left ++ t.unread = whole
  keeps : t.inbound.Keeps front left

variable {r : Registry} {whole front left : Bytes}

theorem kept_start (r : Registry) (chunks : List Bytes) (ending : Ending) :
    (start r chunks ending : Reception M).Kept r chunks.flatten [] [] :=
  ⟨rfl, unread_chunks chunks ending, Inbound.keeps_start r⟩

/-- A step keeps the account of the bytes, and the buffer grows with it only for the frame whose
header it completes. -/
theorem Kept.step (h : t.Kept r whole front left) {step : Step} (hstep : t.step? step = some t') :
    ∃ front' left', t'.Kept r whole front' left' ∧
      (t.inbound.buffer.size < t'.inbound.buffer.size → ∃ kind, Heads M r front' left' kind ∧
        t'.inbound.buffer.size = max t.inbound.buffer.size (lengthOf left')) := by
  obtain ⟨rfl, hbytes, hkeeps⟩ := h
  cases step with
  | read =>
    obtain ⟨hpos, arrival, rest, harrivals, rfl⟩ := step?_read_eq_some hstep
    unfold unread at hbytes
    rw [harrivals] at hbytes
    rcases Inbound.fetch_cases hpos arrival rest with ⟨bytes, hread, habsorbs⟩ | ⟨e, hfail, hread⟩
    · refine ⟨front, left ++ bytes, ⟨habsorbs.registry, ?_, hkeeps.absorbs habsorbs⟩,
        hkeeps.grown habsorbs⟩
      rw [hread] at hbytes
      rw [← List.append_assoc, List.append_assoc]
      exact hbytes
    · refine ⟨front, left, ⟨?_, ?_, ?_⟩, ?_⟩
      · simp only [hfail]
        rfl
      · rw [← hread] at hbytes
        exact hbytes
      · simp only [hfail]
        exact hkeeps.fail e
      · intro hgrown
        simp only [hfail] at hgrown
        exact absurd hgrown (Nat.lt_irrefl _)
  | decode =>
    obtain ⟨kind, length, hreceiver, rfl⟩ := step?_decode_eq_some hstep
    obtain ⟨front', left', hdecoded, hsame, hsize⟩ := hkeeps.decode hreceiver
    refine ⟨front', left', ⟨(Inbound.decode_frame _ _ _).1, ?_, hdecoded⟩, ?_⟩
    · rw [hsame]
      exact hbytes
    · intro hgrown
      exact absurd hgrown (Nat.not_lt_of_le hsize)
  | deliver =>
    obtain ⟨inbound, hinbound, rfl⟩ := Option.map_eq_some_iff.mp hstep
    have hdelivered := hkeeps.deliver hinbound
    obtain ⟨message, -, -, rfl⟩ := Inbound.deliver?_eq_some hinbound
    exact ⟨front, left, ⟨rfl, hbytes, hdelivered⟩, fun hgrown => absurd hgrown (Nat.lt_irrefl _)⟩
  | recv =>
    obtain ⟨answer, inbound, hrecv, rfl⟩ := next?_recv_eq_some hstep
    obtain ⟨message, -, -, rfl⟩ | ⟨-, -, rfl, -⟩ := Inbound.recv?_eq_some hrecv
    · exact ⟨front, left, ⟨rfl, hbytes, hkeeps.complete, hkeeps.sized, hkeeps.stage⟩,
        fun hgrown => absurd hgrown (Nat.lt_irrefl _)⟩
    · exact ⟨front, left, ⟨rfl, hbytes, hkeeps⟩, fun hgrown => absurd hgrown (Nat.lt_irrefl _)⟩

/-- So does a row of steps. -/
theorem Kept.steps (h : t.Kept r whole front left) {steps : List Step}
    (hrun : t.steps? steps = some t') : ∃ front' left', t'.Kept r whole front' left' := by
  induction steps generalizing t front left with
  | nil =>
    cases hrun
    exact ⟨front, left, h⟩
  | cons step steps ih =>
    obtain ⟨mid, hstep, hrest⟩ := Option.bind_eq_some_iff.mp hrun
    obtain ⟨front', left', hmid, -⟩ := h.step hstep
    exact ih hmid hrest

/-! ## The law -/

/-- While a header is read, the buffer of the receiver has room for 1 MiB at most, and never does it
hold more than it has room for. It grows only once a header is read whose tag stands for a kind, and
then to the length of that frame if it was smaller. What is handed to the decoder are the bytes that
the stream has behind the header of this frame, as many as the header says, and the bytes in front of
that header are frames that were received before. These steps are all that a reception does. -/
theorem a_receiver_keeps_little_room_and_decodes_what_it_read (r : Registry) (chunks : List Bytes)
    (ending : Ending) (steps : List Step) (t : Reception M)
    (hrun : (start r chunks ending).steps? steps = some t) :
    t.inbound.buffer.fresh.length + t.inbound.buffer.stale.length ≤ t.inbound.buffer.size ∧
      (∀ seen, t.inbound.receiver = .header seen → t.inbound.buffer.size ≤ 1024 * 1024) ∧
      (∀ step t', t.step? step = some t' → t.inbound.buffer.size < t'.inbound.buffer.size →
        ∃ front header kind, front ++ header ++ t'.unread = chunks.flatten ∧
          Heads M r front header kind ∧
          t'.inbound.buffer.size = max t.inbound.buffer.size (lengthOf header)) ∧
      (∀ kind length, t.inbound.receiver = .payload kind length 0 →
        ∃ front header, front ++ header ++ t.inbound.buffer.slice length ++ t.unread =
            chunks.flatten ∧
          Heads M r front header kind ∧ lengthOf header = length ∧
          (t.inbound.buffer.slice length).length = length) ∧
      ∀ moves t', (start r chunks ending : Reception M).run? moves = some t' →
        ∃ steps, (start r chunks ending).steps? steps = some t' := by
  obtain ⟨front, left, hkept⟩ := (kept_start r chunks ending).steps hrun
  refine ⟨hkept.keeps.sized, ?_, ?_, ?_, fun _ _ => steps_of_run?⟩
  · intro seen hreceiver
    exact (hkept.keeps.of_header hreceiver).2.2
  · intro step t' hstep hgrown
    obtain ⟨front', header, hkept', hgrows⟩ := hkept.step hstep
    obtain ⟨kind, hheads, hsize⟩ := hgrows hgrown
    exact ⟨front', header, kind, hkept'.bytes, hheads, hsize⟩
  · intro kind length hreceiver
    obtain ⟨header, rfl, hheads, hlength, hwhole⟩ := hkept.keeps.slice hreceiver
    have hbytes := hkept.bytes
    rw [← List.append_assoc] at hbytes
    rw [hkept.registry] at hheads
    exact ⟨front, header, hbytes, hheads, hlength, hwhole⟩

/-- The frame of a start of an unmapped job, and behind it that of a quit. -/
def startAndQuit : Bytes :=
  [2, 0, 0, 0, 19, 0x81, 0xA8, 0x69, 0x64, 0x65, 0x6E, 0x74, 0x69, 0x74, 0x79, 0xA8, 0x75, 0x6E,
    0x6D, 0x61, 0x70, 0x70, 0x65, 0x64] ++ [255, 0, 0, 0, 1] ++ [0x80]

/-- The quit is shorter than the start, and decoded without the bytes that the start has left in the
buffer. -/
theorem a_quit_is_decoded_without_the_start_before_it :
    ∃ t : Reception ControlMessage,
      (start Direction.rootToWorker.registry [startAndQuit] .finished).steps?
        [.read, .read, .decode, .deliver, .read, .read] = some t ∧
      t.inbound.buffer.stale.length = 18 ∧ t.inbound.buffer.slice 1 = [0x80] := by
  refine ⟨_, rfl, rfl, ?_⟩
  obtain ⟨-, -, -, hdecoded, -⟩ := a_receiver_keeps_little_room_and_decodes_what_it_read
    (M := ControlMessage) Direction.rootToWorker.registry [startAndQuit] .finished
    [.read, .read, .decode, .deliver, .read, .read] _ rfl
  obtain ⟨front, header, hbytes, -, -, hlength⟩ := hdecoded Kind.quit 1 rfl
  -- All bytes are read, so the payload is the last of them.
  rw [show startAndQuit = startAndQuit.take 29 ++ [0x80] from rfl, List.flatten_singleton] at hbytes
  exact (List.append_inj' ((List.append_nil _).symm.trans hbytes) hlength).2

end Reception

end ProcessTree
