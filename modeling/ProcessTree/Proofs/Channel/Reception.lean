-- A receiver at work. Its stream is read, messages go into the queue and a
-- consumer receives, in any order. Whatever the order and however the bytes
-- are handed to the reads, the consumer gets the messages that the parser finds
-- in the stream, and then what ended them.
import ProcessTree.Channel.Session
import ProcessTree.Vocabulary
import ProcessTree.Proofs.Channel.Receiver
import ProcessTree.Proofs.Messages

namespace ProcessTree

open ProcessTree.Frame

/-! ## Streams -/

/-- How a stream ends. -/
inductive Ending where
  | finished
  | failed (failure : IoFailure)

namespace Ending

def arrival : Ending → Arrival
  | .finished => .finished
  | .failed failure => .failed failure

/-- What a read at the end of the stream is told. -/
def error : Ending → ChannelError
  | .finished => .channelClosed
  | .failed failure => .io failure

/-- What a consumer is told after the last message: why the parser failed, or, where it only ran
out of bytes, how the stream ended. -/
def verdict (ending : Ending) : Stop → ChannelError
  | .short _ => ending.error
  | .failed e => e

end Ending

/-- The bytes that an arrival brings. -/
def Arrival.bytes : Arrival → Bytes
  | .chunk bytes => bytes
  | .failed _ | .finished => []

/-! ## Moves -/

/-- A receiver with what arrives at its stream and what its consumer was answered. -/
structure Reception (M : Type) where
  inbound : Inbound M
  arrivals : List Arrival
  /-- The answers of the receives, the first one first. -/
  answers : List (Except ChannelError M)

namespace Reception

inductive Move where
  | read
  /-- The message that is held goes into the queue. -/
  | deliver
  | recv
  deriving DecidableEq

variable {M : Type}

/-- The chunks of a stream, and its end behind them. -/
def start (r : Registry) (chunks : List Bytes) (ending : Ending) : Reception M :=
  ⟨.start r, chunks.map .chunk ++ [ending.arrival], []⟩

/-- The bytes that were not read yet. -/
def unread (t : Reception M) : Bytes := t.arrivals.flatMap Arrival.bytes

section Moving

variable [Message M]

/-- What a move leads to, where it is possible. -/
def next? (t : Reception M) : Move → Option (Reception M)
  | .read =>
    if t.inbound.wants = 0 ∨ t.arrivals.isEmpty then none
    else
      let (inbound, arrivals) := t.inbound.read t.arrivals
      some { t with inbound, arrivals }
  | .deliver => t.inbound.deliver?.map fun inbound => { t with inbound }
  | .recv => t.inbound.recv?.map fun (answer, inbound) =>
      { t with inbound, answers := t.answers ++ [answer] }

/-- A row of moves. -/
def run? (t : Reception M) : List Move → Option (Reception M)
  | [] => some t
  | move :: moves => (t.next? move).bind fun t' => t'.run? moves

end Moving

/-! ## The invariant -/

/-- What is left to do: three moves for a byte at most, and the one that ends the receiver. -/
def load (t : Reception M) : Nat :=
  3 * t.unread.length + t.inbound.load

variable [Message M]

/-- A reception that has read these bytes of the whole stream, given these messages and told how
it ended so many times. -/
structure Sound (t : Reception M) (r : Registry) (whole : Bytes) (ending : Ending) (read : Bytes)
    (got : List M) (late : Nat) : Prop where
  registry : t.inbound.registry = r
  bytes : read ++ t.unread = whole
  follows : t.inbound.Follows (fun e => read = whole ∧ e = ending.error) read got
  answers : t.answers = got.map .ok ++
    List.replicate late (.error (ending.verdict (parse (M := M) r whole).2))
  ended : 0 < late → t.inbound.receiver = .ended ∧ t.inbound.queue = none
  arrivals : t.inbound.isOver = false → ∃ chunks : List Bytes, (∀ c ∈ chunks, c ≠ []) ∧
    t.arrivals = chunks.map .chunk ++ [ending.arrival]

theorem unread_chunks (chunks : List Bytes) (ending : Ending) :
    (chunks.map Arrival.chunk ++ [ending.arrival]).flatMap Arrival.bytes = chunks.flatten := by
  have hend : ending.arrival.bytes = [] := by cases ending <;> rfl
  induction chunks with
  | nil => simp [hend]
  | cons c rest ih =>
    rw [List.map_cons, List.cons_append, List.flatMap_cons, ih]
    rfl

theorem sound_start (r : Registry) (chunks : List Bytes) (ending : Ending)
    (hchunks : ∀ c ∈ chunks, c ≠ []) :
    (start r chunks ending : Reception M).Sound r chunks.flatten ending [] [] 0 where
  registry := rfl
  bytes := unread_chunks chunks ending
  follows := Inbound.follows_start r _
  answers := rfl
  ended := fun h => absurd h (Nat.lt_irrefl 0)
  arrivals := fun _ => ⟨chunks, hchunks, rfl⟩

variable {t t' : Reception M} {r : Registry} {whole read : Bytes} {ending : Ending} {got : List M}
  {late : Nat}

/-- Once the receiver has ended, its reason is the verdict on the whole stream, and there are no
more messages than it has decoded. -/
theorem Sound.verdict (h : t.Sound r whole ending read got late)
    (hreceiver : t.inbound.receiver = .ended) :
    t.inbound.terminal = some (ending.verdict (parse (M := M) r whole).2) ∧
      (parse (M := M) r whole).1 = got ++ t.inbound.ahead := by
  have hdecoded := h.follows.decoded
  have hstands := h.follows.stands
  rw [h.registry] at hdecoded hstands
  unfold Inbound.Stands at hstands
  simp only [hreceiver] at hstands
  obtain ⟨e, hterm, hfailed | ⟨⟨left, hshort⟩, rfl, rfl⟩⟩ := hstands
  · have hwhole := parse_append_of_failed (M := M) r t.unread (Prod.ext rfl hfailed)
    rw [h.bytes] at hwhole
    rw [hwhole]
    exact ⟨hterm, hdecoded⟩
  · rw [hshort]
    exact ⟨hterm, hdecoded⟩

/-! ## Single moves -/

/-- What is left of the chunks when a read leaves these bytes of the first one. -/
def leave (left : Bytes) (chunks : List Bytes) : List Bytes :=
  if left.isEmpty then chunks else left :: chunks

theorem flatten_leave (left : Bytes) (chunks : List Bytes) :
    (leave left chunks).flatten = left ++ chunks.flatten := by
  unfold leave
  split
  · rename_i hempty
    rw [List.isEmpty_iff.mp hempty]
    rfl
  · rfl

theorem read_chunk (i : Inbound M) (c : Bytes) (chunks : List Bytes) (ending : Ending) :
    i.read ((c :: chunks).map .chunk ++ [ending.arrival]) =
      (i.take (c.take i.wants),
        (leave (c.drop i.wants) chunks).map .chunk ++ [ending.arrival]) := by
  rw [List.map_cons, List.cons_append]
  unfold Inbound.read leave
  simp only
  split
  · rfl
  · rfl

theorem read_ending (i : Inbound M) (ending : Ending) :
    (i.read [ending.arrival]).1 = i.fail ending.error ∧
      (i.read [ending.arrival]).2.flatMap Arrival.bytes = [] := by
  cases ending
  · exact ⟨rfl, rfl⟩
  · exact ⟨rfl, rfl⟩

/-- A read of a chunk: the receiver takes what it wants of it, the rest stays. -/
theorem sound_chunk {c : Bytes} {chunks : List Bytes}
    (h : t.Sound r whole ending read got late) (hpos : 0 < t.inbound.wants)
    (hchunks : ∀ b ∈ c :: chunks, b ≠ [])
    (harrivals : t.arrivals = (c :: chunks).map .chunk ++ [ending.arrival])
    (ht' : t' = ⟨t.inbound.take (c.take t.inbound.wants),
      (leave (c.drop t.inbound.wants) chunks).map .chunk ++ [ending.arrival], t.answers⟩) :
    t'.Sound r whole ending (read ++ c.take t.inbound.wants) got late ∧ t'.load < t.load := by
  have hunread : t.unread = c.take t.inbound.wants ++ t'.unread := by
    unfold unread
    rw [ht', harrivals, unread_chunks, unread_chunks, flatten_leave, List.flatten_cons,
      ← List.append_assoc, List.take_append_drop]
  have htaken : 0 < (c.take t.inbound.wants).length := by
    have hc : 0 < c.length := List.length_pos_iff.mpr (hchunks c List.mem_cons_self)
    rw [List.length_take]
    omega
  -- The chunk has bytes, so not all was read before: nothing outside can have ended the receiver.
  have hnotyet : read ≠ whole := by
    intro heq
    have hbytes := congrArg List.length h.bytes
    rw [hunread, heq] at hbytes
    simp only [List.length_append] at hbytes
    omega
  constructor
  · subst ht'
    have hregistry := (Inbound.take_frame t.inbound (c.take t.inbound.wants)).1
    have hfollows := h.follows.take (c.take t.inbound.wants) (by rw [List.length_take]; omega)
    refine ⟨?_, ?_, hfollows.mono ?_, h.answers, ?_, fun _ => ⟨_, ?_, rfl⟩⟩
    · rw [← h.registry]
      exact hregistry
    · rw [List.append_assoc, ← hunread]
      exact h.bytes
    · rintro e ⟨heq, -⟩
      exact absurd heq hnotyet
    · intro hlate
      have hover := (Inbound.open_of_wants hpos).2
      unfold Inbound.isOver at hover
      rw [(h.ended hlate).1] at hover
      cases hover
    · intro b hb
      unfold leave at hb
      split at hb
      · exact hchunks b (List.mem_cons_of_mem _ hb)
      · rename_i hleft
        rcases List.mem_cons.mp hb with rfl | hb
        · intro hnil
          rw [hnil] at hleft
          exact hleft rfl
        · exact hchunks b (List.mem_cons_of_mem _ hb)
  · have hlength := congrArg List.length hunread
    have hload : t'.inbound.load ≤ t.inbound.load + 2 := by
      rw [ht']
      exact Inbound.load_take hpos _
    rw [List.length_append] at hlength
    unfold load
    omega

/-- A read that finds the end of the stream ends the receiver. -/
theorem sound_ending (h : t.Sound r whole ending read got late) (hpos : 0 < t.inbound.wants)
    (harrivals : t.arrivals = [ending.arrival])
    (ht' : t' = ⟨(t.inbound.read [ending.arrival]).1, (t.inbound.read [ending.arrival]).2,
      t.answers⟩) :
    t'.Sound r whole ending read got late ∧ t'.load < t.load := by
  obtain ⟨hinbound, hrest⟩ := read_ending t.inbound ending
  have hunread : t.unread = [] := by
    unfold unread
    rw [harrivals]
    exact unread_chunks [] ending
  have hunread' : t'.unread = [] := by
    unfold unread
    rw [ht']
    exact hrest
  have hinbound' : t'.inbound = t.inbound.fail ending.error := by
    rw [ht']
    exact hinbound
  have hwhole : read = whole := by
    have hbytes := h.bytes
    rw [hunread, List.append_nil] at hbytes
    exact hbytes
  constructor
  · refine ⟨?_, ?_, ?_, ?_, ?_, ?_⟩
    · rw [hinbound']
      exact h.registry
    · rw [hunread', List.append_nil]
      exact hwhole
    · rw [hinbound']
      exact h.follows.fail hpos ending.error ⟨hwhole, rfl⟩
    · rw [ht']
      exact h.answers
    · intro hlate
      rw [hinbound']
      exact ⟨rfl, (h.ended hlate).2⟩
    · intro hopen
      rw [hinbound'] at hopen
      cases hopen
  · have hload := Inbound.load_fail hpos ending.error
    unfold load
    rw [hinbound', hunread, hunread']
    omega

/-! ## Runs -/

theorem next?_read_eq_some (h : t.next? .read = some t') :
    0 < t.inbound.wants ∧
      t' = ⟨(t.inbound.read t.arrivals).1, (t.inbound.read t.arrivals).2, t.answers⟩ := by
  simp only [next?] at h
  split at h
  · cases h
  · rename_i hmove
    cases h
    exact ⟨by omega, rfl⟩

theorem next?_recv_eq_some (h : t.next? .recv = some t') :
    ∃ answer inbound, t.inbound.recv? = some (answer, inbound) ∧
      t' = ⟨inbound, t.arrivals, t.answers ++ [answer]⟩ := by
  obtain ⟨⟨answer, inbound⟩, hrecv, rfl⟩ := Option.map_eq_some_iff.mp h
  exact ⟨answer, inbound, hrecv, rfl⟩

/-- A read goes on in the stream. -/
theorem sound_read (h : t.Sound r whole ending read got late) (hmove : t.next? .read = some t') :
    ∃ read', t'.Sound r whole ending read' got late ∧ t'.load < t.load := by
  obtain ⟨hpos, ht'⟩ := next?_read_eq_some hmove
  obtain ⟨chunks, hchunks, harrivals⟩ := h.arrivals (Inbound.open_of_wants hpos).2
  cases chunks with
  | nil =>
    rw [harrivals] at ht'
    exact ⟨read, sound_ending h hpos harrivals ht'⟩
  | cons c chunks =>
    rw [harrivals, read_chunk] at ht'
    exact ⟨_, sound_chunk h hpos hchunks harrivals ht'⟩

/-- A message that goes into the queue is still ahead. -/
theorem sound_deliver (h : t.Sound r whole ending read got late)
    (hmove : t.next? .deliver = some t') :
    t'.Sound r whole ending read got late ∧ t'.load < t.load := by
  obtain ⟨inbound, hinbound, rfl⟩ := Option.map_eq_some_iff.mp hmove
  have hfollows := h.follows.deliver hinbound
  have hload := Inbound.load_deliver hinbound
  obtain ⟨message, hreceiver, hqueue, rfl⟩ := Inbound.deliver?_eq_some hinbound
  constructor
  · refine ⟨h.registry, h.bytes, hfollows, h.answers, ?_, ?_⟩
    · intro hlate
      have := (h.ended hlate).1
      rw [hreceiver] at this
      cases this
    · intro _
      refine h.arrivals ?_
      unfold Inbound.isOver
      rw [hreceiver]
  · unfold load unread
    simp only
    omega

/-- A receive gets the next message, or the verdict once there is none. -/
theorem sound_recv (h : t.Sound r whole ending read got late) (hmove : t.next? .recv = some t') :
    ∃ got' late', t'.Sound r whole ending read got' late' ∧ late' ≤ late + 1 ∧
      t'.load + late + 1 ≤ t.load + late' := by
  obtain ⟨answer, inbound, hrecv, rfl⟩ := next?_recv_eq_some hmove
  obtain ⟨message, hqueue, rfl, rfl⟩ | ⟨hqueue, hreceiver, rfl, rfl⟩ :=
    Inbound.recv?_eq_some hrecv
  · have hlate : late = 0 := by
      by_contra hne
      have := (h.ended (Nat.pos_of_ne_zero hne)).2
      rw [hqueue] at this
      cases this
    subst hlate
    refine ⟨got ++ [message], 0, ⟨h.registry, h.bytes, h.follows.recv_ok hqueue, ?_, ?_,
      h.arrivals⟩, Nat.zero_le _, ?_⟩
    · rw [h.answers]
      simp
    · intro hlate
      exact absurd hlate (Nat.lt_irrefl 0)
    · have hload := Inbound.load_recv hqueue
      unfold load unread
      simp only
      omega
  · refine ⟨got, late + 1, ⟨h.registry, h.bytes, h.follows, ?_, fun _ => ⟨hreceiver, hqueue⟩,
      h.arrivals⟩, Nat.le_refl _, ?_⟩
    · rw [(h.verdict hreceiver).1, h.answers, List.append_assoc, Option.getD_some,
        List.replicate_succ']
    · show t.load + late + 1 ≤ t.load + (late + 1)
      omega

/-- A row of moves keeps the reception sound, and can only be longer than what there was to do by
receiving the verdict over and over. -/
theorem sound_run (moves : List Move) (h : t.Sound r whole ending read got late)
    (hrun : t.run? moves = some t') :
    ∃ read' got' late', t'.Sound r whole ending read' got' late' ∧
      late' ≤ late + moves.length ∧ t'.load + late + moves.length ≤ t.load + late' := by
  induction moves generalizing t read got late with
  | nil =>
    cases hrun
    exact ⟨read, got, late, h, Nat.le_refl _, Nat.le_refl _⟩
  | cons move moves ih =>
    obtain ⟨u, hmove, hrest⟩ := Option.bind_eq_some_iff.mp hrun
    have hstep : ∃ read' got' late', u.Sound r whole ending read' got' late' ∧
        late' ≤ late + 1 ∧ u.load + late + 1 ≤ t.load + late' := by
      cases move with
      | read =>
        obtain ⟨read', hsound, hload⟩ := sound_read h hmove
        exact ⟨read', got, late, hsound, by omega, by omega⟩
      | deliver =>
        obtain ⟨hsound, hload⟩ := sound_deliver h hmove
        exact ⟨read, got, late, hsound, by omega, by omega⟩
      | recv =>
        obtain ⟨got', late', hsound, hle, hload⟩ := sound_recv h hmove
        exact ⟨read, got', late', hsound, hle, hload⟩
    obtain ⟨read₁, got₁, late₁, hsound, hle, hload⟩ := hstep
    obtain ⟨read₂, got₂, late₂, hsound', hle', hload'⟩ := ih hsound hrest
    refine ⟨read₂, got₂, late₂, hsound', ?_, ?_⟩
    · rw [List.length_cons]
      omega
    · rw [List.length_cons]
      omega

/-- Something can always go on: the stream is read, a message goes into the queue, or there is
an answer for the consumer. -/
theorem Sound.can_move (h : t.Sound r whole ending read got late) :
    ∃ move, (t.next? move).isSome := by
  by_cases hzero : t.inbound.wants = 0
  · rcases Inbound.passes_on_of_stands h.follows.stands hzero with hdeliver | hrecv
    · refine ⟨.deliver, ?_⟩
      simp only [next?, Option.isSome_map]
      exact hdeliver
    · refine ⟨.recv, ?_⟩
      simp only [next?, Option.isSome_map]
      exact hrecv
  · have hpos := Nat.pos_of_ne_zero hzero
    obtain ⟨chunks, -, harrivals⟩ := h.arrivals (Inbound.open_of_wants hpos).2
    refine ⟨.read, ?_⟩
    have hsome : t.arrivals.isEmpty = false := by
      rw [harrivals]
      simp
    simp only [next?, hsome]
    rw [if_neg (by simp; omega)]
    rfl

/-! ## The law -/

/-- Whoever keeps receiving gets the messages that the parser finds in the stream, each once and
in order, and then the verdict of the parser and the end of the stream, over and over. How the
bytes are cut into chunks, and in which order the moves are made, changes nothing; a run of any
length goes on, and the verdict is there after three moves for each byte and one more. A frame that
cannot be received ends the receiver as soon as the bytes read show it. -/
theorem the_receiver_is_the_parser_of_its_stream (r : Registry) (chunks : List Bytes)
    (ending : Ending) (moves : List Move) (t : Reception M) (hchunks : ∀ c ∈ chunks, c ≠ [])
    (hrun : (start r chunks ending).run? moves = some t) :
    let messages := (parse (M := M) r chunks.flatten).1
    let verdict := ending.verdict (parse (M := M) r chunks.flatten).2
    t.answers <+: messages.map .ok ++ List.replicate moves.length (.error verdict) ∧
      (t.inbound.isOver = true → t.inbound.terminal = some verdict) ∧
      (∃ read, read ++ t.unread = chunks.flatten ∧
        ∀ e, (parse (M := M) r read).2 = .failed e → t.inbound.terminal = some e) ∧
      (∃ move, (t.next? move).isSome) ∧
      (3 * chunks.flatten.length + 1 < moves.length →
        messages.map .ok ++ [.error verdict] <+: t.answers) ∧
      (∀ e, (parse (M := M) r chunks.flatten).2 = .failed e →
        (∃ tag, r.kindOf? tag = none ∧ e = .unknownTag r.name tag) ∨
          ∃ kind payload, (Message.decode kind payload : Except ChannelError M) = .error e) ∧
      Message.RefusesAsMalformed ControlMessage ∧ Message.RefusesAsMalformed ReplyMessage ∧
      Message.RefusesAsMalformed JobReply := by
  obtain ⟨read, got, late, hsound, hle, hload⟩ :=
    sound_run moves (sound_start r chunks ending hchunks) hrun
  have hstart : (start r chunks ending : Reception M).load = 3 * chunks.flatten.length + 1 := by
    have hunread : (start r chunks ending : Reception M).unread = chunks.flatten :=
      unread_chunks chunks ending
    unfold load
    rw [hunread]
    rfl
  have hall : 0 < late → (parse (M := M) r chunks.flatten).1 = got := by
    intro hlate
    obtain ⟨hreceiver, hqueue⟩ := hsound.ended hlate
    have := (hsound.verdict hreceiver).2
    unfold Inbound.ahead Inbound.held at this
    rw [hqueue, hreceiver] at this
    simpa using this
  refine ⟨?_, ?_, ⟨read, hsound.bytes, ?_⟩, hsound.can_move, ?_, parse_failed r _,
    controlMessage_refusesAsMalformed, replyMessage_refusesAsMalformed,
    jobReply_refusesAsMalformed⟩
  · rw [hsound.answers]
    by_cases hlate : 0 < late
    · rw [hall hlate, List.prefix_append_right_inj]
      obtain ⟨n, hn⟩ : ∃ n, moves.length = late + n := ⟨moves.length - late, by omega⟩
      rw [hn, List.replicate_add]
      exact List.prefix_append _ _
    · have hnone : late = 0 := by omega
      have hprefix := parse_prefix (M := M) r ⟨t.unread, hsound.bytes⟩
      have hdecoded := hsound.follows.decoded
      rw [hsound.registry] at hdecoded
      have hgot : got <+: (parse (M := M) r chunks.flatten).1 :=
        (hdecoded ▸ List.prefix_append got t.inbound.ahead).trans hprefix
      rw [hnone, List.replicate_zero, List.append_nil]
      exact (hgot.map _).trans (List.prefix_append _ _)
  · intro hover
    unfold Inbound.isOver at hover
    split at hover
    · rename_i hreceiver
      exact (hsound.verdict hreceiver).1
    · cases hover
  · intro e hfailed
    rw [← hsound.registry] at hfailed
    exact hsound.follows.latched hfailed
  · intro hlong
    have hlate : 0 < late := by omega
    rw [hsound.answers, hall hlate, List.prefix_append_right_inj]
    obtain ⟨n, rfl⟩ : ∃ n, late = n + 1 := ⟨late - 1, by omega⟩
    rw [List.replicate_succ]
    exact ⟨List.replicate n _, rfl⟩

theorem parse_quit : parse (M := ControlMessage) Direction.rootToZygote.registry
    [255, 0, 0, 0, 1, 0x80] = ([.quit], .short []) := by
  have hframe := parse_frame (M := ControlMessage) Direction.rootToZygote.registry []
    (show ([255, 0, 0, 0, 1] : Bytes).length = headerSize from rfl)
    (show Direction.rootToZygote.registry.kindOf? (tagOf [255, 0, 0, 0, 1]) = some Kind.quit
      from rfl)
    (show ([0x80] : Bytes).length = lengthOf [255, 0, 0, 0, 1] from rfl)
  have hdecode : (Message.decode Kind.quit [0x80] : Except ChannelError ControlMessage) =
      .ok .quit := rfl
  rw [hdecode, parse_short _ (show ([] : Bytes).length < headerSize by decide)] at hframe
  exact hframe

/-- The frame of a quit comes in two chunks, and then the end of the stream. -/
theorem a_quit_in_two_chunks_is_received :
    (∀ c ∈ ([[255, 0, 0], [0, 1, 0x80]] : List Bytes), c ≠ []) ∧
      ∃ t : Reception ControlMessage,
        (start Direction.rootToZygote.registry [[255, 0, 0], [0, 1, 0x80]] .finished).run?
          (([.read, .read, .read, .deliver, .recv, .read] : List Move) ++ List.replicate 20 .recv) =
            some t ∧
        [.ok .quit, .error .channelClosed] <+: t.answers := by
  have hchunks : ∀ c ∈ ([[255, 0, 0], [0, 1, 0x80]] : List Bytes), c ≠ [] := by decide
  obtain ⟨t, ht⟩ : ∃ t : Reception ControlMessage,
      (start Direction.rootToZygote.registry [[255, 0, 0], [0, 1, 0x80]] .finished).run?
        (([.read, .read, .read, .deliver, .recv, .read] : List Move) ++ List.replicate 20 .recv) =
          some t :=
    Option.isSome_iff_exists.mp (by decide +kernel)
  obtain ⟨-, -, -, -, hlong, -⟩ :=
    the_receiver_is_the_parser_of_its_stream _ _ _ _ t hchunks ht
  have hreceived := hlong (by decide)
  refine ⟨hchunks, t, ht, ?_⟩
  simp only [List.flatten_cons, List.flatten_nil, List.append_nil, List.cons_append,
    List.nil_append, parse_quit] at hreceived
  exact hreceived

end Reception

/-! ## Sessions -/

namespace Session

variable {Out In : Type} [Message In]

/-- The reception in a session. -/
def reception (s : Session Out In) : Reception In :=
  ⟨s.inbound, s.arrivals, s.received.reverse.map Prod.snd⟩

/-- What a session does in the background are moves of its reception. -/
theorem a_background_move_is_a_move_of_the_reception {s s' : Session Out In}
    (h : s.move? = some s') : ∃ move, s.reception.next? move = some s'.reception := by
  unfold move? at h
  split at h
  · rename_i inbound hdeliver
    cases h
    refine ⟨.deliver, ?_⟩
    simp only [Reception.next?, reception, hdeliver, Option.map_some]
  · split at h
    · rename_i name waiting answer inbound hwaiting hrecv
      cases h
      refine ⟨.recv, ?_⟩
      simp only [Reception.next?, reception, hrecv, Option.map_some, List.reverse_cons,
        List.map_append, List.map_cons, List.map_nil]
    · split at h
      · cases h
      · rename_i hread
        cases h
        refine ⟨.read, ?_⟩
        exact if_neg hread

end Session

end ProcessTree
