-- A row of messages over a channel whose two ends share a registry. The stream
-- takes what it wants of each write and gives what it wants to each read, and
-- sending and receiving go on side by side. All messages arrive, in order, and
-- behind them that the channel is closed.
import ProcessTree.Proofs.Channel.Link
import ProcessTree.Vocabulary

namespace ProcessTree

open ProcessTree.Frame

/-- Messages on their way through one direction of a channel. -/
structure Transfer (M : Type) where
  /-- The messages whose sends have not begun. -/
  todo : List M
  link : Link M
  /-- The answers of the sends. -/
  answers : List (Except ChannelError Unit)
  /-- The answers of the receives. -/
  received : List (Except ChannelError M)

namespace Transfer

inductive Move where
  /-- The send of the next message begins. -/
  | send
  /-- The stream takes some bytes of the frame. -/
  | write (n : Nat)
  /-- The sender closes, after all sends. -/
  | close
  /-- The stream gives some of the bytes that are on their way. -/
  | read (n : Nat)
  /-- The stream is over for the receiver: the sender has closed, and nothing is on its way. -/
  | finish
  | deliver
  | recv
  deriving DecidableEq

variable {M : Type}

/-- Nothing was sent yet. -/
def start (r : Registry) (messages : List M) : Transfer M := ⟨messages, .start r, [], []⟩

/-- Whether the sender has closed. -/
def isClosed (t : Transfer M) : Bool := !t.link.line.outbound.isOpen

theorem isOpen_of_not_closed {t : Transfer M} (hopen : t.isClosed = false) :
    t.link.line.outbound.isOpen = true := by
  unfold isClosed at hopen
  simpa using hopen

section Moving

variable [Message M]

/-- What a move leads to, where it is possible. The stream has room for so many bytes on their
way. -/
def next? (room : Nat) (t : Transfer M) : Move → Option (Transfer M)
  | .send =>
    match t.todo with
    | [] => none
    | m :: todo =>
      match t.link.line.send? m with
      | none => none
      | some (none, line) => some { t with todo, link := { t.link with line } }
      | some (some e, line) =>
        some { t with todo, link := { t.link with line }, answers := t.answers ++ [.error e] }
  | .write n =>
    if n = 0 ∨ room < t.link.inFlight + n then none
    else
      match t.link.line.write? (.took n) with
      | none => none
      | some (none, line) => some { t with link := { t.link with line } }
      | some (some answer, line) =>
        some { t with link := { t.link with line }, answers := t.answers ++ [answer] }
  | .close =>
    if t.isClosed ∨ t.todo.isEmpty = false ∨ t.link.line.current.isSome then none
    else some { t with link := { t.link with
      line := { t.link.line with outbound := t.link.line.outbound.close } } }
  | .read n => (t.link.read? n).map fun link => { t with link }
  | .finish =>
    if t.isClosed = false ∨ t.link.inFlight ≠ 0 then none
    else (t.link.lose? .channelClosed).map fun link => { t with link }
  | .deliver => t.link.deliver?.map fun link => { t with link }
  | .recv => t.link.recv?.map fun (answer, link) =>
      { t with link, received := t.received ++ [answer] }

/-- A row of moves. -/
def run? (room : Nat) (t : Transfer M) : List Move → Option (Transfer M)
  | [] => some t
  | move :: moves => (t.next? room move).bind fun t' => t'.run? room moves

/-! ## The invariant -/

/-- What is left to do: a byte is written, read, and completes a message at most once, which is put
into the queue and received. -/
def load (r : Registry) (t : Transfer M) : Nat :=
  4 * (t.todo.flatMap (Message.wire r)).length + t.todo.length +
    4 * t.link.line.unsent.length + 3 * t.link.inFlight + (if t.isClosed then 0 else 1) +
    t.link.inbound.load

/-- Why the receiver may end: the sender has closed, and all bytes were read. -/
def Over (t : Transfer M) (e : ChannelError) : Prop :=
  e = .channelClosed ∧ t.isClosed = true ∧ t.link.inFlight = 0

/-- The sends have succeeded so far and the receives have got what was sent, but for those that
came after the end. -/
structure Sound (t : Transfer M) (r : Registry) (messages : List M) (tail : Bytes) (got : List M)
    (late : Nat) : Prop where
  link : t.link.Sound r t.Over tail got
  order : t.link.line.sent ++ (t.link.line.current.map Prod.fst).toList ++ t.todo = messages
  working : t.isClosed = false → t.link.line.current = none → tail = []
  closed : t.isClosed = true → t.todo = [] ∧ t.link.line.current = none ∧ tail = []
  answers : t.answers = List.replicate t.link.line.sent.length (.ok ())
  received : t.received = got.map .ok ++ List.replicate late (.error .channelClosed)
  ended : 0 < late → t.link.inbound.receiver = .ended ∧ t.link.inbound.queue = none

theorem sound_start (r : Registry) (messages : List M) :
    (start r messages).Sound r messages [] [] 0 where
  link := Link.sound_start r _
  order := rfl
  working := fun _ _ => rfl
  closed := fun h => nomatch h
  answers := rfl
  received := rfl
  ended := fun h => absurd h (Nat.lt_irrefl 0)

/-! ## Sending -/

variable {r : Registry} {messages : List M} {tail : Bytes} {got : List M} {late room : Nat}
  {t t' : Transfer M}

theorem Sound.open_of_todo (h : t.Sound r messages tail got late) (htodo : t.todo ≠ []) :
    t.isClosed = false := by
  cases hclosed : t.isClosed with
  | false => rfl
  | true => exact absurd (h.closed hclosed).1 htodo

theorem Sound.open_of_current (h : t.Sound r messages tail got late)
    (hcurrent : t.link.line.current ≠ none) : t.isClosed = false := by
  cases hclosed : t.isClosed with
  | false => rfl
  | true => exact absurd (h.closed hclosed).2.1 hcurrent

/-- A send begins when no other send is under way, and is not refused. -/
theorem sound_send (hreads : Message.ReadsBack M)
    (hregistered : ∀ m ∈ messages, ∃ tag, r.tagOf? (Message.kind m) = some tag)
    (h : t.Sound r messages tail got late) (hmove : t.next? room .send = some t') :
    t'.Sound r messages [] got late ∧ t'.load r < t.load r := by
  simp only [next?] at hmove
  split at hmove
  · cases hmove
  · rename_i m todo htodo
    have hopen := h.open_of_todo (by rw [htodo]; exact List.cons_ne_nil m todo)
    have hmem : m ∈ messages := by
      rw [← h.order, htodo]
      exact List.mem_append_right _ List.mem_cons_self
    obtain ⟨tag, htag⟩ := hregistered m hmem
    obtain ⟨s, hframe, hrest, hsend⟩ :=
      h.link.line.send?_of_registered hreads (isOpen_of_not_closed hopen) htag
    rw [hsend] at hmove
    cases hcurrent : t.link.line.current with
    | some current =>
      rw [hcurrent] at hmove
      cases hmove
    | none =>
      rw [hcurrent] at hmove
      cases hmove
      have hlink := h.link
      rw [h.working hopen hcurrent] at hlink
      refine ⟨⟨?_, ?_, ?_, ?_, h.answers, h.received, h.ended⟩, ?_⟩
      · exact hlink.onLine (hlink.line.send (isOpen_of_not_closed hopen) hframe)
          (List.prefix_refl _)
      · rw [← h.order, htodo, hcurrent]
        simp
      · intro _ hnone
        cases hnone
      · intro hclosed
        exact absurd (hopen.symm.trans hclosed) Bool.false_ne_true
      · unfold load Line.unsent Link.inFlight isClosed
        rw [htodo, hcurrent]
        simp only [List.flatMap_cons, List.length_append, List.length_cons, Option.map_some,
          Option.getD_some, Option.map_none, Option.getD_none, List.length_nil, hrest]
        omega

theorem next?_write_eq_some {n : Nat} (hmove : t.next? room (.write n) = some t') :
    ∃ m s answer line, t.link.line.current = some (m, s) ∧ 0 < n ∧
      t.link.line.write? (.took n) = some (answer, line) ∧
      t' = { t with link := { t.link with line }, answers := t.answers ++ answer.toList } := by
  simp only [next?] at hmove
  split at hmove
  · cases hmove
  · rename_i hguard
    split at hmove
    · cases hmove
    · rename_i line hwrite
      cases hmove
      obtain ⟨m, s, hcurrent⟩ := Line.current_of_write? hwrite
      refine ⟨m, s, none, line, hcurrent, by omega, hwrite, ?_⟩
      rw [Option.toList_none, List.append_nil]
    · rename_i answer line hwrite
      cases hmove
      obtain ⟨m, s, hcurrent⟩ := Line.current_of_write? hwrite
      exact ⟨m, s, some answer, line, hcurrent, by omega, hwrite, rfl⟩

/-- The stream takes some of a frame: those bytes are on their way then. -/
theorem sound_write (h : t.Sound r messages tail got late) {n : Nat}
    (hmove : t.next? room (.write n) = some t') :
    ∃ tail', t'.Sound r messages tail' got late ∧ t'.load r < t.load r := by
  obtain ⟨m, s, answer, line, hcurrent, hn, hwrite, rfl⟩ := next?_write_eq_some hmove
  have hopen := h.open_of_current (by rw [hcurrent]; exact Option.some_ne_none _)
  have hok : (WriteOutcome.took n).error? = none := by
    obtain ⟨k, rfl⟩ : ∃ k, n = k + 1 := ⟨n - 1, by omega⟩
    rfl
  have hemitted := Line.write?_emitted hcurrent hwrite
  have hunsent := Line.write?_unsent hcurrent hok hwrite
  have hover : ∀ {e} {P : Prop}, t.Over e → P := by
    rintro e P ⟨-, hclosed, -⟩
    exact absurd (hopen.symm.trans hclosed) Bool.false_ne_true
  have hload : line.outbound = t.link.line.outbound →
      ({ t with link := { t.link with line }, answers := t.answers ++ answer.toList } :
        Transfer M).load r < t.load r := by
    intro hsame
    have hoffer := List.length_pos_iff.mpr (h.link.line.current m s hcurrent).2.1
    have hlength := congrArg List.length hemitted
    have hlength' := congrArg List.length hunsent
    have htaken := h.link.taken
    simp only [List.length_append, List.length_take, WriteOutcome.taken] at hlength hlength'
    unfold load Link.inFlight isClosed
    simp only [hsame]
    omega
  cases h.link.line.write hcurrent hwrite with
  | part _ houtbound hsent hcurrent' hsound =>
    have hlink := h.link.onLine hsound ⟨_, hemitted.symm⟩
    refine ⟨_, ⟨hlink.mono fun _ => hover, ?_, ?_, ?_, ?_, h.received, h.ended⟩, hload houtbound⟩
    · rw [← h.order, hsent, hcurrent', hcurrent]
      rfl
    · intro _ hnone
      rw [hcurrent'] at hnone
      cases hnone
    · intro hclosed
      unfold isClosed at hclosed hopen
      rw [houtbound, hopen] at hclosed
      cases hclosed
    · rw [hsent, Option.toList_none, List.append_nil]
      exact h.answers
  | whole _ houtbound hsent hcurrent' hsound =>
    have hlink := h.link.onLine hsound ⟨_, hemitted.symm⟩
    refine ⟨_, ⟨hlink.mono fun _ => hover, ?_, fun _ _ => rfl, ?_, ?_, h.received, h.ended⟩,
      hload houtbound⟩
    · rw [← h.order, hsent, hcurrent', hcurrent]
      simp
    · intro hclosed
      unfold isClosed at hclosed hopen
      rw [houtbound, hopen] at hclosed
      cases hclosed
    · rw [hsent, List.length_append, List.length_singleton, List.replicate_succ', ← h.answers]
      rfl
  | failed herror houtbound hsent hcurrent' hsound =>
    rw [hok] at herror
    cases herror

/-- The sender closes behind its last frame. -/
theorem sound_close (h : t.Sound r messages tail got late)
    (hmove : t.next? room .close = some t') :
    t'.Sound r messages tail got late ∧ t'.load r < t.load r := by
  simp only [next?] at hmove
  split at hmove
  · cases hmove
  · rename_i hguard
    cases hmove
    simp only [not_or, Bool.not_eq_true, Bool.not_eq_false, List.isEmpty_iff,
      Option.isSome_eq_false_iff, Option.isNone_iff_eq_none] at hguard
    obtain ⟨hopen, htodo, hcurrent⟩ := hguard
    have hline := h.link.line.onOutbound hcurrent
      (show t.link.line.outbound.close.registry = t.link.line.outbound.registry from rfl)
    have hlink := h.link.onLine hline (List.prefix_refl _)
    refine ⟨⟨hlink.mono ?_, h.order, ?_, ?_, h.answers, h.received, h.ended⟩, ?_⟩
    · rintro e ⟨-, hclosed, -⟩
      exact absurd (hopen.symm.trans hclosed) Bool.false_ne_true
    · intro hopen'
      cases hopen'
    · intro _
      exact ⟨htodo, hcurrent, h.working hopen hcurrent⟩
    · unfold load
      rw [hopen]
      exact Nat.add_lt_add_right (Nat.add_lt_add_left Nat.one_pos _) _

/-! ## Receiving -/

theorem Sound.not_late (h : t.Sound r messages tail got late) (hpos : 0 < t.link.inbound.wants) :
    late = 0 := by
  by_contra hne
  have hreceiver := (h.ended (Nat.pos_of_ne_zero hne)).1
  unfold Inbound.wants at hpos
  simp only [hreceiver] at hpos
  omega

/-- Bytes that are read are not on their way any more, and complete one message at most. -/
theorem sound_read (h : t.Sound r messages tail got late) {n : Nat}
    (hmove : t.next? room (.read n) = some t') :
    t'.Sound r messages tail got late ∧ t'.load r < t.load r := by
  obtain ⟨link, hread, rfl⟩ := Option.map_eq_some_iff.mp hmove
  have hlink := h.link.read hread
  obtain ⟨hn, hwants, htaken, rfl⟩ := Link.read?_eq_some hread
  have hlate := h.not_late (by omega)
  subst hlate
  refine ⟨⟨hlink.mono ?_, h.order, h.working, h.closed, h.answers, h.received, ?_⟩, ?_⟩
  · rintro e ⟨-, -, hnone⟩
    unfold Link.inFlight at hnone
    omega
  · intro hlate
    exact absurd hlate (Nat.lt_irrefl 0)
  · have hload := Inbound.load_take (show 0 < t.link.inbound.wants by omega)
      ((t.link.line.emitted.drop t.link.taken).take n)
    unfold load Link.inFlight isClosed
    simp only
    omega

/-- The receiver finds the end of the stream. -/
theorem sound_finish (h : t.Sound r messages tail got late)
    (hmove : t.next? room .finish = some t') :
    t'.Sound r messages tail got late ∧ t'.load r < t.load r := by
  simp only [next?] at hmove
  split at hmove
  · cases hmove
  · rename_i hguard
    obtain ⟨link, hlose, rfl⟩ := Option.map_eq_some_iff.mp hmove
    have hclosed : t.isClosed = true := by
      cases hclosed : t.isClosed with
      | true => rfl
      | false => exact absurd (Or.inl hclosed) hguard
    have hnone : t.link.inFlight = 0 := by omega
    have hlink := h.link.lose ⟨rfl, hclosed, hnone⟩ hlose
    obtain ⟨hwants, rfl⟩ := Link.lose?_eq_some hlose
    have hlate := h.not_late hwants
    subst hlate
    refine ⟨⟨hlink, h.order, h.working, h.closed, h.answers, h.received, ?_⟩, ?_⟩
    · intro hlate
      exact absurd hlate (Nat.lt_irrefl 0)
    · exact Nat.add_lt_add_left (Inbound.load_fail hwants .channelClosed) _

theorem sound_deliver (h : t.Sound r messages tail got late)
    (hmove : t.next? room .deliver = some t') :
    t'.Sound r messages tail got late ∧ t'.load r < t.load r := by
  obtain ⟨link, hdeliver, rfl⟩ := Option.map_eq_some_iff.mp hmove
  have hlink := h.link.deliver hdeliver
  obtain ⟨inbound, hinbound, rfl⟩ := Option.map_eq_some_iff.mp hdeliver
  have hload := Inbound.load_deliver hinbound
  obtain ⟨message, hreceiver, hqueue, rfl⟩ := Inbound.deliver?_eq_some hinbound
  refine ⟨⟨hlink, h.order, h.working, h.closed, h.answers, h.received, ?_⟩, ?_⟩
  · intro hlate
    have := (h.ended hlate).1
    rw [hreceiver] at this
    cases this
  · exact Nat.add_lt_add_left hload _

theorem next?_recv_eq_some (hmove : t.next? room .recv = some t') :
    ∃ answer link, t.link.recv? = some (answer, link) ∧
      t' = { t with link, received := t.received ++ [answer] } := by
  obtain ⟨⟨answer, link⟩, hrecv, rfl⟩ := Option.map_eq_some_iff.mp hmove
  exact ⟨answer, link, hrecv, rfl⟩

/-- A receive gets the next message; or else the channel is closed, and all has arrived. -/
theorem sound_recv (hreads : Message.ReadsBack M) (h : t.Sound r messages tail got late)
    (hmove : t.next? room .recv = some t') :
    ∃ got' late', t'.Sound r messages tail got' late' ∧ late' ≤ late + 1 ∧
      t'.load r + late + 1 ≤ t.load r + late' := by
  obtain ⟨answer, link, hrecv, rfl⟩ := next?_recv_eq_some hmove
  rcases h.link.recv hrecv with ⟨m, rfl, hqueue, rfl, hlink⟩ |
    ⟨e, rfl, rfl, hqueue, hreceiver, hterm⟩
  · have hlate : late = 0 := by
      by_contra hne
      have := (h.ended (Nat.pos_of_ne_zero hne)).2
      rw [hqueue] at this
      cases this
    subst hlate
    refine ⟨got ++ [m], 0, ⟨hlink, h.order, h.working, h.closed, h.answers, ?_, ?_⟩,
      Nat.zero_le _, ?_⟩
    · rw [h.received]
      simp
    · intro hlate
      exact absurd hlate (Nat.lt_irrefl 0)
    · exact Nat.succ_le_of_lt (Nat.add_lt_add_left (Inbound.load_recv hqueue) _)
  · obtain ⟨rfl, -, -⟩ := h.link.ended hreads hreceiver hterm
    refine ⟨got, late + 1, ⟨h.link, h.order, h.working, h.closed, h.answers, ?_,
      fun _ => ⟨hreceiver, hqueue⟩⟩, Nat.le_refl _, ?_⟩
    · rw [h.received, List.append_assoc, List.replicate_succ']
    · show t.load r + late + 1 ≤ t.load r + (late + 1)
      omega

/-! ## Runs -/

/-- Every move keeps the invariant and lowers the load, but for a receive behind the end. -/
theorem sound_next (hreads : Message.ReadsBack M)
    (hregistered : ∀ m ∈ messages, ∃ tag, r.tagOf? (Message.kind m) = some tag)
    {move : Move} (h : t.Sound r messages tail got late) (hmove : t.next? room move = some t') :
    ∃ tail' got' late', t'.Sound r messages tail' got' late' ∧
      late' ≤ late + 1 ∧ t'.load r + late + 1 ≤ t.load r + late' := by
  cases move with
  | send =>
    obtain ⟨hsound, hload⟩ := sound_send hreads hregistered h hmove
    exact ⟨_, got, late, hsound, by omega, by omega⟩
  | write n =>
    obtain ⟨tail', hsound, hload⟩ := sound_write h hmove
    exact ⟨tail', got, late, hsound, by omega, by omega⟩
  | close =>
    obtain ⟨hsound, hload⟩ := sound_close h hmove
    exact ⟨tail, got, late, hsound, by omega, by omega⟩
  | read n =>
    obtain ⟨hsound, hload⟩ := sound_read h hmove
    exact ⟨tail, got, late, hsound, by omega, by omega⟩
  | finish =>
    obtain ⟨hsound, hload⟩ := sound_finish h hmove
    exact ⟨tail, got, late, hsound, by omega, by omega⟩
  | deliver =>
    obtain ⟨hsound, hload⟩ := sound_deliver h hmove
    exact ⟨tail, got, late, hsound, by omega, by omega⟩
  | recv =>
    obtain ⟨got', late', hsound, hle, hload⟩ := sound_recv hreads h hmove
    exact ⟨tail, got', late', hsound, hle, hload⟩

theorem sound_run (hreads : Message.ReadsBack M)
    (hregistered : ∀ m ∈ messages, ∃ tag, r.tagOf? (Message.kind m) = some tag)
    (moves : List Move) (h : t.Sound r messages tail got late)
    (hrun : t.run? room moves = some t') :
    ∃ tail' got' late', t'.Sound r messages tail' got' late' ∧
      late' ≤ late + moves.length ∧ t'.load r + late + moves.length ≤ t.load r + late' := by
  induction moves generalizing t tail got late with
  | nil =>
    cases hrun
    exact ⟨tail, got, late, h, Nat.le_refl _, Nat.le_refl _⟩
  | cons move moves ih =>
    obtain ⟨u, hmove, hrest⟩ := Option.bind_eq_some_iff.mp hrun
    obtain ⟨tail₁, got₁, late₁, hsound, hle, hload⟩ := sound_next hreads hregistered h hmove
    obtain ⟨tail₂, got₂, late₂, hsound', hle', hload'⟩ := ih hsound hrest
    refine ⟨tail₂, got₂, late₂, hsound', ?_, ?_⟩
    · rw [List.length_cons]
      omega
    · rw [List.length_cons]
      omega

/-! ## Where a run leads -/

theorem Sound.sent_prefix (h : t.Sound r messages tail got late) :
    t.link.line.sent <+: messages := by
  rw [← h.order, List.append_assoc]
  exact List.prefix_append _ _

theorem Sound.got_prefix (hreads : Message.ReadsBack M) (h : t.Sound r messages tail got late) :
    got <+: messages :=
  ((List.prefix_append got _).trans (h.link.received hreads)).trans h.sent_prefix

/-- Nothing is left to send, and nothing is on its way: what was sent is received or decoded. -/
theorem Sound.settled (hreads : Message.ReadsBack M) (h : t.Sound r messages tail got late)
    (htodo : t.todo = []) (hcurrent : t.link.line.current = none) (hnone : t.link.inFlight = 0) :
    t.link.line.sent = messages ∧ got ++ t.link.inbound.ahead = messages := by
  have hsent : t.link.line.sent = messages := by
    rw [← h.order, htodo, hcurrent]
    simp
  have htaken := h.link.taken
  unfold Link.inFlight at hnone
  refine ⟨hsent, ?_⟩
  rw [h.link.complete hreads (by omega), hsent]

/-- Whoever was told that the channel is closed was told so after the last message. -/
theorem Sound.settled_of_late (hreads : Message.ReadsBack M)
    (h : t.Sound r messages tail got late) (hlate : 0 < late) :
    t.isClosed = true ∧ t.link.line.sent = messages ∧ got = messages := by
  obtain ⟨hreceiver, hqueue⟩ := h.ended hlate
  obtain ⟨-, e, hterm, -⟩ := h.link.follows.ended hqueue hreceiver
  obtain ⟨-, hclosed, hnone⟩ := h.link.ended hreads hreceiver hterm
  obtain ⟨htodo, hcurrent, -⟩ := h.closed hclosed
  obtain ⟨hsent, hgot⟩ := h.settled hreads htodo hcurrent hnone
  unfold Inbound.ahead Inbound.held at hgot
  rw [hqueue, hreceiver] at hgot
  exact ⟨hclosed, hsent, by simpa using hgot⟩

theorem read_isSome (hwants : t.link.inbound.wants ≠ 0) (hflight : 0 < t.link.inFlight) :
    (t.next? room (.read 1)).isSome := by
  unfold Link.inFlight at hflight
  simp only [next?, Link.read?, Option.isSome_map]
  rw [if_neg (by omega)]
  rfl

theorem Sound.write_isSome (h : t.Sound r messages tail got late) (hroom : 0 < room)
    (hnone : t.link.inFlight = 0) {m : M} {s : Sending}
    (hcurrent : t.link.line.current = some (m, s)) : (t.next? room (.write 1)).isSome := by
  have hoffer := List.length_pos_iff.mpr (h.link.line.current m s hcurrent).2.1
  have hwrite := Line.write?_isSome hcurrent
    (show (WriteOutcome.took 1).taken ≤ s.offer.length from hoffer)
  simp only [next?]
  rw [if_neg (by omega)]
  split
  · rename_i hnowrite
    rw [hnowrite] at hwrite
    exact hwrite
  · rfl
  · rfl

theorem Sound.send_isSome (hreads : Message.ReadsBack M)
    (hregistered : ∀ m ∈ messages, ∃ tag, r.tagOf? (Message.kind m) = some tag)
    (h : t.Sound r messages tail got late) (hcurrent : t.link.line.current = none)
    {m : M} {todo : List M} (htodo : t.todo = m :: todo) : (t.next? room .send).isSome := by
  have hopen := h.open_of_todo (by rw [htodo]; exact List.cons_ne_nil m todo)
  have hmem : m ∈ messages := by
    rw [← h.order, htodo]
    exact List.mem_append_right _ List.mem_cons_self
  obtain ⟨tag, htag⟩ := hregistered m hmem
  obtain ⟨s, -, -, hsend⟩ :=
    h.link.line.send?_of_registered hreads (isOpen_of_not_closed hopen) htag
  rw [hcurrent] at hsend
  simp only [next?, htodo, hsend]
  rfl

theorem finish_isSome (hclosed : t.isClosed = true) (hnone : t.link.inFlight = 0)
    (hwants : t.link.inbound.wants ≠ 0) : (t.next? room .finish).isSome := by
  simp only [next?, Link.lose?, hclosed, hnone]
  rw [if_neg (by simp), if_neg hwants]
  rfl

/-- There is always something to do, until all has arrived; then the sender can close. -/
theorem Sound.progress (hreads : Message.ReadsBack M)
    (hregistered : ∀ m ∈ messages, ∃ tag, r.tagOf? (Message.kind m) = some tag)
    (hroom : 0 < room) (h : t.Sound r messages tail got late) :
    (∃ move, move ≠ .close ∧ (t.next? room move).isSome) ∨
      ((t.next? room .close).isSome ∧ t.link.line.sent = messages ∧ got = messages ∧
        late = 0) := by
  by_cases hzero : t.link.inbound.wants = 0
  · left
    rcases Inbound.passes_on_of_stands h.link.follows.stands hzero with hdeliver | hrecv
    · refine ⟨.deliver, Move.noConfusion, ?_⟩
      simp only [next?, Link.deliver?, Option.isSome_map]
      exact hdeliver
    · refine ⟨.recv, Move.noConfusion, ?_⟩
      simp only [next?, Link.recv?, Option.isSome_map]
      exact hrecv
  -- The receiver wants bytes: those on their way come first, then those still to be written.
  by_cases hflight : 0 < t.link.inFlight
  · exact Or.inl ⟨.read 1, Move.noConfusion, read_isSome hzero hflight⟩
  have hnone : t.link.inFlight = 0 := by omega
  cases hcurrent : t.link.line.current with
  | some current => exact Or.inl ⟨.write 1, Move.noConfusion, h.write_isSome hroom hnone hcurrent⟩
  | none =>
    cases htodo : t.todo with
    | cons m todo =>
      exact Or.inl ⟨.send, Move.noConfusion, h.send_isSome hreads hregistered hcurrent htodo⟩
    | nil =>
      obtain ⟨hsent, hgot⟩ := h.settled hreads htodo hcurrent hnone
      cases hclosed : t.isClosed with
      | true => exact Or.inl ⟨.finish, Move.noConfusion, finish_isSome hclosed hnone hzero⟩
      | false =>
        cases hqueue : t.link.inbound.queue with
        | some m =>
          left
          refine ⟨.recv, Move.noConfusion, ?_⟩
          simp only [next?, Link.recv?, Inbound.recv?, hqueue]
          rfl
        | none =>
          right
          refine ⟨?_, hsent, ?_, h.not_late (Nat.pos_of_ne_zero hzero)⟩
          · simp only [next?, hclosed, htodo, hcurrent]
            rfl
          · unfold Inbound.ahead at hgot
            rw [hqueue, (Inbound.open_of_wants (Nat.pos_of_ne_zero hzero)).1] at hgot
            simpa using hgot

/-! ## The law -/

/-- What a channel promises for a set of messages: every send succeeds, what is received are the
messages that were sent, each once and in order, and behind them, once the sender has closed, over
and over that the channel is closed. No run gets stuck before all has arrived, and none is longer
than four moves for each byte, one for each message and two more, but for what is received behind
the end. -/
def Delivers (M : Type) [Message M] : Prop :=
  ∀ (r : Registry) (messages : List M) (room : Nat) (moves : List Move) (t : Transfer M),
    0 < room → (∀ m ∈ messages, ∃ tag, r.tagOf? (Message.kind m) = some tag) →
    (start r messages).run? room moves = some t →
    t.answers <+: List.replicate messages.length (.ok ()) ∧
      t.received <+: messages.map .ok ++ List.replicate moves.length (.error .channelClosed) ∧
      (∀ e, .error e ∈ t.received → t.isClosed = true) ∧
      ((∃ move, move ≠ .close ∧ (t.next? room move).isSome) ∨
        ((t.next? room .close).isSome ∧ t.answers = List.replicate messages.length (.ok ()) ∧
          t.received = messages.map .ok)) ∧
      (4 * (messages.flatMap (Message.wire r)).length + messages.length + 2 < moves.length →
        t.answers = List.replicate messages.length (.ok ()) ∧
          messages.map .ok ++ [.error .channelClosed] <+: t.received)

theorem load_start (r : Registry) (messages : List M) : (start r messages).load r =
    4 * (messages.flatMap (Message.wire r)).length + messages.length + 2 := by
  unfold load
  rfl

theorem delivers_of_readsBack (hreads : Message.ReadsBack M) : Delivers M := by
  intro r messages room moves t hroom hregistered hrun
  obtain ⟨tail, got, late, hsound, hle, hload⟩ :=
    sound_run hreads hregistered moves (sound_start r messages) hrun
  rw [load_start] at hload
  refine ⟨?_, ?_, ?_, ?_, ?_⟩
  · obtain ⟨n, hn⟩ : ∃ n, messages.length = t.link.line.sent.length + n :=
      ⟨messages.length - t.link.line.sent.length, by have := hsound.sent_prefix.length_le; omega⟩
    rw [hsound.answers, hn, List.replicate_add]
    exact List.prefix_append _ _
  · rw [hsound.received]
    by_cases hlate : 0 < late
    · obtain ⟨-, -, rfl⟩ := hsound.settled_of_late hreads hlate
      obtain ⟨n, hn⟩ : ∃ n, moves.length = late + n := ⟨moves.length - late, by omega⟩
      rw [List.prefix_append_right_inj, hn, List.replicate_add]
      exact List.prefix_append _ _
    · have hzero : late = 0 := by omega
      rw [hzero, List.replicate_zero, List.append_nil]
      exact ((hsound.got_prefix hreads).map _).trans (List.prefix_append _ _)
  · intro e he
    have hlate : 0 < late := by
      rw [hsound.received] at he
      rcases List.mem_append.mp he with he | he
      · obtain ⟨m, -, hm⟩ := List.mem_map.mp he
        cases hm
      · exact Nat.pos_of_ne_zero (List.mem_replicate.mp he).1
    exact (hsound.settled_of_late hreads hlate).1
  · rcases hsound.progress hreads hregistered hroom with hmove | ⟨hclose, hsent, hgot, hlate⟩
    · exact Or.inl hmove
    · refine Or.inr ⟨hclose, ?_, ?_⟩
      · rw [hsound.answers, hsent]
      · rw [hsound.received, hgot, hlate, List.replicate_zero, List.append_nil]
  · intro hlong
    have hlate : 0 < late := by omega
    obtain ⟨-, hsent, rfl⟩ := hsound.settled_of_late hreads hlate
    obtain ⟨n, rfl⟩ : ∃ n, late = n + 1 := ⟨late - 1, by omega⟩
    rw [hsound.answers, hsent, hsound.received, List.prefix_append_right_inj,
      List.replicate_succ]
    exact ⟨rfl, List.replicate n _, rfl⟩

end Moving

/-- Everything that is sent arrives, whatever the stream takes of a write and gives to a read, and
however sending and receiving are interleaved. -/
theorem everything_that_is_sent_arrives : Delivers ControlMessage ∧ Delivers ReplyMessage :=
  ⟨delivers_of_readsBack controlMessage_readsBack, delivers_of_readsBack replyMessage_readsBack⟩

/-- A quit goes through a stream with room for four bytes. -/
theorem a_quit_arrives_through_a_narrow_stream :
    ∃ t : Transfer ControlMessage,
      (start Direction.rootToZygote.registry [.quit]).run? 4
        (([.send, .write 3, .read 2, .write 2, .read 3, .write 1, .read 1, .deliver, .recv, .close,
          .finish] : List Move) ++ List.replicate 20 .recv) = some t ∧
      t.answers = [.ok ()] ∧ [.ok .quit, .error .channelClosed] <+: t.received := by
  obtain ⟨t, ht⟩ : ∃ t : Transfer ControlMessage,
      (start Direction.rootToZygote.registry [.quit]).run? 4
        (([.send, .write 3, .read 2, .write 2, .read 3, .write 1, .read 1, .deliver, .recv, .close,
          .finish] : List Move) ++ List.replicate 20 .recv) = some t :=
    Option.isSome_iff_exists.mp (by decide +kernel)
  have hregistered : ∀ m ∈ [ControlMessage.quit],
      ∃ tag, Direction.rootToZygote.registry.tagOf? (Message.kind m) = some tag := by
    intro m hm
    rw [List.mem_singleton] at hm
    subst hm
    exact ⟨255, rfl⟩
  obtain ⟨-, -, -, -, hlong⟩ :=
    everything_that_is_sent_arrives.1 _ _ 4 _ t (by decide) hregistered ht
  exact ⟨t, ht, hlong (by decide)⟩

end Transfer

end ProcessTree
