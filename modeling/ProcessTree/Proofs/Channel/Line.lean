-- The outbound direction of a channel at work, one write call after the other.
-- A send has the stream to itself from its first write call to its last. So
-- the bytes on the wire are complete frames, one after the other, and behind
-- them at most the front of one more.
import ProcessTree.Proofs.Channel.Wire

namespace ProcessTree

/-! ## The line -/

/-- How many bytes a write call took. -/
def WriteOutcome.taken : WriteOutcome → Nat
  | .took n => n
  | .failed _ => 0

/-- The error that a write call ends the direction with. -/
def WriteOutcome.error? : WriteOutcome → Option ChannelError
  | .failed failure => some (.io failure)
  | .took 0 => some .streamClosed
  | .took (_ + 1) => none

theorem WriteOutcome.taken_of_error {outcome : WriteOutcome} {e : ChannelError}
    (h : outcome.error? = some e) : outcome.taken = 0 := by
  unfold error? at h
  split at h
  · rfl
  · rfl
  · cases h

/-- What a write call does to the direction is said by the error that it ends with, if any, and by
how much it takes. -/
theorem Outbound.onWrite_eq (o : Outbound) (s : Sending) (outcome : WriteOutcome) :
    o.onWrite s outcome = match outcome.error? with
      | some e => (.error e, o.finish e)
      | none => (.ok (s.drop outcome.taken), o) := by
  unfold onWrite WriteOutcome.error?
  split
  · rfl
  · rfl
  · rfl

/-- The outbound direction of a channel, with the send that has its stream. -/
structure Line (M : Type) where
  outbound : Outbound
  /-- The message that is sent, and what is left to write of its frame. -/
  current : Option (M × Sending)
  /-- All bytes that were written. -/
  emitted : Bytes
  /-- The messages that were sent. -/
  sent : List M

namespace Line

variable {M : Type}

/-- The line before anything was sent. -/
def start (r : Registry) : Line M := ⟨.start r, none, [], []⟩

/-- The send gives up; what it has written stays written. -/
def abandon (l : Line M) : Line M := { l with current := none }

/-- What is left to write of the frame that is sent. -/
def unsent (l : Line M) : Bytes := (l.current.map fun current => current.2.rest).getD []

/-- The next write call of the send that has the stream, which takes no more than it is offered;
with the answer of the send, once it has one. -/
def write? (l : Line M) (outcome : WriteOutcome) :
    Option (Option (Except ChannelError Unit) × Line M) :=
  match l.current with
  | none => none
  | some (m, s) =>
    if s.offer.length < outcome.taken then none
    else
      let emitted := l.emitted ++ s.offer.take outcome.taken
      match l.outbound.onWrite s outcome with
      | (.error e, outbound) => some (some (.error e), ⟨outbound, none, emitted, l.sent⟩)
      | (.ok left, outbound) =>
        if left.offer = [] then
          some (some (.ok ()), ⟨outbound, none, emitted, l.sent ++ [m]⟩)
        else some (none, ⟨outbound, some (m, left), emitted, l.sent⟩)

theorem write?_isSome {l : Line M} {m : M} {s : Sending} {outcome : WriteOutcome}
    (hm : l.current = some (m, s)) (hle : outcome.taken ≤ s.offer.length) :
    (l.write? outcome).isSome := by
  unfold write?
  rw [hm]
  simp only
  rw [if_neg (by omega)]
  split
  · rfl
  · split
    · rfl
    · rfl

theorem current_of_write? {l l' : Line M} {outcome : WriteOutcome}
    {answer : Option (Except ChannelError Unit)} (hwrite : l.write? outcome = some (answer, l')) :
    ∃ m s, l.current = some (m, s) := by
  unfold write? at hwrite
  split at hwrite
  · cases hwrite
  · rename_i m s hcurrent
    exact ⟨m, s, hcurrent⟩

theorem write?_emitted {l l' : Line M} {m : M} {s : Sending} {outcome : WriteOutcome}
    {answer : Option (Except ChannelError Unit)} (hm : l.current = some (m, s))
    (hwrite : l.write? outcome = some (answer, l')) :
    l'.emitted = l.emitted ++ s.offer.take outcome.taken := by
  unfold write? at hwrite
  rw [hm] at hwrite
  simp only at hwrite
  split at hwrite
  · cases hwrite
  · split at hwrite
    · cases hwrite
      rfl
    · split at hwrite
      · cases hwrite
        rfl
      · cases hwrite
        rfl

/-- What a write call took was left to write before, and is not any more. -/
theorem write?_unsent {l l' : Line M} {m : M} {s : Sending} {outcome : WriteOutcome}
    {answer : Option (Except ChannelError Unit)} (hm : l.current = some (m, s))
    (hok : outcome.error? = none) (hwrite : l.write? outcome = some (answer, l')) :
    s.offer.take outcome.taken ++ l'.unsent = l.unsent := by
  have hrest : l.unsent = s.rest := by
    unfold unsent
    rw [hm]
    rfl
  rw [hrest, ← s.take_rest_drop outcome.taken]
  congr 1
  unfold write? at hwrite
  rw [hm] at hwrite
  simp only [Outbound.onWrite_eq, hok] at hwrite
  split at hwrite
  · cases hwrite
  · split at hwrite
    · rename_i hdone
      cases hwrite
      exact (((s.drop _).offer_eq_nil_iff).mp hdone).symm
    · cases hwrite
      rfl

/-- On a free line there is no send that anything could be wrong with. -/
theorem forall_current_of_free {l : Line M} (hfree : l.current = none) {P : M → Sending → Prop}
    (m : M) (s : Sending) (hm : l.current = some (m, s)) : P m s := by
  rw [hfree] at hm
  cases hm

variable [Message M]

/-- A send begins: it is refused at once, or it gets the stream. While another send has the stream
it waits. -/
def send? (l : Line M) (m : M) : Option (Option ChannelError × Line M) :=
  match l.outbound.begin m with
  | .error e => some (some e, l)
  | .ok s => if l.current.isSome then none else some (none, { l with current := some (m, s) })

/-! ## What is on the wire -/

/-- Complete frames were written, and behind them these bytes. -/
structure Sound (l : Line M) (r : Registry) (tail : Bytes) : Prop where
  registry : l.outbound.registry = r
  registered : ∀ m ∈ l.sent, ∃ tag, r.tagOf? (Message.kind m) = some tag
  emitted : l.emitted = l.sent.flatMap (Message.wire r) ++ tail
  current : ∀ m s, l.current = some (m, s) → l.outbound.isOpen = true ∧ s.offer ≠ [] ∧
    tail ++ s.rest = Message.wire r m ∧ ∀ e, ¬ Message.Refused r m e
  idle : l.current = none → tail = [] ∨ ∃ m : M, Message.Partly r m tail

theorem sound_start (r : Registry) : (start r : Line M).Sound r [] where
  registry := rfl
  registered := fun _ h => nomatch h
  emitted := rfl
  current := fun _ _ h => nomatch h
  idle := fun _ => Or.inl rfl

/-- The line behind messages that were sent in full. -/
def after (r : Registry) (messages : List M) : Line M :=
  ⟨.start r, none, messages.flatMap (Message.wire r), messages⟩

theorem sound_after {r : Registry} {messages : List M}
    (h : ∀ m ∈ messages, ∃ tag, r.tagOf? (Message.kind m) = some tag) :
    (after r messages).Sound r [] where
  registry := rfl
  registered := h
  emitted := (List.append_nil _).symm
  current := fun _ _ h => nomatch h
  idle := fun _ => Or.inl rfl

variable {l l' : Line M} {r : Registry} {tail : Bytes}

/-- A send that has the stream has written the front of its frame. -/
theorem Sound.partly (h : l.Sound r tail) {m : M} {s : Sending} (hm : l.current = some (m, s)) :
    Message.Partly r m tail := by
  obtain ⟨-, hoffer, hrest, -⟩ := h.current m s hm
  exact ⟨s.rest, fun hnil => hoffer (s.offer_eq_nil_iff.mpr hnil), hrest⟩

/-- A message whose send can only begin with an error does not have the line. -/
theorem Sound.free_of_error (h : l.Sound r tail) {m : M} {e : ChannelError}
    (hcurrent : ∀ m' s, l.current = some (m', s) → m' = m)
    (hbegin : l.outbound.begin m = .error e) : l.current = none := by
  cases hc : l.current with
  | none => rfl
  | some current =>
    obtain ⟨m', s⟩ := current
    obtain ⟨hopen, -, -, hnot⟩ := h.current m' s hc
    obtain rfl := hcurrent m' s hc
    rw [← h.registry] at hnot
    obtain ⟨s', -, hs'⟩ := Outbound.begin_of_not_refused hnot
    rw [if_pos hopen, hbegin] at hs'
    cases hs'

theorem Sound.abandon (h : l.Sound r tail) : l.abandon.Sound r tail where
  registry := h.registry
  registered := h.registered
  emitted := h.emitted
  current := fun _ _ hm => nomatch hm
  idle := by
    intro _
    cases hcurrent : l.current with
    | none => exact h.idle hcurrent
    | some current => exact Or.inr ⟨_, h.partly hcurrent⟩

theorem Sound.onOutbound (h : l.Sound r tail) (hcurrent : l.current = none) {o : Outbound}
    (ho : o.registry = l.outbound.registry) : ({ l with outbound := o } : Line M).Sound r tail := by
  exact ⟨ho.trans h.registry, h.registered, h.emitted, forall_current_of_free hcurrent, h.idle⟩

/-- A send that gets the stream starts behind the complete frames. -/
theorem send?_eq_some {m : M} {answer : Option ChannelError} (h : l.send? m = some (answer, l')) :
    (∃ e, answer = some e ∧ l' = l ∧ l.outbound.begin m = .error e) ∨
      (answer = none ∧ l.current = none ∧ l.outbound.isOpen = true ∧
        ∃ s, l.outbound.frame m = .ok s ∧ l' = { l with current := some (m, s) }) := by
  unfold send? at h
  split at h
  · rename_i e hbegin
    cases h
    exact Or.inl ⟨e, rfl, rfl, hbegin⟩
  · rename_i s hbegin
    split at h
    · cases h
    · rename_i hcurrent
      cases h
      unfold Outbound.begin at hbegin
      split at hbegin
      · cases hbegin
      · rename_i s' hframe
        split at hbegin
        · rename_i hopen
          cases hbegin
          exact Or.inr ⟨rfl, by simpa using hcurrent, hopen, s, hframe, rfl⟩
        · cases hbegin

theorem send?_emitted {m : M} {answer : Option ChannelError} (h : l.send? m = some (answer, l')) :
    l'.emitted = l.emitted := by
  rcases send?_eq_some h with ⟨e, -, rfl, -⟩ | ⟨-, -, -, s, -, rfl⟩
  · rfl
  · rfl

/-- On a line that is open no message is refused whose kind is registered. -/
theorem Sound.send?_of_registered (h : l.Sound r tail) (hreads : Message.ReadsBack M)
    (hopen : l.outbound.isOpen = true) {m : M} {tag : UInt8}
    (htag : r.tagOf? (Message.kind m) = some tag) :
    ∃ s, l.outbound.frame m = .ok s ∧ s.rest = Message.wire r m ∧
      l.send? m = if l.current.isSome then none
        else some (none, { l with current := some (m, s) }) := by
  have hnot := Message.not_refused_of_registered hreads htag
  rw [← h.registry] at hnot
  obtain ⟨s, hframe, hbegin⟩ := Outbound.begin_of_not_refused hnot
  rw [if_pos hopen] at hbegin
  have hrest := (Outbound.frame_eq_ok hframe).2.1
  rw [h.registry] at hrest
  refine ⟨s, hframe, hrest, ?_⟩
  unfold send?
  rw [hbegin]

theorem Sound.send (h : l.Sound r []) {m : M} {s : Sending} (hopen : l.outbound.isOpen = true)
    (hframe : l.outbound.frame m = .ok s) :
    ({ l with current := some (m, s) } : Line M).Sound r [] := by
  obtain ⟨hoffer, hrest, hnot⟩ := Outbound.frame_eq_ok hframe
  rw [h.registry] at hrest hnot
  refine ⟨h.registry, h.registered, h.emitted, ?_, fun hm => nomatch hm⟩
  rintro m' s' hm
  cases hm
  exact ⟨hopen, hoffer, hrest, hnot⟩

/-- What a write call of the send of `m` leads to: some of the frame is written, or all that was
left of it, or the direction ends. -/
inductive Wrote (l l' : Line M) (r : Registry) (tail : Bytes) (m : M) (s : Sending)
    (outcome : WriteOutcome) : Option (Except ChannelError Unit) → Prop where
  | part (hok : outcome.error? = none) (houtbound : l'.outbound = l.outbound)
      (hsent : l'.sent = l.sent) (hcurrent : l'.current = some (m, s.drop outcome.taken))
      (hsound : l'.Sound r (tail ++ s.offer.take outcome.taken)) :
      Wrote l l' r tail m s outcome none
  | whole (hok : outcome.error? = none) (houtbound : l'.outbound = l.outbound)
      (hsent : l'.sent = l.sent ++ [m]) (hcurrent : l'.current = none) (hsound : l'.Sound r []) :
      Wrote l l' r tail m s outcome (some (.ok ()))
  | failed {e : ChannelError} (herror : outcome.error? = some e)
      (houtbound : l'.outbound = l.outbound.finish e) (hsent : l'.sent = l.sent)
      (hcurrent : l'.current = none) (hsound : l'.Sound r tail) :
      Wrote l l' r tail m s outcome (some (.error e))

theorem Sound.write (h : l.Sound r tail) {m : M} {s : Sending} {outcome : WriteOutcome}
    {answer : Option (Except ChannelError Unit)} (hm : l.current = some (m, s))
    (hwrite : l.write? outcome = some (answer, l')) : Wrote l l' r tail m s outcome answer := by
  obtain ⟨hopen, hoffer, hrest, hnot⟩ := h.current m s hm
  have hstep := s.take_rest_drop outcome.taken
  have hemitted : l.emitted ++ s.offer.take outcome.taken =
      l.sent.flatMap (Message.wire r) ++ (tail ++ s.offer.take outcome.taken) := by
    rw [h.emitted, List.append_assoc]
  unfold write? at hwrite
  rw [hm] at hwrite
  simp only [Outbound.onWrite_eq] at hwrite
  split at hwrite
  · cases hwrite
  · cases herror : outcome.error? with
    | some e =>
      have htaken := WriteOutcome.taken_of_error herror
      rw [herror] at hwrite
      cases hwrite
      rw [htaken, List.take_zero, List.append_nil]
      refine .failed herror rfl rfl rfl
        ⟨h.registry, h.registered, h.emitted, fun _ _ hm' => (nomatch hm'), ?_⟩
      intro _
      exact Or.inr ⟨m, h.partly hm⟩
    | none =>
      rw [herror] at hwrite
      simp only at hwrite
      split at hwrite
      · rename_i hdone
        cases hwrite
        rw [Sending.offer_eq_nil_iff] at hdone
        rw [hdone, List.append_nil] at hstep
        refine .whole herror rfl rfl rfl
          ⟨h.registry, ?_, ?_, fun _ _ hm' => (nomatch hm'), ?_⟩
        · intro m' hm'
          rcases List.mem_append.mp hm' with hm' | hm'
          · exact h.registered m' hm'
          · rw [List.mem_singleton] at hm'
            rw [hm']
            exact Message.registered_of_not_refused hnot
        · rw [hemitted, hstep, hrest]
          simp
        · intro _
          exact Or.inl rfl
      · rename_i hmore
        cases hwrite
        refine .part herror rfl rfl rfl
          ⟨h.registry, h.registered, hemitted, ?_, fun hm' => nomatch hm'⟩
        intro m' s' hm'
        cases hm'
        refine ⟨hopen, hmore, ?_, hnot⟩
        rw [List.append_assoc, hstep, hrest]

theorem Sound.unique (h : l.Sound r tail) {l' : Line M} {tail' : Bytes} (h' : l'.Sound r tail')
    (hemitted : l'.emitted = l.emitted) (hsent : l'.sent = l.sent) : tail' = tail := by
  have hbytes := h.emitted
  rw [← hemitted, ← hsent, h'.emitted] at hbytes
  exact List.append_cancel_left hbytes

open ProcessTree.Frame in
/-- The parser finds the messages that were sent on the wire, and nothing wrong. -/
theorem Sound.parse_emitted (h : l.Sound r tail) (hreads : Message.ReadsBack M) :
    parse (M := M) r l.emitted = (l.sent, .short tail) := by
  have htail : parse (M := M) r tail = ([], .short tail) := by
    cases hcurrent : l.current with
    | some current => exact Message.parse_partly hreads (h.partly hcurrent)
    | none =>
      rcases h.idle hcurrent with rfl | ⟨m, hpartly⟩
      · exact parse_short r (by decide)
      · exact Message.parse_partly hreads hpartly
  rw [h.emitted, Message.parse_wires hreads _ _ h.registered, htail, List.append_nil]

/-! ## Behind other bytes -/

/-- The line with other bytes, and other messages, before its own. -/
def behind (l : Line M) (bytes : Bytes) (messages : List M) : Line M :=
  { l with emitted := bytes ++ l.emitted, sent := messages ++ l.sent }

theorem send?_behind (l : Line M) (bytes : Bytes) (messages : List M) (m : M) :
    (l.behind bytes messages).send? m =
      (l.send? m).map fun (answer, l') => (answer, l'.behind bytes messages) := by
  unfold send? behind
  simp only
  split
  · rfl
  · split <;> rfl

omit [Message M] in
theorem write?_behind (l : Line M) (bytes : Bytes) (messages : List M) (outcome : WriteOutcome) :
    (l.behind bytes messages).write? outcome =
      (l.write? outcome).map fun (answer, l') => (answer, l'.behind bytes messages) := by
  unfold write? behind
  simp only
  split
  · rfl
  · split
    · rfl
    · split
      · simp
      · split <;> simp

end Line

end ProcessTree
