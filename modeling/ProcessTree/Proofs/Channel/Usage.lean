-- The outbound direction of a channel and whoever uses it: sends and closes in
-- any order, and write calls that come out in any way. Nothing is written
-- behind a frame that was cut off or behind a close, and whatever ended the
-- direction first is what all later sends are told.
import ProcessTree.Proofs.Channel.Line
import ProcessTree.Vocabulary

namespace ProcessTree

/-! ## A close in two steps -/

namespace Outbound

/-- A close first lets go of the stream, when no send has it. -/
def letGo (o : Outbound) : Outbound := { o with isOpen := false }

/-- Then it says why the direction has ended, unless that was said before. -/
def conclude (o : Outbound) : Outbound := { o with terminal := o.terminal.or (some .channelClosed) }

theorem close_eq (o : Outbound) : o.close = o.letGo.conclude := rfl

end Outbound

/-! ## Moves -/

/-- The outbound direction of a channel with the answers that its users got. -/
structure Usage (M : Type) where
  line : Line M
  /-- The sends that are over, each with its answer. -/
  answers : List (M × Except ChannelError Unit)

namespace Usage

inductive Move (M : Type) where
  | send (m : M)
  | write (outcome : WriteOutcome)
  | letGo
  | conclude

/-- The error that a move ends the direction with. -/
def Move.ends? {M : Type} : Move M → Option ChannelError
  | .write outcome => outcome.error?
  | .letGo => some .channelClosed
  | .send _ | .conclude => none

/-- What ended the direction: the first write call that failed, or a close that came before. -/
def reason? {M : Type} (moves : List (Move M)) : Option ChannelError := moves.findSome? Move.ends?

variable {M : Type}

/-- A channel that nobody has used yet. -/
def start (r : Registry) : Usage M := ⟨.start r, []⟩

/-- The messages whose sends were answered with success. -/
def succeeded (answers : List (M × Except ChannelError Unit)) : List M :=
  answers.filterMap fun
    | (m, .ok ()) => some m
    | (_, .error _) => none

theorem succeeded_append_ok (answers : List (M × Except ChannelError Unit)) (m : M) :
    succeeded (answers ++ [(m, .ok ())]) = succeeded answers ++ [m] := by
  unfold succeeded
  rw [List.filterMap_append]
  rfl

theorem succeeded_append_error (answers : List (M × Except ChannelError Unit)) (m : M)
    (e : ChannelError) : succeeded (answers ++ [(m, .error e)]) = succeeded answers := by
  unfold succeeded
  rw [List.filterMap_append]
  exact List.append_nil _

variable [Message M]

/-- What a move leads to, where it is possible. -/
def next? (u : Usage M) : Move M → Option (Usage M)
  | .send m =>
    match u.line.send? m with
    | none => none
    | some (none, line) => some { u with line }
    | some (some e, line) => some ⟨line, u.answers ++ [(m, .error e)]⟩
  | .write outcome =>
    match u.line.current, u.line.write? outcome with
    | some _, some (none, line) => some { u with line }
    | some (m, _), some (some answer, line) => some ⟨line, u.answers ++ [(m, answer)]⟩
    | _, _ => none
  | .letGo =>
    if u.line.current.isSome then none
    else some { u with line := { u.line with outbound := u.line.outbound.letGo } }
  | .conclude =>
    if u.line.outbound.isOpen then none
    else some { u with line := { u.line with outbound := u.line.outbound.conclude } }

/-- A row of moves. -/
def run? (u : Usage M) : List (Move M) → Option (Usage M)
  | [] => some u
  | move :: moves => (u.next? move).bind fun u' => u'.run? moves

/-! ## The invariant -/

/-- The first send that was not refused and failed all the same was that of this message. -/
def FirstFailed (u : Usage M) (r : Registry) (m : M) : Prop :=
  ∃ before e after, u.answers = before ++ (m, .error e) :: after ∧
    (∀ e', ¬ Message.Refused r m e') ∧
    ∀ m' e', (m', .error e') ∈ before → Message.Refused r m' e'

theorem FirstFailed.more {u u' : Usage M} {r : Registry} {m : M} (h : u.FirstFailed r m)
    {last : M × Except ChannelError Unit} (hu' : u'.answers = u.answers ++ [last]) :
    u'.FirstFailed r m := by
  obtain ⟨before, e, after, hanswers, hnot, hbefore⟩ := h
  refine ⟨before, e, after ++ [last], ?_, hnot, hbefore⟩
  rw [hu', hanswers]
  simp

/-- Complete frames of the sends that succeeded were written, and behind them these bytes; and the
direction has ended for this reason, if it has. -/
structure Sound (u : Usage M) (r : Registry) (reason : Option ChannelError) (tail : Bytes) :
    Prop where
  line : u.line.Sound r tail
  sent : u.line.sent = succeeded u.answers
  working : reason = none → u.line.outbound.isOpen = true ∧ u.line.outbound.terminal = none ∧
    (u.line.current = none → tail = []) ∧
    ∀ m e, (m, .error e) ∈ u.answers → Message.Refused r m e
  ended : ∀ e, reason = some e → u.line.outbound.isOpen = false ∧ u.line.current = none ∧
    (u.line.outbound.terminal = some e ∨
      u.line.outbound.terminal = none ∧ e = .channelClosed) ∧
    (tail = [] ∨ ∃ m, u.FirstFailed r m ∧ Message.Partly r m tail)

theorem sound_start (r : Registry) : (start r : Usage M).Sound r none [] where
  line := Line.sound_start r
  sent := rfl
  working := fun _ => ⟨rfl, rfl, fun _ => rfl, fun _ _ h => nomatch h⟩
  ended := fun _ h => nomatch h

variable {u u' : Usage M} {r : Registry} {reason : Option ChannelError} {tail : Bytes}

theorem Sound.reason_eq_none_of_open (h : u.Sound r reason tail)
    (hopen : u.line.outbound.isOpen = true) : reason = none := by
  cases hreason : reason with
  | none => rfl
  | some e =>
    have := (h.ended e hreason).1
    rw [hopen] at this
    cases this

theorem Sound.refusal (h : u.Sound r reason tail) {e : ChannelError} (he : reason = some e) :
    u.line.outbound.refusal = e := by
  obtain ⟨-, -, hterm, -⟩ := h.ended e he
  unfold Outbound.refusal
  rcases hterm with hterm | ⟨hterm, rfl⟩
  · rw [hterm]
    rfl
  · rw [hterm]
    rfl

/-- A send is refused for its own message, or for what ended the direction. -/
theorem Sound.begin_eq_error (h : u.Sound r reason tail) {m : M} {e : ChannelError}
    (hbegin : u.line.outbound.begin m = .error e) :
    Message.Refused r m e ∨ reason = some e := by
  by_cases hrefused : ∃ e', Message.Refused r m e'
  · obtain ⟨e', he'⟩ := hrefused
    rw [← h.line.registry] at he'
    rw [Outbound.begin_of_refused he'] at hbegin
    cases hbegin
    rw [h.line.registry] at he'
    exact Or.inl he'
  · have hnot : ∀ e', ¬ Message.Refused u.line.outbound.registry m e' := by
      rw [h.line.registry]
      exact fun e' he' => hrefused ⟨e', he'⟩
    obtain ⟨s, -, hs⟩ := Outbound.begin_of_not_refused hnot
    rw [hs] at hbegin
    split at hbegin
    · cases hbegin
    · rename_i hclosed
      cases hbegin
      cases hreason : reason with
      | none => exact absurd (h.working hreason).1 hclosed
      | some e' =>
        rw [h.refusal hreason]
        exact Or.inr rfl

/-! ## One move -/

/-- A send that is refused leaves all as it was, but for its answer. -/
theorem sound_refused (h : u.Sound r reason tail) {m : M} {e : ChannelError}
    (hbegin : u.line.outbound.begin m = .error e) :
    (⟨u.line, u.answers ++ [(m, .error e)]⟩ : Usage M).Sound r reason tail := by
  refine ⟨h.line, ?_, ?_, ?_⟩
  · rw [h.sent]
    exact (succeeded_append_error u.answers m e).symm
  · intro hreason
    obtain ⟨hopen, hterm, htail, herrors⟩ := h.working hreason
    refine ⟨hopen, hterm, htail, ?_⟩
    intro m' e' hmem
    rcases List.mem_append.mp hmem with hmem | hmem
    · exact herrors m' e' hmem
    · rw [List.mem_singleton] at hmem
      cases hmem
      rcases h.begin_eq_error hbegin with hrefused | hended
      · exact hrefused
      · rw [hreason] at hended
        cases hended
  · intro e' hreason
    obtain ⟨hclosed, hcurrent, hterm, htail⟩ := h.ended e' hreason
    refine ⟨hclosed, hcurrent, hterm, ?_⟩
    rcases htail with hnil | ⟨m', hfirst, hpartly⟩
    · exact Or.inl hnil
    · exact Or.inr ⟨m', hfirst.more rfl, hpartly⟩

theorem sound_send (h : u.Sound r reason tail) {m : M} (hmove : u.next? (.send m) = some u') :
    u'.Sound r reason tail := by
  simp only [next?] at hmove
  split at hmove
  · cases hmove
  · rename_i line hsend
    cases hmove
    rcases Line.send?_eq_some hsend with ⟨e, he, -⟩ | ⟨-, hcurrent, hopen, s, hframe, rfl⟩
    · cases he
    · have hreason := h.reason_eq_none_of_open hopen
      obtain ⟨-, hterm, htail, herrors⟩ := h.working hreason
      have hline := h.line
      rw [htail hcurrent] at hline ⊢
      refine ⟨hline.send hopen hframe, h.sent, fun _ => ⟨hopen, hterm, fun _ => rfl, herrors⟩, ?_⟩
      intro e he
      rw [hreason] at he
      cases he
  · rename_i e line hsend
    cases hmove
    rcases Line.send?_eq_some hsend with ⟨e', he, rfl, hbegin⟩ | ⟨he, -⟩
    · cases he
      exact sound_refused h hbegin
    · cases he

theorem next?_write_eq_some {outcome : WriteOutcome} (hmove : u.next? (.write outcome) = some u') :
    ∃ m s answer line, u.line.current = some (m, s) ∧
      u.line.write? outcome = some (answer, line) ∧
      u' = ⟨line, u.answers ++ (answer.map fun answer => (m, answer)).toList⟩ := by
  simp only [next?] at hmove
  split at hmove
  · rename_i current line hcurrent hwrite
    cases hmove
    exact ⟨current.1, current.2, none, line, hcurrent, hwrite, by simp⟩
  · rename_i m s answer line hcurrent hwrite
    cases hmove
    exact ⟨m, s, some answer, line, hcurrent, hwrite, rfl⟩
  · cases hmove

theorem sound_write (h : u.Sound r reason tail) {outcome : WriteOutcome}
    (hmove : u.next? (.write outcome) = some u') :
    ∃ tail', u'.Sound r (reason.or outcome.error?) tail' := by
  obtain ⟨m, s, answer, line, hm, hwrite, rfl⟩ := next?_write_eq_some hmove
  obtain ⟨hopen, -, -, hnot⟩ := h.line.current m s hm
  have hreason := h.reason_eq_none_of_open hopen
  obtain ⟨-, hterm, -, herrors⟩ := h.working hreason
  rw [hreason, Option.none_or]
  cases h.line.write hm hwrite with
  | part hok houtbound hsent hcurrent hsound =>
    refine ⟨_, hsound, ?_, ?_, ?_⟩
    · rw [hsent, h.sent]
      simp
    · intro _
      rw [houtbound]
      refine ⟨hopen, hterm, ?_, ?_⟩
      · intro hnone
        rw [hcurrent] at hnone
        cases hnone
      · simpa using herrors
    · intro e he
      rw [hok] at he
      cases he
  | whole hok houtbound hsent hcurrent hsound =>
    refine ⟨_, hsound, ?_, ?_, ?_⟩
    · rw [hsent, h.sent]
      exact (succeeded_append_ok u.answers m).symm
    · intro _
      rw [houtbound]
      refine ⟨hopen, hterm, fun _ => rfl, ?_⟩
      intro m' e' hmem
      refine herrors m' e' ?_
      simpa using hmem
    · intro e he
      rw [hok] at he
      cases he
  | @failed e herror houtbound hsent hcurrent hsound =>
    refine ⟨_, hsound, ?_, ?_, ?_⟩
    · rw [hsent, h.sent]
      exact (succeeded_append_error u.answers m e).symm
    · intro hnone
      rw [herror] at hnone
      cases hnone
    · intro e' he'
      rw [herror] at he'
      cases he'
      rw [houtbound]
      refine ⟨rfl, hcurrent, Or.inl ?_, Or.inr ⟨m, ?_, h.line.partly hm⟩⟩
      · unfold Outbound.finish
        rw [hterm]
        rfl
      -- While the direction worked, all errors were refusals: this failure is the first.
      · exact ⟨u.answers, e, [], rfl, hnot, herrors⟩

theorem sound_letGo (h : u.Sound r reason tail) (hmove : u.next? .letGo = some u') :
    u'.Sound r (reason.or (some .channelClosed)) tail := by
  simp only [next?] at hmove
  split at hmove
  · cases hmove
  · rename_i hcurrent
    cases hmove
    have hnone : u.line.current = none := by simpa using hcurrent
    refine ⟨h.line.onOutbound hnone rfl, h.sent, ?_, ?_⟩
    · intro hreason
      cases reason <;> cases hreason
    · intro e he
      cases hreason : reason with
      | none =>
        rw [hreason] at he
        cases he
        obtain ⟨-, hterm, htail, -⟩ := h.working hreason
        exact ⟨rfl, hnone, Or.inr ⟨hterm, rfl⟩, Or.inl (htail hnone)⟩
      | some e' =>
        rw [hreason] at he
        cases he
        obtain ⟨-, -, hterm, htail⟩ := h.ended e hreason
        exact ⟨rfl, hnone, hterm, htail⟩

theorem sound_conclude (h : u.Sound r reason tail) (hmove : u.next? .conclude = some u') :
    u'.Sound r reason tail := by
  simp only [next?] at hmove
  split at hmove
  · cases hmove
  · rename_i hclosed
    cases hmove
    refine ⟨⟨h.line.registry, h.line.registered, h.line.emitted, h.line.current, h.line.idle⟩,
      h.sent, ?_, ?_⟩
    · intro hreason
      exact absurd (h.working hreason).1 hclosed
    · intro e he
      obtain ⟨hclosed, hcurrent, hterm, htail⟩ := h.ended e he
      refine ⟨hclosed, hcurrent, Or.inl ?_, htail⟩
      unfold Outbound.conclude
      rcases hterm with hterm | ⟨hterm, rfl⟩
      · rw [hterm]
        rfl
      · rw [hterm]
        rfl

theorem sound_next (h : u.Sound r reason tail) {move : Move M} (hmove : u.next? move = some u') :
    ∃ tail', u'.Sound r (reason.or move.ends?) tail' := by
  cases move with
  | send m =>
    refine ⟨tail, ?_⟩
    rw [show (Move.send m).ends? = none from rfl, Option.or_none]
    exact sound_send h hmove
  | write outcome => exact sound_write h hmove
  | letGo => exact ⟨tail, sound_letGo h hmove⟩
  | conclude =>
    refine ⟨tail, ?_⟩
    rw [show (Move.conclude : Move M).ends? = none from rfl, Option.or_none]
    exact sound_conclude h hmove

/-! ## Runs -/

theorem sound_run (moves : List (Move M)) (h : u.Sound r reason tail)
    (hrun : u.run? moves = some u') : ∃ tail', u'.Sound r (reason.or (reason? moves)) tail' := by
  induction moves generalizing u reason tail with
  | nil =>
    cases hrun
    refine ⟨tail, ?_⟩
    rw [show reason? ([] : List (Move M)) = none from rfl, Option.or_none]
    exact h
  | cons move moves ih =>
    obtain ⟨u₁, hmove, hrest⟩ := Option.bind_eq_some_iff.mp hrun
    obtain ⟨tail₁, hsound⟩ := sound_next h hmove
    obtain ⟨tail₂, hsound'⟩ := ih hsound hrest
    refine ⟨tail₂, ?_⟩
    have hreason : reason? (move :: moves) = move.ends?.or (reason? moves) := by
      unfold reason?
      rw [List.findSome?_cons]
      cases move.ends? <;> rfl
    rw [hreason, ← Option.or_assoc]
    exact hsound'

/-- Nothing is written by a direction that has ended. -/
theorem emitted_of_ended {e : ChannelError} (h : u.Sound r (some e) tail) {move : Move M}
    (hmove : u.next? move = some u') : u'.line.emitted = u.line.emitted := by
  obtain ⟨hclosed, hcurrent, -, -⟩ := h.ended e rfl
  cases move with
  | send m =>
    simp only [next?] at hmove
    split at hmove
    · cases hmove
    · rename_i line hsend
      cases hmove
      rcases Line.send?_eq_some hsend with ⟨e', he, -⟩ | ⟨-, -, hopen, -⟩
      · cases he
      · rw [hclosed] at hopen
        cases hopen
    · rename_i e' line hsend
      cases hmove
      rcases Line.send?_eq_some hsend with ⟨-, -, rfl, -⟩ | ⟨he, -⟩
      · rfl
      · cases he
  | write outcome =>
    obtain ⟨m, s, -, -, hm, -⟩ := next?_write_eq_some hmove
    rw [hcurrent] at hm
    cases hm
  | letGo =>
    simp only [next?] at hmove
    split at hmove
    · cases hmove
    · cases hmove
      rfl
  | conclude =>
    simp only [next?] at hmove
    split at hmove
    · cases hmove
    · cases hmove
      rfl

theorem emitted_of_ended_run (moves : List (Move M)) {e : ChannelError}
    (h : u.Sound r (some e) tail) (hrun : u.run? moves = some u') :
    u'.line.emitted = u.line.emitted := by
  induction moves generalizing u tail with
  | nil =>
    cases hrun
    rfl
  | cons move moves ih =>
    obtain ⟨u₁, hmove, hrest⟩ := Option.bind_eq_some_iff.mp hrun
    obtain ⟨tail₁, hsound⟩ := sound_next h hmove
    rw [Option.some_or] at hsound
    rw [ih hsound hrest, emitted_of_ended h hmove]

/-- A send that begins with an error is answered at once, and changes nothing. -/
theorem next?_send_of_error {m : M} {e : ChannelError}
    (h : u.line.outbound.begin m = .error e) :
    u.next? (.send m) = some ⟨u.line, u.answers ++ [(m, .error e)]⟩ := by
  simp only [next?, Line.send?, h]

/-! ## Sends over a stream -/

theorem next?_write (u : Usage M) {m : M} {s : Sending} {outcome : WriteOutcome}
    (hm : u.line.current = some (m, s)) (hle : outcome.taken ≤ s.offer.length) :
    u.next? (.write outcome) =
      match outcome.error? with
      | some e => some ⟨⟨u.line.outbound.finish e, none,
          u.line.emitted ++ s.offer.take outcome.taken, u.line.sent⟩, u.answers ++ [(m, .error e)]⟩
      | none =>
        if (s.drop outcome.taken).offer = [] then
          some ⟨⟨u.line.outbound, none, u.line.emitted ++ s.offer.take outcome.taken,
            u.line.sent ++ [m]⟩, u.answers ++ [(m, .ok ())]⟩
        else
          some ⟨⟨u.line.outbound, some (m, s.drop outcome.taken),
            u.line.emitted ++ s.offer.take outcome.taken, u.line.sent⟩, u.answers⟩ := by
  simp only [next?, Line.write?, hm, Outbound.onWrite_eq]
  rw [if_neg (by omega)]
  cases outcome.error? with
  | some e => rfl
  | none =>
    simp only
    by_cases hdone : (s.drop outcome.taken).offer = []
    · simp only [if_pos hdone]
    · simp only [if_neg hdone]

theorem run?_single {move : Move M} (h : u.next? move = some u') : u.run? [move] = some u' := by
  unfold run?
  rw [h]
  rfl

section Streams

variable {σ : Type} (call : σ → Bytes → σ × WriteOutcome)
  (hcall : ∀ stream offered, (call stream offered).2.taken ≤ offered.length)

include hcall in
/-- Writing the rest of a frame over a stream, whose calls take no more than they are offered, is
a row of write calls. -/
theorem a_write_is_a_row_of_moves (stream : σ) (u : Usage M) {m : M} {s : Sending}
    (hm : u.line.current = some (m, s)) (hs : s.offer ≠ []) :
    ∃ (outcomes : List WriteOutcome) (v : Usage M), u.run? (outcomes.map .write) = some v ∧
      v.line.current = none ∧ v.line.outbound = (u.line.outbound.write call stream s).2.1 ∧
      v.answers = u.answers ++ [(m, (u.line.outbound.write call stream s).1)] := by
  induction hsize : s.size using Nat.strongRecOn generalizing u s stream with
  | ind size ih =>
    have hmove := next?_write u hm (hcall stream s.offer)
    rw [Outbound.write, dif_neg hs]
    simp only
    split
    · rename_i e o hwrite
      rw [Outbound.onWrite_eq] at hwrite
      cases herror : (call stream s.offer).2.error? with
      | none =>
        rw [herror] at hwrite
        cases hwrite
      | some e' =>
        rw [herror] at hwrite hmove
        cases hwrite
        exact ⟨[(call stream s.offer).2], _, run?_single hmove, rfl, rfl, rfl⟩
    · rename_i left o hwrite
      obtain ⟨n, houtcome, hn, hleft, ho⟩ := Outbound.onWrite_eq_ok hwrite
      rw [Outbound.onWrite_eq] at hwrite
      cases herror : (call stream s.offer).2.error? with
      | some e' =>
        rw [herror] at hwrite
        cases hwrite
      | none =>
        rw [herror] at hwrite hmove
        cases hwrite
        simp only at hmove
        by_cases hdone : (s.drop (call stream s.offer).2.taken).offer = []
        · rw [if_pos hdone] at hmove
          rw [Outbound.write, dif_pos hdone]
          exact ⟨[(call stream s.offer).2], _, run?_single hmove, rfl, rfl, rfl⟩
        · rw [if_neg hdone] at hmove
          have hlt : (s.drop (call stream s.offer).2.taken).size < size := by
            rw [hleft, ← hsize]
            exact s.size_drop_lt n hs hn
          obtain ⟨outcomes, v, hrun, hv⟩ := ih _ hlt (call stream s.offer).1
            ⟨⟨u.line.outbound, some (m, s.drop (call stream s.offer).2.taken),
              u.line.emitted ++ s.offer.take (call stream s.offer).2.taken, u.line.sent⟩,
              u.answers⟩ rfl hdone rfl
          refine ⟨(call stream s.offer).2 :: outcomes, v, ?_, hv⟩
          simp only [List.map_cons, run?, hmove, Option.bind_some]
          exact hrun

include hcall in
/-- A send over a stream is a row of moves with nothing in between. -/
theorem a_send_is_a_row_of_moves (stream : σ) (u : Usage M) (m : M)
    (hidle : u.line.current = none) :
    ∃ (outcomes : List WriteOutcome) (v : Usage M),
      u.run? (.send m :: outcomes.map .write) = some v ∧ v.line.current = none ∧
      v.line.outbound = (u.line.outbound.send call stream m).2.1 ∧
      v.answers = u.answers ++ [(m, (u.line.outbound.send call stream m).1)] := by
  unfold Outbound.send
  cases hbegin : u.line.outbound.begin m with
  | error e =>
    exact ⟨[], _, run?_single (next?_send_of_error hbegin), hidle, rfl, rfl⟩
  | ok s =>
    have hsend : u.line.send? m = some (none, { u.line with current := some (m, s) }) := by
      unfold Line.send?
      rw [hbegin, hidle]
      rfl
    have hoffer : s.offer ≠ [] := by
      rcases Line.send?_eq_some hsend with ⟨e, he, -⟩ | ⟨-, -, -, s', hframe, hs'⟩
      · cases he
      · cases hs'
        exact (Outbound.frame_eq_ok hframe).1
    obtain ⟨outcomes, v, hrun, hv⟩ := a_write_is_a_row_of_moves call hcall stream
      { u with line := { u.line with current := some (m, s) } } rfl hoffer
    refine ⟨outcomes, v, ?_, hv⟩
    simp only [run?, next?, hsend, Option.bind_some]
    exact hrun

end Streams

/-! ## The law -/

/-- At all times the bytes on the wire are the frames of the sends that succeeded, one after the
other, and behind them at most the front of one frame, of the send under way or of the first one
that failed. Once a write call has failed or a close has let go of the stream, nothing is written
any more, and each send is told what came first of the two, unless it is refused for its own
message; and such a refusal comes in every state and changes nothing. -/
theorem nothing_is_written_behind_a_broken_frame (r : Registry) (moves : List (Move M))
    (u : Usage M) (hrun : (start r).run? moves = some u) :
    (∃ tail, u.line.emitted = (succeeded u.answers).flatMap (Message.wire r) ++ tail ∧
      (tail = [] ∨ (∃ m s, u.line.current = some (m, s) ∧ Message.Partly r m tail) ∨
        (u.line.current = none ∧ ∃ m, u.FirstFailed r m ∧ Message.Partly r m tail))) ∧
    (reason? moves = none → ∀ m e, (m, .error e) ∈ u.answers → Message.Refused r m e) ∧
    (∀ e, reason? moves = some e → ∀ more v, u.run? more = some v →
      v.line.emitted = u.line.emitted ∧
        ∀ m, (∀ e', ¬ Message.Refused r m e') →
          v.next? (.send m) = some ⟨v.line, v.answers ++ [(m, .error e)]⟩) ∧
    (∀ m e, Message.Refused r m e →
      u.next? (.send m) = some ⟨u.line, u.answers ++ [(m, .error e)]⟩) := by
  obtain ⟨tail, hsound⟩ := sound_run moves (sound_start r) hrun
  rw [Option.none_or] at hsound
  refine ⟨⟨tail, ?_, ?_⟩, ?_, ?_, ?_⟩
  · rw [hsound.line.emitted, hsound.sent]
  · cases hcurrent : u.line.current with
    | some current => exact Or.inr (Or.inl ⟨_, _, rfl, hsound.line.partly hcurrent⟩)
    | none =>
      cases hreason : reason? moves with
      | none =>
        obtain ⟨-, -, htail, -⟩ := hsound.working hreason
        exact Or.inl (htail hcurrent)
      | some e =>
        obtain ⟨-, -, -, hnil | hfirst⟩ := hsound.ended e hreason
        · exact Or.inl hnil
        · exact Or.inr (Or.inr ⟨rfl, hfirst⟩)
  · intro hreason
    exact (hsound.working hreason).2.2.2
  · intro e hreason more v hmore
    rw [hreason] at hsound
    obtain ⟨tail', hlater⟩ := sound_run more hsound hmore
    rw [Option.some_or] at hlater
    refine ⟨emitted_of_ended_run more hsound hmore, ?_⟩
    intro m hnot
    rw [← hlater.line.registry] at hnot
    obtain ⟨s, -, hbegin⟩ := Outbound.begin_of_not_refused hnot
    rw [if_neg (by rw [(hlater.ended e rfl).1]; exact Bool.false_ne_true),
      hlater.refusal rfl] at hbegin
    exact next?_send_of_error hbegin
  · intro m e hrefused
    rw [← hsound.line.registry] at hrefused
    exact next?_send_of_error (Outbound.begin_of_refused hrefused)

/-- The stream takes the header of a quit, and then nothing any more. -/
theorem a_quit_is_cut_off_behind_its_header :
    ∃ u : Usage ControlMessage, (start Direction.rootToZygote.registry).run?
        [.send .quit, .write (.took 5), .write (.took 0)] = some u ∧
      u.line.emitted = [255, 0, 0, 0, 1] ∧
      u.next? (.send .quit) = some ⟨u.line, u.answers ++ [(.quit, .error .streamClosed)]⟩ := by
  obtain ⟨u, hu, hemitted⟩ : ∃ u : Usage ControlMessage,
      (start Direction.rootToZygote.registry).run?
        [.send .quit, .write (.took 5), .write (.took 0)] = some u ∧
      u.line.emitted = [255, 0, 0, 0, 1] := ⟨_, rfl, rfl⟩
  have hframe : (Outbound.start Direction.rootToZygote.registry).frame ControlMessage.quit =
      .ok ⟨[255, 0, 0, 0, 1], [0x80]⟩ := rfl
  obtain ⟨-, -, hended, -⟩ := nothing_is_written_behind_a_broken_frame _ _ u hu
  obtain ⟨-, htold⟩ := hended .streamClosed rfl [] u rfl
  exact ⟨u, hu, hemitted, htold .quit (Outbound.frame_eq_ok hframe).2.2⟩

end Usage

end ProcessTree
