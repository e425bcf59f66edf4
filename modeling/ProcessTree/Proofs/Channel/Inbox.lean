-- Several callers receive from one channel at once, and may be given up while
-- they wait. One of them at a time has its turn; the receive loop goes on in
-- between, ends in steps of its own, and a close can cut it off anywhere. No
-- message is lost or given twice, and the first error stays.
import ProcessTree.Proofs.Channel.Reception

namespace ProcessTree

open ProcessTree.Frame

namespace Inbound

variable {M : Type}

/-- Only a receiver that has ended has a reason. -/
theorem terminal_of_stands {i : Inbound M} {cause : ChannelError → Prop} {stop : Stop}
    (h : i.Stands cause stop) (hopen : i.isOver = false) : i.terminal = none := by
  unfold Stands at h
  unfold isOver at hopen
  split at h
  · exact h.2.2
  · obtain ⟨header, -, -, -, -, -, -, hterm⟩ := h
    exact hterm
  · exact h.2
  · rename_i hreceiver
    rw [hreceiver] at hopen
    cases hopen

theorem held_of_isOver {i : Inbound M} (hover : i.isOver = true) : i.held = [] := by
  unfold isOver at hover
  unfold held
  split at hover
  · rename_i hreceiver
    rw [hreceiver]
  · cases hover

theorem length_ahead_le (i : Inbound M) : i.ahead.length ≤ 2 := by
  have hheld := i.length_held_le
  unfold ahead
  rw [List.length_append]
  cases i.queue with
  | none =>
    rw [Option.toList_none, List.length_nil]
    omega
  | some message =>
    rw [Option.toList_some, List.length_singleton]
    omega

end Inbound

/-! ## Moves -/

/-- A receive that has its turn. -/
structure Turn where
  call : Nat
  /-- It has found the queue empty and hung up, and asks for the reason next. -/
  atEnd : Bool

/-- The inbound direction of a channel with everyone who receives from it. -/
structure Inbox (M : Type) where
  /-- The direction as its receive loop has it. -/
  inbound : Inbound M
  /-- The reason that the receives can see; it is written once. -/
  reason : Option ChannelError
  /-- Whether the loop has let go of the queue. -/
  hungUp : Bool
  closed : Bool
  /-- The receives that wait for their turn. -/
  waiting : List Nat
  holder : Option Turn
  /-- How many receives there were. -/
  calls : Nat
  /-- What was read from the stream. -/
  read : Bytes
  /-- The messages that the loop decoded, the first one first. -/
  decoded : List M
  /-- What the receives returned, the first one first. -/
  answers : List (Nat × Except ChannelError M)

namespace Inbox

inductive Move where
  | read (bytes : Bytes)
  | lose (ending : Ending)
  /-- The message that is held goes into the queue. -/
  | deliver
  /-- The loop, which has ended, shows why. -/
  | latch
  /-- The loop lets go of the queue. -/
  | hangUp
  | close
  /-- The loop is cut off because the channel is closed. -/
  | abort
  | call
  | grant (call : Nat)
  /-- A receive is given up while it waits for its turn or for a message. -/
  | leave (call : Nat)
  /-- The receive that has its turn looks into the queue. Taking a message and returning it is one
  step, since a receive can only be given up where it waits. -/
  | poll
  /-- The receive that has found the end returns the reason. -/
  | answer

variable {M : Type}

def start (r : Registry) : Inbox M where
  inbound := .start r
  reason := none
  hungUp := false
  closed := false
  waiting := []
  holder := none
  calls := 0
  read := []
  decoded := []
  answers := []

/-- The messages that were returned. -/
def received (b : Inbox M) : List M := b.answers.filterMap fun answer => answer.2.toOption

/-- Everyone who receives or has received. -/
def callers (b : Inbox M) : List Nat :=
  b.waiting ++ (b.holder.map Turn.call).toList ++ b.answers.map Prod.fst

section Moving

variable [Message M]

/-- What a move leads to, where it is possible. -/
def next? (b : Inbox M) : Move → Option (Inbox M)
  | .read bytes =>
    if bytes ≠ [] ∧ bytes.length ≤ b.inbound.wants then
      let inbound := b.inbound.take bytes
      some { b with inbound, read := b.read ++ bytes, decoded := b.decoded ++ inbound.held }
    else none
  | .lose ending =>
    if 0 < b.inbound.wants then some { b with inbound := b.inbound.fail ending.error } else none
  | .deliver => b.inbound.deliver?.map fun inbound => { b with inbound }
  | .latch =>
    if b.inbound.isOver ∧ ¬b.hungUp ∧ b.reason = none then
      some { b with reason := b.inbound.terminal }
    else none
  | .hangUp =>
    if b.inbound.isOver ∧ ¬b.hungUp ∧ b.reason.isSome then some { b with hungUp := true } else none
  | .close => some { b with closed := true }
  | .abort =>
    if b.closed ∧ ¬b.inbound.isOver then some { b with inbound := b.inbound.stop, hungUp := true }
    else none
  | .call => some { b with waiting := b.waiting ++ [b.calls], calls := b.calls + 1 }
  | .grant call =>
    if b.holder.isNone ∧ call ∈ b.waiting then
      some { b with waiting := b.waiting.erase call, holder := some ⟨call, false⟩ }
    else none
  | .leave call =>
    match b.holder with
    | some ⟨holder, false⟩ =>
      if holder = call then some { b with holder := none }
      else some { b with waiting := b.waiting.erase call }
    | _ => some { b with waiting := b.waiting.erase call }
  | .poll =>
    match b.holder, b.inbound.queue with
    | some ⟨call, false⟩, some message =>
      some { b with
        inbound := { b.inbound with queue := none }
        holder := none
        answers := b.answers ++ [(call, .ok message)] }
    | some ⟨call, false⟩, none =>
      if b.hungUp then some { b with holder := some ⟨call, true⟩ } else none
    | _, _ => none
  | .answer =>
    match b.holder with
    | some ⟨call, true⟩ =>
      some { b with
        holder := none
        answers := b.answers ++ [(call, .error (b.reason.getD .channelClosed))] }
    | _ => none

/-- A row of moves. -/
def run? (b : Inbox M) : List Move → Option (Inbox M)
  | [] => some b
  | move :: moves => (b.next? move).bind fun b' => b'.run? moves

end Moving

/-! ## What was returned -/

/-- The receives have returned these messages, and the reason so many times. -/
structure Served (b : Inbox M) (got : List M) (late : Nat) : Prop where
  answers : b.answers.map Prod.snd =
    got.map .ok ++ List.replicate late (.error (b.reason.getD .channelClosed))
  ended : 0 < late → b.hungUp = true ∧ b.inbound.queue = none
  atEnd : ∀ call, b.holder = some ⟨call, true⟩ → b.hungUp = true ∧ b.inbound.queue = none
  callers : b.callers.Nodup
  known : ∀ call ∈ b.callers, call < b.calls

variable {b b' : Inbox M} {r : Registry} {got : List M} {late : Nat}

/-- What the loop does is nothing to the receives, unless they have seen it hang up. -/
theorem Served.of_loop (h : b.Served got late) (hsame : b'.waiting = b.waiting ∧
    b'.holder = b.holder ∧ b'.calls = b.calls ∧ b'.answers = b.answers)
    (hgone : b.hungUp = true →
      b'.hungUp = true ∧ b'.reason = b.reason ∧ b'.inbound.queue = b.inbound.queue) :
    b'.Served got late := by
  obtain ⟨hwaiting, hholder, hcalls, hanswers⟩ := hsame
  have hcallers : b'.callers = b.callers := by
    unfold Inbox.callers
    rw [hwaiting, hholder, hanswers]
  have hstill : b.hungUp = true ∧ b.inbound.queue = none →
      b'.hungUp = true ∧ b'.inbound.queue = none := by
    intro ⟨hhung, hqueue⟩
    obtain ⟨hhung', -, hqueue'⟩ := hgone hhung
    exact ⟨hhung', hqueue'.trans hqueue⟩
  refine ⟨?_, fun hlate => hstill (h.ended hlate), ?_, ?_, ?_⟩
  · rw [hanswers, h.answers]
    by_cases hlate : 0 < late
    · rw [(hgone (h.ended hlate).1).2.1]
    · have hzero : late = 0 := by omega
      rw [hzero]
      rfl
  · intro call hcall
    rw [hholder] at hcall
    exact hstill (h.atEnd call hcall)
  · rw [hcallers]
    exact h.callers
  · rw [hcallers, hcalls]
    exact h.known

/-- A loop that has not hung up may do anything. -/
theorem Served.of_open (h : b.Served got late) (hopen : b.hungUp = false)
    (hsame : b'.waiting = b.waiting ∧ b'.holder = b.holder ∧ b'.calls = b.calls ∧
      b'.answers = b.answers) : b'.Served got late := by
  refine h.of_loop hsame fun hgone => ?_
  rw [hopen] at hgone
  cases hgone

/-- Receives that come and go change nothing to what was returned. -/
theorem Served.of_callers (h : b.Served got late) (hsame : b'.inbound = b.inbound ∧
    b'.reason = b.reason ∧ b'.hungUp = b.hungUp ∧ b'.answers = b.answers)
    (hatEnd : ∀ call, b'.holder = some ⟨call, true⟩ → b.hungUp = true ∧ b.inbound.queue = none)
    (hcallers : b'.callers.Nodup) (hknown : ∀ call ∈ b'.callers, call < b'.calls) :
    b'.Served got late := by
  obtain ⟨hinbound, hreason, hhung, hanswers⟩ := hsame
  refine ⟨?_, ?_, ?_, hcallers, hknown⟩
  · rw [hanswers, hreason]
    exact h.answers
  · rw [hhung, hinbound]
    exact h.ended
  · rw [hhung, hinbound]
    exact hatEnd

/-- Whoever has left or has returned stays out. -/
theorem Served.of_subperm (h : b.Served got late) {callers : List Nat}
    (hsub : callers.Subperm b.callers) :
    callers.Nodup ∧ ∀ call ∈ callers, call < b.calls := by
  constructor
  · obtain ⟨sub, hperm, hsublist⟩ := hsub
    exact hperm.nodup_iff.mp (h.callers.sublist hsublist)
  · intro call hcall
    exact h.known call (hsub.subset hcall)

/-! ## The invariant -/

variable [Message M]

/-- Where the loop stands, when these messages were returned. -/
inductive Loop (b : Inbox M) (got : List M) : Prop where
  /-- It follows the parser, and shows nothing but what has ended it. -/
  | going
    (follows : b.inbound.Follows (fun e => ∃ ending : Ending, e = ending.error) b.read got)
    (decoded : b.decoded = got ++ b.inbound.ahead)
    (shown : b.reason = none ∨ b.reason = b.inbound.terminal)
    (ends : b.hungUp = true → b.inbound.isOver = true ∧ b.reason.isSome)
  /-- It was cut off, and a message that it held is lost. -/
  | cut (closed : b.closed = true) (ends : b.inbound.isOver = true) (hungUp : b.hungUp = true)
    (silent : b.reason = none)
    (decoded : ∃ lost, b.decoded = got ++ b.inbound.queue.toList ++ lost)

structure Sound (b : Inbox M) (r : Registry) (got : List M) (late : Nat) : Prop where
  registry : b.inbound.registry = r
  parsed : b.decoded = (parse (M := M) r b.read).1
  loop : b.Loop got
  served : b.Served got late

theorem sound_start (r : Registry) : (start r : Inbox M).Sound r [] 0 := by
  have hfollows := Inbound.follows_start (M := M) r fun e => ∃ ending : Ending, e = ending.error
  refine ⟨rfl, hfollows.decoded.symm, .going hfollows rfl (Or.inl rfl) ?_, rfl, ?_, ?_,
    List.nodup_nil, ?_⟩
  · intro hends
    cases hends
  · intro hlate
    cases hlate
  · intro call hholder
    cases hholder
  · intro call hcall
    cases hcall

theorem Loop.returned (h : b.Loop got) : got <+: b.decoded := by
  cases h with
  | going follows decoded => exact ⟨_, decoded.symm⟩
  | cut closed ends hungUp silent decoded =>
    obtain ⟨lost, hlost⟩ := decoded
    rw [hlost, List.append_assoc]
    exact List.prefix_append _ _

theorem Loop.nothing_lost (h : b.Loop got) (hopen : b.closed = false) :
    b.decoded = got ++ b.inbound.ahead := by
  cases h with
  | going follows decoded => exact decoded
  | cut closed =>
    rw [hopen] at closed
    cases closed

/-- A loop that has hung up holds no message, and shows why it ended. -/
theorem Loop.ended (h : b.Loop got) (hgone : b.hungUp = true) (hopen : b.closed = false) :
    b.inbound.held = [] ∧ ∃ e, b.reason = some e ∧ b.inbound.terminal = some e := by
  cases h with
  | going follows decoded shown ends =>
    obtain ⟨hover, hreason⟩ := ends hgone
    obtain ⟨e, he⟩ := Option.isSome_iff_exists.mp hreason
    refine ⟨Inbound.held_of_isOver hover, e, he, ?_⟩
    rcases shown with hnone | hshown
    · rw [hnone] at he
      cases he
    · exact hshown.symm.trans he
  | cut closed =>
    rw [hopen] at closed
    cases closed

/-- A loop that has not ended follows the parser, and shows nothing yet. -/
theorem Loop.going_of_not_over (h : b.Loop got) (hopen : b.inbound.isOver = false) :
    b.inbound.Follows (fun e => ∃ ending : Ending, e = ending.error) b.read got ∧
      b.decoded = got ++ b.inbound.ahead ∧ b.reason = none ∧ b.hungUp = false := by
  cases h with
  | going follows decoded shown ends =>
    have hterm := Inbound.terminal_of_stands follows.stands hopen
    rw [hterm, or_self] at shown
    refine ⟨follows, decoded, shown, ?_⟩
    by_contra hgone
    have hreason := (ends (by simpa using hgone)).2
    rw [shown] at hreason
    cases hreason
  | cut closed ends =>
    rw [hopen] at ends
    cases ends

/-! ## The loop moves -/

theorem sound_read {bytes : Bytes} (h : b.Sound r got late)
    (hmove : b.next? (.read bytes) = some b') : b'.Sound r got late := by
  obtain ⟨⟨hne, hle⟩, heq⟩ := Option.ite_none_right_eq_some.mp hmove
  cases heq
  have hpos : 0 < b.inbound.wants := by
    have := List.length_pos_iff.mpr hne
    omega
  obtain ⟨hheld, hopen⟩ := Inbound.open_of_wants hpos
  obtain ⟨follows, decoded, silent, hhung⟩ := h.loop.going_of_not_over hopen
  have hfollows := follows.take bytes hle
  obtain ⟨hregistry, hqueue⟩ := Inbound.take_frame b.inbound bytes
  have hafter : b.decoded ++ (b.inbound.take bytes).held =
      got ++ (b.inbound.take bytes).ahead := by
    rw [decoded, Inbound.ahead, Inbound.ahead, hheld, hqueue]
    simp
  refine ⟨hregistry.trans h.registry, ?_, .going hfollows hafter (Or.inl silent) ?_,
    h.served.of_open hhung ⟨rfl, rfl, rfl, rfl⟩⟩
  · have hdecoded := hfollows.decoded
    rw [hregistry, h.registry] at hdecoded
    exact hafter.trans hdecoded.symm
  · intro hgone
    rw [hhung] at hgone
    cases hgone

theorem sound_lose {ending : Ending} (h : b.Sound r got late)
    (hmove : b.next? (.lose ending) = some b') : b'.Sound r got late := by
  obtain ⟨hpos, heq⟩ := Option.ite_none_right_eq_some.mp hmove
  cases heq
  obtain ⟨hheld, hopen⟩ := Inbound.open_of_wants hpos
  obtain ⟨follows, decoded, silent, hhung⟩ := h.loop.going_of_not_over hopen
  refine ⟨h.registry, h.parsed, .going (follows.fail hpos _ ⟨ending, rfl⟩) ?_ (Or.inl silent) ?_,
    h.served.of_open hhung ⟨rfl, rfl, rfl, rfl⟩⟩
  · rw [decoded, Inbound.ahead, hheld]
    rfl
  · intro hgone
    rw [hhung] at hgone
    cases hgone

theorem sound_deliver (h : b.Sound r got late) (hmove : b.next? .deliver = some b') :
    b'.Sound r got late := by
  obtain ⟨inbound, hdeliver, rfl⟩ := Option.map_eq_some_iff.mp hmove
  have hregistry : inbound.registry = b.inbound.registry := by
    obtain ⟨message, -, -, rfl⟩ := Inbound.deliver?_eq_some hdeliver
    rfl
  have hahead : inbound.ahead = b.inbound.ahead := by
    obtain ⟨message, hreceiver, hqueue, rfl⟩ := Inbound.deliver?_eq_some hdeliver
    unfold Inbound.ahead Inbound.held
    rw [hreceiver, hqueue]
    rfl
  have hopen : b.inbound.isOver = false := by
    obtain ⟨message, hreceiver, -⟩ := Inbound.deliver?_eq_some hdeliver
    unfold Inbound.isOver
    rw [hreceiver]
  obtain ⟨follows, decoded, silent, hhung⟩ := h.loop.going_of_not_over hopen
  refine ⟨hregistry.trans h.registry, h.parsed, .going (follows.deliver hdeliver) ?_
    (Or.inl silent) ?_, h.served.of_open hhung ⟨rfl, rfl, rfl, rfl⟩⟩
  · rw [hahead]
    exact decoded
  · intro hgone
    rw [hhung] at hgone
    cases hgone

/-- The reason is there before the queue is let go. -/
theorem sound_latch (h : b.Sound r got late) (hmove : b.next? .latch = some b') :
    b'.Sound r got late := by
  obtain ⟨⟨hover, hhung, hreason⟩, heq⟩ := Option.ite_none_right_eq_some.mp hmove
  cases heq
  refine ⟨h.registry, h.parsed, ?_, h.served.of_open (by simpa using hhung) ⟨rfl, rfl, rfl, rfl⟩⟩
  cases h.loop with
  | going follows decoded shown ends =>
    exact .going follows decoded (Or.inr rfl) fun hgone => absurd hgone hhung
  | cut closed ends hungUp => exact absurd hungUp hhung

theorem sound_hangUp (h : b.Sound r got late) (hmove : b.next? .hangUp = some b') :
    b'.Sound r got late := by
  obtain ⟨⟨hover, hhung, hreason⟩, heq⟩ := Option.ite_none_right_eq_some.mp hmove
  cases heq
  refine ⟨h.registry, h.parsed, ?_, h.served.of_loop ⟨rfl, rfl, rfl, rfl⟩ fun _ => ⟨rfl, rfl, rfl⟩⟩
  cases h.loop with
  | going follows decoded shown ends =>
    exact .going follows decoded shown fun _ => ⟨hover, hreason⟩
  | cut closed ends hungUp => exact absurd hungUp hhung

theorem sound_close (h : b.Sound r got late) (hmove : b.next? .close = some b') :
    b'.Sound r got late := by
  cases hmove
  refine ⟨h.registry, h.parsed, ?_, h.served.of_loop ⟨rfl, rfl, rfl, rfl⟩ fun hgone =>
    ⟨hgone, rfl, rfl⟩⟩
  cases h.loop with
  | going follows decoded shown ends => exact .going follows decoded shown ends
  | cut closed ends hungUp silent decoded => exact .cut rfl ends hungUp silent decoded

/-- Cutting the loop off loses no more than the message it holds. -/
theorem sound_abort (h : b.Sound r got late) (hmove : b.next? .abort = some b') :
    b'.Sound r got late := by
  obtain ⟨⟨hclosed, hover⟩, heq⟩ := Option.ite_none_right_eq_some.mp hmove
  cases heq
  obtain ⟨follows, decoded, silent, hhung⟩ := h.loop.going_of_not_over (by simpa using hover)
  refine ⟨h.registry, h.parsed, .cut hclosed rfl rfl silent ⟨b.inbound.held, ?_⟩,
    h.served.of_open hhung ⟨rfl, rfl, rfl, rfl⟩⟩
  rw [decoded, Inbound.ahead, ← List.append_assoc]
  rfl

/-! ## The receives move -/

/-- The receives do nothing to the loop. -/
theorem Loop.of_receives (h : b.Loop got) (waiting : List Nat) (holder : Option Turn)
    (calls : Nat) (answers : List (Nat × Except ChannelError M)) :
    ({ b with waiting, holder, calls, answers } : Inbox M).Loop got := by
  cases h with
  | going follows decoded shown ends => exact .going follows decoded shown ends
  | cut closed ends hungUp silent decoded => exact .cut closed ends hungUp silent decoded

theorem sound_call (h : b.Sound r got late) (hmove : b.next? .call = some b') :
    b'.Sound r got late := by
  cases hmove
  have hcallers : List.Perm ((b.waiting ++ [b.calls]) ++ (b.holder.map Turn.call).toList ++
      b.answers.map Prod.fst) (b.calls :: b.callers) := by
    unfold Inbox.callers
    simp
  refine ⟨h.registry, h.parsed, h.loop.of_receives _ _ _ _, h.served.of_callers
    ⟨rfl, rfl, rfl, rfl⟩ h.served.atEnd ?_ ?_⟩
  · refine hcallers.nodup_iff.mpr (List.nodup_cons.mpr ⟨?_, h.served.callers⟩)
    intro hmem
    exact Nat.lt_irrefl _ (h.served.known _ hmem)
  · intro call hcall
    rcases List.mem_cons.mp (hcallers.subset hcall) with rfl | hmem
    · exact Nat.lt_succ_self _
    · exact Nat.lt_succ_of_lt (h.served.known _ hmem)

theorem next?_grant_eq_some {call : Nat} (hmove : b.next? (.grant call) = some b') :
    b.holder = none ∧ call ∈ b.waiting ∧
      b' = { b with waiting := b.waiting.erase call, holder := some ⟨call, false⟩ } := by
  obtain ⟨⟨hfree, hmem⟩, heq⟩ := Option.ite_none_right_eq_some.mp hmove
  cases heq
  exact ⟨Option.isNone_iff_eq_none.mp hfree, hmem, rfl⟩

theorem sound_grant {call : Nat} (h : b.Sound r got late)
    (hmove : b.next? (.grant call) = some b') : b'.Sound r got late := by
  obtain ⟨hfree, hmem, rfl⟩ := next?_grant_eq_some hmove
  have hcallers : List.Perm (b.waiting.erase call ++ [call] ++ b.answers.map Prod.fst)
      b.callers := by
    unfold Inbox.callers
    rw [hfree]
    refine List.Perm.append_right _ ?_
    rw [Option.map_none, Option.toList_none, List.append_nil]
    exact (List.perm_append_singleton _ _).trans (List.perm_cons_erase hmem).symm
  obtain ⟨hnodup, hknown⟩ := h.served.of_subperm hcallers.subperm
  refine ⟨h.registry, h.parsed, h.loop.of_receives _ _ _ _, h.served.of_callers
    ⟨rfl, rfl, rfl, rfl⟩ ?_ hnodup hknown⟩
  intro call hcall
  cases hcall

theorem next?_leave_eq_some {call : Nat} (hmove : b.next? (.leave call) = some b') :
    (b.holder = some ⟨call, false⟩ ∧ b' = { b with holder := none }) ∨
      b' = { b with waiting := b.waiting.erase call } := by
  simp only [next?] at hmove
  split at hmove
  · rename_i holder hholder
    split at hmove
    · rename_i hsame
      cases hmove
      rw [hsame] at hholder
      exact Or.inl ⟨hholder, rfl⟩
    · cases hmove
      exact Or.inr rfl
  · cases hmove
    exact Or.inr rfl

/-- A receive that is given up has taken nothing. -/
theorem sound_leave {call : Nat} (h : b.Sound r got late)
    (hmove : b.next? (.leave call) = some b') : b'.Sound r got late := by
  rcases next?_leave_eq_some hmove with ⟨hholder, rfl⟩ | rfl
  · have hcallers : (b.waiting ++ [] ++ b.answers.map Prod.fst).Subperm b.callers := by
      refine List.Sublist.subperm (List.Sublist.append_right ?_ _)
      exact List.Sublist.append_left (List.nil_sublist _) _
    obtain ⟨hnodup, hknown⟩ := h.served.of_subperm hcallers
    refine ⟨h.registry, h.parsed, h.loop.of_receives _ _ _ _, h.served.of_callers
      ⟨rfl, rfl, rfl, rfl⟩ ?_ hnodup hknown⟩
    intro call hcall
    cases hcall
  · have hcallers : (b.waiting.erase call ++ (b.holder.map Turn.call).toList ++
        b.answers.map Prod.fst).Subperm b.callers := by
      refine List.Sublist.subperm (List.Sublist.append_right ?_ _)
      exact List.Sublist.append_right List.erase_sublist _
    obtain ⟨hnodup, hknown⟩ := h.served.of_subperm hcallers
    exact ⟨h.registry, h.parsed, h.loop.of_receives _ _ _ _, h.served.of_callers
      ⟨rfl, rfl, rfl, rfl⟩ h.served.atEnd hnodup hknown⟩

theorem next?_poll_eq_some (hmove : b.next? .poll = some b') :
    ∃ call, b.holder = some ⟨call, false⟩ ∧
      ((∃ message, b.inbound.queue = some message ∧
          b' = { b with
            inbound := { b.inbound with queue := none }
            holder := none
            answers := b.answers ++ [(call, .ok message)] }) ∨
        (b.inbound.queue = none ∧ b.hungUp = true ∧
          b' = { b with holder := some ⟨call, true⟩ })) := by
  simp only [next?] at hmove
  split at hmove
  · rename_i call message hholder hqueue
    cases hmove
    exact ⟨call, hholder, Or.inl ⟨message, hqueue, rfl⟩⟩
  · rename_i call hholder hqueue
    obtain ⟨hgone, heq⟩ := Option.ite_none_right_eq_some.mp hmove
    cases heq
    exact ⟨call, hholder, Or.inr ⟨hqueue, hgone, rfl⟩⟩
  · cases hmove

/-- A message that is taken is the next one. -/
theorem Loop.take {message : M} (h : b.Loop got) (hqueue : b.inbound.queue = some message) :
    ({ b with inbound := { b.inbound with queue := none } } : Inbox M).Loop (got ++ [message]) := by
  cases h with
  | going follows decoded shown ends =>
    refine .going (follows.recv_ok hqueue) ?_ shown ends
    rw [decoded, Inbound.ahead, hqueue, List.append_assoc]
    rfl
  | cut closed ends hungUp silent decoded =>
    obtain ⟨lost, hlost⟩ := decoded
    refine .cut closed ends hungUp silent ⟨lost, ?_⟩
    rw [hlost, hqueue]
    simp

theorem next?_answer_eq_some (hmove : b.next? .answer = some b') :
    ∃ call, b.holder = some ⟨call, true⟩ ∧
      b' = { b with
        holder := none
        answers := b.answers ++ [(call, .error (b.reason.getD .channelClosed))] } := by
  simp only [next?] at hmove
  split at hmove
  · rename_i call hholder
    cases hmove
    exact ⟨call, hholder, rfl⟩
  · cases hmove

omit [Message M] in
/-- A receive that returns is no longer one that has its turn. -/
theorem callers_of_return {turn : Turn} (hholder : b.holder = some turn)
    (answer : Except ChannelError M) :
    List.Perm (b.waiting ++ [] ++ (b.answers ++ [(turn.call, answer)]).map Prod.fst) b.callers := by
  unfold callers
  rw [hholder]
  simp only [List.append_nil, List.map_append, List.map_cons, List.map_nil, Option.map_some,
    Option.toList_some, List.append_assoc, List.singleton_append]
  exact List.Perm.append_left _ (List.perm_append_singleton _ _)

theorem sound_poll (h : b.Sound r got late) (hmove : b.next? .poll = some b') :
    ∃ got', b'.Sound r got' late := by
  obtain ⟨call, hholder, ⟨message, hqueue, rfl⟩ | ⟨hqueue, hgone, rfl⟩⟩ :=
    next?_poll_eq_some hmove
  · have hlate : late = 0 := by
      by_contra hne
      have := (h.served.ended (Nat.pos_of_ne_zero hne)).2
      rw [hqueue] at this
      cases this
    subst hlate
    obtain ⟨hnodup, hknown⟩ :=
      h.served.of_subperm (callers_of_return hholder (.ok message)).subperm
    refine ⟨got ++ [message], h.registry, h.parsed, (h.loop.take hqueue).of_receives _ _ _ _, ?_,
      ?_, ?_, hnodup, hknown⟩
    · rw [List.map_append, h.served.answers]
      simp
    · intro hlate
      exact absurd hlate (Nat.lt_irrefl 0)
    · intro call hcall
      cases hcall
  · have hcallers : List.Perm (b.waiting ++ [call] ++ b.answers.map Prod.fst) b.callers := by
      unfold Inbox.callers
      rw [hholder]
      exact List.Perm.refl _
    obtain ⟨hnodup, hknown⟩ := h.served.of_subperm hcallers.subperm
    exact ⟨got, h.registry, h.parsed, h.loop.of_receives _ _ _ _, h.served.of_callers
      ⟨rfl, rfl, rfl, rfl⟩ (fun _ _ => ⟨hgone, hqueue⟩) hnodup hknown⟩

theorem sound_answer (h : b.Sound r got late) (hmove : b.next? .answer = some b') :
    b'.Sound r got (late + 1) := by
  obtain ⟨call, hholder, rfl⟩ := next?_answer_eq_some hmove
  have hend := h.served.atEnd call hholder
  obtain ⟨hnodup, hknown⟩ := h.served.of_subperm
    (callers_of_return hholder (.error (b.reason.getD .channelClosed))).subperm
  refine ⟨h.registry, h.parsed, h.loop.of_receives _ _ _ _, ?_, fun _ => hend, ?_, hnodup, hknown⟩
  · rw [List.map_append, h.served.answers, List.replicate_succ', List.append_assoc]
    rfl
  · intro call hcall
    cases hcall

/-! ## Runs -/

theorem sound_next {move : Move} (h : b.Sound r got late) (hmove : b.next? move = some b') :
    ∃ got' late', b'.Sound r got' late' := by
  cases move with
  | read bytes => exact ⟨got, late, sound_read h hmove⟩
  | lose ending => exact ⟨got, late, sound_lose h hmove⟩
  | deliver => exact ⟨got, late, sound_deliver h hmove⟩
  | latch => exact ⟨got, late, sound_latch h hmove⟩
  | hangUp => exact ⟨got, late, sound_hangUp h hmove⟩
  | close => exact ⟨got, late, sound_close h hmove⟩
  | abort => exact ⟨got, late, sound_abort h hmove⟩
  | call => exact ⟨got, late, sound_call h hmove⟩
  | grant call => exact ⟨got, late, sound_grant h hmove⟩
  | leave call => exact ⟨got, late, sound_leave h hmove⟩
  | poll =>
    obtain ⟨got', hsound⟩ := sound_poll h hmove
    exact ⟨got', late, hsound⟩
  | answer => exact ⟨got, late + 1, sound_answer h hmove⟩

theorem sound_run (moves : List Move) (h : b.Sound r got late) (hrun : b.run? moves = some b') :
    ∃ got' late', b'.Sound r got' late' := by
  induction moves generalizing b got late with
  | nil =>
    cases hrun
    exact ⟨got, late, h⟩
  | cons move moves ih =>
    obtain ⟨u, hmove, hrest⟩ := Option.bind_eq_some_iff.mp hrun
    obtain ⟨got', late', hsound⟩ := sound_next h hmove
    exact ih hsound hrest

/-! ## A receive by itself -/

omit [Message M] in
theorem Served.received (h : b.Served got late) : b.received = got := by
  have hgot : (got.map Except.ok).filterMap (Except.toOption (ε := ChannelError)) = got := by
    rw [List.filterMap_map]
    exact List.filterMap_some
  have hlate : (List.replicate late (Except.error (b.reason.getD .channelClosed))).filterMap
      (Except.toOption (α := M)) = [] := by
    refine List.filterMap_eq_nil_iff.mpr fun answer hanswer => ?_
    rw [List.eq_of_mem_replicate hanswer]
    rfl
  have hanswers := congrArg (List.filterMap Except.toOption) h.answers
  rw [List.filterMap_append, hgot, hlate, List.append_nil, List.filterMap_map] at hanswers
  exact hanswers

theorem run_take {call : Nat} {message : M} (hfree : b.holder = none) (hcall : call ∈ b.waiting)
    (hqueue : b.inbound.queue = some message) :
    b.run? [.grant call, .poll] = some { b with
      inbound := { b.inbound with queue := none }
      waiting := b.waiting.erase call
      holder := none
      answers := b.answers ++ [(call, .ok message)] } := by
  simp [run?, next?, hfree, hcall, hqueue]

theorem run_end {call : Nat} (hfree : b.holder = none) (hcall : call ∈ b.waiting)
    (hqueue : b.inbound.queue = none) (hgone : b.hungUp = true) :
    b.run? [.grant call, .poll, .answer] = some { b with
      waiting := b.waiting.erase call
      holder := none
      answers := b.answers ++ [(call, .error (b.reason.getD .channelClosed))] } := by
  simp [run?, next?, hfree, hcall, hqueue, hgone]

/-- Where the loop has shown all it has to show, a receive that is alone gets what the direction
has for it. -/
theorem a_receive_alone_gets_what_is_there {call : Nat} {answer : Except ChannelError M}
    {inbound : Inbound M} (hfree : b.holder = none) (hcall : call ∈ b.waiting)
    (hshown : b.inbound.isOver = true → b.hungUp = true ∧ b.reason = b.inbound.terminal)
    (hrecv : b.inbound.recv? = some (answer, inbound)) :
    ∃ moves, b.run? moves = some { b with
      inbound
      waiting := b.waiting.erase call
      holder := none
      answers := b.answers ++ [(call, answer)] } := by
  obtain ⟨message, hqueue, rfl, rfl⟩ | ⟨hqueue, hreceiver, rfl, rfl⟩ :=
    Inbound.recv?_eq_some hrecv
  · exact ⟨_, run_take hfree hcall hqueue⟩
  · have hover : b.inbound.isOver = true := by
      unfold Inbound.isOver
      rw [hreceiver]
    obtain ⟨hgone, hreason⟩ := hshown hover
    refine ⟨_, (run_end hfree hcall hqueue hgone).trans ?_⟩
    rw [hreason]

/-- A message that is decoded can be received. -/
theorem can_take {call : Nat} {message : M} {rest : List M} (hfree : b.holder = none)
    (hcall : call ∈ b.waiting) (hahead : b.inbound.ahead = message :: rest) :
    ∃ moves b', b.run? moves = some b' ∧ b'.answers = b.answers ++ [(call, .ok message)] := by
  cases hqueue : b.inbound.queue with
  | some first =>
    rw [Inbound.ahead, hqueue] at hahead
    cases hahead
    exact ⟨_, _, run_take hfree hcall hqueue, rfl⟩
  | none =>
    have hreceiver : b.inbound.receiver = .holding message := by
      rw [Inbound.ahead, hqueue] at hahead
      unfold Inbound.held at hahead
      split at hahead
      · cases hahead
        assumption
      · cases hahead
    have hrun : b.run? [.deliver, .grant call, .poll] = run? { b with
        inbound := { b.inbound with receiver := .header [], queue := some message } }
          [.grant call, .poll] := by
      rw [run?, next?, Inbound.deliver?, hreceiver, hqueue]
      rfl
    exact ⟨_, _, hrun.trans (run_take hfree hcall rfl), rfl⟩

/-! ## The law -/

omit [Message M] in
/-- Behind an error there are only more of it. -/
theorem Served.error_stays (h : b.Served got late) {before after : List (Except ChannelError M)}
    {e : ChannelError} (heq : b.answers.map Prod.snd = before ++ .error e :: after) :
    ∀ answer ∈ after, answer = .error e := by
  rw [h.answers] at heq
  have hsame : ∀ answer ∈ Except.error e :: after,
      answer = .error (b.reason.getD .channelClosed) := by
    intro answer hmem
    refine List.eq_of_mem_replicate (n := late) ?_
    rcases List.append_eq_append_iff.mp heq with ⟨errors, -, htail⟩ | ⟨messages, hgot, htail⟩
    · rw [htail]
      exact List.mem_append_right _ hmem
    · cases messages with
      | nil =>
        rw [htail] at hmem
        exact hmem
      | cons message messages =>
        have hmessage : message ∈ got.map Except.ok := by
          rw [hgot]
          exact List.mem_append_right _ List.mem_cons_self
        obtain ⟨m, -, rfl⟩ := List.mem_map.mp hmessage
        cases htail
  intro answer hmem
  rw [hsame answer (List.mem_cons_of_mem _ hmem), hsame _ List.mem_cons_self]

/-- What was returned is what the loop decoded, in order and each message to one receive. Until the
channel is closed no more than the message in the queue and the one that is held are missing from
it, and an error is only told when none is missing. The first error that is told is told from then
on, and whoever receives is told it. -/
theorem nothing_is_lost_and_the_first_error_stays (r : Registry) (moves : List Move) (b : Inbox M)
    (hrun : (start r).run? moves = some b) :
    b.decoded = (parse (M := M) r b.read).1 ∧
      b.received <+: b.decoded ∧
      (b.answers.map Prod.fst).Nodup ∧
      (b.closed = false →
        b.decoded = b.received ++ b.inbound.queue.toList ++ b.inbound.held ∧
          b.decoded.length ≤ b.received.length + 2 ∧
          ∀ e, .error e ∈ b.answers.map Prod.snd →
            b.received = b.decoded ∧ b.inbound.terminal = some e) ∧
      (∀ before e after, b.answers.map Prod.snd = before ++ .error e :: after →
        ∀ answer ∈ after, answer = .error e) ∧
      (∀ call ∈ b.waiting, b.holder = none →
        (∀ e, .error e ∈ b.answers.map Prod.snd →
          ∃ b', b.run? [.grant call, .poll, .answer] = some b' ∧
            b'.answers = b.answers ++ [(call, .error e)]) ∧
        ∀ message rest, b.inbound.ahead = message :: rest →
          ∃ moves b', b.run? moves = some b' ∧
            b'.answers = b.answers ++ [(call, .ok message)]) := by
  obtain ⟨got, late, hsound⟩ := sound_run moves (sound_start r) hrun
  have hreceived := hsound.served.received
  have htold : ∀ e, .error e ∈ b.answers.map Prod.snd →
      0 < late ∧ e = b.reason.getD .channelClosed := by
    intro e he
    rw [hsound.served.answers] at he
    rcases List.mem_append.mp he with hgot | hlate
    · obtain ⟨message, -, hmessage⟩ := List.mem_map.mp hgot
      cases hmessage
    · obtain ⟨hne, heq⟩ := List.mem_replicate.mp hlate
      cases heq
      exact ⟨Nat.pos_of_ne_zero hne, rfl⟩
  refine ⟨hsound.parsed, ?_, ?_, ?_, fun _ _ _ heq => hsound.served.error_stays heq, ?_⟩
  · rw [hreceived]
    exact hsound.loop.returned
  · exact hsound.served.callers.sublist (List.sublist_append_right _ _)
  · intro hopen
    have hdecoded := hsound.loop.nothing_lost hopen
    refine ⟨?_, ?_, ?_⟩
    · rw [hreceived, hdecoded, Inbound.ahead, List.append_assoc]
    · rw [hreceived, hdecoded, List.length_append]
      exact Nat.add_le_add_left b.inbound.length_ahead_le _
    · intro e he
      obtain ⟨hlate, rfl⟩ := htold e he
      obtain ⟨hgone, hqueue⟩ := hsound.served.ended hlate
      obtain ⟨hheld, e, hreason, hterm⟩ := hsound.loop.ended hgone hopen
      constructor
      · rw [hreceived, hdecoded, Inbound.ahead, hqueue, hheld]
        simp
      · rw [hterm, hreason]
        rfl
  · intro call hcall hfree
    refine ⟨?_, fun message rest hahead => can_take hfree hcall hahead⟩
    intro e he
    obtain ⟨hlate, rfl⟩ := htold e he
    obtain ⟨hgone, hqueue⟩ := hsound.served.ended hlate
    exact ⟨_, run_end hfree hcall hqueue hgone, rfl⟩

/-- The first receive is given up. The loop reads a quit and then a tag that stands for nothing, and
has ended and shown why before the second receive looks into the queue. -/
def lastMessage : List Move :=
  List.flatten [
    [.call, .call, .grant 0, .read [255, 0, 0], .leave 0],
    [.read [0, 1], .grant 1, .read [0x80], .deliver],
    [.read [9, 0, 0, 0, 7], .call, .latch, .hangUp],
    [.poll, .grant 2, .poll, .answer]]

theorem the_last_message_comes_before_the_error :
    ∃ b : Inbox ControlMessage,
      (start Direction.rootToZygote.registry).run? lastMessage = some b ∧
      b.answers = [(1, .ok .quit), (2, .error (.unknownTag "root-to-zygote" 9))] ∧
      b.received = b.decoded ∧ b.inbound.terminal = some (.unknownTag "root-to-zygote" 9) := by
  have hrun : ((start Direction.rootToZygote.registry : Inbox ControlMessage).run?
      lastMessage).map (fun b => (b.closed, b.answers)) = some (false,
        [(1, .ok .quit), (2, .error (.unknownTag "root-to-zygote" 9))]) := by decide +kernel
  obtain ⟨b, hb, heq⟩ := Option.map_eq_some_iff.mp hrun
  obtain ⟨hopen, hanswers⟩ := Prod.mk.inj heq
  obtain ⟨-, -, -, hlaw, -⟩ := nothing_is_lost_and_the_first_error_stays _ _ b hb
  refine ⟨b, hb, hanswers, (hlaw hopen).2.2 _ ?_⟩
  rw [hanswers]
  exact List.mem_cons_of_mem _ List.mem_cons_self

end Inbox

end ProcessTree
