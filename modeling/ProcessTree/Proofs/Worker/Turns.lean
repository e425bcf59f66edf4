-- What becomes of the call that has its turn, as far as it matters to a call that
-- has its reply: it is the last that asked, and all replies were taken.
import ProcessTree.Proofs.Worker.Requests

namespace ProcessTree.Desk

variable {d d' : Desk} {line line' : Line ControlMessage} {parent : Int32} {tail : Bytes}

/-! ## Turns -/

/-- Whether a move gives the call something that it asked for when it had its reply. -/
def Move.gives : Move → Bool
  | .settle (.fetched (.ok ())) | .settle (.connected (.ok ())) | .settle (.sent (.ok ())) => true
  | _ => false

/-- What a move does to the call that has its turn: nothing, or it gets to a point before its reply,
or it ends without having started a job. -/
inductive Turn (d d' : Desk) : Prop where
  | same (holder : d'.holder = d.holder) (done : d'.done = d.done) (asked : d'.asked = d.asked)
    (consumed : d'.consumed = d.consumed)
  | early (hd : Caller) (holder : d'.holder = some hd) (reply : hd.reply? = none)
    (before : ∀ hd, d.holder = some hd → hd.reply? = none) (done : d'.done = d.done)
  | ended (more : List Caller) (holder : d'.holder = none) (done : d'.done = d.done ++ more)
    (more : ∀ hd ∈ more, hd.reply? = none)

theorem Turn.of_failed {hd : Caller} {a : StartAnswer} {o : Outstanding} {e : TreeError}
    (hanswer : hd.call.answer d.outstanding a = (o, .finished (.error e))) :
    Turn d (d.advance hd a) := by
  rw [advance_of_finished hanswer]
  refine .ended _ rfl rfl ?_
  intro hd' hmem
  rw [List.mem_singleton.mp hmem]
  rfl

theorem reply?_next (o : Outstanding) (hd : Caller) :
    ({ hd with call := (StartCall.next o).2 } : Caller).reply? = none := by
  unfold StartCall.next
  split
  · rfl
  · rfl

theorem reply?_of_early {hd : Caller} (hholder : d.holder = some hd) (hreply : hd.reply? = none) :
    ∀ hd, d.holder = some hd → hd.reply? = none := by
  intro hd' hholder'
  rw [hholder] at hholder'
  cases hholder'
  exact hreply

theorem turn_of_grant {i : Nat} (hmove : d.next? line (.grant i) = some (d', line')) :
    Turn d d' := by
  obtain ⟨identity, hfree, -, rfl⟩ := next?_grant_eq_some hmove
  by_cases htorn : d.outstanding.torn = true
  · have hanswer : StartCall.locking.answer d.outstanding .granted =
        (d.outstanding, .finished (.error .workerOutOfStep)) := by
      simp only [StartCall.answer, htorn, if_true, StartCall.fail]
    rw [advance_of_finished hanswer]
    refine .ended _ rfl rfl ?_
    intro hd hmem
    rw [List.mem_singleton.mp hmem]
    rfl
  · have hanswer : StartCall.locking.answer d.outstanding .granted =
        ((StartCall.next d.outstanding).1, (StartCall.next d.outstanding).2) := by
      simp [StartCall.answer, htorn]
    rw [advance_of_going hanswer (next_going _)]
    refine .early _ rfl (reply?_next _ ⟨identity, .locking, none⟩) ?_ rfl
    intro hd hholder
    rw [hfree] at hholder
    cases hholder

/-- A call that is not given what it asked for is over. -/
theorem answer_of_not_gives {call : StartCall} {request : StartRequest} {a : StartAnswer}
    (o : Outstanding) (hrequest : call.request? = some request)
    (hsettles : settles request a = true) (hgives : (Move.settle a).gives = false) :
    ∃ e, call.answer o a = (o, .finished (.error e)) := by
  cases call with
  | locking | draining | sending | awaiting =>
    cases hrequest
    cases a <;> cases hsettles
  | fetchingWrite reply | fetchingRead reply =>
    cases hrequest
    cases a with
    | fetched r =>
      cases r with
      | ok u => cases hgives
      | error e => exact ⟨_, rfl⟩
    | _ => cases hsettles
  | connecting reply =>
    cases hrequest
    cases a with
    | connected r =>
      cases r with
      | ok u => cases hgives
      | error e => exact ⟨_, rfl⟩
    | _ => cases hsettles
  | greeting reply =>
    cases hrequest
    cases a with
    | sent r =>
      cases r with
      | ok u => cases hgives
      | error e => exact ⟨_, rfl⟩
    | _ => cases hsettles
  | finished result => cases hrequest

theorem turn_of_next? {move : Move} (h : d.Sound line parent tail) (hgives : move.gives = false)
    (hmove : d.next? line move = some (d', line')) : Turn d d' := by
  cases move with
  | call identity | leave i =>
    cases hmove
    exact .same rfl rfl rfl rfl
  | grant i => exact turn_of_grant hmove
  | drop =>
    obtain ⟨rfl, -⟩ := next?_drop_eq_some hmove
    exact .ended [] rfl (List.append_nil _).symm (by simp)
  | expire =>
    obtain ⟨hd, -, rfl, -, hanswer⟩ := next?_expire_eq_some hmove
    exact .of_failed hanswer
  | post =>
    obtain ⟨hd, answer, -, hcall, -, rfl⟩ := next?_post_eq_some hmove
    cases answer with
    | none => exact .same rfl rfl rfl rfl
    | some e => exact .of_failed (answer_of_sendFailed hcall)
  | write outcome =>
    obtain ⟨hd, answer, hholder, hwrite, rfl⟩ := next?_write_eq_some hmove
    obtain ⟨m, s, hcurrent⟩ := Line.current_of_write? hwrite
    obtain ⟨hd', hhd', hcall, -⟩ := h.current m s hcurrent
    rw [hholder] at hhd'
    cases hhd'
    rcases answer with _ | e | _
    · exact .same rfl rfl rfl rfl
    · exact .of_failed (answer_of_sendFailed hcall)
    · have hadvance := advance_of_going (d := { d with asked := d.asked ++ [hd.identity] })
        (h := { hd with place := some d.asked.length }) (answer_of_sent hcall) (by simp)
      simp only
      rw [hadvance]
      refine .early _ rfl rfl ?_ rfl
      exact reply?_of_early hholder (by unfold Caller.reply?; rw [hcall])
  | settle a =>
    obtain ⟨hd, request, -, hrequest, hsettles, rfl, -⟩ := next?_settle_eq_some hmove
    obtain ⟨e, hanswer⟩ := answer_of_not_gives d.outstanding hrequest hsettles hgives
    exact .of_failed hanswer

/-- A receive gives the call its own reply, or else changes nothing past that point. -/
theorem turn_of_receive? {received : Except ChannelError ReplyMessage}
    (hmove : d.receive? received = some d') :
    Turn d d' ∨ ∃ hd reply, d.holder = some hd ∧ hd.call = .awaiting ∧
      d'.holder = some { hd with call := .fetchingWrite reply } ∧ d'.done = d.done ∧
      d'.asked = d.asked ∧ d'.consumed = d.consumed ++ [reply] := by
  obtain ⟨hd, hholder, hstages⟩ := receive?_eq_some hmove
  rcases hstages with ⟨reply, hcall, rfl, rfl⟩ | ⟨reply, hcall, rfl, rfl⟩ | ⟨e, hcalls, rfl, rfl⟩
  · have hanswer : hd.call.answer d.outstanding (.received (.ok (.startResult reply))) =
        StartCall.next { d.outstanding with unanswered := d.outstanding.unanswered - 1 } := by
      rw [hcall]
      rfl
    rw [advance_of_going (d := { d with consumed := d.consumed ++ [reply] }) hanswer
      (next_going _)]
    refine Or.inl (.early _ rfl (reply?_next _ hd) ?_ rfl)
    exact reply?_of_early hholder (by unfold Caller.reply?; rw [hcall])
  · have hanswer : hd.call.answer d.outstanding (.received (.ok (.startResult reply))) =
        StartCall.take { d.outstanding with unanswered := d.outstanding.unanswered - 1 }
          reply := by
      rw [hcall]
      rfl
    unfold StartCall.take at hanswer
    split at hanswer
    · have hadvance := advance_of_finished (d := { d with
        consumed := d.consumed ++ [reply]
        used := d.used ++ (hd.place.map fun place => (place, reply)).toList }) hanswer
      rw [hadvance]
      refine Or.inl (.ended _ rfl rfl ?_)
      intro hd' hmem
      rw [List.mem_singleton.mp hmem]
      rfl
    · have hadvance := advance_of_going (d := { d with
        consumed := d.consumed ++ [reply]
        used := d.used ++ (hd.place.map fun place => (place, reply)).toList }) hanswer (by simp)
      rw [hadvance]
      exact Or.inr ⟨hd, reply, hholder, hcall, rfl, rfl, rfl, rfl⟩
  · exact Or.inl (.of_failed (answer_of_receiveFailed hcalls))

/-! ## Getting what was asked for -/

theorem settle_fetched
    (hmove : d.next? line (.settle (.fetched (.ok ()))) = some (d', line')) :
    ∃ hd reply, d.holder = some hd ∧ line' = line ∧
      ((hd.call = .fetchingWrite reply ∧
          d' = { d with holder := some { hd with call := .fetchingRead reply } }) ∨
        (hd.call = .fetchingRead reply ∧
          d' = { d with holder := some { hd with call := .connecting reply } })) := by
  obtain ⟨hd, request, hholder, hrequest, hsettles, rfl, rfl⟩ := next?_settle_eq_some hmove
  obtain ⟨identity, call, place⟩ := hd
  cases call with
  | fetchingWrite reply => exact ⟨_, reply, hholder, rfl, Or.inl ⟨rfl, rfl⟩⟩
  | fetchingRead reply => exact ⟨_, reply, hholder, rfl, Or.inr ⟨rfl, rfl⟩⟩
  | finished result => cases hrequest
  | _ =>
    cases hrequest
    cases hsettles

theorem settle_connected
    (hmove : d.next? line (.settle (.connected (.ok ()))) = some (d', line')) :
    ∃ hd reply, d.holder = some hd ∧ line' = line ∧ hd.call = .connecting reply ∧
      d' = { d with holder := some { hd with call := .greeting reply } } := by
  obtain ⟨hd, request, hholder, hrequest, hsettles, rfl, rfl⟩ := next?_settle_eq_some hmove
  obtain ⟨identity, call, place⟩ := hd
  cases call with
  | connecting reply => exact ⟨_, reply, hholder, rfl, rfl, rfl⟩
  | finished result => cases hrequest
  | _ =>
    cases hrequest
    cases hsettles

theorem settle_greeted (hmove : d.next? line (.settle (.sent (.ok ()))) = some (d', line')) :
    ∃ hd reply, d.holder = some hd ∧ line' = line ∧ hd.call = .greeting reply ∧
      d' = { d with
        holder := none
        done := d.done ++ [{ hd with call := .finished (.ok reply) }] } := by
  obtain ⟨hd, request, hholder, hrequest, hsettles, rfl, rfl⟩ := next?_settle_eq_some hmove
  obtain ⟨identity, call, place⟩ := hd
  cases call with
  | greeting reply => exact ⟨_, reply, hholder, rfl, rfl, rfl⟩
  | finished result => cases hrequest
  | _ =>
    cases hrequest
    cases hsettles

/-! ## The last request -/

/-- A call that has its reply was the last to ask, and all replies were taken. -/
def Latest (d : Desk) : Prop :=
  ∀ hd reply, d.holder = some hd → hd.reply? = some reply →
    ∃ k, hd.place = some k ∧ d.asked.length = k + 1 ∧ d.consumed.length = k + 1

theorem latest_start : Desk.start.Latest := by
  intro hd reply hholder
  cases hholder

theorem Latest.turn (h : d.Latest) (hturn : Turn d d') : d'.Latest := by
  intro hd reply hholder hreply
  cases hturn with
  | same hsame _ hasked hconsumed =>
    rw [hsame] at hholder
    rw [hasked, hconsumed]
    exact h hd reply hholder hreply
  | early hd' hhd' hnone _ _ =>
    rw [hhd'] at hholder
    cases hholder
    rw [hnone] at hreply
    cases hreply
  | ended more hfree _ _ =>
    rw [hfree] at hholder
    cases hholder

theorem latest_receive (hsound : d.Sound line parent tail) (h : d.Latest)
    {received : Except ChannelError ReplyMessage} (hmove : d.receive? received = some d') :
    d'.Latest := by
  rcases turn_of_receive? hmove with hturn |
    ⟨hd, reply, hholder, hcall, hholder', -, hasked, hconsumed⟩
  · exact h.turn hturn
  · intro hd' reply' hhd' _
    rw [hholder'] at hhd'
    cases hhd'
    have hstands := hsound.holder hd hholder
    unfold Stands at hstands
    rw [hcall] at hstands
    obtain ⟨hone, k, hplace, -, hlength⟩ := hstands
    have hcount := hsound.count
    refine ⟨k, hplace, by rw [hasked, hlength], ?_⟩
    rw [hconsumed, List.length_append, List.length_singleton]
    omega

/-- The call gets past another of the things that it asks for. -/
theorem Latest.goOn (h : d.Latest) {hd : Caller} (hholder : d.holder = some hd) {call : StartCall}
    (hreply : ({ hd with call } : Caller).reply? = hd.reply?) :
    ({ d with holder := some { hd with call } } : Desk).Latest := by
  intro hd' reply hhd' hreply'
  cases hhd'
  rw [hreply] at hreply'
  exact h hd reply hholder hreply'

end ProcessTree.Desk
