-- A worker whose channel is out of step: what a request that was cut off leaves
-- behind, what calls are told that come later, and what they come to once the
-- channel is closed.
import ProcessTree.Proofs.Worker.Requests

namespace ProcessTree

/-! ## Out of step -/

namespace Desk

variable {d d' : Desk} {line line' : Line ControlMessage} {parent : Int32} {tail tail' : Bytes}

/-- A request was cut off, and no call has its turn. -/
def Broken (d : Desk) : Prop := d.outstanding.torn = true ∧ d.holder = none

theorem grant_of_broken (h : d.Broken) {i : Nat} {identity : JobIdentity}
    (hi : d.waiting[i]? = some identity) :
    d.next? line (.grant i) = some ({ d with
      waiting := d.waiting.eraseIdx i
      holder := none
      done := d.done ++ [⟨identity, .finished (.error .workerOutOfStep), none⟩] }, line) := by
  obtain ⟨htorn, hholder⟩ := h
  have hanswer : StartCall.locking.answer d.outstanding .granted =
      (d.outstanding, .finished (.error .workerOutOfStep)) := by
    simp only [StartCall.answer, htorn, if_true, StartCall.fail]
  simp only [next?, hholder, hi]
  rw [advance_of_finished hanswer]

/-- Calls that come later are told so when they get their turn. Nothing else changes. -/
theorem broken_next {move : Move} (h : d.Broken) (hmove : d.next? line move = some (d', line')) :
    d'.Broken ∧ line' = line ∧ d'.asked = d.asked ∧ d'.consumed = d.consumed ∧
      ∃ refused, d'.done = d.done ++ refused ∧
        ∀ hd ∈ refused, hd.call = .finished (.error .workerOutOfStep) := by
  have hholder := h.2
  cases move with
  | call identity =>
    cases hmove
    exact ⟨h, rfl, rfl, rfl, [], (List.append_nil _).symm, by simp⟩
  | leave i =>
    cases hmove
    exact ⟨h, rfl, rfl, rfl, [], (List.append_nil _).symm, by simp⟩
  | grant i =>
    cases hi : d.waiting[i]? with
    | none => simp [next?, hholder, hi] at hmove
    | some identity =>
      rw [grant_of_broken h hi] at hmove
      cases hmove
      refine ⟨⟨h.1, rfl⟩, rfl, rfl, rfl, _, rfl, ?_⟩
      intro hd hmem
      rw [List.mem_singleton.mp hmem]
  | _ => simp [next?, hholder] at hmove

theorem receive?_of_broken (h : d.Broken) (received : Except ChannelError ReplyMessage) :
    d.receive? received = none := by
  simp [receive?, h.2]

theorem IsSending.next {move : Move} (h : d.Sound line parent tail) (hsending : d.IsSending)
    (hmove : d.next? line move = some (d', line')) :
    d'.IsSending ∨ d'.Broken ∨ ∃ identity, d'.asked = d.asked ++ [identity] := by
  have htorn := (h.torn_of_sending hsending).2
  obtain ⟨hd, hholder, hcall⟩ := hsending
  cases move with
  | call identity =>
    cases hmove
    exact Or.inl ⟨hd, hholder, hcall⟩
  | leave i =>
    cases hmove
    exact Or.inl ⟨hd, hholder, hcall⟩
  | grant i =>
    obtain ⟨identity, hfree, -⟩ := next?_grant_eq_some hmove
    rw [hholder] at hfree
    cases hfree
  | drop =>
    obtain ⟨rfl, -⟩ := next?_drop_eq_some hmove
    exact Or.inr (Or.inl ⟨htorn, rfl⟩)
  | expire =>
    obtain ⟨hd', -, rfl, -, hanswer⟩ := next?_expire_eq_some hmove
    rw [advance_of_finished hanswer]
    exact Or.inr (Or.inl ⟨htorn, rfl⟩)
  | post =>
    obtain ⟨hd', answer, -, hcall', -, rfl⟩ := next?_post_eq_some hmove
    cases answer with
    | none => exact Or.inl ⟨hd, hholder, hcall⟩
    | some e =>
      simp only
      rw [advance_of_finished (answer_of_sendFailed hcall')]
      exact Or.inr (Or.inl ⟨htorn, rfl⟩)
  | write outcome =>
    obtain ⟨hd', answer, hhd', -, rfl⟩ := next?_write_eq_some hmove
    rw [hholder] at hhd'
    cases hhd'
    match answer with
    | none => exact Or.inl ⟨hd, hholder, hcall⟩
    | some (.error e) =>
      simp only
      rw [advance_of_finished (answer_of_sendFailed hcall)]
      exact Or.inr (Or.inl ⟨htorn, rfl⟩)
    | some (.ok ()) =>
      refine Or.inr (Or.inr ⟨hd.identity, ?_⟩)
      have hadvance := advance_of_going (d := { d with asked := d.asked ++ [hd.identity] })
        (h := { hd with place := some d.asked.length }) (answer_of_sent hcall) (by simp)
      exact congrArg asked hadvance
  | settle a =>
    obtain ⟨hd', request, hhd', hrequest, hsettles, -⟩ := next?_settle_eq_some hmove
    rw [hholder] at hhd'
    cases hhd'
    rw [hcall] at hrequest
    cases hrequest
    cases a <;> cases hsettles

/-! ## After the channel is closed -/

theorem advance_asked (d : Desk) (h : Caller) (a : StartAnswer) :
    (d.advance h a).asked = d.asked := by
  unfold advance
  split
  · rfl
  · rfl

/-- On a closed channel nothing is written, whatever was written before. -/
theorem next?_of_shut {move : Move} {l : Line ControlMessage} (hfree : line.current = none)
    (hshut : line.outbound.isOpen = false) (hl : l.current = none)
    (hsame : l.outbound = line.outbound) (hmove : d.next? line move = some (d', line')) :
    line' = line ∧ d.next? l move = some (d', l) ∧ d'.asked = d.asked := by
  have habandon : ∀ l : Line ControlMessage, l.current = none → l.abandon = l := by
    rintro ⟨outbound, current, emitted, sent⟩ rfl
    rfl
  cases move with
  | call identity =>
    cases hmove
    exact ⟨rfl, rfl, rfl⟩
  | leave i =>
    cases hmove
    exact ⟨rfl, rfl, rfl⟩
  | grant i =>
    simp only [next?] at hmove ⊢
    split at hmove
    · cases hmove
      exact ⟨rfl, rfl, advance_asked ..⟩
    · cases hmove
  | drop =>
    simp only [next?, habandon line hfree, habandon l hl] at hmove ⊢
    split at hmove
    · cases hmove
    · cases hmove
      exact ⟨rfl, rfl, rfl⟩
  | expire =>
    simp only [next?, habandon line hfree, habandon l hl] at hmove ⊢
    split at hmove
    · cases hmove
    · split at hmove
      · cases hmove
        exact ⟨rfl, rfl, advance_asked ..⟩
      · cases hmove
        exact ⟨rfl, rfl, advance_asked ..⟩
      · cases hmove
        exact ⟨rfl, rfl, advance_asked ..⟩
      · cases hmove
  | post =>
    obtain ⟨hd, answer, hholder, hcall, hsend, rfl⟩ := next?_post_eq_some hmove
    rcases Line.send?_eq_some hsend with ⟨e, rfl, rfl, hbegin⟩ | ⟨-, -, hopen, -⟩
    · rw [← hsame] at hbegin
      refine ⟨rfl, ?_, advance_asked ..⟩
      simp only [next?, hholder, hcall, Line.send?, hbegin]
    · rw [hshut] at hopen
      cases hopen
  | write outcome =>
    obtain ⟨hd, answer, -, hwrite, -⟩ := next?_write_eq_some hmove
    obtain ⟨m, s, hcurrent⟩ := Line.current_of_write? hwrite
    rw [hfree] at hcurrent
    cases hcurrent
  | settle a =>
    obtain ⟨hd, request, hholder, hrequest, hsettles, rfl, rfl⟩ := next?_settle_eq_some hmove
    refine ⟨rfl, ?_, advance_asked ..⟩
    simp only [next?, hholder, hrequest, hsettles, if_true]

theorem Sound.onOutbound (h : d.Sound line parent tail) (hfree : line.current = none)
    {o : Outbound} (ho : o.registry = line.outbound.registry) :
    d.Sound { line with outbound := o } parent tail :=
  ⟨h.wire.onOutbound hfree ho, h.sent, h.count, h.few, h.holder, h.current, h.clean, h.used,
    h.done⟩

/-! ## What is cut off -/

/-- These bytes are the front of a start request, if there are any. -/
def OfStart (tail : Bytes) : Prop :=
  tail = [] ∨ ∃ identity, Message.Partly Direction.rootToWorker.registry
    (.start ⟨identity⟩ : ControlMessage) tail

theorem ofStart_next {move : Move} (h : d.Sound line parent tail) (htail : OfStart tail)
    (hmove : d.next? line move = some (d', line')) (h' : d'.Sound line' parent tail') :
    OfStart tail' := by
  have hsame : line'.emitted = line.emitted → line'.sent = line.sent → OfStart tail' := by
    intro hemitted hsent
    rw [h.wire.unique h'.wire hemitted hsent]
    exact htail
  cases move with
  | call identity =>
    cases hmove
    exact hsame rfl rfl
  | leave i =>
    cases hmove
    exact hsame rfl rfl
  | grant i =>
    obtain ⟨identity, -, rfl, -⟩ := next?_grant_eq_some hmove
    exact hsame rfl rfl
  | drop =>
    obtain ⟨-, rfl⟩ := next?_drop_eq_some hmove
    exact hsame rfl rfl
  | expire =>
    obtain ⟨hd, -, -, rfl, -⟩ := next?_expire_eq_some hmove
    exact hsame rfl rfl
  | post =>
    obtain ⟨hd, answer, -, -, hsend, -⟩ := next?_post_eq_some hmove
    rcases Line.send?_eq_some hsend with ⟨e, -, rfl, -⟩ | ⟨-, -, -, s, -, rfl⟩
    · exact hsame rfl rfl
    · exact hsame rfl rfl
  | settle a =>
    obtain ⟨hd, request, -, -, -, -, rfl⟩ := next?_settle_eq_some hmove
    exact hsame rfl rfl
  | write outcome =>
    obtain ⟨hd, answer, -, hwrite, -⟩ := next?_write_eq_some hmove
    obtain ⟨m, s, hcurrent⟩ := Line.current_of_write? hwrite
    obtain ⟨hd', -, -, rfl⟩ := h.current m s hcurrent
    cases h.wire.write hcurrent hwrite with
    | part _ _ _ hcurrent' => exact Or.inr ⟨hd'.identity, h'.wire.partly hcurrent'⟩
    | whole _ _ _ _ hsound => exact Or.inl (hsound.unique h'.wire rfl rfl)
    | failed _ _ _ _ hsound =>
      rw [hsound.unique h'.wire rfl rfl]
      exact htail

end Desk

end ProcessTree
