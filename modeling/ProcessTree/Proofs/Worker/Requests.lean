-- What becomes of start requests, move by move. What is counted as unanswered
-- are the requests on the wire whose replies were not taken, and each reply that
-- a call uses has the place of the call's own request.
import ProcessTree.Proofs.Worker.Desk
import ProcessTree.Vocabulary

namespace ProcessTree

/-- What is at a place stays there when more comes behind it. -/
theorem getElem?_of_prefix {α : Type} {a b : List α} (h : a <+: b) {k : Nat} {v : α}
    (hk : a[k]? = some v) : b[k]? = some v := by
  obtain ⟨rest, rfl⟩ := h
  rw [List.getElem?_append_left (List.getElem?_eq_some_iff.mp hk).1]
  exact hk

namespace Desk

/-! ## The invariant -/

/-- The call took this reply, at the place of its own request. -/
def Owns (d : Desk) (h : Caller) (reply : StartResult) : Prop :=
  ∃ k, h.place = some k ∧ d.asked[k]? = some h.identity ∧ (k, reply) ∈ d.used

/-- Where the call that has its turn stands. Before it reads a reply there is one to come; while it
sends there is none, and the line counts as torn; and what it uses was the reply to its own
request. -/
def Stands (d : Desk) (h : Caller) : Prop :=
  match h.call with
  | .locking | .finished _ => False
  | .draining => 0 < d.outstanding.unanswered ∧ d.outstanding.torn = false
  | .sending => d.outstanding.unanswered = 0 ∧ d.outstanding.torn = true
  | .awaiting =>
    d.outstanding.unanswered = 1 ∧
      ∃ k, h.place = some k ∧ d.asked[k]? = some h.identity ∧ d.asked.length = k + 1
  | .fetchingWrite reply | .fetchingRead reply | .connecting reply | .greeting reply =>
    d.Owns h reply

/-- The call that has its turn is about to send its request, or sends it. -/
def IsSending (d : Desk) : Prop := ∃ h, d.holder = some h ∧ h.call = .sending

/-- Every request was sent in full or is the one that is sent now, unless the line is torn; what is
unanswered are the replies that are to come; and each reply that a call used has the place of the
call's request. -/
structure Sound (d : Desk) (line : Line ControlMessage) (parent : Int32) (tail : Bytes) :
    Prop where
  wire : line.Sound Direction.rootToWorker.registry tail
  sent : line.sent = .begin ⟨parent⟩ :: d.asked.map fun identity => .start ⟨identity⟩
  count : d.asked.length = d.consumed.length + d.outstanding.unanswered
  few : d.outstanding.unanswered ≤ 1
  holder : ∀ h, d.holder = some h → d.Stands h
  current : ∀ m s, line.current = some (m, s) →
    ∃ h, d.holder = some h ∧ h.call = .sending ∧ m = .start ⟨h.identity⟩
  clean : d.outstanding.torn = false ∨ d.IsSending → line.current = none → tail = []
  used : ∀ k reply, (k, reply) ∈ d.used → k < d.asked.length ∧ d.consumed[k]? = some reply
  done : ∀ h ∈ d.done, ∀ reply, h.reply? = some reply → d.Owns h reply

variable {d d' : Desk} {line line' : Line ControlMessage} {parent : Int32} {tail tail' : Bytes}

/-- A call that has got past a reply took it at the place of its own request. -/
theorem Sound.owns (h : d.Sound line parent tail) {hd : Caller} {reply : StartResult}
    (hhd : d.holder = some hd ∨ hd ∈ d.done) (hreply : hd.reply? = some reply) :
    d.Owns hd reply := by
  rcases hhd with hholder | hdone
  · have hstands := h.holder hd hholder
    obtain ⟨identity, call, place⟩ := hd
    cases call with
    | fetchingWrite reply' | fetchingRead reply' | connecting reply' | greeting reply' =>
      cases hreply
      exact hstands
    | locking | finished result => exact hstands.elim
    | draining | sending | awaiting => cases hreply
  · exact h.done hd hdone reply hreply

/-- A call that waits for a reply has one to come. -/
theorem Sound.pos_of_receive (h : d.Sound line parent tail) {hd : Caller}
    (hholder : d.holder = some hd) (hrequest : hd.call.request? = some .receive) :
    0 < d.outstanding.unanswered := by
  have hstands := h.holder hd hholder
  obtain ⟨identity, call, place⟩ := hd
  cases call with
  | draining => exact hstands.1
  | awaiting =>
    have hone : d.outstanding.unanswered = 1 := hstands.1
    omega
  | _ => cases hrequest

/-- Only a call that sends has the line. -/
theorem Sound.idle (h : d.Sound line parent tail) (hnot : ¬ d.IsSending) :
    line.current = none := by
  cases hcurrent : line.current with
  | none => rfl
  | some current =>
    obtain ⟨hd, hholder, hcall, -⟩ := h.current current.1 current.2 hcurrent
    exact absurd ⟨hd, hholder, hcall⟩ hnot

theorem Sound.free (h : d.Sound line parent tail) {hd : Caller} (hholder : d.holder = some hd)
    (hcall : hd.call ≠ .sending) : line.current = none := by
  refine h.idle ?_
  rintro ⟨hd', hhd', hsending⟩
  rw [hholder] at hhd'
  cases hhd'
  exact hcall hsending

theorem Sound.torn_of_sending (h : d.Sound line parent tail) (hsending : d.IsSending) :
    d.outstanding.unanswered = 0 ∧ d.outstanding.torn = true := by
  obtain ⟨hd, hholder, hcall⟩ := hsending
  have hstands := h.holder hd hholder
  unfold Stands at hstands
  rw [hcall] at hstands
  exact hstands

theorem Sound.not_sending_of_whole (h : d.Sound line parent tail)
    (htorn : d.outstanding.torn = false) : ¬ d.IsSending := by
  intro hsending
  have := (h.torn_of_sending hsending).2
  rw [htorn] at this
  cases this

/-- A turn ends: whatever was written stays, and no call has the line any more. -/
theorem Sound.release (h : d.Sound line parent tail)
    (hline : line'.Sound Direction.rootToWorker.registry tail') (hsent : line'.sent = line.sent)
    (hcurrent : line'.current = none) (hclean : d.outstanding.torn = false → tail' = [])
    (more : List Caller)
    (hmore : ∀ hd ∈ more, ∀ reply, hd.reply? = some reply → d.Owns hd reply) :
    ({ d with holder := none, done := d.done ++ more } : Desk).Sound line' parent tail' := by
  refine ⟨hline, hsent.trans h.sent, h.count, h.few, fun _ hd => (nomatch hd), ?_, ?_, h.used, ?_⟩
  · exact Line.forall_current_of_free hcurrent
  · rintro (htorn | ⟨hd, hholder, -⟩) -
    · exact hclean htorn
    · cases hholder
  · intro hd hmem
    rcases List.mem_append.mp hmem with hmem | hmem
    · exact h.done hd hmem
    · exact hmore hd hmem

theorem Sound.finish (h : d.Sound line parent tail)
    (hline : line'.Sound Direction.rootToWorker.registry tail') (hsent : line'.sent = line.sent)
    (hcurrent : line'.current = none) (hclean : d.outstanding.torn = false → tail' = [])
    {hd : Caller} (howns : ∀ reply, hd.reply? = some reply → d.Owns hd reply) :
    ({ d with holder := none, done := d.done ++ [hd] } : Desk).Sound line' parent tail' := by
  refine h.release hline hsent hcurrent hclean [hd] ?_
  intro hd' hmem
  rw [List.mem_singleton] at hmem
  subst hmem
  exact howns

/-- A call that does not send has its turn; the line is as it was. -/
theorem Sound.turn (h : d.Sound line parent tail) (hfree : line.current = none) {hd : Caller}
    (hstands : d.Stands hd) (hcall : hd.call ≠ .sending)
    (hclean : d.outstanding.torn = false → tail = []) :
    ({ d with holder := some hd } : Desk).Sound line parent tail := by
  refine ⟨h.wire, h.sent, h.count, h.few, ?_, ?_, ?_, h.used, h.done⟩
  · intro hd' hholder
    cases hholder
    exact hstands
  · exact Line.forall_current_of_free hfree
  · rintro (htorn | ⟨hd', hholder, hsending⟩) -
    · exact hclean htorn
    · cases hholder
      exact absurd hsending hcall

/-! ## Getting the turn -/

/-- A call that may go on takes the replies to others first, and then sends. -/
theorem Sound.next (h : d.Sound line parent tail) (hfree : line.current = none)
    (htorn : d.outstanding.torn = false) (hd : Caller) :
    ({ d with
      outstanding := (StartCall.next d.outstanding).1
      holder := some { hd with call := (StartCall.next d.outstanding).2 } } : Desk).Sound line
        parent tail := by
  have htail := h.clean (Or.inl htorn) hfree
  unfold StartCall.next
  split
  · rename_i hpos
    exact h.turn hfree ⟨hpos, htorn⟩ StartCall.noConfusion fun _ => htail
  · rename_i hzero
    refine ⟨h.wire, h.sent, h.count, h.few, ?_, ?_, fun _ _ => htail, h.used, h.done⟩
    · intro hd' hholder
      cases hholder
      exact ⟨Nat.eq_zero_of_not_pos hzero, rfl⟩
    · exact Line.forall_current_of_free hfree

theorem next_going (o : Outstanding) (result : Except TreeError StartResult) :
    (StartCall.next o).2 ≠ .finished result := by
  unfold StartCall.next
  split
  · exact StartCall.noConfusion
  · exact StartCall.noConfusion

/-- A call that does not send, or does not yet, is over. -/
theorem Sound.over (h : d.Sound line parent tail) {hd : Caller} {a : StartAnswer}
    {result : Except TreeError StartResult} (hfree : line.current = none)
    (hclean : d.outstanding.torn = false → tail = [])
    (hanswer : hd.call.answer d.outstanding a = (d.outstanding, .finished result))
    (hresult : ∀ reply, result = .ok reply → d.Owns hd reply) :
    (d.advance hd a).Sound line parent tail := by
  rw [advance_of_finished hanswer]
  refine h.finish h.wire rfl hfree hclean ?_
  intro reply hreply
  cases result with
  | ok reply' =>
    cases hreply
    exact hresult reply rfl
  | error e => cases hreply

theorem sound_grant (h : d.Sound line parent tail) {i : Nat}
    (hmove : d.next? line (.grant i) = some (d', line')) :
    d'.Sound line' parent tail ∧ line' = line ∧ d'.consumed = d.consumed := by
  obtain ⟨identity, hholder, rfl, rfl⟩ := next?_grant_eq_some hmove
  have hfree : line'.current = none := by
    refine h.idle ?_
    rintro ⟨hd, hhd, -⟩
    rw [hholder] at hhd
    cases hhd
  have hwaited : ({ d with waiting := d.waiting.eraseIdx i } : Desk).Sound line' parent tail :=
    ⟨h.wire, h.sent, h.count, h.few, h.holder, h.current, h.clean, h.used, h.done⟩
  cases htorn : d.outstanding.torn with
  | true =>
    have hanswer : StartCall.locking.answer d.outstanding .granted =
        (d.outstanding, .finished (.error .workerOutOfStep)) := by
      simp only [StartCall.answer, htorn, if_true, StartCall.fail]
    refine ⟨hwaited.over hfree ?_ hanswer nofun, rfl, ?_⟩
    · intro hwhole
      rw [show ({ d with waiting := d.waiting.eraseIdx i } : Desk).outstanding = d.outstanding
        from rfl, htorn] at hwhole
      cases hwhole
    · rw [advance_of_finished hanswer]
  | false =>
    have hanswer : StartCall.locking.answer d.outstanding .granted =
        ((StartCall.next d.outstanding).1, (StartCall.next d.outstanding).2) := by
      simp only [StartCall.answer, htorn, Bool.false_eq_true, if_false]
    rw [advance_of_going hanswer (next_going _)]
    exact ⟨hwaited.next hfree htorn ⟨identity, .locking, none⟩, rfl, rfl⟩

/-! ## Cutting a call off -/

/-- What is written when a send is cut off stays on the wire; the line is torn then. -/
theorem Sound.clean_of_abandon (h : d.Sound line parent tail)
    (htorn : d.outstanding.torn = false) : tail = [] :=
  h.clean (Or.inl htorn) (h.idle (h.not_sending_of_whole htorn))

theorem sound_drop (h : d.Sound line parent tail)
    (hmove : d.next? line .drop = some (d', line')) :
    d'.Sound line' parent tail ∧ line' = line.abandon ∧ d'.consumed = d.consumed := by
  obtain ⟨rfl, rfl⟩ := next?_drop_eq_some hmove
  have hsound := h.release h.wire.abandon rfl rfl h.clean_of_abandon [] (by simp)
  rw [List.append_nil] at hsound
  exact ⟨hsound, rfl, rfl⟩

/-- A call at its deadline is over, wherever it waits. -/
theorem sound_expire (h : d.Sound line parent tail)
    (hmove : d.next? line .expire = some (d', line')) :
    d'.Sound line' parent tail ∧ line' = line.abandon ∧ d'.consumed = d.consumed := by
  obtain ⟨hd, hholder, rfl, rfl, hanswer⟩ := next?_expire_eq_some hmove
  rw [advance_of_finished hanswer]
  exact ⟨h.finish h.wire.abandon rfl rfl h.clean_of_abandon nofun, rfl, rfl⟩

/-! ## Sending the request -/

/-- The send begins on a line that is whole, or is refused and leaves the line torn. -/
theorem sound_post (h : d.Sound line parent tail)
    (hmove : d.next? line .post = some (d', line')) :
    d'.Sound line' parent tail ∧ line'.emitted = line.emitted ∧ d'.consumed = d.consumed := by
  obtain ⟨hd, answer, hholder, hcall, hsend, rfl⟩ := next?_post_eq_some hmove
  rcases Line.send?_eq_some hsend with ⟨e, rfl, rfl, hbegin⟩ | ⟨rfl, hfree, hopen, s, hframe, rfl⟩
  -- A refused send has written nothing, but the line counts as torn from before the send.
  · have htorn := (h.torn_of_sending ⟨hd, hholder, hcall⟩).2
    have hanswer := answer_of_sendFailed (o := d.outstanding) (e := e) hcall
    have hfree : line'.current = none := by
      refine h.wire.free_of_error ?_ hbegin
      intro m s hm
      obtain ⟨hd', hhd', -, rfl⟩ := h.current m s hm
      rw [hholder] at hhd'
      cases hhd'
      rfl
    refine ⟨h.over hfree ?_ hanswer nofun, rfl, ?_⟩
    · intro hwhole
      rw [htorn] at hwhole
      cases hwhole
    · have hconsumed := congrArg consumed (advance_of_finished hanswer)
      exact hconsumed
  · have htail := h.clean (Or.inr ⟨hd, hholder, hcall⟩) hfree
    subst htail
    refine ⟨⟨h.wire.send hopen hframe, h.sent, h.count, h.few, h.holder, ?_, ?_, h.used,
      h.done⟩, rfl, rfl⟩
    · intro m s' hm
      cases hm
      exact ⟨hd, hholder, hcall, rfl⟩
    · intro _ _
      rfl

/-- The last byte of a request is written: its reply is the only one to come. -/
theorem Sound.sentInFull (h : d.Sound line parent tail) {hd : Caller}
    (hzero : d.outstanding.unanswered = 0)
    (hline : line'.Sound Direction.rootToWorker.registry [])
    (hsent : line'.sent = line.sent ++ [.start ⟨hd.identity⟩])
    (hcurrent : line'.current = none) :
    ({ d with
      asked := d.asked ++ [hd.identity]
      outstanding := ⟨d.outstanding.unanswered + 1, false⟩
      holder := some ⟨hd.identity, .awaiting, some d.asked.length⟩ } : Desk).Sound line' parent
        [] := by
  refine ⟨hline, ?_, ?_, ?_, ?_, ?_, fun _ _ => rfl, ?_, ?_⟩
  · rw [hsent, h.sent, List.map_append]
    rfl
  · have := h.count
    rw [List.length_append, List.length_singleton]
    simp only
    omega
  · simp only
    omega
  · intro hd' hholder
    cases hholder
    refine ⟨?_, d.asked.length, rfl, List.getElem?_concat_length, ?_⟩
    · simp only
      omega
    · rw [List.length_append]
      rfl
  · exact Line.forall_current_of_free hcurrent
  · intro k reply hk
    obtain ⟨hlt, hreply⟩ := h.used k reply hk
    refine ⟨?_, hreply⟩
    rw [List.length_append]
    omega
  · intro hd' hmem reply hfinished
    obtain ⟨k, hplace, hasked, hk⟩ := h.done hd' hmem reply hfinished
    exact ⟨k, hplace, getElem?_of_prefix (List.prefix_append _ _) hasked, hk⟩

/-- A write call goes on with the request, completes it, or ends the line. -/
theorem sound_write (h : d.Sound line parent tail) {outcome : WriteOutcome}
    (hmove : d.next? line (.write outcome) = some (d', line')) :
    ∃ tail', d'.Sound line' parent tail' ∧ line.emitted <+: line'.emitted ∧
      d'.consumed = d.consumed := by
  obtain ⟨hd, answer, hholder, hwrite, rfl⟩ := next?_write_eq_some hmove
  obtain ⟨m, s, hcurrent⟩ := Line.current_of_write? hwrite
  have hemitted := Line.write?_emitted hcurrent hwrite
  obtain ⟨hd', hhd', hcall, rfl⟩ := h.current m s hcurrent
  rw [hholder] at hhd'
  cases hhd'
  obtain ⟨hzero, htorn⟩ := h.torn_of_sending ⟨hd, hholder, hcall⟩
  cases h.wire.write hcurrent hwrite with
  | part _ _ hsent hcurrent' hsound =>
    refine ⟨_, ⟨hsound, hsent.trans h.sent, h.count, h.few, h.holder, ?_, ?_, h.used, h.done⟩,
      ⟨_, hemitted.symm⟩, rfl⟩
    · intro m' s' hm'
      rw [hcurrent'] at hm'
      cases hm'
      exact ⟨hd, hholder, hcall, rfl⟩
    · intro _ hnone
      rw [hcurrent'] at hnone
      cases hnone
  | whole _ _ hsent hcurrent' hsound =>
    have hadvance := advance_of_going (d := { d with asked := d.asked ++ [hd.identity] })
      (h := { hd with place := some d.asked.length }) (answer_of_sent hcall) (by simp)
    simp only
    rw [hadvance]
    exact ⟨[], h.sentInFull hzero hsound hsent hcurrent', ⟨_, hemitted.symm⟩, rfl⟩
  | @failed e _ _ hsent hcurrent' hsound =>
    simp only
    rw [advance_of_finished (answer_of_sendFailed hcall)]
    refine ⟨tail, h.finish hsound hsent hcurrent' ?_ nofun, ⟨_, hemitted.symm⟩, rfl⟩
    intro hwhole
    rw [htorn] at hwhole
    cases hwhole

/-! ## After the reply -/

theorem Sound.clean_of_free (h : d.Sound line parent tail) (hfree : line.current = none)
    (htorn : d.outstanding.torn = false) : tail = [] := h.clean (Or.inl htorn) hfree

/-- The call goes on to another stage in which it does not send. -/
theorem Sound.goOn (h : d.Sound line parent tail) (hfree : line.current = none) {hd : Caller}
    {a : StartAnswer} {call : StartCall}
    (hanswer : hd.call.answer d.outstanding a = (d.outstanding, call))
    (hstands : d.Stands { hd with call }) (hcall : call ≠ .sending) :
    (d.advance hd a).Sound line parent tail ∧ (d.advance hd a).consumed = d.consumed := by
  have hgoing : ∀ result, call ≠ .finished result := by
    rintro result rfl
    exact hstands
  rw [advance_of_going hanswer hgoing]
  exact ⟨h.turn hfree hstands hcall (h.clean_of_free hfree), rfl⟩

theorem Sound.goOut (h : d.Sound line parent tail) (hfree : line.current = none) {hd : Caller}
    {a : StartAnswer} {result : Except TreeError StartResult}
    (hanswer : hd.call.answer d.outstanding a = (d.outstanding, .finished result))
    (hresult : ∀ reply, result = .ok reply → d.Owns hd reply) :
    (d.advance hd a).Sound line parent tail ∧ (d.advance hd a).consumed = d.consumed := by
  refine ⟨h.over hfree (h.clean_of_free hfree) hanswer hresult, ?_⟩
  rw [advance_of_finished hanswer]

/-- Fetching, connecting and greeting go on with the call's own reply. -/
theorem sound_settle (h : d.Sound line parent tail) {a : StartAnswer}
    (hmove : d.next? line (.settle a) = some (d', line')) :
    d'.Sound line' parent tail ∧ line' = line ∧ d'.consumed = d.consumed := by
  obtain ⟨hd, request, hholder, hrequest, hsettles, rfl, rfl⟩ := next?_settle_eq_some hmove
  have hstands := h.holder hd hholder
  have hfree := h.free hholder
  obtain ⟨identity, call, place⟩ := hd
  suffices hsound : (d.advance ⟨identity, call, place⟩ a).Sound line' parent tail ∧
      (d.advance ⟨identity, call, place⟩ a).consumed = d.consumed from
    ⟨hsound.1, rfl, hsound.2⟩
  cases call with
  | locking | draining | sending | awaiting =>
    cases hrequest
    cases a <;> cases hsettles
  | fetchingWrite reply =>
    cases hrequest
    cases a with
    | fetched r =>
      cases r with
      | ok u => exact h.goOn (hfree StartCall.noConfusion) rfl hstands StartCall.noConfusion
      | error e => exact h.goOut (hfree StartCall.noConfusion) rfl nofun
    | _ => cases hsettles
  | fetchingRead reply =>
    cases hrequest
    cases a with
    | fetched r =>
      cases r with
      | ok u => exact h.goOn (hfree StartCall.noConfusion) rfl hstands StartCall.noConfusion
      | error e => exact h.goOut (hfree StartCall.noConfusion) rfl nofun
    | _ => cases hsettles
  | connecting reply =>
    cases hrequest
    cases a with
    | connected r =>
      cases r with
      | ok u => exact h.goOn (hfree StartCall.noConfusion) rfl hstands StartCall.noConfusion
      | error e => exact h.goOut (hfree StartCall.noConfusion) rfl nofun
    | _ => cases hsettles
  | greeting reply =>
    cases hrequest
    cases a with
    | sent r =>
      cases r with
      | ok u =>
        refine h.goOut (hfree StartCall.noConfusion) rfl ?_
        rintro reply' hreply
        cases hreply
        exact hstands
      | error e => exact h.goOut (hfree StartCall.noConfusion) rfl nofun
    | _ => cases hsettles
  | finished result => cases hrequest

/-! ## Receiving -/

/-- A reply that is taken off the channel was one of those to come. -/
theorem Sound.consume (h : d.Sound line parent tail) (hfree : line.current = none)
    (hpos : 0 < d.outstanding.unanswered) (reply : StartResult)
    (more : List (Nat × StartResult))
    (hmore : ∀ k reply', (k, reply') ∈ more →
      k < d.asked.length ∧ (d.consumed ++ [reply])[k]? = some reply') :
    ({ d with
      consumed := d.consumed ++ [reply]
      outstanding := { d.outstanding with unanswered := d.outstanding.unanswered - 1 }
      used := d.used ++ more
      holder := none } : Desk).Sound line parent tail := by
  refine ⟨h.wire, h.sent, ?_, ?_, fun _ hd => (nomatch hd), ?_, ?_, ?_, ?_⟩
  · have := h.count
    rw [List.length_append, List.length_singleton]
    simp only
    omega
  · have := h.few
    simp only
    omega
  · exact Line.forall_current_of_free hfree
  · rintro (htorn | ⟨hd, hholder, -⟩)
    · exact h.clean (Or.inl htorn)
    · cases hholder
  · intro k reply' hk
    rcases List.mem_append.mp hk with hk | hk
    · obtain ⟨hlt, hreply⟩ := h.used k reply' hk
      exact ⟨hlt, getElem?_of_prefix (List.prefix_append _ _) hreply⟩
    · exact hmore k reply' hk
  · intro hd hmem reply' hcall
    obtain ⟨k, hplace, hasked, hk⟩ := h.done hd hmem reply' hcall
    exact ⟨k, hplace, hasked, List.mem_append_left _ hk⟩

/-- The reply to an abandoned request: it is passed over, and then the call sends its own. -/
theorem sound_drain (h : d.Sound line parent tail) {hd : Caller} {reply : StartResult}
    (hholder : d.holder = some hd) (hcall : hd.call = .draining) :
    (advance { d with consumed := d.consumed ++ [reply] } hd
      (.received (.ok (.startResult reply)))).Sound line parent tail ∧
    (advance { d with consumed := d.consumed ++ [reply] } hd
      (.received (.ok (.startResult reply)))).consumed = d.consumed ++ [reply] := by
  have hfree := h.free hholder (by rw [hcall]; exact StartCall.noConfusion)
  obtain ⟨hpos, htorn⟩ : 0 < d.outstanding.unanswered ∧ d.outstanding.torn = false := by
    have hstands := h.holder hd hholder
    unfold Stands at hstands
    rw [hcall] at hstands
    exact hstands
  have hsound := h.consume hfree hpos reply [] nofun
  rw [List.append_nil] at hsound
  have hanswer : hd.call.answer d.outstanding (.received (.ok (.startResult reply))) =
      StartCall.next { d.outstanding with unanswered := d.outstanding.unanswered - 1 } := by
    rw [hcall]
    rfl
  rw [advance_of_going (d := { d with consumed := d.consumed ++ [reply] }) hanswer (next_going _)]
  exact ⟨hsound.next hfree htorn hd, rfl⟩

/-- The reply to the call's own request: its place is that of the request. -/
theorem sound_own (h : d.Sound line parent tail) {hd : Caller} {reply : StartResult}
    (hholder : d.holder = some hd) (hcall : hd.call = .awaiting) {d₁ : Desk}
    (hd₁ : d₁ = { d with
      consumed := d.consumed ++ [reply]
      used := d.used ++ (hd.place.map fun place => (place, reply)).toList }) :
    (d₁.advance hd (.received (.ok (.startResult reply)))).Sound line parent tail ∧
      (d₁.advance hd (.received (.ok (.startResult reply)))).consumed =
        d.consumed ++ [reply] := by
  have hfree := h.free hholder (by rw [hcall]; exact StartCall.noConfusion)
  obtain ⟨hone, k, hplace, hasked, hlength⟩ : d.outstanding.unanswered = 1 ∧
      ∃ k, hd.place = some k ∧ d.asked[k]? = some hd.identity ∧ d.asked.length = k + 1 := by
    have hstands := h.holder hd hholder
    unfold Stands at hstands
    rw [hcall] at hstands
    exact hstands
  have hcount := h.count
  have hsound := h.consume hfree (by omega) reply [(k, reply)] (by
    intro k' reply' hk
    rw [List.mem_singleton] at hk
    cases hk
    -- One reply is to come, so as many were taken as there are requests before this one.
    have hk' : k = d.consumed.length := by omega
    refine ⟨by omega, ?_⟩
    rw [hk', List.getElem?_concat_length])
  have hclean := hsound.clean_of_free hfree
  rw [hplace] at hd₁
  have hanswer : hd.call.answer d.outstanding (.received (.ok (.startResult reply))) =
      StartCall.take { d.outstanding with unanswered := d.outstanding.unanswered - 1 } reply := by
    rw [hcall]
    rfl
  have hmem : (k, reply) ∈ d.used ++ [(k, reply)] :=
    List.mem_append_right _ List.mem_cons_self
  have houtstanding : d₁.outstanding = d.outstanding := by rw [hd₁]
  rw [← houtstanding] at hanswer
  unfold StartCall.take at hanswer
  split at hanswer
  · rw [advance_of_finished hanswer]
    subst hd₁
    exact ⟨hsound.finish hsound.wire rfl hfree hclean nofun, rfl⟩
  · rw [advance_of_going hanswer nofun]
    subst hd₁
    exact ⟨hsound.turn hfree ⟨k, hplace, hasked, hmem⟩ StartCall.noConfusion hclean, rfl⟩

/-- A receive takes one reply off the channel, or ends the call. -/
theorem sound_receive {received : Except ChannelError ReplyMessage}
    (h : d.Sound line parent tail) (hmove : d.receive? received = some d') :
    d'.Sound line parent tail ∧
      ((∃ reply, received = .ok (.startResult reply) ∧ d'.consumed = d.consumed ++ [reply]) ∨
        (∃ e, received = .error e ∧ d'.consumed = d.consumed)) := by
  obtain ⟨hd, hholder, hstages⟩ := receive?_eq_some hmove
  rcases hstages with ⟨reply, hcall, rfl, rfl⟩ | ⟨reply, hcall, rfl, rfl⟩ | ⟨e, hcalls, rfl, rfl⟩
  · obtain ⟨hsound, hconsumed⟩ := sound_drain h hholder hcall
    exact ⟨hsound, Or.inl ⟨reply, rfl, hconsumed⟩⟩
  · obtain ⟨hsound, hconsumed⟩ := sound_own h hholder hcall rfl
    exact ⟨hsound, Or.inl ⟨reply, rfl, hconsumed⟩⟩
  · have hfree := h.free hholder (by
      rcases hcalls with hcall | hcall
      · rw [hcall]
        exact StartCall.noConfusion
      · rw [hcall]
        exact StartCall.noConfusion)
    obtain ⟨hsound, hconsumed⟩ := h.goOut hfree (answer_of_receiveFailed hcalls) nofun
    exact ⟨hsound, Or.inr ⟨e, rfl, hconsumed⟩⟩

/-! ## All moves -/

theorem sound_start (parent : Int32) {line : Line ControlMessage}
    (hline : line.Sound Direction.rootToWorker.registry [])
    (hsent : line.sent = [.begin ⟨parent⟩]) (hcurrent : line.current = none) :
    Desk.start.Sound line parent [] := by
  refine ⟨hline, hsent, rfl, Nat.zero_le 1, fun _ hd => (nomatch hd), ?_, fun _ _ => rfl,
    fun _ _ hk => (nomatch hk), fun _ hmem => (nomatch hmem)⟩
  exact Line.forall_current_of_free hcurrent

/-- Every move keeps the invariant, takes nothing back from the wire, and takes no reply. -/
theorem sound_next {move : Move} (h : d.Sound line parent tail)
    (hmove : d.next? line move = some (d', line')) :
    ∃ tail', d'.Sound line' parent tail' ∧ line.emitted <+: line'.emitted ∧
      d'.consumed = d.consumed := by
  cases move with
  | call identity =>
    cases hmove
    exact ⟨tail, ⟨h.wire, h.sent, h.count, h.few, h.holder, h.current, h.clean, h.used, h.done⟩,
      List.prefix_refl _, rfl⟩
  | leave i =>
    cases hmove
    exact ⟨tail, ⟨h.wire, h.sent, h.count, h.few, h.holder, h.current, h.clean, h.used, h.done⟩,
      List.prefix_refl _, rfl⟩
  | grant i =>
    obtain ⟨hsound, rfl, hconsumed⟩ := sound_grant h hmove
    exact ⟨tail, hsound, List.prefix_refl _, hconsumed⟩
  | drop =>
    obtain ⟨hsound, rfl, hconsumed⟩ := sound_drop h hmove
    exact ⟨tail, hsound, List.prefix_refl _, hconsumed⟩
  | expire =>
    obtain ⟨hsound, rfl, hconsumed⟩ := sound_expire h hmove
    exact ⟨tail, hsound, List.prefix_refl _, hconsumed⟩
  | post =>
    obtain ⟨hsound, hemitted, hconsumed⟩ := sound_post h hmove
    rw [← hemitted]
    exact ⟨tail, hsound, List.prefix_refl _, hconsumed⟩
  | write outcome => exact sound_write h hmove
  | settle a =>
    obtain ⟨hsound, rfl, hconsumed⟩ := sound_settle h hmove
    exact ⟨tail, hsound, List.prefix_refl _, hconsumed⟩

end Desk

end ProcessTree
