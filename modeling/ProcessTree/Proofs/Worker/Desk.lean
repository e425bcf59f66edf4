-- The root's side of start requests. Calls come at any time and wait for their
-- turn; the one that has its turn may come to its deadline or be dropped
-- wherever it waits.
import ProcessTree.Proofs.Channel.Line
import ProcessTree.Worker.StartCall

namespace ProcessTree

/-! ## Calls -/

/-- A call that got its turn. -/
structure Caller where
  identity : JobIdentity
  call : StartCall
  /-- The place of its own request among all that were written in full, once it is. -/
  place : Option Nat

/-- The reply that a call uses, once it has got past it. -/
def Caller.reply? (h : Caller) : Option StartResult :=
  match h.call with
  | .fetchingWrite reply | .fetchingRead reply | .connecting reply | .greeting reply => some reply
  | .finished (.ok reply) => some reply
  | _ => none

/-- The calls at a worker, and what has become of their requests. -/
structure Desk where
  outstanding : Outstanding
  /-- The calls that wait for their turn, by what they want to start. -/
  waiting : List JobIdentity
  holder : Option Caller
  /-- The requests that were written in full, by what they want to start. -/
  asked : List JobIdentity
  /-- The replies that were taken off the channel. -/
  consumed : List StartResult
  /-- The replies that calls took for their own, each with the place of the call's request. -/
  used : List (Nat × StartResult)
  /-- The calls that are over. -/
  done : List Caller

namespace Desk

/-- Nobody has called yet. -/
def start : Desk := ⟨.start, [], none, [], [], [], []⟩

/-- What happens to the calls, but for replies. -/
inductive Move where
  | call (identity : JobIdentity)
  /-- A call that waits for its turn is dropped. -/
  | leave (i : Nat)
  /-- A call that waits gets its turn. -/
  | grant (i : Nat)
  /-- The call that has its turn is dropped. -/
  | drop
  /-- The call that has its turn comes to its deadline. -/
  | expire
  /-- The send of the request begins. -/
  | post
  /-- A write call of the send. -/
  | write (outcome : WriteOutcome)
  /-- Something is fetched from the worker, connected, or sent to the job. -/
  | settle (answer : StartAnswer)

/-- The call that has its turn goes on with an answer; one that is over gives its turn back. -/
def advance (d : Desk) (h : Caller) (a : StartAnswer) : Desk :=
  match h.call.answer d.outstanding a with
  | (outstanding, .finished result) =>
    { d with outstanding, holder := none, done := d.done ++ [{ h with call := .finished result }] }
  | (outstanding, call) => { d with outstanding, holder := some { h with call } }

/-- Whether an answer is one to a request that a call makes when it has its reply. -/
def settles : StartRequest → StartAnswer → Bool
  | .fetch _, .fetched _ | .connect, .connected _ | .greet, .sent _ => true
  | _, _ => false

/-- What a move leads to, where it is possible; `line` is the channel to the worker. A send that is
cut off leaves on the wire what it has written. -/
def next? (d : Desk) (line : Line ControlMessage) : Move → Option (Desk × Line ControlMessage)
  | .call identity => some ({ d with waiting := d.waiting ++ [identity] }, line)
  | .leave i => some ({ d with waiting := d.waiting.eraseIdx i }, line)
  | .grant i =>
    match d.holder, d.waiting[i]? with
    | none, some identity =>
      some (advance { d with waiting := d.waiting.eraseIdx i } ⟨identity, .locking, none⟩ .granted,
        line)
    | _, _ => none
  | .drop =>
    match d.holder with
    | none => none
    | some _ => some ({ d with holder := none }, line.abandon)
  | .expire =>
    match d.holder with
    | none => none
    | some h =>
      match h.call with
      | .draining | .sending | .awaiting => some (d.advance h .expired, line.abandon)
      | _ => none
  | .post =>
    match d.holder with
    | none => none
    | some h =>
      match h.call, line.send? (ControlMessage.start ⟨h.identity⟩) with
      | .sending, some (none, line) => some (d, line)
      | .sending, some (some e, line) => some (d.advance h (.sent (.error e)), line)
      | _, _ => none
  | .write outcome =>
    match d.holder with
    | none => none
    | some h =>
      match line.write? outcome with
      | none => none
      | some (none, line) => some (d, line)
      | some (some (.error e), line) => some (d.advance h (.sent (.error e)), line)
      | some (some (.ok ()), line) =>
        some (advance { d with asked := d.asked ++ [h.identity] }
          { h with place := some d.asked.length } (.sent (.ok ())), line)
  | .settle answer =>
    match d.holder with
    | none => none
    | some h =>
      match h.call.request? with
      | none => none
      | some request => if settles request answer then some (d.advance h answer, line) else none

/-- The call that has its turn receives from the worker. -/
def receive? (d : Desk) (received : Except ChannelError ReplyMessage) : Option Desk :=
  match d.holder with
  | none => none
  | some h =>
    match h.call, received with
    | .draining, .ok (.startResult reply) =>
      some (advance { d with consumed := d.consumed ++ [reply] } h (.received received))
    | .awaiting, .ok (.startResult reply) =>
      some (advance { d with
        consumed := d.consumed ++ [reply]
        used := d.used ++ (h.place.map fun place => (place, reply)).toList } h (.received received))
    | .draining, .error _ | .awaiting, .error _ => some (d.advance h (.received received))
    | _, _ => none

/-! ## Answers -/

section Answers

variable {o : Outstanding} {call : StartCall} {e : ChannelError}

theorem answer_of_sent (hcall : call = .sending) :
    call.answer o (.sent (.ok ())) = (⟨o.unanswered + 1, false⟩, .awaiting) := by
  rw [hcall]
  rfl

/-- A send that fails leaves the requests torn. -/
theorem answer_of_sendFailed (hcall : call = .sending) :
    call.answer o (.sent (.error e)) = (o, .finished (.error (.channel e))) := by
  rw [hcall]
  rfl

theorem answer_of_receiveFailed (hcall : call = .draining ∨ call = .awaiting) :
    call.answer o (.received (.error e)) = (o, .finished (.error (.channel e))) := by
  rcases hcall with rfl | rfl
  · rfl
  · rfl

end Answers

theorem advance_of_finished {d : Desk} {h : Caller} {a : StartAnswer} {o : Outstanding}
    {result : Except TreeError StartResult}
    (hanswer : h.call.answer d.outstanding a = (o, .finished result)) :
    d.advance h a =
      { d with
        outstanding := o
        holder := none
        done := d.done ++ [{ h with call := .finished result }] } := by
  unfold advance
  rw [hanswer]

theorem advance_of_going {d : Desk} {h : Caller} {a : StartAnswer} {o : Outstanding}
    {call : StartCall} (hanswer : h.call.answer d.outstanding a = (o, call))
    (hgoing : ∀ result, call ≠ .finished result) :
    d.advance h a = { d with outstanding := o, holder := some { h with call } } := by
  unfold advance
  rw [hanswer]
  split
  · rename_i o' result heq
    cases heq
    exact absurd rfl (hgoing result)
  · rename_i o' call' _ heq
    cases heq
    rfl

/-! ## What a move does -/

section Moving

variable {d d' : Desk} {line line' : Line ControlMessage}

theorem next?_grant_eq_some {i : Nat} (hmove : d.next? line (.grant i) = some (d', line')) :
    ∃ identity, d.holder = none ∧ line' = line ∧
      d' = advance { d with waiting := d.waiting.eraseIdx i } ⟨identity, .locking, none⟩
        .granted := by
  simp only [next?] at hmove
  split at hmove
  · rename_i identity hholder hwaiting
    cases hmove
    exact ⟨identity, hholder, rfl, rfl⟩
  · cases hmove

theorem next?_drop_eq_some (hmove : d.next? line .drop = some (d', line')) :
    d' = { d with holder := none } ∧ line' = line.abandon := by
  simp only [next?] at hmove
  split at hmove
  · cases hmove
  · cases hmove
    exact ⟨rfl, rfl⟩

/-- Only a call that receives from the worker, or sends to it, has a deadline. -/
theorem next?_expire_eq_some (hmove : d.next? line .expire = some (d', line')) :
    ∃ hd, d.holder = some hd ∧ d' = d.advance hd .expired ∧ line' = line.abandon ∧
      hd.call.answer d.outstanding .expired =
        (d.outstanding, .finished (.error (.process .deadlineExceeded))) := by
  simp only [next?] at hmove
  split at hmove
  · cases hmove
  · rename_i hd hholder
    obtain ⟨identity, call, place⟩ := hd
    cases call with
    | draining | sending | awaiting =>
      cases hmove
      exact ⟨_, hholder, rfl, rfl, rfl⟩
    | _ => cases hmove

theorem next?_post_eq_some (hmove : d.next? line .post = some (d', line')) :
    ∃ hd answer, d.holder = some hd ∧ hd.call = .sending ∧
      line.send? (ControlMessage.start ⟨hd.identity⟩) = some (answer, line') ∧
      d' = match answer with
        | none => d
        | some e => d.advance hd (.sent (.error e)) := by
  simp only [next?] at hmove
  split at hmove
  · cases hmove
  · rename_i hd hholder
    split at hmove
    · rename_i line₁ hcall hsend
      cases hmove
      exact ⟨hd, none, hholder, hcall, hsend, rfl⟩
    · rename_i e line₁ hcall hsend
      cases hmove
      exact ⟨hd, some e, hholder, hcall, hsend, rfl⟩
    · cases hmove

theorem next?_write_eq_some {outcome : WriteOutcome}
    (hmove : d.next? line (.write outcome) = some (d', line')) :
    ∃ hd answer, d.holder = some hd ∧ line.write? outcome = some (answer, line') ∧
      d' = match answer with
        | none => d
        | some (.error e) => d.advance hd (.sent (.error e))
        | some (.ok ()) => advance { d with asked := d.asked ++ [hd.identity] }
            { hd with place := some d.asked.length } (.sent (.ok ())) := by
  simp only [next?] at hmove
  split at hmove
  · cases hmove
  · rename_i hd hholder
    split at hmove
    · cases hmove
    · rename_i line₁ hwrite
      cases hmove
      exact ⟨hd, none, hholder, hwrite, rfl⟩
    · rename_i e line₁ hwrite
      cases hmove
      exact ⟨hd, some (.error e), hholder, hwrite, rfl⟩
    · rename_i line₁ hwrite
      cases hmove
      exact ⟨hd, some (.ok ()), hholder, hwrite, rfl⟩

theorem next?_settle_eq_some {a : StartAnswer}
    (hmove : d.next? line (.settle a) = some (d', line')) :
    ∃ hd request, d.holder = some hd ∧ hd.call.request? = some request ∧
      settles request a = true ∧ d' = d.advance hd a ∧ line' = line := by
  simp only [next?] at hmove
  split at hmove
  · cases hmove
  · rename_i hd hholder
    split at hmove
    · cases hmove
    · rename_i request hrequest
      split at hmove
      · rename_i hsettles
        cases hmove
        exact ⟨hd, request, hholder, hrequest, hsettles, rfl, rfl⟩
      · cases hmove

/-- The reply to an abandoned request, or to the call's own, or an error that ends the call. -/
theorem receive?_eq_some {received : Except ChannelError ReplyMessage}
    (hmove : d.receive? received = some d') :
    ∃ hd, d.holder = some hd ∧
      ((∃ reply, hd.call = .draining ∧ received = .ok (.startResult reply) ∧
          d' = advance { d with consumed := d.consumed ++ [reply] } hd (.received received)) ∨
        (∃ reply, hd.call = .awaiting ∧ received = .ok (.startResult reply) ∧
          d' = advance { d with
            consumed := d.consumed ++ [reply]
            used := d.used ++ (hd.place.map fun place => (place, reply)).toList } hd
              (.received received)) ∨
        ∃ e, (hd.call = .draining ∨ hd.call = .awaiting) ∧ received = .error e ∧
          d' = d.advance hd (.received received)) := by
  unfold receive? at hmove
  split at hmove
  · cases hmove
  · rename_i hd hholder
    refine ⟨hd, hholder, ?_⟩
    split at hmove
    · rename_i reply hcall
      cases hmove
      exact Or.inl ⟨reply, hcall, rfl, rfl⟩
    · rename_i reply hcall
      cases hmove
      exact Or.inr (Or.inl ⟨reply, hcall, rfl, rfl⟩)
    · rename_i e hcall
      cases hmove
      exact Or.inr (Or.inr ⟨e, Or.inl hcall, rfl, rfl⟩)
    · rename_i e hcall
      cases hmove
      exact Or.inr (Or.inr ⟨e, Or.inr hcall, rfl, rfl⟩)
    · cases hmove

end Moving

end Desk

end ProcessTree
