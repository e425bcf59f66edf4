-- The root's calls and the worker's loop, with the channel between them. Calls
-- come, wait, are cut off at their deadlines or dropped, the worker answers at
-- its own pace, and bytes arrive when they arrive. Still every call that gets
-- past its reply has the reply to its own request.
import ProcessTree.Proofs.Channel.Link
import ProcessTree.Proofs.Worker.Requests
import ProcessTree.Proofs.Worker.Service

namespace ProcessTree

open ProcessTree.Frame

/-- The root's calls, the worker's loop, and both directions of their channel. -/
structure Exchange where
  desk : Desk
  service : Service
  down : Link ControlMessage
  up : Link ReplyMessage

namespace Exchange

/-- The worker was sent its begin, and nothing else has happened yet. -/
def start (parent : Int32) : Exchange where
  desk := .start
  service := .start
  down :=
    ⟨.after Direction.rootToWorker.registry [.begin ⟨parent⟩], 0,
      .start Direction.rootToWorker.registry⟩
  up := .start Direction.workerToRoot.registry

inductive Move where
  | root (move : Desk.Move)
  /-- The call that has its turn receives. -/
  | receive
  | worker (move : Service.Move)
  /-- The worker's loop takes what its channel gives. -/
  | hear
  /-- Something happens on the way to the worker. -/
  | down (carry : Link.Carry)
  /-- Something happens on the way to the root. -/
  | up (carry : Link.Carry)

/-- What a move leads to, where it is possible. -/
def next? (x : Exchange) : Move → Option Exchange
  | .root move => (x.desk.next? x.down.line move).map fun (desk, line) =>
      { x with desk, down := { x.down with line } }
  | .receive => x.up.recv?.bind fun (received, up) =>
      (x.desk.receive? received).map fun desk => { x with desk, up }
  | .worker move => (x.service.next? x.up.line move).map fun (service, line) =>
      { x with service, up := { x.up with line } }
  | .hear => x.down.recv?.bind fun (received, down) =>
      (x.service.hear? received).map fun service => { x with service, down }
  | .down carry => (x.down.carry? carry).map fun down => { x with down }
  | .up carry => (x.up.carry? carry).map fun up => { x with up }

/-- A row of moves. -/
def run? (x : Exchange) : List Move → Option Exchange
  | [] => some x
  | move :: moves => (x.next? move).bind fun x' => x'.run? moves

/-! ## The invariant -/

/-- Both ends are sound, and what one end has taken off the channel is what the other has put on
it. -/
structure Sound (x : Exchange) (parent : Int32) (tail back : Bytes) : Prop where
  desk : x.desk.Sound x.down.line parent tail
  service : x.service.Sound x.up.line back
  down : x.down.Sound Direction.rootToWorker.registry (fun _ => True) tail x.service.heard
  up : x.up.Sound Direction.workerToRoot.registry (fun _ => True) back
    (x.desk.consumed.map .startResult)

theorem sound_start (parent : Int32) : (start parent).Sound parent [] [] := by
  have hline : (start parent).down.line.Sound Direction.rootToWorker.registry [] := by
    refine Line.sound_after ?_
    intro m _
    exact Direction.exists_tag_rootToWorker m
  refine ⟨Desk.sound_start parent hline rfl rfl, Service.sound_start, ?_, Link.sound_start _ _⟩
  exact ⟨hline, rfl, Nat.zero_le _, Inbound.follows_start _ _⟩

variable {x x' : Exchange} {parent : Int32} {tail back : Bytes}

/-- Calls that move on take nothing back from the wire. -/
theorem sound_root (h : x.Sound parent tail back) {move : Desk.Move}
    (hmove : x.next? (.root move) = some x') : ∃ tail', x'.Sound parent tail' back := by
  obtain ⟨⟨desk, line⟩, hdesk, rfl⟩ := Option.map_eq_some_iff.mp hmove
  obtain ⟨tail', hsound, hemitted, hconsumed⟩ := Desk.sound_next h.desk hdesk
  refine ⟨tail', hsound, h.service, h.down.onLine hsound.wire hemitted, ?_⟩
  simp only
  rw [hconsumed]
  exact h.up

/-- A call takes the next of the replies. -/
theorem sound_receive (h : x.Sound parent tail back) (hmove : x.next? .receive = some x') :
    x'.Sound parent tail back := by
  obtain ⟨⟨received, up⟩, hrecv, hmove⟩ := Option.bind_eq_some_iff.mp hmove
  obtain ⟨desk, hdesk, rfl⟩ := Option.map_eq_some_iff.mp hmove
  obtain ⟨hsound, hconsumed⟩ := Desk.sound_receive h.desk hdesk
  rcases h.up.recv hrecv with ⟨m, rfl, -, rfl, hup⟩ | ⟨e, rfl, rfl, -⟩
  · rcases hconsumed with ⟨reply, hm, hconsumed⟩ | ⟨e, he, -⟩
    · cases hm
      refine ⟨hsound, h.service, h.down, ?_⟩
      simp only
      rw [hconsumed, List.map_append]
      exact hup
    · cases he
  · rcases hconsumed with ⟨reply, hm, -⟩ | ⟨e', -, hconsumed⟩
    · cases hm
    · refine ⟨hsound, h.service, h.down, ?_⟩
      simp only
      rw [hconsumed]
      exact h.up

theorem sound_worker (h : x.Sound parent tail back) {move : Service.Move}
    (hmove : x.next? (.worker move) = some x') : ∃ back', x'.Sound parent tail back' := by
  obtain ⟨⟨service, line⟩, hservice, rfl⟩ := Option.map_eq_some_iff.mp hmove
  obtain ⟨back', hsound, hemitted, hheard⟩ := Service.sound_next h.service hservice
  refine ⟨back', h.desk, hsound, ?_, h.up.onLine hsound.wire hemitted⟩
  simp only
  rw [hheard]
  exact h.down

/-- The worker takes the next of the messages. -/
theorem sound_hear (h : x.Sound parent tail back) (hmove : x.next? .hear = some x') :
    x'.Sound parent tail back := by
  obtain ⟨⟨received, down⟩, hrecv, hmove⟩ := Option.bind_eq_some_iff.mp hmove
  obtain ⟨service, hservice, rfl⟩ := Option.map_eq_some_iff.mp hmove
  obtain ⟨hsound, hheard⟩ := Service.sound_hear h.service hservice
  rcases h.down.recv hrecv with ⟨m, rfl, -, rfl, hdown⟩ | ⟨e, rfl, rfl, -⟩
  · refine ⟨h.desk, hsound, ?_, h.up⟩
    simp only
    rw [hheard]
    exact hdown
  · refine ⟨h.desk, hsound, ?_, h.up⟩
    simp only
    rw [hheard]
    exact (List.append_nil x.service.heard).symm ▸ h.down

theorem sound_next {move : Move} (h : x.Sound parent tail back)
    (hmove : x.next? move = some x') : ∃ tail' back', x'.Sound parent tail' back' := by
  cases move with
  | root move =>
    obtain ⟨tail', hsound⟩ := sound_root h hmove
    exact ⟨tail', back, hsound⟩
  | receive => exact ⟨tail, back, sound_receive h hmove⟩
  | worker move =>
    obtain ⟨back', hsound⟩ := sound_worker h hmove
    exact ⟨tail, back', hsound⟩
  | hear => exact ⟨tail, back, sound_hear h hmove⟩
  | down carry =>
    obtain ⟨down, hcarry, rfl⟩ := Option.map_eq_some_iff.mp hmove
    obtain ⟨hdown, hline⟩ := h.down.carry hcarry
    refine ⟨tail, back, ?_, h.service, hdown, h.up⟩
    simp only
    rw [hline]
    exact h.desk
  | up carry =>
    obtain ⟨up, hcarry, rfl⟩ := Option.map_eq_some_iff.mp hmove
    obtain ⟨hup, hline⟩ := h.up.carry hcarry
    refine ⟨tail, back, h.desk, ?_, h.down, hup⟩
    simp only
    rw [hline]
    exact h.service

/-- The invariant carries over a whole run, by induction on its moves. -/
theorem sound_run (moves : List Move) (h : x.Sound parent tail back)
    (hrun : x.run? moves = some x') : ∃ tail' back', x'.Sound parent tail' back' := by
  induction moves generalizing x tail back with
  | nil =>
    cases hrun
    exact ⟨tail, back, h⟩
  | cons move moves ih =>
    obtain ⟨x₁, hmove, hrun⟩ := Option.bind_eq_some_iff.mp hrun
    obtain ⟨tail', back', h'⟩ := sound_next h hmove
    exact ih h' hrun

/-! ## Requests and replies -/

theorem starts_asked (parent : Int32) (asked : List JobIdentity) :
    starts (.begin ⟨parent⟩ :: asked.map fun identity => .start ⟨identity⟩) =
      asked.map Start.mk := by
  unfold starts
  rw [List.filterMap_cons_none rfl, List.filterMap_map]
  exact congrFun (List.filterMap_eq_map (f := Start.mk)) asked

/-- The worker carries out what it was asked for, in that order. -/
theorem Sound.requests_prefix (h : x.Sound parent tail back) :
    x.service.requests <+: x.desk.asked.map Start.mk := by
  have hheard := h.down.received controlMessage_readsBack
  rw [h.desk.sent] at hheard
  have hstarts := starts_prefix ((List.prefix_append _ _).trans hheard)
  rw [starts_asked] at hstarts
  exact h.service.requests_prefix.trans hstarts

/-- The replies that the root took are those that the worker made, in that order. -/
theorem Sound.consumed_prefix (h : x.Sound parent tail back) :
    x.desk.consumed <+: x.service.made.map Prod.snd := by
  have hreceived := h.up.received replyMessage_readsBack
  have hreplies := ((List.prefix_append _ _).trans hreceived).trans h.service.sent_prefix
  have hreplies' : x.desk.consumed.map ReplyMessage.startResult <+:
      (x.service.made.map Prod.snd).map ReplyMessage.startResult := by
    rw [List.map_map]
    exact hreplies
  obtain ⟨results, hprefix, hsame⟩ := List.prefix_map_iff.mp hreplies'
  rw [List.map_inj_right (fun _ _ hm => by cases hm; rfl)] at hsame
  rw [hsame]
  exact hprefix

/-- A reply that was used is what the worker made of the request at its place. -/
theorem Sound.made_of_used (h : x.Sound parent tail back) {k : Nat} {reply : StartResult}
    (hused : (k, reply) ∈ x.desk.used) : ∃ identity, x.desk.asked[k]? = some identity ∧
      x.service.made[k]? = some (⟨identity⟩, reply) := by
  obtain ⟨hlt, hreply⟩ := h.desk.used k reply hused
  have hmade := getElem?_of_prefix h.consumed_prefix hreply
  rw [List.getElem?_map, Option.map_eq_some_iff] at hmade
  obtain ⟨⟨request, reply'⟩, hmade, rfl⟩ := hmade
  have hrequest : x.service.requests[k]? = some request := by
    unfold Service.requests
    rw [List.getElem?_map, hmade]
    rfl
  have hasked := getElem?_of_prefix h.requests_prefix hrequest
  rw [List.getElem?_map, Option.map_eq_some_iff] at hasked
  obtain ⟨identity, hasked, rfl⟩ := hasked
  exact ⟨identity, hasked, hmade⟩

/-- Each call that uses a reply uses what the worker made of the very request that the call sent,
and every reply that a call takes for its own was made of that request. The start requests on the
wire are as many as the replies that were taken and the ones that are to come, of which there is
one at most, and one whenever a call waits for a reply. -/
theorem every_call_uses_the_reply_to_its_own_request (parent : Int32) (moves : List Move)
    (x : Exchange) (hrun : (start parent).run? moves = some x) :
    (∃ tail, parse (M := ControlMessage) Direction.rootToWorker.registry x.down.line.emitted =
      (.begin ⟨parent⟩ :: x.desk.asked.map fun identity => .start ⟨identity⟩, .short tail)) ∧
    x.desk.asked.length = x.desk.consumed.length + x.desk.outstanding.unanswered ∧
    x.desk.outstanding.unanswered ≤ 1 ∧
    (∀ h, x.desk.holder = some h → h.call.request? = some .receive →
      0 < x.desk.outstanding.unanswered) ∧
    (∀ k reply, (k, reply) ∈ x.desk.used → ∃ identity, x.desk.asked[k]? = some identity ∧
      x.service.made[k]? = some (⟨identity⟩, reply)) ∧
    (∀ h reply, x.desk.holder = some h ∨ h ∈ x.desk.done → h.reply? = some reply →
      ∃ k, h.place = some k ∧ x.desk.asked[k]? = some h.identity ∧
        x.service.made[k]? = some (⟨h.identity⟩, reply)) := by
  obtain ⟨tail, back, hsound⟩ := sound_run moves (sound_start parent) hrun
  refine ⟨⟨tail, ?_⟩, hsound.desk.count, hsound.desk.few, ?_, ?_, ?_⟩
  · rw [← hsound.desk.sent]
    exact hsound.down.parse_emitted controlMessage_readsBack
  · intro h hholder hrequest
    exact hsound.desk.pos_of_receive hholder hrequest
  · intro k reply hused
    exact hsound.made_of_used hused
  · intro h reply hh hreply
    obtain ⟨k, hplace, hasked, hused⟩ := hsound.desk.owns hh hreply
    obtain ⟨identity, hasked', hmade⟩ := hsound.made_of_used hused
    rw [hasked] at hasked'
    cases hasked'
    exact ⟨k, hplace, hasked, hmade⟩

/-- The call that has its turn sends its request, which has a payload of `n` bytes. -/
def asking (n : Nat) : List Move :=
  [.root .post, .root (.write (.took 5)), .root (.write (.took n))]

/-- The worker takes a request with a payload of `n` bytes and starts a process, and the root takes
the reply. -/
def answering (n : Nat) (pid : Int32) : List Move :=
  [.down (.read 5), .down (.read n), .down .deliver, .hear, .worker (.make (.ok ⟨3, 4, pid⟩)),
    .worker .post, .worker (.write (.took 5)), .worker (.write (.took 25)), .up (.read 5),
    .up (.read 25), .up .deliver, .receive]

/-- A call comes to its deadline before the worker has become root; the next call finds the reply
to the request of the first. -/
def lateReply : List Move :=
  List.flatten [
    [.root (.call .mapRoot), .root (.grant 0)],
    asking 19,
    [.root .expire, .root (.call .shared), .root (.grant 0), .down (.read 5), .down (.read 9),
      .down .deliver, .hear, .worker (.assume (.ok ()))],
    answering 19 11,
    asking 17,
    answering 17 12]

theorem a_late_reply_is_passed_over :
    ∃ x, (start 7).run? lateReply = some x ∧ x.desk.used = [(1, ⟨3, 4, 12⟩)] ∧
      x.service.made[1]? = some (⟨.shared⟩, ⟨3, 4, 12⟩) := by
  have hrun : ((start 7).run? lateReply).map (fun x => (x.desk.used, x.desk.asked)) =
      some ([(1, ⟨3, 4, 12⟩)], [.mapRoot, .shared]) := by decide +kernel
  obtain ⟨x, hx, hfound⟩ := Option.map_eq_some_iff.mp hrun
  obtain ⟨hused, hasked⟩ := Prod.mk.injEq .. ▸ hfound
  obtain ⟨-, -, -, -, hmade, -⟩ := every_call_uses_the_reply_to_its_own_request 7 lateReply x hx
  obtain ⟨identity, hidentity, hmade⟩ := hmade 1 ⟨3, 4, 12⟩ (by rw [hused]; exact List.mem_cons_self)
  rw [hasked] at hidentity
  cases hidentity
  exact ⟨x, hx, hused, hmade⟩

end Exchange

end ProcessTree
