-- A root and its worker up to the end: start calls that may be abandoned, then
-- quit, and the root closes its channel while the worker is wherever it is in its
-- loop. Jobs start, and pipes do what pipes do: what is written to one that
-- nobody reads is refused, and one that nobody writes comes to its end.
import ProcessTree.Proofs.Worker.Exchange

namespace ProcessTree

/-! ## Moves -/

/-- How far a root has come with closing its worker. -/
inductive Dismissal.Stage where
  | serving
  /-- The worker is closed, and quit is sent next. -/
  | parting
  | quitting
  | closed
  deriving DecidableEq

/-- A root and its worker. -/
structure Dismissal where
  exchange : Exchange
  stage : Dismissal.Stage

namespace Dismissal

inductive Move where
  /-- The calls, the worker or the channel go on. -/
  | serve (move : Exchange.Move)
  /-- The root closes its worker, while no call is under way and no request is cut off. -/
  | part
  | quit
  /-- A write call of the send of quit. -/
  | write (outcome : WriteOutcome)
  /-- The send of quit is over or cut off, and the root closes its channel. -/
  | shut

/-- The worker was sent its begin, and nothing else has happened yet. -/
def start (parent : Int32) : Dismissal := ⟨.start parent, .serving⟩

/-- What can happen when jobs start and the worker becomes root. A pipe takes what is written to it
as long as its other end is held, and ends when its other end is closed and all was read. -/
def admits (x : Dismissal) : Exchange.Move → Bool
  | .root _ | .receive => x.stage = .serving
  | .up _ => x.stage ≠ .closed
  | .worker (.assume r) => r.toOption.isSome
  | .worker (.make r) => r.toOption.isSome
  | .worker (.write (.took n)) => x.stage ≠ .closed ∧ 0 < n
  | .worker (.write (.failed failure)) => x.stage = .closed ∧ failure = .system .brokenPipe
  | .down (.lose e) =>
    x.stage = .closed ∧ e = .channelClosed ∧
      x.exchange.down.taken = x.exchange.down.line.emitted.length
  | .worker (.signal _) | .worker .post | .worker .close | .hear | .down (.read _)
  | .down .deliver => true

/-- The same channel with another line, at another stage. -/
def onLine (x : Dismissal) (stage : Stage) (line : Line ControlMessage) : Dismissal :=
  { x with stage, exchange.down.line := line }

/-- Whether all frames on the line are complete. -/
def isWhole (line : Line ControlMessage) : Bool :=
  line.emitted == line.sent.flatMap (Message.wire Direction.rootToWorker.registry)

def next? (x : Dismissal) : Move → Option Dismissal
  | .serve move =>
    if x.admits move then (x.exchange.next? move).map fun exchange => { x with exchange } else none
  | .part =>
    if x.stage = .serving ∧ x.exchange.desk.holder.isNone ∧ x.exchange.desk.waiting = [] ∧
        isWhole x.exchange.down.line then
      some { x with stage := .parting }
    else none
  | .quit =>
    if x.stage = .parting then
      (x.exchange.down.line.send? .quit).map fun (_, line) => x.onLine .quitting line
    else none
  | .write outcome =>
    if x.stage = .quitting then
      (x.exchange.down.line.write? outcome).map fun (_, line) => x.onLine .quitting line
    else none
  | .shut =>
    if x.stage = .parting ∨ x.stage = .quitting then
      some (x.onLine .closed { x.exchange.down.line.abandon with
        outbound := x.exchange.down.line.outbound.close })
    else none

/-- A row of moves. -/
def run? (x : Dismissal) : List Move → Option Dismissal
  | [] => some x
  | move :: moves => (x.next? move).bind fun x' => x'.run? moves

/-! ## The invariant -/

/-- What a worker ends with whose reply nobody reads. -/
def unread : ReentryError := .channel (.io (.system .brokenPipe))

/-- The root has closed its channel before it took all replies. -/
def Owes (x : Dismissal) : Prop :=
  x.stage = .closed ∧ x.exchange.desk.consumed.length < x.exchange.desk.asked.length

/-- A worker's loop that can send, and that is over for no other reason than a reply that was
`owed`. -/
def Behaves (s : Service) (line : Line ReplyMessage) (owed : Prop) : Prop :=
  match s.loop.stage with
  | .awaiting => line.outbound.isOpen = true ∧ (s.heard = [] → s.loop.privileged = false)
  | .assuming | .starting _ | .replying _ => line.outbound.isOpen = true ∧ s.heard ≠ []
  | .leaving result | .ended result => result = .ok () ∨ (result = .error unread ∧ owed)

/-- The messages that were sent before quit. -/
def spoken (x : Dismissal) (parent : Int32) : List ControlMessage :=
  .begin ⟨parent⟩ :: x.exchange.desk.asked.map fun identity => .start ⟨identity⟩

/-- What the root has sent at each stage. -/
def StandsAt (x : Dismissal) (parent : Int32) (tail : Bytes) : Stage → Prop
  | .serving => x.exchange.desk.Sound x.exchange.down.line parent tail
  | .parting =>
    x.exchange.down.line.sent = x.spoken parent ∧ x.exchange.down.line.current = none ∧ tail = []
  | .quitting =>
    (∀ m s, x.exchange.down.line.current = some (m, s) →
      m = .quit ∧ x.exchange.down.line.sent = x.spoken parent) ∧
      (x.exchange.down.line.sent = x.spoken parent ∨
        x.exchange.down.line.sent = x.spoken parent ++ [.quit])
  | .closed =>
    x.exchange.down.line.sent = x.spoken parent ∨
      x.exchange.down.line.sent = x.spoken parent ++ [.quit]

structure Sound (x : Dismissal) (parent : Int32) (tail back : Bytes) : Prop where
  service : x.exchange.service.Sound x.exchange.up.line back
  down : x.exchange.down.Sound Direction.rootToWorker.registry (· = .channelClosed) tail
    x.exchange.service.heard
  up : x.exchange.up.Sound Direction.workerToRoot.registry (fun _ => True) back
    (x.exchange.desk.consumed.map .startResult)
  count : x.exchange.desk.asked.length =
    x.exchange.desk.consumed.length + x.exchange.desk.outstanding.unanswered
  stands : x.StandsAt parent tail x.stage
  behaves : Behaves x.exchange.service x.exchange.up.line x.Owes

variable {x x' : Dismissal} {parent : Int32} {tail back : Bytes} {exchange : Exchange}

theorem sound_start (parent : Int32) : (start parent).Sound parent [] [] := by
  have h := Exchange.sound_start parent
  refine ⟨h.service, ⟨h.down.line, rfl, Nat.zero_le _, Inbound.follows_start _ _⟩, h.up,
    h.desk.count, h.desk, ?_⟩
  exact ⟨rfl, fun _ => rfl⟩

theorem Sound.standsAt (h : x.Sound parent tail back) {stage : Stage} (hstage : x.stage = stage) :
    x.StandsAt parent tail stage := hstage ▸ h.stands

theorem Sound.sent (h : x.Sound parent tail back) :
    x.exchange.down.line.sent <+: x.spoken parent ++ [.quit] := by
  have hsaid : x.exchange.down.line.sent = x.spoken parent ∨
      x.exchange.down.line.sent = x.spoken parent ++ [.quit] := by
    cases hstage : x.stage with
    | serving => exact Or.inl (h.standsAt hstage).sent
    | parting => exact Or.inl (h.standsAt hstage).1
    | quitting => exact (h.standsAt hstage).2
    | closed => exact h.standsAt hstage
  rcases hsaid with hsaid | hsaid
  · rw [hsaid]
    exact List.prefix_append _ _
  · rw [hsaid]

/-- What the worker has heard or is about to hear is what the root says, in that order. -/
theorem Sound.heard (h : x.Sound parent tail back) :
    x.exchange.service.heard ++ x.exchange.down.inbound.ahead <+: x.spoken parent ++ [.quit] :=
  (h.down.received controlMessage_readsBack).trans h.sent

theorem Behaves.mono {s : Service} {line : Line ReplyMessage} {owed owed' : Prop}
    (h : Behaves s line owed) (himp : owed → owed') : Behaves s line owed' := by
  unfold Behaves at h ⊢
  cases hstage : s.loop.stage with
  | awaiting | assuming | starting _ | replying _ =>
    rw [hstage] at h
    exact h
  | leaving result | ended result =>
    rw [hstage] at h
    exact h.imp_right (And.imp_right himp)

/-! ## The worker's loop -/

section Worker

variable {s s' : Service} {line line' : Line ReplyMessage} {owed : Prop}

/-- A loop that leaves for a good reason. -/
theorem behaves_of_leave (hrole : s.loop.role = .worker) (heard : List ControlMessage) :
    Behaves { s with loop := s.loop.leave (.ok ()), heard } line owed := by
  unfold Behaves
  rw [show ({ s with loop := s.loop.leave (.ok ()), heard } : Service).loop.stage = _ from
    (Service.stage_leave s.loop hrole (.ok ())).1]
  exact Or.inl rfl

theorem behaves_signal (hrole : s.loop.role = .worker) {signal : Signal}
    (hmove : s.next? line (.signal signal) = some (s', line')) : Behaves s' line' owed := by
  obtain ⟨-, rfl, rfl⟩ := Service.next?_signal_eq_some hmove
  exact behaves_of_leave hrole s.heard

theorem behaves_assume (h : Behaves s line owed) {r : Except Errno Unit}
    (hr : r.toOption.isSome = true) (hmove : s.next? line (.assume r) = some (s', line')) :
    Behaves s' line' owed := by
  obtain ⟨hstage, rfl, rfl⟩ := Service.next?_assume_eq_some hmove
  unfold Behaves at h
  rw [hstage] at h
  cases r with
  | error e => cases hr
  | ok u => exact ⟨h.1, fun hnil => absurd hnil h.2⟩

theorem behaves_make (h : Behaves s line owed) {r : Except ReentryError StartResult}
    (hr : r.toOption.isSome = true) (hmove : s.next? line (.make r) = some (s', line')) :
    Behaves s' line' owed := by
  obtain ⟨request, hstage, rfl, rfl⟩ := Service.next?_make_eq_some hmove
  unfold Behaves at h
  rw [hstage] at h
  cases r with
  | error e => cases hr
  | ok result => exact h

/-- On an open line a reply is not refused. -/
theorem behaves_post (hsound : s.Sound line back) (h : Behaves s line owed)
    (hmove : s.next? line .post = some (s', line')) : Behaves s' line' owed := by
  obtain ⟨result, answer, hstage, hsend, rfl⟩ := Service.next?_post_eq_some hmove
  unfold Behaves at h
  rw [hstage] at h
  obtain ⟨sending, -, -, hsend'⟩ :=
    hsound.wire.send?_of_registered replyMessage_readsBack h.1
      (Direction.tagOf?_workerToRoot (.startResult result))
  rw [hsend] at hsend'
  split at hsend'
  · cases hsend'
  · cases hsend'
    unfold Behaves
    rw [hstage]
    exact h

theorem behaves_write (hsound : s.Sound line back) (h : Behaves s line owed)
    {outcome : WriteOutcome} (hmove : s.next? line (.write outcome) = some (s', line'))
    (herror : ∀ e, outcome.error? = some e → e = .io (.system .brokenPipe) ∧
      ((∃ result, s.loop.stage = .replying result) → owed)) :
    Behaves s' line' owed := by
  obtain ⟨r, hwrite, rfl⟩ := Service.next?_write_eq_some hmove
  obtain ⟨m, sending, hcurrent⟩ := Line.current_of_write? hwrite
  obtain ⟨result, hstage⟩ := hsound.stage_of_current hcurrent
  unfold Behaves at h
  rw [hstage] at h
  cases hsound.wire.write hcurrent hwrite with
  | part _ houtbound _ _ _ =>
    unfold Behaves
    simp only [Option.map_none, Option.getD_none, hstage, houtbound]
    exact h
  | whole _ houtbound _ _ _ =>
    unfold Behaves
    simp only [Option.map_some, Option.getD_some, Service.answer, RoleLoop.onReplied, houtbound]
    exact ⟨h.1, fun hnil => absurd hnil h.2⟩
  | @failed e hfailed _ _ _ _ =>
    obtain ⟨rfl, howed⟩ := herror e hfailed
    unfold Behaves
    simp only [Option.map_some, Option.getD_some, Service.answer, RoleLoop.onReplied,
      (Service.stage_leave s.loop hsound.role _).1]
    exact Or.inr ⟨rfl, howed ⟨result, hstage⟩⟩

theorem behaves_close (h : Behaves s line owed)
    (hmove : s.next? line .close = some (s', line')) : Behaves s' line' owed := by
  obtain ⟨result, hstage, rfl, rfl⟩ := Service.next?_close_eq_some hmove
  unfold Behaves at h ⊢
  rw [hstage] at h
  simp only [RoleLoop.onJobsClosed, hstage]
  exact h

/-- What follows on a begin that was heard is a start or a quit. -/
theorem behaves_hear (parent : Int32) (asked : List JobIdentity) (hrole : s.loop.role = .worker)
    (h : Behaves s line owed) {received : Except ChannelError ControlMessage}
    (hmove : s.hear? received = some s')
    (hmessage : ∀ m, received = .ok m → s.heard ++ [m] <+:
      .begin ⟨parent⟩ :: (asked.map fun identity => .start ⟨identity⟩) ++ [.quit])
    (herror : ∀ e, received = .error e → e = .channelClosed) : Behaves s' line owed := by
  obtain ⟨hstage, rfl⟩ := Service.hear?_eq_some hmove
  unfold Behaves at h
  rw [hstage] at h
  cases received with
  | error e =>
    obtain rfl := herror e rfl
    exact behaves_of_leave hrole _
  | ok m =>
    have hprefix := hmessage m rfl
    cases m with
    | quit => exact behaves_of_leave hrole _
    | start body =>
      unfold Behaves Machine.eventOf RoleLoop.onEvent
      simp only
      rw [if_pos hrole]
      exact ⟨h.1, by simp [Except.toOption]⟩
    | begin body =>
      -- A begin comes first or not at all, and before it the worker is no root.
      have hnil : s.heard = [] := by
        cases hheard : s.heard with
        | nil => rfl
        | cons first rest =>
          rw [hheard] at hprefix
          obtain ⟨-, hrest⟩ := List.cons_prefix_cons.mp hprefix
          have hmem := hrest.subset (List.mem_append_right _ (List.mem_singleton.mpr rfl))
          simp at hmem
      unfold Behaves Machine.eventOf RoleLoop.onEvent
      simp only
      rw [if_pos (by simp [RoleLoop.takesBegin, hrole, h.2 hnil])]
      exact ⟨h.1, by simp [Except.toOption]⟩

end Worker

/-! ## The root -/

/-- While the root serves it owes nothing. -/
theorem Sound.unowed (h : x.Sound parent tail back) (hstage : x.stage ≠ .closed) (owed : Prop) :
    Behaves x.exchange.service x.exchange.up.line owed :=
  h.behaves.mono fun howes => absurd howes.1 hstage

theorem Sound.serving (h : x.Sound parent tail back) (hstage : x.stage = .serving) :
    x.exchange.Sound parent tail back :=
  ⟨h.standsAt hstage, h.service, h.down.mono fun _ _ => trivial, h.up⟩

theorem sound_root (h : x.Sound parent tail back) (hstage : x.stage = .serving)
    {move : Desk.Move} (hmove : x.exchange.next? (.root move) = some exchange) :
    ∃ tail', ({ x with exchange } : Dismissal).Sound parent tail' back := by
  obtain ⟨⟨desk, line⟩, hdesk, rfl⟩ := Option.map_eq_some_iff.mp hmove
  obtain ⟨tail', hsound, hemitted, hconsumed⟩ := Desk.sound_next (h.standsAt hstage) hdesk
  refine ⟨tail', h.service, h.down.onLine hsound.wire hemitted, ?_, hsound.count, ?_,
    h.unowed (by simp [hstage]) _⟩
  · simp only
    rw [hconsumed]
    exact h.up
  · simp only [hstage]
    exact hsound

theorem sound_receive (h : x.Sound parent tail back) (hstage : x.stage = .serving)
    (hmove : x.exchange.next? .receive = some exchange) :
    ({ x with exchange } : Dismissal).Sound parent tail back := by
  have h' := Exchange.sound_receive (h.serving hstage) hmove
  obtain ⟨⟨received, up⟩, hrecv, hmove⟩ := Option.bind_eq_some_iff.mp hmove
  obtain ⟨desk, hdesk, rfl⟩ := Option.map_eq_some_iff.mp hmove
  have hline : up.line = x.exchange.up.line := by
    rcases h.up.recv hrecv with ⟨m, -, -, rfl, -⟩ | ⟨e, -, rfl, -⟩
    · rfl
    · rfl
  refine ⟨h'.service, h.down, h'.up, h'.desk.count, ?_, ?_⟩
  · simp only [hstage]
    exact h'.desk
  · simp only [hline]
    exact h.unowed (by simp [hstage]) _

theorem sound_part (h : x.Sound parent tail back) (hmove : x.next? .part = some x') :
    x'.Sound parent tail back := by
  simp only [next?] at hmove
  split at hmove
  · rename_i hguard
    cases hmove
    obtain ⟨hstage, hnone, -, hwhole⟩ := hguard
    have hdesk : x.exchange.desk.Sound x.exchange.down.line parent tail := h.standsAt hstage
    have hfree : x.exchange.down.line.current = none := by
      apply hdesk.idle
      rintro ⟨hd, hhd, -⟩
      rw [hhd] at hnone
      cases hnone
    have htail : tail = [] := by
      have hemitted := hdesk.wire.emitted
      rw [beq_iff_eq.mp hwhole] at hemitted
      exact List.append_right_eq_self.mp hemitted.symm
    exact ⟨h.service, h.down, h.up, h.count, ⟨hdesk.sent, hfree, htail⟩,
      h.unowed (by simp [hstage]) _⟩
  · cases hmove

/-- The root goes on with its line at another stage. -/
theorem Sound.onLine (h : x.Sound parent tail back) {stage : Stage} {line : Line ControlMessage}
    {tail' : Bytes} (hstage : x.stage ≠ .closed)
    (hline : line.Sound Direction.rootToWorker.registry tail')
    (hmore : x.exchange.down.line.emitted <+: line.emitted)
    (hstands : (x.onLine stage line).StandsAt parent tail' stage) :
    (x.onLine stage line).Sound parent tail' back :=
  ⟨h.service, h.down.onLine hline hmore, h.up, h.count, hstands, h.unowed hstage _⟩

theorem sound_quit (h : x.Sound parent tail back) (hmove : x.next? .quit = some x') :
    x'.Sound parent tail back := by
  simp only [next?] at hmove
  split at hmove
  · rename_i hstage
    obtain ⟨⟨refused, line⟩, hsend, rfl⟩ := Option.map_eq_some_iff.mp hmove
    obtain ⟨hsent, hfree, rfl⟩ := h.standsAt hstage
    rcases Line.send?_eq_some hsend with ⟨e, rfl, rfl, -⟩ | ⟨rfl, -, hopen, s, hframe, rfl⟩
    · refine h.onLine (by simp [hstage]) h.down.line (List.prefix_refl _) ⟨?_, Or.inl hsent⟩
      exact Line.forall_current_of_free hfree
    · refine h.onLine (by simp [hstage]) (h.down.line.send hopen hframe) (List.prefix_refl _)
        ⟨?_, Or.inl hsent⟩
      intro m s' hm
      cases hm
      exact ⟨rfl, hsent⟩
  · cases hmove

theorem sound_write (h : x.Sound parent tail back) {outcome : WriteOutcome}
    (hmove : x.next? (.write outcome) = some x') : ∃ tail', x'.Sound parent tail' back := by
  simp only [next?] at hmove
  split at hmove
  · rename_i hstage
    obtain ⟨⟨answer, line⟩, hwrite, rfl⟩ := Option.map_eq_some_iff.mp hmove
    obtain ⟨hcurrent, -⟩ := h.standsAt hstage
    obtain ⟨m, s, hm⟩ := Line.current_of_write? hwrite
    obtain ⟨rfl, hsent⟩ := hcurrent m s hm
    have hmore : x.exchange.down.line.emitted <+: line.emitted :=
      ⟨_, (Line.write?_emitted hm hwrite).symm⟩
    have hgoing : x.stage ≠ .closed := by simp [hstage]
    cases h.down.line.write hm hwrite with
    | part _ _ hsent' hcurrent' hline =>
      refine ⟨_, h.onLine hgoing hline hmore ⟨?_, Or.inl (hsent'.trans hsent)⟩⟩
      intro m' s' hm'
      rw [show (x.onLine .quitting line).exchange.down.line = line from rfl, hcurrent'] at hm'
      cases hm'
      exact ⟨rfl, hsent'.trans hsent⟩
    | whole _ _ hsent' hcurrent' hline =>
      refine ⟨_, h.onLine hgoing hline hmore ⟨Line.forall_current_of_free hcurrent', Or.inr ?_⟩⟩
      rw [show (x.onLine .quitting line).exchange.down.line = line from rfl, hsent', hsent]
      rfl
    | failed _ _ hsent' hcurrent' hline =>
      exact ⟨_, h.onLine hgoing hline hmore
        ⟨Line.forall_current_of_free hcurrent', Or.inl (hsent'.trans hsent)⟩⟩
  · cases hmove

theorem sound_shut (h : x.Sound parent tail back) (hmove : x.next? .shut = some x') :
    x'.Sound parent tail back := by
  simp only [next?] at hmove
  split at hmove
  · rename_i hstages
    cases hmove
    have hgoing : x.stage ≠ .closed := by
      rcases hstages with hstage | hstage <;> simp [hstage]
    refine h.onLine hgoing (h.down.line.abandon.onOutbound rfl rfl) (List.prefix_refl _) ?_
    rcases hstages with hstage | hstage
    · exact Or.inl (h.standsAt hstage).1
    · exact (h.standsAt hstage).2
  · cases hmove

/-! ## The worker and the channel -/

/-- The worker is asked for no more than was sent in full. -/
theorem Sound.starts_le (h : x.Sound parent tail back) :
    (starts x.exchange.service.heard).length ≤ x.exchange.desk.asked.length := by
  have hstarts := starts_prefix ((List.prefix_append _ _).trans h.heard)
  rw [starts_append, spoken, Exchange.starts_asked] at hstarts
  simpa [starts] using hstarts.length_le

/-- A reply that is still sent when the root has closed its channel is one that it did not take. -/
theorem Sound.owes_of_replying (h : x.Sound parent tail back) (hclosed : x.stage = .closed)
    {result : StartResult} (hstage : x.exchange.service.loop.stage = .replying result) :
    x.Owes := by
  refine ⟨hclosed, ?_⟩
  obtain ⟨hheard, hreplies, -⟩ := h.service.replying hstage
  have htaken := ((List.prefix_append _ _).trans (h.up.received replyMessage_readsBack)).length_le
  have hmade := congrArg List.length hreplies
  have hcarried := congrArg List.length hheard
  have hasked := h.starts_le
  simp only [Service.replies, Service.requests, List.length_append, List.length_map,
    List.length_singleton] at *
  omega

theorem behaves_worker (h : x.Sound parent tail back) {move : Service.Move}
    (hadmits : x.admits (.worker move) = true) {service : Service} {line : Line ReplyMessage}
    (hmove : x.exchange.service.next? x.exchange.up.line move = some (service, line)) :
    Behaves service line x.Owes := by
  cases move with
  | signal signal => exact behaves_signal h.service.role hmove
  | assume r => exact behaves_assume h.behaves hadmits hmove
  | make r => exact behaves_make h.behaves hadmits hmove
  | post => exact behaves_post h.service h.behaves hmove
  | write outcome =>
    refine behaves_write h.service h.behaves hmove ?_
    intro e he
    cases outcome with
    | took n =>
      obtain ⟨-, hpos⟩ := of_decide_eq_true hadmits
      obtain ⟨k, rfl⟩ := Nat.exists_eq_succ_of_ne_zero (Nat.pos_iff_ne_zero.mp hpos)
      cases he
    | failed failure =>
      obtain ⟨hclosed, rfl⟩ := of_decide_eq_true hadmits
      cases he
      exact ⟨rfl, fun ⟨result, hstage⟩ => h.owes_of_replying hclosed hstage⟩
  | close => exact behaves_close h.behaves hmove

theorem sound_worker (h : x.Sound parent tail back) {move : Service.Move}
    (hadmits : x.admits (.worker move) = true)
    (hmove : x.exchange.next? (.worker move) = some exchange) :
    ∃ back', ({ x with exchange } : Dismissal).Sound parent tail back' := by
  obtain ⟨⟨service, line⟩, hservice, rfl⟩ := Option.map_eq_some_iff.mp hmove
  have hbehaves := behaves_worker h hadmits hservice
  obtain ⟨back', hsound, hemitted, hheard⟩ := Service.sound_next h.service hservice
  refine ⟨back', hsound, ?_, h.up.onLine hsound.wire hemitted, h.count, h.stands, hbehaves⟩
  simp only
  rw [hheard]
  exact h.down

/-- The worker hears the next of the messages, or that the root has closed its channel. -/
theorem sound_hear (h : x.Sound parent tail back) (hmove : x.exchange.next? .hear = some exchange) :
    ({ x with exchange } : Dismissal).Sound parent tail back := by
  obtain ⟨⟨received, down⟩, hrecv, hmove⟩ := Option.bind_eq_some_iff.mp hmove
  obtain ⟨service, hservice, rfl⟩ := Option.map_eq_some_iff.mp hmove
  obtain ⟨hsound, hheard⟩ := Service.sound_hear h.service hservice
  rcases h.down.recv hrecv with ⟨m, rfl, -, rfl, hdown⟩ | ⟨e, rfl, rfl, -, hended, hterm⟩
  · rw [show (Except.ok m : Except ChannelError ControlMessage).toOption.toList = [m] from rfl]
      at hheard
    refine ⟨hsound, ?_, h.up, h.count, h.stands, behaves_hear parent
      x.exchange.desk.asked h.service.role h.behaves hservice ?_ (by simp)⟩
    · simp only
      rw [hheard]
      exact hdown
    · intro m' hm'
      cases hm'
      exact ((List.prefix_append _ _).trans (hdown.received controlMessage_readsBack)).trans h.sent
  · refine ⟨hsound, ?_, h.up, h.count, h.stands, behaves_hear parent
      x.exchange.desk.asked h.service.role h.behaves hservice (by simp) ?_⟩
    · simp only
      rw [hheard]
      exact (List.append_nil x.exchange.service.heard).symm ▸ h.down
    · intro e' he'
      cases he'
      exact h.down.ended controlMessage_readsBack hended hterm

/-- Nothing but the end of the root's channel ends the worker's. -/
theorem sound_down (h : x.Sound parent tail back) {carry : Link.Carry}
    (hadmits : x.admits (.down carry) = true)
    (hmove : x.exchange.next? (.down carry) = some exchange) :
    ({ x with exchange } : Dismissal).Sound parent tail back := by
  obtain ⟨down, hcarry, rfl⟩ := Option.map_eq_some_iff.mp hmove
  have hdown : down.Sound Direction.rootToWorker.registry (· = .channelClosed) tail
      x.exchange.service.heard := by
    cases carry with
    | read n => exact h.down.read hcarry
    | deliver => exact h.down.deliver hcarry
    | lose e =>
      obtain ⟨-, he, -⟩ := of_decide_eq_true hadmits
      exact h.down.lose he hcarry
  have hline : down.line = x.exchange.down.line :=
    (h.down.mono fun _ _ => trivial).carry hcarry |>.2
  refine ⟨h.service, hdown, h.up, h.count, ?_, h.behaves⟩
  have hstands := h.stands
  unfold StandsAt at hstands ⊢
  simp only [hline, spoken] at hstands ⊢
  exact hstands

theorem sound_up (h : x.Sound parent tail back) {carry : Link.Carry}
    (hmove : x.exchange.next? (.up carry) = some exchange) :
    ({ x with exchange } : Dismissal).Sound parent tail back := by
  obtain ⟨up, hcarry, rfl⟩ := Option.map_eq_some_iff.mp hmove
  obtain ⟨hup, hline⟩ := h.up.carry hcarry
  refine ⟨?_, h.down, hup, h.count, h.stands, ?_⟩
  · simp only [hline]
    exact h.service
  · simp only [hline]
    exact h.behaves

/-! ## All moves -/

theorem next?_serve_eq_some {move : Exchange.Move} (hmove : x.next? (.serve move) = some x') :
    x.admits move = true ∧ ∃ exchange, x.exchange.next? move = some exchange ∧
      x' = { x with exchange } := by
  obtain ⟨hadmits, hrest⟩ := Option.ite_none_right_eq_some.mp hmove
  obtain ⟨exchange, hexchange, rfl⟩ := Option.map_eq_some_iff.mp hrest
  exact ⟨hadmits, exchange, hexchange, rfl⟩

theorem sound_serve (h : x.Sound parent tail back) {move : Exchange.Move}
    (hmove : x.next? (.serve move) = some x') : ∃ tail' back', x'.Sound parent tail' back' := by
  obtain ⟨hadmits, exchange, hexchange, rfl⟩ := next?_serve_eq_some hmove
  cases move with
  | root move =>
    obtain ⟨tail', hsound⟩ := sound_root h (of_decide_eq_true hadmits) hexchange
    exact ⟨tail', back, hsound⟩
  | receive => exact ⟨tail, back, sound_receive h (of_decide_eq_true hadmits) hexchange⟩
  | worker move =>
    obtain ⟨back', hsound⟩ := sound_worker h hadmits hexchange
    exact ⟨tail, back', hsound⟩
  | hear => exact ⟨tail, back, sound_hear h hexchange⟩
  | down carry => exact ⟨tail, back, sound_down h hadmits hexchange⟩
  | up carry => exact ⟨tail, back, sound_up h hexchange⟩

theorem sound_next {move : Move} (h : x.Sound parent tail back)
    (hmove : x.next? move = some x') : ∃ tail' back', x'.Sound parent tail' back' := by
  cases move with
  | serve move => exact sound_serve h hmove
  | part => exact ⟨tail, back, sound_part h hmove⟩
  | quit => exact ⟨tail, back, sound_quit h hmove⟩
  | write outcome =>
    obtain ⟨tail', hsound⟩ := sound_write h hmove
    exact ⟨tail', back, hsound⟩
  | shut => exact ⟨tail, back, sound_shut h hmove⟩

theorem sound_run (moves : List Move) (h : x.Sound parent tail back)
    (hrun : x.run? moves = some x') : ∃ tail' back', x'.Sound parent tail' back' := by
  induction moves generalizing x tail back with
  | nil =>
    cases hrun
    exact ⟨tail, back, h⟩
  | cons move moves ih =>
    obtain ⟨u, hmove, hrest⟩ := Option.bind_eq_some_iff.mp hrun
    obtain ⟨tail', back', h'⟩ := sound_next h hmove
    exact ih h' hrest

/-! ## The end -/

/-- From here the worker can come to the end of its loop. -/
def Ends (x : Dismissal) : Prop :=
  ∃ more y result, x.run? more = some y ∧ y.exchange.service.loop.stage = .ended result

theorem ends_of_next {move : Move} (hmove : x.next? move = some x') (h : x'.Ends) : x.Ends := by
  obtain ⟨more, y, result, hrun, hended⟩ := h
  exact ⟨move :: more, y, result, Option.bind_eq_some_iff.mpr ⟨x', hmove, hrun⟩, hended⟩

/-- The same with the worker and its line elsewhere. -/
def onWorker (x : Dismissal) (service : Service) (line : Line ReplyMessage) : Dismissal :=
  { x with exchange := { x.exchange with service, up := { x.exchange.up with line } } }

theorem next?_worker {move : Service.Move} {service : Service} {line : Line ReplyMessage}
    (hadmits : x.admits (.worker move) = true)
    (hmove : x.exchange.service.next? x.exchange.up.line move = some (service, line)) :
    x.next? (.serve (.worker move)) = some (x.onWorker service line) := by
  simp only [next?, Exchange.next?, hmove]
  rw [if_pos hadmits]
  rfl

theorem ends_of_leaving {result : Except ReentryError Unit}
    (hstage : x.exchange.service.loop.stage = .leaving result) : x.Ends := by
  have hclose : x.exchange.service.next? x.exchange.up.line .close =
      some ({ x.exchange.service with loop := x.exchange.service.loop.onJobsClosed },
        x.exchange.up.line) := by
    simp only [Service.next?, hstage]
  refine ends_of_next (next?_worker rfl hclose) ⟨[], _, result, rfl, ?_⟩
  simp only [onWorker, RoleLoop.onJobsClosed, hstage]

theorem ends_of_awaiting (h : x.Sound parent tail back)
    (hstage : x.exchange.service.loop.stage = .awaiting) : x.Ends := by
  have hsignal : x.exchange.service.next? x.exchange.up.line (.signal .term) =
      some ({ x.exchange.service with loop := x.exchange.service.loop.leave (.ok ()) },
        x.exchange.up.line) := by
    simp only [Service.next?, hstage]
    rfl
  exact ends_of_next (next?_worker rfl hsignal)
    (ends_of_leaving (Service.stage_leave _ h.service.role _).1)

theorem ends_of_sending (h : x.Sound parent tail back) (hclosed : x.stage = .closed)
    {m : ReplyMessage} {sending : Sending}
    (hcurrent : x.exchange.up.line.current = some (m, sending)) : x.Ends := by
  have hsome := Line.write?_isSome hcurrent
    (show (WriteOutcome.failed (.system .brokenPipe)).taken ≤ sending.offer.length from
      Nat.zero_le _)
  obtain ⟨⟨answer, line⟩, hwrite⟩ := Option.isSome_iff_exists.mp hsome
  cases h.service.wire.write hcurrent hwrite with
  | part hok | whole hok => cases hok
  | @failed e _ _ _ _ _ =>
    have hrefused : x.exchange.service.next? x.exchange.up.line
        (.write (.failed (.system .brokenPipe))) =
          some (x.exchange.service.answer (.error e), line) := by
      simp only [Service.next?, hwrite]
    exact ends_of_next (next?_worker (by simp [admits, hclosed]) hrefused)
      (ends_of_leaving (Service.stage_leave _ h.service.role _).1)

theorem ends_of_replying (h : x.Sound parent tail back) (hclosed : x.stage = .closed)
    {result : StartResult} (hstage : x.exchange.service.loop.stage = .replying result) :
    x.Ends := by
  cases hcurrent : x.exchange.up.line.current with
  | some current => exact ends_of_sending h hclosed hcurrent
  | none =>
    have hbehaves := h.behaves
    unfold Behaves at hbehaves
    rw [hstage] at hbehaves
    obtain ⟨sending, -, -, hsend⟩ := h.service.wire.send?_of_registered replyMessage_readsBack
      hbehaves.1 (Direction.tagOf?_workerToRoot (.startResult result))
    rw [hcurrent] at hsend
    have hpost : x.exchange.service.next? x.exchange.up.line .post =
        some (x.exchange.service, { x.exchange.up.line with
          current := some (.startResult result, sending) }) := by
      simp only [Service.next?, hstage]
      rw [hsend]
      rfl
    obtain ⟨tail', back', h'⟩ := sound_next h (next?_worker rfl hpost)
    exact ends_of_next (next?_worker rfl hpost) (ends_of_sending h' hclosed rfl)

/-- Wherever the worker is when the root has closed its channel, it comes to its end: a request is
carried out, its reply is refused, and a loop that waits takes the signal. -/
theorem Sound.ends (h : x.Sound parent tail back) (hclosed : x.stage = .closed) : x.Ends := by
  cases hstage : x.exchange.service.loop.stage with
  | awaiting => exact ends_of_awaiting h hstage
  | assuming =>
    have hassume : x.exchange.service.next? x.exchange.up.line (.assume (.ok ())) =
        some ({ x.exchange.service with loop := x.exchange.service.loop.onAssumed (.ok ()) },
          x.exchange.up.line) := by
      simp only [Service.next?, hstage]
    obtain ⟨tail', back', h'⟩ := sound_next h (next?_worker rfl hassume)
    exact ends_of_next (next?_worker rfl hassume) (ends_of_awaiting h' rfl)
  | starting request =>
    have hmake : x.exchange.service.next? x.exchange.up.line (.make (.ok ⟨3, 4, 2⟩)) =
        some ({ x.exchange.service with
          loop := x.exchange.service.loop.onStarted (.ok ⟨3, 4, 2⟩)
          made := x.exchange.service.made ++ [(request, ⟨3, 4, 2⟩)] }, x.exchange.up.line) := by
      simp only [Service.next?, hstage]
      rfl
    obtain ⟨tail', back', h'⟩ := sound_next h (next?_worker rfl hmake)
    exact ends_of_next (next?_worker rfl hmake) (ends_of_replying h' hclosed rfl)
  | replying result => exact ends_of_replying h hclosed hstage
  | leaving result => exact ends_of_leaving hstage
  | ended result => exact ⟨[], x, result, rfl, hstage⟩

/-- A worker whose root only starts jobs and then closes it ends with code 0, but for one case: the
root has closed its channel before it took the reply to a request, and the worker cannot send it.
Then it ends with code 1. Once the channel is closed the worker can go on to its end from
wherever it is. -/
theorem a_closed_worker_ends_well_unless_it_owes_a_reply (parent : Int32) (moves : List Move)
    (x : Dismissal) (hrun : (start parent).run? moves = some x) :
    (∀ result, x.exchange.service.loop.stage = .ended result →
      (result = .ok () ∧ Machine.roleCode result = 0) ∨
        (result = .error unread ∧ Machine.roleCode result = 1 ∧ x.stage = .closed ∧
          0 < x.exchange.desk.outstanding.unanswered)) ∧
      (x.stage = .closed → ∃ more y result, x.run? more = some y ∧
        y.exchange.service.loop.stage = .ended result) := by
  obtain ⟨tail, back, h⟩ := sound_run moves (sound_start parent) hrun
  refine ⟨?_, h.ends⟩
  intro result hended
  have hbehaves := h.behaves
  unfold Behaves at hbehaves
  rw [hended] at hbehaves
  rcases hbehaves with rfl | ⟨rfl, hclosed, howed⟩
  · exact Or.inl ⟨rfl, rfl⟩
  · have hcount := h.count
    exact Or.inr ⟨rfl, rfl, hclosed, by omega⟩

/-- A call asks for a job, and the worker takes its begin and the request. -/
def asking : List Exchange.Move := [
  .root (.call .unmapped), .root (.grant 0), .root .post, .root (.write (.took 5)),
  .root (.write (.took 19)), .down (.read 5), .down (.read 9), .down .deliver, .hear,
  .worker (.assume (.ok ())), .down (.read 5), .down (.read 19), .down .deliver, .hear]

/-- The root closes its worker. -/
def closing : List Move := [.part, .quit, .write (.took 5), .write (.took 1), .shut]

/-- The root takes the reply and gives the job up, and the worker takes the quit. -/
def answered : List Move :=
  List.flatten [
    asking.map .serve,
    ([.worker (.make (.ok ⟨3, 4, 11⟩)), .worker .post, .worker (.write (.took 5)),
      .worker (.write (.took 25)), .up (.read 5), .up (.read 25), .up .deliver, .receive,
      .root .drop] : List Exchange.Move).map .serve,
    closing,
    ([.down (.read 5), .down (.read 1), .down .deliver, .hear, .worker .close] :
      List Exchange.Move).map .serve]

/-- The exit code of a worker that is at its end. -/
def code? (x : Dismissal) : Option Int :=
  match x.exchange.service.loop.stage with
  | .ended result => some (Machine.roleCode result)
  | _ => none

theorem an_answered_worker_ends_with_code_0 :
    ∃ x, (start 1).run? answered = some x ∧ x.code? = some 0 ∧
      (∀ result, x.exchange.service.loop.stage = .ended result →
        (result = .ok () ∧ Machine.roleCode result = 0) ∨
          (result = .error unread ∧ Machine.roleCode result = 1 ∧ x.stage = .closed ∧
            0 < x.exchange.desk.outstanding.unanswered)) ∧
      (x.stage = .closed → ∃ more y result, x.run? more = some y ∧
        y.exchange.service.loop.stage = .ended result) := by
  have hrun : ((start 1).run? answered).map code? = some (some 0) := by decide +kernel
  obtain ⟨x, hx, hcode⟩ := Option.map_eq_some_iff.mp hrun
  exact ⟨x, hx, hcode, a_closed_worker_ends_well_unless_it_owes_a_reply 1 answered x hx⟩

/-- A call comes to its deadline while the worker starts the job, and then the worker is closed. -/
def abandoned : List Move :=
  List.flatten [
    asking.map .serve,
    [.serve (.root .expire)],
    closing,
    ([.worker (.make (.ok ⟨3, 4, 11⟩)), .worker .post,
      .worker (.write (.failed (.system .brokenPipe))), .worker .close] :
        List Exchange.Move).map .serve]

theorem an_abandoned_worker_ends_with_code_1 :
    ∃ x, (start 1).run? abandoned = some x ∧ x.code? = some 1 := by
  have hrun : ((start 1).run? abandoned).map code? = some (some 1) := by decide +kernel
  exact Option.map_eq_some_iff.mp hrun

end Dismissal

end ProcessTree
