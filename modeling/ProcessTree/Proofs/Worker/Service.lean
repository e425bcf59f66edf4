-- The worker's side of start requests. Its loop takes one message after the
-- other; for each start request it makes one result, and sends that before it
-- takes the next message. So its results have the order of the requests.
import ProcessTree.Machine.RoleMoves
import ProcessTree.Proofs.Channel.Line
import ProcessTree.Vocabulary

namespace ProcessTree

/-- The start requests among messages. -/
def starts (messages : List ControlMessage) : List Start :=
  messages.filterMap fun
    | .start body => some body
    | .begin _ | .quit => none

theorem starts_append (a b : List ControlMessage) : starts (a ++ b) = starts a ++ starts b :=
  List.filterMap_append

theorem starts_prefix {a b : List ControlMessage} (h : a <+: b) : starts a <+: starts b :=
  h.filterMap _

/-- The loop of a worker, with what it has done so far. -/
structure Service where
  loop : RoleLoop
  /-- The messages that it took off the channel. -/
  heard : List ControlMessage
  /-- The start requests that it has carried out, each with its result. -/
  made : List (Start × StartResult)

namespace Service

/-- A worker that has not taken a message yet. -/
def start : Service := ⟨.start .worker, [], []⟩

/-- The requests that were carried out. -/
def requests (s : Service) : List Start := s.made.map Prod.fst

/-- The replies to them. -/
def replies (s : Service) : List ReplyMessage := s.made.map fun pair => .startResult pair.2

/-- What happens at a worker, but for messages that it takes. -/
inductive Move where
  | signal (signal : Signal)
  /-- It has tried to become root. -/
  | assume (r : Except Errno Unit)
  /-- It has tried to start a job. -/
  | make (r : Except ReentryError StartResult)
  /-- The send of a reply begins. -/
  | post
  /-- A write call of the send. -/
  | write (outcome : WriteOutcome)
  /-- All its jobs are closed. -/
  | close

/-- The loop has tried to send a reply. -/
def answer (s : Service) (r : Except ChannelError Unit) : Service :=
  { s with loop := s.loop.onReplied r }

/-- What a move leads to, where it is possible; `line` is the channel to the root. -/
def next? (s : Service) (line : Line ReplyMessage) : Move → Option (Service × Line ReplyMessage)
  | .signal signal =>
    match s.loop.stage with
    | .awaiting => some ({ s with loop := s.loop.onEvent (.signal signal) }, line)
    | _ => none
  | .assume r =>
    match s.loop.stage with
    | .assuming => some ({ s with loop := s.loop.onAssumed r }, line)
    | _ => none
  | .make r =>
    match s.loop.stage with
    | .starting request =>
      some ({ s with
        loop := s.loop.onStarted r
        made := s.made ++ (r.toOption.map fun result => (request, result)).toList }, line)
    | _ => none
  | .post =>
    match s.loop.stage with
    | .replying result =>
      match line.send? (ReplyMessage.startResult result) with
      | none => none
      | some (none, line) => some (s, line)
      | some (some e, line) => some (s.answer (.error e), line)
    | _ => none
  | .write outcome =>
    match line.write? outcome with
    | none => none
    | some (none, line) => some (s, line)
    | some (some r, line) => some (s.answer r, line)
  | .close =>
    match s.loop.stage with
    | .leaving _ => some ({ s with loop := s.loop.onJobsClosed }, line)
    | _ => none

/-- The loop takes what its channel gives. -/
def hear? (s : Service) (received : Except ChannelError ControlMessage) : Option Service :=
  match s.loop.stage with
  | .awaiting =>
    some { s with
      loop := s.loop.onEvent (Machine.eventOf received)
      heard := s.heard ++ received.toOption.toList }
  | _ => none

theorem hear?_eq_some {s s' : Service} {received : Except ChannelError ControlMessage}
    (hmove : s.hear? received = some s') :
    s.loop.stage = .awaiting ∧ s' = { s with
      loop := s.loop.onEvent (Machine.eventOf received)
      heard := s.heard ++ received.toOption.toList } := by
  unfold hear? at hmove
  split at hmove
  · rename_i hstage
    cases hmove
    exact ⟨hstage, rfl⟩
  · cases hmove

theorem next?_signal_eq_some {s s' : Service} {line line' : Line ReplyMessage} {signal : Signal}
    (hmove : s.next? line (.signal signal) = some (s', line')) :
    s.loop.stage = .awaiting ∧ line' = line ∧
      s' = { s with loop := s.loop.onEvent (.signal signal) } := by
  simp only [next?] at hmove
  split at hmove
  · rename_i hstage
    cases hmove
    exact ⟨hstage, rfl, rfl⟩
  · cases hmove

theorem next?_make_eq_some {s s' : Service} {line line' : Line ReplyMessage}
    {r : Except ReentryError StartResult} (hmove : s.next? line (.make r) = some (s', line')) :
    ∃ request, s.loop.stage = .starting request ∧ line' = line ∧ s' = { s with
      loop := s.loop.onStarted r
      made := s.made ++ (r.toOption.map fun result => (request, result)).toList } := by
  simp only [next?] at hmove
  split at hmove
  · rename_i request hstage
    cases hmove
    exact ⟨request, hstage, rfl, rfl⟩
  · cases hmove

theorem next?_post_eq_some {s s' : Service} {line line' : Line ReplyMessage}
    (hmove : s.next? line .post = some (s', line')) :
    ∃ result answer, s.loop.stage = .replying result ∧
      line.send? (ReplyMessage.startResult result) = some (answer, line') ∧
      s' = match answer with
        | none => s
        | some e => s.answer (.error e) := by
  simp only [next?] at hmove
  split at hmove
  · rename_i result hstage
    split at hmove
    · cases hmove
    · rename_i line₁ hsend
      cases hmove
      exact ⟨result, none, hstage, hsend, rfl⟩
    · rename_i e line₁ hsend
      cases hmove
      exact ⟨result, some e, hstage, hsend, rfl⟩
  · cases hmove

theorem next?_write_eq_some {s s' : Service} {line line' : Line ReplyMessage}
    {outcome : WriteOutcome}
    (hmove : s.next? line (.write outcome) = some (s', line')) :
    ∃ r, line.write? outcome = some (r, line') ∧ s' = (r.map s.answer).getD s := by
  simp only [next?] at hmove
  split at hmove
  · cases hmove
  · rename_i line₁ hwrite
    cases hmove
    exact ⟨none, hwrite, rfl⟩
  · rename_i r line₁ hwrite
    cases hmove
    exact ⟨some r, hwrite, rfl⟩

theorem next?_assume_eq_some {s s' : Service} {line line' : Line ReplyMessage}
    {r : Except Errno Unit} (hmove : s.next? line (.assume r) = some (s', line')) :
    s.loop.stage = .assuming ∧ line' = line ∧ s' = { s with loop := s.loop.onAssumed r } := by
  simp only [next?] at hmove
  split at hmove
  · rename_i hstage
    cases hmove
    exact ⟨hstage, rfl, rfl⟩
  · cases hmove

theorem next?_close_eq_some {s s' : Service} {line line' : Line ReplyMessage}
    (hmove : s.next? line .close = some (s', line')) :
    ∃ result, s.loop.stage = .leaving result ∧ line' = line ∧
      s' = { s with loop := s.loop.onJobsClosed } := by
  simp only [next?] at hmove
  split at hmove
  · rename_i result hstage
    cases hmove
    exact ⟨result, hstage, rfl, rfl⟩
  · cases hmove

/-! ## The invariant -/

/-- Where the worker stands: every start request that it took is carried out and replied to, but for
the one it is at; once it leaves, it goes on with none. -/
def Stands (s : Service) (line : Line ReplyMessage) (tail : Bytes) : Prop :=
  match s.loop.stage with
  | .awaiting | .assuming =>
    starts s.heard = s.requests ∧ line.sent = s.replies ∧ line.current = none ∧ tail = []
  | .starting request =>
    starts s.heard = s.requests ++ [request] ∧ line.sent = s.replies ∧ line.current = none ∧
      tail = []
  | .replying result =>
    starts s.heard = s.requests ∧ line.sent ++ [.startResult result] = s.replies ∧
      (∀ m sending, line.current = some (m, sending) → m = .startResult result) ∧
      (line.current = none → tail = [])
  | .leaving _ | .ended _ =>
    s.requests <+: starts s.heard ∧ line.sent <+: s.replies ∧ line.current = none

/-- A worker whose replies are those to the requests it took, in their order. -/
structure Sound (s : Service) (line : Line ReplyMessage) (tail : Bytes) : Prop where
  role : s.loop.role = .worker
  wire : line.Sound Direction.workerToRoot.registry tail
  stands : s.Stands line tail

theorem sound_start : Service.start.Sound (Line.start Direction.workerToRoot.registry) [] where
  role := rfl
  wire := Line.sound_start _
  stands := ⟨rfl, rfl, rfl, rfl⟩

variable {s s' : Service} {line line' : Line ReplyMessage} {tail tail' : Bytes}

theorem stage_leave (l : RoleLoop) (hrole : l.role = .worker)
    (result : Except ReentryError Unit) :
    (l.leave result).stage = .leaving result ∧ (l.leave result).role = .worker := by
  unfold RoleLoop.leave
  exact ⟨if_pos hrole, hrole⟩

/-- All the requests that were carried out were taken before. -/
theorem Sound.requests_prefix (h : s.Sound line tail) : s.requests <+: starts s.heard := by
  have hstands := h.stands
  unfold Stands at hstands
  split at hstands
  · rw [hstands.1]
  · rw [hstands.1]
  · rw [hstands.1]
    exact List.prefix_append _ _
  · rw [hstands.1]
  · exact hstands.1
  · exact hstands.1

/-- All replies on the wire are those to requests that were carried out. -/
theorem Sound.sent_prefix (h : s.Sound line tail) : line.sent <+: s.replies := by
  have hstands := h.stands
  unfold Stands at hstands
  split at hstands
  · rw [hstands.2.1]
  · rw [hstands.2.1]
  · rw [hstands.2.1]
  · rw [← hstands.2.1]
    exact List.prefix_append _ _
  · exact hstands.2.1
  · exact hstands.2.1

/-- The loop leaves, whatever it was at. -/
theorem Sound.leave (h : s.Sound line tail)
    (hline : line'.Sound Direction.workerToRoot.registry tail')
    (hsent : line'.sent = line.sent) (hcurrent : line'.current = none)
    (result : Except ReentryError Unit) (more : List ControlMessage) :
    ({ s with loop := s.loop.leave result, heard := s.heard ++ more } : Service).Sound line'
      tail' := by
  obtain ⟨hstage, hrole⟩ := stage_leave s.loop h.role result
  refine ⟨hrole, hline, ?_⟩
  unfold Stands
  simp only [hstage]
  refine ⟨?_, ?_, hcurrent⟩
  · rw [starts_append]
    exact h.requests_prefix.trans (List.prefix_append _ _)
  · rw [hsent]
    exact h.sent_prefix

/-! ## Taking messages -/

theorem onEvent_failed (l : RoleLoop) (e : ChannelError) :
    ∃ result, l.onEvent (.failed e) = l.leave result := by
  cases e with
  | channelClosed => exact ⟨_, rfl⟩
  | _ => exact ⟨_, rfl⟩

/-- What the loop waits with: everything it took is replied to. -/
theorem Sound.awaiting (h : s.Sound line tail) (hstage : s.loop.stage = .awaiting) :
    starts s.heard = s.requests ∧ line.sent = s.replies ∧ line.current = none ∧ tail = [] := by
  have hstands := h.stands
  unfold Stands at hstands
  rw [hstage] at hstands
  exact hstands

/-- A message that is taken becomes the request that the worker is at, or ends the loop, or is a
begin. -/
theorem sound_hear (h : s.Sound line tail) {received : Except ChannelError ControlMessage}
    (hmove : s.hear? received = some s') :
    s'.Sound line tail ∧ s'.heard = s.heard ++ received.toOption.toList := by
  obtain ⟨hstage, rfl⟩ := hear?_eq_some hmove
  refine ⟨?_, rfl⟩
  obtain ⟨hheard, hsent, hcurrent, htail⟩ := h.awaiting hstage
  cases received with
  | error e =>
    obtain ⟨result, hleave⟩ := onEvent_failed s.loop e
    unfold Machine.eventOf
    simp only [hleave]
    exact h.leave h.wire rfl hcurrent result []
  | ok m =>
    cases m with
    | quit => exact h.leave h.wire rfl hcurrent (.ok ()) [.quit]
    | begin body =>
      unfold Machine.eventOf RoleLoop.onEvent
      simp only
      split
      · refine ⟨h.role, h.wire, ?_⟩
        unfold Stands
        simp only
        rw [starts_append]
        refine ⟨?_, hsent, hcurrent, htail⟩
        rw [hheard]
        exact List.append_nil _
      · exact h.leave h.wire rfl hcurrent _ [.begin body]
    | start body =>
      unfold Machine.eventOf RoleLoop.onEvent
      simp only
      rw [if_pos h.role]
      refine ⟨h.role, h.wire, ?_⟩
      unfold Stands
      simp only
      rw [starts_append]
      refine ⟨?_, hsent, hcurrent, htail⟩
      rw [hheard]
      rfl

/-! ## Carrying requests out -/

theorem sound_make (h : s.Sound line tail) {r : Except ReentryError StartResult}
    (hmove : s.next? line (.make r) = some (s', line')) :
    s'.Sound line' tail ∧ line' = line ∧ s'.heard = s.heard := by
  obtain ⟨request, hstage, rfl, rfl⟩ := next?_make_eq_some hmove
  refine ⟨?_, rfl, rfl⟩
  have hstands := h.stands
  unfold Stands at hstands
  rw [hstage] at hstands
  obtain ⟨hheard, hsent, hcurrent, htail⟩ := hstands
  cases r with
  | error e =>
    have hsound := h.leave h.wire rfl hcurrent (.error e) []
    rw [List.append_nil] at hsound
    have hmade : s.made ++
        (Option.map (fun result => (request, result))
          (Except.toOption (.error e : Except ReentryError StartResult))).toList = s.made :=
      List.append_nil _
    rw [hmade]
    exact hsound
  | ok result =>
    refine ⟨h.role, h.wire, ?_⟩
    have hstage' : (s.loop.onStarted (.ok result)).stage = .replying result := rfl
    unfold Stands
    simp only [hstage']
    refine ⟨?_, ?_, ?_, fun _ => htail⟩
    · unfold requests
      rw [List.map_append]
      exact hheard
    · unfold replies
      rw [List.map_append, hsent]
      rfl
    · exact Line.forall_current_of_free hcurrent

/-! ## Replying -/

theorem Sound.replying (h : s.Sound line tail) {result : StartResult}
    (hstage : s.loop.stage = .replying result) :
    starts s.heard = s.requests ∧ line.sent ++ [.startResult result] = s.replies ∧
      (∀ m sending, line.current = some (m, sending) → m = .startResult result) ∧
      (line.current = none → tail = []) := by
  have hstands := h.stands
  unfold Stands at hstands
  rw [hstage] at hstands
  exact hstands

/-- Only a loop that replies has the line. -/
theorem Sound.stage_of_current (h : s.Sound line tail) {m : ReplyMessage} {sending : Sending}
    (hm : line.current = some (m, sending)) : ∃ result, s.loop.stage = .replying result := by
  have hstands := h.stands
  unfold Stands at hstands
  split at hstands
  · rw [hstands.2.2.1] at hm
    cases hm
  · rw [hstands.2.2.1] at hm
    cases hm
  · rw [hstands.2.2.1] at hm
    cases hm
  · rename_i result hstage
    exact ⟨result, hstage⟩
  · rw [hstands.2.2] at hm
    cases hm
  · rw [hstands.2.2] at hm
    cases hm

/-- A reply that cannot be sent ends the loop. -/
theorem Sound.refuse (h : s.Sound line tail)
    (hline : line'.Sound Direction.workerToRoot.registry tail') (hsent : line'.sent = line.sent)
    (hcurrent : line'.current = none) (e : ChannelError) :
    (s.answer (.error e)).Sound line' tail' := by
  have hsound := h.leave hline hsent hcurrent (.error (.channel e)) []
  rw [List.append_nil] at hsound
  exact hsound

theorem sound_post (h : s.Sound line tail) (hmove : s.next? line .post = some (s', line')) :
    s'.Sound line' tail ∧ line'.emitted = line.emitted ∧ s'.heard = s.heard := by
  obtain ⟨result, answer, hstage, hsend, rfl⟩ := next?_post_eq_some hmove
  obtain ⟨hheard, hreplies, hcurrent, hclean⟩ := h.replying hstage
  rcases Line.send?_eq_some hsend with ⟨e, rfl, rfl, hbegin⟩ |
    ⟨rfl, hfree, hopen, sending, hframe, rfl⟩
  · exact ⟨h.refuse h.wire rfl (h.wire.free_of_error hcurrent hbegin) e, rfl, rfl⟩
  · have htail := hclean hfree
    subst htail
    refine ⟨⟨h.role, h.wire.send hopen hframe, ?_⟩, rfl, rfl⟩
    unfold Stands
    rw [hstage]
    refine ⟨hheard, hreplies, ?_, fun hnone => (nomatch hnone)⟩
    intro m sending' hm
    cases hm
    rfl

/-- A write call goes on with the reply, completes it, or ends the loop. -/
theorem sound_write (h : s.Sound line tail) {outcome : WriteOutcome}
    (hmove : s.next? line (.write outcome) = some (s', line')) :
    ∃ tail', s'.Sound line' tail' ∧ line.emitted <+: line'.emitted ∧ s'.heard = s.heard := by
  obtain ⟨r, hwrite, rfl⟩ := next?_write_eq_some hmove
  obtain ⟨m, sending, hcurrent⟩ := Line.current_of_write? hwrite
  have hemitted := Line.write?_emitted hcurrent hwrite
  obtain ⟨result, hstage⟩ := h.stage_of_current hcurrent
  obtain ⟨hheard, hreplies, hmine, -⟩ := h.replying hstage
  obtain rfl := hmine m sending hcurrent
  cases h.wire.write hcurrent hwrite with
  | part _ _ hsent hcurrent' hsound =>
    refine ⟨_, ⟨h.role, hsound, ?_⟩, ⟨_, hemitted.symm⟩, rfl⟩
    unfold Stands
    simp only [Option.map_none, Option.getD_none, hstage]
    refine ⟨hheard, hsent ▸ hreplies, ?_, ?_⟩
    · intro m' sending' hm'
      rw [hcurrent'] at hm'
      cases hm'
      rfl
    · intro hnone
      rw [hcurrent'] at hnone
      cases hnone
  | whole _ _ hsent hcurrent' hsound =>
    refine ⟨[], ⟨h.role, hsound, ?_⟩, ⟨_, hemitted.symm⟩, rfl⟩
    have hstage' : (s.answer (.ok ())).loop.stage = .awaiting := rfl
    unfold Stands
    simp only [Option.map_some, Option.getD_some, hstage']
    exact ⟨hheard, hsent.trans hreplies, hcurrent', trivial⟩
  | @failed e _ _ hsent hcurrent' hsound =>
    exact ⟨tail, h.refuse hsound hsent hcurrent' e, ⟨_, hemitted.symm⟩, rfl⟩

/-! ## All moves -/

/-- Every move keeps the invariant, takes nothing back from the wire, and takes no message. -/
theorem sound_next {move : Move} (h : s.Sound line tail)
    (hmove : s.next? line move = some (s', line')) :
    ∃ tail', s'.Sound line' tail' ∧ line.emitted <+: line'.emitted ∧ s'.heard = s.heard := by
  cases move with
  | signal signal =>
    obtain ⟨hstage, rfl, rfl⟩ := next?_signal_eq_some hmove
    have hsound := h.leave h.wire rfl (h.awaiting hstage).2.2.1 (.ok ()) []
    rw [List.append_nil] at hsound
    exact ⟨tail, hsound, List.prefix_refl _, rfl⟩
  | assume r =>
    obtain ⟨hstage, rfl, rfl⟩ := next?_assume_eq_some hmove
    have hstands := h.stands
    unfold Stands at hstands
    rw [hstage] at hstands
    cases r with
    | ok u => exact ⟨tail, ⟨h.role, h.wire, hstands⟩, List.prefix_refl _, rfl⟩
    | error e =>
      have hsound := h.leave h.wire rfl hstands.2.2.1 (.error (.privilege e)) []
      rw [List.append_nil] at hsound
      exact ⟨tail, hsound, List.prefix_refl _, rfl⟩
  | make r =>
    obtain ⟨hsound, rfl, hheard⟩ := sound_make h hmove
    exact ⟨tail, hsound, List.prefix_refl _, hheard⟩
  | post =>
    obtain ⟨hsound, hemitted, hheard⟩ := sound_post h hmove
    rw [← hemitted]
    exact ⟨tail, hsound, List.prefix_refl _, hheard⟩
  | write outcome => exact sound_write h hmove
  | close =>
    obtain ⟨result, hstage, rfl, rfl⟩ := next?_close_eq_some hmove
    have hstands := h.stands
    have hended : s.loop.onJobsClosed = { s.loop with stage := .ended result } := by
      unfold RoleLoop.onJobsClosed
      rw [hstage]
    unfold Stands at hstands
    rw [hstage] at hstands
    refine ⟨tail, ⟨?_, h.wire, ?_⟩, List.prefix_refl _, rfl⟩
    · rw [hended]
      exact h.role
    · unfold Stands
      simp only [hended]
      exact hstands

end Service

end ProcessTree
