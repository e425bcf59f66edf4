-- Until when a worker keeps a job's ends: from the moment the job is started to
-- the next event. So a worker that has sent all its replies, and whose last event
-- was a start request, waits with the ends of the last job that it started.
import ProcessTree.Proofs.Worker.Service

namespace ProcessTree.Service

variable {s s' : Service} {line line' : Line ReplyMessage} {tail : Bytes}
  {handoff : Option (Nat × Nat)}

/-- Numbers that a message can carry. -/
def Carries (result : StartResult) (ends : Nat × Nat) : Prop :=
  result.readFd.toInt = ends.1 ∧ result.writeFd.toInt = ends.2

/-- What the worker keeps are the ends that its last reply reports; it keeps them while it replies,
and from then on while it waits. -/
structure Keeps (s : Service) (line : Line ReplyMessage) (handoff : Option (Nat × Nat)) :
    Prop where
  last : ∀ ends, handoff = some ends →
    ∃ request result, s.made.getLast? = some (request, result) ∧ Carries result ends
  replying : ∀ result, s.loop.stage = .replying result → handoff.isSome
  assuming : s.loop.stage = .assuming → ∀ body, s.heard.getLast? ≠ some (.start body)
  idle : ∀ body, s.heard.getLast? = some (.start body) → starts s.heard = s.requests →
    line.sent = s.replies → s.loop.stage = .awaiting ∧ handoff.isSome

theorem keeps_start (line : Line ReplyMessage) : Service.start.Keeps line none where
  last := nofun
  replying := nofun
  assuming := nofun
  idle := nofun

theorem Keeps.of_sent (h : s.Keeps line handoff) (hsent : line'.sent = line.sent) :
    s.Keeps line' handoff :=
  ⟨h.last, h.replying, h.assuming, fun body hlast hstarts hreplied =>
    h.idle body hlast hstarts (hsent ▸ hreplied)⟩

/-- A loop that leaves before all is replied to. -/
theorem Keeps.leave (h : s.Keeps line handoff) (hrole : s.loop.role = .worker)
    (result : Except ReentryError Unit)
    (hbusy : ∀ body, s.heard.getLast? = some (.start body) → starts s.heard = s.requests →
      line'.sent ≠ s.replies) :
    ({ s with loop := s.loop.leave result } : Service).Keeps line' handoff := by
  obtain ⟨hstage, -⟩ := stage_leave s.loop hrole result
  refine ⟨h.last, ?_, ?_, ?_⟩
  · intro result' hreplying
    simp only [hstage] at hreplying
    cases hreplying
  · intro hassuming
    simp only [hstage] at hassuming
    cases hassuming
  · intro body hlast hstarts hsent
    exact absurd hsent (hbusy body hlast hstarts)

/-! ## Taking messages -/

/-- A message is a start request, or the worker is not at one after it. -/
theorem stage_onEvent (l : RoleLoop) (hrole : l.role = .worker) (m : ControlMessage) :
    (∃ body, m = .start body ∧ (l.onEvent (.message m)).stage = .starting body) ∨
      (∀ body, m ≠ .start body) ∧ ((l.onEvent (.message m)).stage = .assuming ∨
        ∃ result, (l.onEvent (.message m)).stage = .leaving result) := by
  cases m with
  | start body =>
    refine Or.inl ⟨body, rfl, ?_⟩
    simp [RoleLoop.onEvent, hrole]
  | quit => exact Or.inr ⟨nofun, Or.inr ⟨_, (stage_leave l hrole _).1⟩⟩
  | begin body =>
    refine Or.inr ⟨nofun, ?_⟩
    unfold RoleLoop.onEvent
    by_cases htakes : l.takesBegin = true
    · simp [htakes]
    · simp only [htakes]
      exact Or.inr ⟨_, (stage_leave l hrole _).1⟩

/-- An event closes what was kept. -/
theorem keeps_hear (hsound : s.Sound line tail) {m : ControlMessage}
    (hmove : s.hear? (.ok m) = some s') : s'.Keeps line none := by
  obtain ⟨hstage, rfl⟩ := hear?_eq_some hmove
  obtain ⟨hheard, -⟩ := hsound.awaiting hstage
  have hlast : (s.heard ++ [m]).getLast? = some m := List.getLast?_concat
  refine ⟨nofun, ?_, ?_, ?_⟩
  · intro result (hreplying : (s.loop.onEvent (.message m)).stage = .replying result)
    rcases stage_onEvent s.loop hsound.role m with ⟨body, -, hstarting⟩ |
      ⟨-, hassuming | ⟨result', hleaving⟩⟩
    · rw [hstarting] at hreplying
      cases hreplying
    · rw [hassuming] at hreplying
      cases hreplying
    · rw [hleaving] at hreplying
      cases hreplying
  · intro (hassuming : (s.loop.onEvent (.message m)).stage = .assuming) body
      (hstart : (s.heard ++ [m]).getLast? = some (.start body))
    rw [hlast] at hstart
    cases hstart
    rcases stage_onEvent s.loop hsound.role (.start body) with ⟨body', -, hstarting⟩ | ⟨hnot, -⟩
    · rw [hstarting] at hassuming
      cases hassuming
    · exact absurd rfl (hnot body)
  -- The request that was just taken was not carried out yet.
  · intro body (hstart : (s.heard ++ [m]).getLast? = some (.start body))
      (hstarts : starts (s.heard ++ [m]) = s.requests)
    rw [hlast] at hstart
    cases hstart
    rw [starts_append, hheard] at hstarts
    exact absurd (List.append_right_eq_self.mp hstarts) (List.cons_ne_nil _ _)

/-! ## Carrying requests out -/

/-- The job's ends are kept, whatever was kept before. -/
theorem keeps_make {result : StartResult} {ends : Nat × Nat} (hsound : s.Sound line tail)
    (hends : Carries result ends) (hmove : s.next? line (.make (.ok result)) = some (s', line')) :
    s'.Keeps line' (some ends) := by
  obtain ⟨request, hstage, rfl, rfl⟩ := next?_make_eq_some hmove
  have hstands := hsound.stands
  unfold Stands at hstands
  rw [hstage] at hstands
  obtain ⟨-, hsent, -⟩ := hstands
  refine ⟨?_, fun _ _ => rfl, nofun, ?_⟩
  · intro ends' hends'
    cases hends'
    exact ⟨request, result, List.getLast?_concat, hends⟩
  -- There is one more reply than were sent.
  · intro body _ _ hreplied
    rw [hsent] at hreplied
    have hlength := congrArg List.length hreplied
    simp [replies, Except.toOption] at hlength

theorem sent_ne_replies {result : StartResult}
    (hreplies : line.sent ++ [.startResult result] = s.replies) : line.sent ≠ s.replies := by
  intro hsame
  rw [← hreplies] at hsame
  exact List.cons_ne_nil _ _ (List.append_right_eq_self.mp hsame.symm)

theorem keeps_post (hsound : s.Sound line tail) (h : s.Keeps line handoff)
    (hmove : s.next? line .post = some (s', line')) : s'.Keeps line' handoff := by
  obtain ⟨result, answer, hstage, hsend, rfl⟩ := next?_post_eq_some hmove
  obtain ⟨-, hreplies, -⟩ := hsound.replying hstage
  rcases Line.send?_eq_some hsend with ⟨e, rfl, rfl, -⟩ | ⟨rfl, -, -, sending, -, rfl⟩
  · exact h.leave hsound.role _ fun _ _ _ => sent_ne_replies hreplies
  · exact h.of_sent rfl

/-- Once the reply is sent in full, the worker waits with the job's ends. -/
theorem keeps_write {outcome : WriteOutcome} (hsound : s.Sound line tail)
    (h : s.Keeps line handoff) (hmove : s.next? line (.write outcome) = some (s', line')) :
    s'.Keeps line' handoff := by
  obtain ⟨r, hwrite, rfl⟩ := next?_write_eq_some hmove
  obtain ⟨m, sending, hcurrent⟩ := Line.current_of_write? hwrite
  obtain ⟨result, hstage⟩ := hsound.stage_of_current hcurrent
  obtain ⟨-, hreplies, -⟩ := hsound.replying hstage
  cases hsound.wire.write hcurrent hwrite with
  | part _ _ hsent _ _ => exact h.of_sent hsent
  | whole _ _ _ _ _ =>
    refine ⟨h.last, nofun, nofun, ?_⟩
    intro body _ _ _
    exact ⟨rfl, h.replying result hstage⟩
  | failed _ _ hsent _ _ =>
    refine h.leave hsound.role _ ?_
    intro body _ _ hreplied
    rw [hsent] at hreplied
    exact sent_ne_replies hreplies hreplied

/-- Nothing else that the worker does changes what it keeps, but for signals. -/
theorem keeps_next {move : Move} (hsound : s.Sound line tail) (h : s.Keeps line handoff)
    (hsignal : ∀ signal, move ≠ .signal signal) (hmake : ∀ result, move ≠ .make (.ok result))
    (hmove : s.next? line move = some (s', line')) : s'.Keeps line' handoff := by
  cases move with
  | signal signal => exact absurd rfl (hsignal signal)
  | post => exact keeps_post hsound h hmove
  | write outcome => exact keeps_write hsound h hmove
  | assume r =>
    obtain ⟨hstage, rfl, rfl⟩ := next?_assume_eq_some hmove
    have hbegan := h.assuming hstage
    cases r with
    | ok u =>
      refine ⟨h.last, nofun, nofun, ?_⟩
      intro body hlast
      exact absurd hlast (hbegan body)
    | error e =>
      refine h.leave hsound.role _ ?_
      intro body hlast
      exact absurd hlast (hbegan body)
  | make r =>
    cases r with
    | ok result => exact absurd rfl (hmake result)
    | error e =>
      obtain ⟨request, hstage, rfl, rfl⟩ := next?_make_eq_some hmove
      have hstands := hsound.stands
      unfold Stands at hstands
      rw [hstage] at hstands
      have hleft : ({ s with loop := s.loop.leave (.error e) } : Service).Keeps line' handoff := by
        refine h.leave hsound.role (.error e) ?_
        intro body _ hstarts
        rw [hstands.1] at hstarts
        exact absurd (List.append_right_eq_self.mp hstarts) (List.cons_ne_nil _ _)
      have hmade : s.made ++ (Option.map (fun result => (request, result))
          (Except.toOption (.error e : Except ReentryError StartResult))).toList = s.made :=
        List.append_nil _
      rw [hmade]
      exact hleft
  | close =>
    obtain ⟨result, hstage, rfl, rfl⟩ := next?_close_eq_some hmove
    have hended : (s.loop.onJobsClosed).stage = .ended result := by
      unfold RoleLoop.onJobsClosed
      rw [hstage]
    refine ⟨h.last, ?_, ?_, ?_⟩
    · intro result' (hreplying : s.loop.onJobsClosed.stage = .replying result')
      rw [hended] at hreplying
      cases hreplying
    · intro (hassuming : s.loop.onJobsClosed.stage = .assuming)
      rw [hended] at hassuming
      cases hassuming
    · intro body hlast hstarts hreplied
      obtain ⟨hawaiting, -⟩ := h.idle body hlast hstarts hreplied
      rw [hstage] at hawaiting
      cases hawaiting

/-- No job is made but by a move that makes one. -/
theorem made_of_next? {move : Move} (hmake : ∀ result, move ≠ .make (.ok result))
    (hmove : s.next? line move = some (s', line')) : s'.made = s.made := by
  cases move with
  | write outcome =>
    obtain ⟨r, -, rfl⟩ := next?_write_eq_some hmove
    cases r with
    | none => rfl
    | some r => rfl
  | make r =>
    obtain ⟨request, -, -, rfl⟩ := next?_make_eq_some hmove
    cases r with
    | ok result => exact absurd rfl (hmake result)
    | error e => exact List.append_nil _
  | post =>
    obtain ⟨result, answer, -, -, rfl⟩ := next?_post_eq_some hmove
    cases answer with
    | none => rfl
    | some e => rfl
  | assume r =>
    obtain ⟨-, -, rfl⟩ := next?_assume_eq_some hmove
    rfl
  | close =>
    obtain ⟨result, -, -, rfl⟩ := next?_close_eq_some hmove
    rfl
  | signal signal =>
    obtain ⟨-, -, rfl⟩ := next?_signal_eq_some hmove
    rfl

theorem leave_ne_starting (l : RoleLoop) (result : Except ReentryError Unit) (request : Start) :
    (l.leave result).stage ≠ .starting request := by
  unfold RoleLoop.leave
  simp only
  split
  · exact nofun
  · exact nofun

theorem answer_ne_starting (s : Service) (r : Except ChannelError Unit) (request : Start) :
    (s.answer r).loop.stage ≠ .starting request := by
  cases r with
  | ok u => exact nofun
  | error e => exact leave_ne_starting _ _ _

/-- The loop comes to start a job by a message only. -/
theorem starting_of_next? {move : Move} {request : Start}
    (hmove : s.next? line move = some (s', line')) (hstage : s'.loop.stage = .starting request) :
    s.loop.stage = .starting request := by
  cases move with
  | signal signal =>
    obtain ⟨-, -, rfl⟩ := next?_signal_eq_some hmove
    exact absurd hstage (leave_ne_starting _ _ _)
  | assume r =>
    obtain ⟨-, -, rfl⟩ := next?_assume_eq_some hmove
    cases r with
    | ok u => cases hstage
    | error e => exact absurd hstage (leave_ne_starting _ _ _)
  | make r =>
    obtain ⟨request, -, -, rfl⟩ := next?_make_eq_some hmove
    cases r with
    | ok result => cases hstage
    | error e => exact absurd hstage (leave_ne_starting _ _ _)
  | post =>
    obtain ⟨result, answer, -, -, rfl⟩ := next?_post_eq_some hmove
    cases answer with
    | none => exact hstage
    | some e => exact absurd hstage (answer_ne_starting _ _ _)
  | write outcome =>
    obtain ⟨r, -, rfl⟩ := next?_write_eq_some hmove
    cases r with
    | none => exact hstage
    | some r => exact absurd hstage (answer_ne_starting _ _ _)
  | close =>
    obtain ⟨result, hleaving, -, rfl⟩ := next?_close_eq_some hmove
    simp only [RoleLoop.onJobsClosed, hleaving, reduceCtorEq] at hstage

end ProcessTree.Service
