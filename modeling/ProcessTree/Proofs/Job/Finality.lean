-- Closing a job is final. A close that finds the channel held sends quit once,
-- however that goes, and then lets go of both directions; from then on nothing
-- goes out or comes in, and every call has its answer at once.
import ProcessTree.Proofs.Job.Use
import ProcessTree.Root.Job

namespace ProcessTree

/-! ## The log -/

namespace ChannelDeed

variable {log : List ChannelDeed} {deed : ChannelDeed} {call : Nat} {deadline : Option Nat}

/-- All that a close does, as far as it has come: it begins, sends quit or tries to, and releases
the channel. -/
theorem Orderly.trace_of_close (h : Orderly log) (hbegan : .began call (.close deadline) ∈ log) :
    trace call log = [.began call (.close deadline)] ∨
      (∃ outcome, trace call log = [.began call (.close deadline), .quit call outcome]) ∨
        ∃ outcome result, trace call log =
          [.began call (.close deadline), .quit call outcome, .closed call result] := by
  induction log using List.reverseRecOn with
  | nil => cases hbegan
  | append_singleton log last ih =>
    have hcause := h.follows.cause
    have hmem := mem_trace hbegan rfl
    by_cases hlast : last.call? = some call
    · rw [trace_snoc_own hlast] at hmem ⊢
      cases last with
      | began c asked =>
        cases hlast
        rw [hcause] at hmem ⊢
        refine Or.inl ?_
        rw [List.mem_singleton.mp hmem]
        rfl
      | quit c outcome =>
        cases hlast
        obtain ⟨deadline', htrace⟩ := hcause
        rw [htrace] at hmem ⊢
        obtain rfl : deadline = deadline' := by simpa using hmem
        exact Or.inr (Or.inl ⟨outcome, rfl⟩)
      | closed c result =>
        cases hlast
        obtain ⟨⟨deadline', outcome, htrace⟩, -⟩ := hcause
        rw [htrace] at hmem ⊢
        obtain rfl : deadline = deadline' := by simpa using hmem
        exact Or.inr (Or.inr ⟨outcome, result, rfl⟩)
      | answered c asked answer =>
        cases hlast
        rw [hcause.1] at hmem
        cases List.mem_singleton.mp hmem
      | returned c answer =>
        -- What returned began as something else.
        cases hlast
        obtain hold | hnew := List.mem_append.mp hmem
        · have hbegan' := mem_of_mem_trace hold
          cases answer with
          | sent result =>
            obtain ⟨message, hsend⟩ := hcause
            cases h.front.began_unique hbegan' hsend
          | ended result =>
            obtain ⟨⟨deadline', hended⟩, -⟩ := hcause
            cases h.front.began_unique hbegan' hended
        · cases List.mem_singleton.mp hnew
      | wrote | heard | lost => cases hlast
    · rw [trace_snoc_other hlast] at hmem ⊢
      exact ih h.front (mem_of_mem_trace hmem)

/-- A close that has returned has sent quit, or tried to, and released the channel, each once. -/
theorem Orderly.trace_of_return (h : Orderly log) (hbegan : .began call (.close deadline) ∈ log)
    (hmem : deed ∈ log) (hcall : deed.call? = some call) (hreturn : deed.isReturn = true) :
    ∃ outcome result, trace call log =
      [.began call (.close deadline), .quit call outcome, .closed call result] := by
  have hdeed := mem_trace hmem hcall
  rcases h.trace_of_close hbegan with htrace | ⟨outcome, htrace⟩ | hdone
  · rw [htrace, List.mem_singleton] at hdeed
    rw [hdeed] at hreturn
    cases hreturn
  · rw [htrace, List.mem_pair] at hdeed
    rcases hdeed with hdeed | hdeed
    · rw [hdeed] at hreturn
      cases hreturn
    · rw [hdeed] at hreturn
      cases hreturn
  · exact hdone

/-- Behind the return of a close there are only calls that are answered at once. -/
theorem Orderly.answered_of_closed (h : Orderly log) {before after : List ChannelDeed}
    {result : Except TreeError Unit} (hsplit : log = before ++ .closed call result :: after)
    (hmem : deed ∈ after) :
    ∃ other asked, deed = .answered other asked asked.answerWithout := by
  obtain ⟨between, rest, rfl⟩ := List.append_of_mem hmem
  have hfollows := h (before ++ .closed call result :: between) deed rest (by simp [hsplit])
  have hanswered := hfollows.answered.mpr ⟨call, result, by simp⟩
  have hcause := hfollows.cause
  cases deed with
  | answered other asked answer => exact ⟨other, asked, by rw [hcause.2]⟩
  | _ => cases hanswered

end ChannelDeed

/-! ## The law -/

namespace JobUse

open ChannelDeed (trace)

/-- Both directions of the channel are released, nobody waits for anything, and whoever calls is
answered at once. -/
structure Released (x : JobUse) : Prop where
  outbound : x.isHeld = false ∧ x.line.outbound.isOpen = false
  inbound : x.inbound.receiver = .ended
  users : x.users = .sharing .idle
  answers : ∀ asked : JobAsked, ∃ x', x.next? (.begin asked) = some x' ∧
    x'.deeds = x.deeds ++ [.answered x.calls asked asked.answerWithout]

theorem begin?_of_released {x : JobUse} (hheld : x.isHeld = false) (asked : JobAsked) :
    ∃ x', x.next? (.begin asked) = some x' ∧
      x'.deeds = x.deeds ++ [.answered x.calls asked asked.answerWithout] := by
  refine ⟨{ x with
    calls := x.calls + 1
    deeds := x.deeds ++ [.answered x.calls asked asked.answerWithout] }, ?_, rfl⟩
  unfold next? begin?
  simp only
  rw [if_neg (by simp [hheld])]

/-- Whatever calls come at a job, however sending quit goes and whatever the job does: a close that
began with the channel held, and returned, has sent quit or tried to, and then released the channel,
both exactly once; and when a close has released it, whatever it returned, the channel stays
released, nothing is written and nothing read any more, and all that happens are calls that are
answered at once, each close and each wait with Ok and each send with a closed channel. -/
theorem a_close_of_a_job_is_final (moves : List Move) (x : JobUse)
    (hrun : start.run? moves = some x) :
    (∀ call deadline deed, .began call (.close deadline) ∈ x.deeds → deed ∈ x.deeds →
      deed.call? = some call → deed.isReturn = true →
        ∃ outcome result, trace call x.deeds =
          [.began call (.close deadline), .quit call outcome, .closed call result]) ∧
      ∀ before call result after, x.deeds = before ++ .closed call result :: after →
        x.Released ∧
          ∀ deed ∈ after, ∃ other asked, deed = .answered other asked asked.answerWithout := by
  have h := sound_run moves sound_start hrun
  constructor
  · intro call deadline deed hbegan hmem hcall hreturn
    exact h.orderly.trace_of_return hbegan hmem hcall hreturn
  · intro before call result after hsplit
    have hheld := h.held.mpr ⟨call, result, by simp [hsplit]⟩
    obtain ⟨husers, hopen, hreceiver⟩ := h.released hheld
    refine ⟨⟨⟨hheld, hopen⟩, hreceiver, husers, begin?_of_released hheld⟩, ?_⟩
    intro deed hmem
    exact h.orderly.answered_of_closed hsplit hmem

/-- A close cannot send quit and comes to its deadline, 3, as the job stays. -/
def futile : List Move :=
  List.flatten [
    [.begin (.close (some 3)), .quit, .write (.failed (.system .brokenPipe)), .pass 3],
    [.expire .close, .release],
    [.begin (.close none), .begin (.ended none), .begin (.send .quit)]]

theorem a_futile_close_is_final :
    ∃ x, start.run? futile = some x ∧
      (trace 0 x.deeds = [.began 0 (.close (some 3)),
        .quit 0 (.error (.io (.system .brokenPipe))),
        .closed 0 (.error (.process .deadlineExceeded))]) ∧
      (∀ call deadline deed, .began call (.close deadline) ∈ x.deeds → deed ∈ x.deeds →
        deed.call? = some call → deed.isReturn = true →
          ∃ outcome result, trace call x.deeds =
            [.began call (.close deadline), .quit call outcome, .closed call result]) ∧
      ∀ before call result after, x.deeds = before ++ .closed call result :: after →
        x.Released ∧
          ∀ deed ∈ after, ∃ other asked, deed = .answered other asked asked.answerWithout :=
  ⟨_, rfl, rfl, a_close_of_a_job_is_final futile _ rfl⟩

end JobUse

/-! ## On a root -/

namespace Root

variable {r r' : Root} {index : Nat}

/-- A wait for something that is there is over at once. -/
theorem await_of_came {α : Type} {poll : Root → Option α × Root} {a : α}
    (hpoll : poll r = (some a, r)) (deadline : Option Nat) :
    r.await poll deadline = (.came a, r) := by
  obtain ⟨fuel, hfuel⟩ := Nat.exists_eq_succ_of_ne_zero r.machine.work_ne_zero
  unfold await
  rw [hfuel]
  unfold awaitWithin
  rw [hpoll]

theorem pollJobSend_of_released (hjob : r.jobs[index]?.join = none) (message : ControlMessage) :
    pollJobSend index message r = (some (.error .channelClosed), r) := by
  unfold pollJobSend
  rw [hjob]

theorem pollJobEnd_of_released (hjob : r.jobs[index]?.join = none) :
    pollJobEnd index r = (some (), r) := by
  unfold pollJobEnd
  rw [hjob]

/-- Where the channel of a job is released, calls at it are answered at once and change nothing. -/
theorem calls_of_released (hjob : r.jobs[index]?.join = none) (message : ControlMessage)
    (millis : Option Nat) :
    r.sendToJob index message = (some (.error .channelClosed), r) ∧
      r.jobEnded index millis = (some (.ok ()), r) ∧
      r.closeJob index millis = (some (.ok ()), r) := by
  refine ⟨?_, ?_, ?_⟩
  · unfold sendToJob
    rw [await_of_came (pollJobSend_of_released hjob message)]
    rfl
  · unfold jobEnded
    rw [await_of_came (pollJobEnd_of_released hjob)]
  · unfold closeJob
    simp only [hjob]
    rfl

theorem released_of_releaseJob (r : Root) (index : Nat) :
    (r.releaseJob index).jobs[index]?.join = none := by
  unfold releaseJob
  cases hjob : r.jobs[index]?.join with
  | none => exact hjob
  | some c =>
    simp only [List.getElem?_set_self']
    cases r.jobs[index]? <;> rfl

/-- A close that has finished has released the channel on its way. -/
theorem released_of_closeJobWithin {deadline : Option Nat} {result : Except TreeError Unit}
    (fuel : Nat) (closing : JobClosing)
    (hfinished : ∀ result, closing = .finished result → r.jobs[index]?.join = none)
    (hclose : closeJobWithin index deadline fuel closing r = (some result, r')) :
    r'.jobs[index]?.join = none := by
  induction fuel generalizing closing r with
  | zero => cases hclose
  | succ fuel ih =>
    unfold closeJobWithin at hclose
    cases closing with
    | finished result =>
      cases hclose
      exact hfinished result rfl
    | releasing result =>
      exact ih _ (fun _ _ => released_of_releaseJob r index) hclose
    | quitting =>
      simp only [JobClosing.request?] at hclose
      rcases hanswer : r.answerJobClose index deadline .sendQuit with ⟨_ | answer, r₁⟩
      · rw [hanswer] at hclose
        cases hclose
      · rw [hanswer] at hclose
        refine ih _ (fun result hend => ?_) hclose
        cases hend
    | ending =>
      simp only [JobClosing.request?] at hclose
      rcases hanswer : r.answerJobClose index deadline .awaitEnd with ⟨_ | answer, r₁⟩
      · rw [hanswer] at hclose
        cases hclose
      · rw [hanswer] at hclose
        refine ih _ (fun result hend => ?_) hclose
        cases answer <;> cases hend

/-- Once a close has returned on a root, whatever it returned, every call at the job is answered at
once and changes nothing. -/
theorem calls_of_closed {millis : Option Nat} {result : Except TreeError Unit}
    (hclose : r.closeJob index millis = (some result, r')) (message : ControlMessage)
    (millis' : Option Nat) :
    r'.sendToJob index message = (some (.error .channelClosed), r') ∧
      r'.jobEnded index millis' = (some (.ok ()), r') ∧
      r'.closeJob index millis' = (some (.ok ()), r') := by
  refine calls_of_released (released_of_closeJobWithin 4 _ ?_ hclose) message millis'
  intro result hstart
  cases hjob : r.jobs[index]?.join with
  | none => rfl
  | some c =>
    rw [hjob] at hstart
    cases hstart

end Root
end ProcessTree
