-- What happens at the channel of a job: the calls of its users, the bytes that
-- go out and come in, and the end of the stream, all in one log in which each
-- deed follows on those before it.
import ProcessTree.Proofs.Channel.Line
import ProcessTree.Proofs.Channel.Reception

namespace ProcessTree

open ProcessTree.Frame

/-! ## Deeds -/

/-- What a call at a job is asked for. -/
inductive JobAsked where
  | send (message : ControlMessage)
  | ended (deadline : Option Nat)
  | close (deadline : Option Nat)

/-- What a call at a job is told. -/
inductive JobAnswer where
  | sent (result : Except ChannelError Unit)
  | ended (result : Except TreeError Unit)

/-- What a call is told that finds the channel released. -/
def JobAsked.answerWithout : JobAsked → JobAnswer
  | .send _ => .sent (.error .channelClosed)
  | .ended _ | .close _ => .ended (.ok ())

/-- What happens at the channel of a job. The calls are numbered from 0 as they come. -/
inductive ChannelDeed where
  /-- A call begins that finds the channel held. -/
  | began (call : Nat) (asked : JobAsked)
  /-- A call finds the channel released, and has its answer. -/
  | answered (call : Nat) (asked : JobAsked) (answer : JobAnswer)
  /-- How a close's sending quit went. -/
  | quit (call : Nat) (outcome : Except ChannelError Unit)
  /-- A close releases both directions of the channel and returns. -/
  | closed (call : Nat) (result : Except TreeError Unit)
  /-- Another call returns. -/
  | returned (call : Nat) (answer : JobAnswer)
  /-- A write call of the stream to the job. -/
  | wrote (outcome : WriteOutcome)
  /-- Bytes of the job were read. -/
  | heard (bytes : Bytes)
  /-- The stream of the job ended, or a read of it failed. -/
  | lost (ending : Ending)

namespace ChannelDeed

/-- The call that does it. -/
def call? : ChannelDeed → Option Nat
  | .began call _ | .answered call _ _ | .quit call _ | .closed call _ | .returned call _ =>
    some call
  | .wrote _ | .heard _ | .lost _ => none

/-- Whether it ends a call. -/
def isReturn : ChannelDeed → Bool
  | .answered _ _ _ | .closed _ _ | .returned _ _ => true
  | _ => false

def isAnswered : ChannelDeed → Bool
  | .answered _ _ _ => true
  | _ => false

/-- The bytes of the job that it brings. -/
def bytes : ChannelDeed → Bytes
  | .heard bytes => bytes
  | _ => []

/-- Whether it leaves the channel held, and does not come from the job. -/
def isStep : ChannelDeed → Bool
  | .began _ _ | .quit _ _ | .returned _ _ | .wrote _ => true
  | _ => false

/-- What a call has done. -/
def trace (call : Nat) (log : List ChannelDeed) : List ChannelDeed :=
  log.filter (·.call? == some call)

/-- The bytes of the job that were read. -/
def heardIn (log : List ChannelDeed) : Bytes := log.flatMap bytes

/-- A close has returned. -/
def Closed (log : List ChannelDeed) : Prop := ∃ call result, .closed call result ∈ log

/-- The stream of the job has ended, or as many bytes were read as a header has. -/
def Over (log : List ChannelDeed) : Prop :=
  (∃ ending, .lost ending ∈ log) ∨ headerSize ≤ (heardIn log).length

/-- What waiting for the end of the stream may come to. -/
def Fair (log : List ChannelDeed) (result : Except TreeError Unit) : Prop :=
  (result = .ok () ∧ Over log) ∨ result = .error (.process .deadlineExceeded)

/-- What must have come before a deed. -/
def Cause (before : List ChannelDeed) : ChannelDeed → Prop
  | .began call _ => trace call before = []
  | .answered call asked answer => trace call before = [] ∧ answer = asked.answerWithout
  | .quit call _ => ∃ deadline, trace call before = [.began call (.close deadline)]
  | .closed call result =>
    (∃ deadline outcome, trace call before =
      [.began call (.close deadline), .quit call outcome]) ∧ Fair before result
  | .returned call (.sent _) => ∃ message, .began call (.send message) ∈ before
  | .returned call (.ended result) =>
    (∃ deadline, .began call (.ended deadline) ∈ before) ∧ Fair before result
  | .wrote _ => True
  | .heard bytes => ¬ Over before ∧ (heardIn before ++ bytes).length ≤ headerSize
  | .lost _ => ¬ Over before

/-- Calls are answered at once when a close has returned before, and only then. -/
structure Follows (before : List ChannelDeed) (deed : ChannelDeed) : Prop where
  answered : deed.isAnswered = true ↔ Closed before
  cause : Cause before deed

/-- Each deed follows on those before it. -/
def Orderly (log : List ChannelDeed) : Prop :=
  ∀ before deed after, log = before ++ deed :: after → Follows before deed

variable {log : List ChannelDeed} {deed : ChannelDeed} {call : Nat} {asked asked' : JobAsked}

theorem orderly_nil : Orderly [] := by
  intro before deed after hsplit
  cases before <;> cases hsplit

theorem Orderly.snoc (h : Orderly log) (hlast : Follows log deed) : Orderly (log ++ [deed]) := by
  intro before deed' after hsplit
  rcases List.eq_nil_or_concat after with rfl | ⟨after, end', rfl⟩
  · obtain ⟨rfl, heq⟩ := List.append_inj' hsplit rfl
    cases heq
    exact hlast
  · rw [List.concat_eq_append, ← List.cons_append, ← List.append_assoc] at hsplit
    obtain ⟨hlog, -⟩ := List.append_inj' hsplit rfl
    exact h before deed' after hlog

theorem Orderly.front {after : List ChannelDeed} (h : Orderly (log ++ after)) : Orderly log := by
  intro before deed rest hsplit
  refine h before deed (rest ++ after) ?_
  rw [hsplit, List.append_assoc]
  rfl

theorem Orderly.follows (h : Orderly (log ++ [deed])) : Follows log deed := h log deed [] rfl

/-! ## Traces -/

theorem trace_snoc (call : Nat) (log : List ChannelDeed) (deed : ChannelDeed) :
    trace call (log ++ [deed]) =
      trace call log ++ if deed.call? = some call then [deed] else [] := by
  unfold trace
  rw [List.filter_append]
  congr 1
  by_cases h : deed.call? = some call <;> simp [h]

theorem trace_snoc_other (h : deed.call? ≠ some call) :
    trace call (log ++ [deed]) = trace call log := by
  rw [trace_snoc, if_neg h, List.append_nil]

theorem trace_snoc_own (h : deed.call? = some call) :
    trace call (log ++ [deed]) = trace call log ++ [deed] := by
  rw [trace_snoc, if_pos h]

theorem mem_trace (hmem : deed ∈ log) (hcall : deed.call? = some call) : deed ∈ trace call log := by
  unfold trace
  rw [List.mem_filter]
  exact ⟨hmem, by simp [hcall]⟩

theorem mem_of_mem_trace (h : deed ∈ trace call log) : deed ∈ log := List.mem_of_mem_filter h

theorem heardIn_snoc (log : List ChannelDeed) (deed : ChannelDeed) :
    heardIn (log ++ [deed]) = heardIn log ++ deed.bytes := by
  unfold heardIn
  rw [List.flatMap_append, List.flatMap_singleton]

/-! ## What stays -/

theorem Closed.append (h : Closed log) (after : List ChannelDeed) : Closed (log ++ after) := by
  obtain ⟨call, result, hmem⟩ := h
  exact ⟨call, result, List.mem_append_left _ hmem⟩

theorem closed_snoc_iff (h : ∀ call result, deed ≠ .closed call result) :
    Closed (log ++ [deed]) ↔ Closed log := by
  constructor
  · rintro ⟨call, result, hmem⟩
    rcases List.mem_append.mp hmem with hmem | hmem
    · exact ⟨call, result, hmem⟩
    · exact absurd (List.mem_singleton.mp hmem).symm (h call result)
  · intro hclosed
    exact hclosed.append [deed]

theorem Over.append (h : Over log) (after : List ChannelDeed) : Over (log ++ after) := by
  rcases h with ⟨ending, hmem⟩ | hlength
  · exact Or.inl ⟨ending, List.mem_append_left _ hmem⟩
  · refine Or.inr ?_
    unfold heardIn at hlength ⊢
    rw [List.flatMap_append, List.length_append]
    omega

/-- A call begins once. -/
theorem Orderly.began_unique (h : Orderly log) (hmem : .began call asked ∈ log)
    (hmem' : .began call asked' ∈ log) : asked = asked' := by
  induction log using List.reverseRecOn with
  | nil => cases hmem
  | append_singleton log last ih =>
    have hfirst : ∀ asked, last = .began call asked → trace call log = [] := by
      rintro asked rfl
      exact h.follows.cause
    rcases List.mem_append.mp hmem with hold | hnew
    · rcases List.mem_append.mp hmem' with hold' | hnew'
      · exact ih h.front hold hold'
      · have hnil := hfirst asked' (List.mem_singleton.mp hnew').symm
        exact absurd (mem_trace hold rfl) (by simp [hnil])
    · rcases List.mem_append.mp hmem' with hold' | hnew'
      · have hnil := hfirst asked (List.mem_singleton.mp hnew).symm
        exact absurd (mem_trace hold' rfl) (by simp [hnil])
      · rw [← List.mem_singleton.mp hnew'] at hnew
        cases List.mem_singleton.mp hnew
        rfl

end ChannelDeed

end ProcessTree
