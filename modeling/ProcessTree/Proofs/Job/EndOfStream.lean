-- When a job is reported as ended. Nobody has anything to receive from a job,
-- so its receiver ends with its stream, or, since no tag stands for anything,
-- with the first header that is complete: any five bytes end it as well, while
-- the job goes on.
import ProcessTree.Proofs.Job.Use

namespace ProcessTree

open ProcessTree.Frame

/-! ## The log -/

namespace ChannelDeed

/-- Whether it tells a wait or a close that the job has ended. -/
def tellsEnded : ChannelDeed → Bool
  | .returned _ (.ended (.ok ())) | .closed _ (.ok ()) => true
  | .answered _ (.ended _) (.ended (.ok ())) | .answered _ (.close _) (.ended (.ok ())) => true
  | _ => false

variable {log : List ChannelDeed}

/-- Never more is read of a job than a header. -/
theorem Orderly.length_heardIn_le (h : Orderly log) : (heardIn log).length ≤ headerSize := by
  induction log using List.reverseRecOn with
  | nil => exact Nat.zero_le _
  | append_singleton log last ih =>
    rw [heardIn_snoc]
    cases last with
    | heard bytes => exact h.follows.cause.2
    | _ =>
      simp only [bytes, List.append_nil]
      exact ih h.front

theorem Orderly.over_iff (h : Orderly log) :
    Over log ↔ (∃ ending, .lost ending ∈ log) ∨ (heardIn log).length = headerSize := by
  have hle := h.length_heardIn_le
  unfold Over
  constructor
  · rintro (hlost | hlong)
    · exact Or.inl hlost
    · exact Or.inr (by omega)
  · rintro (hlost | hlength)
    · exact Or.inl hlost
    · exact Or.inr (by omega)

/-- Whoever is told so before a close has returned is told so when the receiver is over. -/
theorem over_of_tellsEnded {deed : ChannelDeed} (h : Follows log deed)
    (htold : deed.tellsEnded = true) (hopen : ¬ Closed log) : Over log := by
  have hfair : ∀ result, Fair log result → result = .ok () → Over log := by
    rintro result (⟨-, hover⟩ | hlate) hok
    · exact hover
    · rw [hok] at hlate
      cases hlate
  have hcause := h.cause
  cases deed with
  | answered call asked answer => exact absurd (h.answered.mp rfl) hopen
  | closed call result =>
    cases result with
    | ok _ => exact hfair _ hcause.2 rfl
    | error e => cases htold
  | returned call answer =>
    cases answer with
    | sent result => cases htold
    | ended result =>
      cases result with
      | ok _ => exact hfair _ hcause.2 rfl
      | error e => cases htold
  | _ => cases htold

end ChannelDeed

/-! ## The law -/

namespace JobUse

open ChannelDeed (Closed Over heardIn)

/-- A call has its turn to receive. -/
def Receives (x : JobUse) : Prop :=
  (∃ s, x.users = .sharing s ∧ s.receiving ≠ none) ∨
    ∃ call deadline, x.users = .closing call deadline .ending

theorem Sound.receive_isSome_iff {x : JobUse} (h : x.Sound) (hreceives : x.Receives) :
    (x.next? .receive).isSome ↔ Over x.deeds := by
  have hheld : x.isHeld = true := by
    rcases hreceives with ⟨s, husers, hreceiving⟩ | ⟨call, deadline, husers⟩
    · exact h.held_of_sharing husers (by rintro rfl; exact hreceiving rfl)
    · exact h.held_of_users (by simp [husers])
  unfold next? receive?
  simp only
  rcases h.recv? with ⟨hrecv, hover, -⟩ | ⟨⟨answer, hrecv⟩, hover⟩
  · rw [hrecv]
    simp [hover]
  · rw [hrecv]
    simp only [hover hheld, iff_true]
    rcases hreceives with ⟨s, husers, hreceiving⟩ | ⟨call, deadline, husers⟩
    · rw [husers]
      obtain ⟨waiter, hwaiter⟩ := Option.ne_none_iff_exists'.mp hreceiving
      simp [hwaiter]
    · rw [husers]
      rfl

/-- Whatever bytes a job writes, in whatever chunks and at whatever time: while no close has
returned, a wait or a close is told that the job has ended only when its stream has ended, or a read
of it failed, or five bytes of it were read, whichever they are; and one that has its turn to
receive is told as soon as that is so. -/
theorem a_job_has_ended_with_its_stream_or_its_fifth_byte (moves : List Move) (x : JobUse)
    (hrun : start.run? moves = some x) :
    (∀ before deed after, x.deeds = before ++ deed :: after → deed.tellsEnded = true →
      ¬ Closed before →
        (∃ ending, .lost ending ∈ before) ∨ (heardIn before).length = headerSize) ∧
      (x.Receives → ((x.next? .receive).isSome ↔
        (∃ ending, .lost ending ∈ x.deeds) ∨ (heardIn x.deeds).length = headerSize)) := by
  have h := sound_run moves sound_start hrun
  constructor
  · intro before deed after hsplit htold hopen
    have horderly := h.orderly
    rw [hsplit] at horderly
    exact horderly.front.over_iff.mp
      (ChannelDeed.over_of_tellsEnded (h.orderly before deed after hsplit) htold hopen)
  · intro hreceives
    rw [← h.orderly.over_iff]
    exact h.receive_isSome_iff hreceives

/-- A job writes four bytes, one by one and two at a time, and goes away while somebody waits. -/
def departing : List Move :=
  [.begin (.ended (some 9)), .read [1], .grant 0, .read [0, 0], .read [7], .lose .finished]

theorem a_departed_job_is_reported :
    ∃ x, start.run? departing = some x ∧ x.Receives ∧
      (∀ before deed after, x.deeds = before ++ deed :: after → deed.tellsEnded = true →
        ¬ Closed before →
          (∃ ending, .lost ending ∈ before) ∨ (heardIn before).length = headerSize) ∧
      (x.Receives → ((x.next? .receive).isSome ↔
        (∃ ending, .lost ending ∈ x.deeds) ∨ (heardIn x.deeds).length = headerSize)) :=
  ⟨_, rfl, Or.inl ⟨_, rfl, by simp⟩,
    a_job_has_ended_with_its_stream_or_its_fifth_byte departing _ rfl⟩

/-- A job writes five bytes and stays, while somebody waits for its end. -/
def talking : List Move := [.begin (.ended none), .grant 0, .read [0, 0, 0, 0, 0], .receive]

/-- A job writes five bytes and stays, and is closed. -/
def talkingBack : List Move :=
  [.read [0, 0, 0, 0, 0], .begin (.close none), .quit, .write (.took 5), .write (.took 1), .receive,
    .release]

/-- Both are told that a job has ended whose stream has not. -/
theorem a_job_that_goes_on_is_reported_as_ended :
    (∃ x, start.run? talking = some x ∧
      ¬ ∀ before deed after, x.deeds = before ++ deed :: after → deed.tellsEnded = true →
        ¬ Closed before → ∃ ending, .lost ending ∈ before) ∧
      ∃ x, start.run? talkingBack = some x ∧
        ¬ ∀ before deed after, x.deeds = before ++ deed :: after → deed.tellsEnded = true →
          ¬ Closed before → ∃ ending, .lost ending ∈ before := by
  constructor
  · refine ⟨_, rfl, fun hclaim => ?_⟩
    obtain ⟨ending, hlost⟩ := hclaim
      [.began 0 (.ended none), .heard [0, 0, 0, 0, 0]] (.returned 0 (.ended (.ok ()))) [] rfl rfl
      (by rintro ⟨call, result, hmem⟩; simp at hmem)
    simp at hlost
  · refine ⟨_, rfl, fun hclaim => ?_⟩
    obtain ⟨ending, hlost⟩ := hclaim
      [.heard [0, 0, 0, 0, 0], .began 0 (.close none), .wrote (.took 5), .wrote (.took 1),
        .quit 0 (.ok ())] (.closed 0 (.ok ())) [] rfl rfl
      (by rintro ⟨call, result, hmem⟩; simp at hmem)
    simp at hlost

end JobUse
end ProcessTree
