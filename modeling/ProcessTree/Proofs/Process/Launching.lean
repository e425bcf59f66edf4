-- An attempt to start a child, with the two processes interleaved in any way and every
-- call going well or failing. A launch ends after few calls, and its refusal leaves no
-- child; its success means that the child's program runs, unless the child failed before
-- it could tell.
import ProcessTree.Spawn.Launch

namespace ProcessTree.Launch

/-! ## Moves -/

inductive Move where
  | spawner (outcome : Except SpawnFault Unit)
  | child (outcome : Except Errno Unit)

def next? (l : Launch) : Move → Option Launch
  | .spawner outcome => l.spawnerStep? outcome
  | .child outcome => l.childStep? outcome

/-- A row of moves. -/
def run? (l : Launch) : List Move → Option Launch
  | [] => some l
  | move :: moves => (l.next? move).bind fun l' => l'.run? moves

theorem run?_append (l : Launch) (moves more : List Move) :
    l.run? (moves ++ more) = (l.run? moves).bind fun l' => l'.run? more := by
  induction moves generalizing l with
  | nil => rfl
  | cons move moves ih =>
    simp only [List.cons_append, run?]
    cases l.next? move with
    | none => rfl
    | some l' => exact ih l'

/-- Whether the child has moved its end of the status pipe out of the way, so that its failures are
reported. -/
def canReport (l : Launch) : Bool :=
  match l.child with
  | .unborn | .guarding | .waiting | .parking => false
  | .placing _ | .executing | .running | .ended => true

/-- Whether the child fails a call where it cannot report it. -/
def isMute (l : Launch) : Move → Bool
  | .child (.error _) => !l.canReport
  | _ => false

variable {l l' : Launch}

/-- All that a call of the spawning process can do. -/
inductive SpawnerStep (l : Launch) : Except SpawnFault Unit → Launch → Prop
  | planned (h : l.spawner = .planning) : SpawnerStep l (.ok ()) { l with spawner := .openingSync }
  | openedSync (h : l.spawner = .openingSync) :
      SpawnerStep l (.ok ()) { l with
        spawner := .openingStatus, held := l.held ++ [.syncRead, .syncWrite] }
  | openedStatus (h : l.spawner = .openingStatus) :
      SpawnerStep l (.ok ()) { l with
        spawner := .cloning, held := l.held ++ [.statusRead, .statusWrite] }
  | cloned (h : l.spawner = .cloning) :
      SpawnerStep l (.ok ()) { l with
        spawner := if l.plan.isEmpty then .mapping [] else .locating
        child := .guarding
        held := l.without [.syncRead, .statusWrite, .channelEnds] ++ [.childRef] }
  | located (h : l.spawner = .locating) :
      SpawnerStep l (.ok ()) { l with spawner := .mapping l.plan }
  | mapped {action : MapAction} {left : List MapAction}
      (h : l.spawner = .mapping (action :: left)) :
      SpawnerStep l (.ok ()) { l with spawner := .mapping left }
  | readied {outcome : Except SpawnFault Unit} (h : l.spawner = .mapping []) :
      SpawnerStep l outcome { l with spawner := .releasing }
  | released (h : l.spawner = .releasing) (hchild : l.child ≠ .ended) :
      SpawnerStep l (.ok ()) { l with
        spawner := .reading, released := true, held := l.without [.syncWrite] }
  | succeeded (h : l.spawner = .reading) (hchild : l.childHoldsStatus = false)
      (hreport : l.report = none) : SpawnerStep l (.ok ()) (l.finish (.ok ()))
  | refused {errno : Errno} {reason : String} (h : l.spawner = .reading)
      (hchild : l.childHoldsStatus = false) (hreport : l.report = some errno) :
      SpawnerStep l (.ok ()) (l.awaitEnd reason)
  /-- Before there is a child. -/
  | gaveUp {fault : SpawnFault} {reason : String}
      (h : l.spawner = .planning ∨ l.spawner = .openingSync ∨ l.spawner = .openingStatus ∨
        l.spawner = .cloning) : SpawnerStep l (.error fault) (l.giveUp reason)
  /-- With a child that is to be killed. -/
  | aborted {fault : SpawnFault} {reason : String}
      (h : l.spawner = .locating ∨ (∃ action left, l.spawner = .mapping (action :: left)) ∨
        l.spawner = .releasing) : SpawnerStep l (.error fault) (l.abort reason)
  /-- Nobody is left to read the byte. -/
  | unheard {reason : String} (h : l.spawner = .releasing) (hchild : l.child = .ended) :
      SpawnerStep l (.ok ()) (l.abort reason)
  | misread {fault : SpawnFault} {reason : String} (h : l.spawner = .reading) :
      SpawnerStep l (.error fault) { l.abort reason with held := l.without [.statusRead] }
  | killed {reason : String} (h : l.spawner = .killing reason) :
      SpawnerStep l (.ok ()) { l with spawner := .reaping reason, child := .ended }
  | spared {fault : SpawnFault} {reason : String} (h : l.spawner = .killing reason) :
      SpawnerStep l (.error fault) { l with spawner := .reaping reason }
  | reaped {outcome : Except SpawnFault Unit} {reason : String} (h : l.spawner = .reaping reason)
      (hchild : l.child = .ended) : SpawnerStep l outcome { l.giveUp reason with reaped := true }

theorem spawnerStep?_eq_some {outcome : Except SpawnFault Unit}
    (h : l.spawnerStep? outcome = some l') : SpawnerStep l outcome l' := by
  cases hspawner : l.spawner with
  | planning =>
    cases outcome <;> simp only [spawnerStep?, hspawner] at h <;> cases h
    · exact .gaveUp (.inl hspawner)
    · exact .planned hspawner
  | openingSync =>
    cases outcome <;> simp only [spawnerStep?, hspawner] at h <;> cases h
    · exact .gaveUp (.inr (.inl hspawner))
    · exact .openedSync hspawner
  | openingStatus =>
    cases outcome <;> simp only [spawnerStep?, hspawner] at h <;> cases h
    · exact .gaveUp (.inr (.inr (.inl hspawner)))
    · exact .openedStatus hspawner
  | cloning =>
    cases outcome <;> simp only [spawnerStep?, hspawner] at h <;> cases h
    · exact .gaveUp (.inr (.inr (.inr hspawner)))
    · exact .cloned hspawner
  | locating =>
    cases outcome <;> simp only [spawnerStep?, hspawner] at h <;> cases h
    · exact .aborted (.inl hspawner)
    · exact .located hspawner
  | mapping left =>
    cases left with
    | nil =>
      simp only [spawnerStep?, hspawner] at h
      cases h
      exact .readied hspawner
    | cons action left =>
      cases outcome <;> simp only [spawnerStep?, hspawner] at h <;> cases h
      · exact .aborted (.inr (.inl ⟨action, left, hspawner⟩))
      · exact .mapped hspawner
  | releasing =>
    cases outcome with
    | error fault =>
      simp only [spawnerStep?, hspawner] at h
      cases h
      exact .aborted (.inr (.inr hspawner))
    | ok u =>
      simp only [spawnerStep?, hspawner] at h
      split at h
      · rename_i hchild
        cases h
        exact .unheard hspawner hchild
      · rename_i hchild
        cases h
        exact .released hspawner hchild
  | reading =>
    cases outcome with
    | error fault =>
      simp only [spawnerStep?, hspawner] at h
      cases h
      exact .misread hspawner
    | ok u =>
      simp only [spawnerStep?, hspawner] at h
      split at h
      · cases h
      · rename_i hopen
        obtain ⟨hchild, -⟩ := not_or.mp hopen
        cases hreport : l.report <;> simp only [hreport] at h <;> cases h
        · exact .succeeded hspawner (Bool.eq_false_iff.mpr hchild) hreport
        · exact .refused hspawner (Bool.eq_false_iff.mpr hchild) hreport
  | killing reason =>
    cases outcome <;> simp only [spawnerStep?, hspawner] at h <;> cases h
    · exact .spared hspawner
    · exact .killed hspawner
  | reaping reason =>
    simp only [spawnerStep?, hspawner] at h
    obtain ⟨hchild, heq⟩ := Option.ite_none_right_eq_some.mp h
    cases heq
    exact .reaped hspawner hchild
  | finished result => simp only [spawnerStep?, hspawner, reduceCtorEq] at h

/-- All that a call of the child can do. -/
inductive ChildStep (l : Launch) : Except Errno Unit → Launch → Prop
  | guarded {outcome : Except Errno Unit} (h : l.child = .guarding) :
      ChildStep l outcome { l with child := .waiting }
  | woken (h : l.child = .waiting) (hreleased : l.released = true) :
      ChildStep l (.ok ()) { l with child := .parking }
  | parked (h : l.child = .parking) :
      ChildStep l (.ok ()) { l with child := .placing (placements l.options.fdPassing) }
  | placed {left : Nat} (h : l.child = .placing (left + 1)) :
      ChildStep l (.ok ()) { l with child := .placing left }
  | readied {outcome : Except Errno Unit} (h : l.child = .placing 0) :
      ChildStep l outcome { l with child := .executing }
  | executed (h : l.child = .executing) : ChildStep l (.ok ()) { l with child := .running }
  | reported {errno : Errno} (h : l.child = .executing ∨ ∃ left, l.child = .placing (left + 1)) :
      ChildStep l (.error errno) { l with child := .ended, report := some errno }
  | failed {errno : Errno}
      (h : (l.child = .guarding ∧ l.options.dieWithParent = true) ∨ l.child = .waiting ∨
        l.child = .parking) :
      ChildStep l (.error errno) { l with child := .ended }

theorem childStep?_eq_some {outcome : Except Errno Unit} (h : l.childStep? outcome = some l') :
    ChildStep l outcome l' := by
  cases hchild : l.child with
  | unborn | running | ended =>
    cases outcome <;> simp only [childStep?, hchild, reduceCtorEq] at h
  | guarding =>
    cases outcome with
    | ok u =>
      simp only [childStep?, hchild] at h
      cases h
      exact .guarded hchild
    | error errno =>
      simp only [childStep?, hchild] at h
      split at h
      · rename_i hdies
        cases h
        exact .failed (.inl ⟨hchild, hdies⟩)
      · cases h
        exact .guarded hchild
  | waiting =>
    cases outcome with
    | ok u =>
      simp only [childStep?, hchild] at h
      obtain ⟨hreleased, heq⟩ := Option.ite_none_right_eq_some.mp h
      cases heq
      exact .woken hchild hreleased
    | error errno =>
      simp only [childStep?, hchild] at h
      cases h
      exact .failed (.inr (.inl hchild))
  | parking =>
    cases outcome <;> simp only [childStep?, hchild] at h <;> cases h
    · exact .failed (.inr (.inr hchild))
    · exact .parked hchild
  | placing left =>
    cases left with
    | zero =>
      simp only [childStep?, hchild] at h
      cases h
      exact .readied hchild
    | succ left =>
      cases outcome <;> simp only [childStep?, hchild] at h <;> cases h
      · exact .reported (.inr ⟨left, hchild⟩)
      · exact .placed hchild
  | executing =>
    cases outcome <;> simp only [childStep?, hchild] at h <;> cases h
    · exact .reported (.inl hchild)
    · exact .executed hchild

/-! ## What holds at each stage -/

/-- Before there is a child. -/
def Unborn (l : Launch) : Prop :=
  l.child = .unborn ∧ l.released = false ∧ l.report = none ∧ l.reaped = false

/-- What an attempt has come to when its spawning process stands at a stage. -/
def StandsAt (l : Launch) : Spawner → Prop
  | .planning | .openingSync => l.Unborn ∧ l.held = [.channelEnds]
  | .openingStatus => l.Unborn ∧ l.held = [.channelEnds, .syncRead, .syncWrite]
  | .cloning =>
    l.Unborn ∧ l.held = [.channelEnds, .syncRead, .syncWrite, .statusRead, .statusWrite]
  | .locating | .mapping _ | .releasing =>
    (l.child = .guarding ∨ l.child = .waiting ∨ l.child = .ended) ∧ l.released = false ∧
      l.report = none ∧ l.reaped = false ∧ l.held = [.syncWrite, .statusRead, .childRef]
  | .reading =>
    l.child ≠ .unborn ∧ l.released = true ∧ (l.report = none ∨ l.child = .ended) ∧
      l.reaped = false ∧ l.held = [.statusRead, .childRef]
  | .killing _ | .reaping _ => l.child ≠ .unborn ∧ l.reaped = false
  | .finished (.ok ()) =>
    (l.child = .running ∨ l.child = .ended) ∧ l.released = true ∧ l.report = none ∧
      l.reaped = false ∧ l.held = [.childRef]
  | .finished (.error e) =>
    (∃ reason, e = .spawnFailed l.options.role reason) ∧ l.held = [] ∧
      ((l.child = .unborn ∧ l.reaped = false) ∨ (l.child = .ended ∧ l.reaped = true))

def Sound (l : Launch) : Prop := l.StandsAt l.spawner

theorem sound_start (options : SpawnOptions) (writer : MapWriter) : (start options writer).Sound :=
  ⟨⟨rfl, rfl, rfl, rfl⟩, rfl⟩

theorem Sound.standsAt (h : l.Sound) {stage : Spawner} (hstage : l.spawner = stage) :
    l.StandsAt stage := hstage ▸ h

theorem Sound.unborn (h : l.Sound)
    (hstage : l.spawner = .planning ∨ l.spawner = .openingSync ∨ l.spawner = .openingStatus ∨
      l.spawner = .cloning) : l.Unborn := by
  rcases hstage with hstage | hstage | hstage | hstage <;> exact (h.standsAt hstage).1

/-- From when there is a child until it is let go. -/
theorem Sound.born (h : l.Sound)
    (hstage : l.spawner = .locating ∨ (∃ action left, l.spawner = .mapping (action :: left)) ∨
      l.spawner = .releasing) :
    (l.child = .guarding ∨ l.child = .waiting ∨ l.child = .ended) ∧ l.released = false ∧
      l.report = none ∧ l.reaped = false ∧ l.held = [.syncWrite, .statusRead, .childRef] := by
  rcases hstage with hstage | ⟨action, left, hstage⟩ | hstage <;> exact h.standsAt hstage

theorem sound_spawner (h : l.Sound) {outcome : Except SpawnFault Unit}
    (hstep : SpawnerStep l outcome l') : l'.Sound := by
  cases hstep with
  | planned hstage => exact h.standsAt hstage
  | openedSync hstage | openedStatus hstage =>
    obtain ⟨hunborn, hheld⟩ := h.standsAt hstage
    exact ⟨hunborn, by simp [hheld]⟩
  | cloned hstage =>
    obtain ⟨⟨-, hunreleased, hreport, hunreaped⟩, hheld⟩ := h.standsAt hstage
    have hkept : l.without [.syncRead, .statusWrite, .channelEnds] ++ [.childRef] =
        [.syncWrite, .statusRead, .childRef] := by
      unfold without
      rw [hheld]
      rfl
    unfold Sound
    split <;> exact ⟨.inl rfl, hunreleased, hreport, hunreaped, hkept⟩
  | located hstage | mapped hstage | readied hstage => exact h.standsAt hstage
  | released hstage hchild =>
    obtain ⟨hbefore, -, hreport, hreaped, hheld⟩ := h.standsAt hstage
    refine ⟨?_, rfl, .inl hreport, hreaped, ?_⟩
    · rcases hbefore with hbefore | hbefore | hbefore <;> simp [hbefore]
    · simp only [without, hheld]
      rfl
  | succeeded hstage hchild hreport =>
    obtain ⟨hborn, hreleased, -, hreaped, hheld⟩ := h.standsAt hstage
    refine ⟨?_, hreleased, hreport, hreaped, ?_⟩
    · unfold childHoldsStatus at hchild
      split at hchild
      · exact absurd ‹_› hborn
      · exact .inl ‹_›
      · exact .inr ‹_›
      · cases hchild
    · simp only [finish, hheld]
      rfl
  | refused hstage _ _ | misread hstage =>
    obtain ⟨hborn, -, -, hreaped, -⟩ := h.standsAt hstage
    exact ⟨hborn, hreaped⟩
  | gaveUp hstage =>
    obtain ⟨hunborn, -, -, hreaped⟩ := h.unborn hstage
    exact ⟨⟨_, rfl⟩, rfl, .inl ⟨hunborn, hreaped⟩⟩
  | aborted hstage =>
    obtain ⟨hchild, -, -, hreaped, -⟩ := h.born hstage
    refine ⟨?_, hreaped⟩
    rcases hchild with hchild | hchild | hchild <;> simp [abort, hchild]
  | unheard hstage hchild =>
    obtain ⟨-, -, -, hreaped, -⟩ := h.standsAt hstage
    exact ⟨by simp [abort, hchild], hreaped⟩
  | killed hstage => exact ⟨nofun, (h.standsAt hstage).2⟩
  | spared hstage => exact h.standsAt hstage
  | reaped _ hchild => exact ⟨⟨_, rfl⟩, rfl, .inr ⟨hchild, rfl⟩⟩

/-- A child's call changes nothing of the spawning process. -/
theorem ChildStep.frame {outcome : Except Errno Unit} (h : ChildStep l outcome l') :
    l'.spawner = l.spawner ∧ l'.released = l.released ∧ l'.reaped = l.reaped ∧
      l'.held = l.held := by
  cases h <;> exact ⟨rfl, rfl, rfl, rfl⟩

/-- Only a child that is there and does not run its program makes calls. -/
theorem ChildStep.at_work {outcome : Except Errno Unit} (h : ChildStep l outcome l') :
    l.child ≠ .unborn ∧ l.child ≠ .running ∧ l.child ≠ .ended := by
  cases h with
  | guarded h | woken h | parked h | placed h | readied h | executed h => simp [h]
  | reported h => rcases h with h | ⟨left, h⟩ <;> simp [h]
  | failed h => rcases h with ⟨h, -⟩ | h | h <;> simp [h]

theorem ChildStep.born {outcome : Except Errno Unit} (h : ChildStep l outcome l') :
    l'.child ≠ .unborn ∧ (l'.report = l.report ∨ l'.child = .ended) := by
  cases h with
  | reported _ => exact ⟨nofun, .inr rfl⟩
  | guarded | woken | parked | placed | readied | executed | failed => exact ⟨nofun, .inl rfl⟩

/-- A child that is not let go comes no further than its sync pipe. -/
theorem ChildStep.held_back {outcome : Except Errno Unit} (h : ChildStep l outcome l')
    (hchild : l.child = .guarding ∨ l.child = .waiting) (hreleased : l.released = false) :
    (l'.child = .waiting ∨ l'.child = .ended) ∧ l'.report = l.report := by
  cases h with
  | guarded _ => exact ⟨.inl rfl, rfl⟩
  | failed _ => exact ⟨.inr rfl, rfl⟩
  | woken _ hlet => simp [hreleased] at hlet
  | parked h | placed h | readied h | executed h => simp [h] at hchild
  | reported h => rcases h with h | ⟨left, h⟩ <;> simp [h] at hchild

theorem sound_child (h : l.Sound) {outcome : Except Errno Unit} (hstep : ChildStep l outcome l') :
    l'.Sound := by
  obtain ⟨hspawner, hreleased, hreaped, hheld⟩ := hstep.frame
  obtain ⟨hborn, hidle, hended⟩ := hstep.at_work
  unfold Sound
  rw [hspawner]
  cases hstage : l.spawner with
  | planning | openingSync | openingStatus | cloning =>
    exact absurd (h.standsAt hstage).1.1 hborn
  | locating | mapping left | releasing =>
    obtain ⟨hchild, hlocked, hreport, hunreaped, hkept⟩ := h.standsAt hstage
    obtain ⟨hchild', hreport'⟩ := hstep.held_back
      (hchild.imp_right fun hchild => hchild.resolve_right hended) hlocked
    exact ⟨.inr hchild', hreleased.trans hlocked, hreport'.trans hreport,
      hreaped.trans hunreaped, hheld.trans hkept⟩
  | reading =>
    obtain ⟨-, hlet, hreport, hunreaped, hkept⟩ := h.standsAt hstage
    obtain ⟨hborn', hreport'⟩ := hstep.born
    refine ⟨hborn', hreleased.trans hlet, ?_, hreaped.trans hunreaped, hheld.trans hkept⟩
    exact hreport'.imp_left fun hsame => hsame.trans (hreport.resolve_right hended)
  | killing reason | reaping reason =>
    exact ⟨hstep.born.1, hreaped.trans (h.standsAt hstage).2⟩
  | finished result =>
    cases result with
    | ok u => rcases (h.standsAt hstage).1 with hchild | hchild <;> contradiction
    | error e =>
      rcases (h.standsAt hstage).2.2 with ⟨hchild, -⟩ | ⟨hchild, -⟩ <;> contradiction

theorem sound_next (h : l.Sound) {move : Move} (hmove : l.next? move = some l') : l'.Sound := by
  cases move with
  | spawner outcome => exact sound_spawner h (spawnerStep?_eq_some hmove)
  | child outcome => exact sound_child h (childStep?_eq_some hmove)

theorem sound_run (h : l.Sound) (moves : List Move) (hrun : l.run? moves = some l') :
    l'.Sound := by
  induction moves generalizing l with
  | nil =>
    cases hrun
    exact h
  | cons move moves ih =>
    obtain ⟨u, hmove, hrest⟩ := Option.bind_eq_some_iff.mp hrun
    exact ih (sound_next h hmove) hrest

/-- A child that ends by itself leaves things in order. -/
theorem sound_perished (h : l.Sound) (hborn : l.child ≠ .unborn) (hgoing : l.child ≠ .ended) :
    ({ l with child := .ended } : Launch).Sound := by
  unfold Sound
  cases hstage : l.spawner with
  | planning | openingSync | openingStatus | cloning =>
    exact absurd (h.standsAt hstage).1.1 hborn
  | locating | mapping left | releasing =>
    obtain ⟨-, hlocked, hreport, hunreaped, hkept⟩ := h.standsAt hstage
    exact ⟨.inr (.inr rfl), hlocked, hreport, hunreaped, hkept⟩
  | reading =>
    obtain ⟨-, hlet, -, hunreaped, hkept⟩ := h.standsAt hstage
    exact ⟨nofun, hlet, .inr rfl, hunreaped, hkept⟩
  | killing reason | reaping reason => exact ⟨nofun, (h.standsAt hstage).2⟩
  | finished result =>
    cases result with
    | ok u =>
      obtain ⟨-, hlet, hreport, hunreaped, hkept⟩ := h.standsAt hstage
      exact ⟨.inr rfl, hlet, hreport, hunreaped, hkept⟩
    | error e =>
      rcases (h.standsAt hstage).2.2 with ⟨hchild, -⟩ | ⟨hchild, -⟩ <;> contradiction

/-- A wait is not undone. -/
theorem reaped_next (hreaped : l.reaped = true) {move : Move} (hmove : l.next? move = some l') :
    l'.reaped = true := by
  cases move with
  | spawner outcome => cases spawnerStep?_eq_some hmove <;> first | rfl | exact hreaped
  | child outcome => rw [(childStep?_eq_some hmove).frame.2.2.1, hreaped]

/-- An attempt that is over stays as it is, whatever the child does. -/
theorem same_of_finished {result : Except ProcessError Unit}
    (hended : l.spawner = .finished result) {move : Move} (hmove : l.next? move = some l') :
    l'.spawner = l.spawner ∧ l'.reaped = l.reaped := by
  cases move with
  | spawner outcome => simp [next?, spawnerStep?, hended] at hmove
  | child outcome =>
    obtain ⟨hspawner, -, hreaped, -⟩ := (childStep?_eq_some hmove).frame
    exact ⟨hspawner, hreaped⟩

/-! ## A launch comes to its end -/

/-- How many calls the spawning process has left at most. -/
def spawnerCalls (l : Launch) : Nat :=
  match l.spawner with
  | .planning => l.plan.length + 10
  | .openingSync => l.plan.length + 9
  | .openingStatus => l.plan.length + 8
  | .cloning => l.plan.length + 7
  | .locating => l.plan.length + 6
  | .mapping left => left.length + 5
  | .releasing => 4
  | .reading => 3
  | .killing _ => 2
  | .reaping _ => 1
  | .finished _ => 0

/-- How many calls the child has left at most. -/
def childCalls (l : Launch) : Nat :=
  match l.child with
  | .unborn | .guarding => placements l.options.fdPassing + 5
  | .waiting => placements l.options.fdPassing + 4
  | .parking => placements l.options.fdPassing + 3
  | .placing left => left + 2
  | .executing => 1
  | .running | .ended => 0

def callsLeft (l : Launch) : Nat := l.spawnerCalls + l.childCalls

theorem spawner_callsLeft_lt (h : l.Sound) {outcome : Except SpawnFault Unit}
    (hstep : SpawnerStep l outcome l') : l'.callsLeft < l.callsLeft := by
  cases hstep with
  | planned hstage | openedSync hstage | openedStatus hstage | readied hstage
  | released hstage _ | spared hstage =>
    simp only [callsLeft, spawnerCalls, childCalls, hstage, plan, List.length_nil]
    omega
  | located hstage | mapped hstage =>
    simp only [callsLeft, spawnerCalls, childCalls, hstage, plan, List.length_cons]
    omega
  | cloned hstage =>
    obtain ⟨⟨hunborn, -⟩, -⟩ := h.standsAt hstage
    by_cases hempty : l.plan.isEmpty = true
    · simp only [callsLeft, spawnerCalls, childCalls, hstage, hunborn, if_pos hempty,
        List.length_nil]
      omega
    · simp only [callsLeft, spawnerCalls, childCalls, hstage, hunborn, if_neg hempty]
      simp only [plan]
      omega
  | succeeded hstage _ _ | refused hstage _ _ | misread hstage | killed hstage
  | reaped hstage _ | unheard hstage _ =>
    simp only [callsLeft, spawnerCalls, childCalls, hstage, finish, giveUp, abort, awaitEnd]
    omega
  | gaveUp hstage =>
    rcases hstage with hstage | hstage | hstage | hstage
    all_goals
      simp only [callsLeft, spawnerCalls, childCalls, hstage, finish, giveUp]
      omega
  | aborted hstage =>
    rcases hstage with hstage | ⟨action, left, hstage⟩ | hstage
    all_goals
      simp only [callsLeft, spawnerCalls, childCalls, hstage, abort]
      omega

theorem child_callsLeft_lt {outcome : Except Errno Unit} (hstep : ChildStep l outcome l') :
    l'.callsLeft < l.callsLeft := by
  have hsame : l'.spawnerCalls = l.spawnerCalls := by
    cases hstep <;> rfl
  have hless : l'.childCalls < l.childCalls := by
    cases hstep with
    | guarded h | woken h | parked h | placed h | readied h | executed h => simp [childCalls, h]
    | reported h => rcases h with h | ⟨left, h⟩ <;> simp [childCalls, h]
    | failed h => rcases h with ⟨h, -⟩ | h | h <;> simp [childCalls, h]
  unfold callsLeft
  omega

theorem callsLeft_lt (h : l.Sound) {move : Move} (hmove : l.next? move = some l') :
    l'.callsLeft < l.callsLeft := by
  cases move with
  | spawner outcome => exact spawner_callsLeft_lt h (spawnerStep?_eq_some hmove)
  | child outcome => exact child_callsLeft_lt (childStep?_eq_some hmove)

/-- A child whose end is waited for has ended. This holds unless it could not be killed. -/
def Killed (l : Launch) : Prop := ∀ reason, l.spawner = .reaping reason → l.child = .ended

theorem killed_spawner (h : l.Sound) {outcome : Except SpawnFault Unit}
    (hkills : ∀ reason, l.spawner = .killing reason → outcome = .ok ())
    (hstep : SpawnerStep l outcome l') : l'.Killed := by
  intro reason hreason
  cases hstep with
  | refused hstage _ hreport =>
    obtain ⟨-, -, hended, -⟩ := h.standsAt hstage
    rw [hreport] at hended
    exact hended.resolve_left (by simp)
  | killed _ => rfl
  | spared hstage => cases hkills _ hstage
  | cloned _ =>
    simp only at hreason
    split at hreason <;> cases hreason
  | planned | openedSync | openedStatus | located | mapped | readied | released | succeeded
  | gaveUp | aborted | unheard | misread | reaped => cases hreason

theorem killed_child (hkilled : l.Killed) {outcome : Except Errno Unit}
    (hstep : ChildStep l outcome l') : l'.Killed := by
  intro reason hreason
  rw [hstep.frame.1] at hreason
  exact absurd (hkilled reason hreason) hstep.at_work.2.2

/-- A spawning process waits for nothing but its child, and that one goes on. -/
theorem Sound.finished_of_stuck (h : l.Sound) (hkilled : l.Killed)
    {outcome : Except SpawnFault Unit} {outcome' : Except Errno Unit}
    (hspawner : l.spawnerStep? outcome = none) (hchild : l.childStep? outcome' = none) :
    ∃ result, l.spawner = .finished result := by
  cases hstage : l.spawner with
  | finished result => exact ⟨result, rfl⟩
  | planning | openingSync | openingStatus | cloning | locating | killing reason =>
    cases outcome <;> simp [spawnerStep?, hstage] at hspawner
  | mapping left => cases left <;> cases outcome <;> simp [spawnerStep?, hstage] at hspawner
  | releasing =>
    cases outcome with
    | error e => simp [spawnerStep?, hstage] at hspawner
    | ok u =>
      simp only [spawnerStep?, hstage] at hspawner
      split at hspawner <;> cases hspawner
  | reaping reason => simp [spawnerStep?, hstage, hkilled reason hstage] at hspawner
  | reading =>
    obtain ⟨hborn, hlet, -, -, hheld⟩ := h.standsAt hstage
    cases outcome with
    | error e => simp [spawnerStep?, hstage] at hspawner
    | ok u =>
      cases hat : l.child with
      | unborn => exact absurd hat hborn
      | running | ended =>
        simp only [spawnerStep?, hstage, childHoldsStatus, hat, hheld] at hspawner
        cases hreport : l.report <;> simp [hreport] at hspawner
      | guarding | parking | executing => cases outcome' <;> simp [childStep?, hat] at hchild
      | waiting => cases outcome' <;> simp [childStep?, hat, hlet] at hchild
      | placing left => cases left <;> cases outcome' <;> simp [childStep?, hat] at hchild

/-! ## What an answer says -/

/-- Whether the attempt is given up. -/
def hasFailed (l : Launch) : Bool :=
  match l.spawner with
  | .killing _ | .reaping _ | .finished (.error _) => true
  | _ => false

/-- A child's end is reported, or the attempt is given up. -/
def Accounted (l : Launch) : Prop := l.child = .ended → l.report ≠ none ∨ l.hasFailed = true

theorem accounted_start (options : SpawnOptions) (writer : MapWriter) :
    (start options writer).Accounted := by
  intro hended
  cases hended

/-- What is accounted for stays so while the spawning process goes on. -/
theorem Accounted.of_going (h : l.Accounted) (hgoing : l.hasFailed = false)
    (hchild : l'.child = l.child) (hreport : l'.report = l.report) : l'.Accounted := by
  intro hended
  rw [hreport]
  exact .inl ((h (hchild ▸ hended)).resolve_right (by simp [hgoing]))

theorem accounted_next (haccounted : l.Accounted) {move : Move}
    (hmove : l.next? move = some l') (hmute : l.isMute move = false) : l'.Accounted := by
  cases move with
  | spawner outcome =>
    cases spawnerStep?_eq_some hmove with
    | cloned _ => exact nofun
    | aborted | unheard | misread | refused | killed | spared | reaped | gaveUp =>
      exact fun _ => .inr rfl
    | planned hstage | openedSync hstage | openedStatus hstage | located hstage | mapped hstage
    | readied hstage | released hstage _ | succeeded hstage _ _ =>
      exact haccounted.of_going (by simp [hasFailed, hstage]) rfl rfl
  | child outcome =>
    cases childStep?_eq_some hmove with
    | reported _ => exact fun _ => .inl nofun
    | failed h' =>
      have hdeaf : l.canReport = false := by
        rcases h' with ⟨hchild, -⟩ | hchild | hchild <;> simp [canReport, hchild]
      simp [isMute, hdeaf] at hmute
    | guarded | woken | parked | placed | readied | executed => exact nofun

/-- The answer of an attempt accounts for its child, or the child failed a call when it could not
report it. -/
theorem accounted_run (haccounted : l.Accounted) (moves : List Move)
    (hrun : l.run? moves = some l') :
    l'.Accounted ∨ ∃ before move after u, moves = before ++ move :: after ∧
      l.run? before = some u ∧ u.isMute move = true := by
  induction moves generalizing l with
  | nil =>
    cases hrun
    exact .inl haccounted
  | cons move moves ih =>
    obtain ⟨u, hmove, hrest⟩ := Option.bind_eq_some_iff.mp hrun
    cases hmute : l.isMute move with
    | true => exact .inr ⟨[], move, moves, l, rfl, rfl, hmute⟩
    | false =>
      refine (ih (accounted_next haccounted hmove hmute) hrest).imp_right ?_
      rintro ⟨before, mute, after, v, rfl, hbefore, hv⟩
      exact ⟨move :: before, mute, after, v, rfl,
        Option.bind_eq_some_iff.mpr ⟨u, hmove, hbefore⟩, hv⟩

/-- What is to be started, and who writes its maps, never changes. -/
theorem same_next {move : Move} (hmove : l.next? move = some l') :
    l'.options = l.options ∧ l'.writer = l.writer := by
  cases move with
  | spawner outcome => cases spawnerStep?_eq_some hmove <;> exact ⟨rfl, rfl⟩
  | child outcome => cases childStep?_eq_some hmove <;> exact ⟨rfl, rfl⟩

theorem same_run (moves : List Move) (hrun : l.run? moves = some l') :
    l'.options = l.options ∧ l'.writer = l.writer := by
  induction moves generalizing l with
  | nil =>
    cases hrun
    exact ⟨rfl, rfl⟩
  | cons move moves ih =>
    obtain ⟨u, hmove, hrest⟩ := Option.bind_eq_some_iff.mp hrun
    obtain ⟨hoptions, hwriter⟩ := same_next hmove
    exact ⟨(ih hrest).1.trans hoptions, (ih hrest).2.trans hwriter⟩

theorem Sound.running_of_ok (h : l.Sound) (haccounted : l.Accounted)
    (hended : l.spawner = .finished (.ok ())) : l.child = .running := by
  obtain ⟨hchild, -, hreport, -, -⟩ := h.standsAt hended
  refine hchild.resolve_right fun hchild => ?_
  rcases haccounted hchild with hreported | hfailed
  · exact hreported hreport
  · simp [hasFailed, hended] at hfailed

/-- An attempt that succeeds has a child whose program runs, but for one that failed a call before
its status pipe was out of the way: its end is taken for the start of its program. An attempt that
does not succeed is refused, and has no child. -/
theorem a_started_child_runs_unless_it_failed_mutely (options : SpawnOptions) (writer : MapWriter)
    (moves : List Move) (l : Launch) (hrun : (start options writer).run? moves = some l)
    (result : Except ProcessError Unit) (hended : l.spawner = .finished result) :
    (result = .ok () ∧ (l.child = .running ∨ ∃ before move after u,
      moves = before ++ move :: after ∧ (start options writer).run? before = some u ∧
        u.isMute move = true)) ∨
      ((∃ reason, result = .error (.spawnFailed options.role reason)) ∧
        (l.child = .unborn ∨ l.child = .ended)) := by
  have h : l.Sound := sound_run (sound_start options writer) moves hrun
  cases result with
  | ok u =>
    refine .inl ⟨rfl, ?_⟩
    exact (accounted_run (accounted_start options writer) moves hrun).imp_left
      fun haccounted => h.running_of_ok haccounted hended
  | error e =>
    obtain ⟨⟨reason, rfl⟩, -, hchild⟩ := h.standsAt hended
    rw [(same_run moves hrun).1]
    exact .inr ⟨⟨reason, rfl⟩, hchild.imp And.left And.left⟩

/-- A plain child is let go, has no number left for its status pipe, and counts as started. -/
example (writer : MapWriter) (killGrace : Duration) :
    ∃ l, (start ⟨.zygote, .ofText "/tree", .none, [], [], .fixed, killGrace, true⟩ writer).run? [
        .spawner (.ok ()), .spawner (.ok ()), .spawner (.ok ()), .spawner (.ok ()),
        .spawner (.ok ()), .spawner (.ok ()), .child (.ok ()), .child (.ok ()),
        .child (.error ⟨24⟩), .spawner (.ok ())] = some l ∧
      l.child = .ended ∧ l.spawner = .finished (.ok ()) :=
  ⟨_, rfl, rfl, rfl⟩

/-! ## A launch on a host -/

theorem length_plan_le (l : Launch) : l.plan.length ≤ 3 := by
  have huser : (l.writer.actions .user l.options.uidMap).length ≤ 1 := by
    unfold MapWriter.actions
    split
    · simp
    · split <;> simp
  have hgroup : (l.writer.actions .group l.options.gidMap).length ≤ 2 := by
    unfold MapWriter.actions
    split
    · simp
    · split <;> simp
  unfold plan MapWriter.plan
  rw [List.length_append]
  omega

theorem callsLeft_start_le (options : SpawnOptions) (writer : MapWriter) :
    (start options writer).callsLeft ≤ calls := by
  have hplan := (start options writer).length_plan_le
  have hplacements : placements options.fdPassing ≤ 4 := by
    cases options.fdPassing <;> decide
  have hleft : (start options writer).callsLeft =
      ((start options writer).plan.length + 10) + (placements options.fdPassing + 5) := rfl
  unfold calls
  omega

variable {answers : Launch → Except SpawnFault Unit} {program : Except Errno Unit}

/-- The child's calls go well before its program is run. -/
theorem isMute_childOutcome (l : Launch) : l.isMute (.child (childOutcome program l)) = false := by
  unfold isMute childOutcome canReport
  cases l.child <;> cases program <;> rfl

/-- A program runs if it can be run. -/
theorem ran_child (h : l.childStep? (childOutcome program l) = some l')
    (hrunning : l'.child = .running) : program = .ok () := by
  generalize houtcome : childOutcome program l = outcome at h
  cases childStep?_eq_some h with
  | executed hchild => simpa [childOutcome, hchild] using houtcome
  | guarded | woken | parked | placed | readied | reported | failed => cases hrunning

theorem ran_spawner {outcome : Except SpawnFault Unit} (h : l.spawnerStep? outcome = some l')
    (hrunning : l'.child = .running) : l.child = .running := by
  cases spawnerStep?_eq_some h with
  | cloned | killed => cases hrunning
  | planned | openedSync | openedStatus | located | mapped | readied | released | succeeded
  | refused | gaveUp | aborted | unheard | misread | spared | reaped => exact hrunning

/-- Whatever the calls are answered, with as many of them as are left an attempt comes to its end,
and what it says of its child is so. -/
theorem runWithin_spec {fuel : Nat} (h : l.Sound) (haccounted : l.Accounted)
    (hkilled : l.Killed) (hran : l.child = .running → program = .ok ())
    (hfuel : l.callsLeft ≤ fuel) :
    (∃ result, (runWithin answers program fuel l).spawner = .finished result) ∧
      ((runWithin answers program fuel l).spawner = .finished (.ok ()) → program = .ok ()) := by
  induction fuel generalizing l with
  | zero =>
    refine ⟨?_, fun hended => hran (h.running_of_ok haccounted hended)⟩
    have hnone : l.spawnerCalls = 0 := Nat.eq_zero_of_add_eq_zero_right (Nat.le_zero.mp hfuel)
    cases hstage : l.spawner with
    | finished result => exact ⟨result, hstage⟩
    | planning | openingSync | openingStatus | cloning | locating | mapping _ | releasing
    | reading | killing _ | reaping _ => simp [spawnerCalls, hstage] at hnone
  | succ fuel ih =>
    unfold runWithin
    cases hspawner : l.spawnerStep? (spawnerOutcome answers l) with
    | some l' =>
      have hmove : l.next? (.spawner (spawnerOutcome answers l)) = some l' := hspawner
      have hkills : ∀ reason, l.spawner = .killing reason →
          spawnerOutcome answers l = .ok () := by
        intro reason hstage
        simp [spawnerOutcome, hstage]
      refine ih (sound_next h hmove) (accounted_next haccounted hmove rfl)
        (killed_spawner h hkills (spawnerStep?_eq_some hspawner))
        (fun hrunning => hran (ran_spawner hspawner hrunning)) ?_
      have hless := callsLeft_lt h hmove
      omega
    | none =>
      simp only
      cases hchild : l.childStep? (childOutcome program l) with
      | some l' =>
        have hmove : l.next? (.child (childOutcome program l)) = some l' := hchild
        refine ih (sound_next h hmove) (accounted_next haccounted hmove l.isMute_childOutcome)
          (killed_child hkilled (childStep?_eq_some hchild)) (ran_child hchild) ?_
        have hless := callsLeft_lt h hmove
        omega
      | none =>
        exact ⟨h.finished_of_stuck hkilled hspawner hchild,
          fun hended => hran (h.running_of_ok haccounted hended)⟩

/-- A launch has enough calls, and succeeds only with a program that can be run. -/
theorem run_spec (answers : Launch → Except SpawnFault Unit) (program : Except Errno Unit)
    (options : SpawnOptions) (writer : MapWriter) :
    (runWithin answers program calls (start options writer)).spawner =
        .finished (run answers program options writer) ∧
      (run answers program options writer = .ok () → program = .ok ()) := by
  obtain ⟨⟨result, hended⟩, hok⟩ := runWithin_spec (sound_start options writer) (accounted_start options writer) nofun nofun
    (callsLeft_start_le options writer)
  have hrun : run answers program options writer = result := by
    unfold run
    rw [hended]
  rw [hrun]
  exact ⟨hended, fun h => hok (h ▸ hended)⟩

end ProcessTree.Launch
