-- The id maps of a child. They are written while the child waits for a byte; it gets that
-- byte when all of them are written, and if one cannot be written it never runs its program.
-- Only a child in a user namespace of its own is given maps.
import ProcessTree.Proofs.Process.Launching

namespace ProcessTree

/-! ## Options -/

/-- The map of a kind. -/
def SpawnOptions.mapOf (o : SpawnOptions) : IdKind → IdMap
  | .user => o.uidMap
  | .group => o.gidMap

theorem Namespaces.mem_flagNames_of_user {n : Namespaces} (h : n.user = true) :
    "CLONE_NEWUSER" ∈ n.flagNames := by
  unfold flagNames
  refine List.mem_map.mpr ⟨(n.user, "CLONE_NEWUSER", 0x10000000), ?_, rfl⟩
  rw [List.mem_filter]
  exact ⟨by simp [flags], h⟩

/-- A child with a map gets a user namespace of its own. -/
theorem SpawnOptions.user_of_map {config : Config} {role : Role} {identity : JobIdentity}
    {running : OsText} {options : SpawnOptions}
    (h : child? config role identity running = some options) {kind : IdKind}
    (hmap : options.mapOf kind ≠ []) : options.namespaces.user = true := by
  cases role with
  | root => cases h
  | zygote =>
    cases h
    cases kind <;> exact absurd rfl hmap
  | worker =>
    cases h
    by_cases huser : config.workerNamespaces.user = true
    · exact huser
    · apply absurd _ hmap
      cases kind <;> exact if_neg huser
  | job =>
    cases h
    cases identity with
    | mapRoot => rfl
    | unmapped | shared => cases kind <;> exact absurd rfl hmap

/-- A map is written, by the one who starts the child or by a helper program. -/
def Written (kind : IdKind) (map : IdMap) (done : List MapAction) : Prop :=
  .write kind map ∈ done ∨ .help kind map ∈ done

theorem MapWriter.written_actions (w : MapWriter) (kind : IdKind) {map : IdMap} (h : map ≠ []) :
    Written kind map (w.actions kind map) := by
  unfold actions
  rw [if_neg (by simpa using h)]
  split
  · left
    cases kind <;> simp
  · right
    exact List.mem_singleton.mpr rfl

namespace Launch

/-! ## What is carried out -/

/-- The action on a map that a move carries out. -/
def action? (l : Launch) : Move → Option MapAction
  | .spawner (.ok ()) =>
    match l.spawner with
    | .mapping (action :: _) => some action
    | _ => none
  | _ => none

/-- The actions on maps that a row of moves carries out, in their order. -/
def carriedOut (l : Launch) : List Move → List MapAction
  | [] => []
  | move :: moves =>
    (l.action? move).toList ++ ((l.next? move).map fun l' => l'.carriedOut moves).getD []

/-- Whether the spawning process is about to write a map, or to look for the place for it. -/
def WritesMaps (l : Launch) : Prop :=
  l.spawner = .locating ∨ ∃ action left, l.spawner = .mapping (action :: left)

/-- Whether the child has got its byte. -/
def isLetGo (l : Launch) : Bool :=
  match l.child with
  | .parking | .placing _ | .executing | .running => true
  | .unborn | .guarding | .waiting | .ended => false

variable {l l' : Launch} {done : List MapAction}

theorem written_plan (l : Launch) {kind : IdKind} (h : l.options.mapOf kind ≠ []) :
    Written kind (l.options.mapOf kind) l.plan := by
  unfold plan MapWriter.plan
  cases kind with
  | user =>
    apply (l.writer.written_actions .user h).imp
    · exact List.mem_append_left _
    · exact List.mem_append_left _
  | group =>
    apply (l.writer.written_actions .group h).imp
    · exact List.mem_append_right _
    · exact List.mem_append_right _

/-- Where there is something to be done, there is a map. -/
theorem map_of_plan (h : l.plan ≠ []) : ∃ kind, l.options.mapOf kind ≠ [] := by
  by_cases huser : l.options.uidMap = []
  · by_cases hgroup : l.options.gidMap = []
    · apply absurd _ h
      unfold plan MapWriter.plan
      rw [huser, hgroup]
      rfl
    · exact ⟨.group, hgroup⟩
  · exact ⟨.user, huser⟩

/-! ## The invariant -/

/-- How much of the plan is carried out at a stage. -/
def DoneAt (l : Launch) (done : List MapAction) : Spawner → Prop
  | .planning | .openingSync | .openingStatus | .cloning => done = []
  | .locating => done = [] ∧ l.plan ≠ []
  | .mapping left => done ++ left = l.plan
  | .releasing => done = l.plan
  | .reading | .killing _ | .reaping _ | .finished _ => True

/-- The byte is written behind the last action, and the child goes on behind the byte. -/
structure Mapped (l : Launch) (done : List MapAction) : Prop where
  stage : l.DoneAt done l.spawner
  released : l.released = true → done = l.plan
  letGo : l.isLetGo = true → l.released = true

theorem mapped_start (options : SpawnOptions) (writer : MapWriter) :
    (start options writer).Mapped [] where
  stage := rfl
  released := by
    intro hreleased
    cases hreleased
  letGo := by
    intro hletGo
    cases hletGo

theorem Mapped.doneAt (h : l.Mapped done) {stage : Spawner} (hstage : l.spawner = stage) :
    l.DoneAt done stage := hstage ▸ h.stage

/-- A move that carries nothing out, and does not let the child go. -/
theorem Mapped.of_idle (h : l.Mapped done) {move : Move} (hidle : l.action? move = none)
    (hstage : l'.DoneAt done l'.spawner) (hplan : l'.plan = l.plan)
    (hreleased : l'.released = l.released) (hletGo : l'.isLetGo = true → l.isLetGo = true) :
    l'.Mapped (done ++ (l.action? move).toList) := by
  rw [hidle, Option.toList_none, List.append_nil]
  refine ⟨hstage, ?_, ?_⟩
  · rw [hreleased, hplan]
    exact h.released
  · rw [hreleased]
    exact fun hgone => h.letGo (hletGo hgone)

theorem action?_eq_none {outcome : Except SpawnFault Unit}
    (h : ∀ action left, l.spawner ≠ .mapping (action :: left)) :
    l.action? (.spawner outcome) = none := by
  unfold action?
  split
  · split
    · rename_i action left hstage
      exact absurd hstage (h action left)
    · rfl
  · rfl

theorem mapped_spawner (h : l.Mapped done) {outcome : Except SpawnFault Unit}
    (hstep : SpawnerStep l outcome l') :
    l'.Mapped (done ++ (l.action? (.spawner outcome)).toList) := by
  cases hstep with
  | planned hstage | openedSync hstage | openedStatus hstage =>
    exact h.of_idle (action?_eq_none (by simp [hstage])) (h.doneAt hstage) rfl rfl id
  | cloned hstage =>
    refine h.of_idle (action?_eq_none (by simp [hstage])) ?_ rfl rfl (by simp [isLetGo])
    have hdone : done = [] := h.doneAt hstage
    by_cases hempty : l.plan.isEmpty = true
    · simp only [if_pos hempty, hdone]
      exact (List.isEmpty_iff.mp hempty).symm
    · simp only [if_neg hempty]
      exact ⟨hdone, fun hnil => hempty (List.isEmpty_iff.mpr hnil)⟩
  | located hstage =>
    refine h.of_idle (action?_eq_none (by simp [hstage])) ?_ rfl rfl id
    obtain ⟨hdone, -⟩ : done = [] ∧ l.plan ≠ [] := h.doneAt hstage
    rw [hdone]
    rfl
  | @mapped action left hstage =>
    have hdone : done ++ action :: left = l.plan := h.doneAt hstage
    have haction : l.action? (.spawner (.ok ())) = some action := by
      simp [action?, hstage]
    rw [haction, Option.toList_some]
    refine ⟨?_, ?_, h.letGo⟩
    · rw [List.append_cons] at hdone
      exact hdone
    · intro hreleased
      -- The byte is not written while there is something left to be done.
      have hall := h.released hreleased
      rw [← hdone] at hall
      simp at hall
  | readied hstage =>
    refine h.of_idle (action?_eq_none (by simp [hstage])) ?_ rfl rfl id
    have hdone : done ++ [] = l.plan := h.doneAt hstage
    rw [List.append_nil] at hdone
    exact hdone
  | released hstage _ =>
    have hdone : done = l.plan := h.doneAt hstage
    rw [action?_eq_none (by simp [hstage]), Option.toList_none, List.append_nil]
    exact ⟨trivial, fun _ => hdone, fun _ => rfl⟩
  | succeeded hstage _ _ | refused hstage _ _ | misread hstage | spared hstage
  | reaped hstage _ =>
    exact h.of_idle (action?_eq_none (by simp [hstage])) trivial rfl rfl id
  | gaveUp _ | aborted _ => exact h.of_idle rfl trivial rfl rfl id
  | unheard hstage _ =>
    exact h.of_idle (action?_eq_none (by simp [hstage])) trivial rfl rfl id
  | killed hstage =>
    exact h.of_idle (action?_eq_none (by simp [hstage])) trivial rfl rfl (by simp [isLetGo])

theorem mapped_child (h : l.Mapped done) {outcome : Except Errno Unit}
    (hstep : ChildStep l outcome l') :
    l'.Mapped (done ++ (l.action? (.child outcome)).toList) := by
  rw [show (l.action? (.child outcome)).toList = [] from rfl, List.append_nil]
  cases hstep with
  | guarded _ | reported _ | failed _ => exact ⟨h.stage, h.released, nofun⟩
  | woken _ hreleased => exact ⟨h.stage, h.released, fun _ => hreleased⟩
  | parked hchild | placed hchild | readied hchild | executed hchild =>
    exact ⟨h.stage, h.released, fun _ => h.letGo (by simp [isLetGo, hchild])⟩

theorem mapped_next (h : l.Mapped done) {move : Move} (hmove : l.next? move = some l') :
    l'.Mapped (done ++ (l.action? move).toList) := by
  cases move with
  | spawner outcome => exact mapped_spawner h (spawnerStep?_eq_some hmove)
  | child outcome => exact mapped_child h (childStep?_eq_some hmove)

theorem mapped_run (h : l.Mapped done) (moves : List Move) (hrun : l.run? moves = some l') :
    l'.Mapped (done ++ l.carriedOut moves) := by
  induction moves generalizing l done with
  | nil =>
    cases hrun
    rw [carriedOut, List.append_nil]
    exact h
  | cons move moves ih =>
    obtain ⟨u, hmove, hrest⟩ := Option.bind_eq_some_iff.mp hrun
    have hmapped := ih (mapped_next h hmove) hrest
    rw [List.append_assoc] at hmapped
    simpa only [carriedOut, hmove, Option.map_some, Option.getD_some] using hmapped

theorem Mapped.plan_ne_nil (h : l.Mapped done) (hwrites : l.WritesMaps) : l.plan ≠ [] := by
  rcases hwrites with hstage | ⟨action, left, hstage⟩
  · obtain ⟨-, hplan⟩ : done = [] ∧ l.plan ≠ [] := h.doneAt hstage
    exact hplan
  · have hdone : done ++ action :: left = l.plan := h.doneAt hstage
    rw [← hdone]
    simp

/-! ## A map that cannot be written -/

/-- The byte stays written. -/
theorem released_next (hreleased : l.released = true) {move : Move}
    (hmove : l.next? move = some l') : l'.released = true := by
  cases move with
  | spawner outcome =>
    cases spawnerStep?_eq_some hmove with
    | released _ _ => rfl
    | planned | openedSync | openedStatus | cloned | located | mapped | readied | succeeded
    | refused | gaveUp | aborted | unheard | misread | killed | spared | reaped =>
      exact hreleased
  | child outcome => rw [(childStep?_eq_some hmove).frame.2.1, hreleased]

theorem released_run (hreleased : l.released = true) (moves : List Move)
    (hrun : l.run? moves = some l') : l'.released = true := by
  induction moves generalizing l with
  | nil =>
    cases hrun
    exact hreleased
  | cons move moves ih =>
    obtain ⟨u, hmove, hrest⟩ := Option.bind_eq_some_iff.mp hrun
    exact ih (released_next hreleased hmove) hrest

/-- The attempt is given up, and its child was never let go. -/
structure HeldBack (l : Launch) : Prop where
  failed : l.hasFailed = true
  locked : l.released = false
  child : l.child = .guarding ∨ l.child = .waiting ∨ l.child = .ended

theorem heldBack_of_fault (h : l.Sound) (hwrites : l.WritesMaps) {fault : SpawnFault}
    (hmove : l.next? (.spawner (.error fault)) = some l') : l'.HeldBack := by
  obtain ⟨hchild, hlocked, -⟩ := h.born (hwrites.imp_right .inl)
  cases spawnerStep?_eq_some hmove with
  | aborted _ => exact ⟨rfl, hlocked, hchild⟩
  | readied hstage | gaveUp hstage | misread hstage | spared hstage | reaped hstage _ =>
    rcases hwrites with hwrites | ⟨action, left, hwrites⟩ <;> simp [hwrites] at hstage

theorem heldBack_next (h : l.HeldBack) {move : Move} (hmove : l.next? move = some l') :
    l'.HeldBack := by
  have hfailed := h.failed
  cases move with
  | spawner outcome =>
    cases spawnerStep?_eq_some hmove with
    | killed _ => exact ⟨rfl, h.locked, .inr (.inr rfl)⟩
    | spared _ | reaped _ _ => exact ⟨rfl, h.locked, h.child⟩
    | planned hstage | openedSync hstage | openedStatus hstage | cloned hstage | located hstage
    | mapped hstage | readied hstage | released hstage _ | succeeded hstage _ _
    | refused hstage _ _ | unheard hstage _ | misread hstage =>
      simp [hasFailed, hstage] at hfailed
    | gaveUp hstage =>
      rcases hstage with hstage | hstage | hstage | hstage <;> simp [hasFailed, hstage] at hfailed
    | aborted hstage =>
      rcases hstage with hstage | ⟨action, left, hstage⟩ | hstage <;>
        simp [hasFailed, hstage] at hfailed
  | child outcome =>
    have hstep := childStep?_eq_some hmove
    obtain ⟨hspawner, hreleased, -, -⟩ := hstep.frame
    have hbefore := h.child.imp_right fun hchild => hchild.resolve_right hstep.at_work.2.2
    obtain ⟨hchild, -⟩ := hstep.held_back hbefore h.locked
    refine ⟨?_, hreleased.trans h.locked, .inr hchild⟩
    unfold hasFailed
    rw [hspawner]
    exact hfailed

theorem heldBack_run (h : l.HeldBack) (moves : List Move) (hrun : l.run? moves = some l') :
    l'.HeldBack := by
  induction moves generalizing l with
  | nil =>
    cases hrun
    exact h
  | cons move moves ih =>
    obtain ⟨u, hmove, hrest⟩ := Option.bind_eq_some_iff.mp hrun
    exact ih (heldBack_next h hmove) hrest

theorem mapped_from_start {options : SpawnOptions} {writer : MapWriter} {moves : List Move}
    (hrun : (start options writer).run? moves = some l) :
    l.Mapped ((start options writer).carriedOut moves) := by
  have hmapped := mapped_run (mapped_start options writer) moves hrun
  rw [List.nil_append] at hmapped
  exact hmapped

/-- A byte that is not written in the end was never written, and the child never let go. -/
theorem never_let_go {options : SpawnOptions} {writer : MapWriter} {earlier later : List Move}
    {v : Launch} (hv : (start options writer).run? earlier = some v)
    (hlater : v.run? later = some l) (hlocked : l.released = false) :
    v.child ≠ .executing ∧ v.child ≠ .running := by
  have hheld : v.isLetGo = false := by
    cases hletGo : v.isLetGo with
    | false => rfl
    | true =>
      have hlast := released_run ((mapped_from_start hv).letGo hletGo) later hlater
      rw [hlocked] at hlast
      cases hlast
  constructor <;> intro hchild <;> simp [isLetGo, hchild] at hheld

/-- An attempt that is given up in time ends refused, with its child. -/
theorem refused_of_heldBack (h : l.HeldBack) (hsound : l.Sound)
    {result : Except ProcessError Unit} (hended : l.spawner = .finished result) :
    (∃ reason, result = .error (.spawnFailed l.options.role reason)) ∧ l.child = .ended := by
  have hfailed := h.failed
  unfold hasFailed at hfailed
  rw [hended] at hfailed
  cases result with
  | ok _ => cases hfailed
  | error e =>
    obtain ⟨hreason, -, hchild⟩ := hsound.standsAt hended
    obtain ⟨reason, rfl⟩ := hreason
    refine ⟨⟨reason, rfl⟩, ?_⟩
    rcases hchild with ⟨hchild, -⟩ | ⟨hchild, -⟩
    · have hborn := h.child
      simp [hchild] at hborn
    · exact hchild

/-! ## The law -/

/-- A zygote, a worker or a job comes to run its program only when each of its maps is written and
the byte behind them too. If a map cannot be written, the attempt is refused with a child that has
ended and never came to run its program. Maps are written only for a child in a user namespace of
its own. -/
theorem a_program_runs_only_behind_its_maps {config : Config} {role : Role}
    {identity : JobIdentity} {running : OsText} {options : SpawnOptions}
    (hoptions : SpawnOptions.child? config role identity running = some options)
    (writer : MapWriter) (moves : List Move) (l : Launch)
    (hrun : (start options writer).run? moves = some l) :
    ((l.child = .executing ∨ l.child = .running) →
      l.released = true ∧
      (start options writer).carriedOut moves = writer.plan options.uidMap options.gidMap ∧
      ∀ kind, options.mapOf kind ≠ [] →
        Written kind (options.mapOf kind) ((start options writer).carriedOut moves)) ∧
    (∀ before fault after u, moves = before ++ .spawner (.error fault) :: after →
      (start options writer).run? before = some u → u.WritesMaps →
      ∀ result, l.spawner = .finished result →
        (∃ reason, result = .error (.spawnFailed options.role reason)) ∧ l.child = .ended ∧
        ∀ earlier later v, moves = earlier ++ later →
          (start options writer).run? earlier = some v →
          v.child ≠ .executing ∧ v.child ≠ .running) ∧
    (l.WritesMaps → l.child ≠ .unborn ∧ "CLONE_NEWUSER" ∈ options.namespaces.flagNames) := by
  have hmapped := mapped_from_start hrun
  have hsame : l.options = options := (same_run moves hrun).1
  have hwriter : l.writer = writer := (same_run moves hrun).2
  have hplan : l.plan = writer.plan options.uidMap options.gidMap := by
    unfold plan
    rw [hsame, hwriter]
  refine ⟨?_, ?_, ?_⟩
  · intro hchild
    have hletGo : l.isLetGo = true := by
      rcases hchild with hchild | hchild <;> simp [isLetGo, hchild]
    have hreleased := hmapped.letGo hletGo
    have hdone := hmapped.released hreleased
    refine ⟨hreleased, hdone.trans hplan, ?_⟩
    intro kind hmap
    rw [hdone]
    rw [← hsame] at hmap ⊢
    exact l.written_plan hmap
  · rintro before fault after u rfl hbefore hwrites result hended
    have hbehind := hrun
    rw [run?_append, hbefore, Option.bind_some] at hbehind
    obtain ⟨u', hmove, hrest⟩ := Option.bind_eq_some_iff.mp hbehind
    have hu : u.Sound := sound_run (sound_start options writer) before hbefore
    have hback := heldBack_run (heldBack_of_fault hu hwrites hmove) after hrest
    obtain ⟨hrefused, hchild⟩ :=
      refused_of_heldBack hback (sound_run (sound_next hu hmove) after hrest) hended
    rw [hsame] at hrefused
    refine ⟨hrefused, hchild, ?_⟩
    intro earlier later v hsplit hv
    rw [hsplit, run?_append, hv] at hrun
    exact never_let_go hv hrun hback.locked
  · intro hwrites
    obtain ⟨kind, hmap⟩ := map_of_plan (hmapped.plan_ne_nil hwrites)
    rw [hsame] at hmap
    obtain ⟨hchild, -⟩ :=
      (sound_run (sound_start options writer) moves hrun).born (hwrites.imp_right .inl)
    refine ⟨?_, Namespaces.mem_flagNames_of_user (SpawnOptions.user_of_map hoptions hmap)⟩
    rcases hchild with hchild | hchild | hchild <;> simp [hchild]

/-- The maps of a job that becomes root are written, and it moves its channel. -/
def mappedJob : List Move :=
  List.replicate 10 (.spawner (.ok ())) ++ List.replicate 8 (.child (.ok ()))

/-- The first map of a job cannot be written: the job is killed, and waited for. -/
def unmappedJob : List Move :=
  List.replicate 5 (.spawner (.ok ())) ++ .spawner (.error (.errno .notPermitted)) ::
    List.replicate 2 (.spawner (.ok ()))

/-- A job that becomes root comes to run its program with both maps written, and ends before that
if the first cannot be written. -/
theorem a_job_runs_behind_its_two_maps :
    ∃ options l u, SpawnOptions.child? (.initial 0 0) .job .mapRoot ⟨[]⟩ = some options ∧
      (start options ⟨0, 0, false, false⟩).run? mappedJob = some l ∧ l.child = .executing ∧
      l.released = true ∧
      Written .user [.rootTo 0] ((start options ⟨0, 0, false, false⟩).carriedOut mappedJob) ∧
      Written .group [.rootTo 0] ((start options ⟨0, 0, false, false⟩).carriedOut mappedJob) ∧
      (start options ⟨0, 0, false, false⟩).run? unmappedJob = some u ∧ u.child = .ended := by
  have hoptions : SpawnOptions.child? (.initial 0 0) .job .mapRoot ⟨[]⟩ =
      some (.job (.initial 0 0) .mapRoot ⟨[]⟩) := rfl
  obtain ⟨hreleased, -, hwritten⟩ :=
    (a_program_runs_only_behind_its_maps hoptions ⟨0, 0, false, false⟩ mappedJob _ rfl).1 (.inl rfl)
  obtain ⟨-, hended, -⟩ :=
    (a_program_runs_only_behind_its_maps hoptions ⟨0, 0, false, false⟩ unmappedJob _ rfl).2.1
      (List.replicate 5 (.spawner (.ok ()))) (.errno .notPermitted) _ _ rfl rfl
      (.inr ⟨_, _, rfl⟩) _ rfl
  exact ⟨_, _, _, hoptions, rfl, rfl, hreleased, hwritten .user (by decide),
    hwritten .group (by decide), rfl, hended⟩

end Launch

end ProcessTree
