-- The laws of writing id maps. Whatever a system answers, the calls that it gets
-- are the planned ones in their order, up to the first that fails: the user map
-- before the group map, and the end of group changes before a group map.
import Mathlib
import ProcessTree.IdMap.Directory

namespace ProcessTree

/-! ## Calls and their answers -/

/-- A call on a system that maps are written on. -/
inductive MapCall where
  | write (file content : String)
  | find (kind : IdKind)
  | run (kind : IdKind) (args : List String)

/-- The file or the helper that a call is about. -/
def MapCall.subject : MapCall → String
  | .write file _ => file
  | .find kind | .run kind _ => kind.helper

/-- The file or the helper that an error names. -/
def IdMapError.subject : IdMapError → String
  | .write file _ => file
  | .noTool helper | .exec helper _ | .toolFailed helper _ => helper

/-- A call with its answer. -/
inductive MapEvent where
  | wrote (file content : String) (answer : Except IoFailure Unit)
  | looked (kind : IdKind) (found : Bool)
  | ran (kind : IdKind) (args : List String) (answer : Except IoFailure WaitStatus)

namespace MapEvent

def call : MapEvent → MapCall
  | .wrote file content _ => .write file content
  | .looked kind _ => .find kind
  | .ran kind args _ => .run kind args

/-- The error of a call that has failed: a file that is not taken, a helper that is not there or
cannot be run, or one that ends with anything but code 0. -/
def fault? : MapEvent → Option IdMapError
  | .wrote _ _ (.ok ()) | .looked _ true => none
  | .wrote file _ (.error failure) => some (.write file failure)
  | .looked kind false => some (.noTool kind.helper)
  | .ran kind _ (.error failure) => some (.exec kind.helper failure)
  | .ran kind _ (.ok status) =>
    if status.word = 0 then none else some (.toolFailed kind.helper status)

/-- The error of a call names what the call was about. -/
theorem subject_of_fault? {event : MapEvent} {e : IdMapError} (h : event.fault? = some e) :
    e.subject = event.call.subject := by
  cases event with
  | wrote file content answer =>
    cases answer <;> cases h
    rfl
  | looked kind found =>
    cases found <;> cases h
    rfl
  | ran kind args answer =>
    cases answer with
    | error failure =>
      cases h
      rfl
    | ok status =>
      obtain ⟨-, hsome⟩ := Option.ite_none_left_eq_some.mp h
      cases hsome
      rfl

end MapEvent

/-! ## The plan -/

/-- Who may write a map without a helper: root, someone who maps one id alone, their own, and
someone with the capability to map any. -/
inductive Direct (w : MapWriter) (kind : IdKind) (map : IdMap) : Prop
  | root (zero : w.current kind = 0)
  | own {line : IdMapping} (only : map = [line]) (one : line.length = 1)
      (self : line.hostStart = w.current kind)
  | capable (may : w.mayMap kind = true)

/-- The calls that one map takes: none when it is empty; else its file is written, a group map's
behind the end of group changes, or one run of its helper is made. -/
inductive Planned (w : MapWriter) (directory : OsText) : IdKind → IdMap → List MapCall → Prop
  | nothing {kind : IdKind} : Planned w directory kind [] []
  | users {map : IdMap} (filled : map ≠ []) (direct : Direct w .user map) :
      Planned w directory .user map [.write "uid_map" map.text]
  | groups {map : IdMap} (filled : map ≠ []) (direct : Direct w .group map) :
      Planned w directory .group map [.write "setgroups" "deny", .write "gid_map" map.text]
  | helped {kind : IdKind} {map : IdMap} (filled : map ≠ []) (barred : ¬ Direct w kind map) :
      Planned w directory kind map [.find kind, .run kind (directory.fileName :: map.words)]

/-- The calls that carry out an action. -/
def MapAction.calls (directory : OsText) : MapAction → List MapCall
  | .denySetgroups => [.write setgroupsFile "deny"]
  | .write kind map => [.write kind.file map.text]
  | .help kind map => [.find kind, .run kind (directory.fileName :: map.words)]

namespace MapWriter

variable (w : MapWriter)

theorem mapsOnly_eq_true_iff {id : UInt32} {map : IdMap} :
    mapsOnly id map = true ↔ ∃ line, map = [line] ∧ line.length = 1 ∧ line.hostStart = id := by
  rcases map with _ | ⟨line, _ | ⟨line', rest⟩⟩
  · simp [mapsOnly]
  · simp [mapsOnly, and_comm]
  · simp [mapsOnly]

theorem writesDirectly_eq_true_iff {kind : IdKind} {map : IdMap} :
    w.writesDirectly kind map = true ↔ Direct w kind map := by
  unfold writesDirectly
  rw [Bool.or_eq_true, Bool.or_eq_true, beq_iff_eq, mapsOnly_eq_true_iff]
  constructor
  · rintro ((hzero | ⟨line, honly, hone, hself⟩) | hmay)
    · exact .root hzero
    · exact .own honly hone hself
    · exact .capable hmay
  · rintro (hzero | ⟨honly, hone, hself⟩ | hmay)
    · exact .inl (.inl hzero)
    · exact .inl (.inr ⟨_, honly, hone, hself⟩)
    · exact .inr hmay

theorem planned_actions (directory : OsText) (kind : IdKind) (map : IdMap) :
    Planned w directory kind map ((w.actions kind map).flatMap (MapAction.calls directory)) := by
  unfold actions
  by_cases hempty : map = []
  · subst hempty
    exact .nothing
  · rw [if_neg (by simpa using hempty)]
    by_cases hdirect : w.writesDirectly kind map = true
    · rw [if_pos hdirect]
      rw [writesDirectly_eq_true_iff] at hdirect
      cases kind with
      | user => exact .users hempty hdirect
      | group => exact .groups hempty hdirect
    · rw [if_neg hdirect]
      rw [writesDirectly_eq_true_iff] at hdirect
      exact .helped hempty hdirect

end MapWriter

/-- What the calls for a user map are about. -/
theorem Planned.subject_user {w : MapWriter} {directory : OsText} {map : IdMap}
    {calls : List MapCall} (h : Planned w directory .user map calls) :
    ∀ call ∈ calls, call.subject ∈ ["uid_map", "newuidmap"] := by
  cases h <;> simp [MapCall.subject, IdKind.helper]

/-- What the calls for a group map are about. -/
theorem Planned.subject_group {w : MapWriter} {directory : OsText} {map : IdMap}
    {calls : List MapCall} (h : Planned w directory .group map calls) :
    ∀ call ∈ calls, call.subject ∉ ["uid_map", "newuidmap"] := by
  cases h <;> simp [MapCall.subject, IdKind.helper]

/-! ## Carrying out calls -/

namespace MapSystem

variable {σ : Type} (system : MapSystem σ)

/-- Makes one call. -/
def perform (s : σ) : MapCall → σ × Except IdMapError Unit
  | .write file content => system.writeFile s file content
  | .find kind => system.findHelper s kind
  | .run kind args => system.runHelper s kind args

/-- Makes calls one after the other, up to the first that fails. -/
def performAll (s : σ) : List MapCall → σ × Except IdMapError Unit
  | [] => (s, .ok ())
  | call :: calls => andThen (system.perform s call) fun s => performAll s calls

theorem andThen_assoc (first : σ × Except IdMapError Unit)
    (second third : σ → σ × Except IdMapError Unit) :
    andThen (andThen first second) third = andThen first fun s => andThen (second s) third := by
  obtain ⟨s, result⟩ := first
  cases result <;> rfl

/-- A part that does no more is nothing beside the one before it. -/
theorem andThen_done (first : σ × Except IdMapError Unit) :
    andThen first (fun s => (s, .ok ())) = first := by
  obtain ⟨s, result⟩ := first
  cases result <;> rfl

theorem performAll_append (s : σ) (calls others : List MapCall) :
    system.performAll s (calls ++ others) =
      andThen (system.performAll s calls) fun s => system.performAll s others := by
  induction calls generalizing s with
  | nil => rfl
  | cons call calls ih =>
    rw [List.cons_append, performAll, performAll, andThen_assoc]
    simp only [ih]

theorem performAll_pair (s : σ) (call other : MapCall) :
    system.performAll s [call, other] =
      andThen (system.perform s call) fun s => system.perform s other := by
  simp only [performAll, andThen_done]

theorem performAll_singleton (s : σ) (call : MapCall) :
    system.performAll s [call] = system.perform s call := by
  simp only [performAll, andThen_done]

theorem writeMapIfAny_eq_performAll (w : MapWriter) (directory : OsText) (s : σ) (kind : IdKind)
    (map : IdMap) :
    system.writeMapIfAny w directory s kind map =
      system.performAll s ((w.actions kind map).flatMap (MapAction.calls directory)) := by
  unfold writeMapIfAny writeMap MapWriter.actions
  by_cases hempty : map.isEmpty = true
  · rw [if_pos hempty, if_pos hempty]
    rfl
  · rw [if_neg hempty, if_neg hempty]
    by_cases hdirect : w.writesDirectly kind map = true
    · rw [if_pos hdirect, if_pos hdirect]
      cases kind with
      | user => exact (system.performAll_singleton s (.write "uid_map" map.text)).symm
      | group =>
        exact (system.performAll_pair s (.write "setgroups" "deny")
          (.write "gid_map" map.text)).symm
    · rw [if_neg hdirect, if_neg hdirect]
      exact (system.performAll_pair s (.find kind)
        (.run kind (directory.fileName :: map.words))).symm

/-- Both maps are written by carrying out the plan. -/
theorem writeMaps_eq_performAll (w : MapWriter) (directory : OsText) (s : σ)
    (uidMap gidMap : IdMap) :
    system.writeMaps w directory s uidMap gidMap =
      system.performAll s ((w.plan uidMap gidMap).flatMap (MapAction.calls directory)) := by
  unfold writeMaps MapWriter.plan
  rw [List.flatMap_append, performAll_append, writeMapIfAny_eq_performAll]
  simp only [writeMapIfAny_eq_performAll]

/-! ## The log of a system -/

/-- A system that keeps a log of its calls and of what it answered. -/
def logged : MapSystem (σ × List MapEvent) where
  write s file content :=
    let answer := system.write s.1 file content
    ((answer.1, s.2 ++ [.wrote file content answer.2]), answer.2)
  find s kind :=
    let answer := system.find s.1 kind
    ((answer.1, s.2 ++ [.looked kind answer.2]), answer.2)
  run s kind args :=
    let answer := system.run s.1 kind args
    ((answer.1, s.2 ++ [.ran kind args answer.2]), answer.2)

/-- The events of a row of calls, with what comes of it: the calls are made in their order, and one
that fails ends the row with its error. -/
inductive Follows : List MapCall → List MapEvent → Except IdMapError Unit → Prop
  | done : Follows [] [] (.ok ())
  | next {event : MapEvent} {calls : List MapCall} {log : List MapEvent}
      {result : Except IdMapError Unit} (good : event.fault? = none)
      (rest : Follows calls log result) : Follows (event.call :: calls) (event :: log) result
  | fails {event : MapEvent} {calls : List MapCall} {e : IdMapError}
      (bad : event.fault? = some e) : Follows (event.call :: calls) [event] (.error e)

/-- One call is one event, which says what comes of the call. -/
theorem perform_logged (s : σ) (log : List MapEvent) (call : MapCall) :
    ∃ event : MapEvent, event.call = call ∧
      system.perform s call = ((system.perform s call).1, event.fault?.elim (.ok ()) .error) ∧
      system.logged.perform (s, log) call =
        (((system.perform s call).1, log ++ [event]), event.fault?.elim (.ok ()) .error) := by
  cases call with
  | write file content =>
    rcases hanswer : system.write s file content with ⟨after, answer⟩
    refine ⟨.wrote file content answer, rfl, ?_⟩
    simp only [perform, writeFile, logged, hanswer]
    cases answer <;> exact ⟨rfl, rfl⟩
  | find kind =>
    rcases hanswer : system.find s kind with ⟨after, found⟩
    refine ⟨.looked kind found, rfl, ?_⟩
    simp only [perform, findHelper, logged, hanswer]
    cases found <;> exact ⟨rfl, rfl⟩
  | run kind args =>
    rcases hanswer : system.run s kind args with ⟨after, answer⟩
    refine ⟨.ran kind args answer, rfl, ?_⟩
    simp only [perform, runHelper, logged, hanswer]
    cases answer with
    | error failure => exact ⟨rfl, rfl⟩
    | ok status => by_cases hzero : status.word = 0 <;> simp [runResult, MapEvent.fault?, hzero]

/-- The log follows the calls, and keeping it changes nothing. -/
theorem performAll_logged (s : σ) (log : List MapEvent) (calls : List MapCall) :
    ∃ events after result, Follows calls events result ∧
      system.performAll s calls = (after, result) ∧
      system.logged.performAll (s, log) calls = ((after, log ++ events), result) := by
  induction calls generalizing s log with
  | nil => exact ⟨[], s, .ok (), .done, rfl, by rw [List.append_nil]; rfl⟩
  | cons call calls ih =>
    obtain ⟨event, rfl, hplain, hlogged⟩ := system.perform_logged s log call
    rw [performAll, performAll, hplain, hlogged]
    cases hfault : event.fault? with
    | some e => exact ⟨[event], _, .error e, .fails hfault, rfl, rfl⟩
    | none =>
      obtain ⟨events, after, result, hfollows, hall, hlog⟩ :=
        ih (system.perform s event.call).1 (log ++ [event])
      refine ⟨event :: events, after, result, .next hfault hfollows, hall, ?_⟩
      rw [List.append_cons log event events]
      exact hlog

section Follows

variable {calls others : List MapCall} {log : List MapEvent} {result : Except IdMapError Unit}

theorem Follows.isPrefix (h : Follows calls log result) : log.map MapEvent.call <+: calls := by
  induction h with
  | done => exact List.prefix_rfl
  | next good rest ih => exact List.prefix_cons_inj _ |>.mpr ih
  | @fails event calls e bad => exact ⟨calls, rfl⟩

/-- Nothing follows a call that has failed. -/
theorem Follows.good_of_mem_dropLast (h : Follows calls log result) :
    ∀ event ∈ log.dropLast, event.fault? = none := by
  induction h with
  | done | fails _ => simp
  | @next event calls log result good rest ih =>
    cases rest with
    | done => simp
    | next _ _ | fails _ =>
      rw [List.dropLast_cons_of_ne_nil (by simp), List.forall_mem_cons]
      exact ⟨good, ih⟩

theorem Follows.result_eq_ok_iff (h : Follows calls log result) :
    result = .ok () ↔ log.map MapEvent.call = calls ∧ ∀ event ∈ log, event.fault? = none := by
  induction h with
  | done => simp
  | next good rest ih => rw [ih]; simp [good]
  | fails bad => simp [bad]

theorem Follows.result_eq_error_iff (h : Follows calls log result) (e : IdMapError) :
    result = .error e ↔ ∃ last, log.getLast? = some last ∧ last.fault? = some e := by
  induction h with
  | done => simp
  | fails bad => simp [bad, eq_comm]
  | @next event calls log result good rest ih =>
    rw [ih]
    cases rest with
    | done => simp [good]
    | next _ _ | fails _ => simp [List.getLast?_cons_cons]

/-- Two rows of calls, one behind the other: the first fails and is all, or the second begins. -/
theorem Follows.cases_append (h : Follows (calls ++ others) log result) :
    (∃ e, Follows calls log (.error e)) ∨
      ∃ front back, log = front ++ back ∧ Follows calls front (.ok ()) ∧
        Follows others back result := by
  induction calls generalizing log with
  | nil => exact .inr ⟨[], log, rfl, .done, h⟩
  | cons call calls ih =>
    rw [List.cons_append] at h
    cases h with
    | fails bad => exact .inl ⟨_, .fails bad⟩
    | next good rest =>
      rcases ih rest with ⟨e, hfails⟩ | ⟨front, back, rfl, hfront, hback⟩
      · exact .inl ⟨e, .next good hfails⟩
      · exact .inr ⟨_ :: front, back, rfl, .next good hfront, hback⟩

/-- What is true of all planned calls is true of all that are made. -/
theorem Follows.forall_call {P : MapCall → Prop} (h : Follows calls log result)
    (hall : ∀ call ∈ calls, P call) : ∀ event ∈ log, P event.call := by
  intro event hevent
  exact hall _ (h.isPrefix.subset (List.mem_map_of_mem hevent))

end Follows

/-! ## The law -/

/-- Maps are written by the calls that are planned for the user map and then those for the group
map, in this order and up to the first that fails, whatever the system answers. All is well exactly
when all of them are made and succeed; an error is that of the last call and names its file or
helper; and where the user map fails, nothing that belongs to the group map was touched. -/
theorem maps_are_written_in_order_up_to_the_first_failure (w : MapWriter) (directory : OsText)
    (s : σ) (uidMap gidMap : IdMap) :
    ∃ users groups log after result,
      Planned w directory .user uidMap users ∧ Planned w directory .group gidMap groups ∧
      system.writeMaps w directory s uidMap gidMap = (after, result) ∧
      system.logged.writeMaps w directory (s, []) uidMap gidMap = ((after, log), result) ∧
      log.map MapEvent.call <+: users ++ groups ∧
      (∀ event ∈ log.dropLast, event.fault? = none) ∧
      (result = .ok () ↔
        log.map MapEvent.call = users ++ groups ∧ ∀ event ∈ log, event.fault? = none) ∧
      (∀ e, result = .error e ↔ ∃ last, log.getLast? = some last ∧ last.fault? = some e) ∧
      (∀ e last, log.getLast? = some last → last.fault? = some e →
        e.subject = last.call.subject) ∧
      ((∃ event ∈ log, event.fault? ≠ none ∧ event.call.subject ∈ ["uid_map", "newuidmap"]) →
        ∀ event ∈ log, event.call.subject ∈ ["uid_map", "newuidmap"]) := by
  have husers := w.planned_actions directory .user uidMap
  have hgroups := w.planned_actions directory .group gidMap
  obtain ⟨log, after, result, hfollows, hplain, hlogged⟩ := system.performAll_logged s []
    ((w.plan uidMap gidMap).flatMap (MapAction.calls directory))
  rw [← writeMaps_eq_performAll] at hplain hlogged
  unfold MapWriter.plan at hfollows
  rw [List.flatMap_append] at hfollows
  refine ⟨_, _, log, after, result, husers, hgroups, hplain, hlogged, hfollows.isPrefix,
    hfollows.good_of_mem_dropLast, hfollows.result_eq_ok_iff, hfollows.result_eq_error_iff,
    fun e last _ hlast => MapEvent.subject_of_fault? hlast, ?_⟩
  rintro ⟨event, hevent, hfault, hsubject⟩
  rcases hfollows.cases_append with ⟨e, hfails⟩ | ⟨front, back, rfl, hfront, hback⟩
  · exact hfails.forall_call husers.subject_user
  · -- The user map is written, so the call that failed belongs to the group map.
    have hgood := (hfront.result_eq_ok_iff.mp rfl).2
    rcases List.mem_append.mp hevent with hmem | hmem
    · exact absurd (hgood event hmem) hfault
    · exact absurd hsubject (hback.forall_call hgroups.subject_group event hmem)

/-- A directory of root's in which the user map is blocked: the group map is not tried, and groups
may still be changed. -/
theorem a_blocked_user_map_is_the_last_call :
    ∃ after result log,
      MapDirectory.system.logged.writeMaps ⟨0, 0, false, false⟩ (.ofText "4242")
        (⟨.ofText "4242", .own ["uid_map"], fun _ => .absent, [], []⟩, [])
        [.rootTo 0] [.rootTo 0] = ((after, log), result) ∧
      log = [.wrote "uid_map" (IdMap.text [.rootTo 0]) (.error (.system .isDirectory))] ∧
      result = .error (.write "uid_map" (.system .isDirectory)) ∧
      ∀ event ∈ log, event.call.subject ∈ ["uid_map", "newuidmap"] := by
  obtain ⟨users, groups, log, after, result, -, -, -, hlogged, -, -, -, herror, -, halone⟩ :=
    MapDirectory.system.maps_are_written_in_order_up_to_the_first_failure ⟨0, 0, false, false⟩
      (.ofText "4242") ⟨.ofText "4242", .own ["uid_map"], fun _ => .absent, [], []⟩
      [.rootTo 0] [.rootTo 0]
  have hlog : [MapEvent.wrote "uid_map" (IdMap.text [.rootTo 0])
      (.error (.system .isDirectory))] = log :=
    congrArg (·.1.2) hlogged
  subst hlog
  refine ⟨after, result, _, hlogged, rfl, ?_, ?_⟩
  · exact (herror _).mpr ⟨_, rfl, rfl⟩
  · exact halone ⟨_, List.mem_singleton_self _, by simp [MapEvent.fault?], by
      simp [MapEvent.call, MapCall.subject]⟩

end MapSystem

end ProcessTree
