-- A child from the attempt to start it to the end of its supervision, and all who wait for it.
-- An attempt that fails has waited for its child, if there was one, and holds nothing any more;
-- one that succeeds leaves the child to its monitor.
import ProcessTree.Host.Sandbox
import ProcessTree.Process.Monitor
import ProcessTree.Proofs.Process.Launching
import ProcessTree.Proofs.Process.Spawning

namespace ProcessTree

/-- Who has waited for a child and found it ended. -/
inductive Reaper where
  | spawner
  | monitor
  deriving DecidableEq, Repr

/-- An attempt to start a child, with what watches the child afterwards. -/
structure Custody where
  launch : Launch
  monitor : Option Monitor
  /-- The waits that came back with the child's end. -/
  reaps : List Reaper

namespace Custody

/-! ## Moves -/

inductive Move where
  | attempt (move : Launch.Move)
  /-- The child ends, whatever it was doing. -/
  | perish
  /-- The child was started, and gets its monitor. -/
  | supervise
  | answer (a : MonitorAnswer)

/-- A child that is about to be started. -/
def start (options : SpawnOptions) (writer : MapWriter) : Custody where
  launch := .start options writer
  monitor := none
  reaps := []

/-- Whether an answer tells a monitor the end of its child. -/
def tellsEnd : Monitor → MonitorAnswer → Bool
  | .asking, .reported report => report.state?.isSome
  | _, _ => false

/-- What a move leads to, where it is possible. Nobody is told the end of a child that has not
ended; whether somebody was told before makes no difference. -/
def next? (c : Custody) : Move → Option Custody
  | .attempt move =>
    (c.launch.next? move).map fun launch =>
      { c with
        launch
        reaps := c.reaps ++ if launch.reaped && !c.launch.reaped then [.spawner] else [] }
  | .perish =>
    if c.launch.child = .unborn ∨ c.launch.child = .ended then none
    else some { c with launch := { c.launch with child := .ended } }
  | .supervise =>
    match c.launch.spawner, c.monitor with
    | .finished (.ok ()), none => some { c with monitor := some .registering }
    | _, _ => none
  | .answer a =>
    c.monitor.bind fun monitor =>
      if tellsEnd monitor a ∧ c.launch.child ≠ .ended then none
      else some { c with
        monitor := some (monitor.answer a)
        reaps := c.reaps ++ if tellsEnd monitor a then [.monitor] else [] }

/-- A row of moves. -/
def run? (c : Custody) : List Move → Option Custody
  | [] => some c
  | move :: moves => (c.next? move).bind fun c' => c'.run? moves

/-- Whether the monitor knows how the child ended. -/
def knows (c : Custody) : Bool :=
  match c.monitor with
  | some (.observed (.ok _)) => true
  | _ => false

variable {c c' : Custody}

theorem knows_eq_true_iff : c.knows = true ↔ ∃ state, c.monitor = some (.observed (.ok state)) := by
  unfold knows
  split
  · rename_i state hmonitor
    exact ⟨fun _ => ⟨state, hmonitor⟩, fun _ => rfl⟩
  · rename_i hother
    constructor
    · intro hknows
      cases hknows
    · rintro ⟨state, hmonitor⟩
      exact absurd hmonitor (hother state)

theorem supervise_eq_some (h : c.next? .supervise = some c') :
    c.launch.spawner = .finished (.ok ()) ∧ c.monitor = none ∧
      c' = { c with monitor := some .registering } := by
  simp only [next?] at h
  split at h
  · rename_i hspawner hmonitor
    cases h
    exact ⟨hspawner, hmonitor, rfl⟩
  · cases h

/-! ## The monitor -/

/-- A monitor that knows the end is told it no more, and one that is told it knows it. -/
theorem knows_answer (launch : Launch) (monitor : Monitor) (reaps more : List Reaper)
    (a : MonitorAnswer) :
    (⟨launch, some (monitor.answer a), more⟩ : Custody).knows =
        ((⟨launch, some monitor, reaps⟩ : Custody).knows || tellsEnd monitor a) ∧
      ((⟨launch, some monitor, reaps⟩ : Custody).knows = true → tellsEnd monitor a = false) := by
  cases monitor with
  | observed outcome => cases outcome <;> cases a <;> exact ⟨rfl, fun _ => rfl⟩
  | registering | watching | finished => cases a <;> exact ⟨rfl, fun _ => rfl⟩
  | asking =>
    cases a with
    | done | failed _ => exact ⟨rfl, fun _ => rfl⟩
    | refused errno =>
      by_cases herrno : errno = .interrupted <;> simp [knows, tellsEnd, Monitor.answer, herrno]
    | reported report =>
      cases hstate : report.state? <;> simp [knows, tellsEnd, Monitor.answer, hstate]

/-! ## The invariant -/

/-- Each wait that came back is the one of a failed attempt, or the one of the monitor. -/
structure Sound (c : Custody) : Prop where
  launch : c.launch.Sound
  monitored : c.monitor ≠ none → c.launch.spawner = .finished (.ok ())
  reaps : c.reaps =
    (if c.launch.reaped then [.spawner] else []) ++ if c.knows then [.monitor] else []

theorem sound_start (options : SpawnOptions) (writer : MapWriter) :
    (start options writer).Sound where
  launch := Launch.sound_start options writer
  monitored h := absurd rfl h
  reaps := rfl

/-- A child that has a monitor was not waited for when it was started. -/
theorem Sound.reaped_of_monitored (h : c.Sound) (hmonitor : c.monitor ≠ none) :
    c.launch.reaped = false := by
  obtain ⟨-, -, -, hreaped, -⟩ := h.launch.standsAt (h.monitored hmonitor)
  exact hreaped

theorem sound_attempt (h : c.Sound) {move : Launch.Move} {launch : Launch}
    (hmove : c.launch.next? move = some launch) :
    ({ c with
      launch
      reaps := c.reaps ++ if launch.reaped && !c.launch.reaped then [.spawner] else [] } :
        Custody).Sound := by
  have hsound := Launch.sound_next h.launch hmove
  -- What a monitor knows depends on nothing else.
  have hknows : ∀ l reaps, ({ c with launch := l, reaps } : Custody).knows = c.knows :=
    fun _ _ => rfl
  by_cases hmonitor : c.monitor = none
  · refine ⟨hsound, fun hsome => absurd hmonitor hsome, ?_⟩
    simp only [hknows, h.reaps, show c.knows = false by simp [knows, hmonitor]]
    cases hbefore : c.launch.reaped with
    | false => cases launch.reaped <;> rfl
    | true =>
      rw [Launch.reaped_next hbefore hmove]
      rfl
  · -- The attempt is over, and what the child does is no wait.
    have hended := h.monitored hmonitor
    obtain ⟨hspawner, hreaped⟩ := Launch.same_of_finished hended hmove
    refine ⟨hsound, fun _ => hspawner.trans hended, ?_⟩
    simp only [hknows, hreaped, h.reaped_of_monitored hmonitor, h.reaps]
    simp

theorem sound_next (h : c.Sound) {move : Move} (hmove : c.next? move = some c') : c'.Sound := by
  cases move with
  | attempt move =>
    obtain ⟨launch, hlaunch, rfl⟩ := Option.map_eq_some_iff.mp hmove
    exact sound_attempt h hlaunch
  | perish =>
    obtain ⟨hchild, heq⟩ := Option.ite_none_left_eq_some.mp hmove
    cases heq
    obtain ⟨hborn, hgoing⟩ := not_or.mp hchild
    exact ⟨Launch.sound_perished h.launch hborn hgoing, h.monitored, h.reaps⟩
  | supervise =>
    obtain ⟨hended, hmonitor, rfl⟩ := supervise_eq_some hmove
    refine ⟨h.launch, fun _ => hended, ?_⟩
    rw [h.reaps, show c.knows = false by simp [knows, hmonitor]]
    rfl
  | answer a =>
    obtain ⟨monitor, hmonitor, hanswer⟩ := Option.bind_eq_some_iff.mp hmove
    obtain ⟨-, heq⟩ := Option.ite_none_left_eq_some.mp hanswer
    cases heq
    have hsome : c.monitor ≠ none := by simp [hmonitor]
    obtain ⟨hafter, honce⟩ := knows_answer c.launch monitor c.reaps
      (c.reaps ++ if tellsEnd monitor a then [.monitor] else []) a
    rw [show (⟨c.launch, some monitor, c.reaps⟩ : Custody) = c by rw [← hmonitor]] at hafter honce
    refine ⟨h.launch, fun _ => h.monitored hsome, ?_⟩
    rw [hafter]
    simp only [h.reaps, h.reaped_of_monitored hsome]
    cases hknows : c.knows with
    | false => cases tellsEnd monitor a <;> rfl
    | true =>
      rw [honce hknows]
      rfl

/-- What is to be started never changes. -/
theorem same_next {move : Move} (hmove : c.next? move = some c') :
    c'.launch.options = c.launch.options := by
  cases move with
  | attempt move =>
    obtain ⟨launch, hlaunch, rfl⟩ := Option.map_eq_some_iff.mp hmove
    exact (Launch.same_next hlaunch).1
  | perish =>
    obtain ⟨-, heq⟩ := Option.ite_none_left_eq_some.mp hmove
    cases heq
    rfl
  | supervise =>
    obtain ⟨-, -, rfl⟩ := supervise_eq_some hmove
    rfl
  | answer a =>
    obtain ⟨monitor, -, hanswer⟩ := Option.bind_eq_some_iff.mp hmove
    obtain ⟨-, heq⟩ := Option.ite_none_left_eq_some.mp hanswer
    cases heq
    rfl

theorem same_run (moves : List Move) (hrun : c.run? moves = some c') :
    c'.launch.options = c.launch.options := by
  induction moves generalizing c with
  | nil =>
    cases hrun
    rfl
  | cons move moves ih =>
    obtain ⟨u, hmove, hrest⟩ := Option.bind_eq_some_iff.mp hrun
    exact (ih hrest).trans (same_next hmove)

theorem sound_run (h : c.Sound) (moves : List Move) (hrun : c.run? moves = some c') :
    c'.Sound := by
  induction moves generalizing c with
  | nil =>
    cases hrun
    exact h
  | cons move moves ih =>
    obtain ⟨u, hmove, hrest⟩ := Option.bind_eq_some_iff.mp hrun
    exact ih (sound_next h hmove) hrest

end Custody

/-! ## On a machine -/

namespace Machine

variable {m m' : Machine} {pid : Nat} {p : Proc}

theorem adds_openPipe {reader writer : Nat} (hp : m.proc? pid = some p)
    (hopen : m.openPipe pid = (reader, writer, m')) :
    (∃ t : FdTable, m'.proc? pid = some { p with fds := t } ∧ p.fds.Adds t [reader, writer]) ∧
      ∀ q, q ≠ pid → m'.proc? q = m.proc? q := by
  have hproc : (m.addPipe .empty).2.proc? pid = some p := hp
  obtain ⟨rfl, rfl, rfl⟩ : reader = (p.fds.install 0 ⟨.readEnd m.pipes.length, true⟩).1 ∧
      writer = ((p.fds.install 0 ⟨.readEnd m.pipes.length, true⟩).2.install 0
        ⟨.writeEnd m.pipes.length, true⟩).1 ∧
      m' = (m.addPipe .empty).2.modifyFds pid fun _ =>
        ((p.fds.install 0 ⟨.readEnd m.pipes.length, true⟩).2.install 0
          ⟨.writeEnd m.pipes.length, true⟩).2 := by
    rw [← fdsOf_eq hproc]
    cases hopen
    exact ⟨rfl, rfl, rfl⟩
  refine ⟨⟨_, ?_, (FdTable.adds_install _ _ _).trans (FdTable.adds_install _ _ _)⟩,
    fun q hq => proc?_modifyFds_ne hq⟩
  rw [proc?_modifyFds_self, hproc]
  rfl

/-- A process that starts a child has neither the child's ends of the channel afterwards nor
anything that was opened for the attempt. If no child is started there is none, and one that is
started was not waited for. -/
theorem launch_closes {options : SpawnOptions} {ends : ChildEnds}
    {result : Except ProcessError Nat} (hp : m.proc? pid = some p)
    (h : m.launch pid options ends = (result, m')) :
    (∃ t : FdTable, m'.proc? pid = some { p with fds := t } ∧
      ∀ n : Nat, t.get? n = if n ∈ [ends.receive, ends.send] then none else p.fds.get? n) ∧
    (∀ e, result = .error e → ∀ q, q ≠ pid → m'.proc? q = m.proc? q) ∧
    ∀ child, result = .ok child →
      ∃ q ∈ m'.procs, q.pid = child ∧ q.parent = pid ∧ q.life = .alive := by
  obtain ⟨syncRead, syncWrite, m₁, statusRead, statusWrite, m₂, hfirst, hsecond, hresult⟩ :=
    launch_eq h
  obtain ⟨⟨t₁, hp₁, hadds₁⟩, hothers₁⟩ := adds_openPipe hp hfirst
  obtain ⟨⟨t₂, hp₂, hadds₂⟩, hothers₂⟩ := adds_openPipe hp₁ hsecond
  have hself : (m₂.closeFds pid
      [syncRead, syncWrite, statusRead, statusWrite, ends.receive, ends.send]).proc? pid =
        some { p with
          fds := List.foldl FdTable.close t₂
            [syncRead, syncWrite, statusRead, statusWrite, ends.receive, ends.send] } := by
    unfold closeFds
    rw [proc?_modifyFds_self, hp₂]
    rfl
  have hcloses := (hadds₁.trans hadds₂).get?_closeAll [ends.receive, ends.send]
  rcases hresult with ⟨⟨e, rfl⟩, rfl⟩ | ⟨fds, -, rfl, rfl⟩
  · refine ⟨⟨_, hself, hcloses⟩, ?_, nofun⟩
    intro _ _ q hq
    unfold closeFds
    rw [proc?_modifyFds_ne hq, hothers₂ q hq, hothers₁ q hq]
  · refine ⟨⟨_, proc?_addProc hself, hcloses⟩, nofun, ?_⟩
    rintro child hchild
    cases hchild
    exact ⟨_, List.mem_append_right _ List.mem_cons_self, rfl, rfl, rfl⟩

end Machine

/-! ## The law -/

namespace Custody

/-- An attempt that fails holds nothing any more, and its child never was, or has ended and was
waited for. One that succeeds has not waited for its child. All in all a child's end is told to
nobody but the failed attempt or the monitor, and once. On a machine the process that makes the
attempt has only lost the child's ends afterwards, and there is a new process only if the attempt
succeeds. -/
theorem a_child_is_waited_for_once (options : SpawnOptions) (writer : MapWriter)
    (moves : List Move) (c : Custody) (hrun : (start options writer).run? moves = some c)
    (m m' : Machine) (pid : Nat) (p : Proc) (ends : ChildEnds) (result : Except ProcessError Nat)
    (hp : m.proc? pid = some p) (hlaunch : m.launch pid options ends = (result, m')) :
    (∀ e, c.launch.spawner = .finished (.error e) →
      (∃ reason, e = .spawnFailed options.role reason) ∧ c.launch.held = [] ∧ c.monitor = none ∧
      ((c.launch.child = .unborn ∧ c.reaps = []) ∨
        (c.launch.child = .ended ∧ c.reaps = [.spawner]))) ∧
    (c.launch.spawner = .finished (.ok ()) →
      c.launch.held = [.childRef] ∧ Reaper.spawner ∉ c.reaps) ∧
    (c.monitor ≠ none → c.launch.spawner = .finished (.ok ())) ∧
    c.reaps.length ≤ 1 ∧
    (Reaper.monitor ∈ c.reaps ↔ ∃ state, c.monitor = some (.observed (.ok state))) ∧
    ((∃ t : FdTable, m'.proc? pid = some { p with fds := t } ∧
      ∀ n : Nat, t.get? n = if n ∈ [ends.receive, ends.send] then none else p.fds.get? n) ∧
    (∀ e, result = .error e → ∀ q, q ≠ pid → m'.proc? q = m.proc? q) ∧
    ∀ child, result = .ok child →
      ∃ q ∈ m'.procs, q.pid = child ∧ q.parent = pid ∧ q.life = .alive) := by
  have h : c.Sound := sound_run (sound_start options writer) moves hrun
  have hreaps := h.reaps
  have hunknown : c.launch.spawner ≠ .finished (.ok ()) → c.monitor = none := by
    intro hother
    by_cases hmonitor : c.monitor = none
    · exact hmonitor
    · exact absurd (h.monitored hmonitor) hother
  refine ⟨?_, ?_, h.monitored, ?_, ?_, Machine.launch_closes hp hlaunch⟩
  · intro e hended
    have hmonitor := hunknown (by simp [hended])
    rw [show c.knows = false by simp [knows, hmonitor]] at hreaps
    obtain ⟨⟨reason, rfl⟩, hheld, hchild⟩ := h.launch.standsAt hended
    refine ⟨⟨reason, ?_⟩, hheld, hmonitor, ?_⟩
    · rw [same_run moves hrun]
      rfl
    · apply hchild.imp
      · rintro ⟨hchild, hreaped⟩
        exact ⟨hchild, by simpa [hreaped] using hreaps⟩
      · rintro ⟨hchild, hreaped⟩
        exact ⟨hchild, by simpa [hreaped] using hreaps⟩
  · intro hended
    obtain ⟨-, -, -, hreaped, hheld⟩ := h.launch.standsAt hended
    refine ⟨hheld, ?_⟩
    rw [hreaps, hreaped]
    cases c.knows <;> simp
  · by_cases hmonitor : c.monitor = none
    · rw [hreaps, show c.knows = false by simp [knows, hmonitor]]
      cases c.launch.reaped <;> simp
    · rw [hreaps, h.reaped_of_monitored hmonitor]
      cases c.knows <;> simp
  · rw [← knows_eq_true_iff, hreaps]
    cases c.launch.reaped <;> cases c.knows <;> simp

/-- A job that becomes root, on a host that does not let it have its map. -/
def refusedMap : List Move :=
  List.replicate 5 (.attempt (.spawner (.ok ()))) ++
    [.attempt (.spawner (.error (.errno .notPermitted))), .attempt (.spawner (.ok ())),
      .attempt (.spawner (.ok ()))]

/-- A process whose children get no namespaces of their own. -/
def confinedParent : Machine :=
  ((Machine.empty (Sandbox.inUserNamespace ⟨[]⟩) ⟨[]⟩ .role []).addOrphan
    (FdTable.standard ++ [(3, ⟨.readEnd 0, true⟩), (4, ⟨.writeEnd 1, true⟩)])
    (.standIn .fixed .sleeps)).2

/-- A job whose map cannot be written is killed and waited for, and one that cannot be cloned
leaves its parent with what that had, but for the job's ends. -/
theorem a_job_without_its_map_is_waited_for :
    ∃ c, (start (.job (.initial 0 0) .mapRoot ⟨[]⟩) ⟨0, 0, false, false⟩).run? refusedMap = some c ∧
      c.reaps = [.spawner] ∧ c.launch.held = [] ∧ c.monitor = none ∧
      ∃ e m' p, ∃ t : FdTable, confinedParent.proc? 2 = some p ∧
        confinedParent.launch 2 (.job (.initial 0 0) .mapRoot ⟨[]⟩) ⟨3, 4⟩ = (.error e, m') ∧
        m'.proc? 2 = some { p with fds := t } ∧
        ∀ n : Nat, t.get? n = if n ∈ [3, 4] then none else p.fds.get? n := by
  obtain ⟨hrefused, -, -, -, -, ⟨t, hself, htable⟩, -, -⟩ :=
    a_child_is_waited_for_once (.job (.initial 0 0) .mapRoot ⟨[]⟩) ⟨0, 0, false, false⟩ refusedMap _
      rfl confinedParent _ 2 _ ⟨3, 4⟩ _ rfl rfl
  obtain ⟨-, hheld, hmonitor, hchild⟩ := hrefused _ rfl
  rcases hchild with ⟨hchild, -⟩ | ⟨-, hreaps⟩
  · cases hchild
  · exact ⟨_, rfl, hreaps, hheld, hmonitor, _, _, _, t, rfl, rfl, hself, htable⟩

end Custody

end ProcessTree
