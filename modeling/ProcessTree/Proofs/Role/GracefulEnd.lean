-- How a zygote ends that is closed. However the root's calls and what the zygote does are
-- interleaved, it ends in good order, and once it was sent SIGTERM nothing keeps it from its end.
import ProcessTree.Proofs.Process.Offspring
import ProcessTree.Proofs.Role.Departure
import ProcessTree.Proofs.Role.Undisturbed

namespace ProcessTree.Discharge

variable {x x' : Discharge} {p : Proc} {r : RoleRun} {m : Machine}

/-! ## Coming to the end -/

/-- From here the zygote can come to its end, and that is written down. -/
def Ends (x : Discharge) : Prop := ∃ y, Relation.ReflTransGen Step x y ∧ y.handle.record.isSome

theorem ends_of_next {move : Move} (hmove : x.next? move = some x') (h : x'.Ends) : x.Ends := by
  obtain ⟨y, hrun, hrecord⟩ := h
  exact ⟨y, .head (.move hmove) hrun, hrecord⟩

theorem acting?_of_runs (hp : x.machine.proc? x.zygote = some p) (halive : p.life = .alive)
    (hruns : x.Runs p r) : x.acting? = some (p, r) := by
  unfold acting? Proc.isActive Machine.roleOf?
  simp [hp, halive, hruns.going, hruns.program]

theorem next?_goOn (hact : x.acting? = some (p, r)) (hmove : x.machine.roleMove? p r = some m) :
    x.next? .goOn = some { x with machine := m } := by
  simp only [next?, hact, Option.bind_some, hmove, Option.map_some]

theorem ends_of_ended (hrecord : x.handle.record = none) {state : ExitState}
    (hp : x.machine.proc? x.zygote = some p) (hended : p.life = .ended state) : x.Ends := by
  have hmove : x.next? .record = some { x with
      machine := x.machine.modify x.zygote fun p => { p with life := .reaped }
      handle := { x.handle with record := x.handle.record.write (.ok state) } } := by
    simp only [next?, record?, hrecord, Option.isNone_none, if_true,
      Machine.reap?_of_ended hp hended, Option.map_some]
  refine ends_of_next hmove ⟨_, .refl, ?_⟩
  rw [hrecord]
  rfl

/-- A zygote whose loop is over ends. -/
theorem Sound.ends_of_stage (h : x.Sound) (hrole : x.machine.roleOf? x.zygote = some r)
    (hstage : r.loop.stage = .ended (.ok ())) : x.Ends := by
  obtain ⟨p, hp, hstands⟩ := h.stands
  unfold Stands at hstands
  cases hlife : p.life with
  | alive =>
    rw [hlife] at hstands
    obtain ⟨hrecord, r', hruns⟩ := hstands
    obtain rfl : r' = r := by
      unfold Machine.roleOf? at hrole
      rw [hp] at hrole
      simpa [hruns.program] using hrole
    have hresult : r'.result? = some (.ok ()) := by
      unfold RoleRun.result?
      rw [hstage]
    have hmove : x.machine.roleMove? p r' = some (x.machine.endProc x.zygote (.exited 0)) := by
      simp only [Machine.roleMove?, hresult, Machine.pid_of_proc? hp, Machine.roleCode]
    refine ends_of_next (next?_goOn (acting?_of_runs hp hlife hruns) hmove) ?_
    exact ends_of_ended hrecord (Machine.proc?_endProc hp hlife) rfl
  | ended state =>
    rw [hlife] at hstands
    exact ends_of_ended hstands.1 hp hlife
  | reaped =>
    rw [hlife] at hstands
    obtain ⟨state, hstate, -⟩ := hstands
    exact ⟨x, .refl, by rw [hstate]; rfl⟩

/-- A loop that waits and has caught a signal takes that, or a message before it. -/
theorem ends_of_caught (h : x.Sound) (hact : x.acting? = some (p, r))
    {c : Channel ControlMessage} (hchannel : r.channel = some c) (hcaught : p.caught ≠ [])
    (hstage : r.loop.stage = .awaiting) : x.Ends := by
  obtain ⟨hp, -, -, hruns⟩ := h.acting hact
  obtain ⟨config, hconfig⟩ := hruns.configured
  obtain ⟨taken, tail, got, hcarries⟩ := hruns.channelled hchannel
  have hrole : x.machine.roleOf? x.zygote = some r := by
    unfold Machine.roleOf?
    simp [hp, hruns.program]
  have hresult : r.result? = none := by
    unfold RoleRun.result?
    rw [hstage]
  obtain ⟨m, r', hevent, hrole', hstage'⟩ : ∃ m r', x.machine.event? x.zygote r c = some m ∧
      m.roleOf? x.zygote = some r' ∧ r'.loop.stage = .ended (.ok ()) := by
    cases hrecv : c.inbound.recv? with
    | some result =>
      obtain ⟨received, inbound⟩ := result
      refine ⟨_, _, by simp only [Machine.event?, hrecv]; rfl,
        Machine.roleOf?_setRole (Machine.roleOf?_closeFds.trans hrole), ?_⟩
      have hended : r.loop.onEvent (Machine.eventOf received) =
          { r.loop with stage := .ended (.ok ()) } := by
        apply RoleLoop.onEvent_of_graceful hruns.notWorker
        rcases (hcarries.recv hrecv).1 with rfl | rfl
        · exact .inl rfl
        · exact .inr (.inr rfl)
      simp only [hended]
    | none =>
      obtain ⟨s, rest, hsome⟩ := List.exists_cons_of_ne_nil hcaught
      have hcatch : x.machine.catch? x.zygote = some (s, x.machine.modify x.zygote
          fun p => { p with caught := rest }) := by
        unfold Machine.catch?
        simp only [hp, Option.map_some, hsome]
      refine ⟨_, _, by simp only [Machine.event?, hrecv, hcatch, Option.map_some]; rfl,
        Machine.roleOf?_setRole (Machine.roleOf?_closeFds.trans
          ((Machine.roleOf?_catch? hcatch).trans hrole)), ?_⟩
      have hended : r.loop.onEvent (.signal s) = { r.loop with stage := .ended (.ok ()) } :=
        RoleLoop.onEvent_of_graceful hruns.notWorker (.inr (.inl ⟨s, rfl⟩))
      simp only [hended]
  have hmove : x.machine.roleMove? p r = some m := by
    simp only [Machine.roleMove?, hresult, hconfig, hchannel, Machine.loopMove?, hstage,
      Machine.pid_of_proc? hp, hevent, Option.some_or]
  exact ends_of_next (next?_goOn hact hmove)
    ((sound_goOn h hact hmove).ends_of_stage hrole' hstage')

/-- A zygote that has made its channel and was sent SIGTERM. -/
theorem Sound.ends_of_started (h : x.Sound) (hterm : ∃ startUp, (.term, startUp) ∈ x.met)
    (hrole : x.machine.roleOf? x.zygote = some r) (hstart : r.startUp = .started) : x.Ends := by
  obtain ⟨p, hp, hstands⟩ := h.stands
  have hprogram : x.machine.roleOf? x.zygote = _ := hrole
  unfold Machine.roleOf? at hprogram
  rw [hp] at hprogram
  unfold Stands at hstands
  cases hlife : p.life with
  | alive =>
    rw [hlife] at hstands
    obtain ⟨hrecord, r', hruns⟩ := hstands
    obtain rfl : r' = r := by simpa [hruns.program] using hprogram
    rcases hruns.stage with hstage | hstage
    · have hcaught := (hruns.told hterm).2.resolve_right (by simp [hstage])
      cases hchannel : r'.channel with
      | none => exact absurd hstart (hruns.unstarted hchannel).1
      | some c =>
        exact ends_of_caught h (acting?_of_runs hp hlife hruns) hchannel hcaught hstage
    · exact h.ends_of_stage hrole hstage
  | ended state =>
    rw [hlife] at hstands
    exact ends_of_ended hstands.1 hp hlife
  | reaped =>
    rw [hlife] at hstands
    obtain ⟨state, hstate, -⟩ := hstands
    exact ⟨x, .refl, by rw [hstate]; rfl⟩

/-- Wherever the zygote was when it was sent SIGTERM, it comes to its end. -/
theorem Sound.ends (h : x.Sound) (hterm : ∃ startUp, (.term, startUp) ∈ x.met) : x.Ends := by
  obtain ⟨p, hp, hstands⟩ := h.stands
  unfold Stands at hstands
  cases hlife : p.life with
  | alive =>
    rw [hlife] at hstands
    obtain ⟨hrecord, r, hruns⟩ := hstands
    have hact := acting?_of_runs hp hlife hruns
    have hrole : x.machine.roleOf? x.zygote = some r := by
      unfold Machine.roleOf?
      simp [hp, hruns.program]
    have harmed := (hruns.told hterm).1
    cases hstart : r.startUp with
    | configuring | adopting | installing =>
      rw [hstart] at harmed
      cases harmed
    | started => exact h.ends_of_started hterm hrole hstart
    | connecting =>
      -- It makes its channel first.
      have hnone : r.channel = none := by
        cases hchannel : r.channel with
        | none => rfl
        | some c =>
          have hstarted := hruns.started
          rw [hchannel, hstart] at hstarted
          cases hstarted
      have hresult : r.result? = none := by
        unfold RoleRun.result?
        rw [(hruns.unstarted hnone).2.1]
      obtain ⟨config, hconfig⟩ := hruns.configured
      obtain ⟨-, -, hfinds⟩ := hruns.unstarted hnone
      obtain ⟨t, handled, r', -, hself, -, hstep⟩ :=
        Machine.startMove_step hp hconfig hruns.directions hfinds (by simp [hstart])
      have hstarted : r'.startUp = .started := by
        cases hstep with
        | connected => rfl
        | configured hearly | adopted hearly | installed hearly =>
          rw [hstart] at hearly
          cases hearly
      have hmove : x.machine.roleMove? p r = some (x.machine.startMove p r) := by
        simp only [Machine.roleMove?, hresult, hconfig, hnone]
      have hrole' : (x.machine.startMove p r).roleOf? x.zygote = some r' := by
        unfold Machine.roleOf?
        rw [hself]
        rfl
      exact ends_of_next (next?_goOn hact hmove)
        ((sound_startMove h hact hnone).ends_of_started hterm hrole' hstarted)
  | ended state =>
    rw [hlife] at hstands
    exact ends_of_ended hstands.1 hp hlife
  | reaped =>
    rw [hlife] at hstands
    obtain ⟨state, hstate, -⟩ := hstands
    exact ⟨x, .refl, by rw [hstate]; rfl⟩

/-! ## The start -/

/-- What the spawner of a zygote is like: its numbers stand for one thing each, and the next
process number is new. Children play their roles, and find a configuration. -/
structure Ready (m : Machine) (root : Nat) : Prop where
  spawner : ∃ p, m.proc? root = some p ∧ p.fds.Single
  fresh : ∀ q ∈ m.procs, q.pid < m.nextPid
  behaviour : m.behaviour = .role
  configured : ∃ config, m.configOf (m.credentialsOf root) = .ok config

theorem sound_handle (grace clock : Nat) :
    ({ HandleLife.start grace true with clock } : HandleLife).Sound := by
  have h := HandleLife.sound_next (HandleLife.sound_start grace true)
    (show (HandleLife.start grace true).next? (.pass clock) = some _ from rfl)
  simpa [HandleLife.start] using h

/-- A zygote that was just started has the pipe from the root, and nothing is in it. -/
theorem runs_start {root : Nat} {config : Config} {child : Handle} {ends : Machine.NewChannel}
    {m' : Machine} {t : FdTable} (hready : Ready m root)
    (hbounded : ends.child.receive ≤ Invocation.maxFd ∧ ends.child.send ≤ Invocation.maxFd)
    (hoffspring : m.Offspring m' root (.zygote config m.running) ends.child t) :
    ∃ r, (start m' root child ends (m.pipes.length + 1)).Runs
      (m.newProc root (.zygote config m.running) ends.child t m.nextPid) r := by
  obtain ⟨_, hfound⟩ := hready.configured
  obtain ⟨config', hconfig⟩ := Machine.configOf_ok hfound
    (m.host.inherits (m.credentialsOf root) (.zygote config m.running))
  have hprogram := hoffspring.program nofun hready.behaviour hbounded
  rw [hconfig] at hprogram
  obtain ⟨hread, hwrite⟩ := Handover.toInt_told_placed config.fdPassing hbounded
  have hreads := hoffspring.read
  have hwrites := hoffspring.write
  rw [show (SpawnOptions.zygote config m.running).fdPassing = config.fdPassing from rfl]
    at hreads hwrites
  have hignored : (m.newProc root (.zygote config m.running) ends.child t m.nextPid).ignored =
      [.pipe] := by
    unfold Machine.newProc
    rw [hready.behaviour]
    rfl
  refine ⟨_, hprogram, rfl, rfl, ?_, rfl, ⟨rfl, rfl⟩, ⟨rfl, rfl⟩, ⟨config', rfl⟩, .inl rfl,
    ⟨nofun, rfl⟩, ?_, ⟨0, [], [], Link.sound_start _ _, ?_, ?_, .empty, ?_, rfl⟩, ?_⟩
  · rw [hignored]
    decide
  · rw [hread] at hreads
    rw [hwrite] at hwrites
    exact ⟨_, _, _, hread, hwrite, hreads, hwrites⟩
  · intro c hc
    cases hc
  · intro c s hc
    cases hc
  · simp only [start, hoffspring.pipes]
    simp
  · rintro ⟨startUp, hmem⟩
    cases hmem

theorem sound_start {root : Nat} {config : Config} {child : Handle} {ends : Machine.NewChannel}
    {m' : Machine} (hready : Ready m root)
    (hspawn : m.spawn root (.zygote config m.running) = (.ok (child, ends), m'))
    (hbounded : ends.child.receive ≤ Invocation.maxFd ∧ ends.child.send ≤ Invocation.maxFd) :
    (start m' root child ends (m.pipes.length + 1)).Sound := by
  obtain ⟨p, hp, hsingle⟩ := hready.spawner
  obtain ⟨rfl, t, hoffspring⟩ :=
    Machine.offspring_of_spawn hp hsingle hready.fresh hbounded hspawn
  have hholds := Machine.rewired_spawn hp (FdTable.holds_nil _) hspawn
  obtain ⟨howned, -⟩ := hholds.1.holds hp
  refine ⟨sound_handle _ _, rfl, ?_, ?_, _, hoffspring.proc, rfl,
    runs_start hready hbounded hoffspring⟩
  · have hless := hready.fresh p (List.mem_of_find?_eq_some hp)
    rw [Machine.pid_of_proc? hp] at hless
    exact Nat.ne_of_lt hless
  · intro _ d hd
    have hfile := howned.2 ends.send (.writeEnd (m.pipes.length + 1)) (by simp)
    have hd' : (m'.fdsOf root).get? ends.send = some d := hd
    unfold FdTable.file? at hfile
    rw [hd'] at hfile
    exact Option.some.inj hfile

/-! ## The law -/

/-- However the calls of the root's handle, the sending of quit, the end of the channel and the
signals are interleaved with the start of a zygote and its loop: the end that is written down is
that it exited with code 0, that SIGTERM ended it before its handlers were installed, or that
SIGKILL ended it after a deadline had passed. Once it was sent SIGTERM it can come to its end from
wherever it is. -/
theorem a_closed_zygote_ends_gracefully {root : Nat} {config : Config} {child : Handle}
    {ends : Machine.NewChannel} {m' : Machine} (hready : Ready m root)
    (hspawn : m.spawn root (.zygote config m.running) = (.ok (child, ends), m'))
    (hbounded : ends.child.receive ≤ Invocation.maxFd ∧ ends.child.send ≤ Invocation.maxFd)
    (hrun : Relation.ReflTransGen Step (start m' root child ends (m.pipes.length + 1)) x) :
    (∀ outcome, x.handle.record = some outcome →
      ∃ state, outcome = .ok state ∧ x.Graceful state) ∧
      ((∃ startUp, (.term, startUp) ∈ x.met) → x.Ends) := by
  have h := sound_run (sound_start hready hspawn hbounded) hrun
  refine ⟨?_, h.ends⟩
  intro outcome houtcome
  obtain ⟨p, -, hstands⟩ := h.stands
  unfold Stands at hstands
  cases hlife : p.life with
  | alive =>
    rw [hlife, houtcome] at hstands
    cases hstands.1
  | ended state =>
    rw [hlife, houtcome] at hstands
    cases hstands.1
  | reaped =>
    rw [hlife, houtcome] at hstands
    obtain ⟨state, hstate, hgraceful⟩ := hstands
    cases hstate
    exact ⟨state, rfl, hgraceful⟩

/-! ## A zygote that is closed -/

/-- A root by itself. -/
def soleRoot : Machine :=
  ((Machine.empty .obliging ⟨[]⟩ .role []).addOrphan .standard .outside).2

theorem ready_soleRoot : Ready soleRoot 2 where
  spawner := ⟨_, rfl, by unfold FdTable.Single; decide⟩
  fresh := by decide
  behaviour := rfl
  configured := ⟨_, rfl⟩

def run? (x : Discharge) : List Move → Option Discharge
  | [] => some x
  | move :: moves => (x.next? move).bind fun x' => x'.run? moves

theorem steps_of_run? {moves : List Move} (hrun : x.run? moves = some x') :
    Relation.ReflTransGen Step x x' := by
  induction moves generalizing x with
  | nil =>
    cases hrun
    exact .refl
  | cons move moves ih =>
    obtain ⟨x₁, hmove, hrun⟩ := Option.bind_eq_some_iff.mp hrun
    exact .head (.move hmove) (ih hrun)

/-- A close that has sent the header of quit when its deadline passes. It closes the channel and
sends SIGTERM. -/
def closing : List Move := [
  .call (.begin (.close (some 5))), .send, .write, .pass 5, .call (.reply (.quit .late)),
  .call (.reply .own), .call (.reply .own), .call (.reply (.signal none))]

/-- The zygote goes through its start until it makes its channel. -/
def arming : List Move := [.goOn, .goOn, .goOn]

/-- The end that is recorded of the first zygote of a root, after these moves. -/
def recorded? (moves : List Move) : Option ExitState := do
  let (.ok (child, ends), m) := soleRoot.spawn 2 (.zygote (.initial 0 0) soleRoot.running) | none
  let x ← (start m 2 child ends (soleRoot.pipes.length + 1)).run? moves
  x.handle.record.bind Except.toOption

/-- SIGTERM ends the zygote before its handlers are installed. Behind them it exits with code 0, as
it finds the frame of quit broken off. If it does not go on it is killed, since the deadline has
passed. -/
theorem a_zygote_is_closed_in_each_of_three_ways :
    ∃ child ends m, soleRoot.spawn 2 (.zygote (.initial 0 0) soleRoot.running) =
        (.ok (child, ends), m) ∧
      ∀ state ∈ [ExitState.signaled .term, .exited 0, .signaled .kill], ∃ x : Discharge,
        Relation.ReflTransGen Step (start m 2 child ends (soleRoot.pipes.length + 1)) x ∧
          x.handle.record = some (.ok state) ∧ x.Graceful state := by
  have hterm : recorded? (closing ++ [.record]) = some (.signaled .term) := by decide +kernel
  have hexit : recorded? (arming ++ closing ++ [.goOn, .listen, .listen, .goOn, .goOn, .record]) =
      some (.exited 0) := by decide +kernel
  have hkill : recorded? (arming ++ closing ++
      [.goOn, .call (.reply .own), .call (.reply (.signal none)), .record]) =
      some (.signaled .kill) := by decide +kernel
  obtain ⟨child, ends, m, hspawn, hbounded⟩ : ∃ child ends m,
      soleRoot.spawn 2 (.zygote (.initial 0 0) soleRoot.running) = (.ok (child, ends), m) ∧
        ends.child.receive ≤ Invocation.maxFd ∧ ends.child.send ≤ Invocation.maxFd :=
    ⟨_, _, _, rfl, by decide, by decide⟩
  have hclosed : ∀ {moves : List Move} {state : ExitState}, recorded? moves = some state →
      ∃ x : Discharge,
        Relation.ReflTransGen Step (start m 2 child ends (soleRoot.pipes.length + 1)) x ∧
          x.handle.record = some (.ok state) ∧ x.Graceful state := by
    intro moves state hrecorded
    unfold recorded? at hrecorded
    rw [hspawn] at hrecorded
    obtain ⟨x, hx, hrecorded⟩ := Option.bind_eq_some_iff.mp hrecorded
    obtain ⟨outcome, hrecord, hstate⟩ := Option.bind_eq_some_iff.mp hrecorded
    have hsteps := steps_of_run? hx
    obtain ⟨state', rfl, hgraceful⟩ :=
      (a_closed_zygote_ends_gracefully ready_soleRoot hspawn hbounded hsteps).1 outcome hrecord
    cases hstate
    exact ⟨x, hsteps, hrecord, hgraceful⟩
  refine ⟨child, ends, m, hspawn, ?_⟩
  intro state hstate
  simp only [List.mem_cons, List.not_mem_nil, or_false] at hstate
  rcases hstate with rfl | rfl | rfl
  · exact hclosed hterm
  · exact hclosed hexit
  · exact hclosed hkill

end ProcessTree.Discharge
