-- What a role does that starts nothing itself: a zygote or a job. It goes through its start, takes
-- an event or reads its channel, and ends; until then it changes no process but its own.
import ProcessTree.Machine.Run
import ProcessTree.Proofs.Process.Holders
import ProcessTree.Proofs.Worker.Handoff

namespace ProcessTree

/-! ## Taking over descriptors -/

/-- What is closed when a program is run may be said anew, and nothing else changes. -/
theorem FdTable.setCloseOnExec_of_file {t : FdTable} {n : Nat} {file : OpenFile}
    (h : t.file? n = some file) (closeOnExec : Bool) :
    ∃ t', t.setCloseOnExec n closeOnExec = .ok t' ∧ ∀ k : Nat, t'.file? k = t.file? k := by
  have hused : t.isFree n = false := by
    by_contra hfree
    unfold FdTable.file? at h
    rw [get?_of_isFree (by simpa using hfree)] at h
    cases h
  refine ⟨_, by unfold setCloseOnExec; rw [if_neg (by simp [hused])], ?_⟩
  intro k
  simp only [FdTable.file?, get?_eq, List.find?_map, Option.map_map]
  congr 1
  funext entry
  by_cases hentry : entry.1 = n <;> simp [hentry]

/-- A role that takes its descriptors over has no others by that. -/
theorem ChannelFds.within_of_adopt {fds : ChannelFds} {t t' : FdTable} {file : OpenFile}
    {ns : Nat → Prop} (hadopt : fds.adopt t = .ok t') (h : t.Within file ns) :
    t'.Within file ns := by
  have hmapped {e : Except Errno FdTable} {f : Errno → ReentryError} {t : FdTable}
      (hok : e.mapError f = .ok t) : e = .ok t := by
    cases e with
    | error e => cases hok
    | ok t => exact congrArg Except.ok (Except.ok.inj hok)
  unfold ChannelFds.adopt at hadopt
  obtain ⟨-, -, hadopt⟩ := bind_eq_ok_iff.mp hadopt
  obtain ⟨-, -, hadopt⟩ := bind_eq_ok_iff.mp hadopt
  obtain ⟨t₁, hset, hset'⟩ := bind_eq_ok_iff.mp hadopt
  exact (h.closeOnExec (hmapped hset)).closeOnExec (hmapped hset')

/-- The descriptors that a role was told are the ends of a channel, and it reads this pipe. -/
def ChannelFds.Finds (fds : ChannelFds) (t : FdTable) (front : Nat) : Prop :=
  ∃ read write back : Nat, fds.read.toInt = read ∧ fds.write.toInt = write ∧
    t.file? read = some (.readEnd front) ∧ t.file? write = some (.writeEnd back)

/-- A role that has the ends that it was told takes them over. -/
theorem ChannelFds.Finds.adopt {fds : ChannelFds} {t : FdTable} {front : Nat}
    (h : fds.Finds t front) :
    ∃ t', fds.adopt t = .ok t' ∧ ∀ n : Nat, t'.file? n = t.file? n := by
  obtain ⟨read, write, back, hread, hwrite, hreads, hwrites⟩ := h
  obtain ⟨t₁, hset, hsame⟩ := FdTable.setCloseOnExec_of_file hreads true
  obtain ⟨t₂, hset', hsame'⟩ := FdTable.setCloseOnExec_of_file ((hsame write).trans hwrites) true
  obtain ⟨⟨_, b⟩, hd, rfl⟩ := Option.map_eq_some_iff.mp hreads
  obtain ⟨⟨_, c⟩, he, rfl⟩ := Option.map_eq_some_iff.mp hwrites
  refine ⟨t₂, ?_, fun n => (hsame' n).trans (hsame n)⟩
  unfold ChannelFds.adopt probeRead probeWrite
  rw [hread, hwrite, hd, he]
  simp only [bind, Except.bind, Int.toNat_natCast, hset, Except.mapError, hset']

theorem ChannelFds.Finds.same {fds : ChannelFds} {t t' : FdTable} {front : Nat}
    (h : fds.Finds t front) (hsame : ∀ n : Nat, t'.file? n = t.file? n) : fds.Finds t' front := by
  obtain ⟨read, write, back, hread, hwrite, hreads, hwrites⟩ := h
  exact ⟨read, write, back, hread, hwrite, (hsame read).trans hreads, (hsame write).trans hwrites⟩

/-- Quit, a signal and the end of the channel end the loop of a role that has no jobs well. -/
theorem RoleLoop.onEvent_of_graceful {l : RoleLoop} (hrole : l.role ≠ .worker) {event : LoopEvent}
    (hevent : event = .message .quit ∨ (∃ s, event = .signal s) ∨ event = .failed .channelClosed) :
    l.onEvent event = { l with stage := .ended (.ok ()) } := by
  have hleave : l.leave (.ok ()) = { l with stage := .ended (.ok ()) } := by
    unfold RoleLoop.leave
    rw [if_neg hrole]
  rcases hevent with rfl | ⟨s, rfl⟩ | rfl <;> exact hleave

namespace Machine

variable {m m' m₁ : Machine} {pid : Nat} {p : Proc} {r r' : RoleRun} {config : Config}

/-! ## Changes of one process -/

/-- No process has changed but this one. -/
structure Alters (m m' : Machine) (pid : Nat) : Prop where
  rest : m' = { m with procs := m'.procs }
  pids : m'.procs.map Proc.pid = m.procs.map Proc.pid
  others : ∀ q, q ≠ pid → m'.proc? q = m.proc? q

/-- No process has changed but this one, and nobody has anything open that it had not before. -/
structure Touches (m m' : Machine) (pid : Nat) : Prop extends Alters m m' pid where
  gains : m.NoneGains m'

theorem alters_refl (m : Machine) (pid : Nat) : m.Alters m pid := ⟨rfl, rfl, fun _ _ => rfl⟩

theorem Alters.trans (h : m.Alters m₁ pid) (h' : m₁.Alters m' pid) : m.Alters m' pid :=
  ⟨by rw [h'.rest, h.rest], h'.pids.trans h.pids,
    fun q hne => (h'.others q hne).trans (h.others q hne)⟩

theorem Alters.pipes (h : m.Alters m' pid) : m'.pipes = m.pipes := by
  rw [h.rest]

theorem alters_modify {f : Proc → Proc} (hf : ∀ p, (f p).pid = p.pid) :
    m.Alters (m.modify pid f) pid :=
  ⟨rfl, pids_modify hf, fun _ hne => proc?_modify_ne hf hne⟩

theorem Touches.trans (h : m.Touches m₁ pid) (h' : m₁.Touches m' pid) : m.Touches m' pid :=
  ⟨h.toAlters.trans h'.toAlters, h.gains.trans h'.gains⟩

theorem touches_modify {f : Proc → Proc} (hf : ∀ p, (f p).pid = p.pid)
    (hfds : ∀ p file ns, p.fds.Within file ns → (f p).fds.Within file ns) :
    m.Touches (m.modify pid f) pid :=
  ⟨alters_modify hf, noneGains_modify hf hfds⟩

theorem touches_setRole (m : Machine) (pid : Nat) (r : RoleRun) : m.Touches (m.setRole pid r) pid :=
  touches_modify (fun _ => rfl) fun _ _ _ h => h

theorem touches_closeFds (m : Machine) (pid : Nat) (gone : List Nat) :
    m.Touches (m.closeFds pid gone) pid :=
  ⟨alters_modify fun _ => rfl, noneGains_closeFds m pid gone⟩

theorem closeFds_nil (m : Machine) (pid : Nat) : m.closeFds pid [] = m := by
  simp [closeFds, modifyFds, modify]

theorem proc?_change {f : Proc → Proc} (hp : m.proc? pid = some p) (hf : ∀ p, (f p).pid = p.pid) :
    (m.modify pid f).proc? pid = some (f p) := by
  rw [proc?_modify_self hf, hp]
  rfl

theorem proc?_setRole (hp : m.proc? pid = some p) (r : RoleRun) :
    (m.setRole pid r).proc? pid = some { p with program := .role r } :=
  proc?_change hp fun _ => rfl

/-! ## The start -/

theorem touches_adopt {t : FdTable} (hp : m.proc? pid = some p)
    (hadopt : r.fds.adopt p.fds = .ok t) :
    m.Touches (m.modifyFds pid fun _ => t) pid ∧
      (m.modifyFds pid fun _ => t).proc? pid = some { p with fds := t } := by
  refine ⟨⟨alters_modify fun _ => rfl, ?_⟩, proc?_change hp fun _ => rfl⟩
  intro file who h
  refine h.modify (fun _ => rfl) (fun _ _ _ hn => hn) fun _ _ => ?_
  refine ChannelFds.within_of_adopt hadopt ?_
  rw [← fdsOf_eq hp]
  exact h.fdsOf pid

/-- One step of the start of a role: the signals that it handles then, and the role that it is. -/
inductive StartStep (t : FdTable) (front : Nat) (outbound inbound : Registry) (before : List Signal)
    (r : RoleRun) : List Signal → RoleRun → Prop where
  | configured (h : r.startUp = .configuring) :
    StartStep t front outbound inbound before r before { r with startUp := .adopting }
  | adopted (h : r.startUp = .adopting) :
    StartStep t front outbound inbound before r before { r with startUp := .installing }
  | installed (h : r.startUp = .installing) :
    StartStep t front outbound inbound before r Signal.termination { r with startUp := .connecting }
  | connected (h : r.startUp = .connecting) (read write : Nat)
      (hread : t.file? read = some (.readEnd front)) :
    StartStep t front outbound inbound before r before { r with
      startUp := .started
      channel := some (.start outbound inbound write read) }

/-- A role that finds its configuration and its descriptors comes further with its start. -/
theorem startMove_step {outbound inbound : Direction} {front : Nat} (hp : m.proc? pid = some p)
    (hconfig : r.config = .ok config) (hdirections : r.role.directions? = some (outbound, inbound))
    (hfinds : r.fds.Finds p.fds front) (hstart : r.startUp ≠ .started) :
    ∃ t handled r', m.Touches (m.startMove p r) pid ∧
      (m.startMove p r).proc? pid = some { p with fds := t, handled, program := .role r' } ∧
      (∀ n : Nat, t.file? n = p.fds.file? n) ∧
      StartStep p.fds front outbound.registry inbound.registry p.handled r handled r' := by
  have hpid := pid_of_proc? hp
  cases hstartUp : r.startUp with
  | configuring =>
    have hmove : m.startMove p r = m.setRole pid { r with startUp := .adopting } := by
      simp only [startMove, hstartUp, hconfig, hpid]
    rw [hmove]
    exact ⟨p.fds, p.handled, _, touches_setRole _ _ _, proc?_setRole hp _, fun _ => rfl,
      .configured hstartUp⟩
  | adopting =>
    obtain ⟨t, hadopt, hfiles⟩ := hfinds.adopt
    have hmove : m.startMove p r = (m.modifyFds pid fun _ => t).setRole pid
        { r with startUp := .installing } := by
      simp only [startMove, hstartUp, Machine.adopt, hadopt, hpid]
    obtain ⟨htouches, hadopted⟩ := touches_adopt hp hadopt
    rw [hmove]
    exact ⟨t, p.handled, _, htouches.trans (touches_setRole _ _ _), proc?_setRole hadopted _,
      hfiles, .adopted hstartUp⟩
  | installing =>
    have hmove : m.startMove p r = (m.modify pid fun p =>
        { p with handled := Signal.termination }).setRole pid
          { r with startUp := .connecting } := by
      simp only [startMove, hstartUp, hpid]
    have hinstalled : (m.modify pid fun p => { p with handled := Signal.termination }).proc? pid =
        some { p with handled := Signal.termination } := proc?_change hp fun _ => rfl
    have htouches : m.Touches
        (m.modify pid fun p => { p with handled := Signal.termination }) pid :=
      touches_modify (fun _ => rfl) fun _ _ _ h => h
    rw [hmove]
    exact ⟨p.fds, _, _, htouches.trans (touches_setRole _ _ _), proc?_setRole hinstalled _,
      fun _ => rfl, .installed hstartUp⟩
  | connecting =>
    obtain ⟨read, write, back, hread, hwrite, hreads, hwrites⟩ := hfinds
    have hmove : m.startMove p r = m.setRole pid { r with
        startUp := .started
        channel := some (.start outbound.registry inbound.registry write read) } := by
      have hreads' := hreads
      rw [← fdsOf_eq hp] at hreads' hwrites
      simp only [startMove, hstartUp, Machine.connect, hdirections, hread, hwrite,
        Int.toNat_natCast, hpid, openChannel_of_file hwrites hreads']
    rw [hmove]
    exact ⟨p.fds, p.handled, _, touches_setRole _ _ _, proc?_setRole hp _, fun _ => rfl,
      .connected hstartUp read write hreads⟩
  | started => exact absurd hstartUp hstart

/-! ## Events -/

/-- A role that keeps nothing for the root only goes on with its loop. -/
theorem onEvent_of_idle (m : Machine) (pid : Nat) (hidle : r.handoff = none) (event : LoopEvent) :
    m.onEvent pid r event = m.setRole pid { r with loop := r.loop.onEvent event } := by
  have hsame : { r with handoff := none, loop := r.loop.onEvent event } =
      { r with loop := r.loop.onEvent event } := by
    rw [← hidle]
  unfold onEvent
  simp only [hidle, Option.elim_none, closeFds_nil, hsame]

theorem catch?_eq_some {s : Signal} (hp : m.proc? pid = some p)
    (h : m.catch? pid = some (s, m')) :
    ∃ rest, p.caught = s :: rest ∧ m' = m.modify pid fun p => { p with caught := rest } := by
  unfold catch? at h
  rw [hp] at h
  cases hcaught : p.caught with
  | nil => simp only [Option.map_some, hcaught, reduceCtorEq] at h
  | cons s' rest =>
    simp only [Option.map_some, hcaught, Option.some.injEq, Prod.mk.injEq] at h
    obtain ⟨rfl, rfl⟩ := h
    exact ⟨rest, rfl, rfl⟩

/-! ## Reading -/

/-- What a read call gives where there is the read end of a pipe. -/
theorem read_of_file {pipe : Nat} {fd : Int} {q : Pipe} {n : Nat}
    (hfile : (m.fdsOf pid).file? fd = some (.readEnd pipe)) (hpipe : m.pipes[pipe]? = some q) :
    m.read pid fd n = if q.size = 0 then
      (if m.isHeld (.writeEnd pipe) then .waits else .finished, m)
    else (.got (q.pull n).1, m.setPipe pipe (q.pull n).2) := by
  obtain ⟨⟨_, b⟩, hd, rfl⟩ := Option.map_eq_some_iff.mp hfile
  unfold Machine.read Machine.pipeAt
  simp only [hd, hpipe, Option.getD_some]

/-- A channel goes on reading, or closes the descriptor that it has read. -/
theorem settleReader_cases {c c' : Channel ControlMessage}
    (h : m.settleReader pid c = (c', m')) :
    c'.inbound = c.inbound ∧ ∃ gone, m' = m.closeFds pid gone ∧
      (c'.reader = none ∨ (c'.reader = c.reader ∧ gone = [])) := by
  unfold Machine.settleReader at h
  by_cases hover : c.inbound.isOver = true
  · rw [if_pos hover] at h
    cases h
    exact ⟨rfl, _, rfl, .inl rfl⟩
  · rw [if_neg hover] at h
    cases h
    exact ⟨rfl, [], (closeFds_nil m pid).symm, .inr ⟨rfl, rfl⟩⟩

/-- A role that has no jobs reads its channel beside its loop. -/
theorem backgroundMove?_of_idle (hjobs : r.jobs = []) (c : Channel ControlMessage) :
    m.backgroundMove? pid r c = (m.pump? pid c).map fun (c, m) =>
      m.setRole pid { r with channel := some c } := by
  simp only [backgroundMove?, hjobs, watchJobs?]

/-! ## All moves -/

/-- All that a role can do next whose loop waits or has ended well: end, go on with its start, take
an event, or read. -/
theorem roleMove?_cases (hconfig : r.config = .ok config)
    (hstage : r.loop.stage = .awaiting ∨ r.loop.stage = .ended (.ok ()))
    (hmove : m.roleMove? p r = some m') :
    (r.loop.stage = .ended (.ok ()) ∧ m' = m.endProc p.pid (.exited 0)) ∨
      r.loop.stage = .awaiting ∧ ((r.channel = none ∧ m' = m.startMove p r) ∨
        ∃ c, r.channel = some c ∧ (m.event? p.pid r c = some m' ∨
          m.backgroundMove? p.pid r c = some m')) := by
  rcases hstage with hstage | hstage
  · have hresult : r.result? = none := by
      unfold RoleRun.result?
      rw [hstage]
    refine .inr ⟨hstage, ?_⟩
    cases hchannel : r.channel with
    | none =>
      simp only [roleMove?, hresult, hchannel, hconfig, Option.some.injEq] at hmove
      exact .inl ⟨rfl, hmove.symm⟩
    | some c =>
      simp only [roleMove?, hresult, hchannel, hconfig, loopMove?, hstage] at hmove
      refine .inr ⟨c, rfl, ?_⟩
      rcases Option.or_eq_some_iff.mp hmove with hevent | ⟨-, hbackground⟩
      · exact .inl hevent
      · exact .inr hbackground
  · have hresult : r.result? = some (.ok ()) := by
      unfold RoleRun.result?
      rw [hstage]
    simp only [roleMove?, hresult, Option.some.injEq] at hmove
    exact .inl ⟨hstage, hmove.symm⟩

end Machine

end ProcessTree
