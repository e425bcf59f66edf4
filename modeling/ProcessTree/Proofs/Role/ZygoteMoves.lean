-- What a zygote does, from the start of its program to its end: wherever quit, the end of its
-- channel or a signal meets it, it goes on in good order.
import ProcessTree.Proofs.Role.Discharge
import ProcessTree.Proofs.Role.Entry

namespace ProcessTree.Discharge

variable {x x' : Discharge} {p : Proc} {r : RoleRun} {m : Machine}

/-! ## The start of the zygote -/

/-- A change of the zygote's own process leaves the rest as it is. -/
theorem proc?_change {f : Proc → Proc} (hp : x.machine.proc? x.zygote = some p)
    (hf : ∀ p, (f p).pid = p.pid) (hapart : x.root ≠ x.zygote) :
    (x.machine.modify x.zygote f).proc? x.zygote = some (f p) ∧
      (x.machine.modify x.zygote f).proc? x.root = x.machine.proc? x.root :=
  ⟨Machine.proc?_change hp hf, Machine.proc?_modify_ne hf hapart⟩

/-- The zygote comes further with its start, and makes no channel yet. -/
theorem Runs.advance (h : x.Runs p r) (hnone : r.channel = none) (startUp : StartUp)
    {t : FdTable} {handled : List Signal} (hunstarted : startUp ≠ .started)
    (hhandled : handled = if startUp.isArmed then Signal.termination else [])
    (harmed : r.startUp.isArmed = true → startUp.isArmed = true)
    (hfiles : ∀ n : Nat, t.file? n = p.fds.file? n) :
    x.Runs { p with fds := t, handled, program := .role { r with startUp } }
      { r with startUp } := by
  have hstage : r.loop.stage = .awaiting := by
    have hstarted := h.started
    rw [hnone] at hstarted
    exact hstarted.2
  refine ⟨rfl, h.going, h.first, h.heeds, hhandled, h.role, h.idle, h.configured, h.stage, ?_, ?_,
    h.carries, ?_⟩
  · simp only [hnone]
    exact ⟨hunstarted, hstage⟩
  · have hopened := h.opened
    unfold Opened at hopened ⊢
    simp only [hnone] at hopened ⊢
    exact hopened.same hfiles
  · intro hterm
    obtain ⟨hearly, htold⟩ := h.told hterm
    exact ⟨harmed hearly, htold⟩

theorem Runs.unstarted (h : x.Runs p r) (hnone : r.channel = none) :
    r.startUp ≠ .started ∧ r.loop.stage = .awaiting ∧ r.fds.Finds p.fds x.pipe := by
  have hstarted := h.started
  have hopened := h.opened
  unfold Opened at hopened
  rw [hnone] at hstarted hopened
  exact ⟨hstarted.1, hstarted.2, hopened⟩

/-- The zygote has made its channel. -/
theorem Runs.connect (h : x.Runs p r) (hnone : r.channel = none) (harmed : r.startUp.isArmed = true)
    {read : Nat} (hreads : p.fds.file? read = some (.readEnd x.pipe)) (outbound : Registry)
    (write : Nat) {t : FdTable} (hfiles : ∀ n : Nat, t.file? n = p.fds.file? n) {r' : RoleRun}
    (hr' : r' = { r with
      startUp := .started
      channel := some (.start outbound Direction.rootToZygote.registry write read) }) :
    x.Runs { p with fds := t, program := .role r' } r' := by
  have hcarries := h.carries
  have hhandled := h.handled
  have hinbound : inboundOf r = .start Direction.rootToZygote.registry := by
    unfold inboundOf
    rw [hnone]
    rfl
  rw [harmed] at hhandled
  rw [hinbound] at hcarries
  subst hr'
  refine ⟨rfl, h.going, h.first, h.heeds, hhandled, h.role, h.idle, h.configured, h.stage, rfl, ?_,
    hcarries, ?_⟩
  · intro n hn
    cases hn
    exact (hfiles read).trans hreads
  · intro hterm
    exact ⟨rfl, (h.told hterm).2⟩

theorem Runs.directions (h : x.Runs p r) :
    r.role.directions? = some (.zygoteToRoot, .rootToZygote) := by
  rw [h.role.1]
  rfl

/-- Whatever the zygote has to do until it has its channel goes well. -/
theorem sound_startMove (h : x.Sound) (hact : x.acting? = some (p, r)) (hnone : r.channel = none) :
    ({ x with machine := x.machine.startMove p r } : Discharge).Sound := by
  obtain ⟨hp, halive, hrecord, hruns⟩ := h.acting hact
  obtain ⟨config, hconfig⟩ := hruns.configured
  obtain ⟨hunstarted, -, hfinds⟩ := hruns.unstarted hnone
  obtain ⟨t, handled, r', htouches, hself, hfiles, hstep⟩ :=
    Machine.startMove_step hp hconfig hruns.directions hfinds hunstarted
  have hhandled := hruns.handled
  have hruns' : x.Runs { p with fds := t, handled, program := .role r' } r' := by
    cases hstep with
    | configured hstart =>
      rw [hstart] at hhandled
      exact hruns.advance hnone .adopting (by decide) hhandled
        (by simp [hstart, StartUp.isArmed]) hfiles
    | adopted hstart =>
      rw [hstart] at hhandled
      exact hruns.advance hnone .installing (by decide) hhandled
        (by simp [hstart, StartUp.isArmed]) hfiles
    | installed hstart =>
      exact hruns.advance hnone .connecting (by decide) rfl (fun _ => rfl) hfiles
    | connected hstart read write hread =>
      exact hruns.connect hnone (by rw [hstart]; rfl) hread _ write hfiles rfl
  exact h.goOn hrecord r' hself halive (htouches.others _ h.apart)
    (hruns'.onto rfl rfl (by rw [htouches.pipes]) rfl)

/-! ## Its loop -/

theorem Runs.notWorker (h : x.Runs p r) : r.loop.role ≠ .worker := by
  rw [h.role.2]
  decide

/-- The zygote takes an event that ends its loop well. -/
theorem Sound.take (h : x.Sound) (hact : x.acting? = some (p, r)) {c : Channel ControlMessage}
    (hchannel : r.channel = some c) {inbound : Inbound ControlMessage} {taken : Nat} {tail : Bytes}
    {got : List ControlMessage} (hcarries : x.Carries inbound taken tail got)
    {caught : List Signal} (hself : m.proc? x.zygote = some { p with caught })
    (hroot : m.proc? x.root = x.machine.proc? x.root) (hpipes : m.pipes = x.machine.pipes)
    {event : LoopEvent} (hevent : event = .message .quit ∨ (∃ s, event = .signal s) ∨
      event = .failed .channelClosed) {r₁ : RoleRun}
    (hr₁ : r₁ = { r with channel := some { c with inbound } }) :
    ({ x with machine := m.onEvent x.zygote r₁ event } : Discharge).Sound := by
  obtain ⟨hp, halive, hrecord, hruns⟩ := h.acting hact
  obtain ⟨r₂, hr₂⟩ : ∃ r₂, r₂ = { r₁ with loop := { r.loop with stage := .ended (.ok ()) } } :=
    ⟨_, rfl⟩
  have hmachine : m.onEvent x.zygote r₁ event = m.setRole x.zygote r₂ := by
    rw [Machine.onEvent_of_idle _ _ (by rw [hr₁]; exact hruns.idle.2), hr₂, hr₁,
      RoleLoop.onEvent_of_graceful hruns.notWorker hevent]
  rw [hmachine]
  refine h.goOn hrecord r₂ (Machine.proc?_setRole hself r₂) halive
    (((Machine.touches_setRole m x.zygote r₂).others _ h.apart).trans hroot) ?_
  have hstarted := hruns.started
  have hopened := hruns.opened
  unfold Opened at hopened
  rw [hchannel] at hstarted hopened
  subst hr₂ hr₁
  refine ⟨rfl, hruns.going, hruns.first, hruns.heeds, hruns.handled, hruns.role, hruns.idle,
    hruns.configured, .inr rfl, hstarted, hopened, ⟨taken, tail, got, ?_⟩, ?_⟩
  · exact hcarries.onto rfl (congrArg (·[x.pipe]?) hpipes)
  · intro hterm
    exact ⟨(hruns.told hterm).1, .inr rfl⟩

theorem Runs.channelled (h : x.Runs p r) {c : Channel ControlMessage}
    (hchannel : r.channel = some c) :
    ∃ taken tail got, x.Carries c.inbound taken tail got := by
  obtain ⟨taken, tail, got, hcarries⟩ := h.carries
  unfold inboundOf at hcarries
  rw [hchannel] at hcarries
  exact ⟨taken, tail, got, hcarries⟩

/-- Whatever the zygote receives is quit or the end of the channel. -/
theorem Carries.recv {inbound inbound' : Inbound ControlMessage} {taken : Nat} {tail : Bytes}
    {got : List ControlMessage} (h : x.Carries inbound taken tail got)
    {received : Except ChannelError ControlMessage}
    (hrecv : inbound.recv? = some (received, inbound')) :
    (received = .ok .quit ∨ received = .error .channelClosed) ∧
      ∃ got', x.Carries inbound' taken tail got' := by
  have hlink : (⟨x.line, taken, inbound⟩ : Link ControlMessage).recv? =
      some (received, ⟨x.line, taken, inbound'⟩) := by
    unfold Link.recv?
    rw [hrecv]
    rfl
  obtain ⟨m, rfl, hqueue, heq, hsound⟩ | ⟨e, rfl, heq, hqueue, hended, hterm⟩ :=
    h.link.recv hlink
  · have hmem : m ∈ x.line.sent :=
      (hsound.received controlMessage_readsBack).subset (by simp)
    refine ⟨.inl (by rw [h.sent m hmem]), _, hsound, h.sent, h.current, h.pipe⟩
  · cases heq
    obtain rfl := h.link.ended controlMessage_readsBack hended hterm
    exact ⟨.inr rfl, got, h⟩

/-- The zygote takes a signal that it has caught. -/
theorem sound_caught (h : x.Sound) (hact : x.acting? = some (p, r)) {c : Channel ControlMessage}
    (hchannel : r.channel = some c) {s : Signal}
    (hcatch : x.machine.catch? x.zygote = some (s, m)) :
    ({ x with machine := m.onEvent x.zygote r (.signal s) } : Discharge).Sound := by
  obtain ⟨hp, -, -, hruns⟩ := h.acting hact
  obtain ⟨taken, tail, got, hcarries⟩ := hruns.channelled hchannel
  obtain ⟨rest, -, rfl⟩ := Machine.catch?_eq_some hp hcatch
  obtain ⟨hself, hroot⟩ := proc?_change (f := fun p => { p with caught := rest }) hp (fun _ => rfl)
    h.apart
  exact h.take hact hchannel hcarries hself hroot rfl (.inr (.inl ⟨s, rfl⟩)) (by rw [← hchannel])

theorem sound_event (h : x.Sound) (hact : x.acting? = some (p, r)) {c : Channel ControlMessage}
    (hchannel : r.channel = some c) (hmove : x.machine.event? x.zygote r c = some m) :
    ({ x with machine := m } : Discharge).Sound := by
  obtain ⟨hp, -, -, hruns⟩ := h.acting hact
  obtain ⟨taken, tail, got, hcarries⟩ := hruns.channelled hchannel
  cases hrecv : c.inbound.recv? with
  | some result =>
    obtain ⟨received, inbound⟩ := result
    simp only [Machine.event?, hrecv, Option.some.injEq] at hmove
    subst hmove
    obtain ⟨hreceived, got', hcarries'⟩ := hcarries.recv hrecv
    refine h.take hact hchannel hcarries' hp rfl rfl ?_ rfl
    rcases hreceived with rfl | rfl
    · exact .inl rfl
    · exact .inr (.inr rfl)
  | none =>
    simp only [Machine.event?, hrecv] at hmove
    obtain ⟨⟨s, m₁⟩, hcatch, rfl⟩ := Option.map_eq_some_iff.mp hmove
    exact sound_caught h hact hchannel hcatch

/-! ## Its channel -/

/-- The zygote reads some of what is in the pipe. -/
theorem Carries.read {inbound : Inbound ControlMessage} {taken : Nat} {tail : Bytes}
    {got : List ControlMessage} (h : x.Carries inbound taken tail got) {q : Pipe}
    (hpipe : x.machine.pipes[x.pipe]? = some q) (hsome : q.size ≠ 0) (hwants : inbound.wants ≠ 0) :
    ∃ taken', ({ x with machine := x.machine.setPipe x.pipe (q.pull inbound.wants).2 } :
      Discharge).Carries (inbound.take (q.pull inbound.wants).1) taken' tail got := by
  obtain ⟨q', hq', hbytes⟩ := h.pipe
  rw [hpipe] at hq'
  cases hq'
  have hlength := q.length_bytes
  have hpull : (q.pull inbound.wants).1 = q.bytes.take inbound.wants := by
    simp [Pipe.pull, Pipe.forward_eq]
  have hrest : (q.pull inbound.wants).2.bytes = q.bytes.drop inbound.wants := by
    simp [Pipe.pull, Pipe.forward_eq, Pipe.bytes]
  obtain ⟨k, hk⟩ : ∃ k, k = min inbound.wants q.bytes.length := ⟨_, rfl⟩
  have hline : x.line.emitted.length = taken + q.bytes.length := by
    have htaken := h.link.taken
    simp only at htaken
    rw [hbytes, List.length_drop]
    omega
  have hread : (⟨x.line, taken, inbound⟩ : Link ControlMessage).read? k = some
      ⟨x.line, taken + k, inbound.take ((x.line.emitted.drop taken).take k)⟩ := by
    unfold Link.read?
    simp only
    rw [if_neg (by omega)]
  have hsound := h.link.read hread
  rw [← hbytes, show q.bytes.take k = q.bytes.take inbound.wants by
    rw [hk, List.take_eq_take_iff]; omega] at hsound
  refine ⟨taken + k, ?_, h.sent, h.current, (q.pull inbound.wants).2, ?_, ?_⟩
  · rw [hpull]
    exact hsound
  · have hless : x.pipe < x.machine.pipes.length := (List.getElem?_eq_some_iff.mp hpipe).1
    simp [Machine.setPipe, hless]
  · rw [hrest, hbytes, List.drop_drop]
    simp only [List.drop_eq_drop_iff]
    omega

/-- The receiver of the zygote goes on: it gets nothing but what the root has sent, and the end of
that. -/
theorem Carries.pump {c c' : Channel ControlMessage} {taken : Nat} {tail : Bytes}
    {got : List ControlMessage} (h : x.Carries c.inbound taken tail got)
    (hopened : ∀ n, c.reader = some n →
      (x.machine.fdsOf x.zygote).file? n = some (.readEnd x.pipe))
    (hpump : x.machine.pump? x.zygote c = some (c', m)) :
    ∃ m₁ gone taken', ({ x with machine := m₁ } : Discharge).Carries c'.inbound taken' tail got ∧
      m₁.procs = x.machine.procs ∧ m = m₁.closeFds x.zygote gone ∧
      (c'.reader = none ∨ (c'.reader = c.reader ∧ gone = [])) := by
  cases hdeliver : c.inbound.deliver? with
  | some inbound =>
    simp only [Machine.pump?, hdeliver, Option.some.injEq, Prod.mk.injEq] at hpump
    obtain ⟨rfl, rfl⟩ := hpump
    have hlink : (⟨x.line, taken, c.inbound⟩ : Link ControlMessage).deliver? =
        some ⟨x.line, taken, inbound⟩ := by
      unfold Link.deliver?
      rw [hdeliver]
      rfl
    exact ⟨x.machine, [], taken, ⟨h.link.deliver hlink, h.sent, h.current, h.pipe⟩, rfl,
      (Machine.closeFds_nil _ _).symm, .inr ⟨rfl, rfl⟩⟩
  | none =>
    cases hreader : c.reader with
    | none =>
      cases hwants : c.inbound.wants <;> simp [Machine.pump?, hdeliver, hreader, hwants] at hpump
    | some fd =>
      cases hwants : c.inbound.wants with
      | zero => simp [Machine.pump?, hdeliver, hreader, hwants] at hpump
      | succ k =>
        obtain ⟨q, hpipe, hbytes⟩ := h.pipe
        have hread := Machine.read_of_file (n := k + 1) (hopened fd hreader) hpipe
        by_cases hempty : q.size = 0
        · -- Nothing is in the pipe: it is the end, or there is nothing to read yet.
          rw [if_pos hempty] at hread
          by_cases hheld : x.machine.isHeld (.writeEnd x.pipe) = true
          · rw [if_pos hheld] at hread
            simp [Machine.pump?, hdeliver, hreader, hwants, hread] at hpump
          · rw [if_neg hheld] at hread
            simp only [Machine.pump?, hdeliver, hreader, hwants, hread, Option.some.injEq] at hpump
            obtain ⟨hinbound, gone, hm, hreads⟩ := Machine.settleReader_cases hpump
            have hlose : (⟨x.line, taken, c.inbound⟩ : Link ControlMessage).lose? .channelClosed =
                some ⟨x.line, taken, c.inbound.fail .channelClosed⟩ := by
              unfold Link.lose?
              rw [if_neg (by simp [hwants])]
            refine ⟨x.machine, gone, taken, ?_, rfl, hm, hreader ▸ hreads⟩
            rw [hinbound]
            exact ⟨h.link.lose rfl hlose, h.sent, h.current, h.pipe⟩
        · rw [if_neg hempty] at hread
          simp only [Machine.pump?, hdeliver, hreader, hwants, hread, Option.some.injEq] at hpump
          obtain ⟨hinbound, gone, hm, hreads⟩ := Machine.settleReader_cases hpump
          obtain ⟨taken', hcarries⟩ := h.read hpipe hempty (by simp [hwants])
          rw [hwants] at hcarries
          refine ⟨x.machine.setPipe x.pipe (q.pull (k + 1)).2, gone, taken', ?_, rfl, hm,
            hreader ▸ hreads⟩
          rw [hinbound]
          exact hcarries

theorem sound_listen (h : x.Sound) (hact : x.acting? = some (p, r)) {c : Channel ControlMessage}
    (hchannel : r.channel = some c)
    (hmove : x.machine.backgroundMove? x.zygote r c = some m) :
    ({ x with machine := m } : Discharge).Sound := by
  obtain ⟨hp, halive, hrecord, hruns⟩ := h.acting hact
  obtain ⟨taken, tail, got, hcarries⟩ := hruns.channelled hchannel
  have hstarted := hruns.started
  have hopened := hruns.opened
  unfold Opened at hopened
  rw [hchannel] at hstarted hopened
  rw [Machine.backgroundMove?_of_idle hruns.idle.1] at hmove
  obtain ⟨⟨c', m'⟩, hpump, rfl⟩ := Option.map_eq_some_iff.mp hmove
  simp only
  obtain ⟨m₁, gone, taken', hcarries', hprocs, rfl, hreader⟩ :=
    hcarries.pump (by rw [Machine.fdsOf_eq hp]; exact hopened) hpump
  have hproc (k : Nat) : m₁.proc? k = x.machine.proc? k := by
    unfold Machine.proc?
    rw [hprocs]
  obtain ⟨r', hr'⟩ : ∃ r', r' = { r with channel := some c' } := ⟨_, rfl⟩
  obtain ⟨hself, hroot⟩ := proc?_change (x := { x with machine := m₁ })
    (f := fun p => { p with fds := gone.foldl FdTable.close p.fds }) ((hproc x.zygote).trans hp)
    (fun _ => rfl) h.apart
  obtain ⟨hself', hroot'⟩ := proc?_change (x := { x with machine := m₁.closeFds x.zygote gone })
    (f := fun p => { p with program := .role r' }) hself (fun _ => rfl) h.apart
  rw [← hr']
  refine h.goOn hrecord r' hself' halive (hroot'.trans (hroot.trans (hproc x.root))) ?_
  subst hr'
  refine ⟨rfl, hruns.going, hruns.first, hruns.heeds, hruns.handled, hruns.role, hruns.idle,
    hruns.configured, hruns.stage, hstarted, ?_, ⟨taken', tail, got, ?_⟩, hruns.told⟩
  · intro n hn
    rcases hreader with hnone | ⟨hsame, rfl⟩
    · rw [hnone] at hn
      cases hn
    · rw [hsame] at hn
      exact hopened n hn
  · exact hcarries'.onto rfl rfl

/-! ## All its moves -/

theorem sound_goOn (h : x.Sound) (hact : x.acting? = some (p, r))
    (hmove : x.machine.roleMove? p r = some m) : ({ x with machine := m } : Discharge).Sound := by
  obtain ⟨hp, halive, hrecord, hruns⟩ := h.acting hact
  obtain ⟨config, hconfig⟩ := hruns.configured
  have hcases := Machine.roleMove?_cases hconfig hruns.stage hmove
  rw [Machine.pid_of_proc? hp] at hcases
  rcases hcases with ⟨-, rfl⟩ | ⟨-, ⟨hnone, rfl⟩ | ⟨c, hchannel, hevent | hbackground⟩⟩
  · exact h.end hrecord hp halive rfl
  · exact sound_startMove h hact hnone
  · exact sound_event h hact hchannel hevent
  · exact sound_listen h hact hchannel hbackground

theorem sound_notice (h : x.Sound) (hact : x.acting? = some (p, r))
    (hmove : x.notice? r = some m) : ({ x with machine := m } : Discharge).Sound := by
  unfold notice? at hmove
  split at hmove
  · rename_i c _ hchannel
    obtain ⟨⟨s, m₁⟩, hcatch, rfl⟩ := Option.map_eq_some_iff.mp hmove
    exact sound_caught h hact hchannel hcatch
  · cases hmove

end ProcessTree.Discharge
