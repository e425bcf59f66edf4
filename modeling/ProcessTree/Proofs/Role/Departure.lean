-- What the root does to a zygote: its calls, quit on the line, and the signals. Together with the
-- zygote's own moves they leave the zygote in good order, wherever each of them meets it.
import Mathlib.Logic.Relation
import ProcessTree.Proofs.Role.ZygoteMoves

namespace ProcessTree

/-! ## The calls of a handle -/

namespace HandleLife

variable {x x' : HandleLife} {call : Nat} {run : CloseRun}

/-- A close only gives up what it has. -/
theorem isConnected_answer {c : Closing} {a : CloseAnswer} (h : (c.answer a).isConnected = true) :
    c.isConnected = true := by
  cases c with
  | quitting | disconnecting => rfl
  | checking =>
    cases a with
    | record r => cases r <;> exact h
    | _ => exact h
  | waiting =>
    cases a with
    | waited result =>
      cases result with
      | ok state => exact h
      | error e => cases e <;> exact h
    | _ => exact h
  | terminating | killing | reaping | finished _ => cases a <;> exact h

theorem settle_eq (x : HandleLife) (call : Nat) (run : CloseRun) (deed : Deed) :
    ∃ new now, x.settle call run deed = { x with now, deeds := x.deeds ++ new } ∧
      (now = none ∨ now = some (call, .close run)) := by
  cases hclosing : run.closing with
  | finished result =>
    refine ⟨[deed] ++ [.returned call result], none, ?_, .inl rfl⟩
    simp only [settle, hclosing, List.append_assoc]
  | _ => exact ⟨[deed], _, by simp only [settle, hclosing], .inr rfl⟩

/-- What a call leaves as it is, and what only grows or is only given up. -/
structure Calls (x x' : HandleLife) : Prop where
  record : x'.record = x.record
  dropped : x'.dropped = x.dropped
  deeds : x.deeds <+: x'.deeds
  connected : x'.isConnected = true → x.isConnected = true

theorem calls_reply {reply : Reply} (hmove : x.next? (.reply reply) = some x') : x.Calls x' := by
  cases hnow : x.now with
  | none => cases reply <;> simp [next?, hnow] at hmove
  | some now =>
    obtain ⟨call, doing⟩ := now
    cases doing with
    | close run =>
      simp only [next?, hnow] at hmove
      obtain ⟨⟨answer, deed⟩, -, rfl⟩ := Option.map_eq_some_iff.mp hmove
      obtain ⟨new, now, heq, hdoing⟩ := settle_eq x call (run.answer answer x.clock) deed
      rw [heq]
      refine ⟨rfl, rfl, List.prefix_append _ _, ?_⟩
      rcases hdoing with rfl | rfl
      · intro h
        simp only [isConnected, closing?, Option.any_none, Bool.or_false] at h
        simp [isConnected, h]
      · intro h
        simp only [isConnected, closing?, hnow, Option.any_some, Bool.or_eq_true] at h ⊢
        exact h.imp_right isConnected_answer
    | wait limit =>
      cases reply with
      | own =>
        simp only [next?, hnow] at hmove
        obtain ⟨result, -, rfl⟩ := Option.map_eq_some_iff.mp hmove
        refine ⟨rfl, rfl, ?_, ?_⟩
        · rw [List.append_assoc]
          exact List.prefix_append _ _
        · intro h
          simp only [isConnected, closing?, Option.any_none, Bool.or_false] at h
          simp [isConnected, h]
      | _ => simp [next?, hnow] at hmove

theorem calls_next {move : Move} (hcall : Discharge.isCall move = true)
    (hmove : x.next? move = some x') : x.Calls x' := by
  cases move with
  | begin asked =>
    obtain ⟨hguard, heq⟩ := Option.ite_none_right_eq_some.mp hmove
    cases heq
    obtain ⟨hidle, -⟩ := idle_of_guard hguard
    cases asked with
    | wait deadline =>
      refine ⟨rfl, rfl, List.prefix_append _ _, fun h => ?_⟩
      simp only [isConnected, closing?, begun, Option.any_none, Bool.or_false] at h
      simp [isConnected, h]
    | close deadline =>
      refine ⟨rfl, rfl, List.prefix_append _ _, fun h => ?_⟩
      cases hheld : x.holdsChannel with
      | true => simp [isConnected, hheld]
      | false =>
        simp [isConnected, closing?, begun, CloseRun.start, Closing.start, hheld,
          Closing.isConnected] at h
  | reply reply => exact calls_reply hmove
  | leave =>
    obtain ⟨now, hnow, rfl⟩ := Option.map_eq_some_iff.mp hmove
    refine ⟨rfl, rfl, List.prefix_refl _, fun h => ?_⟩
    simp only [isConnected, closing?, Option.any_none, Bool.or_false] at h
    simp [isConnected, h]
  | _ => cases hcall

theorem isConnected_of_sending (h : x.isSending = true) : x.isConnected = true := by
  unfold isSending at h
  cases hclosing : x.closing? with
  | none =>
    rw [hclosing] at h
    cases h
  | some closing =>
    rw [hclosing] at h
    cases closing with
    | quitting => simp [isConnected, hclosing, Closing.isConnected]
    | _ => cases h

end HandleLife

namespace Discharge

open HandleLife (effect)

variable {x x' : Discharge} {p : Proc} {r : RoleRun} {m : Machine}

/-! ## Signals -/

/-- SIGKILL is sent for one reason. -/
theorem killedLate_of_mem (h : x.handle.Sound) {call clock : Nat}
    (hmem : .signalled call .kill none clock ∈ x.handle.deeds) : KilledLate x.handle.deeds := by
  obtain ⟨before, after, hsplit⟩ := List.append_of_mem hmem
  obtain ⟨hlate, -⟩ := (h.orderly.follows hsplit).cause
  exact ⟨before, after, call, clock, hsplit, hlate⟩

/-- Whatever a deed does but send a signal, the zygote does not notice. -/
theorem meet_of_quiet {deed : Deed} (h : x.Sound) (hmem : deed ∈ x.handle.deeds)
    (hquiet : ∀ call s clock, deed ≠ .signalled call s none clock) : x.meet deed = x := by
  cases deed with
  | signalled call s failure clock =>
    cases failure with
    | none => exact absurd rfl (hquiet call s clock)
    | some e => simp [meet, effect]
  | dropped record sent => exact absurd hmem (h.handle.alive h.kept record sent)
  | _ => simp [meet, effect]

/-- The zygote is ended by a signal, for a good reason. -/
theorem sound_ended (h : x.Sound) (hrecord : x.handle.record = none)
    (hp : x.machine.proc? x.zygote = some p) (halive : p.life = .alive) (s : Signal)
    (met : List (Signal × StartUp))
    (hgraceful : ({ x with met } : Discharge).Graceful (.signaled s)) :
    ({ x with met, machine := x.machine.endProc x.zygote (.signaled s) } : Discharge).Sound := by
  refine ⟨h.handle, h.kept, h.apart, ?_, _, Machine.proc?_endProc hp halive, hrecord, hgraceful⟩
  intro hconnected d hd
  exact h.sends hconnected d ((Machine.loses_endProc _ _ _).get?_fdsOf hd)

/-- SIGTERM is caught once the handlers are installed, and ends the zygote before. -/
theorem sound_term (h : x.Sound) (hrecord : x.handle.record = none)
    (hp : x.machine.proc? x.zygote = some p) (halive : p.life = .alive) (hruns : x.Runs p r) :
    ({ x with
      met := x.met ++ [(.term, r.startUp)]
      machine := x.machine.signal x.zygote .term } : Discharge).Sound := by
  rw [Machine.signal_term hp halive hruns.going hruns.heeds hruns.first, hruns.handled]
  cases harmed : r.startUp.isArmed with
  | false =>
    rw [if_neg Bool.false_ne_true, if_neg List.not_mem_nil]
    exact sound_ended h hrecord hp halive .term _ ⟨r.startUp, by simp, harmed⟩
  | true =>
    rw [if_pos rfl, if_pos (by decide)]
    obtain ⟨hself, hroot⟩ := proc?_change (f := fun p => { p with caught := p.caught ++ [.term] })
      hp (fun _ => rfl) h.apart
    refine ⟨h.handle, h.kept, h.apart, ?_, _, hself, ?_⟩
    · intro hconnected d hd
      refine h.sends hconnected d ?_
      unfold Machine.fdsOf at hd ⊢
      rw [← hroot]
      exact hd
    · unfold Stands
      rw [show Proc.life _ = Life.alive from halive]
      obtain ⟨taken, tail, got, hcarries⟩ := hruns.carries
      refine ⟨hrecord, r, hruns.program, hruns.going, hruns.first, hruns.heeds, hruns.handled,
        hruns.role, hruns.idle, hruns.configured, hruns.stage, hruns.started, hruns.opened,
        ⟨taken, tail, got, hcarries.onto rfl rfl⟩, fun _ => ⟨harmed, .inl ?_⟩⟩
      simp

theorem sound_meet (h : x.Sound) {deed : Deed} (hmem : deed ∈ x.handle.deeds) :
    (x.meet deed).Sound := by
  by_cases hquiet : ∀ call s clock, deed ≠ .signalled call s none clock
  · rw [meet_of_quiet h hmem hquiet]
    exact h
  · simp only [not_forall, not_not] at hquiet
    obtain ⟨call, s, clock, rfl⟩ := hquiet
    obtain ⟨p, hp, hstands⟩ := h.stands
    by_cases halive : p.life = .alive
    · have hstands' := hstands
      unfold Stands at hstands'
      rw [halive] at hstands'
      obtain ⟨hrecord, r, hruns⟩ := hstands'
      have hrole : x.machine.roleOf? x.zygote = some r := by
        unfold Machine.roleOf?
        rw [hp]
        simp only [Option.bind_some, hruns.program]
      unfold meet
      simp only [hrole]
      obtain ⟨before, after, hsplit⟩ := List.append_of_mem hmem
      have hcause := (h.handle.orderly.follows hsplit).cause
      cases s with
      | term => exact sound_term h hrecord hp halive hruns
      | kill =>
        have hkill : effect x.machine x.zygote (.signalled call .kill none clock) =
            x.machine.endProc x.zygote (.signaled .kill) := Machine.signal_kill hp halive
        rw [hkill]
        exact sound_ended h hrecord hp halive .kill _ (killedLate_of_mem h.handle hmem)
      | _ => exact absurd hcause id
    · have hsame : effect x.machine x.zygote (.signalled call s none clock) = x.machine :=
        Machine.signal_of_over hp halive s
      unfold meet
      rw [hsame]
      refine ⟨h.handle, h.kept, h.apart, h.sends, p, hp, ?_⟩
      exact hstands.onto rfl (List.subset_append_left _ _) (List.prefix_refl _)
        fun halive' => absurd halive' halive

theorem sound_meets (deeds : List Deed) (h : x.Sound) (hmem : ∀ d ∈ deeds, d ∈ x.handle.deeds) :
    (deeds.foldl meet x).Sound := by
  induction deeds generalizing x with
  | nil => exact h
  | cons d deeds ih =>
    exact ih (sound_meet h (hmem d List.mem_cons_self))
      fun d' hd' => hmem d' (List.mem_cons_of_mem _ hd')

/-! ## Calls -/

theorem Sound.onHandle (h : x.Sound) {handle : HandleLife} (hhandle : handle.Sound)
    (hcalls : x.handle.Calls handle) : ({ x with handle } : Discharge).Sound := by
  obtain ⟨p, hp, hstands⟩ := h.stands
  refine ⟨hhandle, hcalls.dropped.trans h.kept, h.apart,
    fun hconnected => h.sends (hcalls.connected hconnected), p, hp, ?_⟩
  exact hstands.onto hcalls.record (List.Subset.refl _) hcalls.deeds
    fun _ r hruns => ⟨r, hruns.onto rfl rfl rfl rfl⟩

/-- The line of the root goes on, and the pipe with it. -/
theorem Runs.onLine (h : x.Runs p r) (line : Line ControlMessage) (m : Machine)
    (hcarries : ∀ taken tail got, x.Carries (inboundOf r) taken tail got →
      ∃ tail', ({ x with line, machine := m } : Discharge).Carries (inboundOf r) taken tail' got) :
    ({ x with line, machine := m } : Discharge).Runs p r := by
  obtain ⟨taken, tail, got, hold⟩ := h.carries
  obtain ⟨tail', hnew⟩ := hcarries taken tail got hold
  exact ⟨h.program, h.going, h.first, h.heeds, h.handled, h.role, h.idle, h.configured, h.stage,
    h.started, h.opened, ⟨taken, tail', got, hnew⟩, h.told⟩

/-- A root that lets go of its ends leaves what it has sent where it is. -/
theorem Sound.disconnect (h : x.Sound) {handle : HandleLife} (hhandle : handle.Sound)
    (hcalls : x.handle.Calls handle) (hgone : handle.isConnected = false) :
    ({ x.disconnect with handle } : Discharge).Sound := by
  obtain ⟨p, hp, hstands⟩ := h.stands
  refine ⟨hhandle, hcalls.dropped.trans h.kept, h.apart, ?_, p, ?_, ?_⟩
  · intro hconnected
    rw [hgone] at hconnected
    cases hconnected
  · exact (Machine.proc?_modifyFds_ne h.apart.symm).trans hp
  · refine hstands.onto hcalls.record (List.Subset.refl _) hcalls.deeds fun _ r hruns => ⟨r, ?_⟩
    have hline := hruns.onLine { x.line.abandon with outbound := x.line.outbound.close }
      (x.machine.closeFds x.root [x.ends.send, x.ends.receive]) ?_
    · exact hline.onto rfl rfl rfl rfl
    · intro taken tail got hcarries
      have habandoned := hcarries.link.line.abandon.onOutbound rfl
        (o := x.line.outbound.close) rfl
      exact ⟨tail, hcarries.link.onLine habandoned (List.prefix_refl _), hcarries.sent,
        fun m s hm => absurd hm (by simp [Line.abandon]), hcarries.pipe⟩

theorem sound_call (h : x.Sound) {move : HandleLife.Move} (hmove : x.call? move = some x') :
    x'.Sound := by
  obtain ⟨hcall, hmove⟩ := Option.ite_none_right_eq_some.mp hmove
  obtain ⟨handle, hnext, rfl⟩ := Option.map_eq_some_iff.mp hmove
  have hcalls := HandleLife.calls_next hcall hnext
  have hhandle := HandleLife.sound_next h.handle hnext
  simp only
  have hnew : ∀ d ∈ handle.deeds.drop x.handle.deeds.length, d ∈ handle.deeds :=
    fun d hd => List.mem_of_mem_drop hd
  split
  · rename_i hshut
    rw [Bool.and_eq_true, Bool.not_eq_true'] at hshut
    exact sound_meets _ (h.disconnect hhandle hcalls hshut.2) hnew
  · exact sound_meets _ (h.onHandle hhandle hcalls) hnew

/-! ## Sending quit -/

theorem sound_line (h : x.Sound) (line : Line ControlMessage)
    (hcarries : ∀ inbound taken tail got, x.Carries inbound taken tail got →
      ∃ tail', ({ x with line } : Discharge).Carries inbound taken tail' got) :
    ({ x with line } : Discharge).Sound := by
  obtain ⟨p, hp, hstands⟩ := h.stands
  refine ⟨h.handle, h.kept, h.apart, h.sends, p, hp, ?_⟩
  exact hstands.onto rfl (List.Subset.refl _) (List.prefix_refl _)
    fun _ r hruns => ⟨r, hruns.onLine line x.machine (hcarries (inboundOf r))⟩

/-- Nothing is on the line when quit is sent, so nothing stands before it. -/
theorem sound_send (h : x.Sound) (hmove : x.send? = some x') : x'.Sound := by
  obtain ⟨hguard, hmove⟩ := Option.ite_none_right_eq_some.mp hmove
  obtain ⟨⟨answer, line⟩, hsend, rfl⟩ := Option.map_eq_some_iff.mp hmove
  rw [Bool.and_eq_true, List.isEmpty_iff] at hguard
  refine sound_line h line fun inbound taken tail got hcarries => ?_
  rcases Line.send?_eq_some hsend with ⟨e, -, rfl, -⟩ | ⟨-, hfree, hopen, s, hframe, rfl⟩
  · exact ⟨tail, hcarries⟩
  · have htail : tail = [] := by
      have hemitted := hcarries.link.line.emitted
      rw [show Line.emitted _ = [] from hguard.2] at hemitted
      exact (List.append_eq_nil_iff.mp hemitted.symm).2
    subst htail
    have hline := hcarries.link.line.send hopen hframe
    refine ⟨[], hcarries.link.onLine hline (List.prefix_refl _), hcarries.sent, ?_, hcarries.pipe⟩
    intro m s' hm
    cases hm
    rfl

/-- What a write call does where there is the write end of a pipe, or nothing. -/
theorem write_cases {pid fd pipe : Nat} {offered : Bytes} {call : Machine.WriteCall}
    {m m' : Machine} (hfile : ∀ d, (m.fdsOf pid).get? fd = some d → d.file = .writeEnd pipe)
    (h : m.write pid fd offered = (call, m')) :
    (m' = m ∧ ∀ n, call = .took n → n = 0) ∨
      ∃ n, call = .took n ∧ n ≤ offered.length ∧
        m' = m.setPipe pipe ((m.pipeAt pipe).push (offered.take n)) := by
  cases hget : (m.fdsOf pid).get? fd with
  | none =>
    simp only [Machine.write, hget, Prod.mk.injEq] at h
    obtain ⟨rfl, rfl⟩ := h
    exact .inl ⟨rfl, by simp⟩
  | some d =>
    obtain ⟨file, b⟩ := d
    obtain rfl : file = .writeEnd pipe := hfile _ hget
    by_cases hempty : offered.isEmpty = true
    · simp only [Machine.write, hget, hempty, if_true, Prod.mk.injEq] at h
      obtain ⟨rfl, rfl⟩ := h
      exact .inl ⟨rfl, fun n hn => by cases hn; rfl⟩
    by_cases hheld : m.isHeld (.readEnd pipe) = true
    · have hle : (m.pipeAt pipe).accepts offered.length ≤ offered.length := by
        unfold Pipe.accepts
        simp only
        split
        · exact Nat.zero_le _
        · exact Nat.min_le_right _ _
      cases htakes : (m.pipeAt pipe).accepts offered.length with
      | zero =>
        have hwaits : m.write pid fd offered = (.waits, m) := by
          simp [Machine.write, hget, hempty, hheld, htakes]
        rw [hwaits] at h
        cases h
        exact .inl ⟨rfl, by simp⟩
      | succ n =>
        have htook : m.write pid fd offered = (.took (n + 1),
            m.setPipe pipe ((m.pipeAt pipe).push (offered.take (n + 1)))) := by
          simp [Machine.write, hget, hempty, hheld, htakes]
        rw [htook] at h
        cases h
        exact .inr ⟨n + 1, rfl, by omega, rfl⟩
    · have hfailed : m.write pid fd offered = (.failed .brokenPipe, m) := by
        simp [Machine.write, hget, hempty, hheld]
      rw [hfailed] at h
      cases h
      exact .inl ⟨rfl, by simp⟩

/-- After a write call of a send there is nothing on the line but that message and what was there
before. -/
theorem wrote {l l' : Line ControlMessage} {registry : Registry} {tail : Bytes}
    {m : ControlMessage} {s : Sending} {outcome : WriteOutcome}
    {answer : Option (Except ChannelError Unit)} (h : l.Sound registry tail)
    (hm : l.current = some (m, s)) (hwrite : l.write? outcome = some (answer, l')) :
    (∃ tail', l'.Sound registry tail') ∧ (∀ m' ∈ l'.sent, m' ∈ l.sent ∨ m' = m) ∧
      ∀ m' s', l'.current = some (m', s') → m' = m := by
  cases h.write hm hwrite with
  | part _ _ hsent hcurrent hsound =>
    refine ⟨⟨_, hsound⟩, fun m' hm' => .inl (hsent ▸ hm'), fun m' s' hm' => ?_⟩
    rw [hcurrent] at hm'
    cases hm'
    rfl
  | whole _ _ hsent hcurrent hsound =>
    refine ⟨⟨_, hsound⟩, fun m' hm' => ?_, Line.forall_current_of_free hcurrent⟩
    rw [hsent, List.mem_append, List.mem_singleton] at hm'
    exact hm'
  | failed _ _ hsent hcurrent hsound =>
    exact ⟨⟨_, hsound⟩, fun m' hm' => .inl (hsent ▸ hm'), Line.forall_current_of_free hcurrent⟩

/-- What the root writes is what the zygote will read. -/
theorem Carries.write {inbound : Inbound ControlMessage} {taken : Nat} {tail : Bytes}
    {got : List ControlMessage} (h : x.Carries inbound taken tail got) {c : ControlMessage}
    {s : Sending} (hcurrent : x.line.current = some (c, s)) {outcome : WriteOutcome}
    {answer : Option (Except ChannelError Unit)} {line : Line ControlMessage}
    (hwrite : x.line.write? outcome = some (answer, line))
    (hpipe : ∀ q, x.machine.pipes[x.pipe]? = some q → ∃ q', m.pipes[x.pipe]? = some q' ∧
      q'.bytes = q.bytes ++ s.offer.take outcome.taken) :
    ∃ tail', ({ x with line, machine := m } : Discharge).Carries inbound taken tail' got := by
  obtain ⟨⟨tail', hline⟩, hsent, hcurrent'⟩ := wrote h.link.line hcurrent hwrite
  have hemitted := Line.write?_emitted hcurrent hwrite
  obtain rfl := h.current c s hcurrent
  refine ⟨tail', h.link.onLine hline (hemitted ▸ List.prefix_append _ _), ?_, hcurrent', ?_⟩
  · intro m' hm'
    exact (hsent m' hm').elim (h.sent m') id
  · obtain ⟨q, hq, hbytes⟩ := h.pipe
    obtain ⟨q', hq', hbytes'⟩ := hpipe q hq
    refine ⟨q', hq', ?_⟩
    have htaken : taken ≤ x.line.emitted.length := h.link.taken
    rw [hbytes', hbytes, hemitted, List.drop_append_of_le_length htaken]

theorem sound_write (h : x.Sound) (hmove : x.write? = some x') : x'.Sound := by
  obtain ⟨hsending, hmove⟩ := Option.ite_none_right_eq_some.mp hmove
  obtain ⟨⟨c, s⟩, hcurrent, hmove⟩ := Option.bind_eq_some_iff.mp hmove
  rcases hcall : x.machine.write x.root x.ends.send s.offer with ⟨call, m⟩
  simp only [hcall] at hmove
  obtain ⟨outcome, houtcome, hmove⟩ := Option.bind_eq_some_iff.mp hmove
  obtain ⟨⟨answer, line⟩, hwrite, rfl⟩ := Option.map_eq_some_iff.mp hmove
  have hsends := h.sends (HandleLife.isConnected_of_sending hsending)
  have hprocs : m.procs = x.machine.procs ∧ ∀ q, x.machine.pipes[x.pipe]? = some q →
      ∃ q', m.pipes[x.pipe]? = some q' ∧ q'.bytes = q.bytes ++ s.offer.take outcome.taken := by
    rcases write_cases hsends hcall with ⟨rfl, hzero⟩ | ⟨n, rfl, -, rfl⟩
    · have htaken : outcome.taken = 0 := by
        cases call with
        | took n =>
          cases houtcome
          exact hzero n rfl
        | failed errno =>
          cases houtcome
          rfl
        | waits => cases houtcome
      exact ⟨rfl, fun q hq => ⟨q, hq, by simp [htaken]⟩⟩
    · cases houtcome
      refine ⟨rfl, fun q hq => ⟨q.push (s.offer.take n), ?_, q.bytes_push _⟩⟩
      have hat : x.machine.pipeAt x.pipe = q := by
        unfold Machine.pipeAt
        rw [hq]
        rfl
      rw [hat]
      exact List.getElem?_set_self (List.getElem?_eq_some_iff.mp hq).1
  obtain ⟨hprocs, hpipe⟩ := hprocs
  have hproc (k : Nat) : m.proc? k = x.machine.proc? k := by
    unfold Machine.proc?
    rw [hprocs]
  obtain ⟨p, hp, hstands⟩ := h.stands
  refine ⟨h.handle, h.kept, h.apart, ?_, p, (hproc x.zygote).trans hp, ?_⟩
  · intro _ d hd
    refine hsends d ?_
    unfold Machine.fdsOf at hd ⊢
    rw [← hproc]
    exact hd
  · exact hstands.onto rfl (List.Subset.refl _) (List.prefix_refl _) fun _ r hruns =>
      ⟨r, hruns.onLine line m fun taken tail got hcarries =>
        hcarries.write hcurrent hwrite hpipe⟩

/-! ## All moves -/

/-- The end of the zygote is written down as it was. -/
theorem sound_record (h : x.Sound) (hmove : x.record? = some x') : x'.Sound := by
  obtain ⟨hnone, hmove⟩ := Option.ite_none_right_eq_some.mp hmove
  obtain ⟨⟨outcome, m⟩, hreap, rfl⟩ := Option.map_eq_some_iff.mp hmove
  obtain ⟨p, hp, hstands⟩ := h.stands
  unfold Stands at hstands
  cases hlife : p.life with
  | alive =>
    rw [Machine.reap?_of_alive hp hlife] at hreap
    cases hreap
  | reaped =>
    rw [hlife] at hstands
    obtain ⟨state, hstate, -⟩ := hstands
    rw [hstate] at hnone
    cases hnone
  | ended state =>
    rw [hlife] at hstands
    rw [Machine.reap?_of_ended hp hlife] at hreap
    cases hreap
    obtain ⟨hself, hroot⟩ := proc?_change (f := fun p => { p with life := .reaped }) hp
      (fun _ => rfl) h.apart
    refine ⟨HandleLife.sound_record h.handle _, h.kept, h.apart, ?_, _, hself, state, ?_, ?_⟩
    · intro hconnected d hd
      refine h.sends hconnected d ?_
      unfold Machine.fdsOf at hd ⊢
      rw [← hroot]
      exact hd
    · rw [hstands.1]
      rfl
    · exact hstands.2.mono (List.Subset.refl _) (List.prefix_refl _)

theorem sound_next (h : x.Sound) {move : Move} (hmove : x.next? move = some x') : x'.Sound := by
  cases move with
  | goOn =>
    obtain ⟨⟨p, r⟩, hact, hmove⟩ := Option.bind_eq_some_iff.mp hmove
    obtain ⟨m, hgoes, rfl⟩ := Option.map_eq_some_iff.mp hmove
    exact sound_goOn h hact hgoes
  | listen =>
    obtain ⟨⟨p, r⟩, hact, hmove⟩ := Option.bind_eq_some_iff.mp hmove
    obtain ⟨c, hchannel, hmove⟩ := Option.bind_eq_some_iff.mp hmove
    obtain ⟨m, hreads, rfl⟩ := Option.map_eq_some_iff.mp hmove
    exact sound_listen h hact hchannel hreads
  | notice =>
    obtain ⟨⟨p, r⟩, hact, hmove⟩ := Option.bind_eq_some_iff.mp hmove
    obtain ⟨m, hnotices, rfl⟩ := Option.map_eq_some_iff.mp hmove
    exact sound_notice h hact hnotices
  | pass time =>
    cases hmove
    obtain ⟨p, hp, hstands⟩ := h.stands
    have hhandle := HandleLife.sound_next h.handle
      (show x.handle.next? (.pass time) = some _ from rfl)
    refine ⟨hhandle, h.kept, h.apart, h.sends, p, hp, ?_⟩
    exact hstands.onto rfl (List.Subset.refl _) (List.prefix_refl _)
      fun _ r hruns => ⟨r, hruns.onto rfl rfl rfl rfl⟩
  | record => exact sound_record h hmove
  | call move => exact sound_call h hmove
  | send => exact sound_send h hmove
  | write => exact sound_write h hmove

theorem sound_others (h : x.Sound) (hothers : x.Undisturbed m) :
    ({ x with machine := m } : Discharge).Sound := by
  obtain ⟨p, hp, hstands⟩ := h.stands
  refine ⟨h.handle, h.kept, h.apart,
    fun hconnected d hd => h.sends hconnected d (hothers.root d hd), p, hothers.zygote.trans hp, ?_⟩
  exact hstands.onto rfl (List.Subset.refl _) (List.prefix_refl _)
    fun _ r hruns => ⟨r, hruns.onto rfl rfl hothers.pipe rfl⟩

theorem sound_step (h : x.Sound) (hstep : Step x x') : x'.Sound := by
  cases hstep with
  | move hmove => exact sound_next h hmove
  | others hothers => exact sound_others h hothers

/-- By induction on the steps of the run. -/
theorem sound_run (h : x.Sound) (hrun : Relation.ReflTransGen Step x x') : x'.Sound := by
  induction hrun with
  | refl => exact h
  | tail _ hstep ih => exact sound_step ih hstep

end Discharge

end ProcessTree
