-- A child with its one monitor and everyone who waits for it or closes it, in
-- any order and on a machine that does what it likes in between. The record of
-- its end is written once, and all who are told an end are told that one.
import ProcessTree.Machine.Close
import ProcessTree.Process.Monitor
import ProcessTree.Proofs.Bytes

namespace ProcessTree

open ProcessTree.ExitRecord

/-! ## Moves -/

/-- What a call returned, and what it saw when it did. -/
structure Told where
  /-- When it would have given up waiting. -/
  limit : Option Nat
  clock : Nat
  record : ExitRecord
  result : Except ProcessError ExitState

/-- A close under way. -/
structure CloseCall where
  run : CloseRun
  /-- Whether the record was there when it began. -/
  late : Bool
  /-- The signals that it has sent. -/
  sent : List Signal

/-- A child with all who have to do with its end. -/
structure Supervision where
  machine : Machine
  handle : Handle
  holdsChannel : Bool
  monitor : Monitor
  /-- What was written into the record. -/
  written : List (Except Errno ExitState)
  /-- The deadlines of those who wait. -/
  waits : List (Option Nat)
  closes : List CloseCall
  /-- What the waits returned. -/
  waited : List Told
  /-- The closes that are over, and what they returned. -/
  closed : List (CloseCall × Told)

namespace Supervision

inductive Move where
  /-- Time passes on the machine, and processes do something. -/
  | pass (machine : Machine)
  | observe (answer : MonitorAnswer)
  /-- The monitor writes down what it has observed. -/
  | record
  | wait (deadline : Option Nat)
  | poll (i : Nat)
  /-- A wait is given up by its caller. -/
  | leave (i : Nat)
  | close (deadline : Option Nat)
  | step (i : Nat)
  /-- The signal that a close asks for cannot be sent. -/
  | refuse (i : Nat) (errno : Errno)
  | drop (i : Nat)

/-- A child that was just made. -/
def start (machine : Machine) (role : Role) (pid : Nat) (killGrace : Duration)
    (holdsChannel : Bool) : Supervision where
  machine := machine
  handle := ⟨role, pid, none, killGrace⟩
  holdsChannel := holdsChannel
  monitor := .registering
  written := []
  waits := []
  closes := []
  waited := []
  closed := []

/-- When the close gives up what it waits for. -/
def limitOf (x : Supervision) (c : CloseCall) : Option Nat :=
  c.run.limit? x.handle.killGrace.toMillis

/-- Goes on with a close; one that is over returns. -/
def goOn (x : Supervision) (i : Nat) (limit : Option Nat) (c : CloseCall) : Supervision :=
  match c.run.closing with
  | .finished result =>
    { x with
      closes := x.closes.eraseIdx i
      closed := x.closed ++ [(c, ⟨limit, x.machine.clock, x.handle.exit, result⟩)] }
  | _ => { x with closes := x.closes.set i c }

/-- The signal that a close asks for. -/
def signalOf? (c : Closing) : Option Signal :=
  match c.request? with
  | some (.signal s) => some s
  | _ => none

/-- What a move leads to, where it is possible. -/
def next? (x : Supervision) : Move → Option Supervision
  | .pass machine => if x.machine.clock ≤ machine.clock then some { x with machine } else none
  | .observe answer => some { x with monitor := x.monitor.answer answer }
  | .record =>
    match x.monitor with
    | .observed outcome =>
      some { x with
        handle := { x.handle with exit := x.handle.exit.write outcome }
        monitor := .finished
        written := x.written ++ [outcome] }
    | _ => none
  | .wait deadline => some { x with waits := x.waits ++ [deadline] }
  | .poll i =>
    x.waits[i]?.bind fun limit =>
      (x.handle.exit.wait (limit.any (· ≤ x.machine.clock))).map fun result =>
        { x with
          waits := x.waits.eraseIdx i
          waited := x.waited ++ [⟨limit, x.machine.clock, x.handle.exit, result⟩] }
  | .leave i => some { x with waits := x.waits.eraseIdx i }
  | .close deadline =>
    some { x with
      holdsChannel := false
      closes := x.closes ++
        [⟨.start x.holdsChannel deadline x.machine.clock, x.handle.exit.isSome, []⟩] }
  | .step i =>
    x.closes[i]?.bind fun c =>
      (x.machine.closeStep? x.handle c.run).map fun (run, machine) =>
        goOn { x with machine } i (x.limitOf c)
          { c with run, sent := c.sent ++ (signalOf? c.run.closing).toList }
  | .refuse i errno =>
    x.closes[i]?.bind fun c =>
      (signalOf? c.run.closing).map fun _ =>
        x.goOn i (x.limitOf c) { c with run := c.run.answer (.failed errno) x.machine.clock }
  | .drop i => some { x with closes := x.closes.eraseIdx i }

/-- A row of moves. -/
def run? (x : Supervision) : List Move → Option Supervision
  | [] => some x
  | move :: moves => (x.next? move).bind fun x' => x'.run? moves

/-! ## What calls return -/

/-- Whether a result tells how the process ended, or why that is not known. -/
def isOutcome : Except ProcessError ExitState → Bool
  | .ok _ | .error (.wait _) => true
  | .error _ => false

/-- What a call may have returned when the record is this. -/
structure Fair (t : Told) (record : ExitRecord) : Prop where
  outcome : isOutcome t.result = true → ∃ o, record = some o ∧ t.result = told o
  patient : t.result = .error .deadlineExceeded →
    t.record = none ∧ ∃ d, t.limit = some d ∧ d ≤ t.clock

theorem told_ne_deadlineExceeded (o : Except Errno ExitState) :
    told o ≠ .error .deadlineExceeded := by
  cases o <;> simp [told]

/-- A wait tells the end that is recorded, or was patient until its deadline. -/
theorem fair_of_wait {record : ExitRecord} {limit : Option Nat} {clock : Nat}
    {result : Except ProcessError ExitState}
    (h : record.wait (limit.any (· ≤ clock)) = some result) :
    Fair ⟨limit, clock, record, result⟩ record := by
  cases record with
  | some o =>
    cases h
    exact ⟨fun _ => ⟨o, rfl, rfl⟩, fun hlate => absurd hlate (told_ne_deadlineExceeded o)⟩
  | none =>
    obtain ⟨hexpired, heq⟩ := Option.ite_none_right_eq_some.mp h
    cases heq
    constructor
    · intro houtcome
      cases houtcome
    · intro _
      cases limit with
      | none => cases hexpired
      | some d => exact ⟨rfl, d, rfl, by simpa using hexpired⟩

theorem fair_of_refused (limit : Option Nat) (clock : Nat) (record : ExitRecord) (errno : Errno) :
    Fair ⟨limit, clock, record, .error (.signal errno)⟩ record := by
  constructor
  · intro houtcome
    cases houtcome
  · intro hlate
    cases hlate

/-! ## Closes -/

/-- Where a close stands that finds the record written. -/
def isCalm : Closing → Bool
  | .quitting | .disconnecting | .checking | .waiting => true
  | _ => false

/-- What a close has before it that finds the record written. -/
def rank : Closing → Nat
  | .quitting => 3
  | .disconnecting => 2
  | .checking => 1
  | _ => 0

/-- A close that finds the record written goes on at once, sends nothing, and returns it. -/
theorem closeStep?_of_recorded {m : Machine} {h : Handle} {run : CloseRun}
    {o : Except Errno ExitState} (hcalm : isCalm run.closing = true) (hexit : h.exit = some o) :
    signalOf? run.closing = none ∧ ∃ run', m.closeStep? h run = some (run', m) ∧
      (isCalm run'.closing = true ∧ rank run'.closing < rank run.closing ∨
        run'.closing = .finished (told o)) := by
  obtain ⟨closing, deadline, since⟩ := run
  cases closing with
  | quitting => exact ⟨rfl, _, rfl, Or.inl ⟨rfl, Nat.lt_succ_self 2⟩⟩
  | disconnecting => exact ⟨rfl, _, rfl, Or.inl ⟨rfl, Nat.lt_succ_self 1⟩⟩
  | checking =>
    refine ⟨rfl, _, rfl, Or.inl ?_⟩
    simp [CloseRun.answer, Closing.answer, hexit, isCalm, rank]
  | waiting =>
    refine ⟨rfl, ⟨.finished (told o), deadline, m.clock⟩, ?_, Or.inr rfl⟩
    cases o <;> simp [Machine.closeStep?, Closing.request?, hexit, ExitRecord.wait, told,
      CloseRun.answer, Closing.answer]
  | _ => cases hcalm

theorem result_of_waiting {waited result : Except ProcessError ExitState}
    (h : Closing.waiting.answer (.waited waited) = .finished result) : waited = result := by
  cases waited with
  | ok state => exact Closing.finished.inj h
  | error e => cases e <;> first | exact Closing.finished.inj h | cases h

/-- A close that goes on ends with what a wait tells. -/
theorem wait_of_closeStep? {m m' : Machine} {h : Handle} {run run' : CloseRun}
    {result : Except ProcessError ExitState} (hgoing : ∀ r, run.closing ≠ .finished r)
    (hstep : m.closeStep? h run = some (run', m')) (hend : run'.closing = .finished result) :
    h.exit.wait ((run.limit? h.killGrace.toMillis).any (· ≤ m.clock)) = some result ∧ m' = m := by
  obtain ⟨closing, deadline, since⟩ := run
  cases closing with
  | waiting =>
    obtain ⟨answer, hwait, heq⟩ := Option.map_eq_some_iff.mp hstep
    cases heq
    rw [result_of_waiting hend] at hwait
    exact ⟨hwait, rfl⟩
  | reaping =>
    obtain ⟨answer, hwait, heq⟩ := Option.map_eq_some_iff.mp hstep
    cases heq
    cases hend
    exact ⟨hwait, rfl⟩
  | finished r => exact absurd rfl (hgoing r)
  | checking =>
    cases hstep
    simp only [CloseRun.answer, Closing.answer] at hend
    split at hend <;> cases hend
  | _ =>
    cases hstep
    cases hend

/-- A close whose signal cannot be sent is over. -/
theorem closing_of_refused {c : Closing} {s : Signal} (h : signalOf? c = some s) (errno : Errno) :
    isCalm c = false ∧ c.answer (.failed errno) = .finished (.error (.signal errno)) := by
  cases c <;> first | exact ⟨rfl, rfl⟩ | cases h

/-! ## The invariant -/

structure Sound (x : Supervision) : Prop where
  record : (x.written = [] ∧ x.handle.exit = none ∧ x.monitor ≠ .finished) ∨
    ∃ o, x.written = [o] ∧ x.handle.exit = some o ∧ x.monitor = .finished
  going : ∀ c ∈ x.closes, ∀ result, c.run.closing ≠ .finished result
  late : ∀ c ∈ x.closes, c.late = true →
    c.sent = [] ∧ isCalm c.run.closing = true ∧ x.handle.exit.isSome = true
  waited : ∀ t ∈ x.waited, Fair t x.handle.exit
  closed : ∀ e ∈ x.closed, Fair e.2 x.handle.exit ∧
    (e.1.late = true → e.1.sent = [] ∧ ∃ o, x.handle.exit = some o ∧ e.2.result = told o)

variable {x x' : Supervision}

theorem sound_start (machine : Machine) (role : Role) (pid : Nat) (killGrace : Duration)
    (holdsChannel : Bool) : (start machine role pid killGrace holdsChannel).Sound := by
  refine ⟨Or.inl ⟨rfl, rfl, Monitor.noConfusion⟩, ?_, ?_, ?_, ?_⟩ <;> simp [start]

/-! ## The monitor -/

theorem sound_observe (h : x.Sound) (a : MonitorAnswer) :
    ({ x with monitor := x.monitor.answer a } : Supervision).Sound := by
  refine ⟨?_, h.going, h.late, h.waited, h.closed⟩
  rcases h.record with ⟨hwritten, hexit, hmonitor⟩ | ⟨o, hwritten, hexit, hmonitor⟩
  · exact Or.inl ⟨hwritten, hexit, Monitor.answer_ne_finished hmonitor a⟩
  · refine Or.inr ⟨o, hwritten, hexit, ?_⟩
    rw [hmonitor]
    exact Monitor.answer_finished a

theorem next?_record_eq_some (hmove : x.next? .record = some x') :
    ∃ o, x.monitor = .observed o ∧ x' = { x with
      handle := { x.handle with exit := x.handle.exit.write o }
      monitor := .finished
      written := x.written ++ [o] } := by
  simp only [next?] at hmove
  split at hmove
  · rename_i o hmonitor
    cases hmove
    exact ⟨o, hmonitor, rfl⟩
  · cases hmove

/-- What is told of a record that is written later is told of no other. -/
theorem Fair.of_unset {t : Told} (h : Fair t none) (record : ExitRecord) : Fair t record := by
  refine ⟨fun houtcome => ?_, h.patient⟩
  obtain ⟨o, ho, -⟩ := h.outcome houtcome
  cases ho

/-- The monitor finds the record unset, so that writing it replaces nothing. -/
theorem sound_record (h : x.Sound) (hmove : x.next? .record = some x') : x'.Sound := by
  obtain ⟨o, hobserved, rfl⟩ := next?_record_eq_some hmove
  rcases h.record with ⟨hwritten, hexit, -⟩ | ⟨o', -, -, hmonitor⟩
  · have hnone : ∀ {t}, Fair t x.handle.exit → Fair t (x.handle.exit.write o) := by
      intro t ht
      rw [hexit] at ht
      exact ht.of_unset _
    refine ⟨Or.inr ⟨o, ?_, ?_, rfl⟩, h.going, ?_, fun t ht => hnone (h.waited t ht), ?_⟩
    · simp [hwritten]
    · simp [hexit, ExitRecord.write]
    · intro c hc hlate
      have := (h.late c hc hlate).2.2
      rw [hexit] at this
      cases this
    · intro e he
      obtain ⟨hfair, hlate⟩ := h.closed e he
      refine ⟨hnone hfair, fun hl => ?_⟩
      obtain ⟨-, o', ho', -⟩ := hlate hl
      rw [hexit] at ho'
      cases ho'
  · rw [hmonitor] at hobserved
    cases hobserved

/-- What is observed on a machine is what a monitor observes there. -/
theorem the_machine_writes_what_a_monitor_observes {handle : Handle} {machine : Machine}
    (hmonitor : x.monitor = .registering)
    (hwatch : x.machine.watch? x.handle = some (handle, machine)) :
    ∃ moves outcome, x.run? moves = some { x with
      machine, handle, monitor := .finished, written := x.written ++ [outcome] } := by
  obtain ⟨-, outcome, hreap, rfl⟩ := Machine.watch?_eq_some hwatch
  obtain ⟨hclock, houtcome⟩ := Machine.reap?_eq_some hreap
  obtain ⟨answer, hanswer⟩ : ∃ answer, Monitor.asking.answer answer = .observed outcome := by
    rcases houtcome with rfl | ⟨code | signal, rfl⟩
    · exact ⟨.refused .noChild, rfl⟩
    · exact ⟨.reported (.exited code), rfl⟩
    · exact ⟨.reported (.signaled signal), rfl⟩
  have hregistered : Monitor.registering.answer .done = .watching := rfl
  have hready : Monitor.watching.answer .done = .asking := rfl
  refine ⟨[.observe .done, .observe .done, .pass machine, .observe answer, .record], outcome, ?_⟩
  simp [run?, next?, hmonitor, hregistered, hready, hanswer, hclock]

/-! ## Waits -/

theorem next?_poll_eq_some {i : Nat} (hmove : x.next? (.poll i) = some x') :
    ∃ limit result, x.waits[i]? = some limit ∧
      x.handle.exit.wait (limit.any (· ≤ x.machine.clock)) = some result ∧
      x' = { x with
        waits := x.waits.eraseIdx i
        waited := x.waited ++ [⟨limit, x.machine.clock, x.handle.exit, result⟩] } := by
  obtain ⟨limit, hlimit, hrest⟩ := Option.bind_eq_some_iff.mp hmove
  obtain ⟨result, hresult, rfl⟩ := Option.map_eq_some_iff.mp hrest
  exact ⟨limit, result, hlimit, hresult, rfl⟩

theorem sound_poll {i : Nat} (h : x.Sound) (hmove : x.next? (.poll i) = some x') : x'.Sound := by
  obtain ⟨limit, result, -, hresult, rfl⟩ := next?_poll_eq_some hmove
  refine ⟨h.record, h.going, h.late, ?_, h.closed⟩
  intro t ht
  rcases List.mem_append.mp ht with ht | ht
  · exact h.waited t ht
  · rw [List.mem_singleton.mp ht]
    exact fair_of_wait hresult

/-! ## Closes -/

theorem sound_close (h : x.Sound) (deadline : Option Nat) : ∀ {x'},
    x.next? (.close deadline) = some x' → x'.Sound := by
  intro x' hmove
  cases hmove
  refine ⟨h.record, ?_, ?_, h.waited, h.closed⟩
  · intro c hc
    rcases List.mem_append.mp hc with hc | hc
    · exact h.going c hc
    · rw [List.mem_singleton.mp hc]
      cases x.holdsChannel <;> exact fun _ => Closing.noConfusion
  · intro c hc hlate
    rcases List.mem_append.mp hc with hc | hc
    · exact h.late c hc hlate
    · rw [List.mem_singleton.mp hc] at hlate ⊢
      cases x.holdsChannel <;> exact ⟨rfl, rfl, hlate⟩

theorem sound_goOn (h : x.Sound) (i : Nat) {limit : Option Nat} {c : CloseCall}
    (hfair : ∀ result, c.run.closing = .finished result →
      Fair ⟨limit, x.machine.clock, x.handle.exit, result⟩ x.handle.exit)
    (hlate : c.late = true → c.sent = [] ∧ ∃ o, x.handle.exit = some o ∧
      (isCalm c.run.closing = true ∨ c.run.closing = .finished (told o))) :
    (x.goOn i limit c).Sound := by
  unfold goOn
  split
  · rename_i result hend
    refine ⟨h.record, ?_, ?_, h.waited, ?_⟩
    · intro c' hc'
      exact h.going c' (List.mem_of_mem_eraseIdx hc')
    · intro c' hc'
      exact h.late c' (List.mem_of_mem_eraseIdx hc')
    · intro e he
      rcases List.mem_append.mp he with he | he
      · exact h.closed e he
      · rw [List.mem_singleton.mp he]
        refine ⟨hfair result hend, fun hl => ?_⟩
        obtain ⟨hsent, o, ho, hcalm | htold⟩ := hlate hl
        · rw [hend] at hcalm
          cases hcalm
        · rw [hend] at htold
          cases htold
          exact ⟨hsent, o, ho, rfl⟩
  · rename_i hgoing
    refine ⟨h.record, ?_, ?_, h.waited, h.closed⟩
    · intro c' hc'
      rcases List.mem_or_eq_of_mem_set hc' with hc' | rfl
      · exact h.going c' hc'
      · exact hgoing
    · intro c' hc' hl
      rcases List.mem_or_eq_of_mem_set hc' with hc' | rfl
      · exact h.late c' hc' hl
      · obtain ⟨hsent, o, ho, hcalm | htold⟩ := hlate hl
        · exact ⟨hsent, hcalm, by rw [ho]; rfl⟩
        · exact absurd htold (hgoing _)

theorem next?_step_eq_some {i : Nat} (hmove : x.next? (.step i) = some x') :
    ∃ c run machine, x.closes[i]? = some c ∧
      x.machine.closeStep? x.handle c.run = some (run, machine) ∧
      x' = goOn { x with machine } i (x.limitOf c)
        { c with run, sent := c.sent ++ (signalOf? c.run.closing).toList } := by
  obtain ⟨c, hc, hrest⟩ := Option.bind_eq_some_iff.mp hmove
  obtain ⟨⟨run, machine⟩, hstep, rfl⟩ := Option.map_eq_some_iff.mp hrest
  exact ⟨c, run, machine, hc, hstep, rfl⟩

theorem sound_step {i : Nat} (h : x.Sound) (hmove : x.next? (.step i) = some x') : x'.Sound := by
  obtain ⟨c, run, machine, hc, hstep, rfl⟩ := next?_step_eq_some hmove
  have hmem := List.mem_of_getElem? hc
  have hpass : ({ x with machine } : Supervision).Sound :=
    ⟨h.record, h.going, h.late, h.waited, h.closed⟩
  refine sound_goOn hpass i ?_ ?_
  · intro result hend
    obtain ⟨hwait, rfl⟩ := wait_of_closeStep? (h.going c hmem) hstep hend
    exact fair_of_wait hwait
  · intro hlate
    obtain ⟨hsent, hcalm, hset⟩ := h.late c hmem hlate
    obtain ⟨o, ho⟩ := Option.isSome_iff_exists.mp hset
    obtain ⟨hsilent, run', hrun', hafter⟩ := closeStep?_of_recorded (m := x.machine) hcalm ho
    rw [hstep] at hrun'
    cases hrun'
    exact ⟨by simp [hsent, hsilent], o, ho, hafter.imp_left And.left⟩

theorem sound_refuse {i : Nat} {errno : Errno} (h : x.Sound)
    (hmove : x.next? (.refuse i errno) = some x') : x'.Sound := by
  obtain ⟨c, hc, hrest⟩ := Option.bind_eq_some_iff.mp hmove
  obtain ⟨s, hs, rfl⟩ := Option.map_eq_some_iff.mp hrest
  obtain ⟨hstern, hanswer⟩ := closing_of_refused hs errno
  refine sound_goOn h i ?_ ?_
  · intro result hend
    rw [CloseRun.answer, hanswer] at hend
    cases hend
    exact fair_of_refused _ _ _ _
  · intro hlate
    obtain ⟨-, hcalm, -⟩ := h.late c (List.mem_of_getElem? hc) hlate
    rw [hstern] at hcalm
    cases hcalm

/-! ## Runs -/

theorem sound_next {move : Move} (h : x.Sound) (hmove : x.next? move = some x') : x'.Sound := by
  cases move with
  | pass machine =>
    obtain ⟨-, heq⟩ := Option.ite_none_right_eq_some.mp hmove
    cases heq
    exact ⟨h.record, h.going, h.late, h.waited, h.closed⟩
  | observe a =>
    cases hmove
    exact sound_observe h a
  | record => exact sound_record h hmove
  | wait deadline =>
    cases hmove
    exact ⟨h.record, h.going, h.late, h.waited, h.closed⟩
  | poll i => exact sound_poll h hmove
  | leave i =>
    cases hmove
    exact ⟨h.record, h.going, h.late, h.waited, h.closed⟩
  | close deadline => exact sound_close h deadline hmove
  | step i => exact sound_step h hmove
  | refuse i errno => exact sound_refuse h hmove
  | drop i =>
    cases hmove
    refine ⟨h.record, ?_, ?_, h.waited, h.closed⟩
    · intro c hc
      exact h.going c (List.mem_of_mem_eraseIdx hc)
    · intro c hc
      exact h.late c (List.mem_of_mem_eraseIdx hc)

theorem sound_run (moves : List Move) (h : x.Sound) (hrun : x.run? moves = some x') :
    x'.Sound := by
  induction moves generalizing x with
  | nil =>
    cases hrun
    exact h
  | cons move moves ih =>
    obtain ⟨u, hmove, hrest⟩ := Option.bind_eq_some_iff.mp hrun
    exact ih (sound_next h hmove) hrest

/-! ## Once the record is written -/

/-- The monitor is the only one who writes. -/
theorem next?_kept {move : Move} (hdone : x.monitor = .finished) (hmove : x.next? move = some x') :
    x'.handle = x.handle ∧ x'.written = x.written := by
  have hgoOn : ∀ (y : Supervision) (i : Nat) (limit : Option Nat) (c : CloseCall),
      (y.goOn i limit c).handle = y.handle ∧ (y.goOn i limit c).written = y.written := by
    intro y i limit c
    unfold goOn
    split <;> exact ⟨rfl, rfl⟩
  cases move with
  | pass machine =>
    obtain ⟨-, heq⟩ := Option.ite_none_right_eq_some.mp hmove
    cases heq
    exact ⟨rfl, rfl⟩
  | record =>
    obtain ⟨o, hobserved, -⟩ := next?_record_eq_some hmove
    rw [hdone] at hobserved
    cases hobserved
  | poll i =>
    obtain ⟨limit, result, -, -, rfl⟩ := next?_poll_eq_some hmove
    exact ⟨rfl, rfl⟩
  | step i =>
    obtain ⟨c, run, machine, -, -, rfl⟩ := next?_step_eq_some hmove
    exact hgoOn _ _ _ _
  | refuse i errno =>
    obtain ⟨c, -, hrest⟩ := Option.bind_eq_some_iff.mp hmove
    obtain ⟨s, -, rfl⟩ := Option.map_eq_some_iff.mp hrest
    exact hgoOn _ _ _ _
  | _ =>
    cases hmove
    exact ⟨rfl, rfl⟩

theorem Sound.finished {o : Except Errno ExitState} (h : x.Sound) (hexit : x.handle.exit = some o) :
    x.written = [o] ∧ x.monitor = .finished := by
  rcases h.record with ⟨-, hnone, -⟩ | ⟨o', hwritten, hsome, hmonitor⟩
  · rw [hexit] at hnone
    cases hnone
  · rw [hexit] at hsome
    cases hsome
    exact ⟨hwritten, hmonitor⟩

theorem run?_kept {o : Except Errno ExitState} (moves : List Move) (h : x.Sound)
    (hexit : x.handle.exit = some o) (hrun : x.run? moves = some x') :
    x'.handle.exit = some o := by
  induction moves generalizing x with
  | nil =>
    cases hrun
    exact hexit
  | cons move moves ih =>
    obtain ⟨u, hmove, hrest⟩ := Option.bind_eq_some_iff.mp hrun
    refine ih (sound_next h hmove) ?_ hrest
    rw [(next?_kept (h.finished hexit).2 hmove).1]
    exact hexit

theorem poll_of_recorded {o : Except Errno ExitState} {i : Nat} {limit : Option Nat}
    (hexit : x.handle.exit = some o) (hlimit : x.waits[i]? = some limit) :
    x.next? (.poll i) = some { x with
      waits := x.waits.eraseIdx i
      waited := x.waited ++ [⟨limit, x.machine.clock, some o, told o⟩] } := by
  simp [next?, hlimit, hexit, ExitRecord.wait]

theorem step_of_recorded {o : Except Errno ExitState} {i : Nat} {c : CloseCall}
    (hexit : x.handle.exit = some o) (hc : x.closes[i]? = some c)
    (hcalm : isCalm c.run.closing = true) :
    ∃ run, x.next? (.step i) = some (x.goOn i (x.limitOf c) { c with run }) ∧
      (isCalm run.closing = true ∧ rank run.closing < rank c.run.closing ∨
        run.closing = .finished (told o)) := by
  obtain ⟨hsilent, run, hstep, hafter⟩ := closeStep?_of_recorded (m := x.machine) hcalm hexit
  refine ⟨run, ?_, hafter⟩
  simp [next?, hc, hstep, hsilent]

/-- A close that finds the record written comes to its end by itself. -/
theorem calm_close_ends {o : Except Errno ExitState} {i : Nat} {c : CloseCall}
    (hexit : x.handle.exit = some o) (hc : x.closes[i]? = some c)
    (hcalm : isCalm c.run.closing = true) :
    ∃ steps y run limit, x.run? steps = some y ∧ y.machine = x.machine ∧ y.handle = x.handle ∧
      y.closed = x.closed ++ [({ c with run }, ⟨limit, x.machine.clock, some o, told o⟩)] := by
  induction hn : rank c.run.closing using Nat.strong_induction_on generalizing x c with
  | _ n ih =>
    obtain ⟨run, hstep, hafter⟩ := step_of_recorded hexit hc hcalm
    rcases hafter with ⟨hcalm', hlt⟩ | hend
    · have hgoOn : x.goOn i (x.limitOf c) { c with run } =
          { x with closes := x.closes.set i { c with run } } := by
        unfold goOn
        split
        · rename_i result hend
          rw [show run.closing = _ from hend] at hcalm'
          cases hcalm'
        · rfl
      obtain ⟨hi, -⟩ := List.getElem?_eq_some_iff.mp hc
      obtain ⟨steps, y, run', limit, hrun, hkept⟩ := ih (rank run.closing) (hn ▸ hlt)
        (x := { x with closes := x.closes.set i { c with run } }) hexit
        (List.getElem?_set_self hi) hcalm' rfl
      refine ⟨.step i :: steps, y, run', limit, ?_, hkept⟩
      rw [run?, hstep, hgoOn]
      exact hrun
    · refine ⟨[.step i], _, run, x.limitOf c, by rw [run?, hstep]; rfl, ?_⟩
      simp [goOn, hend, hexit]

theorem wait_of_recorded {o : Except Errno ExitState} (hexit : x.handle.exit = some o)
    (deadline : Option Nat) :
    x.run? [.wait deadline, .poll x.waits.length] = some { x with
      waited := x.waited ++ [⟨deadline, x.machine.clock, some o, told o⟩] } := by
  have hlast : (x.waits ++ [deadline])[x.waits.length]? = some deadline := by simp
  have hpoll := poll_of_recorded (x := { x with waits := x.waits ++ [deadline] }) hexit hlast
  have hwaits : (x.waits ++ [deadline]).eraseIdx x.waits.length = x.waits := by
    simp [List.eraseIdx_append_of_length_le]
  rw [hwaits] at hpoll
  simp only [run?, show x.next? (.wait deadline) = some { x with waits := x.waits ++ [deadline] }
    from rfl, Option.bind_some, hpoll]

theorem close_of_recorded {o : Except Errno ExitState} (hexit : x.handle.exit = some o)
    (deadline : Option Nat) :
    ∃ steps y c t, x.run? (.close deadline :: steps) = some y ∧ y.machine = x.machine ∧
      y.handle = x.handle ∧ y.closed = x.closed ++ [(c, t)] ∧ c.late = true ∧ c.sent = [] ∧
      t.result = told o := by
  let c : CloseCall := ⟨.start x.holdsChannel deadline x.machine.clock, x.handle.exit.isSome, []⟩
  have hcalm : isCalm c.run.closing = true := by
    simp only [c, CloseRun.start, Closing.start]
    split <;> rfl
  obtain ⟨steps, y, run, limit, hrun, hmachine, hhandle, hclosed⟩ := calm_close_ends
    (x := { x with holdsChannel := false, closes := x.closes ++ [c] }) (i := x.closes.length)
    hexit (by simp) hcalm
  exact ⟨steps, y, _, _, hrun, hmachine, hhandle, hclosed, by simp [c, hexit], rfl, rfl⟩

/-! ## The law -/

/-- What the calls were told that are over. -/
def results (x : Supervision) : List Told := x.waited ++ x.closed.map Prod.snd

theorem Sound.fair (h : x.Sound) : ∀ t ∈ x.results, Fair t x.handle.exit := by
  intro t ht
  rcases List.mem_append.mp ht with ht | ht
  · exact h.waited t ht
  · obtain ⟨e, he, rfl⟩ := List.mem_map.mp ht
    exact (h.closed e he).1

/-- Whether a move is one of somebody who waits. -/
def Move.waits : Move → Bool
  | .wait _ | .poll _ | .leave _ => true
  | _ => false

theorem next?_of_waits {move : Move} (hwaits : move.waits = true)
    (hmove : x.next? move = some x') : x'.machine = x.machine ∧ x'.handle = x.handle := by
  cases move with
  | poll i =>
    obtain ⟨limit, result, -, -, rfl⟩ := next?_poll_eq_some hmove
    exact ⟨rfl, rfl⟩
  | wait | leave =>
    cases hmove
    exact ⟨rfl, rfl⟩
  | _ => cases hwaits

/-- The record is written once. All who are told how the process ended, or why that is not known,
are told what is recorded; whoever is told that a deadline passed found the record unset then.
Once it is written every wait gets it at its first poll, and every close gets it without a
signal. -/
theorem everyone_is_told_the_same_end (machine : Machine) (role : Role) (pid : Nat)
    (killGrace : Duration) (holdsChannel : Bool) (moves : List Move) (x : Supervision)
    (hrun : (start machine role pid killGrace holdsChannel).run? moves = some x) :
    x.written.length ≤ 1 ∧ x.handle.exit = x.written.head? ∧
      (∀ t ∈ x.results, isOutcome t.result = true →
        ∃ o, x.handle.exit = some o ∧ t.result = told o) ∧
      (∀ t ∈ x.results, t.result = .error .deadlineExceeded →
        t.record = none ∧ ∃ d, t.limit = some d ∧ d ≤ t.clock) ∧
      (∀ move y, move.waits = true → x.next? move = some y →
        y.machine = x.machine ∧ y.handle = x.handle) ∧
      (∀ c ∈ x.closes, c.late = true → c.sent = []) ∧
      (∀ e ∈ x.closed, e.1.late = true →
        e.1.sent = [] ∧ ∃ o, x.handle.exit = some o ∧ e.2.result = told o) ∧
      ∀ o, x.handle.exit = some o →
        (∀ more y, x.run? more = some y → y.handle.exit = some o ∧ y.written = [o]) ∧
        (∀ i limit, x.waits[i]? = some limit → ∃ y, x.next? (.poll i) = some y ∧
          y.waited = x.waited ++ [⟨limit, x.machine.clock, some o, told o⟩]) ∧
        (∀ deadline, ∃ y, x.run? [.wait deadline, .poll x.waits.length] = some y ∧
          y.waited = x.waited ++ [⟨deadline, x.machine.clock, some o, told o⟩]) ∧
        ∀ deadline, ∃ steps y c t, x.run? (.close deadline :: steps) = some y ∧
          y.machine = x.machine ∧ y.handle = x.handle ∧ y.closed = x.closed ++ [(c, t)] ∧
          c.late = true ∧ c.sent = [] ∧ t.result = told o := by
  have h := sound_run moves (sound_start machine role pid killGrace holdsChannel) hrun
  refine ⟨?_, ?_, fun t ht => (h.fair t ht).outcome, fun t ht => (h.fair t ht).patient,
    fun move y => next?_of_waits, fun c hc hlate => (h.late c hc hlate).1,
    fun e he => (h.closed e he).2, ?_⟩
  · rcases h.record with ⟨hwritten, -⟩ | ⟨o, hwritten, -⟩ <;> simp [hwritten]
  · rcases h.record with ⟨hwritten, hexit, -⟩ | ⟨o, hwritten, hexit, -⟩ <;> simp [hwritten, hexit]
  · intro o hexit
    refine ⟨?_, ?_, ?_, ?_⟩
    · intro more y hmore
      have hkept := run?_kept more h hexit hmore
      exact ⟨hkept, ((sound_run more h hmore).finished hkept).1⟩
    · intro i limit hlimit
      exact ⟨_, poll_of_recorded hexit hlimit, rfl⟩
    · intro deadline
      exact ⟨_, wait_of_recorded hexit deadline, rfl⟩
    · exact close_of_recorded hexit

/-- A wait comes to its deadline. The child ends with code 7 while a close waits for it; a wait
whose deadline is over and another close come later. -/
def lateWait : List Move :=
  List.flatten [
    [.wait (some 0), .poll 0, .close none, .step 0, .step 0, .step 0, .step 0],
    [.observe .done, .observe .done, .observe (.refused .interrupted), .observe .done],
    [.observe (.reported (.exited 7)), .record, .step 0],
    [.wait (some 0), .poll 0, .close (some 0), .step 0, .step 0]]

theorem a_late_wait_is_told_the_end :
    ∃ x, (start (.empty .obliging ⟨[]⟩ .role []) .worker 2 (.ofSecs 1) true).run? lateWait = some x ∧
      x.results.map Told.result =
        [.error .deadlineExceeded, .ok (.exited 7), .ok (.exited 7), .ok (.exited 7)] ∧
      x.written = [.ok (.exited 7)] := by
  have hrun : ((start (.empty .obliging ⟨[]⟩ .role []) .worker 2 (.ofSecs 1) true).run?
      lateWait).map (fun x => (x.handle.exit, x.results.map Told.result)) =
        some (some (.ok (.exited 7)),
          [.error .deadlineExceeded, .ok (.exited 7), .ok (.exited 7), .ok (.exited 7)]) := by
    decide +kernel
  obtain ⟨x, hx, hfound⟩ := Option.map_eq_some_iff.mp hrun
  obtain ⟨hexit, hresults⟩ := Prod.mk.inj hfound
  obtain ⟨-, -, -, -, -, -, -, hwritten⟩ :=
    everyone_is_told_the_same_end _ .worker 2 (.ofSecs 1) true lateWait x hx
  exact ⟨x, hx, hresults, ((hwritten _ hexit).1 [] x rfl).2⟩

end Supervision

end ProcessTree
