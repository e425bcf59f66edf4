-- A process handle over its whole life: waits and closes one after the other,
-- any of them given up part way, and at last the handle is dropped. All that it
-- does is written down, and each deed follows on those before it.
import ProcessTree.Proofs.Process.Supervision

namespace ProcessTree

/-! ## Deeds -/

/-- What a call is asked for, with its deadline. -/
inductive Asked where
  | wait (deadline : Option Nat)
  | close (deadline : Option Nat)

/-- How sending quit went. -/
inductive QuitOutcome where
  | sent
  | failed (error : ChannelError)
  | late

/-- What a handle does. The calls are numbered from 0 as they come, and each deed but the last one
is that of a call. -/
inductive Deed where
  | began (call : Nat) (asked : Asked)
  | quit (call : Nat) (outcome : QuitOutcome)
  | disconnected (call : Nat)
  | looked (call : Nat) (record : ExitRecord)
  | signalled (call : Nat) (signal : Signal) (failure : Option Errno) (clock : Nat)
  | waited (call : Nat) (limit : Option Nat) (clock : Nat) (result : Except ProcessError ExitState)
  | returned (call : Nat) (result : Except ProcessError ExitState)
  | dropped (record : ExitRecord) (sent : Option Signal)

namespace Deed

/-- The call that does it. -/
def call? : Deed → Option Nat
  | .began call _ | .quit call _ | .disconnected call | .looked call _ | .signalled call _ _ _
  | .waited call _ _ _ | .returned call _ => some call
  | .dropped _ _ => none

/-- Whether it sends something or closes the channel. -/
def isAct : Deed → Bool
  | .quit _ _ | .disconnected _ | .signalled _ _ _ _ => true
  | _ => false

/-- No other close has begun. -/
def OnlyClose (call : Nat) (log : List Deed) : Prop :=
  (∃ deadline, .began call (.close deadline) ∈ log) ∧
    ∀ other deadline, .began other (.close deadline) ∈ log → other = call

def NoSignal (log : List Deed) : Prop :=
  ∀ call signal failure clock, .signalled call signal failure clock ∉ log

/-- What must have come before a deed, where a killed process is waited for so long. -/
def Cause (grace : Nat) (before : List Deed) : Deed → Prop
  | .began call _ => ∀ asked, .began call asked ∉ before
  | .quit call _ =>
    OnlyClose call before ∧ (∀ other outcome, .quit other outcome ∉ before) ∧
      (∀ other, .disconnected other ∉ before) ∧ NoSignal before
  | .disconnected call =>
    OnlyClose call before ∧ (∃ outcome, .quit call outcome ∈ before) ∧
      (∀ other, .disconnected other ∉ before) ∧ NoSignal before
  | .signalled call .term _ _ =>
    (∃ deadline, .began call (.close deadline) ∈ before) ∧
      before.getLast? = some (.looked call none) ∧
      ∀ failure clock, .signalled call .term failure clock ∉ before
  | .signalled call .kill _ _ =>
    (∃ deadline sent clock, deadline ≤ clock ∧
      List.Sublist [.began call (.close (some deadline)), .signalled call .term none sent,
        .waited call (some deadline) clock (.error .deadlineExceeded)] before) ∧
      ∀ failure clock, .signalled call .kill failure clock ∉ before
  | .signalled _ _ _ _ => False
  | .looked call _ | .waited call _ _ _ => ∃ asked, .began call asked ∈ before
  | .returned call result =>
    (∃ asked, .began call asked ∈ before) ∧
      ∀ deadline, .began call (.close deadline) ∈ before → result = .error .deadlineExceeded →
        ∃ sent clock, sent + grace ≤ clock ∧
          List.Sublist [.signalled call .kill none sent,
            .waited call (some (sent + grace)) clock (.error .deadlineExceeded)] before
  | .dropped record sent => sent = if record = none then some .kill else none

/-- A deed of a handle that is not dropped yet, and for which all came before that must. -/
structure Follows (grace : Nat) (before : List Deed) (deed : Deed) : Prop where
  alive : ∀ record sent, .dropped record sent ∉ before
  cause : Cause grace before deed

/-- Each deed follows on those before it. -/
inductive Orderly (grace : Nat) : List Deed → Prop
  | nil : Orderly grace []
  | snoc {log : List Deed} {deed : Deed} :
      Orderly grace log → Follows grace log deed → Orderly grace (log ++ [deed])

theorem Orderly.follows {grace : Nat} {log before after : List Deed} {deed : Deed}
    (h : Orderly grace log) (hsplit : log = before ++ deed :: after) :
    Follows grace before deed := by
  induction h generalizing after with
  | nil => cases before <;> cases hsplit
  | @snoc log last _ hlast ih =>
    rcases List.eq_nil_or_concat after with rfl | ⟨after, end', rfl⟩
    · obtain ⟨rfl, heq⟩ := List.append_inj' hsplit rfl
      cases heq
      exact hlast
    · rw [List.concat_eq_append, ← List.cons_append, ← List.append_assoc] at hsplit
      obtain ⟨hlog, -⟩ := List.append_inj' hsplit rfl
      exact ih hlog

variable {grace : Nat} {log : List Deed} {deed : Deed}

/-- Whatever was sent or closed was so by a close. -/
theorem Orderly.close_of_act (h : Orderly grace log) (hmem : deed ∈ log)
    (hact : deed.isAct = true) :
    ∃ call deadline, deed.call? = some call ∧ .began call (.close deadline) ∈ log := by
  obtain ⟨before, after, rfl⟩ := List.append_of_mem hmem
  have hcause := (h.follows rfl).cause
  cases deed with
  | quit call outcome =>
    obtain ⟨⟨⟨deadline, hbegan⟩, -⟩, -⟩ := hcause
    exact ⟨call, deadline, rfl, List.mem_append_left _ hbegan⟩
  | disconnected call =>
    obtain ⟨⟨⟨deadline, hbegan⟩, -⟩, -⟩ := hcause
    exact ⟨call, deadline, rfl, List.mem_append_left _ hbegan⟩
  | signalled call signal failure clock =>
    cases signal with
    | term =>
      obtain ⟨⟨deadline, hbegan⟩, -⟩ := hcause
      exact ⟨call, deadline, rfl, List.mem_append_left _ hbegan⟩
    | kill =>
      obtain ⟨⟨deadline, sent, late, -, hsublist⟩, -⟩ := hcause
      exact ⟨call, some deadline, rfl,
        List.mem_append_left _ (hsublist.subset List.mem_cons_self)⟩
    | _ => cases hcause
  | _ => cases hact

/-- A call begins once, as a wait or as a close. -/
theorem Orderly.began_unique (h : Orderly grace log) {call : Nat} {asked asked' : Asked}
    (hmem : .began call asked ∈ log) (hmem' : .began call asked' ∈ log) : asked = asked' := by
  induction h with
  | nil => cases hmem
  | @snoc log last _ hlast ih =>
    rcases List.mem_append.mp hmem with hold | hnew
    · rcases List.mem_append.mp hmem' with hold' | hnew'
      · exact ih hold hold'
      · cases List.mem_singleton.mp hnew'
        exact absurd hold (hlast.cause asked)
    · cases List.mem_singleton.mp hnew
      rcases List.mem_append.mp hmem' with hold' | hnew'
      · exact absurd hold' (hlast.cause asked')
      · cases List.mem_singleton.mp hnew'
        rfl

theorem Orderly.quiet_of_wait (h : Orderly grace log) {call : Nat} {deadline : Option Nat}
    (hbegan : .began call (.wait deadline) ∈ log) (hmem : deed ∈ log)
    (hcall : deed.call? = some call) : deed.isAct = false := by
  cases hact : deed.isAct with
  | false => rfl
  | true =>
    obtain ⟨call', deadline', hcall', hclose⟩ := h.close_of_act hmem hact
    rw [hcall] at hcall'
    cases hcall'
    cases h.began_unique hbegan hclose

end Deed

/-! ## Moves -/

/-- What a handle is doing. -/
inductive Doing where
  | wait (limit : Option Nat)
  | close (run : CloseRun)

/-- A process handle with what it has done. -/
structure HandleLife where
  /-- How long a killed process is waited for. -/
  grace : Nat
  record : ExitRecord
  clock : Nat
  holdsChannel : Bool
  /-- How many calls there have been. -/
  calls : Nat
  /-- The call under way. -/
  now : Option (Nat × Doing)
  dropped : Bool
  deeds : List Deed

namespace HandleLife

/-- What comes back to a call that goes on. -/
inductive Reply where
  /-- How sending quit went. -/
  | quit (outcome : QuitOutcome)
  /-- Why a signal was not sent, or that it was. -/
  | signal (failure : Option Errno)
  /-- What takes nobody else: the channel is closed, the record is read, a wait is over. -/
  | own

inductive Move where
  | pass (time : Nat)
  /-- The end of the process is recorded. -/
  | record (outcome : Except Errno ExitState)
  | begin (asked : Asked)
  | reply (reply : Reply)
  /-- A call is given up by its caller. -/
  | leave
  | drop

def start (grace : Nat) (holdsChannel : Bool) : HandleLife where
  grace := grace
  record := none
  clock := 0
  holdsChannel := holdsChannel
  calls := 0
  now := none
  dropped := false
  deeds := []

/-- The signal that dropping a handle sends. -/
def dropSignal? (record : ExitRecord) : Option Signal := if record.isNone then some .kill else none

/-- A call that begins. -/
def begun (x : HandleLife) (asked : Asked) : HandleLife :=
  let x' := { x with calls := x.calls + 1, deeds := x.deeds ++ [Deed.began x.calls asked] }
  match asked with
  | .wait deadline => { x' with now := some (x.calls, .wait deadline) }
  | .close deadline =>
    { x' with
      holdsChannel := false
      now := some (x.calls, .close (.start x.holdsChannel deadline x.clock)) }

/-- What a close does when a reply comes, and the answer that it goes on with. -/
def answer? (x : HandleLife) (call : Nat) (run : CloseRun) (reply : Reply) :
    Option (CloseAnswer × Deed) :=
  match run.closing.request?, reply with
  | some (.sendQuit _), .quit outcome => some (.done, .quit call outcome)
  | some .closeChannel, .own => some (.done, .disconnected call)
  | some .readRecord, .own => some (.record x.record, .looked call x.record)
  | some (.signal s), .signal none => some (.done, .signalled call s none x.clock)
  | some (.signal s), .signal (some e) => some (.failed e, .signalled call s (some e) x.clock)
  | some (.wait _), .own =>
    (x.record.wait (run.isExpired x.grace x.clock)).map fun result =>
      (.waited result, .waited call (run.limit? x.grace) x.clock result)
  | _, _ => none

/-- A close that has done a deed; one that is over returns. -/
def settle (x : HandleLife) (call : Nat) (run : CloseRun) (deed : Deed) : HandleLife :=
  match run.closing with
  | .finished result =>
    { x with now := none, deeds := x.deeds ++ [deed] ++ [.returned call result] }
  | _ => { x with now := some (call, .close run), deeds := x.deeds ++ [deed] }

/-- What a move leads to, where it is possible. -/
def next? (x : HandleLife) : Move → Option HandleLife
  | .pass time => some { x with clock := x.clock + time }
  | .record outcome => some { x with record := x.record.write outcome }
  | .begin asked => if x.now.isNone && !x.dropped then some (x.begun asked) else none
  | .reply reply =>
    match x.now, reply with
    | some (call, .close run), reply =>
      (x.answer? call run reply).map fun (answer, deed) =>
        x.settle call (run.answer answer x.clock) deed
    | some (call, .wait limit), .own =>
      (x.record.wait (limit.any (· ≤ x.clock))).map fun result =>
        { x with
          now := none
          deeds := x.deeds ++ [.waited call limit x.clock result] ++ [.returned call result] }
    | _, _ => none
  | .leave => x.now.map fun _ => { x with now := none }
  | .drop =>
    if x.now.isNone && !x.dropped then
      some { x with
        dropped := true
        deeds := x.deeds ++ [.dropped x.record (dropSignal? x.record)] }
    else none

/-- A row of moves. -/
def run? (x : HandleLife) : List Move → Option HandleLife
  | [] => some x
  | move :: moves => (x.next? move).bind fun x' => x'.run? moves

/-! ## The invariant -/

/-- What a close has done at each stage. -/
def Stage (deeds : List Deed) (record : ExitRecord) (call : Nat) (run : CloseRun) : Prop :=
  match run.closing with
  | .quitting =>
    Deed.OnlyClose call deeds ∧ (∀ other outcome, .quit other outcome ∉ deeds) ∧
      (∀ other, .disconnected other ∉ deeds) ∧ Deed.NoSignal deeds
  | .disconnecting =>
    Deed.OnlyClose call deeds ∧ (∃ outcome, .quit call outcome ∈ deeds) ∧
      (∀ other, .disconnected other ∉ deeds) ∧ Deed.NoSignal deeds
  | .checking => ∀ signal failure clock, .signalled call signal failure clock ∉ deeds
  | .terminating =>
    (∀ signal failure clock, .signalled call signal failure clock ∉ deeds) ∧
      deeds.getLast? = some (.looked call none)
  | .waiting =>
    (∀ failure clock, .signalled call .kill failure clock ∉ deeds) ∧
      (record = none → ∃ sent, List.Sublist
        [.began call (.close run.deadline), .signalled call .term none sent] deeds)
  | .killing =>
    (∀ failure clock, .signalled call .kill failure clock ∉ deeds) ∧
      ∃ deadline sent clock, deadline ≤ clock ∧
        List.Sublist [.began call (.close (some deadline)), .signalled call .term none sent,
          .waited call (some deadline) clock (.error .deadlineExceeded)] deeds
  | .reaping => .signalled call .kill none run.since ∈ deeds
  | .finished _ => False

structure Sound (x : HandleLife) : Prop where
  orderly : Deed.Orderly x.grace x.deeds
  /-- Calls to come have done nothing. -/
  fresh : ∀ deed ∈ x.deeds, ∀ call, deed.call? = some call → call < x.calls
  /-- The first close takes the channel. -/
  untouched : x.holdsChannel = true → ∀ call deadline, .began call (.close deadline) ∉ x.deeds
  alive : x.dropped = false → ∀ record sent, .dropped record sent ∉ x.deeds
  idle : x.dropped = true → x.now = none
  waiting : ∀ call limit, x.now = some (call, .wait limit) → .began call (.wait limit) ∈ x.deeds
  closing : ∀ call run, x.now = some (call, .close run) →
    x.holdsChannel = false ∧ .began call (.close run.deadline) ∈ x.deeds ∧
      Stage x.deeds x.record call run

variable {x x' : HandleLife} {call : Nat} {run : CloseRun} {deed : Deed} {reply : Reply}
  {answer : CloseAnswer} {deadline : Option Nat} {since : Nat}

theorem sound_start (grace : Nat) (holdsChannel : Bool) : (start grace holdsChannel).Sound := by
  refine ⟨.nil, ?_, ?_, ?_, ?_, ?_, ?_⟩ <;> simp [start]

/-! ## Going on -/

/-- Deeds of calls that have begun, each following on those before it. -/
structure Logged (grace calls : Nat) (log : List Deed) : Prop where
  orderly : Deed.Orderly grace log
  fresh : ∀ deed ∈ log, ∀ call, deed.call? = some call → call < calls
  alive : ∀ record sent, .dropped record sent ∉ log

theorem Logged.snoc {grace calls : Nat} {log : List Deed} (h : Logged grace calls log)
    (hmine : call < calls) (hcall : deed.call? = some call) (hcause : Deed.Cause grace log deed) :
    Logged grace calls (log ++ [deed]) := by
  refine ⟨.snoc h.orderly ⟨h.alive, hcause⟩, ?_, ?_⟩
  · intro d hd c hc
    rcases List.mem_append.mp hd with hd | hd
    · exact h.fresh d hd c hc
    · rw [List.mem_singleton.mp hd, hcall] at hc
      cases hc
      exact hmine
  · intro record sent hmem
    rcases List.mem_append.mp hmem with hmem | hmem
    · exact h.alive record sent hmem
    · rw [← List.mem_singleton.mp hmem] at hcall
      cases hcall

theorem Sound.live (h : x.Sound) {doing : Nat × Doing} (hnow : x.now = some doing) :
    x.dropped = false := by
  cases hdropped : x.dropped with
  | false => rfl
  | true =>
    have hnone := h.idle hdropped
    rw [hnow] at hnone
    cases hnone

theorem Sound.logged (h : x.Sound) (hlive : x.dropped = false) :
    Logged x.grace x.calls x.deeds := ⟨h.orderly, h.fresh, h.alive hlive⟩

/-- A handle is left without a call under way. -/
theorem sound_idle {log : List Deed} (h : x.Sound) (hlog : Logged x.grace x.calls log)
    (hcloses : ∀ c deadline, .began c (.close deadline) ∈ log →
      .began c (.close deadline) ∈ x.deeds) :
    ({ x with now := none, deeds := log } : HandleLife).Sound := by
  refine ⟨hlog.orderly, hlog.fresh, ?_, fun _ => hlog.alive, fun _ => rfl, ?_, ?_⟩
  · intro hheld c deadline hmem
    exact h.untouched hheld c deadline (hcloses c deadline hmem)
  · intro c limit hnone
    cases hnone
  · intro c r hnone
    cases hnone

/-! ## Stages of a close -/

/-- A close goes on: what it does is written down, and what it returns at its end. -/
theorem sound_settle (h : x.Sound) {before : CloseRun} (hnow : x.now = some (call, .close before))
    (hdeadline : run.deadline = before.deadline) (hcall : deed.call? = some call)
    (hnew : ∀ c asked, deed ≠ .began c asked) (hcause : Deed.Cause x.grace x.deeds deed)
    (hstage : (∀ result, run.closing ≠ .finished result) →
      Stage (x.deeds ++ [deed]) x.record call run)
    (hover : ∀ result, run.closing = .finished result →
      Deed.Cause x.grace (x.deeds ++ [deed]) (.returned call result)) :
    (x.settle call run deed).Sound := by
  obtain ⟨hheld, hbegan, -⟩ := h.closing call before hnow
  have hlive := h.live hnow
  have hmine : call < x.calls := h.fresh _ hbegan call rfl
  have hlog := (h.logged hlive).snoc hmine hcall hcause
  unfold settle
  split
  · rename_i result hend
    refine sound_idle h (hlog.snoc hmine rfl (hover result hend)) ?_
    intro c deadline hmem
    simp only [List.append_assoc, List.mem_append, List.mem_singleton] at hmem
    rcases hmem with hmem | hmem | hmem
    · exact hmem
    · exact absurd hmem.symm (hnew _ _)
    · cases hmem
  · rename_i hgoing
    refine ⟨hlog.orderly, hlog.fresh, ?_, fun _ => hlog.alive, ?_, ?_, ?_⟩
    · intro hholds
      exact absurd (hheld.symm.trans hholds) (by simp)
    · intro hdropped
      exact absurd (hlive.symm.trans hdropped) (by simp)
    · intro c limit hsome
      cases hsome
    · intro c r hsome
      cases hsome
      refine ⟨hheld, ?_, hstage hgoing⟩
      rw [hdeadline]
      exact List.mem_append_left _ hbegan

theorem notMem_snoc {log : List Deed} {d : Deed} (h : d ∉ log) (hne : d ≠ deed) :
    d ∉ log ++ [deed] := by
  rw [List.mem_append, List.mem_singleton, not_or]
  exact ⟨h, hne⟩

theorem onlyClose_snoc {log : List Deed} (h : Deed.OnlyClose call log)
    (hne : ∀ c asked, deed ≠ .began c asked) : Deed.OnlyClose call (log ++ [deed]) := by
  obtain ⟨⟨deadline, hbegan⟩, honly⟩ := h
  refine ⟨⟨deadline, List.mem_append_left _ hbegan⟩, ?_⟩
  intro other deadline hmem
  rcases List.mem_append.mp hmem with hmem | hmem
  · exact honly other deadline hmem
  · exact absurd (List.mem_singleton.mp hmem).symm (hne _ _)

theorem sound_quitting (h : x.Sound)
    (hnow : x.now = some (call, .close ⟨.quitting, deadline, since⟩))
    (hanswer : x.answer? call ⟨.quitting, deadline, since⟩ reply = some (answer, deed)) :
    (x.settle call (CloseRun.answer ⟨.quitting, deadline, since⟩ answer x.clock) deed).Sound := by
  obtain ⟨honly, hquit, hheld, hsilent⟩ := (h.closing _ _ hnow).2.2
  obtain ⟨outcome, rfl, rfl⟩ : ∃ outcome, answer = .done ∧ deed = .quit call outcome := by
    cases reply <;> cases hanswer
    exact ⟨_, rfl, rfl⟩
  refine sound_settle h hnow rfl rfl (by simp) ⟨honly, hquit, hheld, hsilent⟩ (fun _ => ?_) nofun
  refine ⟨onlyClose_snoc honly (by simp), ⟨outcome, by simp⟩, ?_, ?_⟩
  · intro other
    exact notMem_snoc (hheld other) (by simp)
  · intro c s f t
    exact notMem_snoc (hsilent c s f t) (by simp)

theorem sound_disconnecting (h : x.Sound)
    (hnow : x.now = some (call, .close ⟨.disconnecting, deadline, since⟩))
    (hanswer : x.answer? call ⟨.disconnecting, deadline, since⟩ reply = some (answer, deed)) :
    (x.settle call (CloseRun.answer ⟨.disconnecting, deadline, since⟩ answer x.clock)
      deed).Sound := by
  obtain ⟨honly, hquit, hheld, hsilent⟩ := (h.closing _ _ hnow).2.2
  obtain ⟨rfl, rfl⟩ : answer = .done ∧ deed = .disconnected call := by
    cases reply <;> cases hanswer
    exact ⟨rfl, rfl⟩
  refine sound_settle h hnow rfl rfl (by simp) ⟨honly, hquit, hheld, hsilent⟩ (fun _ => ?_) nofun
  intro s f t
  exact notMem_snoc (hsilent call s f t) (by simp)

theorem sound_checking (h : x.Sound)
    (hnow : x.now = some (call, .close ⟨.checking, deadline, since⟩))
    (hanswer : x.answer? call ⟨.checking, deadline, since⟩ reply = some (answer, deed)) :
    (x.settle call (CloseRun.answer ⟨.checking, deadline, since⟩ answer x.clock) deed).Sound := by
  obtain ⟨-, hbegan, hsilent⟩ := h.closing _ _ hnow
  obtain ⟨rfl, rfl⟩ : answer = .record x.record ∧ deed = .looked call x.record := by
    cases reply <;> cases hanswer
    exact ⟨rfl, rfl⟩
  have hsilent' : ∀ s f t, .signalled call s f t ∉ x.deeds ++ [.looked call x.record] :=
    fun s f t => notMem_snoc (hsilent s f t) (by simp)
  cases hrecord : x.record with
  | none =>
    rw [hrecord] at hsilent'
    refine sound_settle h hnow rfl rfl (by simp) ⟨_, hbegan⟩ (fun _ => ⟨hsilent', by simp⟩) nofun
  | some o =>
    rw [hrecord] at hsilent'
    refine sound_settle h hnow rfl rfl (by simp) ⟨_, hbegan⟩ (fun _ => ⟨hsilent' .kill, ?_⟩) nofun
    rw [hrecord]
    exact nofun

/-- A close that could not send a signal returns that, which is no passed deadline. -/
theorem cause_of_refused {log : List Deed} (hbegan : .began call (.close deadline) ∈ log)
    (errno : Errno) (grace : Nat) :
    Deed.Cause grace log (.returned call (.error (.signal errno))) := by
  refine ⟨⟨_, hbegan⟩, ?_⟩
  intro _ _ hlate
  cases hlate

theorem sound_terminating (h : x.Sound)
    (hnow : x.now = some (call, .close ⟨.terminating, deadline, since⟩))
    (hanswer : x.answer? call ⟨.terminating, deadline, since⟩ reply = some (answer, deed)) :
    (x.settle call (CloseRun.answer ⟨.terminating, deadline, since⟩ answer x.clock)
      deed).Sound := by
  obtain ⟨-, hbegan, hsilent, hlooked⟩ := h.closing _ _ hnow
  cases reply with
  | quit | own => cases hanswer
  | signal failure =>
    cases failure with
    | none =>
      cases hanswer
      refine sound_settle h hnow rfl rfl (by simp) ⟨⟨_, hbegan⟩, hlooked, hsilent .term⟩
        (fun _ => ?_) nofun
      refine ⟨fun f t => notMem_snoc (hsilent .kill f t) (by simp), fun _ => ⟨x.clock, ?_⟩⟩
      exact (List.singleton_sublist.mpr hbegan).append (.refl [_])
    | some e =>
      cases hanswer
      refine sound_settle h hnow rfl rfl (by simp) ⟨⟨_, hbegan⟩, hlooked, hsilent .term⟩ ?_ ?_
      · intro hgoing
        exact absurd rfl (hgoing _)
      · intro result hend
        cases hend
        exact cause_of_refused (List.mem_append_left _ hbegan) e x.grace

theorem sound_waiting (h : x.Sound)
    (hnow : x.now = some (call, .close ⟨.waiting, deadline, since⟩))
    (hanswer : x.answer? call ⟨.waiting, deadline, since⟩ reply = some (answer, deed)) :
    (x.settle call (CloseRun.answer ⟨.waiting, deadline, since⟩ answer x.clock) deed).Sound := by
  obtain ⟨-, hbegan, hspared, hsent⟩ := h.closing _ _ hnow
  cases reply with
  | quit | signal => cases hanswer
  | own =>
    obtain ⟨result, hwait, heq⟩ := Option.map_eq_some_iff.mp hanswer
    cases heq
    by_cases hlate : result = .error .deadlineExceeded
    · subst hlate
      obtain ⟨hrecord, d, rfl, hd⟩ := (Supervision.fair_of_wait hwait).patient rfl
      obtain ⟨sent, hsublist⟩ := hsent hrecord
      refine sound_settle h hnow rfl rfl (by simp) ⟨_, hbegan⟩ (fun _ => ?_) nofun
      refine ⟨fun f t => notMem_snoc (hspared f t) (by simp), d, sent, x.clock, hd, ?_⟩
      exact hsublist.append (.refl [_])
    · have hend : Closing.waiting.answer (.waited result) = .finished result := by
        cases result with
        | ok state => rfl
        | error e => cases e <;> first | rfl | exact absurd rfl hlate
      refine sound_settle h hnow rfl rfl (by simp) ⟨_, hbegan⟩ ?_ ?_
      · intro hgoing
        exact absurd hend (hgoing _)
      · intro result' hend'
        obtain rfl := Closing.finished.inj (hend.symm.trans hend')
        exact ⟨⟨_, List.mem_append_left _ hbegan⟩, fun _ _ heq => absurd heq hlate⟩

theorem sound_killing (h : x.Sound)
    (hnow : x.now = some (call, .close ⟨.killing, deadline, since⟩))
    (hanswer : x.answer? call ⟨.killing, deadline, since⟩ reply = some (answer, deed)) :
    (x.settle call (CloseRun.answer ⟨.killing, deadline, since⟩ answer x.clock) deed).Sound := by
  obtain ⟨-, hbegan, hspared, hlate⟩ := h.closing _ _ hnow
  cases reply with
  | quit | own => cases hanswer
  | signal failure =>
    cases failure with
    | none =>
      cases hanswer
      refine sound_settle h hnow rfl rfl (by simp) ⟨hlate, hspared⟩ (fun _ => ?_) nofun
      exact List.mem_append_right _ (List.mem_singleton.mpr rfl)
    | some e =>
      cases hanswer
      refine sound_settle h hnow rfl rfl (by simp) ⟨hlate, hspared⟩ ?_ ?_
      · intro hgoing
        exact absurd rfl (hgoing _)
      · intro result hend
        cases hend
        exact cause_of_refused (List.mem_append_left _ hbegan) e x.grace

theorem sound_reaping (h : x.Sound)
    (hnow : x.now = some (call, .close ⟨.reaping, deadline, since⟩))
    (hanswer : x.answer? call ⟨.reaping, deadline, since⟩ reply = some (answer, deed)) :
    (x.settle call (CloseRun.answer ⟨.reaping, deadline, since⟩ answer x.clock) deed).Sound := by
  obtain ⟨-, hbegan, hkilled⟩ := h.closing _ _ hnow
  cases reply with
  | quit | signal => cases hanswer
  | own =>
    obtain ⟨result, hwait, heq⟩ := Option.map_eq_some_iff.mp hanswer
    cases heq
    refine sound_settle h hnow rfl rfl (by simp) ⟨_, hbegan⟩ ?_ ?_
    · intro hgoing
      exact absurd rfl (hgoing _)
    · intro result' hend
      cases hend
      refine ⟨⟨_, List.mem_append_left _ hbegan⟩, ?_⟩
      rintro _ - rfl
      obtain ⟨-, d, hd, hle⟩ := (Supervision.fair_of_wait hwait).patient rfl
      cases hd
      exact ⟨since, x.clock, hle,
        (List.singleton_sublist.mpr hkilled).append (.refl [_])⟩

theorem sound_close (h : x.Sound) (hnow : x.now = some (call, .close run))
    (hanswer : x.answer? call run reply = some (answer, deed)) :
    (x.settle call (run.answer answer x.clock) deed).Sound := by
  obtain ⟨closing, deadline, since⟩ := run
  cases closing with
  | quitting => exact sound_quitting h hnow hanswer
  | disconnecting => exact sound_disconnecting h hnow hanswer
  | checking => exact sound_checking h hnow hanswer
  | terminating => exact sound_terminating h hnow hanswer
  | waiting => exact sound_waiting h hnow hanswer
  | killing => exact sound_killing h hnow hanswer
  | reaping => exact sound_reaping h hnow hanswer
  | finished result => cases hanswer

/-! ## Other moves -/

theorem stage_start (h : x.Sound) (deadline : Option Nat) :
    Stage (x.deeds ++ [.began x.calls (.close deadline)]) x.record x.calls
      (.start x.holdsChannel deadline x.clock) := by
  have hnew : ∀ d ∈ x.deeds, d.call? ≠ some x.calls := by
    intro d hd hcall
    exact absurd (h.fresh d hd x.calls hcall) (Nat.lt_irrefl _)
  cases hheld : x.holdsChannel with
  | false =>
    intro s f t hmem
    rcases List.mem_append.mp hmem with hmem | hmem
    · exact hnew _ hmem rfl
    · cases List.mem_singleton.mp hmem
  | true =>
    have hclosed := h.untouched hheld
    have hnone : ∀ d ∈ x.deeds, d.isAct ≠ true := by
      intro d hd hact
      obtain ⟨c, deadline, -, hbegan⟩ := h.orderly.close_of_act hd hact
      exact hclosed c deadline hbegan
    refine ⟨⟨⟨deadline, by simp⟩, ?_⟩, ?_, ?_, ?_⟩
    · intro other deadline' hmem
      rcases List.mem_append.mp hmem with hmem | hmem
      · exact absurd hmem (hclosed other deadline')
      · cases List.mem_singleton.mp hmem
        rfl
    · intro other outcome
      exact notMem_snoc (fun hmem => hnone _ hmem rfl) (by simp)
    · intro other
      exact notMem_snoc (fun hmem => hnone _ hmem rfl) (by simp)
    · intro c s f t
      exact notMem_snoc (fun hmem => hnone _ hmem rfl) (by simp)

theorem sound_begin (h : x.Sound) (hlive : x.dropped = false) (asked : Asked) :
    (x.begun asked).Sound := by
  have horderly : Deed.Orderly x.grace (x.deeds ++ [.began x.calls asked]) := by
    refine .snoc h.orderly ⟨h.alive hlive, ?_⟩
    intro other hmem
    exact absurd (h.fresh _ hmem x.calls rfl) (Nat.lt_irrefl _)
  have hfresh : ∀ d ∈ x.deeds ++ [.began x.calls asked], ∀ c, d.call? = some c →
      c < x.calls + 1 := by
    intro d hd c hc
    rcases List.mem_append.mp hd with hd | hd
    · exact Nat.lt_succ_of_lt (h.fresh d hd c hc)
    · cases List.mem_singleton.mp hd
      cases hc
      exact Nat.lt_succ_self _
  have halive : ∀ record sent, .dropped record sent ∉ x.deeds ++ [.began x.calls asked] :=
    fun record sent => notMem_snoc (h.alive hlive record sent) (by simp)
  cases asked with
  | wait deadline =>
    refine ⟨horderly, hfresh, ?_, fun _ => halive, ?_, ?_, ?_⟩
    · intro hheld c d
      exact notMem_snoc (h.untouched hheld c d) (by simp)
    · intro hdropped
      exact absurd (hlive.symm.trans hdropped) (by simp)
    · intro c limit hsome
      cases hsome
      exact List.mem_append_right _ (List.mem_singleton.mpr rfl)
    · intro c r hsome
      cases hsome
  | close deadline =>
    refine ⟨horderly, hfresh, ?_, fun _ => halive, ?_, ?_, ?_⟩
    · intro hheld
      cases hheld
    · intro hdropped
      exact absurd (hlive.symm.trans hdropped) (by simp)
    · intro c limit hsome
      cases hsome
    · intro c r hsome
      cases hsome
      exact ⟨rfl, List.mem_append_right _ (List.mem_singleton.mpr rfl), stage_start h deadline⟩

/-- The record only goes from unset to set, so a close that waits without having sent anything
still finds it set. -/
theorem sound_record (h : x.Sound) (outcome : Except Errno ExitState) :
    ({ x with record := x.record.write outcome } : HandleLife).Sound := by
  refine ⟨h.orderly, h.fresh, h.untouched, h.alive, h.idle, h.waiting, ?_⟩
  intro c r hsome
  obtain ⟨hheld, hbegan, hstage⟩ := h.closing c r hsome
  refine ⟨hheld, hbegan, ?_⟩
  unfold Stage at hstage ⊢
  cases hclosing : r.closing with
  | waiting =>
    rw [hclosing] at hstage
    refine ⟨hstage.1, ?_⟩
    intro hnone
    cases hrecord : x.record <;> simp [ExitRecord.write, hrecord] at hnone
  | _ =>
    rw [hclosing] at hstage
    exact hstage

theorem sound_poll (h : x.Sound) {limit : Option Nat} (result : Except ProcessError ExitState)
    (hnow : x.now = some (call, .wait limit)) :
    ({ x with
      now := none
      deeds := x.deeds ++ [.waited call limit x.clock result] ++ [.returned call result] } :
        HandleLife).Sound := by
  have hbegan := h.waiting call limit hnow
  have hmine : call < x.calls := h.fresh _ hbegan call rfl
  have hlog : Logged x.grace x.calls (x.deeds ++ [.waited call limit x.clock result]) :=
    (h.logged (h.live hnow)).snoc hmine rfl ⟨_, hbegan⟩
  have hbegan' := List.mem_append_left [Deed.waited call limit x.clock result] hbegan
  refine sound_idle h (hlog.snoc hmine rfl ⟨⟨_, hbegan'⟩, ?_⟩) ?_
  · intro deadline hclose
    cases hlog.orderly.began_unique hbegan' hclose
  · intro c deadline hmem
    simpa using hmem

theorem sound_reply (h : x.Sound) (hmove : x.next? (.reply reply) = some x') : x'.Sound := by
  simp only [next?] at hmove
  split at hmove
  · rename_i hnow
    obtain ⟨⟨answer, deed⟩, hanswer, rfl⟩ := Option.map_eq_some_iff.mp hmove
    exact sound_close h hnow hanswer
  · rename_i hnow
    obtain ⟨result, -, rfl⟩ := Option.map_eq_some_iff.mp hmove
    exact sound_poll h result hnow
  · cases hmove

theorem sound_drop (h : x.Sound) (hidle : x.now = none) (hlive : x.dropped = false) :
    ({ x with
      dropped := true
      deeds := x.deeds ++ [.dropped x.record (dropSignal? x.record)] } : HandleLife).Sound := by
  refine ⟨.snoc h.orderly ⟨h.alive hlive, ?_⟩, ?_, ?_, ?_, fun _ => hidle, ?_, ?_⟩
  · unfold Deed.Cause dropSignal?
    cases x.record <;> rfl
  · intro d hd c hc
    rcases List.mem_append.mp hd with hd | hd
    · exact h.fresh d hd c hc
    · cases List.mem_singleton.mp hd
      cases hc
  · intro hheld c deadline
    exact notMem_snoc (h.untouched hheld c deadline) (by simp)
  · intro hfalse
    cases hfalse
  · intro c limit hsome
    exact absurd (hidle.symm.trans hsome) (by simp)
  · intro c r hsome
    exact absurd (hidle.symm.trans hsome) (by simp)

theorem idle_of_guard (h : (x.now.isNone && !x.dropped) = true) :
    x.now = none ∧ x.dropped = false := by
  simpa using h

theorem sound_next {move : Move} (h : x.Sound) (hmove : x.next? move = some x') : x'.Sound := by
  cases move with
  | pass time =>
    cases hmove
    exact ⟨h.orderly, h.fresh, h.untouched, h.alive, h.idle, h.waiting, h.closing⟩
  | record outcome =>
    cases hmove
    exact sound_record h outcome
  | begin asked =>
    obtain ⟨hguard, heq⟩ := Option.ite_none_right_eq_some.mp hmove
    cases heq
    exact sound_begin h (idle_of_guard hguard).2 asked
  | reply reply => exact sound_reply h hmove
  | leave =>
    obtain ⟨doing, hnow, rfl⟩ := Option.map_eq_some_iff.mp hmove
    exact sound_idle h (h.logged (h.live hnow)) fun _ _ hmem => hmem
  | drop =>
    obtain ⟨hguard, heq⟩ := Option.ite_none_right_eq_some.mp hmove
    cases heq
    obtain ⟨hidle, hlive⟩ := idle_of_guard hguard
    exact sound_drop h hidle hlive

theorem sound_run (moves : List Move) (h : x.Sound) (hrun : x.run? moves = some x') :
    x'.Sound := by
  induction moves generalizing x with
  | nil =>
    cases hrun
    exact h
  | cons move moves ih =>
    obtain ⟨u, hmove, hrest⟩ := Option.bind_eq_some_iff.mp hrun
    exact ih (sound_next h hmove) hrest

theorem next?_grace {move : Move} (hmove : x.next? move = some x') : x'.grace = x.grace := by
  cases move with
  | begin asked =>
    obtain ⟨-, heq⟩ := Option.ite_none_right_eq_some.mp hmove
    cases heq
    cases asked <;> rfl
  | reply reply =>
    simp only [next?] at hmove
    split at hmove
    · obtain ⟨_, -, rfl⟩ := Option.map_eq_some_iff.mp hmove
      unfold settle
      split <;> rfl
    · obtain ⟨_, -, rfl⟩ := Option.map_eq_some_iff.mp hmove
      rfl
    · cases hmove
  | leave =>
    obtain ⟨_, -, rfl⟩ := Option.map_eq_some_iff.mp hmove
    rfl
  | drop =>
    obtain ⟨-, heq⟩ := Option.ite_none_right_eq_some.mp hmove
    cases heq
    rfl
  | _ =>
    cases hmove
    rfl

theorem run?_grace (moves : List Move) (hrun : x.run? moves = some x') : x'.grace = x.grace := by
  induction moves generalizing x with
  | nil =>
    cases hrun
    rfl
  | cons move moves ih =>
    obtain ⟨u, hmove, hrest⟩ := Option.bind_eq_some_iff.mp hrun
    exact (ih hrest).trans (next?_grace hmove)

/-! ## On a machine -/

/-- What a deed does to the machine of the handle. -/
def effect (m : Machine) (pid : Nat) : Deed → Machine
  | .signalled _ signal none _ | .dropped _ (some signal) => m.signal pid signal
  | _ => m

/-- A machine goes on with a close by a reply, and does to itself what the deed says. -/
theorem a_machine_closes_by_replies {m m' : Machine} {h : Handle} {run' : CloseRun}
    (hnow : x.now = some (call, .close run)) (hrecord : x.record = h.exit)
    (hclock : x.clock = m.clock) (hgrace : x.grace = h.killGrace.toMillis)
    (hstep : m.closeStep? h run = some (run', m')) :
    ∃ reply deed, x.next? (.reply reply) = some (x.settle call run' deed) ∧
      m' = effect m h.pid deed := by
  have hnext : ∀ reply, x.next? (.reply reply) =
      (x.answer? call run reply).map fun (answer, deed) =>
        x.settle call (run.answer answer m.clock) deed := by
    intro reply
    simp [next?, hnow, hclock]
  obtain ⟨closing, deadline, since⟩ := run
  cases closing with
  | quitting =>
    cases hstep
    exact ⟨.quit .sent, _, hnext _, rfl⟩
  | disconnecting =>
    cases hstep
    exact ⟨.own, _, hnext _, rfl⟩
  | checking =>
    cases hstep
    exact ⟨.own, _, by rw [hnext, ← hrecord]; rfl, rfl⟩
  | terminating | killing =>
    cases hstep
    exact ⟨.signal none, _, hnext _, rfl⟩
  | waiting | reaping =>
    obtain ⟨result, hwait, heq⟩ := Option.map_eq_some_iff.mp hstep
    cases heq
    rw [← hrecord, ← hclock, ← hgrace] at hwait
    exact ⟨.own, _, by rw [hnext]; simp only [answer?, Closing.request?, hwait]; rfl, rfl⟩
  | finished result => cases hstep

/-- A machine drops a handle by the deed of dropping it. -/
theorem a_machine_drops_as_the_deed_says (m : Machine) (h : Handle) :
    m.dropHandle h = effect m h.pid (.dropped h.exit (dropSignal? h.exit)) := by
  unfold Machine.dropHandle dropSignal?
  cases h.exit <;> rfl

/-! ## The law -/

/-- Over its whole life, whatever comes back to it and whenever the end is recorded, a handle does
nothing before what must come first: one quit and one closing of the channel, in the first close
and before any signal; SIGTERM after no end was found; SIGKILL after SIGTERM was sent and the
deadline passed; a passed deadline reported after SIGKILL and the grace period. A wait sends
nothing, and a drop sends SIGKILL exactly when no end is recorded. -/
theorem each_deed_of_a_handle_has_its_cause (grace : Nat) (holdsChannel : Bool)
    (moves : List Move) (x : HandleLife) (hrun : (start grace holdsChannel).run? moves = some x) :
    (∀ before deed after, x.deeds = before ++ deed :: after → Deed.Follows grace before deed) ∧
      ∀ call deadline deed, .began call (.wait deadline) ∈ x.deeds → deed ∈ x.deeds →
        deed.call? = some call → deed.isAct = false := by
  have h := sound_run moves (sound_start grace holdsChannel) hrun
  have hgrace : x.grace = grace := run?_grace moves hrun
  rw [← hgrace]
  constructor
  · intro before deed after
    exact h.orderly.follows
  · intro call deadline deed
    exact h.orderly.quiet_of_wait

/-- A process outlives the deadline, 5, and the grace period, 7; quit could not be sent in time. -/
def outlived : List Move :=
  List.flatten [
    [.begin (.close (some 5)), .reply (.quit .late), .reply .own, .reply .own],
    [.reply (.signal none), .pass 5, .reply .own, .reply (.signal none), .pass 7, .reply .own],
    [.begin (.wait (some 0)), .reply .own, .drop]]

/-- The signal that was sent by a deed. -/
def sent? : Deed → Option Signal
  | .signalled _ signal none _ => some signal
  | .dropped _ signal => signal
  | _ => none

theorem an_outlived_close_kills :
    ∃ x, (start 7 true).run? outlived = some x ∧
      x.deeds.filterMap sent? = [.term, .kill, .kill] ∧
      (∀ before deed after, x.deeds = before ++ deed :: after → Deed.Follows 7 before deed) ∧
      ∀ call deadline deed, .began call (.wait deadline) ∈ x.deeds → deed ∈ x.deeds →
        deed.call? = some call → deed.isAct = false :=
  ⟨_, rfl, rfl, each_deed_of_a_handle_has_its_cause 7 true outlived _ rfl⟩

end HandleLife
end ProcessTree
