-- What a deadline bounds. A call that takes one can go on by itself once it has
-- passed, wherever it waits, whatever the peer does and whoever else calls, but
-- for three places: a start call waits for its turn, and for a job to be sent
-- its begin, as long as that takes; and so does the close of a job for quit.
import ProcessTree.Proofs.Job.Use
import ProcessTree.Proofs.Process.Escalation
import ProcessTree.Proofs.Worker.Desk
import ProcessTree.Root.Job
import ProcessTree.Root.Worker

namespace ProcessTree

/-! ## The end of a process -/

/-- Whoever waits for the end of a process is told something once the deadline has passed. -/
def Supervision.Prompt (x : Supervision) : Prop :=
  ∀ i d, x.waits[i]? = some (some d) → d ≤ x.machine.clock → (x.next? (.poll i)).isSome

theorem Supervision.prompt (x : Supervision) : x.Prompt := by
  intro i d hwaits hlate
  cases hexit : x.handle.exit <;> simp [next?, hwaits, hexit, ExitRecord.wait, hlate]

namespace HandleLife

/-- Whether a close goes on by it without anybody else: sending quit has taken until its limit, a
signal is sent or refused, or it takes nobody else. -/
def isOwn (x : HandleLife) (run : CloseRun) : Reply → Bool
  | .quit .late => run.isExpired x.grace x.clock
  | .quit _ => false
  | .signal _ | .own => true

/-- Whether a close has not sent SIGKILL yet. -/
def isBeforeKill : Closing → Bool
  | .reaping | .finished _ => false
  | _ => true

/-- Up to its SIGKILL a close whose deadline has passed can go on by itself. -/
def Prompt (x : HandleLife) : Prop :=
  ∀ call run d, x.now = some (call, .close run) → run.deadline = some d → d ≤ x.clock →
    isBeforeKill run.closing = true →
      ∃ reply, x.isOwn run reply = true ∧ (x.next? (.reply reply)).isSome

theorem prompt (x : HandleLife) : x.Prompt := by
  rintro call ⟨closing, deadline, since⟩ d hnow rfl hlate hbefore
  have hnext : ∀ reply, (x.next? (.reply reply)).isSome =
      (x.answer? call ⟨closing, some d, since⟩ reply).isSome := by
    intro reply
    simp [next?, hnow]
  simp only [hnext]
  cases closing with
  | quitting =>
    have hexpired : CloseRun.isExpired ⟨.quitting, some d, since⟩ x.grace x.clock = true := by
      simp [CloseRun.isExpired, CloseRun.limit?, Closing.request?, Limit.time, hlate]
    exact ⟨.quit .late, hexpired, rfl⟩
  | disconnecting | checking => exact ⟨.own, rfl, rfl⟩
  | terminating | killing => exact ⟨.signal none, rfl, rfl⟩
  | waiting =>
    refine ⟨.own, rfl, ?_⟩
    cases hrecord : x.record <;>
      simp [answer?, Closing.request?, hrecord, ExitRecord.wait, CloseRun.isExpired,
        CloseRun.limit?, Limit.time, hlate]
  | reaping | finished => cases hbefore

end HandleLife

/-! ## Start calls -/

/-- The calls at a worker, with their deadlines. -/
structure TimedDesk where
  desk : Desk
  /-- The channel to the worker. -/
  line : Line ControlMessage
  clock : Nat
  /-- The deadlines of the calls that wait for their turn, in their order. -/
  limits : List (Option Nat)
  /-- The deadline of the call that has its turn. -/
  limit : Option Nat

/-- Where a start call waits. -/
inductive StartPlace where
  /-- As one of those who wait for their turn. -/
  | line (i : Nat)
  | turn

namespace TimedDesk

inductive Move where
  | pass (time : Nat)
  | call (identity : JobIdentity) (deadline : Option Nat)
  | leave (i : Nat)
  | grant (i : Nat)
  /-- The call that has its turn comes to its deadline. -/
  | expire
  /-- What else happens to the call that has its turn. -/
  | turn (move : Desk.Move)
  | receive (received : Except ChannelError ReplyMessage)

/-- Nobody has called yet. -/
def start : TimedDesk := ⟨.start, .start Direction.rootToWorker.registry, 0, [], none⟩

/-- Whether it is a move of the call that has its turn, its deadline apart. -/
def isTurn : Desk.Move → Bool
  | .drop | .post | .write _ | .settle _ => true
  | .call _ | .leave _ | .grant _ | .expire => false

/-- What a move of the calls leads to. -/
def step? (t : TimedDesk) (move : Desk.Move) : Option TimedDesk :=
  (t.desk.next? t.line move).map fun (desk, line) => { t with desk, line }

/-- What a move leads to, where it is possible. -/
def next? (t : TimedDesk) : Move → Option TimedDesk
  | .pass time => some { t with clock := t.clock + time }
  | .call identity deadline =>
    (t.step? (.call identity)).map fun t' => { t' with limits := t.limits ++ [deadline] }
  | .leave i => (t.step? (.leave i)).map fun t' => { t' with limits := t.limits.eraseIdx i }
  | .grant i =>
    (t.step? (.grant i)).map fun t' =>
      { t' with limits := t.limits.eraseIdx i, limit := t.limits[i]?.join }
  | .expire => if t.limit.any (· ≤ t.clock) then t.step? .expire else none
  | .turn move => if isTurn move then t.step? move else none
  | .receive received => (t.desk.receive? received).map fun desk => { t with desk }

/-- A row of moves. -/
def run? (t : TimedDesk) : List Move → Option TimedDesk
  | [] => some t
  | move :: moves => (t.next? move).bind fun t' => t'.run? moves

/-- The deadline of the call at a place. -/
def limitAt (t : TimedDesk) : StartPlace → Option Nat
  | .line i => t.limits[i]?.join
  | .turn => if t.desk.holder.isSome then t.limit else none

/-- Whether the call at a place does it by itself: it takes its turn, comes to its deadline, begins
to send, fetches a descriptor or connects. What a write call comes to, and what is received, is up
to others. -/
def own : StartPlace → Move → Bool
  | .line i, .grant j => i == j
  | .turn, .expire | .turn, .turn .post => true
  | .turn, .turn (.settle (.fetched _)) | .turn, .turn (.settle (.connected _)) => true
  | _, _ => false

/-- A place without a limit: a call waits for its turn, which another one has; or it sends the new
job its begin. -/
def Unlimited (t : TimedDesk) : StartPlace → Prop
  | .line _ => t.desk.holder ≠ none
  | .turn => ∃ h reply, t.desk.holder = some h ∧ h.call = .greeting reply

/-- Past its deadline a call can go on by itself, but where it has no limit. -/
def Prompt (t : TimedDesk) : Prop :=
  ∀ place d, t.limitAt place = some d → d ≤ t.clock →
    ((∃ move, own place move = true ∧ (t.next? move).isSome) ↔ ¬ t.Unlimited place)

/-! ### The invariant -/

/-- The call that has its turn, if any, is under way. -/
def UnderWay (d : Desk) : Prop :=
  ∀ h, d.holder = some h → h.call ≠ .locking ∧ ∀ result, h.call ≠ .finished result

/-- The deadlines of those who wait are told, and the call that has its turn is under way. -/
structure Sound (t : TimedDesk) : Prop where
  limits : t.limits.length = t.desk.waiting.length
  holder : UnderWay t.desk

variable {t t' : TimedDesk} {d d' : Desk} {h : Caller} {a : StartAnswer}
  {line line' : Line ControlMessage}

theorem next_ne_locking (o : Outstanding) : (StartCall.next o).2 ≠ .locking := by
  unfold StartCall.next
  split <;> simp

theorem take_ne_locking (o : Outstanding) (reply : StartResult) :
    (StartCall.take o reply).2 ≠ .locking := by
  unfold StartCall.take StartCall.fail
  split <;> simp

/-- A call that has its turn does not wait for it again. -/
theorem answer_ne_locking (o : Outstanding) {call : StartCall}
    (hcall : call ≠ .locking ∨ a = .granted) : (call.answer o a).2 ≠ .locking := by
  cases call with
  | locking =>
    obtain rfl : a = .granted := hcall.resolve_left (fun hne => hne rfl)
    simp only [StartCall.answer]
    split
    · simp [StartCall.fail]
    · exact next_ne_locking o
  | draining =>
    cases a with
    | received r =>
      cases r with
      | ok _ => exact next_ne_locking _
      | error e => simp [StartCall.answer, StartCall.fail]
    | _ => simp [StartCall.answer, StartCall.fail]
  | awaiting =>
    cases a with
    | received r =>
      cases r with
      | ok reply => exact take_ne_locking _ _
      | error e => simp [StartCall.answer, StartCall.fail]
    | _ => simp [StartCall.answer, StartCall.fail]
  | sending | greeting =>
    cases a with
    | sent r => cases r <;> simp [StartCall.answer, StartCall.fail]
    | _ => simp [StartCall.answer, StartCall.fail]
  | fetchingWrite | fetchingRead =>
    cases a with
    | fetched r => cases r <;> simp [StartCall.answer, StartCall.fail]
    | _ => simp [StartCall.answer]
  | connecting =>
    cases a with
    | connected r => cases r <;> simp [StartCall.answer, StartCall.fail]
    | _ => simp [StartCall.answer]
  | finished => simp [StartCall.answer]

theorem waiting_advance (d : Desk) (h : Caller) (a : StartAnswer) :
    (d.advance h a).waiting = d.waiting := by
  cases hanswer : h.call.answer d.outstanding a with
  | mk o call =>
    cases call with
    | finished result => rw [Desk.advance_of_finished hanswer]
    | _ => rw [Desk.advance_of_going hanswer (by simp)]

/-- A call that goes on is under way, or gives its turn back. -/
theorem underWay_advance (hcall : h.call ≠ .locking ∨ a = .granted) :
    UnderWay (d.advance h a) := by
  intro h' hholder
  have hne := answer_ne_locking d.outstanding hcall
  cases hanswer : h.call.answer d.outstanding a with
  | mk o call =>
    rw [hanswer] at hne
    by_cases hend : ∃ result, call = .finished result
    · obtain ⟨result, rfl⟩ := hend
      rw [Desk.advance_of_finished hanswer] at hholder
      cases hholder
    · have hgoing : ∀ result, call ≠ .finished result := fun result heq => hend ⟨result, heq⟩
      rw [Desk.advance_of_going hanswer hgoing] at hholder
      cases hholder
      exact ⟨hne, hgoing⟩

/-- Nothing that happens to the call that has its turn changes who waits for it. -/
theorem underWay_turn {move : Desk.Move} (hd : UnderWay d)
    (hturn : isTurn move = true ∨ move = .expire)
    (hmove : d.next? line move = some (d', line')) :
    d'.waiting = d.waiting ∧ UnderWay d' := by
  cases move with
  | call | leave | grant => simp [isTurn] at hturn
  | drop =>
    obtain ⟨rfl, -⟩ := Desk.next?_drop_eq_some hmove
    exact ⟨rfl, by simp [UnderWay]⟩
  | expire =>
    obtain ⟨h, hholder, rfl, -⟩ := Desk.next?_expire_eq_some hmove
    exact ⟨waiting_advance d h _, underWay_advance (Or.inl (hd h hholder).1)⟩
  | post =>
    obtain ⟨h, answer, hholder, -, -, rfl⟩ := Desk.next?_post_eq_some hmove
    cases answer with
    | none => exact ⟨rfl, hd⟩
    | some e => exact ⟨waiting_advance d h _, underWay_advance (Or.inl (hd h hholder).1)⟩
  | write outcome =>
    obtain ⟨h, answer, hholder, -, rfl⟩ := Desk.next?_write_eq_some hmove
    rcases answer with _ | ⟨e | _⟩
    · exact ⟨rfl, hd⟩
    · exact ⟨waiting_advance d h _, underWay_advance (Or.inl (hd h hholder).1)⟩
    · exact ⟨waiting_advance _ _ _, underWay_advance (Or.inl (hd h hholder).1)⟩
  | settle answer =>
    obtain ⟨h, request, hholder, -, -, rfl, -⟩ := Desk.next?_settle_eq_some hmove
    exact ⟨waiting_advance d h _, underWay_advance (Or.inl (hd h hholder).1)⟩

theorem underWay_receive {received : Except ChannelError ReplyMessage} (hd : UnderWay d)
    (hmove : d.receive? received = some d') : d'.waiting = d.waiting ∧ UnderWay d' := by
  obtain ⟨h, hholder, hcases⟩ := Desk.receive?_eq_some hmove
  have hcall : h.call ≠ .locking := (hd h hholder).1
  rcases hcases with ⟨reply, -, -, rfl⟩ | ⟨reply, -, -, rfl⟩ | ⟨e, -, -, rfl⟩
  · exact ⟨waiting_advance _ h _, underWay_advance (Or.inl hcall)⟩
  · exact ⟨waiting_advance _ h _, underWay_advance (Or.inl hcall)⟩
  · exact ⟨waiting_advance d h _, underWay_advance (Or.inl hcall)⟩

theorem step?_eq_some {move : Desk.Move} (hmove : t.step? move = some t') :
    ∃ d line, t.desk.next? t.line move = some (d, line) ∧ t' = { t with desk := d, line } := by
  obtain ⟨⟨d, line⟩, hnext, rfl⟩ := Option.map_eq_some_iff.mp hmove
  exact ⟨d, line, hnext, rfl⟩

theorem map_step?_eq_some {move : Desk.Move} {f : TimedDesk → TimedDesk}
    (hmove : (t.step? move).map f = some t') :
    ∃ d line, t.desk.next? t.line move = some (d, line) ∧ t' = f { t with desk := d, line } := by
  obtain ⟨u, hstep, rfl⟩ := Option.map_eq_some_iff.mp hmove
  obtain ⟨d, line, hnext, rfl⟩ := step?_eq_some hstep
  exact ⟨d, line, hnext, rfl⟩

/-- Those who wait still do, each with its deadline. -/
theorem sound_turned (ht : t.Sound) (hd : d.waiting = t.desk.waiting ∧ UnderWay d)
    (line : Line ControlMessage) : ({ t with desk := d, line } : TimedDesk).Sound :=
  ⟨ht.limits.trans (congrArg List.length hd.1.symm), hd.2⟩

theorem sound_start : start.Sound := ⟨rfl, by simp [UnderWay, start, Desk.start]⟩

theorem sound_next {move : Move} (ht : t.Sound) (hmove : t.next? move = some t') : t'.Sound := by
  cases move with
  | pass time =>
    cases hmove
    exact ⟨ht.limits, ht.holder⟩
  | call identity deadline =>
    simp only [next?] at hmove
    obtain ⟨d, line, hnext, rfl⟩ := map_step?_eq_some hmove
    cases hnext
    exact ⟨by simp [ht.limits], ht.holder⟩
  | leave i =>
    simp only [next?] at hmove
    obtain ⟨d, line, hnext, rfl⟩ := map_step?_eq_some hmove
    cases hnext
    exact ⟨by simp [List.length_eraseIdx, ht.limits], ht.holder⟩
  | grant i =>
    simp only [next?] at hmove
    obtain ⟨d, line, hnext, rfl⟩ := map_step?_eq_some hmove
    obtain ⟨identity, -, -, rfl⟩ := Desk.next?_grant_eq_some hnext
    refine ⟨?_, underWay_advance (Or.inr rfl)⟩
    simp only [waiting_advance]
    simp [List.length_eraseIdx, ht.limits]
  | expire =>
    obtain ⟨-, hstep⟩ := Option.ite_none_right_eq_some.mp hmove
    obtain ⟨d, line, hnext, rfl⟩ := step?_eq_some hstep
    exact sound_turned ht (underWay_turn ht.holder (Or.inr rfl) hnext) line
  | turn move =>
    obtain ⟨hturn, hstep⟩ := Option.ite_none_right_eq_some.mp hmove
    obtain ⟨d, line, hnext, rfl⟩ := step?_eq_some hstep
    exact sound_turned ht (underWay_turn ht.holder (Or.inl hturn) hnext) line
  | receive received =>
    obtain ⟨d, hreceive, rfl⟩ := Option.map_eq_some_iff.mp hmove
    exact sound_turned ht (underWay_receive ht.holder hreceive) t.line

theorem sound_run (moves : List Move) (ht : t.Sound) (hrun : t.run? moves = some t') :
    t'.Sound := by
  induction moves generalizing t with
  | nil =>
    cases hrun
    exact ht
  | cons move moves ih =>
    obtain ⟨u, hmove, hrest⟩ := Option.bind_eq_some_iff.mp hrun
    exact ih (sound_next ht hmove) hrest

/-! ### Going on -/

/-- Those who wait take the turn as soon as nobody has it. -/
theorem Sound.prompt_line (ht : t.Sound) {i limit : Nat}
    (hlimit : t.limitAt (.line i) = some limit) :
    (∃ move, own (.line i) move = true ∧ (t.next? move).isSome) ↔ t.desk.holder = none := by
  constructor
  · rintro ⟨move, hown, hsome⟩
    obtain ⟨t', hmove⟩ := Option.isSome_iff_exists.mp hsome
    cases move with
    | grant j =>
      simp only [next?] at hmove
      obtain ⟨d, line, hnext, -⟩ := map_step?_eq_some hmove
      obtain ⟨identity, hfree, -⟩ := Desk.next?_grant_eq_some hnext
      exact hfree
    | _ => cases hown
  · intro hfree
    refine ⟨.grant i, by simp [own], ?_⟩
    have hlt : i < t.desk.waiting.length := by
      rw [← ht.limits]
      by_contra hge
      simp [limitAt, List.getElem?_eq_none (Nat.le_of_not_lt hge)] at hlimit
    simp [next?, step?, Desk.next?, hfree, List.getElem?_eq_getElem hlt]

/-- A call that sends a job its begin does nothing by itself, whatever its deadline. -/
theorem not_own_of_greeting {reply : StartResult} (hholder : t.desk.holder = some h)
    (hcall : h.call = .greeting reply) {move : Move} (hown : own .turn move = true) :
    t.next? move = none := by
  obtain ⟨identity, call, place⟩ := h
  cases hcall
  cases move with
  | expire => simp [next?, step?, Desk.next?, hholder]
  | turn move =>
    cases move with
    | post => simp [next?, step?, Desk.next?, hholder]
    | settle answer =>
      cases answer with
      | fetched | connected =>
        simp [next?, step?, Desk.next?, hholder, StartCall.request?, Desk.settles]
      | _ => cases hown
    | _ => cases hown
  | _ => cases hown

/-- The call that has its turn goes on by itself past its deadline, unless it sends a job its
begin. -/
theorem Sound.prompt_turn (ht : t.Sound) {limit : Nat} (hlimit : t.limitAt .turn = some limit)
    (hlate : limit ≤ t.clock) :
    (∃ move, own .turn move = true ∧ (t.next? move).isSome) ↔ ¬ t.Unlimited .turn := by
  unfold limitAt at hlimit
  obtain ⟨hhas, hlimit⟩ := Option.ite_none_right_eq_some.mp hlimit
  obtain ⟨h, hholder⟩ := Option.isSome_iff_exists.mp hhas
  constructor
  · rintro ⟨move, hown, hsome⟩ ⟨h', reply, hholder', hcall⟩
    rw [not_own_of_greeting hholder' hcall hown] at hsome
    cases hsome
  · intro hnot
    obtain ⟨hlocking, hfinished⟩ := ht.holder h hholder
    obtain ⟨identity, call, place⟩ := h
    cases call with
    | locking => exact absurd rfl hlocking
    | finished result => exact absurd rfl (hfinished result)
    | greeting reply => exact absurd ⟨_, reply, hholder, rfl⟩ hnot
    | draining | sending | awaiting =>
      refine ⟨.expire, rfl, ?_⟩
      simp [next?, step?, Desk.next?, hlimit, hlate, hholder]
    | fetchingWrite | fetchingRead =>
      refine ⟨.turn (.settle (.fetched (.ok ()))), rfl, ?_⟩
      simp [next?, isTurn, step?, Desk.next?, hholder, StartCall.request?, Desk.settles]
    | connecting =>
      refine ⟨.turn (.settle (.connected (.ok ()))), rfl, ?_⟩
      simp [next?, isTurn, step?, Desk.next?, hholder, StartCall.request?, Desk.settles]

theorem Sound.prompt (ht : t.Sound) : t.Prompt := by
  intro place limit hlimit hlate
  cases place with
  | line i =>
    rw [ht.prompt_line hlimit]
    simp [Unlimited]
  | turn => exact ht.prompt_turn hlimit hlate

end TimedDesk

/-! ## Jobs -/

/-- On a free line a send begins at once, or is refused. -/
theorem Line.send?_isSome_of_free {M : Type} [Message M] {line : Line M}
    (hfree : line.current = none) (m : M) : (line.send? m).isSome := by
  unfold send?
  cases line.outbound.begin m <;> simp [hfree]

namespace JobUse

/-- The deadline of the call at a place. -/
def limitAt (x : JobUse) (place : JobPlace) : Option Nat :=
  match x.users, place with
  | .closing _ deadline _, .close => deadline
  | users, place => users.deadline? place

/-- Whether the call at a place does it by itself: it takes its turn, comes to its deadline, begins
to send quit, receives what is there, or releases the channel. -/
def own : JobPlace → Move → Bool
  | .line i, .grant j | .line i, .expire (.line j) => i == j
  | .receiver, .receive | .receiver, .expire .receiver => true
  | .close, .quit | .close, .receive | .close, .expire .close | .close, .release => true
  | _, _ => false

/-- The place without a limit: the quit of a close is being written. -/
def Unlimited (x : JobUse) (place : JobPlace) : Prop :=
  place = .close ∧ (∃ call deadline, x.users = .closing call deadline .quitting) ∧
    x.line.current ≠ none

/-- Past its deadline a call can go on by itself, but where it has no limit. -/
def Prompt (x : JobUse) : Prop :=
  ∀ place d, x.limitAt place = some d → d ≤ x.clock →
    ((∃ move, own place move = true ∧ (x.next? move).isSome) ↔ ¬ x.Unlimited place)

variable {x : JobUse} {call limit : Nat} {deadline : Option Nat} {s : JobSharers}

theorem Sound.prompt_close (h : x.Sound) {stage : JobClosing}
    (husers : x.users = .closing call deadline stage) (hlimit : deadline = some limit)
    (hlate : limit ≤ x.clock) :
    (∃ move, own .close move = true ∧ (x.next? move).isSome) ↔ ¬ x.Unlimited .close := by
  have hstage := h.underway
  rw [husers] at hstage
  cases stage with
  | finished result => exact hstage.elim
  | releasing result =>
    have hnot : ¬ x.Unlimited .close := by simp [Unlimited, husers]
    simp only [hnot, not_false_eq_true, iff_true]
    exact ⟨.release, rfl, by simp [next?, release?, husers, JobClosing.request?, JobClosing.answer]⟩
  | ending =>
    have hnot : ¬ x.Unlimited .close := by simp [Unlimited, husers]
    simp only [hnot, not_false_eq_true, iff_true]
    cases hrecv : x.inbound.recv? with
    | some received => exact ⟨.receive, rfl, by simp [next?, receive?, hrecv, husers]⟩
    | none =>
      exact ⟨.expire .close, rfl,
        by simp [next?, expire?, hrecv, husers, JobUsers.deadline?, hlimit, hlate]⟩
  | quitting =>
    cases hcurrent : x.line.current with
    | none =>
      have hnot : ¬ x.Unlimited .close := by simp [Unlimited, hcurrent]
      simp only [hnot, not_false_eq_true, iff_true]
      obtain ⟨⟨answer, line⟩, hsend⟩ :=
        Option.isSome_iff_exists.mp (Line.send?_isSome_of_free hcurrent ControlMessage.quit)
      exact ⟨.quit, rfl, by cases answer <;> simp [next?, quit?, husers, hcurrent, hsend]⟩
    | some current =>
      have hyes : x.Unlimited .close := ⟨rfl, ⟨call, deadline, husers⟩, by simp [hcurrent]⟩
      simp only [hyes, not_true_eq_false, iff_false]
      rintro ⟨move, hown, hsome⟩
      cases move with
      | quit => simp [next?, quit?, husers, hcurrent] at hsome
      | receive => cases hrecv : x.inbound.recv? <;> simp [next?, receive?, husers, hrecv] at hsome
      | release => simp [next?, release?, husers, JobClosing.request?] at hsome
      | expire place =>
        cases place with
        | close => simp [next?, expire?, husers, JobUsers.deadline?] at hsome
        | _ => cases hown
      | _ => cases hown

theorem prompt_sharing (husers : x.users = .sharing s) {place : JobPlace}
    (hlimit : (JobUsers.sharing s).deadline? place = some limit) (hlate : limit ≤ x.clock) :
    (∃ move, own place move = true ∧ (x.next? move).isSome) ↔ ¬ x.Unlimited place := by
  have hnot : ¬ x.Unlimited place := by simp [Unlimited, husers]
  simp only [hnot, not_false_eq_true, iff_true]
  cases place with
  | line i =>
    obtain ⟨⟨waiter, deadline⟩, hget, hdeadline⟩ := Option.bind_eq_some_iff.mp hlimit
    cases hdeadline
    exact ⟨.expire (.line i), by simp [own],
      by simp [next?, expire?, husers, JobUsers.deadline?, hget, hlate]⟩
  | receiver =>
    obtain ⟨⟨waiter, deadline⟩, hget, hdeadline⟩ := Option.bind_eq_some_iff.mp hlimit
    cases hdeadline
    cases hrecv : x.inbound.recv? with
    | some received => exact ⟨.receive, rfl, by simp [next?, receive?, hrecv, husers, hget]⟩
    | none =>
      exact ⟨.expire .receiver, rfl,
        by simp [next?, expire?, husers, JobUsers.deadline?, hget, hlate, hrecv]⟩
  | _ => cases hlimit

theorem Sound.prompt (h : x.Sound) : x.Prompt := by
  intro place limit hlimit hlate
  cases husers : x.users with
  | sharing s =>
    refine prompt_sharing husers ?_ hlate
    simpa [limitAt, husers] using hlimit
  | closing call deadline stage =>
    cases place with
    | close =>
      refine h.prompt_close husers ?_ hlate
      simpa [limitAt, husers] using hlimit
    | _ => simp [limitAt, husers, JobUsers.deadline?] at hlimit

end JobUse

/-! ## On a root -/

namespace Machine

variable {m : Machine} {pid : Nat}

theorem clock_write (m : Machine) (pid : Nat) (fd : Int) (offered : Bytes) :
    (m.write pid fd offered).2.clock = m.clock := by
  unfold write
  split
  · rfl
  · rfl
  · rfl
  · split
    · rfl
    · split
      · rfl
      · split <;> rfl

theorem clock_finishWriter {In : Type} {m' : Machine} {c c' : Channel In} {e : ChannelError}
    (h : m.finishWriter pid c e = (c', m')) : m'.clock = m.clock := by
  cases h
  rfl

theorem clock_push {In : Type} (m : Machine) (fd : Nat) (c : Channel In) (s : Sending) :
    (m.push pid fd c s).2.2.clock = m.clock := by
  have hwritten {m m' : Machine} {offered : Bytes} {call : WriteCall}
      (hwrite : m.write pid fd offered = (call, m')) : m'.clock = m.clock := by
    rw [← clock_write m pid fd offered, hwrite]
  fun_induction push m pid fd c s with
  | case1 | case2 => rfl
  | case3 _ _ _ _ _ hwrite _ _ hfinish =>
    exact (clock_finishWriter hfinish).trans (hwritten hwrite)
  | case4 _ _ _ _ _ _ hfinish hwrite =>
    exact (clock_finishWriter hfinish).trans (hwritten hwrite)
  | case5 _ _ _ _ _ hwrite _ ih => exact ih.trans (hwritten hwrite)

theorem clock_goOn {In : Type} (m : Machine) (c : Channel In) :
    (m.goOn pid c).2.2.clock = m.clock := by
  unfold goOn
  split
  · rfl
  · rfl
  · exact clock_push m _ c _

/-- No time passes while a message is sent as far as it goes. -/
theorem clock_send {In Out : Type} [Message Out] (m : Machine) (c : Channel In) (message : Out) :
    (m.send pid c message).2.2.clock = m.clock := by
  unfold send
  split
  · exact clock_goOn m c
  · split
    · exact clock_goOn m _
    · rfl

end Machine

namespace Root

variable {r : Root} {d : Nat} {α : Type}

/-- No time passes while it looks. -/
def IsGlance (poll : Root → Option α × Root) : Prop := ∀ r, (poll r).2.now = r.now

/-- A wait whose deadline has passed is over with one look: something is there, or it has
expired. -/
theorem await_of_late {poll : Root → Option α × Root} (hpoll : IsGlance poll) (hlate : d ≤ r.now) :
    r.await poll (some d) = (((poll r).1.map .came).getD .expired, (poll r).2) := by
  obtain ⟨fuel, hfuel⟩ := Nat.exists_eq_succ_of_ne_zero r.machine.work_ne_zero
  have hnow := hpoll r
  unfold await
  rw [hfuel]
  unfold awaitWithin
  rcases hlook : poll r with ⟨_ | a, r'⟩
  · rw [hlook] at hnow
    simp only at hnow
    simp [hnow, hlate]
  · rfl

theorem isGlance_pollSend (message : ControlMessage) : IsGlance (pollSend message) := by
  intro r
  unfold pollSend
  cases r.channel with
  | none => rfl
  | some c => exact Machine.clock_send r.machine c message

theorem isGlance_pollReceive : IsGlance pollReceive := by
  intro r
  unfold pollReceive
  cases r.channel with
  | none => rfl
  | some c => cases hrecv : c.inbound.recv? <;> simp [hrecv, now]

theorem isGlance_pollExit : IsGlance pollExit := fun _ => rfl

theorem isGlance_pollJobEnd (index : Nat) : IsGlance (pollJobEnd index) := by
  intro r
  unfold pollJobEnd
  cases r.jobs[index]?.join <;> rfl

/-- What the calls of a root ask for is answered once their deadline has passed, but for sending a
new job its begin and a job that is closed quit. -/
structure Prompt (r : Root) : Prop where
  start : ∀ d ≤ r.now, ∀ identity run request, request ≠ .greet →
    (r.answerStart identity (some d) run request).1.isSome
  wait : ∀ d ≤ r.now, (r.waitUntil (some d)).1.isSome
  close : ∀ d ≤ r.now, ∀ closing request, HandleLife.isBeforeKill closing = true →
    closing.request? = some request → (r.answerClose (some d) request).1.isSome
  jobEnded : ∀ index, (r.jobEnded index (some 0)).1.isSome
  closeJob : ∀ d ≤ r.now, ∀ index request, request ≠ .sendQuit →
    (r.answerJobClose index (some d) request).1.isSome

theorem answerStart_of_late (hlate : d ≤ r.now) (identity : JobIdentity) (run : StartRun)
    {request : StartRequest} (hrequest : request ≠ .greet) :
    (r.answerStart identity (some d) run request).1.isSome := by
  cases request with
  | turn | fetch | connect => rfl
  | receive =>
    unfold answerStart
    rw [await_of_late isGlance_pollReceive hlate]
    cases (r.pollReceive).1 <;> rfl
  | send =>
    unfold answerStart
    rw [await_of_late (isGlance_pollSend _) hlate]
    cases (r.pollSend _).1 <;> rfl
  | greet => exact absurd rfl hrequest

theorem waitUntil_of_late (hlate : d ≤ r.now) : (r.waitUntil (some d)).1.isSome := by
  unfold waitUntil
  rw [await_of_late isGlance_pollExit hlate]
  unfold pollExit
  cases hexit : r.child.exit <;> simp [hexit, ExitRecord.wait]

theorem answerClose_of_late (hlate : d ≤ r.now) {closing : Closing} {request : CloseRequest}
    (hbefore : HandleLife.isBeforeKill closing = true)
    (hrequest : closing.request? = some request) :
    (r.answerClose (some d) request).1.isSome := by
  cases closing with
  | quitting =>
    cases hrequest
    unfold answerClose
    simp only [Limit.time, Option.getD_some]
    rw [await_of_late (isGlance_pollSend _) hlate]
    cases (r.pollSend _).1 <;> rfl
  | disconnecting | checking | terminating | killing =>
    cases hrequest
    rfl
  | waiting =>
    cases hrequest
    unfold answerClose
    simp only [Limit.time, Option.isSome_map]
    exact waitUntil_of_late hlate
  | reaping | finished => cases hbefore

theorem jobEnded_of_late (index : Nat) : (r.jobEnded index (some 0)).1.isSome := by
  have hlate : r.now + 0 ≤ r.now := Nat.le_refl _
  unfold jobEnded deadlineIn
  rw [Option.map_some, await_of_late (isGlance_pollJobEnd index) hlate]
  cases (r.pollJobEnd index).1 <;> rfl

theorem answerJobClose_of_late (hlate : d ≤ r.now) (index : Nat) {request : JobCloseRequest}
    (hrequest : request ≠ .sendQuit) : (r.answerJobClose index (some d) request).1.isSome := by
  cases request with
  | sendQuit => exact absurd rfl hrequest
  | awaitEnd =>
    unfold answerJobClose
    simp only
    rw [await_of_late (isGlance_pollJobEnd index) hlate]
    cases (pollJobEnd index r).1 <;> rfl
  | release => rfl

theorem prompt (r : Root) : r.Prompt where
  start _ hlate identity run _ hrequest := answerStart_of_late hlate identity run hrequest
  wait _ hlate := waitUntil_of_late hlate
  close _ hlate _ _ hbefore hrequest := answerClose_of_late hlate hbefore hrequest
  jobEnded index := jobEnded_of_late index
  closeJob _ hlate index _ hrequest := answerJobClose_of_late hlate index hrequest

end Root

/-! ## The law -/

/-- Whatever the peers and the other callers do, whoever waits for the end of a process is told
something once the deadline has passed, the close of a process can go on by itself then up to
SIGKILL, and so can, in every state that calls at a worker or at a job come to, a start call, a wait
for the end of a job and the close of a job; but for a start call that waits for its turn while
another has it, or that sends a new job its begin, and a close whose quit is being written, which
cannot. A root answers by then all that its calls ask for, but for the last two. -/
theorem a_deadline_bounds_every_wait_but_three (waits : Supervision) (life : HandleLife)
    (calls : List TimedDesk.Move) (t : TimedDesk) (hcalls : TimedDesk.start.run? calls = some t)
    (uses : List JobUse.Move) (x : JobUse) (huses : JobUse.start.run? uses = some x) (r : Root) :
    waits.Prompt ∧ life.Prompt ∧ t.Prompt ∧ x.Prompt ∧ r.Prompt :=
  ⟨waits.prompt, life.prompt, (TimedDesk.sound_run calls TimedDesk.sound_start hcalls).prompt,
    (JobUse.sound_run uses JobUse.sound_start huses).prompt, r.prompt⟩

namespace TimedDesk

/-- A worker does not reply until the deadline, 5, has passed. -/
def unreplied : List Move :=
  [.call .unmapped (some 5), .grant 0, .turn .post, .turn (.write (.took 5)),
    .turn (.write (.took 19)), .pass 6]

/-- A worker replies at once, to a call whose deadline has come then and which has fetched all that
is its job's, while another call waits for its turn. -/
def greeting : List Move :=
  List.flatten [
    [.call .unmapped (some 0), .call .unmapped (some 0), .grant 0, .turn .post],
    [.turn (.write (.took 5)), .turn (.write (.took 19))],
    [.receive (.ok (.startResult ⟨3, 4, 7⟩)), .turn (.settle (.fetched (.ok ())))],
    [.turn (.settle (.fetched (.ok ()))), .turn (.settle (.connected (.ok ())))]]

end TimedDesk

namespace JobUse

/-- A job stays, and one who waits for its end waits until the deadline, 5, has passed. -/
def unended : List Move := [.begin (.ended (some 5)), .grant 0, .read [1, 2], .pass 5]

/-- A close whose deadline has come begins to send quit. -/
def quitting : List Move := [.begin (.close (some 0)), .quit]

end JobUse

/-- An overdue call at a worker and one at a job can go on. -/
theorem overdue_calls_go_on :
    ∃ t x, TimedDesk.start.run? TimedDesk.unreplied = some t ∧
      JobUse.start.run? JobUse.unended = some x ∧
      (t.limitAt .turn = some 5 ∧ 5 ≤ t.clock ∧
        ∃ move, TimedDesk.own .turn move = true ∧ (t.next? move).isSome) ∧
      x.limitAt .receiver = some 5 ∧ 5 ≤ x.clock ∧
        ∃ move, JobUse.own .receiver move = true ∧ (x.next? move).isSome := by
  obtain ⟨-, -, hcalls, huses, -⟩ := a_deadline_bounds_every_wait_but_three
    (.start (.empty .obliging ⟨[]⟩ .role []) .worker 2 (.ofSecs 1) true) (.start 7 true)
    TimedDesk.unreplied _ rfl JobUse.unended _ rfl
    ⟨.empty .obliging ⟨[]⟩ .role [], 2, ⟨.worker, 3, none, .ofSecs 1⟩, none, [], .start⟩
  refine ⟨_, _, rfl, rfl, ⟨rfl, by decide, ?_⟩, rfl, by decide, ?_⟩
  · refine (hcalls .turn 5 rfl (by decide)).mpr ?_
    rintro ⟨h, reply, hholder, hcall⟩
    cases hholder
    cases hcall
  · refine (huses .receiver 5 rfl (by decide)).mpr ?_
    rintro ⟨hplace, -⟩
    cases hplace

/-- A call that waits for its turn, one that sends a job its begin and a close that sends quit all
have deadlines that have come, and can do nothing. -/
theorem three_waits_outlast_their_deadlines :
    (∃ t, TimedDesk.start.run? TimedDesk.greeting = some t ∧
      (t.limitAt (.line 0) = some 0 ∧ 0 ≤ t.clock ∧
        ¬ ∃ move, TimedDesk.own (.line 0) move = true ∧ (t.next? move).isSome) ∧
      t.limitAt .turn = some 0 ∧
        ¬ ∃ move, TimedDesk.own .turn move = true ∧ (t.next? move).isSome) ∧
      ∃ x, JobUse.start.run? JobUse.quitting = some x ∧ x.limitAt .close = some 0 ∧
        0 ≤ x.clock ∧ ¬ ∃ move, JobUse.own .close move = true ∧ (x.next? move).isSome := by
  have hgreeting : ∀ t, TimedDesk.start.run? TimedDesk.greeting = some t → t.Prompt :=
    fun t hrun => (TimedDesk.sound_run _ TimedDesk.sound_start hrun).prompt
  have hquitting : ∀ x, JobUse.start.run? JobUse.quitting = some x → x.Prompt :=
    fun x hrun => (JobUse.sound_run _ JobUse.sound_start hrun).prompt
  refine ⟨⟨_, rfl, ⟨rfl, Nat.zero_le _, ?_⟩, rfl, ?_⟩, ⟨_, rfl, rfl, Nat.zero_le _, ?_⟩⟩
  · intro hgoes
    exact (hgreeting _ rfl (.line 0) 0 rfl (Nat.zero_le _)).mp hgoes (Option.some_ne_none _)
  · intro hgoes
    exact (hgreeting _ rfl .turn 0 rfl (Nat.zero_le _)).mp hgoes ⟨_, ⟨3, 4, 7⟩, rfl, rfl⟩
  · intro hgoes
    exact (hquitting _ rfl .close 0 rfl (Nat.zero_le _)).mp hgoes
      ⟨rfl, ⟨0, some 0, rfl⟩, Option.some_ne_none _⟩

end ProcessTree
