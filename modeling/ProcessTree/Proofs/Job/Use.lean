-- The channel of a job with everyone who uses it. Any number of sends and of
-- waits for the end share it, each wait with its own deadline; a close has it
-- to itself. Any call may be dropped by its caller, and the job does what it
-- likes: it reads or does not, writes any bytes, goes away or stays. Whatever
-- happens, the deeds stay in order.
import ProcessTree.Job.Closing
import ProcessTree.Proofs.Job.Deeds

namespace ProcessTree

open ProcessTree.Frame

/-! ## Users -/

/-- Those who share the channel of a job. -/
structure JobSharers where
  /-- The sends that wait for the stream. -/
  queued : List (Nat × ControlMessage)
  /-- The send that has the stream. -/
  writing : Option Nat
  /-- Those who wait for their turn to receive, with their deadlines. -/
  waiting : List (Nat × Option Nat)
  /-- The one who receives, with its deadline. -/
  receiving : Option (Nat × Option Nat)
  deriving DecidableEq

/-- Nobody uses the channel. -/
def JobSharers.idle : JobSharers := ⟨[], none, [], none⟩

/-- Who uses the channel of a job. -/
inductive JobUsers where
  | sharing (s : JobSharers)
  | closing (call : Nat) (deadline : Option Nat) (stage : JobClosing)

/-- Where a call at a job waits. -/
inductive JobPlace where
  /-- As one of those who wait for the stream. -/
  | queue (i : Nat)
  | stream
  /-- As one of those who wait for their turn to receive. -/
  | line (i : Nat)
  | receiver
  | close

/-- The deadline of the call that waits at a place for the end of the job's stream. -/
def JobUsers.deadline? : JobUsers → JobPlace → Option Nat
  | .sharing s, .line i => (s.waiting[i]?).bind (·.2)
  | .sharing s, .receiver => s.receiving.bind (·.2)
  | .closing _ deadline .ending, .close => deadline
  | _, _ => none

/-- The channel of a job with its users. -/
structure JobUse where
  isHeld : Bool
  line : Line ControlMessage
  inbound : Inbound JobReply
  clock : Nat
  /-- How many calls there have been. -/
  calls : Nat
  users : JobUsers
  deeds : List ChannelDeed

namespace JobUse

/-! ## Moves -/

inductive Move where
  | pass (time : Nat)
  | read (bytes : Bytes)
  | lose (ending : Ending)
  | begin (asked : JobAsked)
  /-- A send that waits for the stream begins. -/
  | post (i : Nat)
  /-- A close begins to send quit. -/
  | quit
  | write (outcome : WriteOutcome)
  /-- A call gets its turn to receive. -/
  | grant (i : Nat)
  | receive
  /-- A call comes to its deadline. -/
  | expire (place : JobPlace)
  /-- A call is dropped by its caller. -/
  | leave (place : JobPlace)
  /-- A close releases the channel. -/
  | release

/-- A job that was just connected to. -/
def start : JobUse where
  isHeld := true
  line := .start Direction.rootToJob.registry
  inbound := .start Direction.jobToRoot.registry
  clock := 0
  calls := 0
  users := .sharing .idle
  deeds := []

/-- Writes a deed down. -/
def log (x : JobUse) (deed : ChannelDeed) : JobUse := { x with deeds := x.deeds ++ [deed] }

/-- A call returns, and these share the channel after it. -/
def tell (x : JobUse) (s : JobSharers) (call : Nat) (answer : JobAnswer) : JobUse :=
  { x with users := .sharing s, deeds := x.deeds ++ [.returned call answer] }

/-- A close has sent quit, or could not. -/
def quitDone (x : JobUse) (call : Nat) (deadline : Option Nat)
    (outcome : Except ChannelError Unit) : JobUse :=
  { x with
    users := .closing call deadline (JobClosing.quitting.answer .done)
    deeds := x.deeds ++ [.quit call outcome] }

/-- A call begins. A close begins only when nobody else uses the channel; and nobody begins while
there is a close. -/
def begin? (x : JobUse) (asked : JobAsked) : Option JobUse :=
  if x.isHeld then
    let x' := { x with calls := x.calls + 1, deeds := x.deeds ++ [ChannelDeed.began x.calls asked] }
    match x.users, asked with
    | .sharing s, .send message =>
      some { x' with users := .sharing { s with queued := s.queued ++ [(x.calls, message)] } }
    | .sharing s, .ended deadline =>
      some { x' with users := .sharing { s with waiting := s.waiting ++ [(x.calls, deadline)] } }
    | .sharing s, .close deadline =>
      if s = .idle then some { x' with users := .closing x.calls deadline (.start x.isHeld) }
      else none
    | .closing _ _ _, _ => none
  else some { x with
    calls := x.calls + 1
    deeds := x.deeds ++ [.answered x.calls asked asked.answerWithout] }

def post? (x : JobUse) (i : Nat) : Option JobUse :=
  match x.users with
  | .closing _ _ _ => none
  | .sharing s =>
    match s.queued[i]? with
    | none => none
    | some (call, message) =>
      let s := { s with queued := s.queued.eraseIdx i }
      match x.line.send? message with
      | none => none
      | some (some e, line) => some ({ x with line }.tell s call (.sent (.error e)))
      | some (none, line) => some { x with line, users := .sharing { s with writing := some call } }

/-- A close begins to send quit, unless it is sending it already. -/
def quit? (x : JobUse) : Option JobUse :=
  match x.users, x.line.current with
  | .closing call deadline .quitting, none =>
    match x.line.send? ControlMessage.quit with
    | none => none
    | some (some e, line) => some ({ x with line }.quitDone call deadline (.error e))
    | some (none, line) => some { x with line }
  | _, _ => none

def write? (x : JobUse) (outcome : WriteOutcome) : Option JobUse :=
  match x.line.write? outcome with
  | none => none
  | some (answer, line) =>
    let x' := ({ x with line }.log (.wrote outcome))
    match x.users with
    | .sharing s =>
      match s.writing, answer with
      | none, _ => none
      | some _, none => some x'
      | some call, some result => some (x'.tell { s with writing := none } call (.sent result))
    | .closing call deadline .quitting =>
      match answer with
      | none => some x'
      | some result => some (x'.quitDone call deadline result)
    | .closing _ _ _ => none

def grant? (x : JobUse) (i : Nat) : Option JobUse :=
  match x.users with
  | .closing _ _ _ => none
  | .sharing s =>
    match s.receiving, s.waiting[i]? with
    | none, some waiter =>
      some { x with users := .sharing { s with
        waiting := s.waiting.eraseIdx i
        receiving := some waiter } }
    | _, _ => none

/-- A call that receives is told that the stream has ended: nothing is ever received from a job. -/
def receive? (x : JobUse) : Option JobUse :=
  match x.inbound.recv?, x.users with
  | none, _ => none
  | some (_, inbound), .sharing s =>
    match s.receiving with
    | none => none
    | some (call, _) =>
      some ({ x with inbound }.tell { s with receiving := none } call (.ended (.ok ())))
  | some (_, inbound), .closing call deadline .ending =>
    some { x with inbound, users := .closing call deadline (JobClosing.ending.answer .done) }
  | _, _ => none

/-- A call at a place comes to its deadline. What has come counts even then, for the one who
receives. -/
def expire? (x : JobUse) (place : JobPlace) : Option JobUse :=
  if (x.users.deadline? place).any (· ≤ x.clock) then
    match x.users, place with
    | .sharing s, .line i =>
      match s.waiting[i]? with
      | none => none
      | some (call, _) => some (x.tell { s with waiting := s.waiting.eraseIdx i } call
          (.ended (.error (.process .deadlineExceeded))))
    | .sharing s, .receiver =>
      match s.receiving, x.inbound.recv? with
      | some (call, _), none => some (x.tell { s with receiving := none } call
          (.ended (.error (.process .deadlineExceeded))))
      | _, _ => none
    | .closing call deadline stage, .close =>
      match x.inbound.recv? with
      | none => some { x with users := .closing call deadline (stage.answer .expired) }
      | some _ => none
    | _, _ => none
  else none

/-- A call is dropped; a send that is cut off leaves on the wire what it has written. -/
def leave? (x : JobUse) (place : JobPlace) : Option JobUse :=
  match x.users, place with
  | .sharing s, .queue i =>
    some { x with users := .sharing { s with queued := s.queued.eraseIdx i } }
  | .sharing s, .stream =>
    some { x with line := x.line.abandon, users := .sharing { s with writing := none } }
  | .sharing s, .line i =>
    some { x with users := .sharing { s with waiting := s.waiting.eraseIdx i } }
  | .sharing s, .receiver => some { x with users := .sharing { s with receiving := none } }
  | .closing _ _ _, .close => some { x with line := x.line.abandon, users := .sharing .idle }
  | _, _ => none

def release? (x : JobUse) : Option JobUse :=
  match x.users with
  | .closing call _ stage =>
    match stage.request?, stage.answer .done with
    | some .release, .finished result =>
      some { x with
        isHeld := false
        line := { x.line with outbound := x.line.outbound.close }
        inbound := x.inbound.stop
        users := .sharing .idle
        deeds := x.deeds ++ [.closed call result] }
    | _, _ => none
  | .sharing _ => none

/-- What a move leads to, where it is possible. -/
def next? (x : JobUse) : Move → Option JobUse
  | .pass time => some { x with clock := x.clock + time }
  | .read bytes =>
    if bytes = [] ∨ x.inbound.wants < bytes.length then none
    else some ({ x with inbound := x.inbound.take bytes }.log (.heard bytes))
  | .lose ending =>
    if x.inbound.wants = 0 then none
    else some ({ x with inbound := x.inbound.fail ending.error }.log (.lost ending))
  | .begin asked => x.begin? asked
  | .post i => x.post? i
  | .quit => x.quit?
  | .write outcome => x.write? outcome
  | .grant i => x.grant? i
  | .receive => x.receive?
  | .expire place => x.expire? place
  | .leave place => x.leave? place
  | .release => x.release?

/-- A row of moves. -/
def run? (x : JobUse) : List Move → Option JobUse
  | [] => some x
  | move :: moves => (x.next? move).bind fun x' => x'.run? moves

/-! ## The invariant -/

open ChannelDeed (Orderly Follows Cause Closed Over Fair trace heardIn)

/-- Those who share the channel have begun, each as what it is. -/
structure Begun (deeds : List ChannelDeed) (s : JobSharers) : Prop where
  queued : ∀ call message, (call, message) ∈ s.queued → .began call (.send message) ∈ deeds
  writing : ∀ call, s.writing = some call → ∃ message, .began call (.send message) ∈ deeds
  waiting : ∀ call deadline, (call, deadline) ∈ s.waiting → .began call (.ended deadline) ∈ deeds
  receiving : ∀ call deadline, s.receiving = some (call, deadline) →
    .began call (.ended deadline) ∈ deeds

/-- What a close has done at each stage. -/
def Stage (deeds : List ChannelDeed) (call : Nat) (deadline : Option Nat) : JobClosing → Prop
  | .quitting => trace call deeds = [.began call (.close deadline)]
  | .ending => ∃ outcome, trace call deeds = [.began call (.close deadline), .quit call outcome]
  | .releasing result =>
    (∃ outcome, trace call deeds = [.began call (.close deadline), .quit call outcome]) ∧
      Fair deeds result
  | .finished _ => False

/-- What the users of the channel have done. -/
def Underway (deeds : List ChannelDeed) : JobUsers → Prop
  | .sharing s => Begun deeds s
  | .closing call deadline stage => Stage deeds call deadline stage

/-- The receiver reads the header of a frame that never comes to anything, or has ended. -/
structure Listens (x : JobUse) : Prop where
  registry : x.inbound.registry = Direction.jobToRoot.registry
  queue : x.inbound.queue = none
  stands : (x.inbound.receiver = .header (heardIn x.deeds) ∧
      (heardIn x.deeds).length < headerSize ∧ ∀ ending, .lost ending ∉ x.deeds) ∨
    (x.inbound.receiver = .ended ∧ (x.isHeld = true → Over x.deeds))

structure Sound (x : JobUse) : Prop where
  orderly : Orderly x.deeds
  /-- Calls to come have done nothing. -/
  fresh : ∀ deed ∈ x.deeds, ∀ call, deed.call? = some call → call < x.calls
  held : x.isHeld = false ↔ Closed x.deeds
  released : x.isHeld = false → x.users = .sharing .idle ∧ x.line.outbound.isOpen = false ∧
    x.inbound.receiver = .ended
  listens : x.Listens
  underway : Underway x.deeds x.users

variable {x x' : JobUse} {call : Nat} {deed : ChannelDeed} {deadline : Option Nat} {s : JobSharers}
  {deeds : List ChannelDeed}

theorem begun_idle (deeds : List ChannelDeed) : Begun deeds .idle := by
  refine ⟨?_, ?_, ?_, ?_⟩ <;> simp [JobSharers.idle]

theorem Begun.append (h : Begun deeds s) (after : List ChannelDeed) : Begun (deeds ++ after) s := by
  refine ⟨?_, ?_, ?_, ?_⟩
  · intro call message hmem
    exact List.mem_append_left _ (h.queued call message hmem)
  · intro call hwriting
    obtain ⟨message, hbegan⟩ := h.writing call hwriting
    exact ⟨message, List.mem_append_left _ hbegan⟩
  · intro call deadline hmem
    exact List.mem_append_left _ (h.waiting call deadline hmem)
  · intro call deadline hreceiving
    exact List.mem_append_left _ (h.receiving call deadline hreceiving)

/-- What others do changes nothing about the stage of a close. -/
theorem Stage.snoc {stage : JobClosing} (h : Stage deeds call deadline stage)
    (hother : deed.call? ≠ some call) : Stage (deeds ++ [deed]) call deadline stage := by
  unfold Stage at h ⊢
  rw [ChannelDeed.trace_snoc_other hother]
  cases stage with
  | releasing result =>
    refine ⟨h.1, ?_⟩
    rcases h.2 with ⟨hok, hover⟩ | hlate
    · exact Or.inl ⟨hok, hover.append [deed]⟩
    · exact Or.inr hlate
  | _ => exact h

/-- What is of no call changes nothing about the users. -/
theorem Underway.snoc {users : JobUsers} (h : Underway deeds users) (hnone : deed.call? = none) :
    Underway (deeds ++ [deed]) users := by
  cases users with
  | sharing s => exact Begun.append h [deed]
  | closing call deadline stage => exact Stage.snoc h (by simp [hnone])

theorem fresh_snoc {calls calls' : Nat}
    (h : ∀ deed ∈ deeds, ∀ call, deed.call? = some call → call < calls) (hcalls : calls ≤ calls')
    (hlast : ∀ call, deed.call? = some call → call < calls') :
    ∀ d ∈ deeds ++ [deed], ∀ call, d.call? = some call → call < calls' := by
  intro d hd call hcall
  rcases List.mem_append.mp hd with hd | hd
  · exact Nat.lt_of_lt_of_le (h d hd call hcall) hcalls
  · rw [List.mem_singleton.mp hd] at hcall
    exact hlast call hcall

theorem sound_start : start.Sound := by
  refine ⟨ChannelDeed.orderly_nil, ?_, ?_, ?_, ⟨rfl, rfl, Or.inl ⟨rfl, by decide, ?_⟩⟩,
    begun_idle []⟩
  · intro deed hmem
    cases hmem
  · constructor
    · intro hfalse
      cases hfalse
    · rintro ⟨call, result, hmem⟩
      cases hmem
  · intro hfalse
    cases hfalse
  · intro ending hmem
    cases hmem

/-- Whoever uses the channel finds it held. -/
theorem Sound.held_of_users (h : x.Sound) (hbusy : x.users ≠ .sharing .idle) :
    x.isHeld = true := by
  cases hheld : x.isHeld with
  | true => rfl
  | false => exact absurd (h.released hheld).1 hbusy

theorem Sound.held_of_sharing (h : x.Sound) (husers : x.users = .sharing s) (hbusy : s ≠ .idle) :
    x.isHeld = true := by
  refine h.held_of_users ?_
  rw [husers]
  intro hidle
  cases hidle
  exact hbusy rfl

theorem Sound.not_closed (h : x.Sound) (hheld : x.isHeld = true) : ¬ Closed x.deeds := by
  intro hclosed
  rw [h.held.mpr hclosed] at hheld
  cases hheld

/-- Those who use the channel go on, with nothing to write down. -/
theorem sound_users (h : x.Sound) (line : Line ControlMessage) (users : JobUsers)
    (hheld : x.isHeld = true) (hunderway : Underway x.deeds users) :
    ({ x with line, users } : JobUse).Sound := by
  refine ⟨h.orderly, h.fresh, h.held, ?_, ⟨h.listens.registry, h.listens.queue, h.listens.stands⟩,
    hunderway⟩
  intro hfalse
  rw [hheld] at hfalse
  cases hfalse

theorem heardIn_of_step (deeds : List ChannelDeed) (hstep : deed.isStep = true) :
    heardIn (deeds ++ [deed]) = heardIn deeds ∧
      ∀ ending, .lost ending ∈ deeds ++ [deed] → .lost ending ∈ deeds := by
  rw [ChannelDeed.heardIn_snoc]
  cases deed with
  | began | quit | returned | wrote => simp [ChannelDeed.bytes]
  | _ => cases hstep

theorem follows_of_step (hstep : deed.isStep = true) (hopen : ¬ Closed deeds)
    (hcause : Cause deeds deed) : Follows deeds deed := by
  refine ⟨?_, hcause⟩
  cases deed with
  | began | quit | returned | wrote => simp [ChannelDeed.isAnswered, hopen]
  | _ => cases hstep

/-- A call of those that use the channel does something. -/
theorem sound_step (deed : ChannelDeed) (h : x.Sound) (hheld : x.isHeld = true)
    (hstep : deed.isStep = true) (hcause : Cause x.deeds deed) (line : Line ControlMessage)
    (users : JobUsers) (calls : Nat) (hcalls : x.calls ≤ calls)
    (hcall : ∀ call, deed.call? = some call → call < calls)
    (hunderway : Underway (x.deeds ++ [deed]) users) :
    ({ x with line, users, calls, deeds := x.deeds ++ [deed] } : JobUse).Sound := by
  obtain ⟨hheard, hlost⟩ := heardIn_of_step x.deeds hstep
  have hopen := h.not_closed hheld
  refine ⟨h.orderly.snoc (follows_of_step hstep hopen hcause), fresh_snoc h.fresh hcalls hcall, ?_,
    ?_, ?_, hunderway⟩
  · rw [ChannelDeed.closed_snoc_iff]
    · exact h.held
    · rintro c result rfl
      cases hstep
  · intro hfalse
    rw [hheld] at hfalse
    cases hfalse
  · refine ⟨h.listens.registry, h.listens.queue, ?_⟩
    rcases h.listens.stands with ⟨hreceiver, hlength, hnone⟩ | ⟨hreceiver, hover⟩
    · refine Or.inl ?_
      rw [hheard]
      exact ⟨hreceiver, hlength, fun ending hmem => hnone ending (hlost ending hmem)⟩
    · exact Or.inr ⟨hreceiver, fun hheld' => (hover hheld').append [deed]⟩

/-! ## Calls begin -/

theorem Sound.trace_new (h : x.Sound) : trace x.calls x.deeds = [] := by
  unfold trace
  rw [List.filter_eq_nil_iff]
  intro d hd hcall
  exact absurd (h.fresh d hd x.calls (by simpa using hcall)) (Nat.lt_irrefl _)

/-- A call that finds the channel released changes nothing but the log. -/
theorem sound_answered (h : x.Sound) (hheld : x.isHeld = false) (asked : JobAsked) :
    ({ x with
      calls := x.calls + 1
      deeds := x.deeds ++ [.answered x.calls asked asked.answerWithout] } : JobUse).Sound := by
  have hclosed := h.held.mp hheld
  obtain ⟨husers, hopen, hreceiver⟩ := h.released hheld
  refine ⟨h.orderly.snoc ⟨?_, h.trace_new, rfl⟩, fresh_snoc h.fresh (Nat.le_succ _) ?_, ?_,
    fun _ => ⟨husers, hopen, hreceiver⟩,
    ⟨h.listens.registry, h.listens.queue, Or.inr ⟨hreceiver, ?_⟩⟩, ?_⟩
  · simp [ChannelDeed.isAnswered, hclosed]
  · intro c hc
    cases hc
    exact Nat.lt_succ_self _
  · rw [ChannelDeed.closed_snoc_iff (by simp)]
    exact h.held
  · intro hheld'
    exact absurd (hheld.symm.trans hheld') (by simp)
  · simp only [husers]
    exact begun_idle _

theorem sound_began (h : x.Sound) (hheld : x.isHeld = true) {asked : JobAsked} {users : JobUsers}
    (hunderway : Underway (x.deeds ++ [.began x.calls asked]) users) :
    ({ x with
      calls := x.calls + 1
      users := users
      deeds := x.deeds ++ [.began x.calls asked] } : JobUse).Sound := by
  refine sound_step (.began x.calls asked) h hheld rfl h.trace_new x.line users (x.calls + 1)
    (Nat.le_succ _) ?_ hunderway
  intro c hc
  cases hc
  exact Nat.lt_succ_self _

theorem sound_begin {asked : JobAsked} (h : x.Sound) (hmove : x.begin? asked = some x') :
    x'.Sound := by
  unfold begin? at hmove
  have hbegan := List.mem_append_right x.deeds
    (List.mem_singleton.mpr (rfl : ChannelDeed.began x.calls asked = .began x.calls asked))
  have hunderway := h.underway
  split at hmove
  · rename_i hheld
    split at hmove
    · rename_i s message husers
      cases hmove
      rw [husers] at hunderway
      have hsharers := Begun.append hunderway [.began x.calls (.send message)]
      refine sound_began h hheld ⟨?_, hsharers.writing, hsharers.waiting, hsharers.receiving⟩
      intro c m hmem
      rcases List.mem_append.mp hmem with hmem | hmem
      · exact hsharers.queued c m hmem
      · cases List.mem_singleton.mp hmem
        exact hbegan
    · rename_i s deadline husers
      cases hmove
      rw [husers] at hunderway
      have hsharers := Begun.append hunderway [.began x.calls (.ended deadline)]
      refine sound_began h hheld ⟨hsharers.queued, hsharers.writing, ?_, hsharers.receiving⟩
      intro c d hmem
      rcases List.mem_append.mp hmem with hmem | hmem
      · exact hsharers.waiting c d hmem
      · cases List.mem_singleton.mp hmem
        exact hbegan
    · rename_i s deadline husers
      split at hmove
      · cases hmove
        refine sound_began h hheld ?_
        rw [hheld]
        unfold Underway JobClosing.start Stage
        rw [if_pos rfl]
        simp only
        rw [ChannelDeed.trace_snoc_own rfl, h.trace_new]
        rfl
      · cases hmove
    · cases hmove
  · rename_i hheld
    cases hmove
    exact sound_answered h (by simpa using hheld) asked

/-! ## Sends -/

/-- A call returns that has begun. -/
theorem sound_tell (answer : JobAnswer) (h : x.Sound) (hheld : x.isHeld = true)
    (hcause : Cause x.deeds (.returned call answer)) {asked : JobAsked}
    (hbegan : .began call asked ∈ x.deeds) (line : Line ControlMessage)
    (hsharers : Begun x.deeds s) : ({ x with line }.tell s call answer).Sound := by
  refine sound_step (.returned call answer) h hheld rfl hcause line (.sharing s) x.calls
    (Nat.le_refl _) ?_ (hsharers.append _)
  intro c hc
  cases hc
  exact h.fresh _ hbegan call rfl

/-- A close is done with sending quit. -/
theorem sound_quitDone (h : x.Sound) (husers : x.users = .closing call deadline .quitting)
    (line : Line ControlMessage) (outcome : Except ChannelError Unit) :
    ({ x with line }.quitDone call deadline outcome).Sound := by
  have hheld : x.isHeld = true := h.held_of_users (by simp [husers])
  have htrace : trace call x.deeds = [.began call (.close deadline)] := by
    have := h.underway
    rw [husers] at this
    exact this
  refine sound_step (.quit call outcome) h hheld rfl ⟨deadline, htrace⟩ line
    (.closing call deadline (JobClosing.quitting.answer .done)) x.calls (Nat.le_refl _) ?_ ?_
  · intro c hc
    cases hc
    have hbegan : .began call (.close deadline) ∈ trace call x.deeds := by
      rw [htrace]
      exact List.mem_singleton.mpr rfl
    exact h.fresh _ (ChannelDeed.mem_of_mem_trace hbegan) call rfl
  · refine ⟨outcome, ?_⟩
    rw [ChannelDeed.trace_snoc_own rfl, htrace]
    rfl

theorem Begun.eraseQueued (h : Begun deeds s) (i : Nat) :
    Begun deeds { s with queued := s.queued.eraseIdx i } :=
  ⟨fun call message hmem => h.queued call message (List.mem_of_mem_eraseIdx hmem), h.writing,
    h.waiting, h.receiving⟩

theorem Begun.eraseWaiting (h : Begun deeds s) (i : Nat) :
    Begun deeds { s with waiting := s.waiting.eraseIdx i } :=
  ⟨h.queued, h.writing,
    fun call deadline hmem => h.waiting call deadline (List.mem_of_mem_eraseIdx hmem), h.receiving⟩

theorem Begun.stopWriting (h : Begun deeds s) : Begun deeds { s with writing := none } :=
  ⟨h.queued, by simp, h.waiting, h.receiving⟩

theorem Begun.stopReceiving (h : Begun deeds s) : Begun deeds { s with receiving := none } :=
  ⟨h.queued, h.writing, h.waiting, by simp⟩

theorem Sound.begun (h : x.Sound) (husers : x.users = .sharing s) : Begun x.deeds s := by
  have := h.underway
  rw [husers] at this
  exact this

theorem sound_post {i : Nat} (h : x.Sound) (hmove : x.post? i = some x') : x'.Sound := by
  unfold post? at hmove
  split at hmove
  · cases hmove
  · rename_i s husers
    split at hmove
    · cases hmove
    · rename_i call message hget
      have hmem := List.mem_of_getElem? hget
      have hheld := h.held_of_sharing husers (by rintro rfl; cases hmem)
      have hsharers := h.begun husers
      have hbegan := hsharers.queued call message hmem
      split at hmove
      · cases hmove
      · cases hmove
        exact sound_tell (.sent _) h hheld ⟨message, hbegan⟩ hbegan _ (hsharers.eraseQueued i)
      · cases hmove
        refine sound_users h _ _ hheld ?_
        have hrest := hsharers.eraseQueued i
        refine ⟨hrest.queued, ?_, hrest.waiting, hrest.receiving⟩
        intro c hc
        cases hc
        exact ⟨message, hbegan⟩

theorem sound_quit (h : x.Sound) (hmove : x.quit? = some x') : x'.Sound := by
  unfold quit? at hmove
  split at hmove
  · rename_i call deadline husers hfree
    split at hmove
    · cases hmove
    · cases hmove
      exact sound_quitDone h husers _ _
    · rename_i line hsend
      cases hmove
      exact sound_users h line x.users (h.held_of_users (by simp [husers])) h.underway
  · cases hmove

/-- A write call is written down. -/
theorem sound_wrote (h : x.Sound) (hheld : x.isHeld = true) (line : Line ControlMessage)
    (outcome : WriteOutcome) : ({ x with line }.log (.wrote outcome)).Sound := by
  refine sound_step (.wrote outcome) h hheld rfl trivial line x.users x.calls (Nat.le_refl _) ?_
    (h.underway.snoc rfl)
  intro c hc
  cases hc

theorem sound_write {outcome : WriteOutcome} (h : x.Sound) (hmove : x.write? outcome = some x') :
    x'.Sound := by
  unfold write? at hmove
  split at hmove
  · cases hmove
  · rename_i answer line hwrite
    split at hmove
    · rename_i s husers
      split at hmove
      · cases hmove
      · rename_i call hwriting
        cases hmove
        exact sound_wrote h (h.held_of_sharing husers (by rintro rfl; cases hwriting)) line outcome
      · rename_i call result hwriting
        cases hmove
        have hheld := h.held_of_sharing husers (by rintro rfl; cases hwriting)
        have hwrote := sound_wrote h hheld line outcome
        obtain ⟨message, hbegan⟩ := (hwrote.begun husers).writing call hwriting
        exact sound_tell (.sent result) hwrote hheld ⟨message, hbegan⟩ hbegan line
          (hwrote.begun husers).stopWriting
    · rename_i call deadline husers
      have hheld : x.isHeld = true := h.held_of_users (by simp [husers])
      split at hmove
      · cases hmove
        exact sound_wrote h hheld line outcome
      · cases hmove
        exact sound_quitDone (sound_wrote h hheld line outcome) husers line _
    · cases hmove

/-! ## Waiting for the end -/

theorem sound_grant {i : Nat} (h : x.Sound) (hmove : x.grant? i = some x') : x'.Sound := by
  unfold grant? at hmove
  split at hmove
  · cases hmove
  · rename_i s husers
    split at hmove
    · rename_i waiter hreceiving hget
      cases hmove
      have hmem := List.mem_of_getElem? hget
      have hheld := h.held_of_sharing husers (by rintro rfl; cases hmem)
      have hsharers := h.begun husers
      have hrest := hsharers.eraseWaiting i
      refine sound_users h x.line _ hheld ⟨hrest.queued, hrest.writing, hrest.waiting, ?_⟩
      intro c d hc
      cases hc
      exact hsharers.waiting c d hmem
    · cases hmove

/-- There is never a message, so a receive that comes to something finds the receiver ended, and
changes nothing. -/
theorem Sound.recv? (h : x.Sound) :
    (x.inbound.recv? = none ∧ ¬ Over x.deeds ∧ x.isHeld = true) ∨
      ((∃ answer, x.inbound.recv? = some (answer, x.inbound)) ∧
        (x.isHeld = true → Over x.deeds)) := by
  have hqueue := h.listens.queue
  rcases h.listens.stands with ⟨hreceiver, hlength, hnone⟩ | ⟨hreceiver, hover⟩
  · refine Or.inl ⟨?_, ?_, ?_⟩
    · simp only [Inbound.recv?, Inbound.isOver, hqueue, hreceiver]
      rfl
    · rintro (⟨ending, hmem⟩ | hlong)
      · exact hnone ending hmem
      · omega
    · cases hheld : x.isHeld with
      | true => rfl
      | false =>
        rw [(h.released hheld).2.2] at hreceiver
        cases hreceiver
  · refine Or.inr ⟨⟨.error (x.inbound.terminal.getD .channelClosed), ?_⟩, hover⟩
    simp only [Inbound.recv?, Inbound.isOver, hqueue, hreceiver]
    rfl

theorem Sound.receives (h : x.Sound) {answer : Except ChannelError JobReply}
    {inbound : Inbound JobReply} (hrecv : x.inbound.recv? = some (answer, inbound)) :
    inbound = x.inbound ∧ (x.isHeld = true → Over x.deeds) := by
  rcases h.recv? with ⟨hnone, -⟩ | ⟨⟨answer', hsome⟩, hover⟩
  · rw [hrecv] at hnone
    cases hnone
  · rw [hrecv] at hsome
    cases hsome
    exact ⟨rfl, hover⟩

theorem sound_receive (h : x.Sound) (hmove : x.receive? = some x') : x'.Sound := by
  unfold receive? at hmove
  split at hmove
  · cases hmove
  · rename_i answer inbound s hrecv husers
    obtain ⟨rfl, hover⟩ := h.receives hrecv
    split at hmove
    · cases hmove
    · rename_i call deadline hreceiving
      cases hmove
      have hheld := h.held_of_sharing husers (by rintro rfl; cases hreceiving)
      have hbegan := (h.begun husers).receiving call deadline hreceiving
      exact sound_tell (.ended (.ok ())) h hheld ⟨⟨deadline, hbegan⟩, Or.inl ⟨rfl, hover hheld⟩⟩
        hbegan x.line (h.begun husers).stopReceiving
  · rename_i answer inbound call deadline hrecv husers
    obtain ⟨rfl, hover⟩ := h.receives hrecv
    cases hmove
    have hheld := h.held_of_users (by simp [husers])
    have hstage := h.underway
    rw [husers] at hstage
    exact sound_users h x.line (.closing call deadline (.releasing (.ok ()))) hheld
      ⟨hstage, Or.inl ⟨rfl, hover hheld⟩⟩
  · cases hmove

theorem sound_expire {place : JobPlace} (h : x.Sound) (hmove : x.expire? place = some x') :
    x'.Sound := by
  unfold expire? at hmove
  rw [Option.ite_none_right_eq_some] at hmove
  obtain ⟨hlimit, hmove⟩ := hmove
  split at hmove
  · rename_i s i husers
    split at hmove
    · cases hmove
    · rename_i call deadline hget
      cases hmove
      have hmem := List.mem_of_getElem? hget
      have hbegan := (h.begun husers).waiting call deadline hmem
      exact sound_tell (.ended _) h (h.held_of_sharing husers (by rintro rfl; cases hmem))
        ⟨⟨deadline, hbegan⟩, Or.inr rfl⟩ hbegan x.line ((h.begun husers).eraseWaiting i)
  · rename_i s husers
    split at hmove
    · rename_i call deadline hreceiving hrecv
      cases hmove
      have hbegan := (h.begun husers).receiving call deadline hreceiving
      exact sound_tell (.ended _) h (h.held_of_sharing husers (by rintro rfl; cases hreceiving))
        ⟨⟨deadline, hbegan⟩, Or.inr rfl⟩ hbegan x.line (h.begun husers).stopReceiving
    · cases hmove
  · rename_i call deadline stage husers
    split at hmove
    · cases hmove
      have hstage := h.underway
      rw [husers] at hstage
      cases stage with
      | ending =>
        exact sound_users h x.line _ (h.held_of_users (by simp [husers])) ⟨hstage, Or.inr rfl⟩
      | _ =>
        rw [husers] at hlimit
        cases hlimit
    · cases hmove
  · cases hmove

/-! ## Leaving -/

/-- Fewer users, and a line that nobody is sending on. -/
theorem sound_left (h : x.Sound) (line : Line ControlMessage)
    (hline : line.outbound = x.line.outbound) (hsharers : Begun x.deeds s)
    (hidle : x.isHeld = false → s = .idle) :
    ({ x with line, users := .sharing s } : JobUse).Sound := by
  by_cases hheld : x.isHeld = true
  · exact sound_users h line (.sharing s) hheld hsharers
  · have hgone : x.isHeld = false := by simpa using hheld
    obtain ⟨-, hopen, hreceiver⟩ := h.released hgone
    obtain rfl := hidle hgone
    refine ⟨h.orderly, h.fresh, h.held, fun _ => ⟨rfl, ?_, hreceiver⟩,
      ⟨h.listens.registry, h.listens.queue, Or.inr ⟨hreceiver, ?_⟩⟩, hsharers⟩
    · rw [hline]
      exact hopen
    · intro htrue
      exact absurd htrue hheld

theorem sound_leave {place : JobPlace} (h : x.Sound) (hmove : x.leave? place = some x') :
    x'.Sound := by
  have hidle : ∀ {s}, x.users = .sharing s → x.isHeld = false → s = .idle := by
    intro s husers hheld
    have := (h.released hheld).1
    rw [husers] at this
    cases this
    rfl
  unfold leave? at hmove
  split at hmove
  · rename_i s i husers
    cases hmove
    refine sound_left h x.line rfl ((h.begun husers).eraseQueued i) fun hheld => ?_
    rw [hidle husers hheld]
    rfl
  · rename_i s husers
    cases hmove
    refine sound_left h x.line.abandon rfl (h.begun husers).stopWriting fun hheld => ?_
    rw [hidle husers hheld]
    rfl
  · rename_i s i husers
    cases hmove
    refine sound_left h x.line rfl ((h.begun husers).eraseWaiting i) fun hheld => ?_
    rw [hidle husers hheld]
    rfl
  · rename_i s husers
    cases hmove
    refine sound_left h x.line rfl (h.begun husers).stopReceiving fun hheld => ?_
    rw [hidle husers hheld]
    rfl
  · cases hmove
    exact sound_left h x.line.abandon rfl (begun_idle _) fun _ => rfl
  · cases hmove

/-! ## The end of the channel -/

theorem release?_eq_some (hmove : x.release? = some x') :
    ∃ call deadline result, x.users = .closing call deadline (.releasing result) ∧
      x' = { x with
        isHeld := false
        line := { x.line with outbound := x.line.outbound.close }
        inbound := x.inbound.stop
        users := .sharing .idle
        deeds := x.deeds ++ [.closed call result] } := by
  unfold release? at hmove
  split at hmove
  · rename_i call deadline stage husers
    cases stage with
    | releasing result =>
      cases hmove
      exact ⟨call, deadline, result, husers, rfl⟩
    | _ => cases hmove
  · cases hmove

theorem sound_release (h : x.Sound) (hmove : x.release? = some x') : x'.Sound := by
  obtain ⟨call, deadline, result, husers, rfl⟩ := release?_eq_some hmove
  have hheld := h.held_of_users (by simp [husers])
  have hstage := h.underway
  rw [husers] at hstage
  obtain ⟨⟨outcome, htrace⟩, hfair⟩ := hstage
  have hbegan : .began call (.close deadline) ∈ trace call x.deeds := by
    rw [htrace]
    exact List.mem_cons_self
  refine ⟨h.orderly.snoc ⟨?_, ⟨deadline, outcome, htrace⟩, hfair⟩,
    fresh_snoc h.fresh (Nat.le_refl _) ?_, ?_, fun _ => ⟨rfl, rfl, rfl⟩,
    ⟨h.listens.registry, h.listens.queue, Or.inr ⟨rfl, by simp⟩⟩, begun_idle _⟩
  · simp [ChannelDeed.isAnswered, h.not_closed hheld]
  · intro c hc
    cases hc
    exact h.fresh _ (ChannelDeed.mem_of_mem_trace hbegan) call rfl
  · simp only [true_iff]
    exact ⟨call, result, by simp⟩

/-! ## What the job sends -/

/-- The job is heard of, in a way that the channel stays held. -/
theorem sound_heard (h : x.Sound) (hheld : x.isHeld = true) {inbound : Inbound JobReply}
    (hanswered : deed.isAnswered = false) (hclosed : ∀ call result, deed ≠ .closed call result)
    (hcall : deed.call? = none) (hcause : Cause x.deeds deed)
    (hlistens : ({ x with inbound }.log deed).Listens) : ({ x with inbound }.log deed).Sound := by
  refine ⟨h.orderly.snoc ⟨?_, hcause⟩, fresh_snoc h.fresh (Nat.le_refl _) (by simp [hcall]),
    h.held.trans (ChannelDeed.closed_snoc_iff hclosed).symm, ?_, hlistens, h.underway.snoc hcall⟩
  · simp [hanswered, h.not_closed hheld]
  · intro hfalse
    exact absurd (hheld.symm.trans hfalse) (by simp)

/-- A receiver that wants bytes has read the front of a header. -/
theorem Sound.listening (h : x.Sound) (hwants : x.inbound.wants ≠ 0) :
    x.isHeld = true ∧ ¬ Over x.deeds ∧ x.inbound.receiver = .header (heardIn x.deeds) ∧
      x.inbound.wants = headerSize - (heardIn x.deeds).length ∧
      ∀ ending, .lost ending ∉ x.deeds := by
  rcases h.listens.stands with ⟨hreceiver, hlength, hnone⟩ | ⟨hreceiver, -⟩
  · rcases h.recv? with ⟨-, hover, hheld⟩ | ⟨⟨answer, hsome⟩, -⟩
    · exact ⟨hheld, hover, hreceiver, by simp [Inbound.wants, hreceiver], hnone⟩
    · simp [Inbound.recv?, Inbound.isOver, h.listens.queue, hreceiver] at hsome
  · simp [Inbound.wants, hreceiver] at hwants

/-- No tag stands for anything in what a job sends, so a complete header ends the receiver. -/
theorem take_of_header {i : Inbound JobReply} {seen : Bytes} (bytes : Bytes)
    (hregistry : i.registry = Direction.jobToRoot.registry)
    (hreceiver : i.receiver = .header seen) :
    (i.take bytes).registry = i.registry ∧ (i.take bytes).queue = i.queue ∧
      (i.take bytes).receiver =
        if headerSize ≤ (seen ++ bytes).length then .ended else .header (seen ++ bytes) := by
  have hkind : ∀ tag, i.registry.kindOf? tag = none := by
    intro tag
    rw [hregistry]
    rfl
  unfold Inbound.take
  rw [hreceiver]
  simp only
  split
  · unfold Inbound.enter
    simp only [hkind]
    exact ⟨rfl, rfl, rfl⟩
  · exact ⟨rfl, rfl, rfl⟩

theorem sound_read {bytes : Bytes} (h : x.Sound) (hmove : x.next? (.read bytes) = some x') :
    x'.Sound := by
  obtain ⟨hsome, heq⟩ := Option.ite_none_left_eq_some.mp hmove
  cases heq
  rw [not_or, not_lt] at hsome
  obtain ⟨hbytes, hroom⟩ := hsome
  have hpos : 0 < bytes.length := List.length_pos_of_ne_nil hbytes
  obtain ⟨hheld, hover, hreceiver, hwants, hnone⟩ := h.listening (by omega)
  obtain ⟨hregistry, hqueue, htaken⟩ := take_of_header bytes h.listens.registry hreceiver
  have hheard : heardIn (x.deeds ++ [.heard bytes]) = heardIn x.deeds ++ bytes :=
    ChannelDeed.heardIn_snoc x.deeds (.heard bytes)
  refine sound_heard h hheld rfl (by simp) rfl ⟨hover, ?_⟩
    ⟨hregistry.trans h.listens.registry, hqueue.trans h.listens.queue, ?_⟩
  · rw [List.length_append]
    omega
  · simp only [log]
    rw [htaken, hheard]
    split
    · rename_i hlong
      refine Or.inr ⟨rfl, fun _ => Or.inr ?_⟩
      rw [hheard]
      exact hlong
    · rename_i hshort
      refine Or.inl ⟨rfl, by omega, ?_⟩
      intro ending hmem
      rcases List.mem_append.mp hmem with hmem | hmem
      · exact hnone ending hmem
      · cases List.mem_singleton.mp hmem

theorem sound_lose {ending : Ending} (h : x.Sound) (hmove : x.next? (.lose ending) = some x') :
    x'.Sound := by
  obtain ⟨hwants, heq⟩ := Option.ite_none_left_eq_some.mp hmove
  cases heq
  obtain ⟨hheld, hover, -⟩ := h.listening hwants
  refine sound_heard h hheld rfl (by simp) rfl hover
    ⟨h.listens.registry, h.listens.queue, Or.inr ⟨rfl, fun _ => Or.inl ⟨ending, ?_⟩⟩⟩
  exact List.mem_append_right _ (List.mem_singleton.mpr rfl)

/-! ## Steps and runs -/

theorem sound_next {move : Move} (h : x.Sound) (hmove : x.next? move = some x') : x'.Sound := by
  cases move with
  | pass time =>
    cases hmove
    exact ⟨h.orderly, h.fresh, h.held, h.released,
      ⟨h.listens.registry, h.listens.queue, h.listens.stands⟩, h.underway⟩
  | read bytes => exact sound_read h hmove
  | lose ending => exact sound_lose h hmove
  | begin asked => exact sound_begin h hmove
  | post i => exact sound_post h hmove
  | quit => exact sound_quit h hmove
  | write outcome => exact sound_write h hmove
  | grant i => exact sound_grant h hmove
  | receive => exact sound_receive h hmove
  | expire place => exact sound_expire h hmove
  | leave place => exact sound_leave h hmove
  | release => exact sound_release h hmove

theorem sound_run (moves : List Move) (h : x.Sound) (hrun : x.run? moves = some x') :
    x'.Sound := by
  induction moves generalizing x with
  | nil =>
    cases hrun
    exact h
  | cons move moves ih =>
    obtain ⟨u, hmove, hrest⟩ := Option.bind_eq_some_iff.mp hrun
    exact ih (sound_next h hmove) hrest

end JobUse
end ProcessTree
