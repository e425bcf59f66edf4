-- The whole life of a worker's channel as the root uses it: begin, start
-- requests that may be cut off, and a quit that may be cut off too. What the
-- worker takes for messages are messages that were sent in full; and once a
-- request was cut off, no call writes or receives anything any more.
import ProcessTree.Proofs.Channel.Link
import ProcessTree.Proofs.Worker.OutOfStep
import ProcessTree.Proofs.Worker.TornFrame

namespace ProcessTree

open ProcessTree.Frame

/-! ## The quit -/

/-- A line on which nothing but a quit was sent or is sent. -/
structure OnlyQuit (l : Line ControlMessage) : Prop where
  sound : ∃ part, l.Sound Direction.rootToWorker.registry part
  current : ∀ m s, l.current = some (m, s) → m = .quit ∧ l.sent = []
  part : l.emitted <+: Message.wire Direction.rootToWorker.registry (.quit : ControlMessage)
  sent : l.sent =
    if l.emitted = Message.wire Direction.rootToWorker.registry (.quit : ControlMessage) then
      [.quit] else []

namespace OnlyQuit

variable {l l' : Line ControlMessage}

/-- The same channel, and nothing sent on it yet. -/
theorem fresh {tail : Bytes} (h : l.Sound Direction.rootToWorker.registry tail)
    (hfree : l.current = none) : OnlyQuit { l with emitted := [], sent := [] } := by
  refine ⟨⟨[], h.registry, fun _ hm => (nomatch hm), rfl, ?_, fun _ => Or.inl rfl⟩, ?_,
    List.nil_prefix, rfl⟩
  · exact Line.forall_current_of_free hfree
  · exact Line.forall_current_of_free hfree

theorem send {answer : Option ChannelError} (h : OnlyQuit l) (hempty : l.emitted = [])
    (hsend : l.send? .quit = some (answer, l')) : OnlyQuit l' := by
  obtain ⟨part, hsound⟩ := h.sound
  have hsent : l.sent = [] := by
    rw [h.sent, hempty, wire_quit]
    rfl
  rcases Line.send?_eq_some hsend with ⟨e, -, rfl, -⟩ | ⟨-, hfree, hopen, s, hframe, rfl⟩
  · exact h
  · have hpart : part = [] := by
      have hemitted := hsound.emitted
      rw [hempty, hsent] at hemitted
      exact hemitted.symm
    rw [hpart] at hsound
    refine ⟨⟨[], hsound.send hopen hframe⟩, ?_, h.part, h.sent⟩
    intro m s' hm
    cases hm
    exact ⟨rfl, hsent⟩

theorem write {outcome : WriteOutcome} {answer : Option (Except ChannelError Unit)}
    (h : OnlyQuit l) (hwrite : l.write? outcome = some (answer, l')) : OnlyQuit l' := by
  obtain ⟨part, hsound⟩ := h.sound
  obtain ⟨m, s, hcurrent⟩ := Line.current_of_write? hwrite
  obtain ⟨rfl, hnone⟩ := h.current m s hcurrent
  cases hsound.write hcurrent hwrite with
  | part _ _ hsent hcurrent' hsound' =>
    obtain ⟨rest, hrest, hwire⟩ := hsound'.partly hcurrent'
    have hemitted := hsound'.emitted
    rw [hsent, hnone, List.flatMap_nil, List.nil_append] at hemitted
    rw [← hemitted] at hwire
    refine ⟨⟨_, hsound'⟩, ?_, ⟨rest, hwire⟩, ?_⟩
    · intro m' s' hm'
      rw [hcurrent'] at hm'
      cases hm'
      exact ⟨rfl, hsent.trans hnone⟩
    · rw [hsent, hnone, if_neg]
      intro hwhole
      rw [← hwhole] at hwire
      exact hrest (List.append_right_eq_self.mp hwire)
  | whole _ _ hsent hcurrent' hsound' =>
    have hemitted := hsound'.emitted
    rw [hsent, hnone] at hemitted
    have hwhole : l'.emitted =
        Message.wire Direction.rootToWorker.registry (.quit : ControlMessage) := by
      simpa using hemitted
    refine ⟨⟨[], hsound'⟩, Line.forall_current_of_free hcurrent', hwhole ▸ List.prefix_refl _, ?_⟩
    rw [if_pos hwhole, hsent, hnone]
    rfl
  | failed _ _ hsent hcurrent' hsound' =>
    have hemitted : l'.emitted = l.emitted := by
      rw [hsound'.emitted, hsound.emitted, hsent]
    refine ⟨⟨_, hsound'⟩, Line.forall_current_of_free hcurrent', ?_, ?_⟩
    · rw [hemitted]
      exact h.part
    · rw [hsent, hemitted]
      exact h.sent

theorem shut (h : OnlyQuit l) : OnlyQuit { l.abandon with outbound := l.outbound.close } := by
  obtain ⟨part, hsound⟩ := h.sound
  exact ⟨⟨part, hsound.abandon.onOutbound rfl rfl⟩, fun _ _ hm => (nomatch hm), h.part, h.sent⟩

/-- Behind requests of which the last may be cut off, a quit is read or nothing is. -/
theorem parse_behind (h : OnlyQuit l) {messages : List ControlMessage} {tail : Bytes}
    (hregistered : ∀ m ∈ messages, ∃ tag,
      Direction.rootToWorker.registry.tagOf? (Message.kind m) = some tag)
    (htail : Desk.OfStart tail) :
    (parse (M := ControlMessage) Direction.rootToWorker.registry
      (messages.flatMap (Message.wire Direction.rootToWorker.registry) ++ tail ++ l.emitted)).1 =
        messages ++ if tail = [] then l.sent else [] := by
  rw [List.append_assoc, Message.parse_wires controlMessage_readsBack _ _ hregistered]
  by_cases hnil : tail = []
  · obtain ⟨part, hsound⟩ := h.sound
    rw [if_pos hnil, hnil, List.nil_append, hsound.parse_emitted controlMessage_readsBack]
  · rcases htail with hnil' | ⟨identity, hpartly⟩
    · exact absurd hnil' hnil
    · rw [if_neg hnil, parse_cut hpartly hnil h.part]

end OnlyQuit

/-! ## Moves -/

/-- How far the life of the channel has come. -/
inductive Stage where
  /-- The worker is sent its begin. -/
  | beginning
  /-- Begin was not sent, and there is no worker to ask for anything. -/
  | failed
  | serving
  /-- The worker is closed, and quit is sent next. -/
  | parting
  | quitting
  | closed
  deriving DecidableEq

/-- A worker's channel as the root uses it, up to the loop that receives from it. -/
structure Farewell where
  parent : Int32
  stage : Stage
  desk : Desk
  down : Link ControlMessage
  /-- The messages that the worker's loop took. -/
  heard : List ControlMessage

namespace Farewell

inductive Move where
  | begin
  /-- A write call of the send of begin or quit. -/
  | write (outcome : WriteOutcome)
  | desk (move : Desk.Move)
  /-- The call that has its turn receives. -/
  | receive (received : Except ChannelError ReplyMessage)
  /-- The worker is closed, while no call is under way. -/
  | part
  | quit
  /-- The send of quit is over or cut off, and the channel is closed; or begin is cut off. -/
  | shut
  | carry (carry : Link.Carry)
  | hear

def start (parent : Int32) : Farewell where
  parent := parent
  stage := .beginning
  desk := .start
  down := .start Direction.rootToWorker.registry
  heard := []

/-- The same channel with another line, at another stage. -/
def onLine (x : Farewell) (stage : Stage) (line : Line ControlMessage) : Farewell :=
  { x with stage, down := { x.down with line } }

/-- What a write call of begin leads to. -/
def afterBegin : Option (Except ChannelError Unit) → Stage
  | none => .beginning
  | some (.ok ()) => .serving
  | some (.error _) => .failed

def next? (x : Farewell) : Move → Option Farewell
  | .begin =>
    if x.stage = .beginning then
      (x.down.line.send? (.begin ⟨x.parent⟩)).map fun (refused, line) =>
        x.onLine (if refused.isSome then .failed else .beginning) line
    else none
  | .write outcome =>
    if x.stage = .beginning then
      (x.down.line.write? outcome).map fun (answer, line) => x.onLine (afterBegin answer) line
    else if x.stage = .quitting then
      (x.down.line.write? outcome).map fun (_, line) => x.onLine .quitting line
    else none
  | .desk move =>
    if x.stage = .serving ∨ x.stage = .closed then
      (x.desk.next? x.down.line move).map fun (desk, line) =>
        { x with desk, down := { x.down with line } }
    else none
  | .receive received => (x.desk.receive? received).map fun desk => { x with desk }
  | .part =>
    if x.stage = .serving ∧ x.desk.holder.isNone ∧ x.desk.waiting = [] then
      some { x with stage := .parting }
    else none
  | .quit =>
    if x.stage = .parting then
      (x.down.line.send? .quit).map fun (_, line) => x.onLine .quitting line
    else none
  | .shut =>
    if x.stage = .beginning then some (x.onLine .failed x.down.line.abandon)
    else if x.stage = .parting ∨ x.stage = .quitting then
      some (x.onLine .closed
        { x.down.line.abandon with outbound := x.down.line.outbound.close })
    else none
  | .carry carry => (x.down.carry? carry).map fun down => { x with down }
  | .hear => x.down.recv?.bind fun (received, down) =>
    match received with
    | .ok m => some { x with heard := x.heard ++ [m], down }
    | .error _ => none

/-- A row of moves. -/
def run? (x : Farewell) : List Move → Option Farewell
  | [] => some x
  | move :: moves => (x.next? move).bind fun x' => x'.run? moves

/-! ## The invariant -/

/-- The messages that were sent in full before the quit. -/
def spoken (x : Farewell) : List ControlMessage :=
  .begin ⟨x.parent⟩ :: x.desk.asked.map fun identity => .start ⟨identity⟩

/-- Nothing was sent in full; at most the front of a begin is on the wire. -/
def Begins (x : Farewell) : Prop :=
  x.desk = .start ∧ x.down.line.sent = [] ∧
    (∀ m s, x.down.line.current = some (m, s) → m = .begin ⟨x.parent⟩) ∧
    ∃ tail, x.down.line.Sound Direction.rootToWorker.registry tail ∧
      (x.stage = .beginning → x.down.line.current = none → tail = [])

def Serves (x : Farewell) : Prop :=
  ∃ tail, x.desk.Sound x.down.line x.parent tail ∧ Desk.OfStart tail

/-- Behind what the calls have left on the wire there is nothing but a quit. Calls that come later
find the channel closed. -/
def Leaves (x : Farewell) : Prop :=
  ∃ tail base l, x.desk.Sound base x.parent tail ∧ Desk.OfStart tail ∧ OnlyQuit l ∧
    base.current = none ∧ x.down.line = l.behind base.emitted base.sent ∧
    (x.stage = .parting → l.emitted = []) ∧
    (x.stage = .closed →
      l.current = none ∧ l.outbound.isOpen = false ∧ base.outbound = l.outbound)

def StandsAt (x : Farewell) : Stage → Prop
  | .beginning | .failed => x.Begins
  | .serving => x.Serves
  | .parting | .quitting => x.Leaves ∧ x.desk.holder = none
  | .closed => x.Leaves

structure Sound (x : Farewell) : Prop where
  reads : x.down.Reads Direction.rootToWorker.registry (fun _ => True) x.heard
  stands : x.StandsAt x.stage

theorem sound_start (parent : Int32) : (start parent).Sound := by
  have hline := Line.sound_start (M := ControlMessage) Direction.rootToWorker.registry
  refine ⟨⟨rfl, Nat.le_refl 0, Inbound.follows_start _ _⟩, rfl, rfl, ?_, [], hline, ?_⟩
  · exact Line.forall_current_of_free rfl
  · intro _ _
    rfl

variable {x x' : Farewell}

theorem Sound.standsAt (h : x.Sound) {stage : Stage} (hstage : x.stage = stage) :
    x.StandsAt stage := hstage ▸ h.stands

/-- Calls have their turn only while the worker serves, or after its channel was closed. -/
theorem Sound.desk_of_holder (h : x.Sound) (hholder : x.desk.holder ≠ none) :
    (x.stage = .serving ∧ x.Serves) ∨ (x.stage = .closed ∧ x.Leaves) := by
  cases hstage : x.stage with
  | beginning | failed =>
    obtain ⟨hstart, -⟩ := h.standsAt hstage
    rw [hstart] at hholder
    exact absurd rfl hholder
  | serving => exact Or.inl ⟨rfl, h.standsAt hstage⟩
  | parting | quitting =>
    obtain ⟨-, hnone⟩ := h.standsAt hstage
    exact absurd hnone hholder
  | closed => exact Or.inr ⟨rfl, h.standsAt hstage⟩

/-! ## Begin -/

theorem sound_begin (h : x.Sound) (hmove : x.next? .begin = some x') : x'.Sound := by
  simp only [next?] at hmove
  split at hmove
  · rename_i hstage
    obtain ⟨⟨refused, line⟩, hsend, rfl⟩ := Option.map_eq_some_iff.mp hmove
    obtain ⟨hdesk, hsent, hcurrent, tail, hline, hclean⟩ := h.standsAt hstage
    rcases Line.send?_eq_some hsend with ⟨e, rfl, rfl, -⟩ | ⟨rfl, hfree, hopen, s, hframe, rfl⟩
    · exact ⟨h.reads, hdesk, hsent, hcurrent, tail, hline, nofun⟩
    · obtain rfl := hclean hstage hfree
      refine ⟨h.reads.onLine (List.prefix_refl _), hdesk, hsent, ?_, [], hline.send hopen hframe,
        fun _ _ => rfl⟩
      intro m s' hm
      cases hm
      rfl
  · cases hmove

/-- The worker serves once its begin is sent in full. -/
theorem sound_write (h : x.Sound) {outcome : WriteOutcome}
    (hmove : x.next? (.write outcome) = some x') : x'.Sound := by
  simp only [next?] at hmove
  split at hmove
  · rename_i hstage
    obtain ⟨⟨answer, line⟩, hwrite, rfl⟩ := Option.map_eq_some_iff.mp hmove
    obtain ⟨hdesk, hsent, hcurrent, tail, hline, -⟩ := h.standsAt hstage
    obtain ⟨m, s, hm⟩ := Line.current_of_write? hwrite
    obtain rfl := hcurrent m s hm
    have hreads := h.reads.onLine ⟨_, (Line.write?_emitted hm hwrite).symm⟩
    cases hline.write hm hwrite with
    | part _ _ hsent' hcurrent' hline' =>
      refine ⟨hreads, hdesk, hsent'.trans hsent, ?_, _, hline', ?_⟩
      · intro m' s' hm'
        rw [show (x.onLine (afterBegin none) line).down.line = line from rfl, hcurrent'] at hm'
        cases hm'
        rfl
      · intro _ hnone
        rw [show (x.onLine (afterBegin none) line).down.line = line from rfl, hcurrent'] at hnone
        cases hnone
    | whole _ _ hsent' hcurrent' hline' =>
      rw [hsent] at hsent'
      refine ⟨hreads, [], ?_, Or.inl rfl⟩
      rw [show (x.onLine (afterBegin (some (.ok ()))) line).desk = Desk.start from hdesk]
      exact Desk.sound_start x.parent hline' hsent' hcurrent'
    | failed _ _ hsent' hcurrent' hline' =>
      exact ⟨hreads, hdesk, hsent'.trans hsent, Line.forall_current_of_free hcurrent', tail, hline',
        nofun⟩
  · split at hmove
    · rename_i hstage
      obtain ⟨⟨answer, line⟩, hwrite, rfl⟩ := Option.map_eq_some_iff.mp hmove
      obtain ⟨m, s, hm⟩ := Line.current_of_write? hwrite
      obtain ⟨⟨tail, base, l, hdesk, htail, hquit, hfree, hline, -⟩, hholder⟩ :=
        h.standsAt hstage
      have hreads := h.reads.onLine ⟨_, (Line.write?_emitted hm hwrite).symm⟩
      rw [hline, Line.write?_behind] at hwrite
      obtain ⟨⟨answer', l'⟩, hwrite', heq⟩ := Option.map_eq_some_iff.mp hwrite
      cases heq
      exact ⟨hreads, ⟨tail, base, l', hdesk, htail, hquit.write hwrite', hfree, rfl, nofun, nofun⟩,
        hholder⟩
    · cases hmove

/-! ## Calls -/

theorem sound_desk (h : x.Sound) {move : Desk.Move} (hmove : x.next? (.desk move) = some x') :
    x'.Sound := by
  simp only [next?] at hmove
  split at hmove
  · rename_i hstages
    obtain ⟨⟨desk, line⟩, hdesk, rfl⟩ := Option.map_eq_some_iff.mp hmove
    rcases hstages with hstage | hstage
    · obtain ⟨tail, hsound, htail⟩ := h.standsAt hstage
      obtain ⟨tail', hsound', hemitted, -⟩ := Desk.sound_next hsound hdesk
      refine ⟨h.reads.onLine hemitted, ?_⟩
      rw [show ({ x with desk, down := { x.down with line } } : Farewell).stage = .serving
        from hstage]
      exact ⟨tail', hsound', Desk.ofStart_next hsound htail hdesk hsound'⟩
    · obtain ⟨tail, base, l, hsound, htail, hquit, hfree, hline, -, hclosed⟩ := h.standsAt hstage
      obtain ⟨hidle, hshut, hsame⟩ := hclosed hstage
      obtain ⟨rfl, hdesk', -⟩ := Desk.next?_of_shut (l := base) (by rw [hline]; exact hidle)
        (by rw [hline]; exact hshut) hfree (by rw [hline]; exact hsame) hdesk
      obtain ⟨tail', hsound', -⟩ := Desk.sound_next hsound hdesk'
      refine ⟨h.reads, ?_⟩
      rw [show ({ x with desk, down := { x.down with line := x.down.line } } : Farewell).stage =
        .closed from hstage]
      refine ⟨tail', base, l, hsound', ?_, hquit, hfree, hline, nofun, fun _ => ?_⟩
      · exact Desk.ofStart_next hsound htail hdesk' hsound'
      · exact ⟨hidle, hshut, hsame⟩
  · cases hmove

theorem sound_receive (h : x.Sound) {received : Except ChannelError ReplyMessage}
    (hmove : x.next? (.receive received) = some x') : x'.Sound := by
  obtain ⟨desk, hdesk, rfl⟩ := Option.map_eq_some_iff.mp hmove
  have hholder : x.desk.holder ≠ none := by
    intro hnone
    simp [Desk.receive?, hnone] at hdesk
  refine ⟨h.reads, ?_⟩
  rcases h.desk_of_holder hholder with ⟨hstage, tail, hsound, htail⟩ |
    ⟨hstage, tail, base, l, hsound, hrest⟩
  · rw [show ({ x with desk } : Farewell).stage = .serving from hstage]
    exact ⟨tail, (Desk.sound_receive hsound hdesk).1, htail⟩
  · rw [show ({ x with desk } : Farewell).stage = .closed from hstage]
    rw [hstage] at hrest
    exact ⟨tail, base, l, (Desk.sound_receive hsound hdesk).1, hstage.symm ▸ hrest⟩

/-! ## Quit -/

theorem sound_part (h : x.Sound) (hmove : x.next? .part = some x') : x'.Sound := by
  simp only [next?] at hmove
  split at hmove
  · rename_i hguard
    cases hmove
    obtain ⟨hstage, hnone, -⟩ := hguard
    obtain ⟨tail, hsound, htail⟩ := h.standsAt hstage
    have hholder := Option.isNone_iff_eq_none.mp hnone
    have hfree := hsound.idle (by
      rintro ⟨hd, hhd, -⟩
      rw [hholder] at hhd
      cases hhd)
    refine ⟨h.reads, ⟨tail, x.down.line, { x.down.line with emitted := [], sent := [] }, hsound,
      htail, .fresh hsound.wire hfree, hfree, ?_, fun _ => rfl, nofun⟩, hholder⟩
    simp only [Line.behind, List.append_nil]
  · cases hmove

theorem sound_quit (h : x.Sound) (hmove : x.next? .quit = some x') : x'.Sound := by
  simp only [next?] at hmove
  split at hmove
  · rename_i hstage
    obtain ⟨⟨refused, line⟩, hsend, rfl⟩ := Option.map_eq_some_iff.mp hmove
    obtain ⟨⟨tail, base, l, hsound, htail, hquit, hfree, hline, hfresh, -⟩, hholder⟩ :=
      h.standsAt hstage
    have hmore : x.down.line.emitted <+: line.emitted := by
      rw [Line.send?_emitted hsend]
    have hreads := h.reads.onLine hmore
    rw [hline, Line.send?_behind] at hsend
    obtain ⟨⟨refused', l'⟩, hsend', heq⟩ := Option.map_eq_some_iff.mp hsend
    cases heq
    exact ⟨hreads, ⟨tail, base, l', hsound, htail, hquit.send (hfresh hstage) hsend', hfree, rfl,
      nofun, nofun⟩, hholder⟩
  · cases hmove

theorem sound_shut (h : x.Sound) (hmove : x.next? .shut = some x') : x'.Sound := by
  simp only [next?] at hmove
  split at hmove
  · rename_i hstage
    cases hmove
    obtain ⟨hdesk, hsent, -, tail, hline, -⟩ := h.standsAt hstage
    exact ⟨h.reads.onLine (List.prefix_refl _), hdesk, hsent, nofun, tail, hline.abandon, nofun⟩
  · split at hmove
    · rename_i hstages
      cases hmove
      obtain ⟨tail, base, l, hsound, htail, hquit, hfree, hline, -⟩ : x.Leaves := by
        rcases hstages with hstage | hstage
        · exact (h.standsAt hstage).1
        · exact (h.standsAt hstage).1
      refine ⟨h.reads.onLine (List.prefix_refl _), tail, { base with outbound := l.outbound.close },
        { l.abandon with outbound := l.outbound.close }, ?_, htail, hquit.shut, hfree, ?_, nofun,
        fun _ => ⟨rfl, rfl, rfl⟩⟩
      · obtain ⟨part, hsent⟩ := hquit.sound
        exact hsound.onOutbound hfree (hsent.registry.trans hsound.wire.registry.symm)
      · simp only [onLine, hline]
        rfl
    · cases hmove

/-! ## All moves -/

theorem sound_next {move : Move} (h : x.Sound) (hmove : x.next? move = some x') : x'.Sound := by
  cases move with
  | begin => exact sound_begin h hmove
  | write outcome => exact sound_write h hmove
  | desk move => exact sound_desk h hmove
  | receive received => exact sound_receive h hmove
  | part => exact sound_part h hmove
  | quit => exact sound_quit h hmove
  | shut => exact sound_shut h hmove
  | carry carry =>
    obtain ⟨down, hcarry, rfl⟩ := Option.map_eq_some_iff.mp hmove
    obtain ⟨hreads, hline⟩ := h.reads.carry hcarry
    obtain ⟨line, taken, inbound⟩ := down
    cases hline
    exact ⟨hreads, h.stands⟩
  | hear =>
    obtain ⟨⟨received, down⟩, hrecv, hmove⟩ := Option.bind_eq_some_iff.mp hmove
    rcases h.reads.recv hrecv with ⟨m, rfl, -, rfl, hreads⟩ | ⟨e, rfl, -⟩
    · cases hmove
      exact ⟨hreads, h.stands⟩
    · cases hmove

/-- The invariant carries over a whole run, by induction on its moves. -/
theorem sound_run (moves : List Move) (h : x.Sound) (hrun : x.run? moves = some x') :
    x'.Sound := by
  induction moves generalizing x with
  | nil =>
    cases hrun
    exact h
  | cons move moves ih =>
    obtain ⟨x₁, hmove, hrun⟩ := Option.bind_eq_some_iff.mp hrun
    exact ih (sound_next h hmove) hrun

/-! ## What the worker hears -/

/-- On the wire are the messages that were sent in full, the front of a start request if one was
begun behind them, and the front of a quit. Behind a request that was cut off the quit is not
heard. -/
structure Wire (x : Farewell) (tail quit : Bytes) : Prop where
  ofStart : Desk.OfStart tail
  ofQuit : quit <+: Message.wire Direction.rootToWorker.registry (.quit : ControlMessage)
  emitted : x.down.line.emitted =
    x.spoken.flatMap (Message.wire Direction.rootToWorker.registry) ++ tail ++ quit
  sent : x.down.line.sent = x.spoken ++
    if quit = Message.wire Direction.rootToWorker.registry (.quit : ControlMessage) then [.quit]
    else []
  heard : x.heard ++ x.down.inbound.ahead <+: x.down.line.sent
  cut : tail ≠ [] → x.heard ++ x.down.inbound.ahead <+: x.spoken

theorem Serves.wire (h : x.Serves) (hreads : x.down.Reads Direction.rootToWorker.registry
    (fun _ => True) x.heard) : ∃ tail quit, x.Wire tail quit := by
  obtain ⟨tail, hsound, htail⟩ := h
  have hheard := hreads.received
  rw [hsound.wire.parse_emitted controlMessage_readsBack, hsound.sent] at hheard
  refine ⟨tail, [], htail, List.nil_prefix, ?_, ?_, ?_, fun _ => hheard⟩
  · rw [List.append_nil, hsound.wire.emitted, hsound.sent]
    rfl
  · rw [wire_quit]
    exact hsound.sent.trans (List.append_nil _).symm
  · rw [hsound.sent]
    exact hheard

theorem Leaves.wire (h : x.Leaves) (hreads : x.down.Reads Direction.rootToWorker.registry
    (fun _ => True) x.heard) : ∃ tail quit, x.Wire tail quit := by
  obtain ⟨tail, base, l, hsound, htail, hquit, -, hline, -⟩ := h
  have hbase : base.sent = x.spoken := hsound.sent
  have hemitted : x.down.line.emitted =
      x.spoken.flatMap (Message.wire Direction.rootToWorker.registry) ++ tail ++ l.emitted := by
    rw [hline, ← hbase, ← hsound.wire.emitted]
    rfl
  have hsent : x.down.line.sent = x.spoken ++ l.sent := by
    rw [hline, ← hbase]
    rfl
  have hheard := hreads.received
  rw [hemitted, hquit.parse_behind (fun m _ => Direction.exists_tag_rootToWorker m) htail] at hheard
  refine ⟨tail, l.emitted, htail, hquit.part, hemitted, ?_, ?_, ?_⟩
  · rw [hsent, hquit.sent]
  · rw [hsent]
    refine hheard.trans ?_
    by_cases hcut : tail = []
    · rw [if_pos hcut]
    · rw [if_neg hcut, List.append_nil]
      exact List.prefix_append _ _
  · intro hcut
    rw [if_neg hcut, List.append_nil] at hheard
    exact hheard

/-- Before the worker serves, nothing was sent in full. -/
theorem Sound.wire (h : x.Sound) :
    (x.down.line.sent = [] ∧ x.heard ++ x.down.inbound.ahead = []) ∨
      ∃ tail quit, x.Wire tail quit := by
  have hbegins : x.Begins → x.down.line.sent = [] ∧ x.heard ++ x.down.inbound.ahead = [] := by
    rintro ⟨-, hsent, -, tail, hline, -⟩
    have hheard := h.reads.received
    rw [hline.parse_emitted controlMessage_readsBack, hsent] at hheard
    exact ⟨hsent, List.prefix_nil.mp hheard⟩
  cases hstage : x.stage with
  | beginning | failed => exact Or.inl (hbegins (h.standsAt hstage))
  | serving => exact Or.inr ((h.standsAt hstage).wire h.reads)
  | parting | quitting => exact Or.inr ((h.standsAt hstage).1.wire h.reads)
  | closed => exact Or.inr ((h.standsAt hstage).wire h.reads)

/-! ## Out of step for good -/

/-- Only calls change what is known of the calls. -/
theorem desk_of_next? {move : Move} (hmove : x.next? move = some x') :
    x'.desk = x.desk ∨
      (∃ deskMove line, x.desk.next? x.down.line deskMove = some (x'.desk, line)) ∨
      ∃ received, x.desk.receive? received = some x'.desk := by
  cases move with
  | desk move =>
    simp only [next?] at hmove
    split at hmove
    · obtain ⟨⟨desk, line⟩, hdesk, rfl⟩ := Option.map_eq_some_iff.mp hmove
      exact Or.inr (Or.inl ⟨move, line, hdesk⟩)
    · cases hmove
  | receive received =>
    obtain ⟨desk, hdesk, rfl⟩ := Option.map_eq_some_iff.mp hmove
    exact Or.inr (Or.inr ⟨received, hdesk⟩)
  | begin | quit =>
    refine Or.inl ?_
    simp only [next?] at hmove
    split at hmove
    · obtain ⟨_, -, rfl⟩ := Option.map_eq_some_iff.mp hmove
      rfl
    · cases hmove
  | write outcome =>
    refine Or.inl ?_
    simp only [next?] at hmove
    split at hmove
    · obtain ⟨_, -, rfl⟩ := Option.map_eq_some_iff.mp hmove
      rfl
    · split at hmove
      · obtain ⟨_, -, rfl⟩ := Option.map_eq_some_iff.mp hmove
        rfl
      · cases hmove
  | part =>
    refine Or.inl ?_
    simp only [next?] at hmove
    split at hmove
    · cases hmove
      rfl
    · cases hmove
  | shut =>
    refine Or.inl ?_
    simp only [next?] at hmove
    split at hmove
    · cases hmove
      rfl
    · split at hmove
      · cases hmove
        rfl
      · cases hmove
  | carry carry =>
    refine Or.inl ?_
    obtain ⟨_, -, rfl⟩ := Option.map_eq_some_iff.mp hmove
    rfl
  | hear =>
    refine Or.inl ?_
    obtain ⟨⟨received, down⟩, -, hmove⟩ := Option.bind_eq_some_iff.mp hmove
    cases received with
    | ok m =>
      cases hmove
      rfl
    | error e => cases hmove

/-- A send that has begun goes on, or is over in full, or is cut off. -/
theorem isSending_next {move : Move} (h : x.Sound) (hsending : x.desk.IsSending)
    (hmove : x.next? move = some x') :
    x'.desk.IsSending ∨ x'.desk.Broken ∨
      ∃ identity, x'.desk.asked = x.desk.asked ++ [identity] := by
  have hholding : x.desk.holder ≠ none := by
    obtain ⟨hd, hholder, -⟩ := hsending
    rw [hholder]
    exact Option.some_ne_none hd
  rcases desk_of_next? hmove with hsame | ⟨deskMove, line, hdesk⟩ | ⟨received, hdesk⟩
  · rw [hsame]
    exact Or.inl hsending
  · rcases h.desk_of_holder hholding with ⟨-, tail, hsound, -⟩ |
      ⟨hstage, tail, base, l, hsound, -, -, hfree, hline, -, hclosed⟩
    · exact hsending.next hsound hdesk
    · obtain ⟨hidle, hshut, hsame⟩ := hclosed hstage
      obtain ⟨-, hdesk', -⟩ := Desk.next?_of_shut (l := base) (by rw [hline]; exact hidle)
        (by rw [hline]; exact hshut) hfree (by rw [hline]; exact hsame) hdesk
      exact hsending.next hsound hdesk'
  · obtain ⟨hd, hholder, hcall⟩ := hsending
    simp [Desk.receive?, hholder, hcall] at hdesk

/-- What is still the same once a request was cut off: calls that have come to their end since then
were told that the worker is out of step. -/
structure Still (x x' : Farewell) : Prop where
  broken : x'.desk.Broken
  asked : x'.desk.asked = x.desk.asked
  consumed : x'.desk.consumed = x.desk.consumed
  done : ∃ refused, x'.desk.done = x.desk.done ++ refused ∧
    ∀ hd ∈ refused, hd.call = .finished (.error .workerOutOfStep)

theorem still_next {move : Move} (h : x.desk.Broken) (hmove : x.next? move = some x') :
    x.Still x' := by
  rcases desk_of_next? hmove with hsame | ⟨deskMove, line, hdesk⟩ | ⟨received, hdesk⟩
  · rw [← hsame] at h
    exact ⟨h, by rw [hsame], by rw [hsame], [], by rw [hsame, List.append_nil], by simp⟩
  · obtain ⟨hbroken, -, hasked, hconsumed, hdone⟩ := Desk.broken_next h hdesk
    exact ⟨hbroken, hasked, hconsumed, hdone⟩
  · rw [Desk.receive?_of_broken h] at hdesk
    cases hdesk

theorem still_run (moves : List Move) (h : x.desk.Broken) (hrun : x.run? moves = some x') :
    x.Still x' := by
  induction moves generalizing x with
  | nil =>
    cases hrun
    exact ⟨h, rfl, rfl, [], (List.append_nil _).symm, by simp⟩
  | cons move moves ih =>
    obtain ⟨x₁, hmove, hrun⟩ := Option.bind_eq_some_iff.mp hrun
    obtain ⟨hbroken, hasked, hconsumed, first, hfirst, hrefused⟩ := still_next h hmove
    obtain ⟨hbroken', hasked', hconsumed', more, hmore, hrefused'⟩ := ih hbroken hrun
    refine ⟨hbroken', hasked'.trans hasked, hconsumed'.trans hconsumed, first ++ more, ?_, ?_⟩
    · rw [hmore, hfirst, List.append_assoc]
    · intro hd hmem
      rcases List.mem_append.mp hmem with hmem | hmem
      · exact hrefused hd hmem
      · exact hrefused' hd hmem

/-- A call of a worker that is out of step writes nothing. -/
theorem down_of_broken {move : Desk.Move} (h : x.desk.Broken)
    (hmove : x.next? (.desk move) = some x') : x'.down = x.down := by
  simp only [next?] at hmove
  split at hmove
  · obtain ⟨⟨desk, line⟩, hdesk, rfl⟩ := Option.map_eq_some_iff.mp hmove
    obtain ⟨-, rfl, -⟩ := Desk.broken_next h hdesk
    rfl
  · cases hmove

/-- It gets its turn, and with it is told that the worker is out of step. -/
theorem refused_of_broken (h : x.desk.Broken) (hstage : x.stage = .serving ∨ x.stage = .closed)
    {i : Nat} {identity : JobIdentity} (hi : x.desk.waiting[i]? = some identity) :
    ∃ x', x.next? (.desk (.grant i)) = some x' ∧ x'.down = x.down ∧ x'.desk.done =
      x.desk.done ++ [⟨identity, .finished (.error .workerOutOfStep), none⟩] := by
  simp only [next?]
  rw [if_pos hstage, Desk.grant_of_broken h hi]
  exact ⟨_, rfl, rfl, rfl⟩

/-! ## The law -/

/-- The worker hears only messages that were sent in full, in their order. A quit that comes behind
a start request which was cut off is not heard, and nothing is heard in place of the two. A send of
a start request that ends, and not in full, leaves the worker out of step for good: from then on
every call that gets its turn is told so, writes nothing and receives nothing. -/
theorem a_torn_request_is_the_last (parent : Int32) (moves : List Move) (x : Farewell)
    (hrun : (start parent).run? moves = some x) :
    x.heard ++ x.down.inbound.ahead <+: x.down.line.sent ∧
    (x.down.line.sent = [] ∨ ∃ tail quit, x.Wire tail quit) ∧
    (∀ move x', x.desk.IsSending → x.next? move = some x' →
      x'.desk.IsSending ∨ x'.desk.Broken ∨
        ∃ identity, x'.desk.asked = x.desk.asked ++ [identity]) ∧
    (x.desk.Broken →
      (∀ more x', x.run? more = some x' → x.Still x') ∧
      (∀ move x', x.next? (.desk move) = some x' → x'.down = x.down) ∧
      (∀ received, x.next? (.receive received) = none) ∧
      ∀ i identity, x.stage = .serving ∨ x.stage = .closed →
        x.desk.waiting[i]? = some identity →
        ∃ x', x.next? (.desk (.grant i)) = some x' ∧ x'.down = x.down ∧ x'.desk.done =
          x.desk.done ++ [⟨identity, .finished (.error .workerOutOfStep), none⟩]) := by
  have hsound := sound_run moves (sound_start parent) hrun
  refine ⟨?_, ?_, ?_, ?_⟩
  · rcases hsound.wire with ⟨-, hheard⟩ | ⟨tail, quit, hwire⟩
    · rw [hheard]
      exact List.nil_prefix
    · exact hwire.heard
  · exact hsound.wire.imp_left And.left
  · intro move x' hsending hmove
    exact isSending_next hsound hsending hmove
  · intro hbroken
    refine ⟨?_, ?_, ?_, ?_⟩
    · intro more x' hmore
      exact still_run more hbroken hmore
    · intro move x' hmove
      exact down_of_broken hbroken hmove
    · intro received
      simp only [next?, Desk.receive?_of_broken hbroken, Option.map_none]
    · intro i identity hstage hi
      exact refused_of_broken hbroken hstage hi

/-- The request of a call is cut off at its deadline with two bytes left to write, which the quit
makes up for. -/
def tornName : List Move :=
  List.flatten [
    [.begin, .write (.took 5), .write (.took 9)],
    [.desk (.call .mapRoot), .desk (.grant 0), .desk .post, .desk (.write (.took 5)),
      .desk (.write (.took 17)), .desk .expire, .desk (.call .shared), .desk (.grant 0)],
    [.part, .quit, .write (.took 5), .write (.took 1), .shut],
    [.carry (.read 5), .carry (.read 9), .carry .deliver, .hear],
    [.carry (.read 5), .carry (.read 19)]]

theorem a_quit_behind_a_torn_name_is_not_heard :
    ∃ x, (start 7).run? tornName = some x ∧ x.down.line.sent = [.begin ⟨7⟩, .quit] ∧
      x.heard = [.begin ⟨7⟩] ∧ x.down.inbound.terminal.isSome ∧
      (∃ tail quit, x.Wire tail quit) ∧
      ∀ more x', x.run? more = some x' → x.Still x' := by
  have hfound : ((start 7).run? tornName).map (fun x =>
      (x.down.line.sent, x.heard, x.down.inbound.terminal.isSome, x.desk.outstanding.torn,
        x.desk.holder.isNone)) =
      some ([.begin ⟨7⟩, .quit], [.begin ⟨7⟩], true, true, true) := by decide +kernel
  obtain ⟨x, hrun, hfields⟩ := Option.map_eq_some_iff.mp hfound
  simp only [Prod.mk.injEq] at hfields
  obtain ⟨hsent, hheard, hended, htorn, hfree⟩ := hfields
  obtain ⟨-, hwire, -, hbroken⟩ := a_torn_request_is_the_last 7 tornName x hrun
  refine ⟨x, hrun, hsent, hheard, hended, ?_, ?_⟩
  · refine hwire.resolve_left ?_
    rw [hsent]
    exact List.cons_ne_nil _ _
  · exact (hbroken ⟨htorn, Option.isNone_iff_eq_none.mp hfree⟩).1

end Farewell

end ProcessTree
