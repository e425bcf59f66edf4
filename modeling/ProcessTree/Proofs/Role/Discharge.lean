-- A zygote from the start of its program to its end, while the root closes it. Quit, the end of
-- the channel and the signals meet it wherever it is: taking over its descriptors, installing its
-- handlers, or in its loop.
import ProcessTree.Machine.Run
import ProcessTree.Proofs.Channel.Link
import ProcessTree.Proofs.Process.Ending
import ProcessTree.Proofs.Process.Escalation
import ProcessTree.Proofs.Role.Entry
import ProcessTree.Proofs.Worker.Handoff

namespace ProcessTree

/-- Whether a role that has come this far has installed its signal handlers. -/
def StartUp.isArmed : StartUp → Bool
  | .configuring | .adopting | .installing => false
  | .connecting | .started => true

/-- Whether a close still has the channel. -/
def Closing.isConnected : Closing → Bool
  | .quitting | .disconnecting => true
  | .checking | .terminating | .waiting | .killing | .reaping | .finished _ => false

/-- Whether a close is at sending quit. -/
def Closing.isQuitting : Closing → Bool
  | .quitting => true
  | _ => false

namespace HandleLife

/-- Where the close under way stands. -/
def closing? (x : HandleLife) : Option Closing :=
  match x.now with
  | some (_, .close run) => some run.closing
  | _ => none

/-- Whether the handle has its channel, or the close that has taken it. -/
def isConnected (x : HandleLife) : Bool := x.holdsChannel || x.closing?.any (·.isConnected)

def isSending (x : HandleLife) : Bool := x.closing?.any (·.isQuitting)

end HandleLife

/-- A zygote and the root that has started it. -/
structure Discharge where
  machine : Machine
  root : Nat
  zygote : Nat
  /-- The root's handle on the zygote, with all that was done through it. -/
  handle : HandleLife
  /-- The root's own ends of the channel. -/
  ends : Machine.NewChannel
  /-- What the root has sent the zygote, and what is left to send. -/
  line : Line ControlMessage
  /-- The pipe from the root to the zygote. -/
  pipe : Nat
  /-- The signals that were sent to the zygote, each with how far its start had come. -/
  met : List (Signal × StartUp)

namespace Discharge

open HandleLife (effect)

/-! ## Moves -/

inductive Move where
  /-- The zygote goes on. -/
  | goOn
  /-- It reads its channel, even where it could do something else. -/
  | listen
  /-- It takes a signal, even where there is a message. -/
  | notice
  | pass (time : Nat)
  /-- The end of the zygote is observed and written down. -/
  | record
  /-- A call of the root's handle begins, goes on, or is given up. -/
  | call (move : HandleLife.Move)
  /-- A close begins to send quit. -/
  | send
  /-- A write call of that. -/
  | write

/-- A zygote that was just started. -/
def start (machine : Machine) (root : Nat) (child : Handle) (ends : Machine.NewChannel)
    (pipe : Nat) : Discharge where
  machine := machine
  root := root
  zygote := child.pid
  handle := { HandleLife.start child.killGrace.toMillis true with clock := machine.clock }
  ends := ends
  line := .start Direction.rootToZygote.registry
  pipe := pipe
  met := []

/-- The zygote, while it can do something, with the role that it plays. -/
def acting? (x : Discharge) : Option (Proc × RoleRun) :=
  (x.machine.proc? x.zygote).bind fun p =>
    if p.isActive then (x.machine.roleOf? x.zygote).map fun r => (p, r) else none

/-- A loop that waits takes the next signal. -/
def notice? (x : Discharge) (r : RoleRun) : Option Machine :=
  match r.loop.stage, r.channel with
  | .awaiting, some _ =>
    (x.machine.catch? x.zygote).map fun (s, m) => m.onEvent x.zygote r (.signal s)
  | _, _ => none

def record? (x : Discharge) : Option Discharge :=
  if x.handle.record.isNone then
    (x.machine.reap? x.zygote).map fun (outcome, machine) =>
      { x with machine, handle := { x.handle with record := x.handle.record.write outcome } }
  else none

/-- What a deed of the handle does to the zygote. -/
def meet (x : Discharge) (deed : Deed) : Discharge :=
  { x with
    machine := effect x.machine x.zygote deed
    met := x.met ++ match deed, x.machine.roleOf? x.zygote with
      | .signalled _ s none _, some r => [(s, r.startUp)]
      | _, _ => [] }

/-- The root lets go of its ends, and gives up what it was sending. -/
def disconnect (x : Discharge) : Discharge :=
  { x with
    machine := x.machine.closeFds x.root [x.ends.send, x.ends.receive]
    line := { x.line.abandon with outbound := x.line.outbound.close } }

/-- Nobody drops the handle, and time and the record are not its own. -/
def isCall : HandleLife.Move → Bool
  | .begin _ | .reply _ | .leave => true
  | .pass _ | .record _ | .drop => false

/-- A close that is given up lets go of the channel as one that closes it does. -/
def call? (x : Discharge) (move : HandleLife.Move) : Option Discharge :=
  if isCall move then
    (x.handle.next? move).map fun handle =>
      let x' := if x.handle.isConnected && !handle.isConnected then x.disconnect else x
      (handle.deeds.drop x.handle.deeds.length).foldl meet { x' with handle }
  else none

/-- Quit is sent once. -/
def send? (x : Discharge) : Option Discharge :=
  if x.handle.isSending && x.line.emitted.isEmpty then
    (x.line.send? .quit).map fun (_, line) => { x with line }
  else none

/-- What a write call came to, unless it has to wait. -/
def outcome? : Machine.WriteCall → Option WriteOutcome
  | .took n => some (.took n)
  | .failed errno => some (.failed (.system errno))
  | .waits => none

def write? (x : Discharge) : Option Discharge :=
  if x.handle.isSending then
    x.line.current.bind fun (_, s) =>
      let (call, machine) := x.machine.write x.root x.ends.send s.offer
      (outcome? call).bind fun outcome =>
        (x.line.write? outcome).map fun (_, line) => { x with machine, line }
  else none

/-- What a move leads to, where it is possible. -/
def next? (x : Discharge) : Move → Option Discharge
  | .goOn => x.acting?.bind fun (p, r) =>
      (x.machine.roleMove? p r).map fun machine => { x with machine }
  | .listen => x.acting?.bind fun (_, r) => r.channel.bind fun c =>
      (x.machine.backgroundMove? x.zygote r c).map fun machine => { x with machine }
  | .notice => x.acting?.bind fun (_, r) =>
      (x.notice? r).map fun machine => { x with machine }
  | .pass time => some { x with
      machine.clock := x.machine.clock + time
      handle.clock := x.handle.clock + time }
  | .record => x.record?
  | .call move => x.call? move
  | .send => x.send?
  | .write => x.write?

/-- Whatever else happens on the machine: nobody else does anything to the zygote, has its pipe, or
changes what the root has under the number that it sends over, unless to close it. -/
structure Undisturbed (x : Discharge) (m : Machine) : Prop where
  zygote : m.proc? x.zygote = x.machine.proc? x.zygote
  pipe : m.pipes[x.pipe]? = x.machine.pipes[x.pipe]?
  root : ∀ d, (m.fdsOf x.root).get? x.ends.send = some d →
    (x.machine.fdsOf x.root).get? x.ends.send = some d

/-- One thing that happens. -/
inductive Step (x : Discharge) : Discharge → Prop where
  | move {move : Move} {x' : Discharge} (h : x.next? move = some x') : Step x x'
  | others {m : Machine} (h : x.Undisturbed m) : Step x { x with machine := m }

/-! ## What is proved -/

/-- SIGKILL was sent, and before that SIGTERM was, and the deadline of that close had passed. -/
def KilledLate (deeds : List Deed) : Prop :=
  ∃ before after call clock, deeds = before ++ .signalled call .kill none clock :: after ∧
    ∃ deadline sent late, deadline ≤ late ∧
      List.Sublist [.began call (.close (some deadline)), .signalled call .term none sent,
        .waited call (some deadline) late (.error .deadlineExceeded)] before

/-- A good end: with code 0; by SIGTERM, if that came before the handlers were installed; or by
SIGKILL, if a deadline had passed. -/
def Graceful (x : Discharge) : ExitState → Prop
  | .exited code => code = 0
  | .signaled .term => ∃ startUp, (.term, startUp) ∈ x.met ∧ startUp.isArmed = false
  | .signaled .kill => KilledLate x.handle.deeds
  | .signaled _ => False

/-- The receiver of the zygote, which begins as new as a channel's. -/
def inboundOf (r : RoleRun) : Inbound ControlMessage :=
  (r.channel.map Channel.inbound).getD (.start Direction.rootToZygote.registry)

/-! ## The invariant -/

/-- The zygote has read the front of what the root has sent, and the rest is in the pipe. The root
has sent nothing but quit. -/
structure Carries (x : Discharge) (inbound : Inbound ControlMessage) (taken : Nat) (tail : Bytes)
    (got : List ControlMessage) : Prop where
  link : (⟨x.line, taken, inbound⟩ : Link ControlMessage).Sound Direction.rootToZygote.registry
    (· = .channelClosed) tail got
  sent : ∀ m ∈ x.line.sent, m = .quit
  current : ∀ m s, x.line.current = some (m, s) → m = .quit
  pipe : ∃ q, x.machine.pipes[x.pipe]? = some q ∧ q.bytes = x.line.emitted.drop taken

/-- What a zygote still has to have open: both ends of its channel until it has made it, and then
the one that it reads as long as it reads. -/
def Opened (x : Discharge) (p : Proc) (r : RoleRun) : Prop :=
  match r.channel with
  | none => r.fds.Finds p.fds x.pipe
  | some c => ∀ n, c.reader = some n → p.fds.file? n = some (.readEnd x.pipe)

/-- A zygote that has not ended. -/
structure Runs (x : Discharge) (p : Proc) (r : RoleRun) : Prop where
  program : p.program = .role r
  going : p.stopped = false
  first : p.first = false
  heeds : Signal.term ∉ p.ignored
  handled : p.handled = if r.startUp.isArmed then Signal.termination else []
  role : r.role = .zygote ∧ r.loop.role = .zygote
  idle : r.jobs = [] ∧ r.handoff = none
  configured : ∃ config, r.config = .ok config
  stage : r.loop.stage = .awaiting ∨ r.loop.stage = .ended (.ok ())
  /-- It makes its channel last. -/
  started : if r.channel.isSome then r.startUp = .started
    else r.startUp ≠ .started ∧ r.loop.stage = .awaiting
  opened : x.Opened p r
  carries : ∃ taken tail got, x.Carries (inboundOf r) taken tail got
  /-- A SIGTERM that came has been caught, and is taken in time. -/
  told : (∃ startUp, (.term, startUp) ∈ x.met) →
    r.startUp.isArmed = true ∧ (p.caught ≠ [] ∨ r.loop.stage = .ended (.ok ()))

/-- Where the zygote stands, alive or not. -/
def Stands (x : Discharge) (p : Proc) : Prop :=
  match p.life with
  | .alive => x.handle.record = none ∧ ∃ r, x.Runs p r
  | .ended state => x.handle.record = none ∧ x.Graceful state
  | .reaped => ∃ state, x.handle.record = some (.ok state) ∧ x.Graceful state

structure Sound (x : Discharge) : Prop where
  handle : x.handle.Sound
  kept : x.handle.dropped = false
  apart : x.root ≠ x.zygote
  /-- Under the number that the root sends over it has the pipe, or nothing. -/
  sends : x.handle.isConnected = true → ∀ d,
    (x.machine.fdsOf x.root).get? x.ends.send = some d → d.file = .writeEnd x.pipe
  stands : ∃ p, x.machine.proc? x.zygote = some p ∧ x.Stands p

variable {x x' : Discharge} {p : Proc} {r : RoleRun} {m : Machine}

/-! ## What stays -/

theorem Graceful.mono {state : ExitState} (h : x.Graceful state) (hmet : x.met ⊆ x'.met)
    (hdeeds : x.handle.deeds <+: x'.handle.deeds) : x'.Graceful state := by
  unfold Graceful at h ⊢
  cases state with
  | exited code => exact h
  | signaled s =>
    cases s with
    | term =>
      obtain ⟨startUp, hmem, hearly⟩ := h
      exact ⟨startUp, hmet hmem, hearly⟩
    | kill =>
      obtain ⟨before, after, call, clock, hsplit, hlate⟩ := h
      obtain ⟨more, hmore⟩ := hdeeds
      refine ⟨before, after ++ more, call, clock, ?_, hlate⟩
      rw [← hmore, hsplit, List.append_assoc, List.cons_append]
    | _ => exact h

theorem Carries.onto {inbound : Inbound ControlMessage} {taken : Nat} {tail : Bytes}
    {got : List ControlMessage} (h : x.Carries inbound taken tail got) (hline : x'.line = x.line)
    (hpipe : x'.machine.pipes[x'.pipe]? = x.machine.pipes[x.pipe]?) :
    x'.Carries inbound taken tail got := by
  obtain ⟨hlink, hsent, hcurrent, hbytes⟩ := h
  rw [← hline] at hlink hsent hcurrent hbytes
  rw [← hpipe] at hbytes
  exact ⟨hlink, hsent, hcurrent, hbytes⟩

theorem Runs.onto (h : x.Runs p r) (hline : x'.line = x.line) (hpipe : x'.pipe = x.pipe)
    (hpipes : x'.machine.pipes[x.pipe]? = x.machine.pipes[x.pipe]?) (hmet : x'.met = x.met) :
    x'.Runs p r := by
  obtain ⟨taken, tail, got, hcarries⟩ := h.carries
  refine ⟨h.program, h.going, h.first, h.heeds, h.handled, h.role, h.idle, h.configured, h.stage,
    h.started, ?_, ⟨taken, tail, got, hcarries.onto hline (by rw [hpipe, hpipes])⟩, ?_⟩
  · have hopened := h.opened
    unfold Opened at hopened ⊢
    rw [hpipe]
    exact hopened
  · rw [hmet]
    exact h.told

theorem Stands.onto (h : x.Stands p) (hrecord : x'.handle.record = x.handle.record)
    (hmet : x.met ⊆ x'.met) (hdeeds : x.handle.deeds <+: x'.handle.deeds)
    (hruns : p.life = .alive → ∀ r, x.Runs p r → ∃ r', x'.Runs p r') : x'.Stands p := by
  unfold Stands at h ⊢
  rw [hrecord]
  cases hlife : p.life with
  | alive =>
    rw [hlife] at h
    obtain ⟨hnone, r, hr⟩ := h
    exact ⟨hnone, hruns hlife r hr⟩
  | ended state =>
    rw [hlife] at h
    exact ⟨h.1, h.2.mono hmet hdeeds⟩
  | reaped =>
    rw [hlife] at h
    obtain ⟨state, hstate, hgraceful⟩ := h
    exact ⟨state, hstate, hgraceful.mono hmet hdeeds⟩

/-- While the zygote can do something it has not ended. -/
theorem Sound.acting (h : x.Sound) (hact : x.acting? = some (p, r)) :
    x.machine.proc? x.zygote = some p ∧ p.life = .alive ∧ x.handle.record = none ∧ x.Runs p r := by
  obtain ⟨q, hq, hact⟩ := Option.bind_eq_some_iff.mp hact
  obtain ⟨hactive, hrole⟩ := Option.ite_none_right_eq_some.mp hact
  obtain ⟨r', hr', heq⟩ := Option.map_eq_some_iff.mp hrole
  cases heq
  obtain ⟨p', hp', hstands⟩ := h.stands
  rw [hq] at hp'
  cases hp'
  have hlife : p.life = .alive := by
    unfold Proc.isActive at hactive
    simp only [Bool.and_eq_true, beq_iff_eq] at hactive
    exact hactive.1
  unfold Stands at hstands
  rw [hlife] at hstands
  obtain ⟨hnone, r'', hruns⟩ := hstands
  unfold Machine.roleOf? at hr'
  rw [hq] at hr'
  simp only [Option.bind_some, hruns.program, Option.some.injEq] at hr'
  cases hr'
  exact ⟨hq, hlife, hnone, hruns⟩

/-- The zygote has gone on, and stands like this now. -/
theorem Sound.goOn (h : x.Sound) (hrecord : x.handle.record = none) {p' : Proc} (r' : RoleRun)
    (hp : m.proc? x.zygote = some p') (halive : p'.life = .alive)
    (hroot : m.proc? x.root = x.machine.proc? x.root)
    (hruns : ({ x with machine := m } : Discharge).Runs p' r') :
    ({ x with machine := m } : Discharge).Sound := by
  refine ⟨h.handle, h.kept, h.apart, ?_, p', hp, ?_⟩
  · intro hconnected d hd
    refine h.sends hconnected d ?_
    unfold Machine.fdsOf at hd ⊢
    rw [← hroot]
    exact hd
  · unfold Stands
    rw [halive]
    exact ⟨hrecord, r', hruns⟩

/-- The zygote has ended well. -/
theorem Sound.end (h : x.Sound) (hrecord : x.handle.record = none) {state : ExitState}
    (hp : x.machine.proc? x.zygote = some p) (halive : p.life = .alive)
    (hgraceful : x.Graceful state) :
    ({ x with machine := x.machine.endProc x.zygote state } : Discharge).Sound := by
  refine ⟨h.handle, h.kept, h.apart, ?_, _, Machine.proc?_endProc hp halive, hrecord, hgraceful⟩
  intro hconnected d hd
  exact h.sends hconnected d ((Machine.loses_endProc _ _ _).get?_fdsOf hd)

end Discharge

end ProcessTree
