-- What a root does with its child: it sends and receives, waits for the end,
-- signals, and closes. An operation that never ends has no answer.
import ProcessTree.Channel.Summary
import ProcessTree.Root.Basic

namespace ProcessTree.Root

/-! ## The channel -/

/-- Looks whether a message to the child is sent. -/
def pollSend (message : ControlMessage) (r : Root) : Option (Except ChannelError Unit) × Root :=
  match r.channel with
  | none => (some (.error .channelClosed), r)
  | some c =>
    let (sent, c, machine) := r.machine.send r.self c message
    (sent, { r with channel := some c, machine })

/-- Looks whether there is a message from the child. -/
def pollReceive (r : Root) : Option (Except ChannelError ReplyMessage) × Root :=
  match r.channel with
  | none => (some (.error .channelClosed), r)
  | some c =>
    match c.inbound.recv? with
    | some (received, inbound) => (some received, { r with channel := some { c with inbound } })
    | none => (none, r)

/-- Gives up a send to the child that is under way. -/
def abandonSend (r : Root) : Root := { r with channel := r.channel.map Channel.abandon }

/-- The answer of something that had no deadline, if it has come. -/
def Awaited.answer? {α : Type} : Awaited α → Option α
  | .came a => some a
  | .expired | .never => none

/-- Sends the child a message. -/
def send (r : Root) (message : ControlMessage) : Option (Except ChannelError Unit) × Root :=
  let (sent, r) := r.await (pollSend message) none
  (sent.answer?, r.abandonSend)

/-- Receives a message from the child. -/
def receive (r : Root) : Option (Except ChannelError ReplyMessage) × Root :=
  let (received, r) := r.await pollReceive none
  (received.answer?, r)

/-- Sends the child a message again and again until there is no room, at most so many times; an
error ends it. -/
def fillWithin (message : ControlMessage) : Nat → Root → Except ChannelError Unit × Root
  | 0, r => (.ok (), r)
  | fuel + 1, r =>
    match r.pollSend message with
    | (none, r) => (.ok (), r.abandonSend)
    | (some (.ok ()), r) => fillWithin message fuel r
    | (some (.error e), r) => (.error e, r)

/-- Sends a message as often as there is room for it, where nobody reads. -/
def fill (r : Root) (message : ControlMessage) : Except ChannelError Unit × Root :=
  fillWithin message (Pipe.capacity + 1) r

/-! ## The process -/

/-- Sends the child a signal. -/
def signal (r : Root) (s : Signal) : Root := { r with machine := r.machine.signal r.child.pid s }

/-- Whether the system still knows the child: it forgets it once its end was observed. -/
def childIsVisible (r : Root) : Bool :=
  (r.machine.proc? r.child.pid).any (·.life != .reaped)

/-- Waits for the end of the child and observes it behind the back of the one who watches it. -/
def steal (r : Root) : Root :=
  let machine := r.machine.finish r.child.pid
  { r with machine := ((machine.reap? r.child.pid).map (·.2)).getD machine }

/-- Looks whether the end of the child is written down. -/
def pollExit (r : Root) : Option (Except Errno ExitState) × Root := (r.child.exit, r)

/-- Waits for the end of the child until a point in time. -/
def waitUntil (r : Root) (deadline : Option Nat) :
    Option (Except ProcessError ExitState) × Root :=
  match r.await pollExit deadline with
  | (.never, r) => (none, r)
  | (_, r) => (r.child.exit.wait true, r)

/-- Waits for the end of the child. -/
def wait (r : Root) (millis : Option Nat) : Option (Except ProcessError ExitState) × Root :=
  r.waitUntil (r.deadlineIn millis)

/-! ## Closing -/

/-- Closes the channel to the child, for good. -/
def closeChannel (r : Root) : Root :=
  match r.channel with
  | none => r
  | some c => { r with channel := none, machine := (r.machine.closeChannel r.self c).2 }

/-- Answers what a close asks for; nothing where the answer never comes. -/
def answerClose (r : Root) (deadline : Option Nat) : CloseRequest → Option CloseAnswer × Root
  | .sendQuit limit =>
    match r.await (pollSend .quit) (limit.time deadline r.now r.child.killGrace.toMillis) with
    | (.never, r) => (none, r)
    | (_, r) => (some .done, r.abandonSend)
  | .closeChannel => (some .done, r.closeChannel)
  | .readRecord => (some (.record r.child.exit), r)
  | .signal s => (some .done, r.signal s)
  | .wait limit =>
    let (waited, r) := r.waitUntil (limit.time deadline r.now r.child.killGrace.toMillis)
    (waited.map .waited, r)

/-- Answers the requests of a close until it has finished, so many at most. -/
def closeWithin (deadline : Option Nat) :
    Nat → Closing → Root → Option (Except ProcessError ExitState) × Root
  | 0, _, r => (none, r)
  | fuel + 1, closing, r =>
    match closing, closing.request? with
    | .finished result, _ => (some result, r)
    | _, none => (none, r)
    | _, some request =>
      match r.answerClose deadline request with
      | (some answer, r) => closeWithin deadline fuel (closing.answer answer) r
      | (none, r) => (none, r)

/-- A close makes no more requests than this. -/
def closeRequests : Nat := 8

/-- Closes the child. -/
def close (r : Root) (millis : Option Nat) : Option (Except ProcessError ExitState) × Root :=
  closeWithin (r.deadlineIn millis) closeRequests (.start r.channel.isSome) r

end ProcessTree.Root

/-! ## A summary -/

namespace ProcessTree

/-- A role's name as a title. -/
def Role.title : Role → String
  | .root => "Root"
  | .zygote => "Zygote"
  | .worker => "Worker"
  | .job => "Job"

/-- The summary of how a process ended. -/
def ExitState.summary : ExitState → String
  | .exited code => "Exited(" ++ toString code ++ ")"
  | .signaled signal => "Signaled(" ++ signal.name ++ ")"

/-- The summary of a record. -/
def ExitRecord.summary : ExitRecord → String :=
  summaryOption fun
    | .ok state => "Ok(" ++ state.summary ++ ")"
    | .error errno => "Err(" ++ errno.name ++ ")"

/-- The one-line summary of a child, with a text for its process number. -/
def Handle.summary (h : Handle) (pid : String) : String :=
  "ProcessHandle \x7b role: " ++ h.role.title ++ ", pid: Pid(" ++ pid ++ "), exit: " ++
    h.exit.summary ++ ", .. \x7d"

end ProcessTree
