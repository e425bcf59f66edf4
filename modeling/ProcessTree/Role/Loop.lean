-- The loops of the re-entered roles. A loop takes one event after the other
-- until quit, a termination signal or the end of its channel; anything it does
-- not expect ends it with an error. A worker closes its jobs when its loop is
-- over, however that came about.
import ProcessTree.Message

namespace ProcessTree

/-- What a loop waits for. -/
inductive LoopEvent where
  | message (m : ControlMessage)
  | signal (s : Signal)
  /-- The channel gives no more messages, for this reason. -/
  | failed (e : ChannelError)
  deriving DecidableEq, Repr

/-- Where a loop stands. -/
inductive LoopStage where
  /-- Waiting for an event. -/
  | awaiting
  /-- Becoming root of its user namespace. -/
  | assuming
  /-- Starting a job. -/
  | starting (request : Start)
  /-- Sending the answer to a start request. -/
  | replying (result : StartResult)
  /-- Closing the jobs, with the loop's result already known. -/
  | leaving (result : Except ReentryError Unit)
  | ended (result : Except ReentryError Unit)
  deriving Repr

/-- A loop of a role. -/
structure RoleLoop where
  role : Role
  /-- Whether it has become root. -/
  privileged : Bool
  stage : LoopStage
  deriving Repr

namespace RoleLoop

/-- A loop that waits for its first event. -/
def start (role : Role) : RoleLoop := ⟨role, false, .awaiting⟩

/-- Ends the loop; a worker still has its jobs to close. -/
def leave (l : RoleLoop) (result : Except ReentryError Unit) : RoleLoop :=
  { l with stage := if l.role = .worker then .leaving result else .ended result }

/-- Ends the loop over a message that it does not expect. -/
def refuse (l : RoleLoop) (m : ControlMessage) : RoleLoop :=
  l.leave (.error (.unexpectedMessage l.role (Message.kind m)))

/-- Whether a loop takes begin: a job and a worker do, once. -/
def takesBegin (l : RoleLoop) : Bool := (l.role == .job || l.role == .worker) && !l.privileged

/-- Goes on with an event. -/
def onEvent (l : RoleLoop) : LoopEvent → RoleLoop
  | .signal _ => l.leave (.ok ())
  | .failed .channelClosed => l.leave (.ok ())
  | .failed e => l.leave (.error (.channel e))
  | .message .quit => l.leave (.ok ())
  | .message (.begin body) =>
    if l.takesBegin then { l with stage := .assuming } else l.refuse (.begin body)
  | .message (.start body) =>
    if l.role = .worker then { l with stage := .starting body } else l.refuse (.start body)

/-- Goes on after it tried to become root. -/
def onAssumed (l : RoleLoop) : Except Errno Unit → RoleLoop
  | .ok () => { l with privileged := true, stage := .awaiting }
  | .error e => l.leave (.error (.privilege e))

/-- Goes on after it tried to start a job. -/
def onStarted (l : RoleLoop) : Except ReentryError StartResult → RoleLoop
  | .ok result => { l with stage := .replying result }
  | .error e => l.leave (.error e)

/-- Goes on after it tried to send an answer. -/
def onReplied (l : RoleLoop) : Except ChannelError Unit → RoleLoop
  | .ok () => { l with stage := .awaiting }
  | .error e => l.leave (.error (.channel e))

/-- Ends after all jobs are closed. -/
def onJobsClosed (l : RoleLoop) : RoleLoop :=
  match l.stage with
  | .leaving result => { l with stage := .ended result }
  | _ => l

end RoleLoop

end ProcessTree
