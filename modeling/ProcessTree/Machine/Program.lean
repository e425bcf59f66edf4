-- What processes do: play a role of the tree over their channel, or stand in for
-- one with a simple behaviour of their own.
import ProcessTree.Channel.Inbound
import ProcessTree.Channel.Outbound
import ProcessTree.Config
import ProcessTree.Process.Closing
import ProcessTree.Role.Loop

namespace ProcessTree

/-! ## Channels -/

/-- A channel over two descriptors of a process; one that was let go has no number any more. -/
structure Channel (In : Type) where
  outbound : Outbound
  inbound : Inbound In
  writer : Option Nat
  reader : Option Nat
  /-- What is left to write of the frame of a send under way. -/
  unsent : Option Sending

namespace Channel

/-- A channel over two descriptors where nothing has happened yet. -/
def start {In : Type} (outbound inbound : Registry) (writer reader : Nat) : Channel In where
  outbound := .start outbound
  inbound := .start inbound
  writer := some writer
  reader := some reader
  unsent := none

/-- Gives up the send under way: what it has written stays written. -/
def abandon {In : Type} (c : Channel In) : Channel In := { c with unsent := none }

end Channel

/-! ## Roles -/

/-- A child as its parent knows it. -/
structure Handle where
  role : Role
  pid : Nat
  exit : ExitRecord
  killGrace : Duration

/-- A close under way. -/
structure CloseRun where
  closing : Closing
  deadline : Option Nat
  /-- When what it asks for now was first asked for. -/
  since : Nat

/-- How far a role has come with its start. -/
inductive StartUp where
  /-- Reading its configuration. -/
  | configuring
  /-- Taking over the descriptors of its channel. -/
  | adopting
  /-- Installing its signal handlers. -/
  | installing
  /-- Making its channel. -/
  | connecting
  | started
  deriving DecidableEq, Repr

/-- A role at work. -/
structure RoleRun where
  role : Role
  startUp : StartUp
  /-- The descriptors it was told. -/
  fds : ChannelFds
  config : Except ConfigError Config
  /-- Its channel, once it has made it. -/
  channel : Option (Channel ControlMessage)
  loop : RoleLoop
  /-- The jobs it has started and not closed, in their order. -/
  jobs : List Handle
  /-- Its own ends of the last job's channel, kept until the root has fetched them. -/
  handoff : Option (Nat × Nat)
  /-- The close of the first of its jobs, with the deadline for all of them. -/
  closing : Option CloseRun

namespace RoleRun

/-- A role that has done nothing yet. -/
def start (role : Role) (fds : ChannelFds) (config : Except ConfigError Config) : RoleRun where
  role := role
  startUp := .configuring
  fds := fds
  config := config
  channel := none
  loop := .start role
  jobs := []
  handoff := none
  closing := none

/-- How a role that has ended went. -/
def result? (r : RoleRun) : Option (Except ReentryError Unit) :=
  match r.loop.stage with
  | .ended result => some result
  | _ => none

/-- Ends the role. -/
def finish (r : RoleRun) (result : Except ReentryError Unit) : RoleRun :=
  { r with loop := { r.loop with stage := .ended result } }

end RoleRun

/-! ## Stand-ins -/

/-- How a job that a stand-in plays behaves. -/
inductive JobPlay where
  /-- Reads until quit and then ends. -/
  | quits
  /-- Never reads and never ends. -/
  | hangs
  /-- Cannot be sent anything. -/
  | deaf
  /-- Has ended, but can be sent to. -/
  | mute
  /-- Has written these bytes and then hangs. -/
  | talks (bytes : Bytes)
  deriving DecidableEq, Repr

/-- How a stand-in that plays jobs ends: with a code, or with the number of frames its jobs were
sent. -/
inductive LastWord where
  | code (n : Nat)
  | frames
  deriving DecidableEq, Repr

/-- A job that a stand-in plays: its own ends of the job's channel as far as they are open. -/
structure PlayedJob where
  play : JobPlay
  reader : Option Nat
  writer : Option Nat
  /-- What was read of the frames it was sent. -/
  seen : Bytes

/-- A stand-in at work. -/
inductive StandIn where
  | exits (code : Nat)
  /-- Ends by a signal that it sends itself. -/
  | dies (signal : Signal)
  | sleeps
  /-- Writes bytes, waits for the end of its channel, and exits. -/
  | answers (left : Bytes) (code : Nat)
  /-- Keeps what it reads of its channel. -/
  | collects (seen : Bytes)
  /-- Plays a worker and the jobs that it is asked for: those to come, each with a process number
  of its own, those at work, what was read of its channel, and what is still to be written. -/
  | playsJobs (todo : List (JobPlay × Int32)) (playing : List PlayedJob) (seen left : Bytes)
      (last : LastWord)

/-- What the program does that children run. -/
inductive Behaviour where
  /-- It plays its role. -/
  | role
  /-- It stands in for its role; some signals do nothing to it. -/
  | standIn (s : StandIn) (ignored : List Signal)

namespace Behaviour

/-- Sleeps, and SIGTERM does nothing to it. -/
def sleepsThrough : Behaviour := .standIn .sleeps [.term]

/-- Plays a worker whose jobs behave as told, each with a process number of its own. -/
def playsJobs (jobs : List (JobPlay × Int32)) (last : LastWord) : Behaviour :=
  .standIn (.playsJobs jobs [] [] [] last) [.term]

end Behaviour

/-- What a process does. -/
inductive Program where
  /-- Nothing by itself: it acts from outside the machine. -/
  | outside
  | role (run : RoleRun)
  /-- It stands in for a role that was told these descriptors. -/
  | standIn (fds : ChannelFds) (s : StandIn)

end ProcessTree
