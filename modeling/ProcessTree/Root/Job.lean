-- What a root does with a job: it sends to it, waits for the end of its stream,
-- and closes it. The job of a number that was never given out has no answers.
import ProcessTree.Job.Closing
import ProcessTree.Root.Child

namespace ProcessTree.Root

/-- Looks whether a message to a job is sent. -/
def pollJobSend (index : Nat) (message : ControlMessage) (r : Root) :
    Option (Except ChannelError Unit) × Root :=
  match r.jobs[index]?.join with
  | none => (some (.error .channelClosed), r)
  | some c =>
    let (sent, c, machine) := r.machine.send r.self c message
    (sent, { r with jobs := r.jobs.set index (some c), machine })

/-- Looks whether the stream of a job has ended. -/
def pollJobEnd (index : Nat) (r : Root) : Option Unit × Root :=
  match r.jobs[index]?.join with
  | none => (some (), r)
  | some c => (c.inbound.recv?.map fun _ => (), r)

/-- Sends a job a message. -/
def sendToJob (r : Root) (index : Nat) (message : ControlMessage) :
    Option (Except ChannelError Unit) × Root :=
  let (sent, r) := r.await (pollJobSend index message) none
  (sent.answer?, r)

/-- Waits until the stream of a job has ended. -/
def jobEnded (r : Root) (index : Nat) (millis : Option Nat) :
    Option (Except TreeError Unit) × Root :=
  match r.await (pollJobEnd index) (r.deadlineIn millis) with
  | (.came (), r) => (some (.ok ()), r)
  | (.expired, r) => (some (.error (.process .deadlineExceeded)), r)
  | (.never, r) => (none, r)

/-- Lets go of the channel of a job. -/
def releaseJob (r : Root) (index : Nat) : Root :=
  match r.jobs[index]?.join with
  | none => r
  | some c =>
    { r with jobs := r.jobs.set index none, machine := (r.machine.closeChannel r.self c).2 }

/-- Answers what the close of a job asks for; nothing where the answer never comes. -/
def answerJobClose (r : Root) (index : Nat) (deadline : Option Nat) :
    JobCloseRequest → Option JobCloseAnswer × Root
  | .sendQuit =>
    match r.await (pollJobSend index .quit) none with
    | (.never, r) => (none, r)
    | (_, r) => (some .done, r)
  | .awaitEnd =>
    match r.await (pollJobEnd index) deadline with
    | (.came (), r) => (some .done, r)
    | (.expired, r) => (some .expired, r)
    | (.never, r) => (none, r)
  | .release => (some .done, r.releaseJob index)

/-- Answers the requests of the close of a job until it has finished, so many at most. -/
def closeJobWithin (index : Nat) (deadline : Option Nat) :
    Nat → JobClosing → Root → Option (Except TreeError Unit) × Root
  | 0, _, r => (none, r)
  | fuel + 1, closing, r =>
    match closing, closing.request? with
    | .finished result, _ => (some result, r)
    | _, none => (none, r)
    | _, some request =>
      match r.answerJobClose index deadline request with
      | (some answer, r) => closeJobWithin index deadline fuel (closing.answer answer) r
      | (none, r) => (none, r)

/-- Closes a job. -/
def closeJob (r : Root) (index : Nat) (millis : Option Nat) :
    Option (Except TreeError Unit) × Root :=
  let isHeld := (r.jobs[index]?.join).isSome
  closeJobWithin index (r.deadlineIn millis) 4 (.start isHeld) r

end ProcessTree.Root
