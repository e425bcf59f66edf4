-- Closing a job from the root: quit is sent, however that goes; the end of the
-- job's stream is waited for until the deadline; and then the channel is
-- released, so that every later close finds nothing to do.
import ProcessTree.Error

namespace ProcessTree

/-- Where the close of a job stands. -/
inductive JobClosing where
  /-- Sending quit; this has no limit. -/
  | quitting
  /-- Waiting for the end of the job's stream, until the deadline. -/
  | ending
  | releasing (result : Except TreeError Unit)
  | finished (result : Except TreeError Unit)
  deriving Repr

/-- What the close of a job asks for next. -/
inductive JobCloseRequest where
  | sendQuit
  | awaitEnd
  | release
  deriving DecidableEq, Repr

/-- What a request came to. -/
inductive JobCloseAnswer where
  | done
  /-- The deadline passed first. -/
  | expired
  deriving DecidableEq, Repr

namespace JobClosing

/-- The close of a job whose channel is held, or was released. -/
def start (holdsChannel : Bool) : JobClosing :=
  if holdsChannel then .quitting else .finished (.ok ())

/-- What the close asks for next; nothing once it has finished. -/
def request? : JobClosing → Option JobCloseRequest
  | .quitting => some .sendQuit
  | .ending => some .awaitEnd
  | .releasing _ => some .release
  | .finished _ => none

/-- Goes on with an answer. -/
def answer : JobClosing → JobCloseAnswer → JobClosing
  | .quitting, _ => .ending
  | .ending, .done => .releasing (.ok ())
  | .ending, .expired => .releasing (.error (.process .deadlineExceeded))
  | .releasing result, _ => .finished result
  | .finished result, _ => .finished result

end JobClosing

end ProcessTree
