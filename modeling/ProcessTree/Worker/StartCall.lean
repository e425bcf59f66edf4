-- Asking a worker for a job. Requests are made one at a time; each takes the
-- replies to abandoned requests off the channel first, so that the reply it
-- uses is its own. A request that is cut off while it is sent leaves the
-- worker's channel out of step for good.
import ProcessTree.Message

namespace ProcessTree

/-- What is known of the start requests made so far. -/
structure Outstanding where
  /-- Requests sent whose reply was not read. -/
  unanswered : Nat
  /-- Whether a request was cut off part way. -/
  torn : Bool
  deriving DecidableEq, Repr

namespace Outstanding

/-- No request was made yet. -/
def start : Outstanding := ⟨0, false⟩

end Outstanding

/-- Where a start call stands. -/
inductive StartCall where
  /-- Waiting for its turn. -/
  | locking
  /-- Reading the replies to abandoned requests. -/
  | draining
  | sending
  /-- Waiting for its own reply. -/
  | awaiting
  | fetchingWrite (reply : StartResult)
  | fetchingRead (reply : StartResult)
  /-- Making a channel of the fetched descriptors. -/
  | connecting (reply : StartResult)
  /-- Sending the job its begin. -/
  | greeting (reply : StartResult)
  | finished (result : Except TreeError StartResult)
  deriving Repr

/-- What a start call asks for next. -/
inductive StartRequest where
  /-- Its turn; this has no limit. -/
  | turn
  /-- A reply, until the deadline. -/
  | receive
  /-- Sends the start message, until the deadline. -/
  | send
  /-- Copies a descriptor out of the worker. -/
  | fetch (number : Int32)
  | connect
  /-- Sends begin to the job; this has no limit. -/
  | greet
  deriving DecidableEq, Repr

/-- What a request came to. -/
inductive StartAnswer where
  | granted
  | received (r : Except ChannelError ReplyMessage)
  | sent (r : Except ChannelError Unit)
  | fetched (r : Except BrokerError Unit)
  | connected (r : Except ChannelError Unit)
  /-- The deadline passed first. -/
  | expired
  deriving Repr

namespace StartCall

/-- What a call asks for next; nothing once it has finished. -/
def request? : StartCall → Option StartRequest
  | .locking => some .turn
  | .draining | .awaiting => some .receive
  | .sending => some .send
  | .fetchingWrite reply => some (.fetch reply.writeFd)
  | .fetchingRead reply => some (.fetch reply.readFd)
  | .connecting _ => some .connect
  | .greeting _ => some .greet
  | .finished _ => none

/-- Reads abandoned replies while there are any, then sends. From the moment the message may be on
its way until it is all sent, the requests count as torn. -/
def next (o : Outstanding) : Outstanding × StartCall :=
  if 0 < o.unanswered then (o, .draining) else ({ o with torn := true }, .sending)

/-- Ends a call with an error. -/
def fail (o : Outstanding) (e : TreeError) : Outstanding × StartCall := (o, .finished (.error e))

/-- Takes the reply to its own request. -/
def take (o : Outstanding) (reply : StartResult) : Outstanding × StartCall :=
  if reply.readFd = reply.writeFd then
    fail o (.unexpectedReply ("job descriptors are both " ++ toString reply.readFd.toInt))
  else (o, .fetchingWrite reply)

/-- Goes on with an answer. An answer to another request changes nothing. -/
def answer (o : Outstanding) : StartCall → StartAnswer → Outstanding × StartCall
  | .locking, .granted => if o.torn then fail o .workerOutOfStep else next o
  | .draining, .received (.ok _) => next { o with unanswered := o.unanswered - 1 }
  | .sending, .sent (.ok ()) => (⟨o.unanswered + 1, false⟩, .awaiting)
  | .awaiting, .received (.ok (.startResult reply)) =>
    take { o with unanswered := o.unanswered - 1 } reply
  | .draining, .received (.error e) | .awaiting, .received (.error e)
  | .sending, .sent (.error e) => fail o (.channel e)
  | .draining, .expired | .sending, .expired | .awaiting, .expired =>
    fail o (.process .deadlineExceeded)
  | .fetchingWrite reply, .fetched (.ok ()) => (o, .fetchingRead reply)
  | .fetchingRead reply, .fetched (.ok ()) => (o, .connecting reply)
  | .fetchingWrite _, .fetched (.error e) | .fetchingRead _, .fetched (.error e) =>
    fail o (.broker e)
  | .connecting reply, .connected (.ok ()) => (o, .greeting reply)
  | .connecting _, .connected (.error e) => fail o (.channel e)
  | .greeting reply, .sent (.ok ()) => (o, .finished (.ok reply))
  | .greeting _, .sent (.error e) => fail o (.channel e)
  | c, _ => (o, c)

end StartCall

end ProcessTree
