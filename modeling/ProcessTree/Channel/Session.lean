-- A channel over two streams that are scripted in advance, and what its users
-- see: sends, receives that wait or are given up, and closing. After every step
-- all work in the background goes on until nothing can move.
import ProcessTree.Channel.Inbound
import ProcessTree.Channel.Outbound

namespace ProcessTree

/-! ## The streams -/

/-- A stream to write to: how the next write calls go, and what was written. Once the script is
over, every call takes all it is offered. -/
structure ScriptedWriter where
  script : List WriteOutcome
  written : Bytes
  calls : Nat

namespace ScriptedWriter

/-- The next write call. -/
def call (w : ScriptedWriter) (offered : Bytes) : ScriptedWriter × WriteOutcome :=
  match w.script with
  | [] => ({ w with written := w.written ++ offered, calls := w.calls + 1 }, .took offered.length)
  | .took n :: rest =>
    (⟨rest, w.written ++ offered.take n, w.calls + 1⟩, .took (min n offered.length))
  | .failed failure :: rest => (⟨rest, w.written, w.calls + 1⟩, .failed failure)

end ScriptedWriter

/-- What a read call of a stream gives: bytes, or the reason why there are none. -/
inductive Arrival where
  | chunk (bytes : Bytes)
  | failed (failure : IoFailure)
  /-- The stream is over. -/
  | finished

namespace Inbound

variable {M : Type} [Message M]

/-- One read call with what has arrived; a chunk that is longer than what is wanted stays in
part. -/
def read (i : Inbound M) : List Arrival → Inbound M × List Arrival
  | [] => (i, [])
  | .chunk bytes :: rest =>
    let left := bytes.drop i.wants
    (i.take (bytes.take i.wants), if left.isEmpty then rest else .chunk left :: rest)
  | .failed failure :: rest => (i.fail (.io failure), rest)
  | .finished :: rest => (i.fail .channelClosed, .finished :: rest)

end Inbound

/-! ## Sessions -/

/-- A channel in use. -/
structure Session (Out In : Type) where
  outbound : Outbound
  writer : ScriptedWriter
  inbound : Inbound In
  /-- What was fed and is not read yet. -/
  arrivals : List Arrival
  /-- The receives that wait, first come first. -/
  waiting : List String
  /-- The receives that got something, by name. -/
  received : List (String × Except ChannelError In)

namespace Session

variable {Out In : Type} [Message Out] [Message In]

/-- A channel over streams where nothing has happened yet. -/
def start (outbound inbound : Registry) (script : List WriteOutcome) : Session Out In where
  outbound := .start outbound
  writer := ⟨script, [], 0⟩
  inbound := .start inbound
  arrivals := []
  waiting := []
  received := []

/-! ## Background work -/

/-- One move in the background: a message goes into the queue, the stream is read, or the first
waiting receive gets its answer. -/
def move? (s : Session Out In) : Option (Session Out In) :=
  match s.inbound.deliver? with
  | some inbound => some { s with inbound }
  | none =>
    match s.waiting, s.inbound.recv? with
    | name :: waiting, some (answer, inbound) =>
      some { s with inbound, waiting, received := (name, answer) :: s.received }
    | _, _ =>
      if s.inbound.wants = 0 ∨ s.arrivals.isEmpty then none
      else
        let (inbound, arrivals) := s.inbound.read s.arrivals
        some { s with inbound, arrivals }

/-- Moves until nothing can move, `fuel` times at most. -/
def settleWithin : Nat → Session Out In → Session Out In
  | 0, s => s
  | fuel + 1, s =>
    match s.move? with
    | some s' => settleWithin fuel s'
    | none => s

/-- How much an arrival can move: a read for each of its bytes, and one that ends the receiver. -/
def Arrival.work : Arrival → Nat
  | .chunk bytes => bytes.length
  | .failed _ | .finished => 1

/-- No session moves more often than this: each byte is read once and completes at most one
message, which is put into the queue once. -/
def work (s : Session Out In) : Nat :=
  2 * (s.arrivals.map Arrival.work).foldr (· + ·) 0 + s.waiting.length + 2

/-- Moves until nothing can move. -/
def settle (s : Session Out In) : Session Out In := s.settleWithin s.work

/-! ## Steps -/

/-- Sends a message. -/
def send (s : Session Out In) (message : Out) : Except ChannelError Unit × Session Out In :=
  let (answer, outbound, writer) := s.outbound.send ScriptedWriter.call s.writer message
  (answer, settle { s with outbound, writer })

/-- Feeds the stream that the channel reads. -/
def feed (s : Session Out In) (arrivals : List Arrival) : Session Out In :=
  settle { s with arrivals := s.arrivals ++ arrivals }

/-- Feeds bytes that read calls give `n` at a time at most. -/
def feedChunks (s : Session Out In) (n : Nat) (bytes : Bytes) : Session Out In :=
  s.feed (chunksOf bytes.length bytes [])
where
  chunksOf : Nat → Bytes → List Arrival → List Arrival
    | 0, _, done => done.reverse
    | fuel + 1, bytes, done =>
      if bytes.isEmpty then done.reverse
      else chunksOf fuel (bytes.drop (max n 1)) (.chunk (bytes.take (max n 1)) :: done)

/-- Receives a message, unless that would have to wait: then the receive is given up and takes
nothing. A receive that waits already comes first. -/
def recv (s : Session Out In) : Option (Except ChannelError In) × Session Out In :=
  if s.waiting.isEmpty then
    match s.inbound.recv? with
    | some (answer, inbound) => (some answer, settle { s with inbound })
    | none => (none, s)
  else (none, s)

/-- Starts a receive that waits in the background. -/
def recvLater (s : Session Out In) (name : String) : Session Out In :=
  settle { s with waiting := s.waiting ++ [name] }

/-- What a background receive got, if it did; it is then forgotten. -/
def join (s : Session Out In) (name : String) :
    Option (Except ChannelError In) × Session Out In :=
  match s.received.find? (·.1 == name) with
  | some (_, answer) => (some answer, { s with received := s.received.filter (·.1 != name) })
  | none => (none, s)

/-- Closes both directions. -/
def close (s : Session Out In) : Session Out In :=
  settle { s with outbound := s.outbound.close, inbound := s.inbound.stop }

end Session

end ProcessTree
