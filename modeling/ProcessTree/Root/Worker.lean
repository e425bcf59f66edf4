-- What a root does with a worker: it starts it and has it become root, and asks
-- it for jobs. The requests of `StartCall` are answered one by one.
import ProcessTree.Machine.Channels
import ProcessTree.Root.Child

namespace ProcessTree.Root

/-- The root as a process number in messages. -/
def selfNumber (r : Root) : Int32 := Int32.ofNat r.self

/-- The message that has the receiver become root. -/
def beginMessage (r : Root) : ControlMessage := .begin ⟨r.selfNumber⟩

/-! ## Starting a zygote or a worker -/

/-- Starts a zygote. -/
def spawnZygote (m : Machine) (config : Config) : Except TreeError Root :=
  (spawn m (.zygote config m.running) Direction.rootToZygote.registry
    Direction.zygoteToRoot.registry).mapError .process

/-- Starts a worker and has it become root of its user namespace. -/
def spawnWorker (m : Machine) (config : Config) : Except TreeError Root :=
  match spawn m (.worker config m.running) Direction.rootToWorker.registry
      Direction.workerToRoot.registry with
  | .error e => .error (.process e)
  | .ok r =>
    match r.send r.beginMessage with
    | (some (.error e), _) => .error (.channel e)
    | (_, r) => .ok r

/-! ## Starting jobs -/

/-- What was got so far for the job of a start call. -/
structure StartRun where
  call : StartCall
  /-- The descriptors that were fetched, the one to write to first. -/
  fetched : List Nat

/-- Looks whether the new job is sent its begin. -/
def pollGreet (index : Nat) (r : Root) : Option (Except ChannelError Unit) × Root :=
  match r.jobs[index]?.join with
  | none => (some (.error .channelClosed), r)
  | some c =>
    let (sent, c, machine) := r.machine.send r.self c r.beginMessage
    (sent, { r with jobs := r.jobs.set index (some c), machine })

/-- What came of something with a deadline, as the answer of a request. -/
def answerOf {α : Type} (f : α → StartAnswer) : Awaited α → Option StartAnswer
  | .came a => some (f a)
  | .expired => some .expired
  | .never => none

/-- Fetches a descriptor of the worker. -/
def fetch (r : Root) (run : StartRun) (number : Int32) : StartAnswer × StartRun × Root :=
  match r.machine.fetch r.self r.child.pid number.toInt with
  | (.ok fd, machine) =>
    (.fetched (.ok ()), { run with fetched := run.fetched ++ [fd] }, { r with machine })
  | (.error e, machine) => (.fetched (.error e), run, { r with machine })

/-- Makes a channel of the descriptors that were fetched; the job that it leads to is the last. -/
def connect (r : Root) (run : StartRun) : StartAnswer × StartRun × Root :=
  match run.fetched with
  | [writer, reader] =>
    match r.machine.openChannel r.self Direction.rootToJob.registry Direction.jobToRoot.registry
        writer reader with
    | (.ok c, machine) =>
      (.connected (.ok ()), { run with fetched := [] },
        { r with machine, jobs := r.jobs ++ [some c] })
    | (.error e, machine) =>
      (.connected (.error e), { run with fetched := [] }, { r with machine })
  | _ => (.connected (.error (.io (.system .badDescriptor))), run, r)

/-- Drops the last job and its channel. -/
def dropLastJob (r : Root) : Root :=
  match r.jobs.getLast?.join with
  | some c =>
    { r with jobs := r.jobs.dropLast, machine := (r.machine.closeChannel r.self c).2 }
  | none => { r with jobs := r.jobs.dropLast }

/-- Sends the new job its begin; a job that cannot be sent it is dropped. -/
def greet (r : Root) : Option StartAnswer × Root :=
  match r.await (pollGreet (r.jobs.length - 1)) none with
  | (.came (.ok ()), r) => (some (.sent (.ok ())), r)
  | (.came (.error e), r) => (some (.sent (.error e)), r.dropLastJob)
  | (_, r) => (none, r)

/-- Answers what a start call asks for; nothing where the answer never comes. -/
def answerStart (r : Root) (identity : JobIdentity) (deadline : Option Nat) (run : StartRun) :
    StartRequest → Option StartAnswer × StartRun × Root
  | .turn => (some .granted, run, r)
  | .receive =>
    let (received, r) := r.await pollReceive deadline
    (answerOf .received received, run, r)
  | .send =>
    let (sent, r) := r.await (pollSend (.start ⟨identity⟩)) deadline
    (answerOf .sent sent, run, r.abandonSend)
  | .fetch number =>
    let (answer, run, r) := r.fetch run number
    (some answer, run, r)
  | .connect =>
    let (answer, run, r) := r.connect run
    (some answer, run, r)
  | .greet =>
    let (answer, r) := r.greet
    (answer, run, r)

/-- Ends a start call: what was fetched and not used is closed. -/
def release (r : Root) (run : StartRun) : Root :=
  { r with machine := r.machine.closeFds r.self run.fetched }

/-- Answers the requests of a start call until it has finished, so many at most. -/
def startWithin (identity : JobIdentity) (deadline : Option Nat) :
    Nat → StartRun → Root → Option (Except TreeError StartResult) × Root
  | 0, run, r => (none, r.release run)
  | fuel + 1, run, r =>
    match run.call, run.call.request? with
    | .finished result, _ => (some result, r.release run)
    | _, none => (none, r.release run)
    | call, some request =>
      match r.answerStart identity deadline run request with
      | (some answer, run, r) =>
        let (outstanding, call) := call.answer r.outstanding answer
        startWithin identity deadline fuel { run with call } { r with outstanding }
      | (none, run, r) => (none, r.release run)

/-- Starts a job of an identity; it is then the last of the root's jobs. -/
def startJob (r : Root) (identity : JobIdentity) (millis : Option Nat) :
    Option (Except TreeError StartResult) × Root :=
  startWithin identity (r.deadlineIn millis) (r.outstanding.unanswered + 10) ⟨.locking, []⟩ r

end ProcessTree.Root
