-- How a role at work moves: it takes over its descriptors, handles the events
-- of its loop, and closes its jobs when the loop is over; beside that it watches
-- its jobs and reads its channel.
import ProcessTree.Machine.Close
import ProcessTree.Machine.Spawn
import ProcessTree.Vocabulary

namespace ProcessTree

/-- The directions that a role sends and receives in; the root has no channel to a root. -/
def Role.directions? : Role → Option (Direction × Direction)
  | .root => none
  | .zygote => some (.zygoteToRoot, .rootToZygote)
  | .worker => some (.workerToRoot, .rootToWorker)
  | .job => some (.jobToRoot, .rootToJob)

namespace Machine

/-- Goes on with a role. -/
def setRole (m : Machine) (pid : Nat) (r : RoleRun) : Machine := m.setProgram pid (.role r)

/-! ## The start -/

/-- Takes over the descriptors of its channel. -/
def adopt (m : Machine) (p : Proc) (r : RoleRun) : Machine :=
  match r.fds.adopt p.fds with
  | .error e => m.setRole p.pid (r.finish (.error e))
  | .ok fds => (m.modifyFds p.pid fun _ => fds).setRole p.pid { r with startUp := .installing }

/-- Makes the channel of a role. -/
def connect (m : Machine) (pid : Nat) (r : RoleRun) : Machine :=
  match r.role.directions? with
  | none => m.setRole pid (r.finish (.error (.invocation "root is not a re-entered role")))
  | some (outbound, inbound) =>
    match m.openChannel pid outbound.registry inbound.registry r.fds.write.toInt.toNat
        r.fds.read.toInt.toNat with
    | (.ok channel, m) => m.setRole pid { r with startUp := .started, channel := some channel }
    | (.error e, m) => m.setRole pid (r.finish (.error (.channel e)))

/-- One move of the start of a role: it reads its configuration, takes over its descriptors,
installs its signal handlers, and makes its channel. -/
def startMove (m : Machine) (p : Proc) (r : RoleRun) : Machine :=
  match r.startUp, r.config with
  | .configuring, .error e => m.setRole p.pid (r.finish (.error (.config e)))
  | .configuring, .ok _ => m.setRole p.pid { r with startUp := .adopting }
  | .adopting, _ => m.adopt p r
  | .installing, _ =>
    (m.modify p.pid fun p => { p with handled := Signal.termination }).setRole p.pid
      { r with startUp := .connecting }
  | .connecting, _ | .started, _ => m.connect p.pid r

/-! ## The loop -/

/-- Handles an event: any event means that the root is done with the last job's ends. -/
def onEvent (m : Machine) (pid : Nat) (r : RoleRun) (event : LoopEvent) : Machine :=
  let ends := r.handoff.elim [] fun (receive, send) => [receive, send]
  (m.closeFds pid ends).setRole pid { r with handoff := none, loop := r.loop.onEvent event }

/-- The event of what a channel gave. -/
def eventOf : Except ChannelError ControlMessage → LoopEvent
  | .ok message => .message message
  | .error e => .failed e

/-- The next event of a loop that waits for one: a message is taken before a signal. -/
def event? (m : Machine) (pid : Nat) (r : RoleRun) (c : Channel ControlMessage) : Option Machine :=
  match c.inbound.recv? with
  | some (received, inbound) =>
    some (m.onEvent pid { r with channel := some { c with inbound } } (eventOf received))
  | none => (m.catch? pid).map fun (s, m) => m.onEvent pid r (.signal s)

/-- What a worker tells of a job that it has started. -/
def replyOf (job : Handle) (ends : NewChannel) : StartResult :=
  ⟨Int32.ofNat ends.receive, Int32.ofNat ends.send, Int32.ofNat job.pid⟩

/-- Starts a job, and keeps its channel's ends for the root. -/
def startJob (m : Machine) (pid : Nat) (r : RoleRun) (config : Config) (request : Start) :
    Machine :=
  match m.spawn pid (.job config request.identity m.running) with
  | (.error e, m) => m.setRole pid { r with loop := r.loop.onStarted (.error (.process e)) }
  | (.ok (job, ends), m) =>
    m.setRole pid { r with
      jobs := r.jobs ++ [job]
      handoff := some (ends.receive, ends.send)
      loop := r.loop.onStarted (.ok (replyOf job ends)) }

/-- Sends an answer, as far as it goes. -/
def reply? (m : Machine) (pid : Nat) (r : RoleRun) (c : Channel ControlMessage)
    (result : StartResult) : Option Machine :=
  match m.send pid c (ReplyMessage.startResult result) with
  | (some sent, c, m) =>
    some (m.setRole pid { r with channel := some c, loop := r.loop.onReplied sent })
  | (none, c', m) =>
    if c'.unsent = c.unsent then none else some (m.setRole pid { r with channel := some c' })

/-! ## The end -/

/-- Closes the jobs one after the other, all with the deadline that was set when the loop was
over. A job that still runs after its close is killed. -/
def closeJobs? (m : Machine) (pid : Nat) (r : RoleRun) (config : Config) : Option Machine :=
  match r.jobs, r.closing with
  | [], _ => some (m.setRole pid { r with loop := r.loop.onJobsClosed })
  | _, none =>
    let deadline := m.clock + config.shutdownTimeout.toMillis
    some (m.setRole pid { r with closing := some (.start false (some deadline) m.clock) })
  | job :: rest, some run =>
    match run.closing with
    | .finished _ =>
      some ((m.dropHandle job).setRole pid { r with
        jobs := rest
        closing := some (.start false run.deadline m.clock) })
    | _ => (m.closeStep? job run).map fun (run, m) => m.setRole pid { r with closing := some run }

/-- The exit code of a role that has ended. -/
def roleCode : Except ReentryError Unit → Int
  | .ok () => 0
  | .error _ => 1

/-! ## All moves -/

/-- What a role does next in its loop, if it can go on. -/
def loopMove? (m : Machine) (p : Proc) (r : RoleRun) (config : Config)
    (c : Channel ControlMessage) : Option Machine :=
  match r.loop.stage with
  | .awaiting => m.event? p.pid r c
  | .assuming =>
    let outcome := m.host.assumesRoot p.credentials
    some ((m.becomeRoot p.pid outcome).setRole p.pid { r with loop := r.loop.onAssumed outcome })
  | .starting request => some (m.startJob p.pid r config request)
  | .replying result => m.reply? p.pid r c result
  | .leaving _ => m.closeJobs? p.pid r config
  | .ended _ => none

/-- Writes down the end of a job that has ended. -/
def watchJobs? (m : Machine) : List Handle → Option (List Handle × Machine)
  | [] => none
  | job :: rest =>
    match m.watch? job with
    | some (job, m) => some (job :: rest, m)
    | none => (m.watchJobs? rest).map fun (rest, m) => (job :: rest, m)

/-- What a role does beside its loop: it watches its jobs and reads its channel. -/
def backgroundMove? (m : Machine) (pid : Nat) (r : RoleRun) (c : Channel ControlMessage) :
    Option Machine :=
  match m.watchJobs? r.jobs with
  | some (jobs, m) => some (m.setRole pid { r with jobs })
  | none => (m.pump? pid c).map fun (c, m) => m.setRole pid { r with channel := some c }

/-- One move of a role. -/
def roleMove? (m : Machine) (p : Proc) (r : RoleRun) : Option Machine :=
  match r.result?, r.config, r.channel with
  | some result, _, _ => some (m.endProc p.pid (.exited (roleCode result)))
  | none, .ok config, some c => (m.loopMove? p r config c).or (m.backgroundMove? p.pid r c)
  | none, _, _ => some (m.startMove p r)

end Machine

end ProcessTree
