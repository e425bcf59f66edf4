-- How a stand-in moves. A stand-in reads and writes its channel byte by byte
-- where a role would use messages; one that plays jobs also holds the far ends
-- of their channels.
import ProcessTree.Machine.Spawn
import ProcessTree.Vocabulary

namespace ProcessTree.Machine

/-- Goes on with a stand-in. -/
def setStandIn (m : Machine) (pid : Nat) (fds : ChannelFds) (s : StandIn) : Machine :=
  m.setProgram pid (.standIn fds s)

/-- How many bytes a stand-in reads at a time. -/
def gulp : Nat := 65536

/-! ## Plain stand-ins -/

/-- A process sends itself a signal, and sleeps if that does not end it. -/
def die (m : Machine) (pid : Nat) (fds : ChannelFds) (s : Signal) : Machine :=
  (m.setStandIn pid fds .sleeps).signal pid s

/-- Writes what is left, unless that has to wait; where it fails there is no use in the rest. -/
def writeLeft? (m : Machine) (pid : Nat) (fds : ChannelFds) (left : Bytes) :
    Option (Bytes × Machine) :=
  if left.isEmpty then none
  else match m.write pid fds.write.toInt left with
    | (.waits, _) => none
    | (.failed _, m) => some ([], m)
    | (.took n, m) => some (left.drop n, m)

/-- One move of a stand-in that writes bytes and waits for the end of its channel. -/
def answerMove? (m : Machine) (pid : Nat) (fds : ChannelFds) (left : Bytes) (code : Nat) :
    Option Machine :=
  match m.writeLeft? pid fds left with
  | some (left, m) => some (m.setStandIn pid fds (.answers left code))
  | none =>
    match m.read pid fds.read.toInt gulp with
    | (.got _, m) => some m
    | (.finished, m) | (.failed _, m) => some (m.endProc pid (.exited (code % 256 : Nat)))
    | (.waits, _) => none

/-! ## Played jobs -/

/-- Opens a channel for a job that is played. The ends for the root stay open; those of the job
are open as far as its play wants. -/
def openPlayed (m : Machine) (pid : Nat) (play : JobPlay) (jobPid : Int32) :
    PlayedJob × StartResult × Machine :=
  let (ends, m) := m.openEnds pid
  let result : StartResult := ⟨Int32.ofNat ends.receive, Int32.ofNat ends.send, jobPid⟩
  let job : PlayedJob := ⟨play, some ends.child.receive, some ends.child.send, []⟩
  match play with
  | .deaf => ({ job with reader := none }, result, m.closeFds pid [ends.child.receive])
  | .mute => ({ job with writer := none }, result, m.closeFds pid [ends.child.send])
  | .talks bytes => (job, result, (m.write pid ends.child.send bytes).2)
  | .quits | .hangs => (job, result, m)

/-- The frame that answers a start request. -/
def replyFrame (result : StartResult) : Bytes :=
  match (Outbound.start Direction.workerToRoot.registry).frame (ReplyMessage.startResult result) with
  | .ok sending => sending.header ++ sending.payload
  | .error _ => []

/-- Whether quit is among the complete frames of a stream. -/
def hasQuit (bytes : Bytes) : Bool := (Frame.all bytes).any (·.1 == 255)

/-- A job that ends on quit reads what it was sent, if there is something. -/
def playMove? (m : Machine) (pid : Nat) (job : PlayedJob) : Option (PlayedJob × Machine) :=
  match job.play, job.reader with
  | .quits, some fd =>
    match m.read pid fd gulp with
    | (.got bytes, m) =>
      let seen := job.seen ++ bytes
      if hasQuit seen then
        some (⟨.quits, none, none, seen⟩, m.closeFds pid (fd :: job.writer.toList))
      else some ({ job with seen }, m)
    | (.finished, m) | (.failed _, m) =>
      some (⟨.quits, none, none, job.seen⟩, m.closeFds pid (fd :: job.writer.toList))
    | (.waits, _) => none
  | _, _ => none

/-- One move of the jobs that are played. -/
def playJobs? (m : Machine) (pid : Nat) : List PlayedJob → Option (List PlayedJob × Machine)
  | [] => none
  | job :: rest =>
    match m.playMove? pid job with
    | some (job, m) => some (job :: rest, m)
    | none => (m.playJobs? pid rest).map fun (rest, m) => (job :: rest, m)

/-- How many frames a job was sent that counts them. -/
def framesSent (m : Machine) (pid : Nat) (job : PlayedJob) : Nat :=
  match job.play, job.reader with
  | .hangs, some fd | .mute, some fd | .talks _, some fd =>
    match m.read pid fd Pipe.capacity with
    | (.got bytes, _) => (Frame.all bytes).length
    | _ => 0
  | _, _ => 0

/-- How a stand-in that plays jobs ends. -/
def lastCode (m : Machine) (pid : Nat) (playing : List PlayedJob) : LastWord → Nat
  | .code n => n % 256
  | .frames => (playing.map (m.framesSent pid)).foldr (· + ·) 0 % 256

/-- Handles the first complete frame that was read: a start request is answered with the next job,
everything else is passed over. -/
def serve? (m : Machine) (pid : Nat) (fds : ChannelFds) (todo : List (JobPlay × Int32))
    (playing : List PlayedJob) (seen left : Bytes) (last : LastWord) : Option Machine :=
  (Frame.next? seen).map fun (tag, _, seen) =>
    match tag, todo with
    | 2, (play, jobPid) :: todo =>
      let (job, result, m) := m.openPlayed pid play jobPid
      m.setStandIn pid fds
        (.playsJobs todo (playing ++ [job]) seen (left ++ replyFrame result) last)
    | _, _ => m.setStandIn pid fds (.playsJobs todo playing seen left last)

/-- One move of a stand-in that plays jobs. -/
def playsMove? (m : Machine) (pid : Nat) (fds : ChannelFds) (todo : List (JobPlay × Int32))
    (playing : List PlayedJob) (seen left : Bytes) (last : LastWord) : Option Machine :=
  match m.writeLeft? pid fds left with
  | some (left, m) => some (m.setStandIn pid fds (.playsJobs todo playing seen left last))
  | none =>
    match m.serve? pid fds todo playing seen left last with
    | some m => some m
    | none =>
      match m.playJobs? pid playing with
      | some (playing, m) => some (m.setStandIn pid fds (.playsJobs todo playing seen left last))
      | none =>
        match m.read pid fds.read.toInt gulp with
        | (.got bytes, m) =>
          some (m.setStandIn pid fds (.playsJobs todo playing (seen ++ bytes) left last))
        | (.finished, m) | (.failed _, m) =>
          some (m.endProc pid (.exited (m.lastCode pid playing last)))
        | (.waits, _) => none

/-! ## All moves -/

/-- One move of a stand-in. -/
def standInMove? (m : Machine) (pid : Nat) (fds : ChannelFds) : StandIn → Option Machine
  | .exits code => some (m.endProc pid (.exited (code % 256 : Nat)))
  | .dies s => some (m.die pid fds s)
  | .sleeps => none
  | .answers left code => m.answerMove? pid fds left code
  | .collects seen =>
    match m.read pid fds.read.toInt gulp with
    | (.got bytes, m) => some (m.setStandIn pid fds (.collects (seen ++ bytes)))
    | _ => none
  | .playsJobs todo playing seen left last => m.playsMove? pid fds todo playing seen left last

end ProcessTree.Machine
