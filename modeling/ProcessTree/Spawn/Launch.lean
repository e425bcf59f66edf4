-- Starting a child: what the spawning process and the child do between the
-- decision to start it and the moment its program runs, call by call. The child
-- waits for a byte on a sync pipe until its id maps are written; a failure to
-- run its program comes back over a status pipe that closes when the program
-- runs.
import ProcessTree.IdMap.Plan
import ProcessTree.Spawn.Options

namespace ProcessTree

/-- What the spawning process holds open for the attempt. -/
inductive Held where
  | channelEnds
  | syncRead
  | syncWrite
  | statusRead
  | statusWrite
  /-- The descriptor that stands for the child. -/
  | childRef
  deriving DecidableEq, Repr

/-- Where the spawning process stands. -/
inductive Spawner where
  /-- Laying out the arguments of the program. -/
  | planning
  | openingSync
  | openingStatus
  | cloning
  /-- Finding the place that the child's id maps are written to, when there are any. -/
  | locating
  /-- Writing the child's id maps. -/
  | mapping (left : List MapAction)
  /-- Telling the child to go on. -/
  | releasing
  /-- Reading the status pipe to its end. -/
  | reading
  /-- Killing the child, with the reason to give up. -/
  | killing (reason : String)
  /-- Waiting for the end of the child, with the reason to give up. -/
  | reaping (reason : String)
  | finished (result : Except ProcessError Unit)
  deriving Repr

/-- Where the child stands. -/
inductive Child where
  | unborn
  /-- Asking to be killed when its parent dies, if it should be. -/
  | guarding
  /-- Waiting for the sync pipe. -/
  | waiting
  /-- Moving its end of the status pipe out of the way. -/
  | parking
  /-- Moving its channel, with so many calls left. -/
  | placing (left : Nat)
  | executing
  /-- Its program runs. -/
  | running
  | ended
  deriving DecidableEq, Repr

/-- An attempt to start a child. -/
structure Launch where
  options : SpawnOptions
  writer : MapWriter
  spawner : Spawner
  child : Child
  held : List Held
  /-- Whether the byte that lets the child go on was written. -/
  released : Bool
  /-- What the child wrote into the status pipe. -/
  report : Option Errno
  /-- Whether the spawning process has waited for the child's end. -/
  reaped : Bool

/-- How a call of the spawning process fails. -/
inductive SpawnFault where
  | errno (e : Errno)
  | map (e : IdMapError)
  | io (failure : IoFailure)
  deriving DecidableEq, Repr

namespace SpawnFault

/-- The text of a fault. -/
def message : SpawnFault → String
  | .errno e => e.message
  | .map e => e.message
  | .io failure => failure.message

end SpawnFault

namespace Launch

/-- An attempt that is about to begin. -/
def start (options : SpawnOptions) (writer : MapWriter) : Launch where
  options := options
  writer := writer
  spawner := .planning
  child := .unborn
  held := [.channelEnds]
  released := false
  report := none
  reaped := false

/-- The error of an attempt. -/
def failure (l : Launch) (reason : String) : ProcessError := .spawnFailed l.options.role reason

/-- What is still held once some of it is closed. -/
def without (l : Launch) (gone : List Held) : List Held := l.held.filter fun h => h ∉ gone

/-- Ends the attempt. Whatever is still held for it is closed, but for the reference to a child
that was started: the caller gets it. -/
def finish (l : Launch) (result : Except ProcessError Unit) : Launch :=
  { l with
    spawner := .finished result
    held := match result with
      | .ok () => l.held.filter fun h => h = .childRef
      | .error _ => [] }

/-- Gives up, when there is no child, or none is left. -/
def giveUp (l : Launch) (reason : String) : Launch := l.finish (.error (l.failure reason))

/-- Gives up when there is a child, which has to end first. -/
def abort (l : Launch) (reason : String) : Launch := { l with spawner := .killing reason }

/-- Gives up when the status pipe has told of a failure: the child ends by itself. -/
def awaitEnd (l : Launch) (reason : String) : Launch :=
  { l with spawner := .reaping reason, held := l.without [.statusRead] }

/-- The actions that write the child's id maps. -/
def plan (l : Launch) : List MapAction := l.writer.plan l.options.uidMap l.options.gidMap

/-- Whether the child still holds its end of the status pipe. -/
def childHoldsStatus (l : Launch) : Bool :=
  match l.child with
  | .unborn | .running | .ended => false
  | _ => true

/-- One call of the spawning process, with its outcome; nothing while it has to wait. -/
def spawnerStep? (l : Launch) (outcome : Except SpawnFault Unit) : Option Launch :=
  match l.spawner, outcome with
  | .planning, .ok () => some { l with spawner := .openingSync }
  | .planning, .error _ => some (l.giveUp "argument contains a nul byte")
  | .openingSync, .ok () =>
    some { l with spawner := .openingStatus, held := l.held ++ [.syncRead, .syncWrite] }
  | .openingStatus, .ok () =>
    some { l with spawner := .cloning, held := l.held ++ [.statusRead, .statusWrite] }
  | .openingSync, .error e | .openingStatus, .error e => some (l.giveUp ("pipe: " ++ e.message))
  | .cloning, .ok () =>
    some { l with
      spawner := if l.plan.isEmpty then .mapping [] else .locating
      child := .guarding
      held := l.without [.syncRead, .statusWrite, .channelEnds] ++ [.childRef] }
  | .locating, .ok () => some { l with spawner := .mapping l.plan }
  | .locating, .error e => some (l.abort e.message)
  | .cloning, .error e => some (l.giveUp ("clone: " ++ e.message))
  | .mapping (_ :: left), .ok () => some { l with spawner := .mapping left }
  | .mapping (_ :: _), .error e => some (l.abort e.message)
  | .mapping [], _ => some { l with spawner := .releasing }
  | .releasing, .ok () =>
    if l.child = .ended then
      some (l.abort ("release child: " ++ (IoFailure.system .brokenPipe).message))
    else some { l with
      spawner := .reading, released := true, held := l.without [.syncWrite] }
  | .releasing, .error e => some (l.abort ("release child: " ++ e.message))
  | .reading, .ok () =>
    if l.childHoldsStatus ∨ Held.statusWrite ∈ l.held then none
    else match l.report with
      | none => some (l.finish (.ok ()))
      | some errno =>
        some (l.awaitEnd ("exec " ++ l.options.executable.shown ++ ": " ++ errno.message))
  | .reading, .error e =>
    some { l.abort ("read exec status: " ++ e.message) with held := l.without [.statusRead] }
  | .killing reason, .ok () => some { l with spawner := .reaping reason, child := .ended }
  | .killing reason, .error _ => some { l with spawner := .reaping reason }
  | .reaping reason, _ =>
    if l.child = .ended then some { l.giveUp reason with reaped := true } else none
  | .finished _, _ => none

/-- How many calls move the channel of a child. -/
def placements : FdPassing → Nat
  | .fixed => 4
  | .numbered => 2

/-- One call of the child, with its outcome; nothing while it has to wait. The child has a write
end of its sync pipe too, so that this pipe does not end. A child that fails before its status pipe
is out of the way ends without a report. -/
def childStep? (l : Launch) (outcome : Except Errno Unit) : Option Launch :=
  match l.child, outcome with
  | .guarding, .ok () => some { l with child := .waiting }
  | .guarding, .error _ =>
    some { l with child := if l.options.dieWithParent then .ended else .waiting }
  | .waiting, .ok () => if l.released then some { l with child := .parking } else none
  | .waiting, .error _ => some { l with child := .ended }
  | .parking, .ok () => some { l with child := .placing (placements l.options.fdPassing) }
  | .parking, .error _ => some { l with child := .ended }
  | .placing 0, _ => some { l with child := .executing }
  | .placing (left + 1), .ok () => some { l with child := .placing left }
  | .executing, .ok () => some { l with child := .running }
  | .placing (_ + 1), .error e | .executing, .error e =>
    some { l with child := .ended, report := some e }
  | .unborn, _ | .running, _ | .ended, _ => none

/-! ## A launch from its start to its end -/

/-- How the next call of the spawning process goes, where `answers` says it. That the program's path
can be an argument at all is up to nobody, and a child can be killed and waited for. -/
def spawnerOutcome (answers : Launch → Except SpawnFault Unit) (l : Launch) :
    Except SpawnFault Unit :=
  match l.spawner with
  | .planning =>
    if l.options.executable.hasNul then .error (.errno .invalidArgument) else .ok ()
  | .killing _ | .reaping _ => .ok ()
  | _ => answers l

/-- How the next call of the child goes, where only running its program may fail. -/
def childOutcome (program : Except Errno Unit) (l : Launch) : Except Errno Unit :=
  match l.child with
  | .executing => program
  | _ => .ok ()

/-- Goes on until the attempt has ended, the spawning process first. -/
def runWithin (answers : Launch → Except SpawnFault Unit) (program : Except Errno Unit) :
    Nat → Launch → Launch
  | 0, l => l
  | fuel + 1, l =>
    match l.spawnerStep? (spawnerOutcome answers l) with
    | some l' => runWithin answers program fuel l'
    | none =>
      match l.childStep? (childOutcome program l) with
      | some l' => runWithin answers program fuel l'
      | none => l

/-- No launch has more calls: eleven of the spawning process beside the three that write maps, and
nine of the child. -/
def calls : Nat := 24

/-- How an attempt ends whose calls are answered so; `program` says whether the program can be
run. -/
def run (answers : Launch → Except SpawnFault Unit) (program : Except Errno Unit)
    (options : SpawnOptions) (writer : MapWriter) : Except ProcessError Unit :=
  match (runWithin answers program calls (start options writer)).spawner with
  | .finished result => result
  | _ => .error (.spawnFailed options.role "the attempt did not end")

end Launch

end ProcessTree
