-- What the commands do: the lines that they print, and the code that the
-- process ends with.
import ProcessTree.CommandLine.Grammar
import ProcessTree.Machine.Reentry
import ProcessTree.Root.Job
import ProcessTree.Root.Worker

namespace ProcessTree.CommandLine

/-- How a process that was run from the command line ends. -/
structure Outcome where
  code : Nat
  /-- The lines it printed. -/
  lines : List String
  /-- What it wrote into its channel, if it was started over one. -/
  written : Bytes
  deriving DecidableEq, Repr

namespace Outcome

/-- Ends with a code. -/
def ends (code : Nat) (lines : List String) : Outcome := ⟨code, lines, []⟩

/-- The code of something that failed. -/
def failure : Nat := 1

/-- The code of arguments that cannot be used. -/
def usage : Nat := 2

end Outcome

/-- The name and version of the program. -/
def version : String := "warren 0.1.0"

/-- How the program is used. -/
def help : List String := [
  "Usage: warren zygote [--timeout-ms MS]",
  "       warren run [--jobs N] [--hold]"]

/-! ## The commands -/

/-- Starts a zygote and closes it. -/
def runZygote (m : Machine) (config : Config) (timeoutMs : Option Nat) : Outcome :=
  match Root.spawnZygote m config with
  | .error _ => .ends Outcome.failure []
  | .ok r =>
    let running := "zygote running as pid " ++ Nat.repr r.child.pid
    match (r.close (some (timeoutMs.getD config.shutdownTimeout.toMillis))).1 with
    | some (.ok state) => .ends 0 [running, "zygote finished with " ++ state.message]
    | _ => .ends Outcome.failure [running]

/-- Starts jobs one after the other, until one does not start: whether all did, the lines about
them, and the root afterwards. -/
def startJobs (config : Config) : Nat → Nat → List String → Root → Bool × List String × Root
  | 0, _, lines, r => (true, lines, r)
  | left + 1, n, lines, r =>
    match r.startJob config.jobIdentity (some config.startTimeout.toMillis) with
    | (some (.ok started), r) =>
      let line := "job " ++ Nat.repr n ++ " running as pid " ++ toString started.pid.toInt ++
        " in the worker"
      startJobs config left (n + 1) (lines ++ [line]) r
    | (_, r) => (false, lines, r)

/-- Closes all jobs, each within the time that an orderly end may take. -/
def closeJobs (config : Config) (r : Root) : Root :=
  (List.range r.jobs.length).foldl
    (fun r job => (r.closeJob job (some config.shutdownTimeout.toMillis)).2) r

/-- Starts a worker and jobs in it, and closes the tree, whether or not all jobs started. A tree
that is held is closed when the signal for that comes. -/
def runTree (m : Machine) (config : Config) (jobs : Nat) (hold : Bool) : Outcome :=
  match Root.spawnWorker m config with
  | .error _ => .ends Outcome.failure []
  | .ok r =>
    let running := "worker running as pid " ++ Nat.repr r.child.pid
    let (started, lines, r) := startJobs config jobs 0 [running] r
    let lines := if started ∧ hold then
      lines ++ ["holding the tree, send SIGINT or SIGTERM to tear it down"] else lines
    match ((closeJobs config r).close (some config.shutdownTimeout.toMillis)).1 with
    | some (.ok state) =>
      .ends (if started then 0 else Outcome.failure)
        (lines ++ ["worker finished with " ++ state.message])
    | _ => .ends Outcome.failure lines

/-- Does what a command asks for. -/
def Command.perform (m : Machine) (config : Config) : Command → Outcome
  | .zygote timeoutMs => runZygote m config timeoutMs
  | .run jobs hold => runTree m config jobs hold

/-! ## The program -/

/-- Runs the program as the root of a tree. -/
def runRoot (m : Machine) (args : List OsText) : Outcome :=
  match read args with
  | .error .version => .ends 0 [version]
  | .error .help => .ends 0 help
  | .error (.usage _) => .ends Outcome.usage []
  | .ok command =>
    match m.configOf m.host.initial with
    | .error _ => .ends Outcome.failure []
    | .ok config => command.perform m config

/-- The channel of a process that is started over one, or over none. -/
def channelFor (input : Option Bytes) (fds : ChannelFds) : Machine.RoleChannel where
  table := if input.isSome then (Machine.RoleChannel.over 3 4).table else .standard
  fds := fds

/-- Runs the program with these arguments, its name first, on a machine without processes; `input`
is what its channel holds, if it is started over one. -/
def run (m : Machine) (args : List OsText) (input : Option Bytes) : Outcome :=
  match Invocation.ofArgs args with
  | .error _ => .ends Outcome.failure []
  | .ok .root => runRoot m (args.drop 1)
  | .ok (.reentry role fds) =>
    let (result, written) := m.reenter role (channelFor input fds) (m.configOf m.host.initial)
      ⟨input.getD [], none, input.isSome⟩
    match result with
    | .ok () => ⟨0, [], written⟩
    | .error _ => ⟨Outcome.failure, [], written⟩

end ProcessTree.CommandLine
