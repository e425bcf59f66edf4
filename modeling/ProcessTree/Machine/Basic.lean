-- A machine: processes with what they have open and the signals that came to
-- them, the pipes between them, and a clock.
import ProcessTree.Host.Basic
import ProcessTree.Host.Descriptors
import ProcessTree.Host.Pipe
import ProcessTree.Machine.Program

namespace ProcessTree

/-- Whether a process lives, and whether its end was observed. -/
inductive Life where
  | alive
  | ended (state : ExitState)
  /-- Its end was observed, and there is nothing left of it. -/
  | reaped
  deriving DecidableEq, Repr

/-- A process. -/
structure Proc where
  pid : Nat
  parent : Nat
  fds : FdTable
  life : Life
  stopped : Bool
  /-- Signals that came while it was stopped. -/
  pending : List Signal
  /-- Signals that it handles, and those of them that came and were not looked at. -/
  handled : List Signal
  caught : List Signal
  ignored : List Signal
  /-- Whether it is the first process of its pid namespace, to which signals by default do
  nothing. -/
  first : Bool
  /-- Who it is to the system. -/
  credentials : Credentials
  dieWithParent : Bool
  program : Program

namespace Proc

/-- A process that runs a program and to which nothing has happened yet. -/
def start (pid parent : Nat) (fds : FdTable) (credentials : Credentials) (program : Program) :
    Proc where
  pid := pid
  parent := parent
  fds := fds
  life := .alive
  stopped := false
  pending := []
  handled := []
  caught := []
  ignored := []
  first := false
  credentials := credentials
  dieWithParent := false
  program := program

/-- Whether a process can do something. -/
def isActive (p : Proc) : Bool := p.life == .alive && !p.stopped

end Proc

/-- A machine. -/
structure Machine where
  host : Host
  procs : List Proc
  pipes : List Pipe
  /-- The time in milliseconds. -/
  clock : Nat
  nextPid : Nat
  /-- The path of the program that runs, and what the programs of children do. -/
  running : OsText
  behaviour : Behaviour
  /-- The variables of children. -/
  environment : Environment

namespace Machine

/-- A machine without processes. -/
def empty (host : Host) (running : OsText) (behaviour : Behaviour) (environment : Environment) :
    Machine where
  host := host
  procs := []
  pipes := []
  clock := 0
  nextPid := 2
  running := running
  behaviour := behaviour
  environment := environment

/-! ## Processes -/

/-- A process by its number. -/
def proc? (m : Machine) (pid : Nat) : Option Proc := m.procs.find? (·.pid == pid)

/-- Changes a process. -/
def modify (m : Machine) (pid : Nat) (f : Proc → Proc) : Machine :=
  { m with procs := m.procs.map fun p => if p.pid = pid then f p else p }

/-- Changes what a process does. -/
def setProgram (m : Machine) (pid : Nat) (program : Program) : Machine :=
  m.modify pid fun p => { p with program }

/-- A new process, made from the number that it gets. -/
def addProc (m : Machine) (make : Nat → Proc) : Nat × Machine :=
  (m.nextPid, { m with nextPid := m.nextPid + 1, procs := m.procs ++ [make m.nextPid] })

/-- A new process without a parent on the machine, which has these descriptors. -/
def addOrphan (m : Machine) (fds : FdTable) (program : Program) : Nat × Machine :=
  m.addProc fun pid => .start pid 0 fds m.host.initial program

/-- Whether a process can still be signalled or looked into. -/
def isAlive (m : Machine) (pid : Nat) : Bool := (m.proc? pid).any (·.life == .alive)

/-- Who a process is to the system. -/
def credentialsOf (m : Machine) (pid : Nat) : Credentials :=
  ((m.proc? pid).map (·.credentials)).getD m.host.initial

/-- A process tries to become root, with this outcome. -/
def becomeRoot (m : Machine) (pid : Nat) : Except Errno Unit → Machine
  | .ok () => m.modify pid fun p => { p with credentials := p.credentials.asRoot }
  | .error _ => m

/-! ## Descriptors -/

/-- Changes what a process has open. -/
def modifyFds (m : Machine) (pid : Nat) (f : FdTable → FdTable) : Machine :=
  m.modify pid fun p => { p with fds := f p.fds }

/-- The descriptors of a process; none once it has ended. -/
def fdsOf (m : Machine) (pid : Nat) : FdTable := ((m.proc? pid).map (·.fds)).getD []

/-- Closes descriptors of a process. -/
def closeFds (m : Machine) (pid : Nat) (fds : List Nat) : Machine :=
  m.modifyFds pid fun t => fds.foldl FdTable.close t

/-- Whether a file is open anywhere. -/
def isHeld (m : Machine) (file : OpenFile) : Bool := m.procs.any (·.fds.holds file)

/-! ## Pipes -/

/-- A new pipe that nobody has open. -/
def addPipe (m : Machine) (pipe : Pipe) : Nat × Machine :=
  (m.pipes.length, { m with pipes := m.pipes ++ [pipe] })

/-- A new pipe, with both ends open in a process and closed on exec; the read end first. -/
def openPipe (m : Machine) (pid : Nat) : Nat × Nat × Machine :=
  let (pipe, m) := m.addPipe .empty
  let (reader, fds) := (m.fdsOf pid).install 0 ⟨.readEnd pipe, true⟩
  let (writer, fds) := fds.install 0 ⟨.writeEnd pipe, true⟩
  (reader, writer, m.modifyFds pid fun _ => fds)

/-- The bytes on their way in a pipe. -/
def pipeAt (m : Machine) (pipe : Nat) : Pipe := m.pipes[pipe]?.getD .empty

/-- Changes what is on its way in a pipe. -/
def setPipe (m : Machine) (pipe : Nat) (p : Pipe) : Machine :=
  { m with pipes := m.pipes.set pipe p }

/-- What a read call gives, or that it has to wait. -/
inductive ReadCall where
  | got (bytes : Bytes)
  | finished
  | failed (errno : Errno)
  | waits

/-- A read call for at most `n` bytes. -/
def read (m : Machine) (pid : Nat) (fd : Int) (n : Nat) : ReadCall × Machine :=
  match (m.fdsOf pid).get? fd with
  | none | some ⟨.writeEnd _, _⟩ => (.failed .badDescriptor, m)
  | some ⟨.device, _⟩ => (.finished, m)
  | some ⟨.readEnd pipe, _⟩ =>
    if (m.pipeAt pipe).size = 0 then (if m.isHeld (.writeEnd pipe) then .waits else .finished, m)
    else
      let (bytes, left) := (m.pipeAt pipe).pull n
      (.got bytes, m.setPipe pipe left)

/-- What a write call gives, or that it has to wait. -/
inductive WriteCall where
  | took (n : Nat)
  | failed (errno : Errno)
  | waits

/-- A write call with bytes on offer. -/
def write (m : Machine) (pid : Nat) (fd : Int) (offered : Bytes) : WriteCall × Machine :=
  match (m.fdsOf pid).get? fd with
  | none | some ⟨.readEnd _, _⟩ => (.failed .badDescriptor, m)
  | some ⟨.device, _⟩ => (.took offered.length, m)
  | some ⟨.writeEnd pipe, _⟩ =>
    if offered.isEmpty then (.took 0, m)
    else if !m.isHeld (.readEnd pipe) then (.failed .brokenPipe, m)
    else
      match (m.pipeAt pipe).accepts offered.length with
      | 0 => (.waits, m)
      | n => (.took n, m.setPipe pipe ((m.pipeAt pipe).push (offered.take n)))

end Machine

end ProcessTree
