-- How a process ended, and the status word that a helper program leaves behind.
import ProcessTree.Signal

namespace ProcessTree

/-- How a process ended: with an exit code, or by a signal. -/
inductive ExitState where
  | exited (code : Int)
  | signaled (signal : Signal)
  deriving DecidableEq, Repr, Inhabited

namespace ExitState

/-- Whether the process ended with exit code 0. -/
def success : ExitState → Bool
  | .exited code => code == 0
  | .signaled _ => false

/-- The exit code, if there is one. -/
def code? : ExitState → Option Int
  | .exited code => some code
  | .signaled _ => none

/-- The signal, if one ended the process. -/
def signal? : ExitState → Option Signal
  | .exited _ => none
  | .signaled signal => some signal

/-- The text of an exit state. -/
def message : ExitState → String
  | .exited code => "exit code " ++ toString code
  | .signaled signal => "signal " ++ signal.name

end ExitState

/-- The status word of an ended child, as the system hands it over. -/
structure WaitStatus where
  word : Int
  deriving DecidableEq, Repr, Inhabited

namespace WaitStatus

/-- The status word as an unsigned number of 32 bits. -/
def bits (s : WaitStatus) : Nat := (s.word % 4294967296).toNat

/-- The seven low bits: 0 for an exit, the signal otherwise. -/
def low (s : WaitStatus) : Nat := s.bits % 128

/-- The second byte: the exit code, or the signal that stopped the child. -/
def second (s : WaitStatus) : Nat := s.bits / 256 % 256

/-- The status word of a child that exited with `code`. -/
def exited (code : Nat) : WaitStatus := ⟨code % 256 * 256⟩

/-- The status word of a child that a signal ended. -/
def signaled (number : Nat) : WaitStatus := ⟨number % 128⟩

/-- The number of a signal, with its name when it has one. -/
def signalText (number : Nat) : String :=
  match Signal.ofNumber? number with
  | some signal => Nat.repr number ++ " (" ++ signal.name ++ ")"
  | none => Nat.repr number

/-- The text of a status word. -/
def message (s : WaitStatus) : String :=
  if s.low = 0 then "exit status: " ++ Nat.repr s.second
  else if s.low < 127 then
    "signal: " ++ signalText s.low ++ (if s.bits / 128 % 2 = 1 then " (core dumped)" else "")
  else if s.bits % 256 = 127 then
    "stopped (not terminated) by signal: " ++ signalText s.second
  else if s.bits = 0xFFFF then "continued (WIFCONTINUED)"
  else
    "unrecognised wait status: " ++ toString s.word ++ " 0x" ++
      String.ofList (Nat.toDigits 16 s.bits)

end WaitStatus

end ProcessTree
