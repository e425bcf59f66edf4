-- Signals: their names and numbers, and what each does to a process that has not
-- said otherwise.
namespace ProcessTree

/-- A signal. -/
inductive Signal where
  | hup | int | quit | ill | trap | abrt | bus | fpe | kill | usr1 | segv | usr2 | pipe | alrm
  | term | stkflt | chld | cont | stop | tstp | ttin | ttou | urg | xcpu | xfsz | vtalrm | prof
  | winch | poll | pwr | sys
  deriving DecidableEq, Repr, Inhabited

namespace Signal

/-- All signals, in the order of their numbers, which start at 1. -/
def all : List Signal := [
  .hup, .int, .quit, .ill, .trap, .abrt, .bus, .fpe, .kill, .usr1, .segv, .usr2, .pipe, .alrm,
  .term, .stkflt, .chld, .cont, .stop, .tstp, .ttin, .ttou, .urg, .xcpu, .xfsz, .vtalrm, .prof,
  .winch, .poll, .pwr, .sys]

/-- The number of a signal. -/
def number (s : Signal) : Nat := all.idxOf s + 1

/-- The signal of a number. -/
def ofNumber? (n : Nat) : Option Signal := if n = 0 then none else all[n - 1]?

/-- The name of a signal. -/
def name : Signal → String
  | .hup => "SIGHUP"
  | .int => "SIGINT"
  | .quit => "SIGQUIT"
  | .ill => "SIGILL"
  | .trap => "SIGTRAP"
  | .abrt => "SIGABRT"
  | .bus => "SIGBUS"
  | .fpe => "SIGFPE"
  | .kill => "SIGKILL"
  | .usr1 => "SIGUSR1"
  | .segv => "SIGSEGV"
  | .usr2 => "SIGUSR2"
  | .pipe => "SIGPIPE"
  | .alrm => "SIGALRM"
  | .term => "SIGTERM"
  | .stkflt => "SIGSTKFLT"
  | .chld => "SIGCHLD"
  | .cont => "SIGCONT"
  | .stop => "SIGSTOP"
  | .tstp => "SIGTSTP"
  | .ttin => "SIGTTIN"
  | .ttou => "SIGTTOU"
  | .urg => "SIGURG"
  | .xcpu => "SIGXCPU"
  | .xfsz => "SIGXFSZ"
  | .vtalrm => "SIGVTALRM"
  | .prof => "SIGPROF"
  | .winch => "SIGWINCH"
  | .poll => "SIGIO"
  | .pwr => "SIGPWR"
  | .sys => "SIGSYS"

/-- The signal of a name. -/
def ofName? (name : String) : Option Signal := all.find? (·.name == name)

/-- What a signal does by default. -/
inductive Effect where
  | ends
  | nothing
  | stops
  | continues
  deriving DecidableEq, Repr

/-- What a signal does to a process that has not said otherwise. -/
def effect : Signal → Effect
  | .chld | .urg | .winch => .nothing
  | .cont => .continues
  | .stop | .tstp | .ttin | .ttou => .stops
  | _ => .ends

/-- The signals on which a re-entered role ends in good order. -/
def termination : List Signal := [.term, .hup, .int]

end Signal

end ProcessTree
