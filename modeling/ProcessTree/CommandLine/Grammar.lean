-- The grammar of the command line. Arguments are read from left to right; the
-- first that cannot be used is the error, and a request for the version or for
-- help is met at once.
import ProcessTree.Text.Numeral
import ProcessTree.Text.OsText

namespace ProcessTree.CommandLine

/-- What the command line asks for. -/
inductive Command where
  /-- Starts a zygote and closes it again, within so many milliseconds. -/
  | zygote (timeoutMs : Option Nat)
  /-- Starts a worker with so many jobs, holds the tree if asked to, and closes it. -/
  | run (jobs : Nat) (hold : Bool)
  deriving DecidableEq, Repr

/-- Why arguments cannot be used. -/
inductive UsageError where
  | missingCommand
  | unexpected (arg : OsText)
  | missingValue (option : String)
  | invalidValue (option : String) (value : OsText)
  | unwantedValue (option : String)
  | repeated (option : String)
  deriving DecidableEq, Repr

/-- Why reading arguments stops before their end. -/
inductive Stop where
  | usage (e : UsageError)
  | version
  | help
  deriving DecidableEq, Repr

/-! ## Options -/

/-- The options of all commands. -/
inductive Opt where
  | timeoutMs
  | jobs
  | hold
  | help
  | version
  deriving DecidableEq, Repr

namespace Opt

/-- The long name of an option. -/
def long : Opt → String
  | .timeoutMs => "timeout-ms"
  | .jobs => "jobs"
  | .hold => "hold"
  | .help => "help"
  | .version => "version"

/-- The byte that an option has as its short name, if it has one. -/
def short? : Opt → Option UInt8
  | .jobs => some 0x6A
  | .help => some 0x68
  | .version => some 0x56
  | .timeoutMs | .hold => none

/-- Whether an option takes a value. -/
def isValued : Opt → Bool
  | .timeoutMs | .jobs => true
  | .hold | .help | .version => false

end Opt

/-- What the options of a command have set. -/
structure Settings where
  timeoutMs : Option Nat
  jobs : Option Nat
  hold : Bool
  deriving DecidableEq, Repr

/-- Nothing is set. -/
def Settings.initial : Settings := ⟨none, none, false⟩

/-- The number that a value is, with an optional plus sign. -/
def number (o : Opt) (value : OsText) : Except Stop Nat :=
  match value.text?.bind fun text => Numeral.read? 10 Numeral.word64 text.toList with
  | some n => .ok n
  | none => .error (.usage (.invalidValue o.long value))

/-- Sets a number that was not set before. -/
def setNumber (o : Opt) (old : Option Nat) (value : OsText) : Except Stop (Option Nat) :=
  if old.isSome then .error (.usage (.repeated o.long)) else (number o value).map some

/-- Sets what an option with a value says. -/
def Settings.setValue (s : Settings) (o : Opt) (value : OsText) : Except Stop Settings :=
  match o with
  | .timeoutMs => (setNumber o s.timeoutMs value).map fun timeoutMs => { s with timeoutMs }
  | .jobs => (setNumber o s.jobs value).map fun jobs => { s with jobs }
  | .hold | .help | .version => .error (.usage (.unwantedValue o.long))

/-- Sets what an option without a value says. -/
def Settings.setFlag (s : Settings) (o : Opt) : Except Stop Settings :=
  match o with
  | .hold => if s.hold then .error (.usage (.repeated o.long)) else .ok { s with hold := true }
  | .help => .error .help
  | .version => .error .version
  | .timeoutMs | .jobs => .error (.usage (.missingValue o.long))

/-! ## Arguments -/

/-- A dash. -/
def dash : UInt8 := 0x2D

/-- The sign between an option and its value. -/
def equalsSign : UInt8 := 0x3D

/-- What an argument is. -/
inductive Arg where
  /-- After it there are no options. -/
  | escape
  /-- A long option, with its value if one is attached. -/
  | long (name : Bytes) (value : Option Bytes)
  /-- Short options in a row; behind one that takes a value stands the value. -/
  | short (names : Bytes)
  | word
  deriving DecidableEq, Repr

/-- The part before a sign and the part after it, if the sign is there. -/
def splitAt (sign : UInt8) (bytes : Bytes) : Bytes × Option Bytes :=
  (bytes.takeWhile (· != sign),
    match bytes.dropWhile (· != sign) with
    | [] => none
    | _ :: rest => some rest)

/-- What an argument is; a lone dash is a word. -/
def Arg.of (arg : OsText) : Arg :=
  match arg.bytes with
  | [a, b] => if a = dash ∧ b = dash then .escape else if a = dash then .short [b] else .word
  | a :: b :: rest =>
    if a = dash ∧ b = dash then
      let (name, value) := splitAt equalsSign rest
      .long name value
    else if a = dash then .short (b :: rest)
    else .word
  | _ => .word

/-- Sets an option whose value is attached or is the next argument, and gives the arguments that
follow. -/
def setOption (s : Settings) (o : Opt) (attached : Option Bytes) (rest : List OsText) :
    Except Stop (Settings × List OsText) :=
  match o.isValued, attached with
  | true, some value => (s.setValue o ⟨value⟩).map (·, rest)
  | false, some _ => .error (.usage (.unwantedValue o.long))
  | false, none => (s.setFlag o).map (·, rest)
  | true, none =>
    match rest with
    | [] => .error (.usage (.missingValue o.long))
    | value :: rest =>
      match Arg.of value with
      | .word => (s.setValue o value).map (·, rest)
      | _ => .error (.usage (.missingValue o.long))

/-- Sets short options in a row. -/
def setShort (known : List Opt) (arg : OsText) (s : Settings) (rest : List OsText) :
    Bytes → Except Stop (Settings × List OsText)
  | [] => .ok (s, rest)
  | name :: names =>
    match known.find? (·.short? == some name) with
    | none => .error (.usage (.unexpected arg))
    | some o =>
      if o.isValued then
        match names with
        | [] => setOption s o none rest
        | first :: value =>
          setOption s o (some (if first = equalsSign then value else first :: value)) rest
      else
        match setOption s o none rest with
        | .error stop => .error stop
        | .ok (s, rest) => setShort known arg s rest names

/-- Sets what one argument with a dash says, and gives the arguments that follow. -/
def setArg (known : List Opt) (s : Settings) (arg : OsText) (rest : List OsText) :
    Except Stop (Settings × List OsText) :=
  match Arg.of arg with
  | .long name value =>
    match known.find? fun o => Bytes.ofText o.long = name with
    | some o => setOption s o value rest
    | none => .error (.usage (.unexpected arg))
  | .short names => setShort known arg s rest names
  | .escape =>
    match rest with
    | [] => .ok (s, [])
    | word :: _ => .error (.usage (.unexpected word))
  | .word => .error (.usage (.unexpected arg))

/-- Reads the options of a command to the end of the arguments. Every turn uses at least one
argument up, so there are never more turns than arguments. -/
def readOptions (known : List Opt) : Nat → Settings → List OsText → Except Stop Settings
  | 0, s, _ | _, s, [] => .ok s
  | fuel + 1, s, arg :: rest =>
    match setArg known s arg rest with
    | .error stop => .error stop
    | .ok (s, rest) => readOptions known fuel s rest

/-! ## Commands -/

/-- The options of a command and what it asks for with their settings. -/
def command? (name : OsText) : Option (List Opt × (Settings → Command)) :=
  if name = .ofText "zygote" then some ([.timeoutMs, .help], fun s => .zygote s.timeoutMs)
  else if name = .ofText "run" then
    some ([.jobs, .hold, .help], fun s => .run (s.jobs.getD 1) s.hold)
  else none

/-- Asks for help on a command, or in general. -/
def readHelp : List OsText → Except Stop Command
  | [] => .error .help
  | name :: _ =>
    if (command? name).isSome ∨ name = .ofText "help" then .error .help
    else .error (.usage (.unexpected name))

/-- What arguments ask for, the program's name left out. -/
def read : List OsText → Except Stop Command
  | [] => .error (.usage .missingCommand)
  | arg :: rest =>
    match Arg.of arg with
    | .word =>
      match command? arg with
      | some (known, ask) => (readOptions known rest.length .initial rest).map ask
      | none =>
        if arg = .ofText "help" then readHelp rest else .error (.usage (.unexpected arg))
    | _ =>
      match setArg [.help, .version] .initial arg rest with
      | .error stop => .error stop
      | .ok _ => .error (.usage .missingCommand)

end ProcessTree.CommandLine
