-- Overriding a configuration by variables. Each variable that is set has to be
-- valid; the first one that is not, in the order they are read, is the error.
import ProcessTree.Config
import ProcessTree.Text.Numeral

namespace ProcessTree

/-- What the value of a variable is, if it is set. -/
abbrev Lookup := String → Option String

/-- The parts of a configuration that variables set. -/
structure Overrides where
  /-- Further ids to map in a worker. -/
  uidRange : Option IdMapping
  gidRange : Option IdMapping
  jobIdentity : Option JobIdentity
  fdPassing : Option FdPassing
  startTimeout : Option Duration
  shutdownTimeout : Option Duration
  killGrace : Option Duration
  dieWithParent : Option Bool
  deriving DecidableEq, Repr

namespace Overrides

/-! ## Single values -/

/-- The value of a variable as `read` takes it, if the variable is set. -/
def value {α : Type} (read : String → Option α) (lookup : Lookup) (key : String) :
    Except ConfigError (Option α) :=
  match lookup key with
  | none => .ok none
  | some text =>
    match read text with
    | some a => .ok (some a)
    | none => .error (.invalidValue key text)

/-- A number of 32 bits between blanks. -/
def word32? (text : String) : Option UInt32 :=
  (Numeral.read? 10 Numeral.word32 (Text.trimmed text.toList)).map UInt32.ofNat

/-- A time in milliseconds between blanks. -/
def millis? (text : String) : Option Duration :=
  (Numeral.read? 10 Numeral.word64 (Text.trimmed text.toList)).map fun n => .ofMillis (.ofNat n)

/-- The name of an identity between blanks. -/
def identity? (text : String) : Option JobIdentity :=
  JobIdentity.ofName? (String.ofList (Text.trimmed text.toList))

/-- A truth value. -/
def bool? (text : String) : Option Bool :=
  if text ∈ ["1", "true", "yes"] then some true
  else if text ∈ ["0", "false", "no"] then some false
  else none

/-- A range of ids that is mapped from 1 up, given by two variables that belong together. -/
def range (lookup : Lookup) (startKey lengthKey : String) :
    Except ConfigError (Option IdMapping) :=
  match value word32? lookup startKey with
  | .error e => .error e
  | .ok start =>
    match value word32? lookup lengthKey with
    | .error e => .error e
    | .ok length =>
      match start, length with
      | none, none => .ok none
      | some start, some length => .ok (some ⟨1, start, length⟩)
      | some _, none => .error (.incomplete startKey lengthKey)
      | none, some _ => .error (.incomplete lengthKey startKey)

/-! ## All of them -/

/-- The variables that are read, in their order. -/
def names : List String := [
  "WARREN_UID_START", "WARREN_UID_LENGTH", "WARREN_GID_START", "WARREN_GID_LENGTH",
  "WARREN_JOB_IDENTITY", "WARREN_FD_PASSING", "WARREN_START_TIMEOUT_MS",
  "WARREN_SHUTDOWN_TIMEOUT_MS", "WARREN_KILL_GRACE_MS", "WARREN_DIE_WITH_PARENT"]

/-- The parts that variables set. -/
def ofLookup (lookup : Lookup) : Except ConfigError Overrides := do
  let uidRange ← range lookup "WARREN_UID_START" "WARREN_UID_LENGTH"
  let gidRange ← range lookup "WARREN_GID_START" "WARREN_GID_LENGTH"
  let jobIdentity ← value identity? lookup "WARREN_JOB_IDENTITY"
  let fdPassing ← value FdPassing.ofName? lookup "WARREN_FD_PASSING"
  let startTimeout ← value millis? lookup "WARREN_START_TIMEOUT_MS"
  let shutdownTimeout ← value millis? lookup "WARREN_SHUTDOWN_TIMEOUT_MS"
  let killGrace ← value millis? lookup "WARREN_KILL_GRACE_MS"
  let dieWithParent ← value bool? lookup "WARREN_DIE_WITH_PARENT"
  return {
    uidRange, gidRange, jobIdentity, fdPassing, startTimeout, shutdownTimeout, killGrace,
    dieWithParent }

/-- A configuration with these parts replaced; ranges are added to the maps. -/
def apply (o : Overrides) (c : Config) : Config :=
  { c with
    uidMap := c.uidMap ++ o.uidRange.toList
    gidMap := c.gidMap ++ o.gidRange.toList
    jobIdentity := o.jobIdentity.getD c.jobIdentity
    fdPassing := o.fdPassing.getD c.fdPassing
    startTimeout := o.startTimeout.getD c.startTimeout
    shutdownTimeout := o.shutdownTimeout.getD c.shutdownTimeout
    killGrace := o.killGrace.getD c.killGrace
    dieWithParent := o.dieWithParent.getD c.dieWithParent }

end Overrides

/-- The initial configuration of a user and group, overridden by variables. -/
def Config.ofLookup (user group : UInt32) (lookup : Lookup) : Except ConfigError Config :=
  (Overrides.ofLookup lookup).map fun o => o.apply (.initial user group)

/-- The variables of a process. -/
abbrev Environment := List (String × OsText)

/-- The variables that are texts; a variable set twice has its last value. -/
def Environment.lookup (env : Environment) : Lookup := fun key =>
  (env.reverse.find? (·.1 == key)).bind (·.2.text?)

end ProcessTree
