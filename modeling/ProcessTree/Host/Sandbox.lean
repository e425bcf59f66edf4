-- The system that the program runs on here: which new namespaces it creates,
-- which id maps it takes, who may become root, and which programs it runs. Its
-- root user has no privilege beyond the name.
import ProcessTree.Host.Basic
import ProcessTree.Host.Programs

namespace ProcessTree.Sandbox

/-- The id that every id shows as which is not mapped. -/
def overflow : UInt32 := 65534

/-- A process in a user namespace without maps. -/
def stranger : Credentials := ⟨⟨overflow, overflow, false, false⟩, true⟩

/-- A child is a stranger in a new user namespace, and what its parent is elsewhere. -/
def inherits (parent : Credentials) (options : SpawnOptions) : Credentials :=
  if options.namespaces.user then stranger else parent

/-! ## Creating processes -/

/-- Whether a process may create a child in these namespaces: always in none, and in others only
together with a user namespace and from outside of one. -/
def creates (parent : Credentials) (namespaces : Namespaces) : Except Errno Unit :=
  if namespaces.isEmpty ∨ (namespaces.user ∧ !parent.confined) then .ok () else .error .notPermitted

/-- Whether a process becomes root: only where the root ids are mapped. -/
def assumesRoot (c : Credentials) : Except Errno Unit :=
  if c.confined then .error .invalidArgument else .ok ()

/-! ## Id maps -/

/-- How many lines a map may have. -/
def maxLines : Nat := 340

/-- How many bytes the text of a map may have. -/
def maxText : Nat := 4095

/-- The greatest id; it stands for no one. -/
def nobody : Nat := 4294967295

/-- Whether a range of ids is well formed: not empty, and it ends before the greatest id. -/
def validRange (start length : UInt32) : Bool :=
  length != 0 && start.toNat != nobody && start.toNat + length.toNat ≤ nobody

/-- Whether two ranges of ids have one in common. -/
def rangesMeet (start length start' length' : UInt32) : Bool :=
  start.toNat < start'.toNat + length'.toNat && start'.toNat < start.toNat + length.toNat

/-- Whether two lines of a map overlap on either side. -/
def linesMeet (a b : IdMapping) : Bool :=
  rangesMeet a.childStart a.length b.childStart b.length ||
    rangesMeet a.hostStart a.length b.hostStart b.length

/-- Whether no two lines of a map overlap. -/
def disjoint : IdMap → Bool
  | [] => true
  | line :: rest => rest.all (fun other => !linesMeet line other) && disjoint rest

/-- Whether the kernel can read a map. -/
def wellFormed (map : IdMap) : Bool :=
  map.all (fun line =>
    validRange line.childStart line.length && validRange line.hostStart line.length) &&
  disjoint map && map.length ≤ maxLines && map.text.utf8ByteSize ≤ maxText

/-- Whether the map of a child in a new user namespace is taken: never for users, and for groups
only when it is a line for the one group that the writer has. -/
def takesMap (kind : IdKind) (map : IdMap) : Except Errno Unit :=
  if !wellFormed map then .error .invalidArgument
  else if kind = .group ∧ MapWriter.mapsOnly 0 map then .ok ()
  else .error .notPermitted

/-- How an action on a child's maps goes. -/
def mapOutcome : MapAction → Except IdMapError Unit
  | .denySetgroups => .ok ()
  | .write kind map => (takesMap kind map).mapError fun e => .write kind.file (.system e)
  | .help kind _ => .error (.noTool kind.helper)

/-- How the next call of a process goes on the way to a child. -/
def answers (parent : Credentials) (l : Launch) : Except SpawnFault Unit :=
  match l.spawner with
  | .cloning => (creates parent l.options.namespaces).mapError .errno
  | .mapping (action :: _) => (mapOutcome action).mapError .map
  | _ => .ok ()

/-! ## Running programs -/

/-- How many bytes an argument or a variable may have, the end mark included. -/
def maxString : Nat := 131072

/-- Whether a program can be handed its arguments and variables. -/
def carries (call : ExecCall) : Bool :=
  call.args.all (fun a => a.bytes.length < maxString) &&
    call.environment.all fun (name, value) =>
      name.utf8ByteSize + 1 + value.bytes.length < maxString

/-- How running a program goes where there is one program, found by its path. -/
def executes (running : OsText) (call : ExecCall) : Except Errno Unit :=
  if call.path ≠ running then .error (Programs.refusal call.path)
  else if !carries call then .error .argumentListTooLong
  else .ok ()

/-! ## The system -/

/-- The system with one program, seen by a process from outside. -/
def host (initial : Credentials) (running : OsText) : Host where
  initial := initial
  inherits := inherits
  answers := answers
  executes _ := executes running
  assumesRoot := assumesRoot

/-- The system seen by its root user. -/
def bare (running : OsText) : Host := host (.root false) running

/-- The system seen from a user namespace without maps. -/
def inUserNamespace (running : OsText) : Host := host stranger running

/-- How one of its processes numbers can be looked up: only those of processes that live. -/
def opensProcess (number : Int) (living : List Int) : Except Errno Unit :=
  if number ≤ 0 then .error .invalidArgument
  else if number ∈ living then .ok ()
  else .error .noSuchProcess

end ProcessTree.Sandbox
