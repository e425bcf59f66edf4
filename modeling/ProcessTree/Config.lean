-- The configuration that the processes of a tree share.
import ProcessTree.Duration
import ProcessTree.IdMap
import ProcessTree.Namespaces
import ProcessTree.Text.OsText

namespace ProcessTree

/-- The configuration of a tree. -/
structure Config where
  /-- The program that children run; the running one when there is none. -/
  executable : Option OsText
  /-- The namespaces that a worker is created in. -/
  workerNamespaces : Namespaces
  /-- The maps of a worker in a user namespace of its own. -/
  uidMap : IdMap
  gidMap : IdMap
  /-- The identity of a job started without one. -/
  jobIdentity : JobIdentity
  fdPassing : FdPassing
  /-- How long starting a job may take. -/
  startTimeout : Duration
  /-- How long an orderly end may take before processes are killed. -/
  shutdownTimeout : Duration
  /-- How long to wait for a process that was killed. -/
  killGrace : Duration
  /-- Whether children are killed when their parent dies. -/
  dieWithParent : Bool
  deriving DecidableEq, Repr

namespace Config

/-- The configuration that nothing was set in, for this user and group. -/
def initial (user group : UInt32) : Config where
  executable := none
  workerNamespaces := .worker
  uidMap := [.rootTo user]
  gidMap := [.rootTo group]
  jobIdentity := default
  fdPassing := .fixed
  startTimeout := .ofSecs 10
  shutdownTimeout := .ofSecs 5
  killGrace := .ofSecs 1
  dieWithParent := true

/-- The program that children run, when `running` is the running one. -/
def program (c : Config) (running : OsText) : OsText := c.executable.getD running

/-! ## Setting one part at a time -/

/-- One part of a configuration, with its new value. -/
inductive Setting where
  | executable (path : OsText)
  | workerNamespaces (namespaces : Namespaces)
  | uidMap (map : IdMap)
  | gidMap (map : IdMap)
  | jobIdentity (identity : JobIdentity)
  | fdPassing (passing : FdPassing)
  | startTimeout (time : Duration)
  | shutdownTimeout (time : Duration)
  | killGrace (time : Duration)
  | dieWithParent (enabled : Bool)

/-- Sets one part. -/
def set (c : Config) : Setting → Config
  | .executable path => { c with executable := some path }
  | .workerNamespaces namespaces => { c with workerNamespaces := namespaces }
  | .uidMap map => { c with uidMap := map }
  | .gidMap map => { c with gidMap := map }
  | .jobIdentity identity => { c with jobIdentity := identity }
  | .fdPassing passing => { c with fdPassing := passing }
  | .startTimeout time => { c with startTimeout := time }
  | .shutdownTimeout time => { c with shutdownTimeout := time }
  | .killGrace time => { c with killGrace := time }
  | .dieWithParent enabled => { c with dieWithParent := enabled }

/-- Sets parts one after the other. -/
def setAll (c : Config) (settings : List Setting) : Config := settings.foldl set c

/-! ## The written form -/

section Written

open MessagePack

/-- The names of the fields, in their order. -/
def fieldNames : List String := [
  "executable", "worker_namespaces", "uid_map", "gid_map", "job_identity", "fd_passing",
  "start_timeout", "shutdown_timeout", "kill_grace", "die_with_parent"]

/-- A path as a value; one that is no text has none. -/
def pathValue? : Option OsText → Option Value
  | none => some .nil
  | some path => path.text?.map fun _ => .str path.bytes

/-- The path that a value gives; a missing value and nil give none. -/
def path? : Option Value → Option (Option OsText)
  | none | some .nil => some none
  | some value =>
    match value.bytes? with
    | some bytes => (Utf8.decode? bytes).map fun _ => some ⟨bytes⟩
    | none => none

/-- The lines of an id map; of byte strings only the empty one gives a map. -/
def map? : Value → Option IdMap
  | .array items => items.mapM Coded.ofValue?
  | .bin [] => some []
  | _ => none

/-- The lines of an id map as a value. -/
def mapValue? (map : IdMap) : Option Value := (map.mapM Coded.toValue?).map .ofList

instance : Coded Config where
  toValue? c := do
    let values ← [
      pathValue? c.executable, Coded.toValue? c.workerNamespaces, mapValue? c.uidMap,
      mapValue? c.gidMap, Coded.toValue? c.jobIdentity, Coded.toValue? c.fdPassing,
      Coded.toValue? c.startTimeout, Coded.toValue? c.shutdownTimeout,
      Coded.toValue? c.killGrace, some (.bool c.dieWithParent)].mapM id
    return .ofFields (fieldNames.zip values)
  ofValue? v :=
    match v.fields? fieldNames with
    | some [executable, some workerNamespaces, some uidMap, some gidMap, some jobIdentity,
        some fdPassing, some startTimeout, some shutdownTimeout, some killGrace,
        some dieWithParent] => do
      let executable ← path? executable
      let workerNamespaces ← Coded.ofValue? workerNamespaces
      let uidMap ← map? uidMap
      let gidMap ← map? gidMap
      let jobIdentity ← Coded.ofValue? jobIdentity
      let fdPassing ← Coded.ofValue? fdPassing
      let startTimeout ← Coded.ofValue? startTimeout
      let shutdownTimeout ← Coded.ofValue? shutdownTimeout
      let killGrace ← Coded.ofValue? killGrace
      let dieWithParent ← dieWithParent.bool?
      return {
        executable, workerNamespaces, uidMap, gidMap, jobIdentity, fdPassing, startTimeout,
        shutdownTimeout, killGrace, dieWithParent }
    | _ => none

end Written

/-- The kind that errors about a written configuration name. -/
def kind : String := "config"

/-- The written form of a configuration. -/
def pack (c : Config) : Except ChannelError Bytes := packAs kind c

/-- The configuration at the front of a payload. -/
def unpack (payload : Bytes) : Except ChannelError Config := unpackAs kind payload

end Config

end ProcessTree
