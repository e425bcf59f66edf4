-- What a child is started with.
import ProcessTree.Config
import ProcessTree.Role

namespace ProcessTree

/-- Everything that starting a child takes. -/
structure SpawnOptions where
  role : Role
  executable : OsText
  namespaces : Namespaces
  uidMap : IdMap
  gidMap : IdMap
  fdPassing : FdPassing
  killGrace : Duration
  dieWithParent : Bool
  deriving DecidableEq, Repr

namespace SpawnOptions

/-- A child of a role without namespaces of its own. -/
def plain (role : Role) (config : Config) (running : OsText) : SpawnOptions where
  role := role
  executable := config.program running
  namespaces := .none
  uidMap := []
  gidMap := []
  fdPassing := config.fdPassing
  killGrace := config.killGrace
  dieWithParent := config.dieWithParent

/-- A zygote: no new namespaces. -/
def zygote (config : Config) (running : OsText) : SpawnOptions := plain .zygote config running

/-- A worker: the configured namespaces, and the configured maps when it gets a user namespace. -/
def worker (config : Config) (running : OsText) : SpawnOptions :=
  { plain .worker config running with
    namespaces := config.workerNamespaces
    uidMap := if config.workerNamespaces.user then config.uidMap else []
    gidMap := if config.workerNamespaces.user then config.gidMap else [] }

/-- The map of a job: root onto root when its identity asks for it. -/
def jobMap : JobIdentity → IdMap
  | .mapRoot => [.rootTo 0]
  | .unmapped | .shared => []

/-- A job: the namespaces and maps of its identity. -/
def job (config : Config) (identity : JobIdentity) (running : OsText) : SpawnOptions :=
  { plain .job config running with
    namespaces := .job identity
    uidMap := jobMap identity
    gidMap := jobMap identity }

/-- A child of a role, a job of the given identity; a root is no child. -/
def child? (config : Config) (role : Role) (identity : JobIdentity) (running : OsText) :
    Option SpawnOptions :=
  match role with
  | .root => none
  | .zygote => some (zygote config running)
  | .worker => some (worker config running)
  | .job => some (job config identity running)

/-- The arguments of the child, its program's name left out. -/
def arguments (o : SpawnOptions) (fds : ChannelFds) : List String :=
  o.role.reentryArgs o.fdPassing fds

end SpawnOptions

end ProcessTree
