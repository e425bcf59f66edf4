-- Writing the id maps of a process: who writes them, and which actions are
-- planned, the user map's before the group map's.
import ProcessTree.Error
import ProcessTree.IdMap

namespace ProcessTree

/-- Which ids a map is about. -/
inductive IdKind where
  | user
  | group
  deriving DecidableEq, Repr

namespace IdKind

/-- The file that takes a map. -/
def file : IdKind → String
  | .user => "uid_map"
  | .group => "gid_map"

/-- The helper program that writes a map for those who may not. -/
def helper : IdKind → String
  | .user => "newuidmap"
  | .group => "newgidmap"

end IdKind

/-- The file that says whether a process may change its groups. -/
def setgroupsFile : String := "setgroups"

/-- One action on the way to written maps. -/
inductive MapAction where
  /-- Gives up changing groups, which an unprivileged group map needs first. -/
  | denySetgroups
  | write (kind : IdKind) (map : IdMap)
  /-- Runs the helper program. -/
  | help (kind : IdKind) (map : IdMap)
  deriving DecidableEq, Repr

/-- The process that writes maps: its ids, and whether it may map any id. -/
structure MapWriter where
  user : UInt32
  group : UInt32
  mayMapUsers : Bool
  mayMapGroups : Bool
  deriving DecidableEq, Repr

namespace MapWriter

/-- The current id of a kind. -/
def current (w : MapWriter) : IdKind → UInt32
  | .user => w.user
  | .group => w.group

/-- Whether any id of a kind may be mapped. -/
def mayMap (w : MapWriter) : IdKind → Bool
  | .user => w.mayMapUsers
  | .group => w.mayMapGroups

/-- Whether a map is a single line for one id, the given one. -/
def mapsOnly (id : UInt32) : IdMap → Bool
  | [line] => line.hostStart == id && line.length == 1
  | _ => false

/-- Whether a map is written without the helper: by root, for the writer's own id alone, or by a
writer that may map any id. -/
def writesDirectly (w : MapWriter) (kind : IdKind) (map : IdMap) : Bool :=
  w.current kind == 0 || mapsOnly (w.current kind) map || w.mayMap kind

/-- The actions that write one map; none for an empty map. -/
def actions (w : MapWriter) (kind : IdKind) (map : IdMap) : List MapAction :=
  if map.isEmpty then []
  else if w.writesDirectly kind map then
    match kind with
    | .user => [.write .user map]
    | .group => [.denySetgroups, .write .group map]
  else [.help kind map]

/-- The actions that write both maps. -/
def plan (w : MapWriter) (uidMap gidMap : IdMap) : List MapAction :=
  w.actions .user uidMap ++ w.actions .group gidMap

end MapWriter

end ProcessTree
