-- Carrying out the writing of id maps on a system that answers each call: a map
-- is written into the directory of a process, or handed to a helper program that
-- is looked for first. The first call that fails is the last.
import ProcessTree.IdMap.Plan
import ProcessTree.Text.OsText

namespace ProcessTree

/-- What a system does when maps are written on it: it takes a file of the process's directory,
looks for the helper of a kind, and runs one that it has found. -/
structure MapSystem (σ : Type) where
  write (s : σ) (file content : String) : σ × Except IoFailure Unit
  find (s : σ) (kind : IdKind) : σ × Bool
  run (s : σ) (kind : IdKind) (args : List String) : σ × Except IoFailure WaitStatus

namespace MapSystem

variable {σ : Type}

/-- Goes on with the next part unless the one before it has failed. -/
def andThen (first : σ × Except IdMapError Unit) (next : σ → σ × Except IdMapError Unit) :
    σ × Except IdMapError Unit :=
  match first with
  | (s, .ok ()) => next s
  | (s, .error e) => (s, .error e)

/-- What the search for a helper comes to. -/
def searchResult (kind : IdKind) (found : Bool) : Except IdMapError Unit :=
  if found then .ok () else .error (.noTool kind.helper)

/-- What the run of a helper comes to: anything but an exit with code 0 is a failure. -/
def runResult (kind : IdKind) : Except IoFailure WaitStatus → Except IdMapError Unit
  | .error failure => .error (.exec kind.helper failure)
  | .ok status => if status.word = 0 then .ok () else .error (.toolFailed kind.helper status)

variable (system : MapSystem σ)

/-- Writes a file; a failure names it. -/
def writeFile (s : σ) (file content : String) : σ × Except IdMapError Unit :=
  let answer := system.write s file content
  (answer.1, answer.2.mapError (.write file))

/-- Looks for a helper; a failure names it. -/
def findHelper (s : σ) (kind : IdKind) : σ × Except IdMapError Unit :=
  let answer := system.find s kind
  (answer.1, searchResult kind answer.2)

/-- Runs a helper; a failure names it. -/
def runHelper (s : σ) (kind : IdKind) (args : List String) : σ × Except IdMapError Unit :=
  let answer := system.run s kind args
  (answer.1, runResult kind answer.2)

/-- Writes a map for the process of a directory, which helpers know by the directory's name. The
groups of an unprivileged process can be mapped only once it may not change them. -/
def writeMap (w : MapWriter) (directory : OsText) (s : σ) (kind : IdKind) (map : IdMap) :
    σ × Except IdMapError Unit :=
  if w.writesDirectly kind map then
    match kind with
    | .user => system.writeFile s kind.file map.text
    | .group =>
      andThen (system.writeFile s setgroupsFile "deny") fun s =>
        system.writeFile s kind.file map.text
  else
    andThen (system.findHelper s kind) fun s =>
      system.runHelper s kind (directory.fileName :: map.words)

/-- Writes a map unless it is empty. -/
def writeMapIfAny (w : MapWriter) (directory : OsText) (s : σ) (kind : IdKind) (map : IdMap) :
    σ × Except IdMapError Unit :=
  if map.isEmpty then (s, .ok ()) else system.writeMap w directory s kind map

/-- Writes both maps. -/
def writeMaps (w : MapWriter) (directory : OsText) (s : σ) (uidMap gidMap : IdMap) :
    σ × Except IdMapError Unit :=
  andThen (system.writeMapIfAny w directory s .user uidMap) fun s =>
    system.writeMapIfAny w directory s .group gidMap

end MapSystem

end ProcessTree
