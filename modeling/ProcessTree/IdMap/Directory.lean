-- A directory that id maps are written into, the way a process's directory of
-- the kernel takes them, and the helper programs at hand.
import ProcessTree.IdMap.Writing

namespace ProcessTree

/-- What is installed under a helper's name. -/
inductive Helper where
  | absent
  /-- A program that ends with this status. -/
  | ends (status : WaitStatus)
  /-- A file that may be run and is no program. -/
  | noProgram
  deriving DecidableEq, Repr

/-- Where maps are written to. -/
inductive MapTarget where
  /-- A directory of its own, in which these names cannot be written. -/
  | own (blocked : List String)
  /-- A directory of the system that can be written, and is not looked into. -/
  | writable
  | missing
  deriving DecidableEq, Repr

/-- A directory, the helpers at hand, and what was done so far. -/
structure MapDirectory where
  path : OsText
  target : MapTarget
  helperOf : IdKind → Helper
  /-- The files written, the latest first. -/
  files : List (String × String)
  /-- The helper runs, each with its arguments, the latest first. -/
  runs : List (List String)

namespace MapDirectory

/-- Whether a path is the root of the file system. -/
def isRootPath (path : Bytes) : Bool :=
  path.head? == some 0x2F && (OsText.components ⟨path⟩).isEmpty

/-- Takes a file. -/
def takeFile (d : MapDirectory) (file content : String) : MapDirectory × Except IoFailure Unit :=
  match d.target with
  | .missing => (d, .error (.system .noSuchFile))
  | .writable => (d, .ok ())
  | .own blocked =>
    if file ∈ blocked then (d, .error (.system .isDirectory))
    else ({ d with files := (file, content) :: d.files.filter (·.1 != file) }, .ok ())

/-- Runs what is installed under the name of a helper. -/
def runInstalled (d : MapDirectory) (kind : IdKind) (args : List String) :
    MapDirectory × Except IoFailure WaitStatus :=
  match d.helperOf kind with
  | .ends status => ({ d with runs := (kind.helper :: args) :: d.runs }, .ok status)
  | .absent | .noProgram => (d, .error (.system .badFormat))

/-- A directory as a system that takes maps. -/
def system : MapSystem MapDirectory where
  write := takeFile
  find d kind := (d, d.helperOf kind != .absent)
  run := runInstalled

/-- Writes both maps. -/
def writeMaps (d : MapDirectory) (writer : MapWriter) (uidMap gidMap : IdMap) :
    MapDirectory × Except IdMapError Unit :=
  system.writeMaps writer d.path d uidMap gidMap

end MapDirectory

end ProcessTree
