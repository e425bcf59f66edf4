-- Running a program by its path: why a path that names no program cannot be
-- run. The paths of a host are its directories, and its files that are no
-- programs.
import ProcessTree.Errno
import ProcessTree.Text.OsText

namespace ProcessTree.Programs

/-- What there is under a path of the host, programs left out. -/
inductive Node where
  | directory
  | file
  deriving DecidableEq, Repr

/-- A path as a text. -/
def path (text : String) : List Bytes := (Bytes.ofText text).splitOn 0x2F |>.filter (· != [])

/-- The directories that a host has at least. -/
def directories : List String :=
  ["/bin", "/dev", "/etc", "/lib", "/proc", "/root", "/sbin", "/sys", "/tmp", "/usr", "/var"]

/-- The files that a host has at least and that nobody can run. -/
def files : List String := [
  "/dev/null", "/dev/zero", "/dev/full", "/dev/random", "/dev/urandom", "/etc/passwd", "/etc/group"]

/-- What a host has under the components of a path. -/
def node? (components : List Bytes) : Option Node :=
  if components.isEmpty ∨ directories.any (path · == components) then some .directory
  else if files.any (path · == components) then some .file
  else none

/-- A name may have so many bytes. -/
def maxName : Nat := 255

/-- A path may have so many bytes, the end mark included. -/
def maxPath : Nat := 4096

/-- Goes along the components of a path from a place that exists. -/
def walk (place : List Bytes) : List Bytes → Errno
  | [] => .permissionDenied
  | name :: rest =>
    if node? place ≠ some .directory then .notDirectory
    else if name = [] ∨ name = [0x2E] then walk place rest
    else if name = [0x2E, 0x2E] then walk place.dropLast rest
    else if maxName < name.length then .nameTooLong
    else if (node? (place ++ [name])).isNone then .noSuchFile
    else walk (place ++ [name]) rest

/-- Why a path that names no program cannot be run. A path that does not start at the root of the
file system finds nothing, where the host is silent about the place that it starts from. -/
def refusal (path : OsText) : Errno :=
  if path.bytes = [] then .noSuchFile
  else if maxPath ≤ path.bytes.length then .nameTooLong
  else match path.bytes.splitOn 0x2F with
    | [] :: components => walk [] components
    | [name] => if name = [0x2E] ∨ name = [0x2E, 0x2E] then .permissionDenied
      else if maxName < name.length then .nameTooLong else .noSuchFile
    | name :: _ => if maxName < name.length then .nameTooLong else .noSuchFile
    | [] => .noSuchFile

end ProcessTree.Programs

