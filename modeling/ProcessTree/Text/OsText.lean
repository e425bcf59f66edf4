-- Text as an operating system hands it over: bytes that are usually UTF-8, such
-- as arguments, environment values and paths.
import ProcessTree.Text.Quoted

namespace ProcessTree

/-- Bytes that are usually a text. -/
structure OsText where
  bytes : Bytes
  deriving DecidableEq, Repr, Inhabited

namespace OsText

/-- A text as bytes. -/
def ofText (text : String) : OsText := ⟨Bytes.ofText text⟩

/-- The text, when the bytes are UTF-8. -/
def text? (t : OsText) : Option String := Utf8.decode? t.bytes

/-- The text for people to read, broken stretches replaced. -/
def shown (t : OsText) : String := Utf8.lossy t.bytes

/-- The text in quotes, broken stretches byte by byte. -/
def quoted (t : OsText) : String := Quoted.ofBytes t.bytes

/-- Whether there is a zero byte, which ends an argument for the system. -/
def hasNul (t : OsText) : Bool := t.bytes.contains 0

/-- The components of a path, those that stay in place left out. -/
def components (path : OsText) : List Bytes :=
  (path.bytes.splitOn 0x2F).filter fun c => c != [] && c != [0x2E]

/-- The last component of a path for people to read; empty when the path has none or ends one
level up. -/
def fileName (path : OsText) : String :=
  match path.components.getLast? with
  | none => ""
  | some name => if name = [0x2E, 0x2E] then "" else shown ⟨name⟩

end OsText

end ProcessTree
