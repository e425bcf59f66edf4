-- User and group id maps: which ids inside a user namespace stand for which
-- ids outside of it, and the text of a map as the kernel takes it.
import ProcessTree.MessagePack.Shape
import ProcessTree.Text.Numeral

namespace ProcessTree

/-- One line of an id map. -/
structure IdMapping where
  /-- The first id inside the namespace. -/
  childStart : UInt32
  /-- The first id outside of it. -/
  hostStart : UInt32
  /-- How many ids the line maps. -/
  length : UInt32
  deriving DecidableEq, Repr, Inhabited

namespace IdMapping

/-- Maps the namespace's root onto one id. -/
def rootTo (id : UInt32) : IdMapping := ⟨0, id, 1⟩

/-- The three numbers of a line, in their order. -/
def words (m : IdMapping) : List String :=
  [m.childStart, m.hostStart, m.length].map fun n => Numeral.decimal n.toNat

/-- The text of a line. -/
def line (m : IdMapping) : String := String.intercalate " " m.words ++ "\n"

open MessagePack in
instance : Coded IdMapping where
  toValue? m := some (.ofFields [
    ("child_start", .uint m.childStart.toNat),
    ("host_start", .uint m.hostStart.toNat),
    ("length", .uint m.length.toNat)])
  ofValue? v :=
    match v.fields? ["child_start", "host_start", "length"] with
    | some [some childStart, some hostStart, some length] => do
      let childStart ← childStart.uint32?
      let hostStart ← hostStart.uint32?
      let length ← length.uint32?
      return ⟨childStart, hostStart, length⟩
    | _ => none

end IdMapping

/-- An id map: its lines in their order. -/
abbrev IdMap := List IdMapping

namespace IdMap

/-- The text of a map, a line each. -/
def text (map : IdMap) : String := String.join (map.map IdMapping.line)

/-- The numbers of a map as the arguments of a helper program. -/
def words (map : IdMap) : List String := map.flatMap IdMapping.words

end IdMap

end ProcessTree
