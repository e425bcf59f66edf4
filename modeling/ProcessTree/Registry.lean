-- Tag registries: which one-byte tag stands for which kind of message in one
-- direction of a channel, and the other way round.
import ProcessTree.Error
import Std.Data.TreeMap

namespace ProcessTree

/-! ## The tables -/

/-- A map from tags to kinds and one from kinds to tags. -/
structure TagTables where
  kinds : Std.TreeMap UInt8 String
  tags : Std.TreeMap String UInt8
  deriving Repr

namespace TagTables

/-- Tables without entries. -/
def empty : TagTables := ⟨∅, ∅⟩

/-- Puts an entry into the one map and then into the other, and stops at the first where something
had to give way to it. -/
def put (name : String) (t : TagTables) (tag : UInt8) (kind : String) :
    Except RegistryError TagTables :=
  match t.kinds.containsThenInsert tag kind with
  | (true, _) => .error (.duplicateTag name tag)
  | (false, kinds) =>
    match t.tags.containsThenInsert kind tag with
    | (true, _) => .error (.duplicateKind name kind)
    | (false, tags) => .ok ⟨kinds, tags⟩

/-- Puts entries into the maps, one after the other. -/
def fill (name : String) (t : TagTables) : List (UInt8 × String) → Except RegistryError TagTables
  | [] => .ok t
  | (tag, kind) :: rest => do (← t.put name tag kind).fill name rest

/-- An entry is put into both maps or into none. -/
theorem put_eq (name : String) (t : TagTables) (tag : UInt8) (kind : String) :
    t.put name tag kind =
      if tag ∈ t.kinds then .error (.duplicateTag name tag)
      else if kind ∈ t.tags then .error (.duplicateKind name kind)
      else .ok ⟨t.kinds.insert tag kind, t.tags.insert kind tag⟩ := by
  have hkinds : t.kinds.containsThenInsert tag kind =
      (t.kinds.contains tag, t.kinds.insert tag kind) :=
    Prod.ext Std.TreeMap.containsThenInsert_fst Std.TreeMap.containsThenInsert_snd
  have htags : t.tags.containsThenInsert kind tag =
      (t.tags.contains kind, t.tags.insert kind tag) :=
    Prod.ext Std.TreeMap.containsThenInsert_fst Std.TreeMap.containsThenInsert_snd
  unfold put
  rw [hkinds, htags]
  simp only [Std.TreeMap.mem_iff_contains]
  cases t.kinds.contains tag <;> cases t.tags.contains kind <;> simp

/-- A fresh key adds its own entry to a map and leaves the others. -/
theorem getElem?_insert_fresh {α β : Type} [Ord α] [DecidableEq α] [Std.TransOrd α]
    [Std.LawfulEqOrd α] {m : Std.TreeMap α β} {a a' : α} {b b' : β} (h : a ∉ m) :
    (m.insert a b)[a']? = some b' ↔ m[a']? = some b' ∨ (a' = a ∧ b' = b) := by
  rw [Std.TreeMap.getElem?_insert]
  by_cases heq : a = a'
  · subst heq
    simp [Std.TreeMap.getElem?_eq_none h, eq_comm]
  · simp [heq, Ne.symm heq]

/-- Each of the maps says what the other says. -/
def Inverse (t : TagTables) : Prop :=
  ∀ (tag : UInt8) (kind : String), t.kinds[tag]? = some kind ↔ t.tags[kind]? = some tag

theorem inverse_empty : empty.Inverse := by
  intro tag kind
  simp [empty]

theorem Inverse.put {name : String} {t t' : TagTables} {tag : UInt8} {kind : String}
    (h : t.Inverse) (hput : t.put name tag kind = .ok t') : t'.Inverse := by
  rw [put_eq] at hput
  split at hput
  · cases hput
  · rename_i htag
    split at hput
    · cases hput
    · rename_i hkind
      cases hput
      intro tag' kind'
      rw [getElem?_insert_fresh htag, getElem?_insert_fresh hkind, h tag' kind', and_comm]

theorem Inverse.fill {name : String} {entries : List (UInt8 × String)} {t t' : TagTables}
    (h : t.Inverse) (hfill : t.fill name entries = .ok t') : t'.Inverse := by
  induction entries generalizing t with
  | nil =>
    cases hfill
    exact h
  | cons entry rest ih =>
    obtain ⟨t₁, hput, hrest⟩ := bind_eq_ok_iff.mp hfill
    exact ih (h.put hput) hrest

end TagTables

/-! ## Registries -/

/-- A registry: its name, and two maps that agree. -/
structure Registry extends TagTables where
  name : String
  inverse : toTagTables.Inverse
  deriving Repr

namespace Registry

/-- The registry without entries. -/
def empty (name : String) : Registry := ⟨.empty, name, TagTables.inverse_empty⟩

instance : Inhabited Registry := ⟨empty ""⟩

/-- The tag of a kind. -/
def tagOf? (r : Registry) (kind : String) : Option UInt8 := r.tags[kind]?

/-- The kind of a tag. -/
def kindOf? (r : Registry) (tag : UInt8) : Option String := r.kinds[tag]?

/-- How many entries a registry has. -/
def size (r : Registry) : Nat := r.kinds.size

/-- Whether a registry has no entries. -/
def isEmpty (r : Registry) : Bool := r.kinds.isEmpty

/-- The registry with these entries; the first entry whose tag or kind came before is refused. -/
def ofList (name : String) (entries : List (UInt8 × String)) : Except RegistryError Registry :=
  match h : TagTables.empty.fill name entries with
  | .error e => .error e
  | .ok t => .ok ⟨t, name, TagTables.inverse_empty.fill h⟩

theorem ofList_eq_ok_iff {name : String} {entries : List (UInt8 × String)} {r : Registry} :
    ofList name entries = .ok r ↔
      TagTables.empty.fill name entries = .ok r.toTagTables ∧ r.name = name := by
  unfold ofList
  split
  · rename_i e h
    simp [h]
  · rename_i t h
    constructor
    · intro hr
      cases hr
      exact ⟨h, rfl⟩
    · rintro ⟨hr, rfl⟩
      cases h.symm.trans hr
      rfl

theorem ofList_eq_error_iff {name : String} {entries : List (UInt8 × String)} {e : RegistryError} :
    ofList name entries = .error e ↔ TagTables.empty.fill name entries = .error e := by
  unfold ofList
  split
  · rename_i e' h
    simp [h]
  · rename_i t h
    simp [h]

/-- The tag of a kind stands for that kind, and the other way round. -/
theorem tagOf?_iff_kindOf? (r : Registry) (tag : UInt8) (kind : String) :
    r.tagOf? kind = some tag ↔ r.kindOf? tag = some kind :=
  (r.inverse tag kind).symm

end Registry

end ProcessTree
