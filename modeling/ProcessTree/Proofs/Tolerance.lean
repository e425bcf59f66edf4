-- What the receiver of a map puts up with: fields in any order and by any
-- designation, numbers and lengths in any width, and entries that it does not
-- know. What it reads depends on the values of the fields alone.
import ProcessTree.Proofs.MessagePack.Spelling
import ProcessTree.Proofs.Messages
import ProcessTree.Proofs.Schema

namespace ProcessTree

open MessagePack

/-! ## Maps as payloads -/

/-- The entries that a map may have as a payload: keys that are text, bytes or unsigned numbers,
and no more than 1023 levels all in all. -/
structure Readable (entries : List (Value × Value)) : Prop where
  keys : ∀ entry ∈ entries, (∃ text, entry.1 = .str text) ∨ (∃ data, entry.1 = .bin data) ∨
    ∃ n, entry.1 = .uint n
  levels : (Value.map entries).levels < 1024

/-- A first byte of a map. -/
def IsMapMarker (b : UInt8) : Prop := 0x80 ≤ b.toNat ∧ b.toNat < 0x90 ∨ b = 0xDE ∨ b = 0xDF

/-- A record of these fields is read from a map whatever the order of the entries, whatever the
spelling, and whatever stands between the fields and behind the map. -/
structure Tolerant {α : Type} [Coded α] (fields : List (RecordField α)) : Prop where
  /-- What is read is what every field is given. -/
  reads : ∀ kind entries front rest (a : α), Spells (.map entries) front →
    (unpackAs kind (front ++ rest) = .ok a ↔ Readable entries ∧
      ∀ (place : Nat) (field : RecordField α), fields[place]? = some field →
        field.Gives (valuesFor field.name place entries) (field.part a))
  /-- Something is read when every field is given something that it may be given. -/
  succeeds : ∀ kind entries front rest, Spells (.map entries) front →
    ((∃ a : α, unpackAs kind (front ++ rest) = .ok a) ↔ Readable entries ∧
      ∀ (place : Nat) (field : RecordField α), fields[place]? = some field →
        field.Accepts (valuesFor field.name place entries))
  /-- The values of the fields decide. -/
  depends : ∀ kind entries entries' front front' rest rest', Spells (.map entries) front →
    Spells (.map entries') front' → Readable entries → Readable entries' →
    (∀ (place : Nat) (field : RecordField α), fields[place]? = some field →
      (valuesFor field.name place entries).Perm (valuesFor field.name place entries')) →
    (unpackAs kind (front ++ rest) : Except ChannelError α) = unpackAs kind (front' ++ rest')
  /-- What begins like a map and is read is a map. -/
  whole : ∀ kind b more (a : α), IsMapMarker b → unpackAs kind (b :: more) = .ok a →
    ∃ entries front rest, b :: more = front ++ rest ∧ Spells (.map entries) front

theorem isKey_iff {key : Value} : key.isKey = true ↔
    (∃ text, key = .str text) ∨ (∃ data, key = .bin data) ∨ ∃ n, key = .uint n := by
  cases key <;> simp [Value.isKey]

theorem unpackAs_eq_ok_iff {α : Type} [Coded α] {kind : String} {payload : Bytes} {a : α} :
    unpackAs kind payload = .ok a ↔ ∃ front rest v, payload = front ++ rest ∧ Spells v front ∧
      v.levels < 1024 ∧ Coded.ofValue? v = some a := by
  have hmax : maxLevels = 1023 := rfl
  unfold unpackAs unpack?
  constructor
  · intro h
    cases hread : read payload with
    | none => simp [hread] at h
    | some result =>
      obtain ⟨v, rest⟩ := result
      obtain ⟨front, rfl, hspells, hlevels⟩ := readNested_eq_some_iff.mp hread
      cases hof : (Coded.ofValue? v : Option α) with
      | none => simp [hread, hof] at h
      | some b =>
        simp only [hread, hof, Except.ok.injEq] at h
        exact ⟨front, rest, v, rfl, hspells, by omega, h ▸ hof⟩
  · rintro ⟨front, rest, v, rfl, hspells, hlevels, hof⟩
    have hread : read (front ++ rest) = some (v, rest) :=
      readNested_eq_some_iff.mpr ⟨front, rfl, hspells, by omega⟩
    simp only [hread, hof]

/-- Two spellings at the front of one byte string are one, of one value. -/
theorem spells_unique {v v' : Value} {front front' rest rest' : Bytes} (h : Spells v front)
    (h' : Spells v' front') (heq : front ++ rest = front' ++ rest') :
    v = v' ∧ front = front' ∧ rest = rest' := by
  have hread := readNested_spells h (Nat.le_max_left v.levels v'.levels) rest
  have hread' := readNested_spells h' (Nat.le_max_right v.levels v'.levels) rest'
  rw [heq, hread'] at hread
  simp only [Option.some.injEq, Prod.mk.injEq] at hread
  obtain ⟨rfl, rfl⟩ := hread
  exact ⟨rfl, List.append_cancel_right heq, rfl⟩

theorem unpackAs_spells {α : Type} [Coded α] {kind : String} {v : Value} {front rest : Bytes}
    {a : α} (h : Spells v front) : unpackAs kind (front ++ rest) = .ok a ↔
      v.levels < 1024 ∧ Coded.ofValue? v = some a := by
  rw [unpackAs_eq_ok_iff]
  constructor
  · rintro ⟨front', rest', v', heq, hspells, hlevels, hof⟩
    obtain ⟨rfl, -, -⟩ := spells_unique h hspells heq
    exact ⟨hlevels, hof⟩
  · rintro ⟨hlevels, hof⟩
    exact ⟨front, rest, v, rfl, h, hlevels, hof⟩

theorem unpackAs_congr {α : Type} [Coded α] {kind : String} {payload payload' : Bytes}
    (h : ∀ a : α, unpackAs kind payload = .ok a ↔ unpackAs kind payload' = .ok a) :
    (unpackAs kind payload : Except ChannelError α) = unpackAs kind payload' := by
  cases hu : (unpackAs kind payload : Except ChannelError α) with
  | ok a => exact ((h a).mp hu).symm
  | error e =>
    cases hu' : (unpackAs kind payload' : Except ChannelError α) with
    | ok a => exact absurd ((h a).mpr hu') (by simp [hu])
    | error e' => rw [unpackAs_error hu, unpackAs_error hu']

/-! ## Records told by their fields -/

/-- Some parts of each field, as the fields are asked for, are the parts of one record. -/
def Independent {α : Type} (fields : List (RecordField α)) : Prop :=
  ∀ asked : Nat → (field : RecordField α) → field.Part → Prop,
    (∀ (place : Nat) (field : RecordField α), fields[place]? = some field →
      ∃ part, asked place field part) →
    ∃ a, ∀ (place : Nat) (field : RecordField α), fields[place]? = some field →
      asked place field (field.part a)

theorem forall_getElem?_nil {α : Type*} {P : Nat → α → Prop} :
    (∀ (place : Nat) (a : α), ([] : List α)[place]? = some a → P place a) ↔ True := by
  simp

theorem forall_getElem?_cons {α : Type*} {P : Nat → α → Prop} {first : α} {rest : List α} :
    (∀ (place : Nat) (a : α), (first :: rest)[place]? = some a → P place a) ↔
      P 0 first ∧ ∀ (place : Nat) (a : α), rest[place]? = some a → P (place + 1) a := by
  constructor
  · intro h
    exact ⟨h 0 first rfl, fun place a ha => h (place + 1) a ha⟩
  · rintro ⟨hfirst, hrest⟩ place a ha
    cases place with
    | zero =>
      cases ha
      exact hfirst
    | succ place => exact hrest place a ha

/-- For a field that is given more than one value, or one, the order does not matter. -/
theorem MessagePack.RecordField.gives_perm {α : Type} {field : RecordField α}
    {values values' : List Value} (h : values.Perm values') (part : field.Part) :
    field.Gives values part ↔ field.Gives values' part := by
  rcases values with _ | ⟨value, _ | ⟨other, rest⟩⟩
  · rw [List.nil_perm.mp h]
  · rw [List.singleton_perm.mp h]
  · have hlen := h.length_eq
    rcases values' with _ | ⟨value', _ | ⟨other', rest'⟩⟩
    · cases hlen
    · cases hlen
    · exact Iff.rfl

theorem ofByte_of_isMapMarker {b : UInt8} (h : IsMapMarker b) :
    ∃ length, Marker.ofByte b = .map length := by
  rcases h with ⟨hlow, hhigh⟩ | rfl | rfl
  · have heq : UInt8.ofNat (0x80 + (b.toNat - 0x80)) = b := by
      rw [Nat.add_sub_cancel' hlow, UInt8.ofNat_toNat]
    rw [← heq]
    exact ⟨_, ofByte_map _ (by omega)⟩
  · exact ⟨.told 2, rfl⟩
  · exact ⟨.told 4, rfl⟩

theorem isMap_of_readAnnounced {inner? : Option (Reader Value)} {length : Length}
    {bytes rest : Bytes} {v : Value}
    (h : readAnnounced inner? (.map length) bytes = some (v, rest)) :
    ∃ entries, v = .map entries := by
  cases inner? with
  | none => cases h
  | some inner =>
    cases hlength : length.read bytes with
    | none => simp [readAnnounced, hlength] at h
    | some read =>
      simp only [readAnnounced, hlength, Option.map_eq_some_iff, Prod.mk.injEq] at h
      obtain ⟨⟨entries, rest'⟩, -, rfl, -⟩ := h
      exact ⟨entries, rfl⟩

theorem isMap_of_marker {b : UInt8} (hb : IsMapMarker b) {v : Value} {front more rest : Bytes}
    (h : Spells v front) (heq : b :: more = front ++ rest) : ∃ entries, v = .map entries := by
  obtain ⟨length, hlength⟩ := ofByte_of_isMapMarker hb
  have hread := readNested_spells h (Nat.le_succ v.levels) rest
  rw [← heq, readNested, readWith, hlength] at hread
  exact isMap_of_readAnnounced hread

theorem tolerant_of_readsAs {α : Type} [Coded α] {fields : List (RecordField α)}
    (hparts : Independent fields)
    (hreads : ∀ v (a : α), Coded.ofValue? v = some a ↔ ReadsAs fields v a) : Tolerant fields := by
  have hmap : ∀ kind entries front rest (a : α), Spells (.map entries) front →
      (unpackAs kind (front ++ rest) = .ok a ↔ Readable entries ∧
        ∀ (place : Nat) (field : RecordField α), fields[place]? = some field →
          field.Gives (valuesFor field.name place entries) (field.part a)) := by
    intro kind entries front rest a h
    rw [unpackAs_spells h, hreads]
    simp only [ReadsAs, Value.IsRecord, isKey_iff, Value.valuesOf]
    constructor
    · rintro ⟨hlevels, hkeys, hgives⟩
      exact ⟨⟨hkeys, hlevels⟩, hgives⟩
    · rintro ⟨⟨hkeys, hlevels⟩, hgives⟩
      exact ⟨hlevels, hkeys, hgives⟩
  refine ⟨hmap, ?_, ?_, ?_⟩
  · intro kind entries front rest h
    simp only [hmap kind entries front rest _ h, exists_and_left]
    refine and_congr_right fun _ => ⟨?_, fun haccepts => ?_⟩
    · rintro ⟨a, hgives⟩ place field hfield
      exact ⟨field.part a, hgives place field hfield⟩
    · exact hparts (fun place field => field.Gives (valuesFor field.name place entries)) haccepts
  · intro kind entries entries' front front' rest rest' h h' hreadable hreadable' hperm
    refine unpackAs_congr fun a => ?_
    rw [hmap kind entries front rest a h, hmap kind entries' front' rest' a h']
    simp only [hreadable, hreadable', true_and]
    exact forall₃_congr fun place field hfield =>
      RecordField.gives_perm (hperm place field hfield) (field.part a)
  · intro kind b more a hb h
    obtain ⟨front, rest, v, heq, hspells, -, -⟩ := unpackAs_eq_ok_iff.mp h
    obtain ⟨entries, rfl⟩ := isMap_of_marker hb hspells heq
    exact ⟨entries, front, rest, heq, hspells⟩

/-! ## The records of the protocol -/

theorem begin_tolerant : Tolerant Begin.fields := by
  refine tolerant_of_readsAs (fun asked h => ?_) fun _ _ => Begin.ofValue?_eq_some_iff
  simp only [Begin.fields, forall_getElem?_cons, forall_getElem?_nil, and_true] at h ⊢
  obtain ⟨parent, hparent⟩ := h
  exact ⟨⟨parent⟩, hparent⟩

theorem start_tolerant : Tolerant Start.fields := by
  refine tolerant_of_readsAs (fun asked h => ?_) fun _ _ => Start.ofValue?_eq_some_iff
  simp only [Start.fields, forall_getElem?_cons, forall_getElem?_nil, and_true] at h ⊢
  obtain ⟨identity, hidentity⟩ := h
  exact ⟨⟨identity⟩, hidentity⟩

theorem quit_tolerant : Tolerant Quit.fields := by
  refine tolerant_of_readsAs (fun asked h => ?_) fun _ _ => Quit.ofValue?_eq_some_iff
  exact ⟨⟨⟩, by simp [Quit.fields]⟩

theorem startResult_tolerant : Tolerant StartResult.fields := by
  refine tolerant_of_readsAs (fun asked h => ?_) fun _ _ => StartResult.ofValue?_eq_some_iff
  simp only [StartResult.fields, forall_getElem?_cons, forall_getElem?_nil, and_true] at h ⊢
  obtain ⟨⟨readFd, h1⟩, ⟨writeFd, h2⟩, ⟨pid, h3⟩⟩ := h
  exact ⟨⟨readFd, writeFd, pid⟩, h1, h2, h3⟩

theorem idMapping_tolerant : Tolerant IdMapping.fields := by
  refine tolerant_of_readsAs (fun asked h => ?_) fun _ _ => IdMapping.ofValue?_eq_some_iff
  simp only [IdMapping.fields, forall_getElem?_cons, forall_getElem?_nil, and_true] at h ⊢
  obtain ⟨⟨childStart, h1⟩, ⟨hostStart, h2⟩, ⟨length, h3⟩⟩ := h
  exact ⟨⟨childStart, hostStart, length⟩, h1, h2, h3⟩

theorem namespaces_tolerant : Tolerant Namespaces.fields := by
  refine tolerant_of_readsAs (fun asked h => ?_) fun _ _ => Namespaces.ofValue?_eq_some_iff
  simp only [Namespaces.fields, forall_getElem?_cons, forall_getElem?_nil, and_true] at h ⊢
  obtain ⟨⟨user, h1⟩, ⟨pid, h2⟩, ⟨mount, h3⟩, ⟨net, h4⟩, ⟨ipc, h5⟩, ⟨uts, h6⟩⟩ := h
  exact ⟨⟨user, pid, mount, net, ipc, uts⟩, h1, h2, h3, h4, h5, h6⟩

theorem config_tolerant : Tolerant Config.fields := by
  refine tolerant_of_readsAs (fun asked h => ?_) fun _ _ => Config.ofValue?_eq_some_iff
  simp only [Config.fields, forall_getElem?_cons, forall_getElem?_nil, and_true] at h ⊢
  obtain ⟨⟨executable, h1⟩, ⟨workerNamespaces, h2⟩, ⟨uidMap, h3⟩, ⟨gidMap, h4⟩,
    ⟨jobIdentity, h5⟩, ⟨fdPassing, h6⟩, ⟨startTimeout, h7⟩, ⟨shutdownTimeout, h8⟩,
    ⟨killGrace, h9⟩, ⟨dieWithParent, h10⟩⟩ := h
  exact ⟨⟨executable, workerNamespaces, uidMap, gidMap, jobIdentity, fdPassing, startTimeout,
    shutdownTimeout, killGrace, dieWithParent⟩, h1, h2, h3, h4, h5, h6, h7, h8, h9, h10⟩

/-- Every record of the protocol is read from any map that gives each field one acceptable value,
and what is read depends on these values alone. Only an identity and an executable may be missing:
the one is then the mapped root, the other none. -/
theorem a_map_is_read_by_its_fields :
    Tolerant Begin.fields ∧ Tolerant Start.fields ∧ Tolerant Quit.fields ∧
      Tolerant StartResult.fields ∧ Tolerant IdMapping.fields ∧ Tolerant Namespaces.fields ∧
      Tolerant Config.fields ∧
      (∀ kind entries front rest, Spells (.map entries) front → Readable entries →
        valuesFor "identity" 0 entries = [] →
        unpackAs kind (front ++ rest) = .ok (⟨.mapRoot⟩ : Start)) ∧
      ∀ kind entries front rest (c : Config), Spells (.map entries) front →
        valuesFor "executable" 0 entries = [] → unpackAs kind (front ++ rest) = .ok c →
        c.executable = none := by
  refine ⟨begin_tolerant, start_tolerant, quit_tolerant, startResult_tolerant,
    idMapping_tolerant, namespaces_tolerant, config_tolerant, ?_, ?_⟩
  · intro kind entries front rest h hreadable hmissing
    refine (start_tolerant.reads kind entries front rest _ h).mpr ⟨hreadable, ?_⟩
    simp only [Start.fields, forall_getElem?_cons, forall_getElem?_nil, and_true, hmissing]
    rfl
  · intro kind entries front rest c h hmissing hc
    have hgives := ((config_tolerant.reads kind entries front rest c h).mp hc).2 0 _ rfl
    rw [hmissing] at hgives
    exact (Option.some.inj hgives).symm

/-- A start request with an entry that nobody knows, the identity by its place and as bytes, and a
byte behind it all. -/
theorem a_start_with_a_stray_entry_is_read :
    unpackAs Kind.start [0x82, 0xA1, 0x78, 0x91, 0xC0, 0x00, 0xC4, 0x06, 0x73, 0x68, 0x61, 0x72,
      0x65, 0x64, 0xFF] = .ok (⟨.shared⟩ : Start) := by
  have hentries := Row.cons
    (Pair.mk (Spells.str [0xA1] [0x78] (.short (by decide)))
      (Spells.array [0x91] _ [.nil] (.short (by decide)) (.cons .nil .nil)))
    (Row.cons (Pair.mk (Spells.small 0 (by decide))
      (Spells.bin [0xC4, 0x06] (Bytes.ofText "shared") (.wide 0xC4 [0x06] (by decide) rfl))) .nil)
  have hreads := (a_map_is_read_by_its_fields.2.1.reads Kind.start _ _ [0xFF] ⟨.shared⟩
    (Spells.map [0x82] _ _ (.short (by decide)) hentries)).mpr
  refine hreads ⟨⟨by simp, by decide⟩, ?_⟩
  simp only [Start.fields, forall_getElem?_cons, forall_getElem?_nil, and_true]
  exact ⟨2, rfl, .inl (by decide)⟩

end ProcessTree
