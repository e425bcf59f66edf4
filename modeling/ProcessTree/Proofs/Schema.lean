-- Which values stand for the data that messages carry, each kind of data told
-- by its fields: what a field is called, what it may be given, and what it is
-- when it is missing.
import ProcessTree.Config
import ProcessTree.Proofs.MessagePack.Fields
import ProcessTree.Proofs.Text.Utf8

namespace ProcessTree

open MessagePack

/-! ## Scalars -/

namespace MessagePack.Value

/-- The integer that a value is, of whatever width and sign. -/
def integer? : Value → Option Int
  | .uint n => some n
  | .int n => some n
  | _ => none

theorem int?_eq_some_iff {least most n : Int} {v : Value} :
    v.int? least most = some n ↔ v.integer? = some n ∧ least ≤ n ∧ n ≤ most := by
  cases v with
  | uint k =>
    simp only [int?, integer?, Option.ite_none_right_eq_some, Option.some.injEq]
    constructor
    · rintro ⟨h, rfl⟩
      exact ⟨rfl, h⟩
    · rintro ⟨rfl, h⟩
      exact ⟨h, rfl⟩
  | int k =>
    simp only [int?, integer?, Option.ite_none_right_eq_some, Option.some.injEq]
    constructor
    · rintro ⟨h, rfl⟩
      exact ⟨rfl, h⟩
    · rintro ⟨rfl, h⟩
      exact ⟨h, rfl⟩
  | nil => simp [int?, integer?]
  | bool b => simp [int?, integer?]
  | float bytes => simp [int?, integer?]
  | str bytes => simp [int?, integer?]
  | bin bytes => simp [int?, integer?]
  | array items => simp [int?, integer?]
  | map entries => simp [int?, integer?]
  | ext type data => simp [int?, integer?]

theorem int32?_eq_some_iff {v : Value} {n : Int32} :
    v.int32? = some n ↔ v.integer? = some n.toInt := by
  have hle := n.le_toInt
  have hlt := n.toInt_lt
  simp only [int32?, Option.map_eq_some_iff, int?_eq_some_iff]
  constructor
  · rintro ⟨k, ⟨hk, h1, h2⟩, rfl⟩
    rw [hk, Int32.toInt_ofInt_of_le (by omega) (by omega)]
  · intro h
    exact ⟨n.toInt, ⟨h, by omega, by omega⟩, Int32.ofInt_toInt n⟩

theorem uint32?_eq_some_iff {v : Value} {n : UInt32} :
    v.uint32? = some n ↔ v.integer? = some (n.toNat : Int) := by
  have hlt : n.toNat < 4294967296 := n.toNat_lt
  simp only [uint32?, Option.map_eq_some_iff, int?_eq_some_iff]
  constructor
  · rintro ⟨k, ⟨hk, h1, h2⟩, rfl⟩
    rw [hk, UInt32.toNat_ofNat', Nat.mod_eq_of_lt (by omega), Int.toNat_of_nonneg h1]
  · intro h
    exact ⟨n.toNat, ⟨h, by omega, by omega⟩, by simp⟩

theorem uint64?_eq_some_iff {v : Value} {n : UInt64} :
    v.uint64? = some n ↔ v.integer? = some (n.toNat : Int) := by
  have hlt : n.toNat < 18446744073709551616 := n.toNat_lt
  simp only [uint64?, Option.map_eq_some_iff, int?_eq_some_iff]
  constructor
  · rintro ⟨k, ⟨hk, h1, h2⟩, rfl⟩
    rw [hk, UInt64.toNat_ofNat', Nat.mod_eq_of_lt (by omega), Int.toNat_of_nonneg h1]
  · intro h
    exact ⟨n.toNat, ⟨h, by omega, by omega⟩, by simp⟩

theorem bool?_eq_some_iff {v : Value} {b : Bool} : v.bool? = some b ↔ v = .bool b := by
  cases v <;> simp [bool?]

/-- A value designates one of the named things, on its own or as the one key of a map, with nil
beside it. -/
def Chooses {α : Type} (all : List α) (name : α → String) (v : Value) (a : α) : Prop :=
  ∃ place, all[place]? = some a ∧ (v.designates (name a) place ∨
    ∃ key : Value, v = .map [(key, .nil)] ∧ key.designates (name a) place)

theorem choice?_eq_some_iff {names : List String} (h : names.Nodup) {v : Value} {place : Nat} :
    v.choice? names = some place ↔ ∃ name, names[place]? = some name ∧
      (v.designates name place ∨ ∃ key : Value, v = .map [(key, .nil)] ∧
        key.designates name place) := by
  cases v with
  | map entries =>
    rcases entries with _ | ⟨⟨key, value⟩, _ | ⟨other, rest⟩⟩
    · simp [choice?, designates]
    · cases value with
      | nil => simp [choice?, designates, place?_eq_some_iff h]
      | bool b => simp [choice?, designates]
      | uint n => simp [choice?, designates]
      | int n => simp [choice?, designates]
      | float bytes => simp [choice?, designates]
      | str bytes => simp [choice?, designates]
      | bin bytes => simp [choice?, designates]
      | array items => simp [choice?, designates]
      | map entries => simp [choice?, designates]
      | ext type data => simp [choice?, designates]
    · simp [choice?, designates]
  | nil => simp [choice?, place?_eq_some_iff h]
  | bool b => simp [choice?, place?_eq_some_iff h]
  | uint n => simp [choice?, place?_eq_some_iff h]
  | int n => simp [choice?, place?_eq_some_iff h]
  | float bytes => simp [choice?, place?_eq_some_iff h]
  | str bytes => simp [choice?, place?_eq_some_iff h]
  | bin bytes => simp [choice?, place?_eq_some_iff h]
  | array items => simp [choice?, place?_eq_some_iff h]
  | ext type data => simp [choice?, place?_eq_some_iff h]

end MessagePack.Value

theorem chosen?_eq_some_iff {α : Type} {all : List α} {name : α → String}
    (h : (all.map name).Nodup) {v : Value} {a : α} :
    chosen? all name v = some a ↔ v.Chooses all name a := by
  unfold chosen? Value.Chooses
  simp only [Option.bind_eq_some_iff, Value.choice?_eq_some_iff h, List.getElem?_map,
    Option.map_eq_some_iff]
  constructor
  · rintro ⟨place, ⟨_, ⟨a', ha', rfl⟩, hd⟩, ha⟩
    obtain rfl : a' = a := Option.some.inj (ha'.symm.trans ha)
    exact ⟨place, ha, hd⟩
  · rintro ⟨place, ha, hd⟩
    exact ⟨place, ⟨_, ⟨a, ha, rfl⟩, hd⟩, ha⟩

theorem JobIdentity.ofValue?_eq_some_iff {v : Value} {identity : JobIdentity} :
    Coded.ofValue? v = some identity ↔ v.Chooses JobIdentity.all JobIdentity.name identity :=
  chosen?_eq_some_iff (by decide)

theorem FdPassing.ofValue?_eq_some_iff {v : Value} {passing : FdPassing} :
    Coded.ofValue? v = some passing ↔ v.Chooses FdPassing.all FdPassing.name passing :=
  chosen?_eq_some_iff (by decide)

/-! ## Records of the control and the reply direction -/

/-- A value is the integer. -/
def ReadsInt32 (v : Value) (n : Int32) : Prop := v.integer? = some n.toInt
def ReadsUInt32 (v : Value) (n : UInt32) : Prop := v.integer? = some (n.toNat : Int)

/-- A value is the truth value. -/
def ReadsBool (v : Value) (b : Bool) : Prop := v = .bool b

def Begin.fields : List (RecordField Begin) :=
  [{ name := "parent", part := Begin.parent, Reads := ReadsInt32 }]

def Start.fields : List (RecordField Start) := [{
  name := "identity"
  part := Start.identity
  Reads := Value.Chooses JobIdentity.all JobIdentity.name
  missing? := some .mapRoot }]

def Quit.fields : List (RecordField Quit) := []

def StartResult.fields : List (RecordField StartResult) := [
  { name := "read_fd", part := StartResult.readFd, Reads := ReadsInt32 },
  { name := "write_fd", part := StartResult.writeFd, Reads := ReadsInt32 },
  { name := "pid", part := StartResult.pid, Reads := ReadsInt32 }]

theorem Begin.ofValue?_eq_some_iff {v : Value} {m : Begin} :
    Coded.ofValue? v = some m ↔ ReadsAs Begin.fields v m := by
  rw [readsAs_iff_slots (by decide)]
  unfold Coded.ofValue? instCodedBegin
  simp only [Begin.fields, List.map_cons, List.map_nil]
  cases hslots : v.fields? ["parent"] with
  | none => simp
  | some slots =>
    obtain ⟨parent, rfl⟩ := List.length_eq_one_iff.mp (length_of_fields? (by decide) hslots)
    cases parent with
    | none => simp
    | some parent =>
      simp only [Option.map_eq_some_iff, Option.some.injEq, exists_eq_left', List.forall₂_cons,
        List.Forall₂.nil, and_true, Option.toList_some, RecordField.gives_singleton, ReadsInt32,
        Value.int32?_eq_some_iff]
      constructor
      · rintro ⟨n, hn, rfl⟩
        exact hn
      · intro h
        exact ⟨m.parent, h, rfl⟩

theorem Start.ofValue?_eq_some_iff {v : Value} {m : Start} :
    Coded.ofValue? v = some m ↔ ReadsAs Start.fields v m := by
  rw [readsAs_iff_slots (by decide)]
  unfold Coded.ofValue? instCodedStart
  simp only [Start.fields, List.map_cons, List.map_nil]
  cases hslots : v.fields? ["identity"] with
  | none => simp
  | some slots =>
    obtain ⟨identity, rfl⟩ := List.length_eq_one_iff.mp (length_of_fields? (by decide) hslots)
    cases identity with
    | none =>
      simp only [Option.some.injEq, exists_eq_left', List.forall₂_cons, List.Forall₂.nil, and_true,
        Option.toList_none, RecordField.gives_nil]
      exact ⟨fun h => h ▸ rfl, fun h => by rw [show m = ⟨m.identity⟩ from rfl, ← h]; rfl⟩
    | some identity =>
      simp only [Option.map_eq_some_iff, Option.some.injEq, exists_eq_left', List.forall₂_cons,
        List.Forall₂.nil, and_true, Option.toList_some, RecordField.gives_singleton,
        JobIdentity.ofValue?_eq_some_iff]
      constructor
      · rintro ⟨n, hn, rfl⟩
        exact hn
      · intro h
        exact ⟨m.identity, h, rfl⟩

theorem Quit.ofValue?_eq_some_iff {v : Value} {m : Quit} :
    Coded.ofValue? v = some m ↔ ReadsAs Quit.fields v m := by
  rw [readsAs_iff_slots (by decide)]
  unfold Coded.ofValue? instCodedQuit
  simp only [Quit.fields, List.map_nil]
  cases hslots : v.fields? [] with
  | none => simp
  | some slots =>
    obtain rfl := List.length_eq_zero_iff.mp (length_of_fields? (by decide) hslots)
    simp

theorem StartResult.ofValue?_eq_some_iff {v : Value} {m : StartResult} :
    Coded.ofValue? v = some m ↔ ReadsAs StartResult.fields v m := by
  rw [readsAs_iff_slots (by decide)]
  unfold Coded.ofValue? instCodedStartResult
  simp only [StartResult.fields, List.map_cons, List.map_nil]
  cases hslots : v.fields? ["read_fd", "write_fd", "pid"] with
  | none => simp
  | some slots =>
    obtain ⟨readFd, writeFd, pid, rfl⟩ :=
      List.length_eq_three.mp (length_of_fields? (by decide) hslots)
    rcases readFd with _ | readFd
    · simp
    rcases writeFd with _ | writeFd
    · simp
    rcases pid with _ | pid
    · simp
    simp only [Option.some.injEq, exists_eq_left', List.forall₂_cons, List.Forall₂.nil, and_true,
      Option.toList_some, RecordField.gives_singleton, ReadsInt32, ← Value.int32?_eq_some_iff]
    constructor
    · intro h
      cases hread : readFd.int32? with
      | none => simp [hread] at h
      | some r =>
        cases hwrite : writeFd.int32? with
        | none => simp [hread, hwrite] at h
        | some w =>
          cases hpid : pid.int32? with
          | none => simp [hread, hwrite, hpid] at h
          | some p =>
            simp only [hread, hwrite, hpid, Option.some.injEq] at h
            subst h
            exact ⟨rfl, rfl, rfl⟩
    · rintro ⟨hread, hwrite, hpid⟩
      simp [hread, hwrite, hpid]

/-! ## Records of the configuration -/

def IdMapping.fields : List (RecordField IdMapping) := [
  { name := "child_start", part := IdMapping.childStart, Reads := ReadsUInt32 },
  { name := "host_start", part := IdMapping.hostStart, Reads := ReadsUInt32 },
  { name := "length", part := IdMapping.length, Reads := ReadsUInt32 }]

def Namespaces.fields : List (RecordField Namespaces) := [
  { name := "user", part := Namespaces.user, Reads := ReadsBool },
  { name := "pid", part := Namespaces.pid, Reads := ReadsBool },
  { name := "mount", part := Namespaces.mount, Reads := ReadsBool },
  { name := "net", part := Namespaces.net, Reads := ReadsBool },
  { name := "ipc", part := Namespaces.ipc, Reads := ReadsBool },
  { name := "uts", part := Namespaces.uts, Reads := ReadsBool }]

theorem IdMapping.ofValue?_eq_some_iff {v : Value} {m : IdMapping} :
    Coded.ofValue? v = some m ↔ ReadsAs IdMapping.fields v m := by
  rw [readsAs_iff_slots (by decide)]
  unfold Coded.ofValue? IdMapping.instCoded
  simp only [IdMapping.fields, List.map_cons, List.map_nil]
  cases hslots : v.fields? ["child_start", "host_start", "length"] with
  | none => simp
  | some slots =>
    obtain ⟨childStart, hostStart, length, rfl⟩ :=
      List.length_eq_three.mp (length_of_fields? (by decide) hslots)
    rcases childStart with _ | childStart
    · simp
    rcases hostStart with _ | hostStart
    · simp
    rcases length with _ | length
    · simp
    simp only [Option.some.injEq, exists_eq_left', List.forall₂_cons, List.Forall₂.nil, and_true,
      Option.toList_some, RecordField.gives_singleton, ReadsUInt32, ← Value.uint32?_eq_some_iff,
      Option.bind_eq_bind, Option.bind_eq_some_iff, Option.pure_def]
    constructor
    · rintro ⟨c, hc, h, hh, l, hl, rfl⟩
      exact ⟨hc, hh, hl⟩
    · rintro ⟨hc, hh, hl⟩
      exact ⟨_, hc, _, hh, _, hl, rfl⟩

theorem Namespaces.ofValue?_eq_some_iff {v : Value} {n : Namespaces} :
    Coded.ofValue? v = some n ↔ ReadsAs Namespaces.fields v n := by
  rw [readsAs_iff_slots (by decide)]
  unfold Coded.ofValue? Namespaces.instCoded
  simp only [Namespaces.fields, List.map_cons, List.map_nil]
  cases hslots : v.fields? ["user", "pid", "mount", "net", "ipc", "uts"] with
  | none => simp
  | some slots =>
    have hlen := length_of_fields? (by decide) hslots
    obtain _ | ⟨user, _ | ⟨pid, _ | ⟨mount, _ | ⟨net, _ | ⟨ipc, _ | ⟨uts, _ | ⟨more, rest⟩⟩⟩⟩⟩⟩⟩ :=
      slots <;> simp only [List.length_cons, List.length_nil] at hlen <;> try omega
    rcases user with _ | user
    · simp
    rcases pid with _ | pid
    · simp
    rcases mount with _ | mount
    · simp
    rcases net with _ | net
    · simp
    rcases ipc with _ | ipc
    · simp
    rcases uts with _ | uts
    · simp
    simp only [Option.some.injEq, exists_eq_left', List.forall₂_cons, List.Forall₂.nil, and_true,
      Option.toList_some, RecordField.gives_singleton, ReadsBool, ← Value.bool?_eq_some_iff,
      Option.bind_eq_bind, Option.bind_eq_some_iff, Option.pure_def]
    constructor
    · rintro ⟨a, ha, b, hb, c, hc, d, hd, e, he, f, hf, rfl⟩
      exact ⟨ha, hb, hc, hd, he, hf⟩
    · rintro ⟨ha, hb, hc, hd, he, hf⟩
      exact ⟨_, ha, _, hb, _, hc, _, hd, _, he, _, hf, rfl⟩

/-- A value gives nothing or nil for no path, and text or bytes that are UTF-8 for a path. -/
def ReadsPath (v : Value) (path : Option OsText) : Prop :=
  v = .nil ∧ path = none ∨
    ∃ text : String, (v = .str (Bytes.ofText text) ∨ v = .bin (Bytes.ofText text)) ∧
      path = some (.ofText text)

/-- A value gives the lines of an id map one by one, or none at all as an empty byte string. -/
def ReadsMap (v : Value) (map : IdMap) : Prop :=
  (∃ items, v = .array items ∧ List.Forall₂ (ReadsAs IdMapping.fields) items map) ∨
    v = .bin [] ∧ map = []

theorem path?_some_eq_some_iff {v : Value} {path : Option OsText} :
    Config.path? (some v) = some path ↔ ReadsPath v path := by
  unfold ReadsPath
  cases v with
  | nil => simp [Config.path?, eq_comm]
  | str bytes =>
    simp only [Config.path?, Value.bytes?, Option.map_eq_some_iff, Utf8.decode?_eq_some_iff,
      OsText.ofText]
    simp only [reduceCtorEq, false_and, Value.str.injEq, or_false, false_or]
    exact exists_congr fun text => and_congr_right fun h => h ▸ eq_comm
  | bin bytes =>
    simp only [Config.path?, Value.bytes?, Option.map_eq_some_iff, Utf8.decode?_eq_some_iff,
      OsText.ofText]
    simp only [reduceCtorEq, false_and, Value.bin.injEq, false_or]
    exact exists_congr fun text => and_congr_right fun h => h ▸ eq_comm
  | bool b => simp [Config.path?, Value.bytes?]
  | uint n => simp [Config.path?, Value.bytes?]
  | int n => simp [Config.path?, Value.bytes?]
  | float bytes => simp [Config.path?, Value.bytes?]
  | array items => simp [Config.path?, Value.bytes?]
  | map entries => simp [Config.path?, Value.bytes?]
  | ext type data => simp [Config.path?, Value.bytes?]

theorem map?_eq_some_iff {v : Value} {map : IdMap} :
    Config.map? v = some map ↔ ReadsMap v map := by
  unfold ReadsMap
  cases v with
  | array items =>
    simp [Config.map?, mapM_eq_some_iff, IdMapping.ofValue?_eq_some_iff]
  | bin bytes => cases bytes <;> simp [Config.map?, eq_comm]
  | nil => simp [Config.map?]
  | bool b => simp [Config.map?]
  | uint n => simp [Config.map?]
  | int n => simp [Config.map?]
  | float bytes => simp [Config.map?]
  | str bytes => simp [Config.map?]
  | map entries => simp [Config.map?]
  | ext type data => simp [Config.map?]

/-- The two parts of a length of time: by name, as text or bytes, in either order and nothing
beside them; in an array of two; or a byte each. -/
inductive Duration.Parts (secs nanos : Value) : Value → Prop where
  | inOrder (key key' : Value) (h : key.bytes? = some (Bytes.ofText "secs"))
      (h' : key'.bytes? = some (Bytes.ofText "nanos")) :
      Parts secs nanos (.map [(key, secs), (key', nanos)])
  | swapped (key key' : Value) (h : key.bytes? = some (Bytes.ofText "nanos"))
      (h' : key'.bytes? = some (Bytes.ofText "secs")) :
      Parts secs nanos (.map [(key, nanos), (key', secs)])
  | array : Parts secs nanos (.array [secs, nanos])
  | bin (b b' : UInt8) (rest : Bytes) (h : secs = .ofByte b) (h' : nanos = .ofByte b') :
      Parts secs nanos (.bin (b :: b' :: rest))

/-- A value gives a length of time by its seconds, of 64 bits, and its nanoseconds, of 32 bits;
full seconds among the nanoseconds are carried over. -/
def ReadsDuration (v : Value) (d : Duration) : Prop :=
  ∃ secs nanos, Duration.Parts secs nanos v ∧ ∃ (s : UInt64) (n : UInt32),
    secs.integer? = some (s.toNat : Int) ∧ nanos.integer? = some (n.toNat : Int) ∧
      d.secs.toNat * 1000000000 + d.nanos.toNat = s.toNat * 1000000000 + n.toNat

theorem Duration.parts_of_entries {key key' value value' : Value} {secs nanos : Value} :
    partsOfEntries [(key, value), (key', value')] = some (secs, nanos) ↔
      Duration.Parts secs nanos (.map [(key, value), (key', value')]) := by
  have hne : Bytes.ofText "nanos" ≠ Bytes.ofText "secs" := by decide
  unfold partsOfEntries
  constructor
  · intro h
    cases hkey : key.bytes? with
    | none => simp [hkey] at h
    | some name =>
      cases hkey' : key'.bytes? with
      | none => simp [hkey, hkey'] at h
      | some name' =>
        simp only [hkey, hkey'] at h
        split_ifs at h with h1 h2
        · cases h
          exact .inOrder key key' (h1.1 ▸ hkey) (h1.2 ▸ hkey')
        · cases h
          exact .swapped key key' (h2.1 ▸ hkey) (h2.2 ▸ hkey')
  · intro h
    cases h with
    | inOrder _ _ h h' => simp only [h, h', and_self, if_true]
    | swapped _ _ h h' => simp only [h, h', hne, false_and, and_self, if_true, if_false]

theorem Duration.parts?_eq_some_iff {v secs nanos : Value} :
    Duration.parts? v = some (secs, nanos) ↔ Duration.Parts secs nanos v := by
  constructor
  · intro h
    cases v with
    | map entries =>
      rcases entries with _ | ⟨⟨key, value⟩, _ | ⟨⟨key', value'⟩, _ | ⟨more, rest⟩⟩⟩
      · cases h
      · cases h
      · exact Duration.parts_of_entries.mp h
      · cases h
    | array items =>
      rcases items with _ | ⟨a, _ | ⟨b, _ | ⟨c, rest⟩⟩⟩
      · cases h
      · cases h
      · cases h
        exact .array
      · cases h
    | bin bytes =>
      rcases bytes with _ | ⟨b, _ | ⟨b', rest⟩⟩
      · cases h
      · cases h
      · cases h
        exact .bin b b' rest rfl rfl
    | nil => cases h
    | bool b => cases h
    | uint n => cases h
    | int n => cases h
    | float bytes => cases h
    | str bytes => cases h
    | ext type data => cases h
  · intro h
    cases h with
    | inOrder key key' h h' => exact Duration.parts_of_entries.mpr (.inOrder key key' h h')
    | swapped key key' h h' => exact Duration.parts_of_entries.mpr (.swapped key key' h h')
    | array => rfl
    | bin b b' rest h h' => rw [h, h']; rfl

theorem Duration.ofParts?_eq_some_iff {s : UInt64} {n : UInt32} {d : Duration} :
    Duration.ofParts? s n = some d ↔
      d.secs.toNat * 1000000000 + d.nanos.toNat = s.toNat * 1000000000 + n.toNat := by
  have hsecs : d.secs.toNat < 18446744073709551616 := d.secs.toNat_lt
  have hnanos := d.nanos_lt
  have hn : n.toNat < 4294967296 := n.toNat_lt
  have hsize : UInt64.size = 18446744073709551616 := rfl
  unfold Duration.ofParts?
  simp only [Option.ite_none_right_eq_some, Option.some.injEq]
  constructor
  · rintro ⟨hlt, rfl⟩
    simp only [UInt64.toNat_ofNat', UInt32.toNat_ofNat']
    omega
  · intro h
    refine ⟨by omega, ?_⟩
    obtain ⟨secs, nanos, hlt⟩ := d
    simp only at h hsecs hnanos
    have h1 : UInt64.ofNat (s.toNat + n.toNat / 1000000000) = secs := by
      rw [← UInt64.toNat_inj, UInt64.toNat_ofNat']
      omega
    have h2 : UInt32.ofNat (n.toNat % 1000000000) = nanos := by
      rw [← UInt32.toNat_inj, UInt32.toNat_ofNat']
      omega
    subst h1 h2
    rfl

theorem Duration.ofValue?_eq_some_iff {v : Value} {d : Duration} :
    Coded.ofValue? v = some d ↔ ReadsDuration v d := by
  unfold ReadsDuration Coded.ofValue? Duration.instCoded
  simp only [Option.bind_eq_bind, Option.bind_eq_some_iff, Value.uint64?_eq_some_iff,
    Value.uint32?_eq_some_iff, Duration.ofParts?_eq_some_iff, Prod.exists,
    Duration.parts?_eq_some_iff]
  constructor
  · rintro ⟨secs, nanos, hparts, s, hs, n, hn, hd⟩
    exact ⟨secs, nanos, hparts, s, n, hs, hn, hd⟩
  · rintro ⟨secs, nanos, hparts, s, n, hs, hn, hd⟩
    exact ⟨secs, nanos, hparts, s, hs, n, hn, hd⟩

/-! ## The configuration -/

def Config.fields : List (RecordField Config) := [
  { name := "executable", part := Config.executable, Reads := ReadsPath, missing? := some none },
  { name := "worker_namespaces"
    part := Config.workerNamespaces
    Reads := ReadsAs Namespaces.fields },
  { name := "uid_map", part := Config.uidMap, Reads := ReadsMap },
  { name := "gid_map", part := Config.gidMap, Reads := ReadsMap },
  { name := "job_identity"
    part := Config.jobIdentity
    Reads := Value.Chooses JobIdentity.all JobIdentity.name },
  { name := "fd_passing"
    part := Config.fdPassing
    Reads := Value.Chooses FdPassing.all FdPassing.name },
  { name := "start_timeout", part := Config.startTimeout, Reads := ReadsDuration },
  { name := "shutdown_timeout", part := Config.shutdownTimeout, Reads := ReadsDuration },
  { name := "kill_grace", part := Config.killGrace, Reads := ReadsDuration },
  { name := "die_with_parent", part := Config.dieWithParent, Reads := ReadsBool }]

theorem Config.ofValue?_eq_some_iff {v : Value} {c : Config} :
    Coded.ofValue? v = some c ↔ ReadsAs Config.fields v c := by
  rw [readsAs_iff_slots (by decide)]
  unfold Coded.ofValue? Config.instCoded
  simp only [Config.fields, List.map_cons, List.map_nil]
  cases hslots : v.fields? Config.fieldNames with
  | none =>
    simp only [Config.fieldNames] at hslots
    simp [hslots]
  | some slots =>
    have hlen := length_of_fields? (by decide) hslots
    simp only [Config.fieldNames] at hslots hlen
    obtain _ | ⟨executable, _ | ⟨namespaces, _ | ⟨uidMap, _ | ⟨gidMap, _ | ⟨identity,
      _ | ⟨passing, _ | ⟨start, _ | ⟨shutdown, _ | ⟨grace, _ | ⟨die, _ | ⟨more, rest⟩⟩⟩⟩⟩⟩⟩⟩⟩⟩⟩ :=
      slots <;> simp only [List.length_cons, List.length_nil] at hlen <;> try omega
    rcases namespaces with _ | namespaces
    · simp [hslots]
    rcases uidMap with _ | uidMap
    · simp [hslots]
    rcases gidMap with _ | gidMap
    · simp [hslots]
    rcases identity with _ | identity
    · simp [hslots]
    rcases passing with _ | passing
    · simp [hslots]
    rcases start with _ | start
    · simp [hslots]
    rcases shutdown with _ | shutdown
    · simp [hslots]
    rcases grace with _ | grace
    · simp [hslots]
    rcases die with _ | die
    · simp [hslots]
    simp only [hslots, Option.some.injEq, exists_eq_left', List.forall₂_cons, List.Forall₂.nil,
      and_true, Option.toList_some, RecordField.gives_singleton, ReadsBool,
      ← Value.bool?_eq_some_iff, ← JobIdentity.ofValue?_eq_some_iff, ← FdPassing.ofValue?_eq_some_iff,
      ← Duration.ofValue?_eq_some_iff, ← map?_eq_some_iff, ← Namespaces.ofValue?_eq_some_iff,
      Option.bind_eq_bind, Option.bind_eq_some_iff, Option.pure_def]
    have hpath : (Config.path? executable = some c.executable) ↔ RecordField.Gives
        { name := "executable", part := Config.executable, Reads := ReadsPath,
          missing? := some none } executable.toList c.executable := by
      cases executable with
      | none => simp [Config.path?]
      | some value => simp [path?_some_eq_some_iff]
    rw [← hpath]
    constructor
    · rintro ⟨_, h1, _, h2, _, h3, _, h4, _, h5, _, h6, _, h7, _, h8, _, h9, _, h10, rfl⟩
      exact ⟨h1, h2, h3, h4, h5, h6, h7, h8, h9, h10⟩
    · rintro ⟨h1, h2, h3, h4, h5, h6, h7, h8, h9, h10⟩
      exact ⟨_, h1, _, h2, _, h3, _, h4, _, h5, _, h6, _, h7, _, h8, _, h9, _, h10, rfl⟩

end ProcessTree
