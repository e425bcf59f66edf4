-- What is written carries its own end. A body is read back from its payload
-- whatever follows it, and a payload that was cut off anywhere is refused, so a
-- start request that lost its identity is never taken for one without.
import ProcessTree.Proofs.MessagePack.Spelling
import ProcessTree.Proofs.Messages
import ProcessTree.Proofs.Schema

namespace ProcessTree

open MessagePack

/-! ## Bodies that delimit themselves -/

/-- A body has a payload, is read back from it with anything behind it, and is refused as
malformed from each part of it that lacks the end. -/
def RoundTrips {α : Type} [Coded α] (a : α) : Prop :=
  ∀ kind, ∃ payload, packAs kind a = .ok payload ∧
    (∀ behind, unpackAs kind (payload ++ behind) = .ok a) ∧
    ∀ before after, payload = before ++ after → after ≠ [] →
      (unpackAs kind before : Except ChannelError α) = .error (.malformed kind unreadable)

/-- Every message has a payload, is read back from it with anything behind it, and is refused as
malformed from each part of it that lacks the end. -/
def Message.RoundTrip (M : Type) [Message M] : Prop :=
  ∀ m : M, ∃ payload, Message.encode m = .ok payload ∧
    (∀ behind, Message.decode (Message.kind m) (payload ++ behind) = .ok m) ∧
    ∀ before after, payload = before ++ after → after ≠ [] →
      (Message.decode (Message.kind m) before : Except ChannelError M) =
        .error (.malformed (Message.kind m) unreadable)

theorem roundTrips_of_fits {α : Type} [Coded α] {a : α} {v : Value}
    (hto : Coded.toValue? a = some v) (hof : Coded.ofValue? v = some a)
    (hfit : v.Fits maxLevels) : RoundTrips a := by
  intro kind
  refine ⟨v.write, ?_, ?_, ?_⟩
  · unfold packAs
    rw [(unpack?_pack a v [] hto hof hfit).1]
  · intro behind
    unfold unpackAs
    rw [(unpack?_pack a v behind hto hof hfit).2]
  · intro before after hwhole hafter
    have hread : read v.write = some (v, []) := by
      have := read_write v [] hfit
      rwa [List.append_nil] at this
    unfold unpackAs unpack?
    rw [read_prefix_eq_none hread hwhole hafter]

theorem exists_of_forall₂_right {α : Type*} {β : Type*} {R : α → β → Prop} {left : List α}
    {right : List β} (h : List.Forall₂ R left right) {b : β} (hb : b ∈ right) :
    ∃ a ∈ left, R a b := by
  induction h with
  | nil => cases hb
  | @cons a b' left right hab _ ih =>
    rcases List.mem_cons.mp hb with rfl | hb
    · exact ⟨a, List.mem_cons_self, hab⟩
    · obtain ⟨a', ha', hab'⟩ := ih hb
      exact ⟨a', List.mem_cons_of_mem _ ha', hab'⟩

/-! ## What is written stands for what it is written from -/

/-- The names of fields can be written and tell the fields apart. -/
structure Named {α : Type} (fields : List (RecordField α)) : Prop where
  nodup : (fields.map RecordField.name).Nodup
  few : (fields.map RecordField.name).length < Bytes.span 4
  short : ∀ name ∈ fields.map RecordField.name, (Bytes.ofText name).length < Bytes.span 4

/-- A record is read from its own fields, each written with a value that fits and stands for its
part. -/
theorem readsAs_ofFields {α : Type} {fields : List (RecordField α)} {a : α} {levels : Nat}
    {written : List (String × Value)} (hnamed : Named fields)
    (hwritten : written.map Prod.fst = fields.map RecordField.name)
    (h : List.Forall₂ (fun (field : RecordField α) entry =>
      field.Reads entry.2 (field.part a) ∧ entry.2.Fits levels) fields written) :
    ReadsAs fields (.ofFields written) a ∧ (Value.ofFields written).Fits (levels + 1) := by
  constructor
  · rw [readsAs_iff_slots hnamed.nodup]
    refine ⟨_, fields?_ofFields written _ hwritten hnamed.nodup, ?_⟩
    rw [List.forall₂_map_right_iff]
    exact h.imp fun _ _ hentry => hentry.1
  · refine fits_ofFields levels written _ hwritten hnamed.few hnamed.short fun entry hentry => ?_
    obtain ⟨field, -, hfield⟩ := exists_of_forall₂_right h hentry
    exact hfield.2

theorem readsInt32_ofInt (levels : Nat) (n : Int32) :
    ReadsInt32 (.ofInt n.toInt) n ∧ (Value.ofInt n.toInt).Fits levels := by
  refine ⟨?_, fits_ofInt32 levels n⟩
  unfold ReadsInt32 Value.ofInt
  split_ifs with h
  · simp only [Value.integer?, Int.toNat_of_nonneg h]
  · rfl

theorem fits_uint (levels n : Nat) (h : n < 18446744073709551616) :
    (Value.uint n).Fits levels := by
  have hspan : Bytes.span 8 = 18446744073709551616 := by decide
  unfold Value.Fits
  omega

theorem readsUInt32_uint (levels : Nat) (n : UInt32) :
    ReadsUInt32 (.uint n.toNat) n ∧ (Value.uint n.toNat).Fits levels := by
  have hlt : n.toNat < 4294967296 := n.toNat_lt
  exact ⟨rfl, fits_uint levels _ (by omega)⟩

theorem readsBool_bool (levels : Nat) (b : Bool) :
    ReadsBool (.bool b) b ∧ (Value.bool b).Fits levels := by
  refine ⟨rfl, ?_⟩
  unfold Value.Fits
  trivial

theorem chooses_ofText {α : Type} {all : List α} {name : α → String} (levels : Nat)
    (hshort : ∀ a ∈ all, (Bytes.ofText (name a)).length < Bytes.span 4) {a : α} (h : a ∈ all) :
    (Value.ofText (name a)).Chooses all name a ∧ (Value.ofText (name a)).Fits levels := by
  refine ⟨?_, fits_ofText levels _ (hshort a h)⟩
  obtain ⟨place, hplace, rfl⟩ := List.mem_iff_getElem.mp h
  exact ⟨place, List.getElem?_eq_getElem hplace, .inl (beq_iff_eq.mpr rfl)⟩

theorem JobIdentity.chooses_name (levels : Nat) (identity : JobIdentity) :
    (Value.ofText identity.name).Chooses JobIdentity.all JobIdentity.name identity ∧
      (Value.ofText identity.name).Fits levels :=
  chooses_ofText levels (by decide) (by cases identity <;> decide)

theorem FdPassing.chooses_name (levels : Nat) (passing : FdPassing) :
    (Value.ofText passing.name).Chooses FdPassing.all FdPassing.name passing ∧
      (Value.ofText passing.name).Fits levels :=
  chooses_ofText levels (by decide) (by cases passing <;> decide)

/-! ## The control and the reply direction -/

theorem JobIdentity.roundTrips (identity : JobIdentity) : RoundTrips identity := by
  obtain ⟨hreads, hfits⟩ := JobIdentity.chooses_name maxLevels identity
  exact roundTrips_of_fits rfl (JobIdentity.ofValue?_eq_some_iff.mpr hreads) hfits

theorem FdPassing.roundTrips (passing : FdPassing) : RoundTrips passing := by
  obtain ⟨hreads, hfits⟩ := FdPassing.chooses_name maxLevels passing
  exact roundTrips_of_fits rfl (FdPassing.ofValue?_eq_some_iff.mpr hreads) hfits

theorem Begin.roundTrips (m : Begin) : RoundTrips m := by
  have hwritten : List.Forall₂ (fun (field : RecordField Begin) (entry : String × Value) =>
      field.Reads entry.2 (field.part m) ∧ entry.2.Fits 1022) Begin.fields
        [("parent", .ofInt m.parent.toInt)] := .cons (readsInt32_ofInt _ _) .nil
  obtain ⟨hreads, hfits⟩ := readsAs_ofFields ⟨by decide, by decide, by decide⟩ rfl hwritten
  exact roundTrips_of_fits rfl (Begin.ofValue?_eq_some_iff.mpr hreads) hfits

theorem Start.roundTrips (m : Start) : RoundTrips m := by
  have hwritten : List.Forall₂ (fun (field : RecordField Start) (entry : String × Value) =>
      field.Reads entry.2 (field.part m) ∧ entry.2.Fits 1022) Start.fields
        [("identity", .ofText m.identity.name)] := .cons (JobIdentity.chooses_name _ _) .nil
  obtain ⟨hreads, hfits⟩ := readsAs_ofFields ⟨by decide, by decide, by decide⟩ rfl hwritten
  exact roundTrips_of_fits rfl (Start.ofValue?_eq_some_iff.mpr hreads) hfits

theorem Quit.roundTrips (m : Quit) : RoundTrips m := by
  have hwritten : List.Forall₂ (fun (field : RecordField Quit) (entry : String × Value) =>
      field.Reads entry.2 (field.part m) ∧ entry.2.Fits 1022) Quit.fields [] := .nil
  obtain ⟨hreads, hfits⟩ := readsAs_ofFields ⟨by decide, by decide, by decide⟩ rfl hwritten
  exact roundTrips_of_fits rfl (Quit.ofValue?_eq_some_iff.mpr hreads) hfits

theorem StartResult.roundTrips (m : StartResult) : RoundTrips m := by
  have hwritten : List.Forall₂ (fun (field : RecordField StartResult) (entry : String × Value) =>
      field.Reads entry.2 (field.part m) ∧ entry.2.Fits 1022) StartResult.fields
        [("read_fd", .ofInt m.readFd.toInt), ("write_fd", .ofInt m.writeFd.toInt),
          ("pid", .ofInt m.pid.toInt)] :=
    .cons (readsInt32_ofInt _ _) (.cons (readsInt32_ofInt _ _) (.cons (readsInt32_ofInt _ _) .nil))
  obtain ⟨hreads, hfits⟩ := readsAs_ofFields ⟨by decide, by decide, by decide⟩ rfl hwritten
  exact roundTrips_of_fits rfl (StartResult.ofValue?_eq_some_iff.mpr hreads) hfits

/-! ## The configuration -/

/-- A line of an id map as a value. -/
def IdMapping.written (m : IdMapping) : Value := .ofFields [
  ("child_start", .uint m.childStart.toNat), ("host_start", .uint m.hostStart.toNat),
  ("length", .uint m.length.toNat)]

theorem IdMapping.readsAs_written (levels : Nat) (m : IdMapping) :
    ReadsAs IdMapping.fields m.written m ∧ m.written.Fits (levels + 1) := by
  refine readsAs_ofFields ⟨by decide, by decide, by decide⟩ rfl ?_
  exact .cons (readsUInt32_uint _ _) (.cons (readsUInt32_uint _ _)
    (.cons (readsUInt32_uint _ _) .nil))

theorem IdMapping.roundTrips (m : IdMapping) : RoundTrips m := by
  obtain ⟨hreads, hfits⟩ := IdMapping.readsAs_written 1022 m
  exact roundTrips_of_fits rfl (IdMapping.ofValue?_eq_some_iff.mpr hreads) hfits

/-- Namespaces as a value. -/
def Namespaces.written (n : Namespaces) : Value := .ofFields [
  ("user", .bool n.user), ("pid", .bool n.pid), ("mount", .bool n.mount), ("net", .bool n.net),
  ("ipc", .bool n.ipc), ("uts", .bool n.uts)]

theorem Namespaces.readsAs_written (levels : Nat) (n : Namespaces) :
    ReadsAs Namespaces.fields n.written n ∧ n.written.Fits (levels + 1) := by
  refine readsAs_ofFields ⟨by decide, by decide, by decide⟩ rfl ?_
  exact .cons (readsBool_bool _ _) (.cons (readsBool_bool _ _) (.cons (readsBool_bool _ _)
    (.cons (readsBool_bool _ _) (.cons (readsBool_bool _ _) (.cons (readsBool_bool _ _) .nil)))))

theorem Namespaces.roundTrips (n : Namespaces) : RoundTrips n := by
  obtain ⟨hreads, hfits⟩ := Namespaces.readsAs_written 1022 n
  exact roundTrips_of_fits rfl (Namespaces.ofValue?_eq_some_iff.mpr hreads) hfits

/-- A length of time as a value. -/
def Duration.written (d : Duration) : Value := .ofFields [
  ("secs", .uint d.secs.toNat), ("nanos", .uint d.nanos.toNat)]

theorem Duration.reads_written (levels : Nat) (d : Duration) :
    ReadsDuration d.written d ∧ d.written.Fits (levels + 1) := by
  have hsecs : d.secs.toNat < 18446744073709551616 := d.secs.toNat_lt
  have hnanos := d.nanos_lt
  constructor
  · exact ⟨_, _, .inOrder _ _ rfl rfl, d.secs, d.nanos, rfl, rfl, rfl⟩
  · refine fits_ofFields levels _ ["secs", "nanos"] rfl (by decide) (by decide) ?_
    simp only [List.forall_mem_cons, List.not_mem_nil, false_imp_iff, implies_true, and_true]
    exact ⟨fits_uint levels _ hsecs, fits_uint levels _ (by omega)⟩

theorem IdMap.mapValue?_eq (map : IdMap) :
    Config.mapValue? map = some (.array (map.map IdMapping.written)) := by
  have hall : map.mapM Coded.toValue? = some (map.map IdMapping.written) := by
    rw [mapM_eq_some_iff, List.forall₂_map_right_iff]
    exact List.forall₂_same.mpr fun _ _ => rfl
  unfold Config.mapValue?
  rw [hall]
  rfl

theorem IdMap.reads_written (levels : Nat) (map : IdMap) (h : map.length < 2 ^ 32) :
    ReadsMap (.array (map.map IdMapping.written)) map ∧
      (Value.array (map.map IdMapping.written)).Fits (levels + 2) := by
  have hspan : Bytes.span 4 = 2 ^ 32 := by decide
  constructor
  · refine .inl ⟨_, rfl, ?_⟩
    rw [List.forall₂_map_left_iff]
    exact List.forall₂_same.mpr fun m _ => (IdMapping.readsAs_written levels m).1
  · unfold Value.Fits
    rw [List.length_map, hspan]
    refine ⟨h, fun item hitem => ?_⟩
    obtain ⟨m, -, rfl⟩ := List.mem_map.mp hitem
    exact (IdMapping.readsAs_written levels m).2

/-- A path as a value. -/
def pathWritten : Option OsText → Value
  | none => .nil
  | some path => .str path.bytes

theorem path_reads_written (levels : Nat) (path? : Option OsText)
    (h : ∀ path, path? = some path →
      (∃ text, path = .ofText text) ∧ path.bytes.length < 2 ^ 32) :
    Config.pathValue? path? = some (pathWritten path?) ∧
      ReadsPath (pathWritten path?) path? ∧ (pathWritten path?).Fits levels := by
  have hspan : Bytes.span 4 = 2 ^ 32 := by decide
  cases path? with
  | none =>
    refine ⟨rfl, .inl ⟨rfl, rfl⟩, ?_⟩
    unfold pathWritten Value.Fits
    trivial
  | some path =>
    obtain ⟨⟨text, rfl⟩, hlen⟩ := h path rfl
    refine ⟨?_, .inr ⟨text, .inl rfl, rfl⟩, ?_⟩
    · have htext : (OsText.ofText text).text? = some text := Utf8.decode?_eq_some_iff.mpr rfl
      simp only [Config.pathValue?, htext, Option.map_some, pathWritten]
    · unfold pathWritten Value.Fits
      rw [hspan]
      exact hlen

/-- A configuration whose lists and texts have lengths that can be written, and whose executable is
a text. -/
structure Config.Writable (c : Config) : Prop where
  uidMap : c.uidMap.length < 2 ^ 32
  gidMap : c.gidMap.length < 2 ^ 32
  executable : ∀ path, c.executable = some path →
    (∃ text, path = .ofText text) ∧ path.bytes.length < 2 ^ 32

/-- The fields of a configuration as values, when its executable is one. -/
def Config.fieldsWith (c : Config) (executable : Value) : List (String × Value) := [
  ("executable", executable), ("worker_namespaces", c.workerNamespaces.written),
  ("uid_map", .array (c.uidMap.map IdMapping.written)),
  ("gid_map", .array (c.gidMap.map IdMapping.written)),
  ("job_identity", .ofText c.jobIdentity.name), ("fd_passing", .ofText c.fdPassing.name),
  ("start_timeout", c.startTimeout.written), ("shutdown_timeout", c.shutdownTimeout.written),
  ("kill_grace", c.killGrace.written), ("die_with_parent", .bool c.dieWithParent)]

/-- Everything but the executable has a written form. -/
theorem Config.toValue?_eq (c : Config) :
    Coded.toValue? c =
      (Config.pathValue? c.executable).map fun executable =>
        .ofFields (c.fieldsWith executable) := by
  unfold Coded.toValue? Config.instCoded
  simp only [IdMap.mapValue?_eq]
  cases hpath : Config.pathValue? c.executable with
  | none => simp
  | some executable => rfl

theorem Config.roundTrips {c : Config} (h : c.Writable) : RoundTrips c := by
  obtain ⟨hvalue, hpath⟩ := path_reads_written 1022 c.executable h.executable
  have hwritten : List.Forall₂ (fun (field : RecordField Config) (entry : String × Value) =>
      field.Reads entry.2 (field.part c) ∧ entry.2.Fits 1022) Config.fields
        (c.fieldsWith (pathWritten c.executable)) :=
    .cons hpath (.cons (Namespaces.readsAs_written 1021 _)
      (.cons (IdMap.reads_written 1020 _ h.uidMap) (.cons (IdMap.reads_written 1020 _ h.gidMap)
      (.cons (JobIdentity.chooses_name _ _) (.cons (FdPassing.chooses_name _ _)
      (.cons (Duration.reads_written 1021 _) (.cons (Duration.reads_written 1021 _)
      (.cons (Duration.reads_written 1021 _) (.cons (readsBool_bool _ _) .nil)))))))))
  obtain ⟨hreads, hfits⟩ := readsAs_ofFields ⟨by decide, by decide, by decide⟩ rfl hwritten
  have hto := c.toValue?_eq
  rw [hvalue, Option.map_some] at hto
  exact roundTrips_of_fits hto (Config.ofValue?_eq_some_iff.mpr hreads) hfits

/-- Only an executable that is no text keeps a configuration from being written. -/
theorem Config.packAs_eq_error_iff {c : Config} {kind : String} :
    (∃ e, packAs kind c = .error e) ↔
      ∃ path, c.executable = some path ∧ ∀ text, path ≠ .ofText text := by
  unfold packAs pack?
  rw [Config.toValue?_eq]
  cases hexecutable : c.executable with
  | none => simp [Config.pathValue?]
  | some path =>
    cases htext : path.text? with
    | some text =>
      have heq : path = .ofText text := by
        cases path
        exact congrArg OsText.mk (Utf8.decode?_eq_some_iff.mp htext)
      simp only [Config.pathValue?, htext, Option.map_some, reduceCtorEq, exists_false,
        Option.some.injEq, exists_eq_left', ne_eq, false_iff, not_forall, not_not]
      exact ⟨text, heq⟩
    | none =>
      simp only [Config.pathValue?, htext, Option.map_none, Except.error.injEq, exists_eq',
        Option.some.injEq, exists_eq_left', true_iff]
      rintro text rfl
      have hsome : (OsText.ofText text).text? = some text := Utf8.decode?_eq_some_iff.mpr rfl
      rw [hsome] at htext
      cases htext

/-! ## The message sets -/

theorem map_ok {α β : Type} {f : α → β} {r : Except ChannelError α} {a : α} (h : r = .ok a) :
    r.map f = .ok (f a) := by
  rw [h]
  rfl

theorem map_error {α β : Type} {f : α → β} {r : Except ChannelError α} {e : ChannelError}
    (h : r = .error e) : r.map f = .error e := by
  rw [h]
  rfl

theorem controlMessage_roundTrip : Message.RoundTrip ControlMessage := by
  have hstart : ¬ Kind.start = Kind.begin := by decide
  have hquit : ¬ Kind.quit = Kind.begin ∧ ¬ Kind.quit = Kind.start := by decide
  intro m
  cases m with
  | begin body =>
    obtain ⟨payload, hpack, hreads, hcut⟩ := body.roundTrips Kind.begin
    refine ⟨payload, hpack, fun behind => ?_, fun before after hwhole hafter => ?_⟩
    · simp only [Message.decode, Message.kind, if_true]
      exact map_ok (hreads behind)
    · simp only [Message.decode, Message.kind, if_true]
      exact map_error (hcut before after hwhole hafter)
  | start body =>
    obtain ⟨payload, hpack, hreads, hcut⟩ := body.roundTrips Kind.start
    refine ⟨payload, hpack, fun behind => ?_, fun before after hwhole hafter => ?_⟩
    · simp only [Message.decode, Message.kind, hstart, if_true, if_false]
      exact map_ok (hreads behind)
    · simp only [Message.decode, Message.kind, hstart, if_true, if_false]
      exact map_error (hcut before after hwhole hafter)
  | quit =>
    obtain ⟨payload, hpack, hreads, hcut⟩ := Quit.roundTrips ⟨⟩ Kind.quit
    refine ⟨payload, hpack, fun behind => ?_, fun before after hwhole hafter => ?_⟩
    · simp only [Message.decode, Message.kind, hquit, if_true, if_false]
      exact map_ok (hreads behind)
    · simp only [Message.decode, Message.kind, hquit, if_true, if_false]
      exact map_error (hcut before after hwhole hafter)

theorem replyMessage_roundTrip : Message.RoundTrip ReplyMessage := by
  rintro ⟨body⟩
  obtain ⟨payload, hpack, hreads, hcut⟩ := body.roundTrips Kind.startResult
  refine ⟨payload, hpack, fun behind => ?_, fun before after hwhole hafter => ?_⟩
  · simp only [Message.decode, Message.kind, if_true]
    exact map_ok (hreads behind)
  · simp only [Message.decode, Message.kind, if_true]
    exact map_error (hcut before after hwhole hafter)

/-- Everything that is sent is read back from its payload whatever follows, and nothing is read
from a part of a payload that lacks the end. Only a configuration may have no payload, and then
because its executable is no text. -/
theorem a_payload_carries_its_own_end :
    (∀ m : Begin, RoundTrips m) ∧ (∀ m : Start, RoundTrips m) ∧ (∀ m : Quit, RoundTrips m) ∧
      (∀ m : StartResult, RoundTrips m) ∧ (∀ identity : JobIdentity, RoundTrips identity) ∧
      (∀ passing : FdPassing, RoundTrips passing) ∧ (∀ m : IdMapping, RoundTrips m) ∧
      (∀ n : Namespaces, RoundTrips n) ∧ (∀ c : Config, c.Writable → RoundTrips c) ∧
      (∀ (c : Config) (kind : String), (∃ e, packAs kind c = .error e) ↔
        ∃ path, c.executable = some path ∧ ∀ text, path ≠ .ofText text) ∧
      Message.RoundTrip ControlMessage ∧ Message.RoundTrip ReplyMessage :=
  ⟨Begin.roundTrips, Start.roundTrips, Quit.roundTrips, StartResult.roundTrips,
    JobIdentity.roundTrips, FdPassing.roundTrips, IdMapping.roundTrips, Namespaces.roundTrips,
    fun _ => Config.roundTrips, fun _ _ => Config.packAs_eq_error_iff, controlMessage_roundTrip,
    replyMessage_roundTrip⟩

/-- A configuration with a long name and an id map of two lines. -/
theorem a_configuration_carries_its_own_end :
    let c := { Config.initial 1000 1000 with
      executable := some (.ofText "/opt/wärren/bin")
      uidMap := [.rootTo 1000, ⟨1, 100000, 65536⟩] }
    c.Writable ∧ RoundTrips c := by
  have hwritable : { Config.initial 1000 1000 with
      executable := some (.ofText "/opt/wärren/bin")
      uidMap := [.rootTo 1000, ⟨1, 100000, 65536⟩] }.Writable := by
    refine ⟨by decide, by decide, ?_⟩
    rintro path ⟨⟩
    exact ⟨⟨_, rfl⟩, by decide⟩
  exact ⟨hwritable, a_payload_carries_its_own_end.2.2.2.2.2.2.2.2.1 _ hwritable⟩

end ProcessTree
