-- A start request that was cut off, and the front of a quit behind it. Wherever
-- the cut is, the two together are not the frame of any message: they make no
-- complete frame, or a request for an identity whose name has a byte in it
-- that no text has.
import ProcessTree.Proofs.Channel.Wire
import ProcessTree.Vocabulary

namespace ProcessTree

open ProcessTree.Frame ProcessTree.MessagePack

/-! ## Requests for an identity by name -/

/-- A start request for what has these bytes for a name. -/
def requestFor (name : Bytes) : Value := .ofFields [("identity", .str name)]

/-- What comes before the name in a request for a name of `n` bytes. -/
def requestHead (n : Nat) : Bytes := mapHead 1 ++ (Value.ofText "identity").write ++ strHead n

theorem write_requestFor (name : Bytes) :
    (requestFor name).write = requestHead name.length ++ name := by
  simp [requestFor, requestHead, Value.ofFields, Value.write, writeEntries]

theorem length_requestHead {n : Nat} (h : n < 32) : (requestHead n).length = 11 := by
  have hfield : (mapHead 1 ++ (Value.ofText "identity").write).length = 10 := by decide
  rw [requestHead, List.length_append, hfield, strHead, if_pos h]
  rfl

theorem length_requestFor {name : Bytes} (h : name.length < 32) :
    (requestFor name).write.length = 11 + name.length := by
  rw [write_requestFor, List.length_append, length_requestHead h]

namespace JobIdentity

theorem length_name (identity : JobIdentity) :
    6 ≤ (Bytes.ofText identity.name).length ∧ (Bytes.ofText identity.name).length < 32 := by
  cases identity <;> decide

/-- The byte 255 is in no text, so in no name. -/
theorem notMem_name (identity : JobIdentity) : 255 ∉ Bytes.ofText identity.name := by
  cases identity <;> decide

end JobIdentity

/-- No identity has a name with the byte 255 in it. -/
theorem decode_requestFor {name : Bytes} (h255 : 255 ∈ name) (hlen : name.length < Bytes.span 4) :
    ∃ e, (Message.decode Kind.start (requestFor name).write : Except ChannelError ControlMessage) =
      .error e := by
  have hplace : placeOf? (JobIdentity.all.map JobIdentity.name) name = none := by
    refine List.findIdx?_eq_none_iff.mpr fun text htext => ?_
    obtain ⟨identity, -, rfl⟩ := List.mem_map.mp htext
    rw [beq_eq_false_iff_ne]
    rintro rfl
    exact identity.notMem_name h255
  have hidentity : (Coded.ofValue? (.str name) : Option JobIdentity) = none := by
    unfold Coded.ofValue? instCodedJobIdentity
    simp [chosen?, Value.choice?, Value.place?, hplace]
  have hfields : (requestFor name).fields? ["identity"] = some [some (.str name)] :=
    fields?_ofFields [("identity", .str name)] ["identity"] rfl (by decide)
  have hfit : (requestFor name).Fits maxLevels := by
    apply fits_ofFields _ _ ["identity"] rfl (by decide) (by decide)
    intro field hfield
    rw [List.mem_singleton.mp hfield]
    exact hlen
  have hread := read_write (requestFor name) [] hfit
  rw [List.append_nil] at hread
  have hunpack : (unpack? (requestFor name).write : Option Start) = none := by
    unfold unpack?
    simp only [hread]
    unfold Coded.ofValue? instCodedStart
    simp only [hfields, hidentity, Option.map_none]
  refine ⟨.malformed Kind.start unreadable, ?_⟩
  have hkind : ¬ Kind.start = Kind.begin := by decide
  simp [Message.decode, hkind, unpackAs, hunpack, Except.map]

/-! ## Cut frames -/

theorem wire_start (identity : JobIdentity) :
    Message.wire Direction.rootToWorker.registry (.start ⟨identity⟩ : ControlMessage) =
      2 :: Bytes.ofNat 4 (requestFor (Bytes.ofText identity.name)).write.length ++
        (requestFor (Bytes.ofText identity.name)).write := by
  have htag : Direction.rootToWorker.registry.tagOf? Kind.start = some 2 := rfl
  unfold Message.wire
  rw [show Message.kind (.start ⟨identity⟩ : ControlMessage) = Kind.start from rfl, htag]
  rfl

theorem wire_quit : Message.wire Direction.rootToWorker.registry (.quit : ControlMessage) =
    [255, 0, 0, 0, 1, 0x80] := rfl

/-- The front of a quit starts with the byte 255. -/
theorem front_of_quit {x : Bytes} {n : Nat} (hx : x <+: [255, 0, 0, 0, 1, 0x80]) (hn : 0 < n)
    (hle : n ≤ x.length) : 255 ∈ x.take n := by
  cases x with
  | nil =>
    rw [List.length_nil] at hle
    omega
  | cons byte x =>
    obtain ⟨rfl, -⟩ := List.cons_prefix_cons.mp hx
    obtain ⟨n, rfl⟩ : ∃ m, n = m + 1 := ⟨n - 1, by omega⟩
    exact List.mem_cons_self

theorem Bytes.toNat_ge_of_mem {bytes : Bytes} {b : UInt8} (h : b ∈ bytes) :
    b.toNat ≤ bytes.toNat := by
  induction bytes using List.reverseRecOn with
  | nil => cases h
  | append_singleton bytes last ih =>
    rw [Bytes.toNat_append_byte]
    rcases List.mem_append.mp h with hmem | hlast
    · have := ih hmem
      omega
    · rw [List.mem_singleton.mp hlast]
      omega

theorem kindOf_start {header : Bytes} (h : tagOf header = 2) :
    Direction.rootToWorker.registry.kindOf? (tagOf header) = some Kind.start := by
  rw [h]
  rfl

/-- A cut in the header: the length that is read then is longer than anything that follows. -/
theorem parse_cut_header {tail x : Bytes} (hfront : ∃ rest, tail = 2 :: rest)
    (hlen : tail.length < headerSize) (hx : x <+: [255, 0, 0, 0, 1, 0x80]) :
    (parse (M := ControlMessage) Direction.rootToWorker.registry (tail ++ x)).1 = [] := by
  obtain ⟨rest, rfl⟩ := hfront
  have hsize : headerSize = 5 := rfl
  have hshort := hx.length_le
  simp only [List.length_cons, List.length_nil] at hshort hlen
  by_cases hfew : (2 :: rest ++ x).length < headerSize
  · rw [parse_short _ hfew]
  · have hmore : 4 - rest.length ≤ x.length := by
      simp only [List.length_append, List.length_cons] at hfew
      omega
    have hheader : (2 :: rest ++ x.take (4 - rest.length)).length = headerSize := by
      simp only [List.length_append, List.length_cons, List.length_take]
      omega
    have hlength : 255 ≤ lengthOf (2 :: rest ++ x.take (4 - rest.length)) :=
      Bytes.toNat_ge_of_mem (b := 255)
        (List.mem_append_right rest (front_of_quit hx (by omega) hmore))
    have hpart : (x.drop (4 - rest.length)).length <
        lengthOf (2 :: rest ++ x.take (4 - rest.length)) := by
      rw [List.length_drop]
      omega
    have hparse := parse_partial (M := ControlMessage) Direction.rootToWorker.registry hheader
      (kindOf_start rfl) hpart
    rw [List.append_assoc, List.take_append_drop] at hparse
    rw [hparse]

/-- A cut in the payload: what comes behind it is too short, or becomes part of the name. -/
theorem parse_cut_payload {identity : JobIdentity} {header part x : Bytes}
    (hlen : header.length = headerSize) (htag : tagOf header = 2)
    (hlength : lengthOf header = (requestFor (Bytes.ofText identity.name)).write.length)
    (hpart : part <+: (requestFor (Bytes.ofText identity.name)).write)
    (hcut : part.length < lengthOf header) (hx : x <+: [255, 0, 0, 0, 1, 0x80]) :
    (parse (M := ControlMessage) Direction.rootToWorker.registry (header ++ (part ++ x))).1 =
      [] := by
  by_cases hfew : (part ++ x).length < lengthOf header
  · rw [parse_partial _ hlen (kindOf_start htag) hfew]
  · obtain ⟨hleast, hmost⟩ := identity.length_name
    have hshort := hx.length_le
    have hspan : Bytes.span 4 = 4294967296 := by decide
    generalize Bytes.ofText identity.name = name at hleast hmost hlength hpart
    have hhead := length_requestHead hmost
    rw [length_requestFor hmost] at hlength
    rw [write_requestFor] at hpart
    simp only [List.length_append, List.length_cons, List.length_nil] at hfew hshort
    -- At most six bytes are missing, so the cut is in the name.
    obtain ⟨known, rfl⟩ : requestHead name.length <+: part :=
      List.prefix_of_prefix_length_le ⟨name, rfl⟩ hpart (by omega)
    simp only [List.length_append, hhead] at hcut hfew
    have hmissing : name.length - known.length ≤ x.length := by omega
    have hglued : (known ++ x.take (name.length - known.length)).length = name.length := by
      simp only [List.length_append, List.length_take]
      omega
    have hwrite := write_requestFor (known ++ x.take (name.length - known.length))
    rw [hglued] at hwrite
    obtain ⟨e, he⟩ := decode_requestFor
      (List.mem_append_right known (front_of_quit hx (by omega) hmissing)) (by omega)
    have hpayload : (requestFor (known ++ x.take (name.length - known.length))).write.length =
        lengthOf header := by
      rw [length_requestFor (by omega), hglued, hlength]
    have hparse := parse_frame (M := ControlMessage) Direction.rootToWorker.registry
      (x.drop (name.length - known.length)) hlen (kindOf_start htag) hpayload
    have hbytes : (requestFor (known ++ x.take (name.length - known.length))).write ++
        x.drop (name.length - known.length) = requestHead name.length ++ known ++ x := by
      rw [hwrite]
      simp
    rw [he, hbytes] at hparse
    rw [hparse]

/-- Nothing is read across a cut, wherever it is, and whatever part of a quit comes behind it. -/
theorem parse_cut {identity : JobIdentity} {tail x : Bytes}
    (htail : Message.Partly Direction.rootToWorker.registry
      (.start ⟨identity⟩ : ControlMessage) tail) (hne : tail ≠ [])
    (hx : x <+: Message.wire Direction.rootToWorker.registry (.quit : ControlMessage)) :
    (parse (M := ControlMessage) Direction.rootToWorker.registry (tail ++ x)).1 = [] := by
  obtain ⟨rest, hrest, hwire⟩ := htail
  rw [wire_start] at hwire
  rw [wire_quit] at hx
  by_cases hlen : tail.length < headerSize
  · refine parse_cut_header ?_ hlen hx
    cases tail with
    | nil => exact absurd rfl hne
    | cons byte tail =>
      obtain ⟨rfl, -⟩ := List.cons.inj hwire
      exact ⟨tail, rfl⟩
  · have hheader := length_header 2 (requestFor (Bytes.ofText identity.name)).write.length
    obtain ⟨part, rfl⟩ := List.prefix_of_prefix_length_le
      (List.prefix_append _ _) ⟨rest, hwire⟩ (by omega)
    rw [List.append_assoc] at hwire ⊢
    have hpart := List.append_cancel_left hwire
    have hshort : (requestFor (Bytes.ofText identity.name)).write.length < Bytes.span 4 := by
      have hname := identity.length_name.2
      have hspan : Bytes.span 4 = 4294967296 := by decide
      rw [length_requestFor hname]
      omega
    have hlength := lengthOf_header 2 hshort
    refine parse_cut_payload hheader rfl hlength ⟨rest, hpart⟩ ?_ hx
    rw [hlength, ← hpart, List.length_append]
    have := List.length_pos_iff.mpr hrest
    omega

end ProcessTree
