-- The messages of a process tree as payloads. Every message of the control and
-- the reply set has a payload, short enough for a frame, that reads back as
-- the same message; and what a set of messages cannot read, it refuses as
-- malformed.
import ProcessTree.Message
import ProcessTree.Proofs.MessagePack.Records

namespace ProcessTree

open MessagePack

/-! ## What a set of messages promises -/

/-- Every message has a payload whose length a header can tell, and the payload reads back as the
message. -/
def Message.ReadsBack (M : Type) [Message M] : Prop :=
  ∀ m : M, ∃ payload, Message.encode m = .ok payload ∧ payload.length < Bytes.span 4 ∧
    Message.decode (Message.kind m) payload = .ok m

/-- Whatever does not read as a message is refused as malformed. -/
def Message.RefusesAsMalformed (M : Type) [Message M] : Prop :=
  ∀ kind payload e, (Message.decode kind payload : Except ChannelError M) = .error e →
    ∃ reason, e = .malformed kind reason

/-! ## Lengths -/

theorem length_writeSized_le (n bound : Nat) (widths : List (UInt8 × Nat))
    (h : ∀ w ∈ widths, w.2 ≤ bound) : (writeSized n widths).length ≤ bound + 1 := by
  have hle : (leastWidth n widths).2 ≤ bound := by
    induction widths with
    | nil => exact Nat.zero_le _
    | cons w rest ih =>
      cases rest with
      | nil => exact h w List.mem_cons_self
      | cons w' rest =>
        unfold leastWidth
        split
        · exact h w List.mem_cons_self
        · exact ih fun x hx => h x (List.mem_cons_of_mem _ hx)
  unfold writeSized
  simp only [List.length_cons, Bytes.length_ofNat]
  omega

theorem length_write_ofInt_le (n : Int) : (Value.ofInt n).write.length ≤ 9 := by
  have huint : ∀ k, (writeUint k).length ≤ 9 := by
    intro k
    unfold writeUint
    split
    · simp
    · exact length_writeSized_le k 8 _ (by decide)
  have hneg : ∀ k, (writeNegative k).length ≤ 9 := by
    intro k
    unfold writeNegative
    split_ifs <;> simp [Bytes.length_ofNat]
  unfold Value.ofInt
  split_ifs with h
  · exact huint _
  · unfold Value.write writeInt
    rw [if_neg h]
    exact hneg n

/-! ## Bodies -/

theorem unpackAs_of_reads {α : Type} [Coded α] (kind : String) (a : α) (v : Value)
    (hto : Coded.toValue? a = some v) (hof : Coded.ofValue? v = some a)
    (hfit : v.Fits maxLevels) :
    packAs kind a = .ok v.write ∧ unpackAs kind v.write = .ok a := by
  obtain ⟨hpack, hunpack⟩ := unpack?_pack a v [] hto hof hfit
  rw [List.append_nil] at hunpack
  constructor
  · unfold packAs
    rw [hpack]
  · unfold unpackAs
    rw [hunpack]

theorem begin_reads (body : Begin) : ∃ payload,
    packAs Kind.begin body = .ok payload ∧ payload.length < Bytes.span 4 ∧
      unpackAs Kind.begin payload = .ok body := by
  have hfields := fields?_ofFields [("parent", .ofInt body.parent.toInt)] ["parent"] rfl
    (by decide)
  have hfit : (Value.ofFields [("parent", .ofInt body.parent.toInt)]).Fits maxLevels := by
    apply fits_ofFields _ _ ["parent"] rfl (by decide) (by decide)
    intro field hfield
    rw [List.mem_singleton.mp hfield]
    exact fits_ofInt32 _ body.parent
  have hof : (Coded.ofValue? (Value.ofFields [("parent", .ofInt body.parent.toInt)]) :
      Option Begin) = some body := by
    unfold Coded.ofValue? instCodedBegin
    simp only [hfields, List.map_cons, List.map_nil, int32?_ofInt, Option.map_some]
  obtain ⟨hpack, hunpack⟩ := unpackAs_of_reads Kind.begin body _ rfl hof hfit
  refine ⟨_, hpack, ?_, hunpack⟩
  have hint := length_write_ofInt_le body.parent.toInt
  have hspan : Bytes.span 4 = 4294967296 := by decide
  have hname : (Bytes.ofText "parent").length = 6 := by decide
  simp only [Value.ofFields, Value.ofText, Value.write, writeEntries, mapHead, strHead,
    List.map_cons, List.map_nil, List.length_append, List.length_cons, List.length_nil, hname,
    Nat.reduceLT, Nat.reduceAdd, if_true]
  omega

theorem start_reads (body : Start) : ∃ payload,
    packAs Kind.start body = .ok payload ∧ payload.length < Bytes.span 4 ∧
      unpackAs Kind.start payload = .ok body := by
  obtain ⟨identity⟩ := body
  have hfit : (Value.ofFields [("identity", .ofText identity.name)]).Fits maxLevels := by
    apply fits_ofFields _ _ ["identity"] rfl (by decide) (by decide)
    intro field hfield
    rw [List.mem_singleton.mp hfield]
    exact fits_ofText _ _ (by cases identity <;> decide)
  have hof : (Coded.ofValue? (Value.ofFields [("identity", .ofText identity.name)]) :
      Option Start) = some (Start.mk identity) := by
    cases identity <;> rfl
  obtain ⟨hpack, hunpack⟩ := unpackAs_of_reads Kind.start (Start.mk identity) _ rfl hof hfit
  exact ⟨_, hpack, by cases identity <;> decide, hunpack⟩

theorem quit_reads : ∃ payload,
    packAs Kind.quit (⟨⟩ : Quit) = .ok payload ∧ payload.length < Bytes.span 4 ∧
      unpackAs Kind.quit payload = .ok (⟨⟩ : Quit) :=
  ⟨[0x80], rfl, by decide, rfl⟩

theorem startResult_reads (body : StartResult) : ∃ payload,
    packAs Kind.startResult body = .ok payload ∧ payload.length < Bytes.span 4 ∧
      unpackAs Kind.startResult payload = .ok body := by
  have hfields := fields?_ofFields [("read_fd", .ofInt body.readFd.toInt),
    ("write_fd", .ofInt body.writeFd.toInt), ("pid", .ofInt body.pid.toInt)]
    ["read_fd", "write_fd", "pid"] rfl (by decide)
  have hfit : (Value.ofFields [("read_fd", .ofInt body.readFd.toInt),
      ("write_fd", .ofInt body.writeFd.toInt), ("pid", .ofInt body.pid.toInt)]).Fits
        maxLevels := by
    apply fits_ofFields _ _ ["read_fd", "write_fd", "pid"] rfl (by decide) (by decide)
    intro field hfield
    simp only [List.mem_cons, List.not_mem_nil, or_false] at hfield
    rcases hfield with rfl | rfl | rfl <;> exact fits_ofInt32 _ _
  have hof : (Coded.ofValue? (Value.ofFields [("read_fd", .ofInt body.readFd.toInt),
      ("write_fd", .ofInt body.writeFd.toInt), ("pid", .ofInt body.pid.toInt)]) :
        Option StartResult) = some body := by
    unfold Coded.ofValue? instCodedStartResult
    simp only [hfields, List.map_cons, List.map_nil, int32?_ofInt]
  obtain ⟨hpack, hunpack⟩ := unpackAs_of_reads Kind.startResult body _ rfl hof hfit
  refine ⟨_, hpack, ?_, hunpack⟩
  have hread := length_write_ofInt_le body.readFd.toInt
  have hwrite := length_write_ofInt_le body.writeFd.toInt
  have hpid := length_write_ofInt_le body.pid.toInt
  have hspan : Bytes.span 4 = 4294967296 := by decide
  have hnames : (Bytes.ofText "read_fd").length = 7 ∧ (Bytes.ofText "write_fd").length = 8 ∧
      (Bytes.ofText "pid").length = 3 := by decide
  simp only [Value.ofFields, Value.ofText, Value.write, writeEntries, mapHead, strHead,
    List.map_cons, List.map_nil, List.length_append, List.length_cons, List.length_nil, hnames,
    Nat.reduceLT, Nat.reduceAdd, if_true]
  omega

/-! ## Sets of messages -/

theorem controlMessage_readsBack : Message.ReadsBack ControlMessage := by
  intro m
  cases m with
  | begin body =>
    obtain ⟨payload, hpack, hlen, hunpack⟩ := begin_reads body
    refine ⟨payload, hpack, hlen, ?_⟩
    simp [Message.decode, Message.kind, hunpack, Except.map]
  | start body =>
    obtain ⟨payload, hpack, hlen, hunpack⟩ := start_reads body
    refine ⟨payload, hpack, hlen, ?_⟩
    have : ¬ Kind.start = Kind.begin := by decide
    simp [Message.decode, Message.kind, this, hunpack, Except.map]
  | quit =>
    obtain ⟨payload, hpack, hlen, hunpack⟩ := quit_reads
    refine ⟨payload, hpack, hlen, ?_⟩
    have : ¬ Kind.quit = Kind.begin ∧ ¬ Kind.quit = Kind.start := by decide
    simp [Message.decode, Message.kind, this, hunpack, Except.map]

theorem replyMessage_readsBack : Message.ReadsBack ReplyMessage := by
  rintro ⟨body⟩
  obtain ⟨payload, hpack, hlen, hunpack⟩ := startResult_reads body
  refine ⟨payload, hpack, hlen, ?_⟩
  simp [Message.decode, Message.kind, hunpack, Except.map]

theorem unpackAs_error {α : Type} [Coded α] {kind : String} {payload : Bytes} {e : ChannelError}
    (h : (unpackAs kind payload : Except ChannelError α) = .error e) :
    e = .malformed kind unreadable := by
  unfold unpackAs at h
  split at h
  · cases h
  · cases h
    rfl

theorem map_unpackAs_error {α β : Type} [Coded α] {kind : String} {payload : Bytes}
    {e : ChannelError} {f : α → β} (h : (unpackAs kind payload).map f = .error e) :
    ∃ reason, e = .malformed kind reason := by
  cases hu : (unpackAs kind payload : Except ChannelError α) with
  | ok body =>
    rw [hu] at h
    cases h
  | error e' =>
    rw [hu] at h
    cases h
    exact ⟨_, unpackAs_error hu⟩

theorem controlMessage_refusesAsMalformed : Message.RefusesAsMalformed ControlMessage := by
  intro kind payload e h
  simp only [Message.decode] at h
  split_ifs at h
  · exact map_unpackAs_error h
  · exact map_unpackAs_error h
  · exact map_unpackAs_error h
  · cases h
    exact ⟨_, rfl⟩

theorem replyMessage_refusesAsMalformed : Message.RefusesAsMalformed ReplyMessage := by
  intro kind payload e h
  simp only [Message.decode] at h
  split_ifs at h
  · exact map_unpackAs_error h
  · cases h
    exact ⟨_, rfl⟩

theorem jobReply_refusesAsMalformed : Message.RefusesAsMalformed JobReply := by
  intro kind payload e h
  cases h
  exact ⟨_, rfl⟩

end ProcessTree
