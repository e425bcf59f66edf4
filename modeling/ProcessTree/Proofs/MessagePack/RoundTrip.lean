-- The round trip of MessagePack values: a value whose numbers, lengths and
-- depth fit the format is read back from what was written, and the bytes that
-- follow it are left as they are.
import ProcessTree.MessagePack.Write
import ProcessTree.Proofs.Bytes

namespace ProcessTree.MessagePack

/-! ## Numbers and lengths in the least width -/

/-- The width that is picked is one of those on offer, and it holds the number if the last one
does. -/
theorem leastWidth_spec (n : Nat) (widths : List (UInt8 × Nat)) (last : UInt8 × Nat)
    (hlast : widths.getLast? = some last) (hn : n < Bytes.span last.2) :
    leastWidth n widths ∈ widths ∧ n < Bytes.span (leastWidth n widths).2 := by
  induction widths with
  | nil => cases hlast
  | cons w rest ih =>
    cases rest with
    | nil =>
      simp only [List.getLast?_singleton, Option.some.injEq] at hlast
      subst hlast
      exact ⟨List.mem_singleton.mpr rfl, hn⟩
    | cons w' rest =>
      rw [List.getLast?_cons_cons] at hlast
      obtain ⟨hmem, hfit⟩ := ih hlast
      obtain ⟨marker, width⟩ := w
      unfold leastWidth
      split
      · rename_i hlt
        exact ⟨List.mem_cons_self, hlt⟩
      · exact ⟨List.mem_cons_of_mem _ hmem, hfit⟩

theorem writeSized_eq (n : Nat) (widths : List (UInt8 × Nat)) (last : UInt8 × Nat)
    (hlast : widths.getLast? = some last) (hn : n < Bytes.span last.2) :
    ∃ marker width, (marker, width) ∈ widths ∧ n < Bytes.span width ∧
      writeSized n widths = marker :: Bytes.ofNat width n := by
  obtain ⟨hmem, hfit⟩ := leastWidth_spec n widths last hlast hn
  exact ⟨(leastWidth n widths).1, (leastWidth n widths).2, hmem, hfit, rfl⟩

theorem split?_ofNat (width n : Nat) (rest : Bytes) :
    (Bytes.ofNat width n ++ rest).split? width = some (Bytes.ofNat width n, rest) :=
  Bytes.split?_eq_some_iff.mpr ⟨rfl, Bytes.length_ofNat width n⟩

theorem read_told (width n : Nat) (rest : Bytes) (h : n < Bytes.span width) :
    (Length.told width).read (Bytes.ofNat width n ++ rest) = some (n, rest) := by
  simp only [Length.read, split?_ofNat, Bytes.toNat_ofNat width n h]

theorem readBytes_of_read (length : Length) (bytes data rest : Bytes)
    (h : length.read bytes = some (data.length, data ++ rest)) :
    length.readBytes bytes = some (data, rest) := by
  unfold Length.readBytes
  rw [h]
  exact Bytes.split?_append data rest

/-! ## First bytes -/

theorem ofByte_uint (n : Nat) (h : n < 0x80) :
    Marker.ofByte (UInt8.ofNat n) = .whole (.uint n) := by
  unfold Marker.ofByte
  rw [Bytes.toNat_ofNat_byte (by omega), if_pos h]

theorem ofByte_map (n : Nat) (h : n < 16) :
    Marker.ofByte (UInt8.ofNat (0x80 + n)) = .map (.known n) := by
  unfold Marker.ofByte
  rw [Bytes.toNat_ofNat_byte (by omega), if_neg (by omega), if_pos (by omega),
    Nat.add_sub_cancel_left]

theorem ofByte_array (n : Nat) (h : n < 16) :
    Marker.ofByte (UInt8.ofNat (0x90 + n)) = .array (.known n) := by
  unfold Marker.ofByte
  rw [Bytes.toNat_ofNat_byte (by omega), if_neg (by omega), if_neg (by omega), if_pos (by omega),
    Nat.add_sub_cancel_left]

theorem ofByte_str (n : Nat) (h : n < 32) :
    Marker.ofByte (UInt8.ofNat (0xA0 + n)) = .str (.known n) := by
  unfold Marker.ofByte
  rw [Bytes.toNat_ofNat_byte (by omega), if_neg (by omega), if_neg (by omega), if_neg (by omega),
    if_pos (by omega), Nat.add_sub_cancel_left]

theorem ofByte_int (n : Int) (h : -32 ≤ n) (h0 : n < 0) :
    Marker.ofByte (UInt8.ofNat (n + 256).toNat) = .whole (.int n) := by
  unfold Marker.ofByte
  rw [Bytes.toNat_ofNat_byte (by omega), if_neg (by omega), if_neg (by omega), if_neg (by omega),
    if_neg (by omega), if_pos (by omega)]
  have : (((n + 256).toNat : Nat) : Int) - 256 = n := by omega
  rw [this]

/-! ## Values without values inside -/

theorem readWith_uint (inner? : Option (Reader Value)) (n : Nat) (rest : Bytes)
    (h : n < Bytes.span 8) :
    readWith inner? ((Value.uint n).write ++ rest) = some (.uint n, rest) := by
  unfold Value.write writeUint
  split
  · rename_i hsmall
    simp only [List.singleton_append, readWith, ofByte_uint n hsmall, readAnnounced]
  · obtain ⟨marker, width, hmem, hfit, heq⟩ :=
      writeSized_eq n [(0xCC, 1), (0xCD, 2), (0xCE, 4), (0xCF, 8)] (0xCF, 8) rfl h
    have hmarker : Marker.ofByte marker = .uint width := by
      simp only [List.mem_cons, Prod.mk.injEq, List.not_mem_nil, or_false] at hmem
      rcases hmem with ⟨rfl, rfl⟩ | ⟨rfl, rfl⟩ | ⟨rfl, rfl⟩ | ⟨rfl, rfl⟩ <;> rfl
    rw [heq]
    simp only [List.cons_append, readWith, hmarker, readAnnounced, split?_ofNat, Option.map_some,
      Bytes.toNat_ofNat width n hfit]

/-- A negative number is read back from its two's complement in a width that holds it. -/
theorem signed_ofNat (width : Nat) (n : Int) (h : -(Bytes.span width : Int) ≤ 2 * n)
    (h0 : n < 0) : signed width (Bytes.ofNat width (n + Bytes.span width).toNat) = n := by
  have hlt : (n + Bytes.span width).toNat < Bytes.span width := by omega
  unfold signed
  simp only [Bytes.toNat_ofNat width _ hlt]
  rw [if_neg (by omega)]
  omega

theorem readAnnounced_int (inner? : Option (Reader Value)) (width : Nat) (n : Int) (rest : Bytes)
    (h : -(Bytes.span width : Int) ≤ 2 * n) (h0 : n < 0) :
    readAnnounced inner? (.int width)
      (Bytes.ofNat width (n + Bytes.span width).toNat ++ rest) = some (.int n, rest) := by
  simp only [readAnnounced, split?_ofNat, Option.map_some, signed_ofNat width n h h0]

theorem readWith_int (inner? : Option (Reader Value)) (n : Int) (rest : Bytes)
    (h : -(Bytes.span 8 : Int) ≤ 2 * n) (h0 : n < 0) :
    readWith inner? ((Value.int n).write ++ rest) = some (.int n, rest) := by
  have hspan : Bytes.span 1 = 256 ∧ Bytes.span 2 = 65536 ∧ Bytes.span 4 = 4294967296 := by decide
  unfold Value.write writeInt writeNegative
  rw [if_neg (by omega)]
  split_ifs with h5 h1 h2 h4
  · simp only [List.singleton_append, readWith, ofByte_int n h5 h0, readAnnounced]
  · exact readAnnounced_int inner? 1 n rest (by omega) h0
  · exact readAnnounced_int inner? 2 n rest (by omega) h0
  · exact readAnnounced_int inner? 4 n rest (by omega) h0
  · exact readAnnounced_int inner? 8 n rest h h0

theorem readWith_str (inner? : Option (Reader Value)) (text rest : Bytes)
    (h : text.length < Bytes.span 4) :
    readWith inner? ((Value.str text).write ++ rest) = some (.str text, rest) := by
  unfold Value.write strHead
  split
  · rename_i hsmall
    have hread := readBytes_of_read (.known text.length) (text ++ rest) text rest rfl
    simp only [List.cons_append, List.nil_append, readWith, ofByte_str _ hsmall,
      readAnnounced, hread, Option.map_some]
  · obtain ⟨marker, width, hmem, hfit, heq⟩ :=
      writeSized_eq text.length [(0xD9, 1), (0xDA, 2), (0xDB, 4)] (0xDB, 4) rfl h
    have hmarker : Marker.ofByte marker = .str (.told width) := by
      simp only [List.mem_cons, Prod.mk.injEq, List.not_mem_nil, or_false] at hmem
      rcases hmem with ⟨rfl, rfl⟩ | ⟨rfl, rfl⟩ | ⟨rfl, rfl⟩ <;> rfl
    have hread := readBytes_of_read (.told width) _ text rest
      (read_told width text.length (text ++ rest) hfit)
    rw [heq]
    simp only [List.cons_append, List.append_assoc, readWith, hmarker, readAnnounced, hread,
      Option.map_some]

/-! ## Values with values inside -/

theorem readOnto_of_read {α : Type} (one : Reader α) (write : α → Bytes) (items done : List α)
    (rest : Bytes) (h : ∀ item ∈ items, ∀ rest, one (write item ++ rest) = some (item, rest)) :
    readOnto one items.length done (items.flatMap write ++ rest) =
      some (done.reverse ++ items, rest) := by
  induction items generalizing done with
  | nil => simp [readOnto]
  | cons item items ih =>
    have hone := h item List.mem_cons_self (items.flatMap write ++ rest)
    have hrest := ih (item :: done) (fun i hi => h i (List.mem_cons_of_mem _ hi))
    simp only [List.length_cons, List.flatMap_cons, List.append_assoc, readOnto, hone, hrest]
    simp

theorem readMany_of_read {α : Type} (one : Reader α) (write : α → Bytes) (items : List α)
    (rest : Bytes) (h : ∀ item ∈ items, ∀ rest, one (write item ++ rest) = some (item, rest)) :
    readMany one items.length (items.flatMap write ++ rest) = some (items, rest) :=
  readOnto_of_read one write items [] rest h

theorem writeItems_eq (items : List Value) : writeItems items = items.flatMap Value.write := by
  induction items with
  | nil => simp [writeItems]
  | cons item items ih => simp [writeItems, ih]

theorem writeEntries_eq (entries : List (Value × Value)) :
    writeEntries entries = entries.flatMap fun entry => entry.1.write ++ entry.2.write := by
  induction entries with
  | nil => simp [writeEntries]
  | cons entry entries ih => simp [writeEntries, ih]

theorem readWith_array (inner : Reader Value) (items : List Value) (rest : Bytes)
    (hlen : items.length < Bytes.span 4)
    (h : ∀ item ∈ items, ∀ rest, inner (item.write ++ rest) = some (item, rest)) :
    readWith (some inner) ((Value.array items).write ++ rest) = some (.array items, rest) := by
  have hmany := readMany_of_read inner Value.write items rest h
  rw [← writeItems_eq] at hmany
  unfold Value.write arrayHead
  split
  · rename_i hsmall
    simp only [List.cons_append, List.nil_append, readWith, ofByte_array _ hsmall,
      readAnnounced, Length.read, hmany, Option.map_some]
  · obtain ⟨marker, width, hmem, hfit, heq⟩ :=
      writeSized_eq items.length [(0xDC, 2), (0xDD, 4)] (0xDD, 4) rfl hlen
    have hmarker : Marker.ofByte marker = .array (.told width) := by
      simp only [List.mem_cons, Prod.mk.injEq, List.not_mem_nil, or_false] at hmem
      rcases hmem with ⟨rfl, rfl⟩ | ⟨rfl, rfl⟩ <;> rfl
    rw [heq]
    simp only [List.cons_append, List.append_assoc, readWith, hmarker, readAnnounced,
      read_told width items.length _ hfit, hmany, Option.map_some]

theorem readPair_of_read (inner : Reader Value) (entry : Value × Value) (rest : Bytes)
    (hkey : ∀ rest, inner (entry.1.write ++ rest) = some (entry.1, rest))
    (hvalue : ∀ rest, inner (entry.2.write ++ rest) = some (entry.2, rest)) :
    readPair inner ((entry.1.write ++ entry.2.write) ++ rest) = some (entry, rest) := by
  unfold readPair
  rw [List.append_assoc, hkey]
  simp only [hvalue]

theorem readWith_map (inner : Reader Value) (entries : List (Value × Value)) (rest : Bytes)
    (hlen : entries.length < Bytes.span 4)
    (h : ∀ entry ∈ entries, ∀ rest, inner (entry.1.write ++ rest) = some (entry.1, rest) ∧
      inner (entry.2.write ++ rest) = some (entry.2, rest)) :
    readWith (some inner) ((Value.map entries).write ++ rest) = some (.map entries, rest) := by
  have hmany := readMany_of_read (readPair inner) (fun entry => entry.1.write ++ entry.2.write)
    entries rest fun entry hentry rest => readPair_of_read inner entry rest
      (fun rest => (h entry hentry rest).1) (fun rest => (h entry hentry rest).2)
  rw [← writeEntries_eq] at hmany
  unfold Value.write mapHead
  split
  · rename_i hsmall
    simp only [List.cons_append, List.nil_append, readWith, ofByte_map _ hsmall,
      readAnnounced, Length.read, hmany, Option.map_some]
  · obtain ⟨marker, width, hmem, hfit, heq⟩ :=
      writeSized_eq entries.length [(0xDE, 2), (0xDF, 4)] (0xDF, 4) rfl hlen
    have hmarker : Marker.ofByte marker = .map (.told width) := by
      simp only [List.mem_cons, Prod.mk.injEq, List.not_mem_nil, or_false] at hmem
      rcases hmem with ⟨rfl, rfl⟩ | ⟨rfl, rfl⟩ <;> rfl
    rw [heq]
    simp only [List.cons_append, List.append_assoc, readWith, hmarker, readAnnounced,
      read_told width entries.length _ hfit, hmany, Option.map_some]

/-! ## All values that fit -/

/-- A value fits when it nests at most so deep, its integers have 64 bits, a negative one is marked
as signed, and its lengths have 32 bits. -/
def Value.Fits : Nat → Value → Prop
  | _, .nil => True
  | _, .bool _ => True
  | _, .uint n => n < Bytes.span 8
  | _, .int n => -(Bytes.span 8 : Int) ≤ 2 * n ∧ n < 0
  | _, .str text => text.length < Bytes.span 4
  | levels + 1, .array items => items.length < Bytes.span 4 ∧ ∀ item ∈ items, Fits levels item
  | levels + 1, .map entries => entries.length < Bytes.span 4 ∧
      ∀ entry ∈ entries, Fits levels entry.1 ∧ Fits levels entry.2
  | _, _ => False

/-- What was written of a value that fits is read back, whatever follows it. -/
theorem readNested_write (levels : Nat) (v : Value) (rest : Bytes) (h : v.Fits levels) :
    readNested levels (v.write ++ rest) = some (v, rest) := by
  induction levels generalizing v rest with
  | zero =>
    cases v with
    | nil => rfl
    | bool b => cases b <;> rfl
    | uint n => exact readWith_uint none n rest h
    | int n => exact readWith_int none n rest h.1 h.2
    | str text => exact readWith_str none text rest h
    | float bytes => exact h.elim
    | bin bytes => exact h.elim
    | array items => exact h.elim
    | map entries => exact h.elim
    | ext type data => exact h.elim
  | succ levels ih =>
    cases v with
    | nil => rfl
    | bool b => cases b <;> rfl
    | uint n => exact readWith_uint _ n rest h
    | int n => exact readWith_int _ n rest h.1 h.2
    | str text => exact readWith_str _ text rest h
    | float bytes => exact h.elim
    | bin bytes => exact h.elim
    | array items =>
      exact readWith_array _ items rest h.1 fun item hitem rest => ih item rest (h.2 item hitem)
    | map entries =>
      refine readWith_map _ entries rest h.1 fun entry hentry rest => ?_
      exact ⟨ih entry.1 rest (h.2 entry hentry).1, ih entry.2 rest (h.2 entry hentry).2⟩
    | ext type data => exact h.elim

theorem read_write (v : Value) (rest : Bytes) (h : v.Fits maxLevels) :
    read (v.write ++ rest) = some (v, rest) :=
  readNested_write maxLevels v rest h

end ProcessTree.MessagePack
