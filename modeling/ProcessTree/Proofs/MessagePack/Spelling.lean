-- The format as a grammar: which byte strings spell a value, in every width that
-- a number or a length may have. The reader takes exactly the spellings of
-- values that nest no deeper than it goes, and leaves what follows.
import ProcessTree.Proofs.MessagePack.RoundTrip

namespace ProcessTree.MessagePack

/-! ## The grammar -/

/-- The marker of a number of its own, and how many bytes the number has. -/
abbrev Widths := List (UInt8 × Nat)

def uintWidths : Widths := [(0xCC, 1), (0xCD, 2), (0xCE, 4), (0xCF, 8)]
def intWidths : Widths := [(0xD0, 1), (0xD1, 2), (0xD2, 4), (0xD3, 8)]
def floatWidths : Widths := [(0xCA, 4), (0xCB, 8)]
def strWidths : Widths := [(0xD9, 1), (0xDA, 2), (0xDB, 4)]
def binWidths : Widths := [(0xC4, 1), (0xC5, 2), (0xC6, 4)]
def arrayWidths : Widths := [(0xDC, 2), (0xDD, 4)]
def mapWidths : Widths := [(0xDE, 2), (0xDF, 4)]
def extWidths : Widths := [(0xC7, 1), (0xC8, 2), (0xC9, 4)]

/-- The markers of extensions of a fixed size. -/
def extSizes : Widths := [(0xD4, 1), (0xD5, 2), (0xD6, 4), (0xD7, 8), (0xD8, 16)]

/-- The start of something with `n` parts: one byte counted from `base` when there are fewer than
`limit`, or a marker and the number. -/
inductive Heads (base limit : Nat) (widths : Widths) (n : Nat) : Bytes → Prop where
  | short (h : n < limit) : Heads base limit widths n [UInt8.ofNat (base + n)]
  | wide (marker : UInt8) (count : Bytes) (h : (marker, count.length) ∈ widths)
      (hn : count.toNat = n) : Heads base limit widths n (marker :: count)

/-- Things one after the other. -/
inductive Row {α : Type} (Spelled : α → Bytes → Prop) : List α → Bytes → Prop where
  | nil : Row Spelled [] []
  | cons {a : α} {front : Bytes} {row : List α} {more : Bytes} (one : Spelled a front)
      (rest : Row Spelled row more) : Row Spelled (a :: row) (front ++ more)

/-- Two things one after the other. -/
inductive Pair {α : Type} (Spelled : α → Bytes → Prop) : α × α → Bytes → Prop where
  | mk {a b : α} {front more : Bytes} (first : Spelled a front) (second : Spelled b more) :
      Pair Spelled (a, b) (front ++ more)

/-- The byte strings that spell a value. -/
inductive Spells : Value → Bytes → Prop where
  | nil : Spells .nil [0xC0]
  | no : Spells (.bool false) [0xC2]
  | yes : Spells (.bool true) [0xC3]
  | small (n : Nat) (h : n < 0x80) : Spells (.uint n) [UInt8.ofNat n]
  | uint (marker : UInt8) (number : Bytes) (h : (marker, number.length) ∈ uintWidths) :
      Spells (.uint number.toNat) (marker :: number)
  | minus (n : Int) (h : -32 ≤ n) (h0 : n < 0) : Spells (.int n) [UInt8.ofNat (n + 256).toNat]
  | int (marker : UInt8) (number : Bytes) (h : (marker, number.length) ∈ intWidths) :
      Spells (.int (signed number.length number)) (marker :: number)
  | float (marker : UInt8) (number : Bytes) (h : (marker, number.length) ∈ floatWidths) :
      Spells (.float number) (marker :: number)
  | str (head text : Bytes) (h : Heads 0xA0 32 strWidths text.length head) :
      Spells (.str text) (head ++ text)
  | bin (head data : Bytes) (h : Heads 0 0 binWidths data.length head) :
      Spells (.bin data) (head ++ data)
  | array (head body : Bytes) (items : List Value)
      (h : Heads 0x90 16 arrayWidths items.length head) (hitems : Row Spells items body) :
      Spells (.array items) (head ++ body)
  | map (head body : Bytes) (entries : List (Value × Value))
      (h : Heads 0x80 16 mapWidths entries.length head)
      (hentries : Row (Pair Spells) entries body) : Spells (.map entries) (head ++ body)
  | ext (head : Bytes) (type : UInt8) (data : Bytes) (h : Heads 0 0 extWidths data.length head) :
      Spells (.ext type data) (head ++ type :: data)
  | fixext (marker type : UInt8) (data : Bytes) (h : (marker, data.length) ∈ extSizes) :
      Spells (.ext type data) (marker :: type :: data)

mutual

/-- How deep a value nests: arrays, maps and extensions are a level each. -/
def Value.levels : Value → Nat
  | .array items => levelsOfItems items + 1
  | .map entries => levelsOfEntries entries + 1
  | .ext _ _ => 1
  | _ => 0

/-- How deep the deepest of the items nests. -/
def levelsOfItems : List Value → Nat
  | [] => 0
  | item :: rest => max item.levels (levelsOfItems rest)

/-- How deep the deepest key or value of the entries nests. -/
def levelsOfEntries : List (Value × Value) → Nat
  | [] => 0
  | (key, value) :: rest => max (max key.levels value.levels) (levelsOfEntries rest)

end

theorem levelsOfItems_le_iff {items : List Value} {n : Nat} :
    levelsOfItems items ≤ n ↔ ∀ item ∈ items, item.levels ≤ n := by
  induction items with
  | nil => simp [levelsOfItems]
  | cons item items ih => simp [levelsOfItems, ih]

theorem levelsOfEntries_le_iff {entries : List (Value × Value)} {n : Nat} :
    levelsOfEntries entries ≤ n ↔ ∀ entry ∈ entries, entry.1.levels ≤ n ∧ entry.2.levels ≤ n := by
  induction entries with
  | nil => simp [levelsOfEntries]
  | cons entry entries ih => simp [levelsOfEntries, ih, and_assoc]

/-! ## First bytes, the other way round -/

/-- What the markers announce that no run of bytes shares. -/
def markers : List (UInt8 × Marker) := [
  (0xC0, .whole .nil), (0xC1, .reserved), (0xC2, .whole (.bool false)),
  (0xC3, .whole (.bool true)), (0xC4, .bin (.told 1)), (0xC5, .bin (.told 2)),
  (0xC6, .bin (.told 4)), (0xC7, .ext (.told 1)), (0xC8, .ext (.told 2)),
  (0xC9, .ext (.told 4)), (0xCA, .float 4), (0xCB, .float 8), (0xCC, .uint 1), (0xCD, .uint 2),
  (0xCE, .uint 4), (0xCF, .uint 8), (0xD0, .int 1), (0xD1, .int 2), (0xD2, .int 4),
  (0xD3, .int 8), (0xD4, .ext (.known 1)), (0xD5, .ext (.known 2)), (0xD6, .ext (.known 4)),
  (0xD7, .ext (.known 8)), (0xD8, .ext (.known 16)), (0xD9, .str (.told 1)),
  (0xDA, .str (.told 2)), (0xDB, .str (.told 4)), (0xDC, .array (.told 2)),
  (0xDD, .array (.told 4)), (0xDE, .map (.told 2)), (0xDF, .map (.told 4))]

theorem mem_markers (k : Fin 32) :
    (UInt8.ofNat (0xC0 + k), Marker.ofByte (UInt8.ofNat (0xC0 + k))) ∈ markers := by
  apply List.mem_iff_getElem.mpr
  refine ⟨k, k.isLt, ?_⟩
  fin_cases k <;> rfl

/-- Every first byte counts from the start of a run, or is a marker. -/
theorem ofByte_cases (b : UInt8) :
    (∃ n, n < 0x80 ∧ b = UInt8.ofNat n ∧ Marker.ofByte b = .whole (.uint n)) ∨
    (∃ n, n < 16 ∧ b = UInt8.ofNat (0x80 + n) ∧ Marker.ofByte b = .map (.known n)) ∨
    (∃ n, n < 16 ∧ b = UInt8.ofNat (0x90 + n) ∧ Marker.ofByte b = .array (.known n)) ∨
    (∃ n, n < 32 ∧ b = UInt8.ofNat (0xA0 + n) ∧ Marker.ofByte b = .str (.known n)) ∨
    (∃ n : Int, -32 ≤ n ∧ n < 0 ∧ b = UInt8.ofNat (n + 256).toNat ∧
      Marker.ofByte b = .whole (.int n)) ∨
    (b, Marker.ofByte b) ∈ markers := by
  have hlt : b.toNat < 256 := b.toNat_lt
  have hb : UInt8.ofNat b.toNat = b := UInt8.ofNat_toNat
  rcases Nat.lt_or_ge b.toNat 0x80 with h | h
  · exact .inl ⟨b.toNat, h, hb.symm, by rw [← hb, ofByte_uint _ h, hb]⟩
  rcases Nat.lt_or_ge b.toNat 0x90 with h1 | h1
  · have heq : UInt8.ofNat (0x80 + (b.toNat - 0x80)) = b := by rw [Nat.add_sub_cancel' h, hb]
    refine .inr (.inl ⟨b.toNat - 0x80, by omega, heq.symm, ?_⟩)
    rw [← heq, ofByte_map _ (by omega), heq]
  rcases Nat.lt_or_ge b.toNat 0xA0 with h2 | h2
  · have heq : UInt8.ofNat (0x90 + (b.toNat - 0x90)) = b := by rw [Nat.add_sub_cancel' h1, hb]
    refine .inr (.inr (.inl ⟨b.toNat - 0x90, by omega, heq.symm, ?_⟩))
    rw [← heq, ofByte_array _ (by omega), heq]
  rcases Nat.lt_or_ge b.toNat 0xC0 with h3 | h3
  · have heq : UInt8.ofNat (0xA0 + (b.toNat - 0xA0)) = b := by rw [Nat.add_sub_cancel' h2, hb]
    refine .inr (.inr (.inr (.inl ⟨b.toNat - 0xA0, by omega, heq.symm, ?_⟩)))
    rw [← heq, ofByte_str _ (by omega), heq]
  rcases Nat.lt_or_ge b.toNat 0xE0 with h4 | h4
  · have hmem := mem_markers ⟨b.toNat - 0xC0, by omega⟩
    simp only [Nat.add_sub_cancel' h3, hb] at hmem
    exact .inr (.inr (.inr (.inr (.inr hmem))))
  · have heq : UInt8.ofNat (((b.toNat : Int) - 256) + 256).toNat = b := by
      rw [Int.sub_add_cancel, Int.toNat_natCast, hb]
    refine .inr (.inr (.inr (.inr (.inl ?_))))
    refine ⟨(b.toNat : Int) - 256, by omega, by omega, heq.symm, ?_⟩
    rw [← heq, ofByte_int _ (by omega) (by omega), heq]

/-! ## What a first byte announces, told by the grammar -/

/-- The first byte starts something whose length is `length`. -/
def Length.Announced (base limit : Nat) (widths : Widths) (b : UInt8) (length : Length) : Prop :=
  (∃ n, n < limit ∧ b = UInt8.ofNat (base + n) ∧ length = .known n) ∨
    ∃ width, (b, width) ∈ widths ∧ length = .told width

/-- What a marker says of the first byte that announces it. -/
def Marker.Announced (b : UInt8) : Marker → Prop
  | .whole value => value.levels = 0 ∧ Spells value [b]
  | .uint width => (b, width) ∈ uintWidths
  | .int width => (b, width) ∈ intWidths
  | .float width => (b, width) ∈ floatWidths
  | .str length => length.Announced 0xA0 32 strWidths b
  | .bin length => length.Announced 0 0 binWidths b
  | .array length => length.Announced 0x90 16 arrayWidths b
  | .map length => length.Announced 0x80 16 mapWidths b
  | .ext (.known n) => (b, n) ∈ extSizes
  | .ext (.told width) => (b, width) ∈ extWidths
  | .reserved => True

theorem markers_announced : ∀ entry ∈ markers, entry.2.Announced entry.1 := by
  simp [markers, Marker.Announced, Length.Announced, Value.levels, Spells.nil, Spells.no,
    Spells.yes, uintWidths, intWidths, floatWidths, strWidths, binWidths, arrayWidths, mapWidths,
    extWidths, extSizes]

theorem announced_ofByte (b : UInt8) : (Marker.ofByte b).Announced b := by
  rcases ofByte_cases b with ⟨n, hn, rfl, h⟩ | ⟨n, hn, rfl, h⟩ | ⟨n, hn, rfl, h⟩ | ⟨n, hn, rfl, h⟩ |
    ⟨n, hn, h0, rfl, h⟩ | h
  · rw [h]
    exact ⟨rfl, .small n hn⟩
  · rw [h]
    exact .inl ⟨n, hn, rfl, rfl⟩
  · rw [h]
    exact .inl ⟨n, hn, rfl, rfl⟩
  · rw [h]
    exact .inl ⟨n, hn, rfl, rfl⟩
  · rw [h]
    exact ⟨rfl, .minus n hn h0⟩
  · exact markers_announced _ h

/-! ## Rows and pairs -/

theorem Row.and_left {α : Type} {P : α → Bytes → Prop} {Q : α → Prop} {row : List α}
    {bytes : Bytes} (h : Row (fun a front => P a front ∧ Q a) row bytes) :
    Row P row bytes ∧ ∀ a ∈ row, Q a := by
  induction h with
  | nil => exact ⟨.nil, by simp⟩
  | cons one _ ih => exact ⟨.cons one.1 ih.1, List.forall_mem_cons.mpr ⟨one.2, ih.2⟩⟩

theorem Row.imp {α : Type} {P P' : α → Bytes → Prop} {row : List α} {bytes : Bytes}
    (h : Row P row bytes) (himp : ∀ a front, P a front → P' a front) : Row P' row bytes := by
  induction h with
  | nil => exact .nil
  | cons one _ ih => exact .cons (himp _ _ one) ih

theorem Pair.and_left {α : Type} {P : α → Bytes → Prop} {Q : α → Prop} {pair : α × α}
    {bytes : Bytes} (h : Pair (fun a front => P a front ∧ Q a) pair bytes) :
    Pair P pair bytes ∧ Q pair.1 ∧ Q pair.2 := by
  obtain ⟨hfirst, hsecond⟩ := h
  exact ⟨.mk hfirst.1 hsecond.1, hfirst.2, hsecond.2⟩

theorem readOnto_sound {α : Type} {one : Reader α} {Spelled : α → Bytes → Prop}
    (hone : ∀ bytes a rest, one bytes = some (a, rest) →
      ∃ front, bytes = front ++ rest ∧ Spelled a front)
    {n : Nat} {done all : List α} {bytes rest : Bytes}
    (h : readOnto one n done bytes = some (all, rest)) :
    ∃ row front, all = done.reverse ++ row ∧ row.length = n ∧ bytes = front ++ rest ∧
      Row Spelled row front := by
  induction n generalizing done bytes with
  | zero =>
    cases h
    exact ⟨[], [], by simp, rfl, rfl, .nil⟩
  | succ n ih =>
    unfold readOnto at h
    cases hread : one bytes with
    | none =>
      rw [hread] at h
      cases h
    | some read =>
      obtain ⟨a, more⟩ := read
      rw [hread] at h
      obtain ⟨front, rfl, ha⟩ := hone bytes a more hread
      obtain ⟨row, fronts, rfl, rfl, rfl, hrow⟩ := ih h
      exact ⟨a :: row, front ++ fronts, by simp, rfl, by simp, .cons ha hrow⟩

theorem readOnto_row {α : Type} {one : Reader α} {Spelled : α → Bytes → Prop} {row : List α}
    {front : Bytes} (hrow : Row Spelled row front)
    (hone : ∀ a ∈ row, ∀ front rest, Spelled a front → one (front ++ rest) = some (a, rest))
    (done : List α) (rest : Bytes) :
    readOnto one row.length done (front ++ rest) = some (done.reverse ++ row, rest) := by
  induction hrow generalizing done with
  | nil => simp [readOnto]
  | @cons a front row more ha _ ih =>
    have hread := hone a List.mem_cons_self front (more ++ rest) ha
    have hmore := ih (fun b hb => hone b (List.mem_cons_of_mem _ hb)) (a :: done)
    simp only [List.length_cons, List.append_assoc, readOnto, hread, hmore]
    simp

theorem readPair_sound {α : Type} {one : Reader α} {Spelled : α → Bytes → Prop}
    (hone : ∀ bytes a rest, one bytes = some (a, rest) →
      ∃ front, bytes = front ++ rest ∧ Spelled a front)
    {bytes rest : Bytes} {pair : α × α} (h : readPair one bytes = some (pair, rest)) :
    ∃ front, bytes = front ++ rest ∧ Pair Spelled pair front := by
  unfold readPair at h
  cases hfirst : one bytes with
  | none =>
    rw [hfirst] at h
    cases h
  | some read =>
    obtain ⟨a, more⟩ := read
    rw [hfirst] at h
    obtain ⟨front, rfl, ha⟩ := hone bytes a more hfirst
    cases hsecond : one more with
    | none =>
      simp only [hsecond] at h
      cases h
    | some read =>
      obtain ⟨b, rest'⟩ := read
      simp only [hsecond] at h
      cases h
      obtain ⟨front', rfl, hb⟩ := hone more b rest hsecond
      exact ⟨front ++ front', by simp, .mk ha hb⟩

theorem readPair_pair {α : Type} {one : Reader α} {Spelled : α → Bytes → Prop} {pair : α × α}
    {front : Bytes} (hpair : Pair Spelled pair front)
    (hfirst : ∀ front rest, Spelled pair.1 front → one (front ++ rest) = some (pair.1, rest))
    (hsecond : ∀ front rest, Spelled pair.2 front → one (front ++ rest) = some (pair.2, rest))
    (rest : Bytes) : readPair one (front ++ rest) = some (pair, rest) := by
  obtain ⟨ha, hb⟩ := hpair
  rename_i a b front more
  unfold readPair
  rw [List.append_assoc, hfirst front _ ha]
  simp only [hsecond more rest hb]

/-! ## Lengths -/

theorem Length.Announced.heads {base limit : Nat} {widths : Widths} {b : UInt8} {length : Length}
    (hb : length.Announced base limit widths b) {n : Nat} {bytes rest : Bytes}
    (h : length.read bytes = some (n, rest)) :
    ∃ count, bytes = count ++ rest ∧ Heads base limit widths n (b :: count) := by
  obtain ⟨k, hk, rfl, rfl⟩ | ⟨width, hmem, rfl⟩ := hb
  · cases h
    exact ⟨[], rfl, .short hk⟩
  · unfold Length.read at h
    cases hsplit : bytes.split? width with
    | none =>
      simp only [hsplit] at h
      cases h
    | some parts =>
      obtain ⟨count, rest'⟩ := parts
      simp only [hsplit] at h
      cases h
      obtain ⟨rfl, rfl⟩ := Bytes.split?_eq_some_iff.mp hsplit
      exact ⟨count, rfl, .wide b count hmem rfl⟩

theorem Length.Announced.headsOf {base limit : Nat} {widths : Widths} {b : UInt8}
    {length : Length} (hb : length.Announced base limit widths b) {bytes data rest : Bytes}
    (h : length.readBytes bytes = some (data, rest)) :
    ∃ count, bytes = count ++ (data ++ rest) ∧
      Heads base limit widths data.length (b :: count) := by
  unfold Length.readBytes at h
  cases hread : length.read bytes with
  | none =>
    rw [hread] at h
    cases h
  | some read =>
    obtain ⟨n, more⟩ := read
    rw [hread] at h
    obtain ⟨count, rfl, hhead⟩ := hb.heads hread
    obtain ⟨rfl, rfl⟩ := Bytes.split?_eq_some_iff.mp h
    exact ⟨count, rfl, hhead⟩

/-! ## What is read is spelled -/

section Announced

variable {inner : Reader Value} {m : Nat} {b : UInt8} {bytes rest : Bytes} {v : Value}

theorem readArray_sound {length : Length}
    (hone : ∀ bytes v rest, inner bytes = some (v, rest) →
      ∃ front, bytes = front ++ rest ∧ Spells v front ∧ v.levels ≤ m)
    (hb : (Marker.array length).Announced b)
    (h : readAnnounced (some inner) (.array length) bytes = some (v, rest)) :
    ∃ front, b :: bytes = front ++ rest ∧ Spells v front ∧ v.levels ≤ m + 1 := by
  cases hread : length.read bytes with
  | none => simp [readAnnounced, hread] at h
  | some read =>
    obtain ⟨k, more⟩ := read
    simp only [readAnnounced, hread, Option.map_eq_some_iff, Prod.mk.injEq] at h
    obtain ⟨⟨items, rest'⟩, hmany, rfl, rfl⟩ := h
    obtain ⟨count, rfl, hhead⟩ := Length.Announced.heads hb hread
    obtain ⟨row, front, hall, rfl, rfl, hrow⟩ := readOnto_sound hone hmany
    obtain rfl : items = row := hall
    obtain ⟨hspelled, hlevels⟩ := hrow.and_left
    refine ⟨(b :: count) ++ front, by simp, .array _ front items hhead hspelled, ?_⟩
    simp only [Value.levels]
    exact Nat.succ_le_succ (levelsOfItems_le_iff.mpr hlevels)

theorem readMap_sound {length : Length}
    (hone : ∀ bytes v rest, inner bytes = some (v, rest) →
      ∃ front, bytes = front ++ rest ∧ Spells v front ∧ v.levels ≤ m)
    (hb : (Marker.map length).Announced b)
    (h : readAnnounced (some inner) (.map length) bytes = some (v, rest)) :
    ∃ front, b :: bytes = front ++ rest ∧ Spells v front ∧ v.levels ≤ m + 1 := by
  cases hread : length.read bytes with
  | none => simp [readAnnounced, hread] at h
  | some read =>
    obtain ⟨k, more⟩ := read
    simp only [readAnnounced, hread, Option.map_eq_some_iff, Prod.mk.injEq] at h
    obtain ⟨⟨entries, rest'⟩, hmany, rfl, rfl⟩ := h
    obtain ⟨count, rfl, hhead⟩ := Length.Announced.heads hb hread
    obtain ⟨row, front, hall, rfl, rfl, hrow⟩ :=
      readOnto_sound (fun _ _ _ => readPair_sound hone) hmany
    obtain rfl : entries = row := hall
    obtain ⟨hspelled, hlevels⟩ := (hrow.imp fun _ _ => Pair.and_left).and_left
    refine ⟨(b :: count) ++ front, by simp, .map _ front entries hhead hspelled, ?_⟩
    simp only [Value.levels]
    exact Nat.succ_le_succ (levelsOfEntries_le_iff.mpr hlevels)

theorem readExt_sound {length : Length} (hb : (Marker.ext length).Announced b)
    (h : readAnnounced (some inner) (.ext length) bytes = some (v, rest)) :
    ∃ front, b :: bytes = front ++ rest ∧ Spells v front ∧ v.levels ≤ m + 1 := by
  have hlevels : ∀ type data, (Value.ext type data).levels ≤ m + 1 :=
    fun _ _ => Nat.succ_le_succ (Nat.zero_le m)
  cases hread : length.read bytes with
  | none => simp [readAnnounced, hread] at h
  | some read =>
    obtain ⟨k, more⟩ := read
    cases more with
    | nil => simp [readAnnounced, hread] at h
    | cons type more =>
      simp only [readAnnounced, hread, Option.map_eq_some_iff, Prod.mk.injEq] at h
      obtain ⟨⟨data, rest'⟩, hsplit, rfl, rfl⟩ := h
      obtain ⟨rfl, rfl⟩ := Bytes.split?_eq_some_iff.mp hsplit
      cases length with
      | known size =>
        cases hread
        exact ⟨b :: type :: data, rfl, .fixext b type data hb, hlevels type data⟩
      | told width =>
        have htold : (Length.told width).Announced 0 0 extWidths b := .inr ⟨width, hb, rfl⟩
        obtain ⟨count, rfl, hhead⟩ := htold.heads hread
        exact ⟨(b :: count) ++ type :: data, by simp, .ext _ type data hhead,
          hlevels type data⟩

end Announced

theorem readAnnounced_sound {inner? : Option (Reader Value)} {n : Nat}
    (hinner : ∀ inner, inner? = some inner → ∃ m, n = m + 1 ∧ ∀ bytes v rest,
      inner bytes = some (v, rest) → ∃ front, bytes = front ++ rest ∧ Spells v front ∧ v.levels ≤ m)
    {b : UInt8} {marker : Marker} (hb : marker.Announced b) {bytes rest : Bytes} {v : Value}
    (h : readAnnounced inner? marker bytes = some (v, rest)) :
    ∃ front, b :: bytes = front ++ rest ∧ Spells v front ∧ v.levels ≤ n := by
  cases marker with
  | whole value =>
    cases h
    exact ⟨[b], rfl, hb.2, le_of_eq_of_le hb.1 (Nat.zero_le n)⟩
  | uint width =>
    simp only [readAnnounced, Option.map_eq_some_iff, Prod.mk.injEq] at h
    obtain ⟨⟨number, rest'⟩, hsplit, rfl, rfl⟩ := h
    obtain ⟨rfl, rfl⟩ := Bytes.split?_eq_some_iff.mp hsplit
    exact ⟨b :: number, rfl, .uint b number hb, Nat.zero_le _⟩
  | int width =>
    simp only [readAnnounced, Option.map_eq_some_iff, Prod.mk.injEq] at h
    obtain ⟨⟨number, rest'⟩, hsplit, rfl, rfl⟩ := h
    obtain ⟨rfl, rfl⟩ := Bytes.split?_eq_some_iff.mp hsplit
    exact ⟨b :: number, rfl, .int b number hb, Nat.zero_le _⟩
  | float width =>
    simp only [readAnnounced, Option.map_eq_some_iff, Prod.mk.injEq] at h
    obtain ⟨⟨number, rest'⟩, hsplit, rfl, rfl⟩ := h
    obtain ⟨rfl, rfl⟩ := Bytes.split?_eq_some_iff.mp hsplit
    exact ⟨b :: number, rfl, .float b number hb, Nat.zero_le _⟩
  | str length =>
    simp only [readAnnounced, Option.map_eq_some_iff, Prod.mk.injEq] at h
    obtain ⟨⟨text, rest'⟩, hread, rfl, rfl⟩ := h
    obtain ⟨count, rfl, hhead⟩ := Length.Announced.headsOf hb hread
    exact ⟨(b :: count) ++ text, by simp, .str _ text hhead, Nat.zero_le _⟩
  | bin length =>
    simp only [readAnnounced, Option.map_eq_some_iff, Prod.mk.injEq] at h
    obtain ⟨⟨data, rest'⟩, hread, rfl, rfl⟩ := h
    obtain ⟨count, rfl, hhead⟩ := Length.Announced.headsOf hb hread
    exact ⟨(b :: count) ++ data, by simp, .bin _ data hhead, Nat.zero_le _⟩
  | array length =>
    cases inner? with
    | none => cases h
    | some inner =>
      obtain ⟨m, rfl, hone⟩ := hinner inner rfl
      exact readArray_sound hone hb h
  | map length =>
    cases inner? with
    | none => cases h
    | some inner =>
      obtain ⟨m, rfl, hone⟩ := hinner inner rfl
      exact readMap_sound hone hb h
  | ext length =>
    cases inner? with
    | none => cases h
    | some inner =>
      obtain ⟨m, rfl, -⟩ := hinner inner rfl
      exact readExt_sound hb h
  | reserved => cases h

theorem readWith_sound {inner? : Option (Reader Value)} {n : Nat}
    (hinner : ∀ inner, inner? = some inner → ∃ m, n = m + 1 ∧ ∀ bytes v rest,
      inner bytes = some (v, rest) → ∃ front, bytes = front ++ rest ∧ Spells v front ∧ v.levels ≤ m)
    {bytes rest : Bytes} {v : Value} (h : readWith inner? bytes = some (v, rest)) :
    ∃ front, bytes = front ++ rest ∧ Spells v front ∧ v.levels ≤ n := by
  cases bytes with
  | nil => cases h
  | cons b bytes => exact readAnnounced_sound hinner (announced_ofByte b) h

theorem readNested_sound {n : Nat} {bytes rest : Bytes} {v : Value}
    (h : readNested n bytes = some (v, rest)) :
    ∃ front, bytes = front ++ rest ∧ Spells v front ∧ v.levels ≤ n := by
  induction n generalizing bytes v rest with
  | zero => exact readWith_sound (by simp) h
  | succ n ih =>
    refine readWith_sound (n := n + 1) ?_ h
    intro inner hinner
    cases hinner
    exact ⟨n, rfl, fun _ _ _ => ih⟩

/-! ## What is spelled is read -/

theorem Heads.reads {base limit : Nat} {widths : Widths} {n : Nat} {head : Bytes}
    (h : Heads base limit widths n head) (announce : Length → Marker)
    (hshort : ∀ k, k < limit → Marker.ofByte (UInt8.ofNat (base + k)) = announce (.known k))
    (hwide : ∀ w ∈ widths, Marker.ofByte w.1 = announce (.told w.2)) :
    ∃ b count length, head = b :: count ∧ Marker.ofByte b = announce length ∧
      ∀ rest, length.read (count ++ rest) = some (n, rest) := by
  cases h with
  | short hlt => exact ⟨_, [], .known n, rfl, hshort n hlt, fun rest => rfl⟩
  | wide marker count hmem hn =>
    refine ⟨marker, count, .told count.length, rfl, hwide _ hmem, fun rest => ?_⟩
    simp only [Length.read, Bytes.split?_append, hn]

theorem ofByte_uintWidths : ∀ w ∈ uintWidths, Marker.ofByte w.1 = .uint w.2 := by
  simp only [uintWidths, List.forall_mem_cons]
  exact ⟨rfl, rfl, rfl, rfl, by simp⟩

theorem ofByte_intWidths : ∀ w ∈ intWidths, Marker.ofByte w.1 = .int w.2 := by
  simp only [intWidths, List.forall_mem_cons]
  exact ⟨rfl, rfl, rfl, rfl, by simp⟩

theorem ofByte_floatWidths : ∀ w ∈ floatWidths, Marker.ofByte w.1 = .float w.2 := by
  simp only [floatWidths, List.forall_mem_cons]
  exact ⟨rfl, rfl, by simp⟩

theorem ofByte_strWidths : ∀ w ∈ strWidths, Marker.ofByte w.1 = .str (.told w.2) := by
  simp only [strWidths, List.forall_mem_cons]
  exact ⟨rfl, rfl, rfl, by simp⟩

theorem ofByte_binWidths : ∀ w ∈ binWidths, Marker.ofByte w.1 = .bin (.told w.2) := by
  simp only [binWidths, List.forall_mem_cons]
  exact ⟨rfl, rfl, rfl, by simp⟩

theorem ofByte_arrayWidths : ∀ w ∈ arrayWidths, Marker.ofByte w.1 = .array (.told w.2) := by
  simp only [arrayWidths, List.forall_mem_cons]
  exact ⟨rfl, rfl, by simp⟩

theorem ofByte_mapWidths : ∀ w ∈ mapWidths, Marker.ofByte w.1 = .map (.told w.2) := by
  simp only [mapWidths, List.forall_mem_cons]
  exact ⟨rfl, rfl, by simp⟩

theorem ofByte_extWidths : ∀ w ∈ extWidths, Marker.ofByte w.1 = .ext (.told w.2) := by
  simp only [extWidths, List.forall_mem_cons]
  exact ⟨rfl, rfl, rfl, by simp⟩

theorem ofByte_extSizes : ∀ w ∈ extSizes, Marker.ofByte w.1 = .ext (.known w.2) := by
  simp only [extSizes, List.forall_mem_cons]
  exact ⟨rfl, rfl, rfl, rfl, rfl, by simp⟩

/-- A spelled value is read when it has no values inside, or the values inside are read. -/
theorem readWith_spells {inner? : Option (Reader Value)} {v : Value} {front : Bytes}
    (h : Spells v front)
    (hinner : v.levels = 0 ∨ ∃ inner m, inner? = some inner ∧ v.levels ≤ m + 1 ∧
      ∀ w front rest, Spells w front → w.levels ≤ m → inner (front ++ rest) = some (w, rest))
    (rest : Bytes) : readWith inner? (front ++ rest) = some (v, rest) := by
  cases h with
  | nil => rfl
  | no => rfl
  | yes => rfl
  | small n hn => simp only [List.singleton_append, readWith, ofByte_uint n hn, readAnnounced]
  | uint marker number hmem =>
    simp only [List.cons_append, readWith, ofByte_uintWidths _ hmem, readAnnounced,
      Bytes.split?_append, Option.map_some]
  | minus n hn h0 => simp only [List.singleton_append, readWith, ofByte_int n hn h0, readAnnounced]
  | int marker number hmem =>
    simp only [List.cons_append, readWith, ofByte_intWidths _ hmem, readAnnounced,
      Bytes.split?_append, Option.map_some]
  | float marker number hmem =>
    simp only [List.cons_append, readWith, ofByte_floatWidths _ hmem, readAnnounced,
      Bytes.split?_append, Option.map_some]
  | str head text hhead =>
    obtain ⟨b, count, length, rfl, hb, hlength⟩ := hhead.reads .str ofByte_str ofByte_strWidths
    have hread := readBytes_of_read length _ text rest (hlength (text ++ rest))
    simp only [List.cons_append, List.append_assoc, readWith, hb, readAnnounced, hread,
      Option.map_some]
  | bin head data hhead =>
    obtain ⟨b, count, length, rfl, hb, hlength⟩ :=
      hhead.reads .bin (fun k hk => absurd hk (Nat.not_lt_zero k)) ofByte_binWidths
    have hread := readBytes_of_read length _ data rest (hlength (data ++ rest))
    simp only [List.cons_append, List.append_assoc, readWith, hb, readAnnounced, hread,
      Option.map_some]
  | array head body items hhead hitems =>
    obtain h0 | ⟨inner, m, rfl, hm, hone⟩ := hinner
    · exact absurd h0 (Nat.succ_ne_zero _)
    obtain ⟨b, count, length, rfl, hb, hlength⟩ :=
      hhead.reads .array ofByte_array ofByte_arrayWidths
    have hlevels := levelsOfItems_le_iff.mp (Nat.le_of_succ_le_succ hm)
    have hmany : readMany inner items.length (body ++ rest) = some (items, rest) :=
      readOnto_row hitems (fun w hw front rest hspelled =>
        hone w front rest hspelled (hlevels w hw)) [] rest
    simp only [List.cons_append, List.append_assoc, readWith, hb, readAnnounced, hlength, hmany,
      Option.map_some]
  | map head body entries hhead hentries =>
    obtain h0 | ⟨inner, m, rfl, hm, hone⟩ := hinner
    · exact absurd h0 (Nat.succ_ne_zero _)
    obtain ⟨b, count, length, rfl, hb, hlength⟩ := hhead.reads .map ofByte_map ofByte_mapWidths
    have hlevels := levelsOfEntries_le_iff.mp (Nat.le_of_succ_le_succ hm)
    have hmany : readMany (readPair inner) entries.length (body ++ rest) = some (entries, rest) :=
      readOnto_row hentries (fun entry hentry front rest hspelled =>
        readPair_pair hspelled
          (fun front rest hkey => hone _ front rest hkey (hlevels entry hentry).1)
          (fun front rest hvalue => hone _ front rest hvalue (hlevels entry hentry).2) rest)
        [] rest
    simp only [List.cons_append, List.append_assoc, readWith, hb, readAnnounced, hlength, hmany,
      Option.map_some]
  | ext head type data hhead =>
    obtain h0 | ⟨inner, m, rfl, -⟩ := hinner
    · exact absurd h0 Nat.one_ne_zero
    obtain ⟨b, count, length, rfl, hb, hlength⟩ :=
      hhead.reads .ext (fun k hk => absurd hk (Nat.not_lt_zero k)) ofByte_extWidths
    simp only [List.cons_append, List.append_assoc, readWith, hb, readAnnounced, hlength,
      Bytes.split?_append, Option.map_some]
  | fixext marker type data hmem =>
    obtain h0 | ⟨inner, m, rfl, -⟩ := hinner
    · exact absurd h0 Nat.one_ne_zero
    simp only [List.cons_append, readWith, ofByte_extSizes _ hmem, readAnnounced, Length.read,
      Bytes.split?_append, Option.map_some]

theorem readNested_spells {n : Nat} {v : Value} {front : Bytes} (h : Spells v front)
    (hn : v.levels ≤ n) (rest : Bytes) : readNested n (front ++ rest) = some (v, rest) := by
  induction n generalizing v front rest with
  | zero => exact readWith_spells h (.inl (Nat.le_zero.mp hn)) rest
  | succ n ih =>
    exact readWith_spells h (.inr ⟨_, n, rfl, hn, fun w front rest hw hle => ih hw hle rest⟩) rest

/-! ## The grammar and the reader agree -/

/-- The reader takes exactly the spellings of the values that nest no deeper than it goes, and
leaves what follows. -/
theorem readNested_eq_some_iff {n : Nat} {bytes rest : Bytes} {v : Value} :
    readNested n bytes = some (v, rest) ↔
      ∃ front, bytes = front ++ rest ∧ Spells v front ∧ v.levels ≤ n := by
  constructor
  · exact readNested_sound
  · rintro ⟨front, rfl, hspells, hlevels⟩
    exact readNested_spells hspells hlevels rest

/-- Of what spells a value no part before its end spells one. -/
theorem read_prefix_eq_none {v : Value} {whole before after : Bytes} (h : read whole = some (v, []))
    (hwhole : whole = before ++ after) (hafter : after ≠ []) : read before = none := by
  cases hread : read before with
  | none => rfl
  | some result =>
    obtain ⟨w, rest⟩ := result
    obtain ⟨front, rfl, hspells, hlevels⟩ := readNested_sound hread
    have hmore : read (front ++ (rest ++ after)) = some (w, rest ++ after) :=
      readNested_spells hspells hlevels (rest ++ after)
    rw [← List.append_assoc, ← hwhole, h] at hmore
    simp only [Option.some.injEq, Prod.mk.injEq, List.nil_eq, List.append_eq_nil_iff] at hmore
    exact absurd hmore.2.2 hafter

end ProcessTree.MessagePack
