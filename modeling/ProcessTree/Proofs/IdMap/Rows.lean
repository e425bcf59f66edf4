-- What the text of an id map says. Cut into lines and these at their spaces, it
-- is a row of three decimal numbers for each line of the map, and there is no
-- other map that it could be read as. In their order the words are what a helper
-- program is told, so a map is the same in its file and for its helper.
import ProcessTree.Proofs.IdMap.Writing
import ProcessTree.Proofs.Text.Numeral

namespace ProcessTree

/-! ## Lines and words -/

namespace Text

/-- The lines of a text: line breaks end them, so that behind the last line break there is a line
only if there is something. -/
def lines (chars : List Char) : List (List Char) :=
  let pieces := chars.splitOn '\n'
  if pieces.getLast? = some [] then pieces.dropLast else pieces

/-- The words of a text, line by line: what stands between the spaces of a line. -/
def rows (text : String) : List (List String) :=
  (lines text.toList).map fun line => (line.splitOn ' ').map String.ofList

/-- A text of rows: a space between two words and a line break behind each row. -/
def ofRows (rows : List (List String)) : String :=
  String.join (rows.map fun row => String.intercalate " " row ++ "\n")

/-- What ends each piece stands between the pieces, with nothing behind the last. -/
theorem intercalate_ended {α : Type} (sep : α) (pieces : List (List α)) :
    [sep].intercalate (pieces ++ [[]]) = pieces.flatMap (· ++ [sep]) := by
  induction pieces with
  | nil => simp
  | cons piece pieces ih =>
    rw [List.cons_append, List.intercalate_cons_of_ne_nil (by simp), ih, List.flatMap_cons]

theorem notMem_intercalate {α : Type} {a : α} {sep : List α} {pieces : List (List α)}
    (hsep : a ∉ sep) (hpieces : ∀ piece ∈ pieces, a ∉ piece) : a ∉ sep.intercalate pieces := by
  induction pieces with
  | nil => simp
  | cons piece pieces ih =>
    rw [List.forall_mem_cons] at hpieces
    by_cases hnil : pieces = []
    · rw [hnil, List.intercalate_singleton]
      exact hpieces.1
    · rw [List.intercalate_cons_of_ne_nil hnil]
      simp only [List.mem_append, not_or]
      exact ⟨⟨hpieces.1, hsep⟩, ih hpieces.2⟩

/-- Pieces without line breaks are the lines of the text in which a line break ends each. -/
theorem lines_ended {pieces : List (List Char)} (h : ∀ piece ∈ pieces, '\n' ∉ piece) :
    lines (pieces.flatMap (· ++ ['\n'])) = pieces := by
  have hall : ∀ piece ∈ pieces ++ [[]], '\n' ∉ piece := by
    intro piece hpiece
    rcases List.mem_append.mp hpiece with hpiece | hpiece
    · exact h piece hpiece
    · rw [List.mem_singleton.mp hpiece]
      exact List.not_mem_nil
  have hsplit := List.splitOn_intercalate '\n' hall (by simp)
  rw [intercalate_ended] at hsplit
  unfold lines
  simp only [hsplit, List.getLast?_concat, List.dropLast_concat, if_true]

/-- The rows of a text are the rows that it was made of, where no word has a space or a line break
in it and no row is without words. -/
theorem rows_ofRows {rows : List (List String)}
    (h : ∀ row ∈ rows, row ≠ [] ∧ ∀ word ∈ row, ' ' ∉ word.toList ∧ '\n' ∉ word.toList) :
    Text.rows (ofRows rows) = rows := by
  have hchars : (ofRows rows).toList =
      (rows.map fun row => [' '].intercalate (row.map String.toList)).flatMap (· ++ ['\n']) := by
    unfold ofRows
    simp [List.flatMap_map]
  have hlines : ∀ line ∈ rows.map fun row => [' '].intercalate (row.map String.toList),
      '\n' ∉ line := by
    intro line hline
    obtain ⟨row, hrow, rfl⟩ := List.mem_map.mp hline
    apply notMem_intercalate (by decide)
    intro piece hpiece
    obtain ⟨word, hword, rfl⟩ := List.mem_map.mp hpiece
    exact ((h row hrow).2 word hword).2
  have hwords : ∀ row ∈ rows, (([' '].intercalate (row.map String.toList)).splitOn ' ').map
      String.ofList = row := by
    intro row hrow
    obtain ⟨hsome, hplain⟩ := h row hrow
    rw [List.splitOn_intercalate ' ' (by simpa using fun word hword => (hplain word hword).1)
      (by simpa using hsome)]
    simp
  unfold Text.rows
  rw [hchars, lines_ended hlines, List.map_map]
  calc rows.map _ = rows.map id := List.map_congr_left hwords
    _ = rows := List.map_id rows

end Text

/-! ## The rows of a map -/

namespace IdMapping

/-- Words are a line of a map: three of them, the decimal digits of its numbers. -/
def IsRow (row : List String) (m : IdMapping) : Prop :=
  ∃ childStart hostStart length, row = [childStart, hostStart, length] ∧
    Numeral.DecimalDigits childStart.toList m.childStart.toNat ∧
    Numeral.DecimalDigits hostStart.toList m.hostStart.toNat ∧
    Numeral.DecimalDigits length.toList m.length.toNat

theorem isRow_words (m : IdMapping) : IsRow m.words m :=
  ⟨_, _, _, rfl, Numeral.decimalDigits_decimal _, Numeral.decimalDigits_decimal _,
    Numeral.decimalDigits_decimal _⟩

/-- A row is that of one line only. -/
theorem isRow_unique : Relator.RightUnique IsRow := by
  rintro row m m' ⟨a, b, c, rfl, ha, hb, hc⟩ ⟨a', b', c', heq, ha', hb', hc'⟩
  simp only [List.cons.injEq, and_true] at heq
  obtain ⟨rfl, rfl, rfl⟩ := heq
  cases m
  cases m'
  simp only [mk.injEq]
  exact ⟨UInt32.toNat_inj.mp (ha.unique ha'), UInt32.toNat_inj.mp (hb.unique hb'),
    UInt32.toNat_inj.mp (hc.unique hc')⟩

/-- The words of a line are digits throughout. -/
theorem isDigit_of_mem_words {m : IdMapping} {word : String} (h : word ∈ m.words) :
    ∀ c ∈ word.toList, c.isDigit = true := by
  obtain ⟨n, -, rfl⟩ := List.mem_map.mp h
  intro c hc
  exact Numeral.isDigit_of_mem_decimal hc

end IdMapping

namespace IdMap

/-- The text of a map is that of its words, line by line. -/
theorem text_eq_ofRows (map : IdMap) : map.text = Text.ofRows (map.map IdMapping.words) := by
  unfold text Text.ofRows
  rw [List.map_map]
  rfl

theorem rows_text (map : IdMap) : Text.rows map.text = map.map IdMapping.words := by
  rw [text_eq_ofRows]
  apply Text.rows_ofRows
  intro row hrow
  obtain ⟨m, -, rfl⟩ := List.mem_map.mp hrow
  refine ⟨by simp [IdMapping.words], ?_⟩
  intro word hword
  have hdigit := IdMapping.isDigit_of_mem_words hword
  constructor
  · intro hspace
    exact absurd (hdigit ' ' hspace) (by decide)
  · intro hbreak
    exact absurd (hdigit '\n' hbreak) (by decide)

example : Text.rows "0 1000 1\n1 100000 65536\n" =
    [["0", "1000", "1"], ["1", "100000", "65536"]] := by
  cbv

/-- The rows of a text of a map are the rows of this map and of no other. -/
theorem isRow_rows_text_iff (map other : IdMap) :
    List.Forall₂ IdMapping.IsRow (Text.rows map.text) other ↔ other = map := by
  have hown : List.Forall₂ IdMapping.IsRow (Text.rows map.text) map := by
    rw [rows_text, List.forall₂_map_left_iff, List.forall₂_same]
    intro m _
    exact m.isRow_words
  constructor
  · intro h
    exact IdMapping.isRow_unique.forall₂ h hown
  · rintro rfl
    exact hown

end IdMap

/-! ## The law -/

/-- A call for a map has the map's text for its file, and the map's words for its helper. -/
theorem Planned.told {w : MapWriter} {directory : OsText} {kind : IdKind} {map : IdMap}
    {calls : List MapCall} (h : Planned w directory kind map calls) :
    ∀ call ∈ calls,
      (∀ file content, call = .write file content →
        file = setgroupsFile ∨ file = kind.file ∧ content = map.text) ∧
      ∀ helped args, call = .run helped args →
        helped = kind ∧ args = directory.fileName :: map.words := by
  cases h <;> simp [setgroupsFile, IdKind.file]

namespace MapSystem

variable {σ : Type} (system : MapSystem σ)

/-- The text of a map has a row of three decimal numbers for each of its lines, in their order, and
is the text of no other map: not even of one with more lines or fewer. All its words, one after the
other, are the words of the map. Whoever writes the map, on whatever system, a file of maps gets
this text, and a helper gets these words behind the name of the directory. -/
theorem a_map_is_the_same_in_its_file_and_for_its_helper (w : MapWriter) (directory : OsText)
    (s : σ) (kind : IdKind) (map : IdMap) :
    (∀ other : IdMap, List.Forall₂ IdMapping.IsRow (Text.rows map.text) other ↔ other = map) ∧
      (∀ other : IdMap, other.text = map.text ↔ other = map) ∧
      (Text.rows map.text).flatten = map.words ∧
      ∀ event ∈ (system.logged.writeMapIfAny w directory (s, []) kind map).1.2,
        (∀ file content, event.call = .write file content →
          file = setgroupsFile ∨ file = kind.file ∧ content = map.text) ∧
        ∀ helped args, event.call = .run helped args →
          helped = kind ∧ args = directory.fileName :: (Text.rows map.text).flatten := by
  have hwords : (Text.rows map.text).flatten = map.words := by
    rw [IdMap.rows_text]
    rfl
  refine ⟨map.isRow_rows_text_iff, ?_, hwords, ?_⟩
  · intro other
    constructor
    · intro htext
      rw [← IdMap.isRow_rows_text_iff map other, ← htext, IdMap.isRow_rows_text_iff]
    · rintro rfl
      rfl
  · obtain ⟨events, after, result, hfollows, -, hlogged⟩ := system.performAll_logged s []
      ((w.actions kind map).flatMap (MapAction.calls directory))
    rw [← writeMapIfAny_eq_performAll] at hlogged
    rw [hlogged, hwords]
    exact hfollows.forall_call (w.planned_actions directory kind map).told

/-- A user without rights maps other ids than the own one: the helper is run with the words that the
file would have. -/
theorem a_helper_is_told_the_words_of_the_file :
    ∃ args answer,
      MapEvent.ran .user args answer ∈ (MapDirectory.system.logged.writeMapIfAny
        ⟨1000, 1000, false, false⟩ (.ofText "4242")
        (⟨.ofText "4242", .own [], fun _ => .ends ⟨0⟩, [], []⟩, []) .user
        [⟨0, 1000, 1⟩, ⟨1, 100000, 65536⟩]).1.2 ∧
      args = (OsText.ofText "4242").fileName ::
        (Text.rows (IdMap.text [⟨0, 1000, 1⟩, ⟨1, 100000, 65536⟩])).flatten := by
  obtain ⟨-, -, -, hlog⟩ :=
    MapDirectory.system.a_map_is_the_same_in_its_file_and_for_its_helper
      ⟨1000, 1000, false, false⟩ (.ofText "4242")
      ⟨.ofText "4242", .own [], fun _ => .ends ⟨0⟩, [], []⟩ .user
      [⟨0, 1000, 1⟩, ⟨1, 100000, 65536⟩]
  refine ⟨_, .ok ⟨0⟩, List.mem_cons_of_mem _ List.mem_cons_self, ?_⟩
  exact ((hlog _ (List.mem_cons_of_mem _ List.mem_cons_self)).2 .user _ rfl).2

end MapSystem

end ProcessTree
