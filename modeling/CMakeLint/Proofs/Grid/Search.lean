import CMakeLint.Proofs.Grid.Highlight
import Mathlib.Data.Nat.Find

/-!
Searching a grid. Its cells spell its rows with newlines in between (`characters_text`), and the place of a cell tells how many
cells are before it (`isPlace_of_character`). What is found is where the cells spell the text for the first time, and it is a range
that can be styled (`find_first_place`). Nothing that ends the grid is found, not even the text of the whole grid, so the search
misses exactly the texts that occur at the end of the grid only (`find_isSome_iff`).
-/
namespace CMakeLint.Grid

/-! ### Cells and their places -/

/-- The rows of a grid as one text. -/
def text (g : Grid) : Text :=
  Text.unlines g.texts

/-- A place holds the cell with a number in reading order: before it are the rows above, each with its newline, and what is to its
    left. The newline of a row stands after its last cell. -/
def IsPlace (g : Grid) (k row column : Nat) : Prop :=
  ∃ above line below, g.texts = above ++ line :: below ∧ row = above.length + 1 ∧ 1 ≤ column ∧ column ≤ line.length + 1 ∧
    k + 1 = (above.flatMap (· ++ ['\n'])).length + column

theorem locateRow_getElem? (row column : Nat) (cells : List Cell) (k : Nat) :
    (locateRow row column cells)[k]? = cells[k]?.map fun cell => ⟨row, column + k, cell.char⟩ := by
  induction cells generalizing column k with
  | nil => rfl
  | cons cell rest ih =>
    rw [locateRow]
    cases k with
    | zero => rfl
    | succ k =>
      rw [List.getElem?_cons_succ, List.getElem?_cons_succ, ih, Nat.add_assoc, Nat.add_comm 1 k]

theorem length_locateRow (row column : Nat) (cells : List Cell) : (locateRow row column cells).length = cells.length := by
  induction cells generalizing column with
  | nil => rfl
  | cons cell rest ih => rw [locateRow, List.length_cons, List.length_cons, ih]

theorem locateRow_chars (row column : Nat) (cells : List Cell) :
    (locateRow row column cells).map (·.char) = cells.map Cell.char := by
  induction cells generalizing column with
  | nil => rfl
  | cons cell rest ih => rw [locateRow, List.map_cons, List.map_cons, ih]

theorem locateRows_chars (row : Nat) (rows : List (List Cell)) :
    (locateRows row rows).map (·.char) = Text.unlines (rows.map (·.map Cell.char)) := by
  induction rows generalizing row with
  | nil => rfl
  | cons cells rest ih =>
    rw [locateRows_cons, List.map_append, locateRow_chars, List.map_cons]
    by_cases last : rest = []
    · rw [if_pos last, last, List.map_nil, List.map_nil, Text.unlines_singleton, List.append_nil]
    · rw [if_neg last, Text.unlines_cons _ (by simpa using last), List.map_cons, ih]

/-- The cells of a grid spell its rows. -/
theorem characters_text (g : Grid) : g.characters.map (·.char) = g.text :=
  locateRows_chars 1 g.rows

theorem locateRows_place {row k : Nat} {rows : List (List Cell)} {a : Located} (char : (locateRows row rows)[k]? = some a) :
    ∃ above line below, rows.map (·.map Cell.char) = above ++ line :: below ∧ a.row = row + above.length ∧ 1 ≤ a.column ∧
      a.column ≤ line.length + 1 ∧ k + 1 = (above.flatMap (· ++ ['\n'])).length + a.column := by
  -- on the rows; what is left of the number of a cell after the first row is its number in the rows below
  induction rows generalizing row k with
  | nil => simp [locateRows] at char
  | cons cells rest ih =>
    rw [locateRows_cons] at char
    by_cases here : k < cells.length
    · rw [List.getElem?_append_left (by rwa [length_locateRow]), locateRow_getElem?] at char
      obtain ⟨cell, _, rfl⟩ := Option.map_eq_some_iff.mp char
      refine ⟨[], _, _, List.map_cons, rfl, Nat.le_add_right 1 k, ?_, Nat.add_comm _ _ ▸ (Nat.zero_add _).symm⟩
      rw [List.length_map]
      simp only
      omega
    · rw [List.getElem?_append_right (by rw [length_locateRow]; omega), length_locateRow] at char
      by_cases last : rest = []
      · simp [last] at char
      · rw [if_neg last] at char
        cases after : k - cells.length with
        | zero =>
          rw [after, List.getElem?_cons_zero] at char
          cases char
          refine ⟨[], _, _, List.map_cons, rfl, Nat.le_add_right 1 _, ?_, ?_⟩
          · rw [List.length_map]
            simp only
            omega
          · simp only [List.flatMap_nil, List.length_nil]
            omega
        | succ m =>
          rw [after, List.getElem?_cons_succ] at char
          obtain ⟨above, line, below, split, rowEq, positive, inside, number⟩ := ih char
          refine ⟨cells.map Cell.char :: above, line, below, ?_, ?_, positive, inside, ?_⟩
          · rw [List.map_cons, split]
            rfl
          · rw [rowEq, List.length_cons]
            omega
          · simp only [List.flatMap_cons, List.length_append, List.length_map, List.length_singleton]
            omega

/-- The coordinates of a cell are its place. -/
theorem isPlace_of_character {g : Grid} {k : Nat} {a : Located} (char : g.characters[k]? = some a) :
    g.IsPlace k a.row a.column := by
  obtain ⟨above, line, below, split, row, positive, inside, number⟩ := locateRows_place char
  exact ⟨above, line, below, split, by omega, positive, inside, number⟩

/-! ### What is found -/

theorem IsPlace.column_pos {g : Grid} {k row column : Nat} (place : g.IsPlace k row column) : 1 ≤ column := by
  obtain ⟨_, _, _, _, _, positive, _⟩ := place
  exact positive

/-- What is found in a grid is the first place where its cells spell the text, from the cell where the text begins to the cell where
    it ends. So it begins in a row and a column, does not end before it begins, and can always be styled. -/
theorem find_first_place {g : Grid} {t : Text} {region : Region} (found : g.find? t = some region) :
    (normalize t ≠ [] ∧ ∃ k, normalize t <+: g.text.drop k ∧ (∀ j < k, ¬ normalize t <+: g.text.drop j) ∧
      g.IsPlace k region.firstRow region.firstColumn ∧
      g.IsPlace (k + (normalize t).length - 1) region.lastRow region.lastColumn) ∧
    (1 ≤ region.firstRow ∧ region.firstRow ≤ region.lastRow ∧ 1 ≤ region.firstColumn ∧ 1 ≤ region.lastColumn ∧
      (region.firstRow < region.lastRow ∨ region.firstColumn ≤ region.lastColumn)) ∧
    ∀ style colour, ∃ g', g.styleRange (.ofRegion region) style colour = .ok () g' := by
  have ordered := find_ordered found
  obtain ⟨nonempty, k, here, last, ⟨occurs, _, first⟩, char, char', rfl⟩ := find_eq_some_iff.mp found
  rw [characters_text] at occurs first
  have start := isPlace_of_character char
  have stop := isPlace_of_character char'
  refine ⟨⟨nonempty, k, occurs, first, start, stop⟩, ?_, ?_⟩
  · refine ⟨ordered.row, ordered.rows, ordered.column, stop.column_pos, ?_⟩
    rcases Nat.lt_or_eq_of_le ordered.rows with above | same
    · exact .inl above
    · exact .inr (ordered.columns same)
  · intro style colour
    exact ⟨_, g.styleRange_eq style colour (Int.ofNat_le.mpr ordered.column) ordered.valid⟩

/-- Two newlines and a letter are found from the end of the first row to the third one, past a row without cells. -/
theorem found_over_empty_row :
    (ofText "a\n\nb\n\nbc".toList [] none).find? "\r\n\nb".toList = some ⟨1, 2, 3, 1⟩ ∧
      (ofText "a\n\nb\n\nbc".toList [] none).IsPlace 1 1 2 ∧ (ofText "a\n\nb\n\nbc".toList [] none).IsPlace 3 3 1 := by
  have found : (ofText "a\n\nb\n\nbc".toList [] none).find? "\r\n\nb".toList = some ⟨1, 2, 3, 1⟩ := by decide +kernel
  have text : (ofText "a\n\nb\n\nbc".toList [] none).text = "a\n\nb\n\nbc".toList := by decide +kernel
  have piece : normalize "\r\n\nb".toList = "\n\nb".toList := by decide +kernel
  obtain ⟨⟨_, k, occurs, first, start, stop⟩, _⟩ := find_first_place found
  rw [text, piece] at occurs first
  rw [piece] at stop
  obtain rfl : k = 1 := by
    rcases Nat.lt_trichotomy k 1 with less | same | greater
    · obtain rfl : k = 0 := by omega
      exact absurd occurs (by decide +kernel)
    · exact same
    · exact absurd (by decide +kernel) (first 1 greater)
  exact ⟨found, start, stop⟩

/-! ### What is missed -/

/-- A piece of text occurs in a text, but only at its very end. -/
def OccursLast (piece t : Text) : Prop :=
  piece <:+: t ∧ ∀ before after, t = before ++ piece ++ after → after = []

/-- There is a first occurrence that is not at the end if there is any such occurrence. -/
theorem exists_firstWithin_iff {piece t : Text} :
    (∃ k, FirstWithin piece t k) ↔ ∃ before after, t = before ++ piece ++ after ∧ after ≠ [] := by
  classical
  constructor
  · rintro ⟨k, ⟨after, split⟩, more, _⟩
    refine ⟨t.take k, after, ?_, ?_⟩
    · rw [List.append_assoc, split, List.take_append_drop]
    · rintro rfl
      have length := congrArg List.length split
      rw [List.append_nil, List.length_drop] at length
      omega
  · rintro ⟨before, after, rfl, nonempty⟩
    have occurs : ∃ k, piece <+: (before ++ piece ++ after).drop k := by
      refine ⟨before.length, ?_⟩
      rw [List.append_assoc, List.drop_left]
      exact List.prefix_append _ _
    have upto : Nat.find occurs ≤ before.length := by
      refine Nat.find_min' occurs ?_
      rw [List.append_assoc, List.drop_left]
      exact List.prefix_append _ _
    refine ⟨Nat.find occurs, Nat.find_spec occurs, ?_, fun j less => Nat.find_min occurs less⟩
    have positive := List.length_pos_iff.mpr nonempty
    rw [List.length_append, List.length_append]
    omega

theorem find_ofText_isSome {t indent piece : Text} {lineNumber : Option Int} (nonempty : piece ≠ []) :
    ((ofText t indent lineNumber).find? piece).isSome ↔ ∃ k, FirstWithin (normalize piece) (normalize t) k := by
  rw [Option.isSome_iff_exists]
  constructor
  · rintro ⟨region, found⟩
    obtain ⟨k, first, _⟩ := (find_ofText_iff (mt normalize_eq_nil_iff.mp nonempty)).mp found
    exact ⟨k, first⟩
  · rintro ⟨k, first⟩
    exact ⟨_, (find_ofText_iff (mt normalize_eq_nil_iff.mp nonempty)).mpr ⟨k, first, rfl⟩⟩

/-- A text is found in the grid of a text exactly if it occurs there with something after it. So a text that occurs is found unless
    it occurs at the very end only. -/
theorem find_isSome_iff (t indent : Text) (lineNumber : Option Int) {piece : Text} (nonempty : piece ≠ []) :
    (((ofText t indent lineNumber).find? piece).isSome ↔
      ∃ before after, normalize t = before ++ normalize piece ++ after ∧ after ≠ []) ∧
    ((((ofText t indent lineNumber).find? piece).isSome ↔ normalize piece <:+: normalize t) ↔
      ¬ OccursLast (normalize piece) (normalize t)) := by
  have found : ((ofText t indent lineNumber).find? piece).isSome ↔
      ∃ before after, normalize t = before ++ normalize piece ++ after ∧ after ≠ [] :=
    (find_ofText_isSome nonempty).trans exists_firstWithin_iff
  refine ⟨found, ?_⟩
  rw [found, OccursLast]
  constructor
  · rintro same ⟨occurs, last⟩
    obtain ⟨before, after, split, more⟩ := same.mpr occurs
    exact more (last before after split)
  · intro notLast
    constructor
    · rintro ⟨before, after, split, _⟩
      exact ⟨before, after, split.symm⟩
    · intro occurs
      by_contra missed
      refine notLast ⟨occurs, ?_⟩
      intro before after split
      by_contra more
      exact missed ⟨before, after, split, more⟩

/-- The last letter of a grid and the whole of it are not found, although they occur. -/
theorem last_letter_not_found : "b".toList ≠ [] ∧ (ofText "ab".toList [] none).find? "b".toList = none ∧
    normalize "b".toList <:+: normalize "ab".toList ∧ OccursLast (normalize "b".toList) (normalize "ab".toList) ∧
    (ofText "ab".toList [] none).find? "ab".toList = none ∧ OccursLast (normalize "ab".toList) (normalize "ab".toList) := by
  have missed : ∀ piece : Text, piece ≠ [] → (ofText "ab".toList [] none).find? piece = none →
      normalize piece <:+: normalize "ab".toList → OccursLast (normalize piece) (normalize "ab".toList) := by
    intro piece nonempty notFound occurs
    by_contra elsewhere
    have found := ((find_isSome_iff "ab".toList [] none nonempty).2.mpr elsewhere).mpr occurs
    rw [notFound] at found
    cases found
  have last : (ofText "ab".toList [] none).find? "b".toList = none := by decide +kernel
  have whole : (ofText "ab".toList [] none).find? "ab".toList = none := by decide +kernel
  have occurs : normalize "b".toList <:+: normalize "ab".toList := by decide +kernel
  exact ⟨by decide, last, occurs, missed _ (by decide) last occurs, whole, missed _ (by decide) whole (List.infix_refl _)⟩

end CMakeLint.Grid
