import CMakeLint.Proofs.Grid.Highlight

/-!
Ranges that are refused. Cells are styled one by one and nothing is taken back, so a refusal could leave some of them styled. It does
not: the offsets of a row go up, so if one of them has no place in the row then the first one has none (`styleCells_fails_iff`), and
only the first row of a range starts elsewhere than at its first cell (`styleRows_fails_iff`). A range is refused before any cell is
styled or not at all (`styleRange_fails_iff`).
-/
namespace CMakeLint.Grid

/-! ### One row -/

theorem place_eq_none_iff {length : Nat} {offset : Int} : place? length offset = none ↔ offset < -(length : Int) := by
  unfold place?
  by_cases right : 0 ≤ offset
  · rw [if_pos right]
    exact iff_of_false (by simp) (by omega)
  · rw [if_neg right]
    by_cases left : -(length : Int) ≤ offset
    · rw [if_pos left]
      exact iff_of_false (by simp) (by omega)
    · rw [if_neg left]
      exact iff_of_true rfl (by omega)

/-- From an offset that has a place in a row, all the others have one too or are past its end. -/
theorem styleCells_ok (change : Cell → Cell) (count : Nat) {offset : Int} {row : List Cell}
    (placed : -(row.length : Int) ≤ offset) : ∃ row', styleCells change count offset row = .ok () row' := by
  induction count generalizing offset row with
  | zero => exact ⟨row, rfl⟩
  | succ count ih =>
    rw [styleCells]
    by_cases past : (row.length : Int) ≤ offset
    · exact ⟨row, if_pos past⟩
    · rw [if_neg past]
      cases place : place? row.length offset with
      | none => exact absurd (place_eq_none_iff.mp place) (by omega)
      | some i => exact ih (by rw [List.length_modify]; omega)

theorem styleCells_fails_iff {change : Cell → Cell} {count : Nat} {offset : Int} {row row' : List Cell} {fault : Fault} :
    styleCells change count offset row = .error fault row' ↔
      row' = row ∧ 0 < count ∧ offset < -(row.length : Int) ∧ fault = offsetFault offset := by
  by_cases left : offset < -(row.length : Int)
  · cases count with
    | zero => simp [styleCells]
    | succ count =>
      rw [styleCells, if_neg (by omega), place_eq_none_iff.mpr left]
      constructor
      · rintro ⟨⟩
        exact ⟨rfl, Nat.succ_pos count, left, rfl⟩
      · rintro ⟨rfl, _, _, rfl⟩
        rfl
  · obtain ⟨styled, ok⟩ := styleCells_ok change count (Int.not_lt.mp left)
    rw [ok]
    constructor
    · rintro ⟨⟩
    · rintro ⟨_, _, left', _⟩
      exact absurd left' left

/-! ### Rows of a range -/

theorem Range.fault_eq_none_iff {range : Range} : range.fault? = none ↔ 1 ≤ range.firstRow ∧ range.firstRow ≤ range.lastRow ∧
    (range.firstRow = range.lastRow → range.firstColumn ≤ range.lastColumn) := by
  unfold Range.fault?
  by_cases row : range.firstRow < 1
  · rw [if_pos row]
    exact iff_of_false (by simp) (by omega)
  · rw [if_neg row]
    by_cases rows : range.lastRow < range.firstRow
    · rw [if_pos rows]
      exact iff_of_false (by simp) (by omega)
    · rw [if_neg rows]
      by_cases columns : range.firstRow = range.lastRow ∧ range.lastColumn < range.firstColumn
      · rw [if_pos columns]
        exact iff_of_false (by simp) (by omega)
      · rw [if_neg columns]
        exact iff_of_true rfl (by omega)

variable {change : Cell → Cell} {range : Range} {row : Nat} {cells : List Cell} {rest rows rows' : List (List Cell)} {fault : Fault}

/-- Rows above a range are left alone. -/
theorem styleRows_above (above : (row : Int) < range.firstRow) :
    styleRows change range row (cells :: rest) = .error fault rows' ↔
      ∃ rest', styleRows change range (row + 1) rest = .error fault rest' ∧ rows' = cells :: rest' := by
  rw [styleRows, if_pos above]
  cases styleRows change range (row + 1) rest with
  | ok _ styled => simp
  | error fault' styled =>
    constructor
    · rintro ⟨⟩
      exact ⟨styled, rfl, rfl⟩
    · rintro ⟨_, ⟨⟩, rfl⟩
      rfl

/-- Below its first row a range starts with the first cell of every row, so that nothing is refused. -/
theorem styleRows_below (change : Cell → Cell) (rows : List (List Cell)) (below : range.firstRow < row) :
    ∃ rows', styleRows change range row rows = .ok () rows' := by
  induction rows generalizing row with
  | nil => exact ⟨[], rfl⟩
  | cons cells rest ih =>
    rw [styleRows, if_neg (by omega)]
    by_cases past : range.lastRow < row
    · exact ⟨_, if_pos past⟩
    · have start : range.startOffset row = 0 := if_neg (by omega)
      have placed : -(cells.length : Int) ≤ 0 := by omega
      obtain ⟨styled, here⟩ := styleCells_ok change (range.stopOffset row cells.length - 0).toNat placed
      have under : range.firstRow < (row + 1 : Nat) := by omega
      obtain ⟨more, later⟩ := ih under
      simp only [if_neg past, start, here, later]
      exact ⟨_, rfl⟩

/-- The first row of a range is the only one in which the range can be refused. -/
theorem styleRows_first (first : (row : Int) = range.firstRow) (ordered : range.firstRow ≤ range.lastRow) :
    styleRows change range row (cells :: rest) = .error fault rows' ↔
      ∃ cells', styleCells change (range.stopOffset row cells.length - range.startOffset row).toNat (range.startOffset row) cells =
        .error fault cells' ∧ rows' = cells' :: rest := by
  rw [styleRows, if_neg (by omega), if_neg (by omega)]
  have under : range.firstRow < (row + 1 : Nat) := by omega
  obtain ⟨more, later⟩ := styleRows_below change rest under
  simp only [later]
  cases styleCells change (range.stopOffset row cells.length - range.startOffset row).toNat (range.startOffset row) cells with
  | ok _ styled => simp
  | error fault' styled =>
    constructor
    · rintro ⟨⟩
      exact ⟨styled, rfl, rfl⟩
    · rintro ⟨_, ⟨⟩, rfl⟩
      rfl

/-- Rows are refused as a whole: none of them is changed. -/
theorem styleRows_fails_iff (valid : range.fault? = none) (reached : (row : Int) ≤ range.firstRow) :
    styleRows change range row rows = .error fault rows' ↔
      rows' = rows ∧ ∃ cells, rows[(range.firstRow - row).toNat]? = some cells ∧ range.firstColumn ≤ -(cells.length : Int) ∧
        fault = offsetFault (range.firstColumn - 1) := by
  obtain ⟨_, ordered, columns⟩ := Range.fault_eq_none_iff.mp valid
  -- on the rows above the range, up to its first row; the rows below that one play no part
  induction rows generalizing row rows' with
  | nil => simp [styleRows]
  | cons cells rest ih =>
    rcases Int.lt_or_eq_of_le reached with above | first
    · have index : (range.firstRow - row).toNat = (range.firstRow - (row + 1 : Nat)).toNat + 1 := by omega
      rw [styleRows_above above, index, List.getElem?_cons_succ]
      constructor
      · rintro ⟨rest', failed, rfl⟩
        obtain ⟨rfl, refused⟩ := (ih (by omega)).mp failed
        exact ⟨rfl, refused⟩
      · rintro ⟨rfl, refused⟩
        exact ⟨rest, (ih (by omega)).mpr ⟨rfl, refused⟩, rfl⟩
    · have index : (range.firstRow - row).toNat = 0 := by omega
      have start : range.startOffset row = range.firstColumn - 1 := if_pos first
      have nonempty : range.firstColumn ≤ -(cells.length : Int) →
          0 < (range.stopOffset row cells.length - (range.firstColumn - 1)).toNat := by
        intro left
        unfold Range.stopOffset
        split <;> omega
      rw [styleRows_first first ordered, index, List.getElem?_cons_zero, start]
      constructor
      · rintro ⟨cells', failed, rfl⟩
        obtain ⟨rfl, _, left, rfl⟩ := styleCells_fails_iff.mp failed
        exact ⟨rfl, cells', rfl, by omega, rfl⟩
      · rintro ⟨rfl, _, ⟨rfl⟩, left, rfl⟩
        exact ⟨cells, styleCells_fails_iff.mpr ⟨rfl, nonempty left, by omega, rfl⟩, rfl⟩

/-! ### Refused ranges -/

/-- Why a range of a grid is refused: its numbers make no range, or its first column, counted from the end of its first row, is left
    of that row. -/
inductive Refused (g : Grid) (range : Range) : Fault → Prop
  | notRange {fault : Fault} (invalid : range.fault? = some fault) : Refused g range fault
  | outOfRow {cells : List Cell} (valid : range.fault? = none) (row : g.rows[(range.firstRow - 1).toNat]? = some cells)
      (left : range.firstColumn ≤ -(cells.length : Int)) : Refused g range (offsetFault (range.firstColumn - 1))

theorem styleRange_of_valid {g g' : Grid} {style colour : Option Text} (valid : range.fault? = none) :
    g.styleRange range style colour = .error fault g' ↔
      ∃ rows', styleRows (Cell.restyle style colour) range 1 g.rows = .error fault rows' ∧ g' = { g with rows := rows' } := by
  rw [styleRange, valid]
  cases styleRows (Cell.restyle style colour) range 1 g.rows with
  | ok _ styled => simp
  | error fault' styled =>
    constructor
    · rintro ⟨⟩
      exact ⟨styled, rfl, rfl⟩
    · rintro ⟨_, ⟨⟩, rfl⟩
      rfl

/-- A range that is refused leaves the grid as it was, for any numbers and whatever the style. It is refused exactly if there is a
    reason for it. -/
theorem styleRange_fails_iff {g g' : Grid} {range : Range} {style colour : Option Text} {fault : Fault} :
    g.styleRange range style colour = .error fault g' ↔ g' = g ∧ g.Refused range fault := by
  cases invalid : range.fault? with
  | some reason =>
    rw [styleRange_refused g style colour invalid]
    constructor
    · rintro ⟨⟩
      exact ⟨rfl, .notRange invalid⟩
    · rintro ⟨rfl, refused⟩
      cases refused with
      | notRange invalid' =>
        rw [invalid] at invalid'
        cases invalid'
        rfl
      | outOfRow valid =>
        rw [invalid] at valid
        cases valid
  | none =>
    have first : ((1 : Nat) : Int) ≤ range.firstRow := (Range.fault_eq_none_iff.mp invalid).1
    rw [styleRange_of_valid invalid]
    constructor
    · rintro ⟨rows', failed, rfl⟩
      obtain ⟨rfl, cells, row, left, rfl⟩ := (styleRows_fails_iff invalid first).mp failed
      exact ⟨rfl, .outOfRow invalid row left⟩
    · rintro ⟨rfl, refused⟩
      cases refused with
      | notRange invalid' =>
        rw [invalid] at invalid'
        cases invalid'
      | outOfRow _ row left => exact ⟨g'.rows, (styleRows_fails_iff invalid first).mpr ⟨rfl, _, row, left, rfl⟩, rfl⟩

/-- Column -1 is the cell before the last one. A row of three cells has it and a row of one cell has not, so a range that starts
    there is styled from the first row on and refused from the second one on. -/
theorem short_row_refused :
    (ofText "abc\nd".toList [] none).styleRange ⟨2, -1, 2, 1⟩ none (some Colour.red.code) =
      .error .columnOutOfRow (ofText "abc\nd".toList [] none) ∧
    ∃ g', (ofText "abc\nd".toList [] none).styleRange ⟨1, -1, 2, 1⟩ none (some Colour.red.code) = .ok () g' ∧
      g'.cell? ⟨1, 2⟩ = some ⟨'b', none, some Colour.red.code⟩ ∧
      g'.cell? ⟨2, 1⟩ = some ⟨'d', none, some Colour.red.code⟩ := by
  have row : (ofText "abc\nd".toList [] none).rows[((2 : Int) - 1).toNat]? = some [Cell.plain 'd'] := by decide +kernel
  refine ⟨styleRange_fails_iff.mpr ⟨rfl, ?_⟩, _, rfl, by decide +kernel, by decide +kernel⟩
  exact .outOfRow rfl row (by decide)

end CMakeLint.Grid
