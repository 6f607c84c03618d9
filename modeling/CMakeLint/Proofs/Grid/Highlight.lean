import CMakeLint.Issue
import CMakeLint.Proofs.Grid.Cells
import Mathlib.Order.Basic

/-!
When a piece of text can be highlighted in a grid. The characters of a grid stand in reading order (`characters_inOrder`), so a
region that is found starts before it ends and the range of it can be styled. What can go wrong is only the range from there
to the fixed limit of a highlight: it is refused if the region ends after that limit (`highlight_cases`).
-/
namespace CMakeLint

namespace Grid

/-! ### Reading order -/

/-- One character stands before another one in reading order. -/
def Located.Before (a b : Located) : Prop :=
  a.row < b.row ∨ a.row = b.row ∧ a.column < b.column

theorem mem_locateRow {row column : Nat} {cells : List Cell} {a : Located} (member : a ∈ locateRow row column cells) :
    a.row = row ∧ column ≤ a.column ∧ a.column < column + cells.length := by
  induction cells generalizing column with
  | nil => cases member
  | cons cell rest ih =>
    rw [List.length_cons]
    rcases List.mem_cons.mp member with rfl | later
    · exact ⟨rfl, Nat.le_refl _, by simp⟩
    · obtain ⟨same, lower, upper⟩ := ih later
      exact ⟨same, by omega, by omega⟩

theorem locateRow_inOrder (row column : Nat) (cells : List Cell) :
    (locateRow row column cells).Pairwise Located.Before := by
  induction cells generalizing column with
  | nil => exact .nil
  | cons cell rest ih =>
    refine .cons ?_ (ih (column + 1))
    intro a member
    obtain ⟨same, lower, _⟩ := mem_locateRow member
    exact .inr ⟨same.symm, Nat.lt_of_lt_of_le (Nat.lt_succ_self column) lower⟩

theorem mem_locateRows {row : Nat} {rows : List (List Cell)} {a : Located} (member : a ∈ locateRows row rows) :
    row ≤ a.row ∧ 1 ≤ a.column := by
  induction row, rows using locateRows.induct with
  | case1 row => cases member
  | case2 row cells =>
    obtain ⟨same, lower, _⟩ := mem_locateRow member
    omega
  | case3 row cells rest many ih =>
    rw [locateRows] at member
    · rcases List.mem_append.mp member with here | below
      · obtain ⟨same, lower, _⟩ := mem_locateRow here
        omega
      · rcases List.mem_cons.mp below with rfl | later
        · exact ⟨Nat.le_refl _, Nat.succ_le_succ (Nat.zero_le _)⟩
        · obtain ⟨lower, column⟩ := ih later
          omega
    · exact many

theorem locateRows_inOrder (row : Nat) (rows : List (List Cell)) : (locateRows row rows).Pairwise Located.Before := by
  induction row, rows using locateRows.induct with
  | case1 row => exact .nil
  | case2 row cells => exact locateRow_inOrder row 1 cells
  | case3 row cells rest many ih =>
    rw [locateRows]
    · refine List.pairwise_append.mpr ⟨locateRow_inOrder row 1 cells, .cons ?_ ih, ?_⟩
      · intro a later
        have := (mem_locateRows later).1
        exact .inl (by simp only; omega)
      · intro a here b below
        obtain ⟨same, _, upper⟩ := mem_locateRow here
        rcases List.mem_cons.mp below with rfl | later
        · exact .inr ⟨same, by simp only; omega⟩
        · have := (mem_locateRows later).1
          exact .inl (by omega)
    · exact many

theorem characters_inOrder (g : Grid) : g.characters.Pairwise Located.Before :=
  locateRows_inOrder 1 g.rows

/-! ### Regions that are found -/

theorem spells_mem {t : Text} {chars : List Located} {last : Located} (found : spells t chars = some last) :
    last ∈ chars := by
  induction chars generalizing t with
  | nil =>
    cases t with
    | nil => cases found
    | cons c t => cases t <;> cases found
  | cons here rest ih =>
    rcases t with _ | ⟨c, _ | ⟨d, t⟩⟩
    · cases found
    · cases rest with
      | nil => cases found
      | cons next rest =>
        rw [spells] at found
        split at found
        · cases found
          exact List.mem_cons_self
        · cases found
    · rw [spells] at found
      split at found
      · exact List.mem_cons_of_mem _ (ih found)
      · cases found

/-- A region of a grid: it starts in a row and a column, and does not end before it starts. -/
structure Region.Ordered (r : Region) : Prop where
  row : 1 ≤ r.firstRow
  column : 1 ≤ r.firstColumn
  rows : r.firstRow ≤ r.lastRow
  columns : r.firstRow = r.lastRow → r.firstColumn ≤ r.lastColumn

theorem locate_ordered {t : Text} {chars : List Located} {region : Region} (inOrder : chars.Pairwise Located.Before)
    (placed : ∀ a ∈ chars, 1 ≤ a.row ∧ 1 ≤ a.column) (found : locate t chars = some region) : region.Ordered := by
  induction chars with
  | nil => cases found
  | cons here rest ih =>
    obtain ⟨before, inOrder'⟩ := List.pairwise_cons.mp inOrder
    rw [locate] at found
    cases spelled : spells t (here :: rest) with
    | none =>
      rw [spelled] at found
      exact ih inOrder' (fun a member => placed a (List.mem_cons_of_mem _ member)) found
    | some last =>
      rw [spelled] at found
      cases found
      obtain ⟨row, column⟩ := placed here List.mem_cons_self
      rcases List.mem_cons.mp (spells_mem spelled) with rfl | later
      · exact ⟨row, column, Nat.le_refl _, fun _ => Nat.le_refl _⟩
      · rcases before last later with above | ⟨same, left⟩
        · exact ⟨row, column, Nat.le_of_lt above, fun same => absurd same (Nat.ne_of_lt above)⟩
        · exact ⟨row, column, Nat.le_of_eq same, fun _ => Nat.le_of_lt left⟩

theorem find_ordered {g : Grid} {t : Text} {region : Region} (found : g.find? t = some region) : region.Ordered :=
  locate_ordered (characters_inOrder g) (fun _ member => mem_locateRows member) found

/-! ### Ranges that can be styled -/

theorem styleRange_refused (g : Grid) {range : Range} {fault : Fault} (style colour : Option Text)
    (invalid : range.fault? = some fault) : g.styleRange range style colour = .error fault g := by
  simp only [styleRange, invalid]

theorem Region.Ordered.valid {r : Region} (ordered : r.Ordered) : (Range.ofRegion r).fault? = none := by
  obtain ⟨row, column, rows, columns⟩ := ordered
  unfold Range.fault? Range.ofRegion
  rw [if_neg (by simp only; omega), if_neg (by simp only; omega), if_neg]
  rintro ⟨same, reversed⟩
  have := columns (Int.ofNat_inj.mp same)
  simp only at reversed
  omega

end Grid

namespace Issue

/-! ### Highlights -/

/-- All that follows a region, up to the limit of highlights. -/
def remainder (region : Grid.Region) : Grid.Range :=
  ⟨region.lastRow, region.lastColumn + 1, highlightLimit, highlightLimit⟩

/-- What a highlight does to the cell at a place: red in the region, and reset from there to the limit. -/
def paint (region : Grid.Region) (p : Position) (cell : Cell) : Cell :=
  let red := if (Grid.Range.ofRegion region).Has p then cell.restyle none (some Colour.red.code) else cell
  if (remainder region).Has p then red.restyle (some Terminal.resetAll) none else red

/-- A highlight paints the region that is found, unless what follows it ends before it starts. -/
theorem highlight_eq (g : Grid) (t : Text) : highlight g t =
    (g.find? t).elim (.ok g) fun region => (remainder region).fault?.elim (.ok (g.mapCells (paint region))) .error := by
  rw [highlight]
  cases found : g.find? t with
  | none => rfl
  | some region =>
    have ordered := Grid.find_ordered found
    have painted := g.styleRange_eq none (some Colour.red.code)
      (show 1 ≤ (Grid.Range.ofRegion region).firstColumn from Int.ofNat_le.mpr ordered.column) ordered.valid
    simp only [painted, Option.elim_some]
    cases reset : (remainder region).fault? with
    | some fault =>
      rw [remainder] at reset
      simp only [Grid.styleRange_refused _ _ _ reset]
      rfl
    | none =>
      rw [remainder] at reset
      simp only [Grid.styleRange_eq _ _ _ (show 1 ≤ ((region.lastColumn : Int) + 1) by omega) reset, Grid.mapCells_mapCells]
      rfl

/-- The first occurrence of a text in a grid ends beyond the limit of highlights. -/
def Overruns (g : Grid) (t : Text) : Prop :=
  ∃ region, g.find? t = some region ∧
    (highlightLimit < region.lastRow ∨ (region.lastRow : Int) = highlightLimit ∧ highlightLimit ≤ region.lastColumn)

/-- A highlight is refused for its rows or for its columns if it overruns the limit, and is made otherwise. -/
theorem highlight_cases (g : Grid) (t : Text) :
    (Overruns g t ∧ (highlight g t = .error .rangeRowsReversed ∨ highlight g t = .error .rangeColumnsReversed)) ∨
      (¬ Overruns g t ∧ ∃ g', highlight g t = .ok g') := by
  rw [highlight_eq]
  cases found : g.find? t with
  | none =>
    refine .inr ⟨?_, g, rfl⟩
    rintro ⟨region, found', _⟩
    rw [found] at found'
    cases found'
  | some region =>
    have ordered := Grid.find_ordered found
    have row : ¬ ((region.lastRow : Int) < 1) := by
      have := ordered.row
      have := ordered.rows
      omega
    rw [Option.elim_some]
    by_cases rows : highlightLimit < (region.lastRow : Int)
    · refine .inl ⟨⟨region, found, .inl rows⟩, .inl ?_⟩
      rw [remainder, Grid.Range.fault?, if_neg row, if_pos rows]
      rfl
    · by_cases columns : (region.lastRow : Int) = highlightLimit ∧ highlightLimit < (region.lastColumn : Int) + 1
      · refine .inl ⟨⟨region, found, .inr ⟨columns.1, by have := columns.2; omega⟩⟩, .inr ?_⟩
        rw [remainder, Grid.Range.fault?, if_neg row, if_neg rows, if_pos columns]
        rfl
      · refine .inr ⟨?_, g.mapCells (paint region), ?_⟩
        · rintro ⟨region', found', beyond⟩
          rw [found] at found'
          cases found'
          rcases beyond with below | ⟨same, right⟩
          · exact rows below
          · exact columns ⟨same, by omega⟩
        · rw [remainder, Grid.Range.fault?, if_neg row, if_neg rows, if_neg columns]
          rfl

/-- A highlight that is made paints the region that is found, and nothing if none is found. -/
theorem highlight_ok {g g' : Grid} {t : Text} (made : highlight g t = .ok g') :
    g' = (g.find? t).elim g fun region => g.mapCells (paint region) := by
  rw [highlight_eq] at made
  cases found : g.find? t with
  | none =>
    rw [found] at made
    cases made
    rfl
  | some region =>
    rw [found, Option.elim_some] at made
    cases reset : (remainder region).fault? with
    | some fault =>
      rw [reset] at made
      cases made
    | none =>
      rw [reset] at made
      cases made
      rfl

theorem paint_char (region : Grid.Region) (p : Position) (cell : Cell) : (paint region p cell).char = cell.char := by
  unfold paint
  dsimp only
  split <;> split <;> rfl

theorem highlight_texts {g g' : Grid} {t : Text} (made : highlight g t = .ok g') : g'.texts = g.texts := by
  rw [highlight_ok made]
  cases g.find? t with
  | none => rfl
  | some region => exact Grid.texts_mapCells (paint_char region) g

theorem highlight_lineNumber {g g' : Grid} {t : Text} (made : highlight g t = .ok g') : g'.lineNumber = g.lineNumber := by
  rw [highlight_ok made]
  cases g.find? t <;> rfl

end Issue

end CMakeLint
