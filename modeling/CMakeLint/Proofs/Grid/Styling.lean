import CMakeLint.Proofs.Grid.Highlight

/-!
What styling a range does to a grid. Any range that is styled changes some of the cells and nothing else
(`exists_chosen_of_styleRange`), also where its columns are counted from the end of a row. If its first column is a column, the
cells are those of the range that the grid has (`styleRange_exact`).
-/
namespace CMakeLint

theorem Cell.restyle_restyle (style colour : Option Text) (cell : Cell) :
    (cell.restyle style colour).restyle style colour = cell.restyle style colour := rfl

namespace Grid

/-! ### Any range -/

/-- Some of the cells of a row are changed. -/
def SomeChanged (change : Cell → Cell) (row row' : List Cell) : Prop :=
  ∃ chosen : Nat → Bool, row' = row.mapIdx fun i cell => if chosen i then change cell else cell

theorem SomeChanged.refl (change : Cell → Cell) (row : List Cell) : SomeChanged change row row :=
  ⟨fun _ => false, (mapIdx_eq_self fun _ _ _ => rfl).symm⟩

/-- One more cell may be changed before some are. -/
theorem SomeChanged.modify {change : Cell → Cell} (stable : ∀ cell, change (change cell) = change cell) {row row' : List Cell}
    (i : Nat) (changed : SomeChanged change (row.modify i change) row') : SomeChanged change row row' := by
  obtain ⟨chosen, rfl⟩ := changed
  refine ⟨fun j => i = j || chosen j, ?_⟩
  refine List.mapIdx_eq_iff.mpr ?_
  intro j
  rw [List.getElem?_mapIdx, List.getElem?_modify]
  cases row[j]? with
  | none => rfl
  | some cell => by_cases here : i = j <;> by_cases again : chosen j = true <;> simp [here, again, stable]

theorem someChanged_of_styleCells {change : Cell → Cell} (stable : ∀ cell, change (change cell) = change cell) {count : Nat}
    {offset : Int} {row row' : List Cell} (styled : styleCells change count offset row = .ok () row') :
    SomeChanged change row row' := by
  induction count generalizing offset row with
  | zero =>
    cases styled
    exact .refl change _
  | succ count ih =>
    rw [styleCells] at styled
    by_cases past : (row.length : Int) ≤ offset
    · rw [if_pos past] at styled
      cases styled
      exact .refl change _
    · rw [if_neg past] at styled
      cases place : place? row.length offset with
      | none =>
        rw [place] at styled
        cases styled
      | some i =>
        rw [place] at styled
        exact .modify stable i (ih styled)

/-- Some of the cells of some rows are changed. -/
def SomeChangedIn (change : Cell → Cell) (rows rows' : List (List Cell)) : Prop :=
  ∃ chosen : Nat → Nat → Bool,
    rows' = rows.mapIdx fun row cells => cells.mapIdx fun column cell => if chosen row column then change cell else cell

theorem SomeChangedIn.refl (change : Cell → Cell) (rows : List (List Cell)) : SomeChangedIn change rows rows :=
  ⟨fun _ _ => false, (mapIdx_eq_self fun _ _ _ => mapIdx_eq_self fun _ _ _ => rfl).symm⟩

theorem SomeChangedIn.cons {change : Cell → Cell} {row row' : List Cell} {rows rows' : List (List Cell)}
    (here : SomeChanged change row row') (below : SomeChangedIn change rows rows') :
    SomeChangedIn change (row :: rows) (row' :: rows') := by
  obtain ⟨first, rfl⟩ := here
  obtain ⟨later, rfl⟩ := below
  refine ⟨fun i column => if i = 0 then first column else later (i - 1) column, ?_⟩
  simp [List.mapIdx_cons]

theorem someChangedIn_of_styleRows {change : Cell → Cell} (stable : ∀ cell, change (change cell) = change cell) {range : Range}
    {row : Nat} {rows rows' : List (List Cell)} (styled : styleRows change range row rows = .ok () rows') :
    SomeChangedIn change rows rows' := by
  induction rows generalizing row rows' with
  | nil =>
    cases styled
    exact .refl change []
  | cons cells rest ih =>
    rw [styleRows] at styled
    by_cases above : (row : Int) < range.firstRow
    · rw [if_pos above] at styled
      cases below : styleRows change range (row + 1) rest with
      | error fault rest' =>
        rw [below] at styled
        cases styled
      | ok _ rest' =>
        rw [below] at styled
        cases styled
        exact .cons (.refl change cells) (ih below)
    · rw [if_neg above] at styled
      by_cases past : range.lastRow < row
      · rw [if_pos past] at styled
        cases styled
        exact .refl change _
      · rw [if_neg past] at styled
        cases here : styleCells change (range.stopOffset row cells.length - range.startOffset row).toNat
            (range.startOffset row) cells with
        | error fault cells' =>
          simp only [here] at styled
          cases styled
        | ok _ cells' =>
          cases below : styleRows change range (row + 1) rest with
          | error fault rest' =>
            simp only [here, below] at styled
            cases styled
          | ok _ rest' =>
            simp only [here, below] at styled
            cases styled
            exact .cons (someChanged_of_styleCells stable here) (ih below)

theorem fault_of_styleRange {g g' : Grid} {range : Range} {style colour : Option Text}
    (styled : g.styleRange range style colour = .ok () g') : range.fault? = none := by
  cases invalid : range.fault? with
  | none => rfl
  | some fault =>
    rw [styleRange_refused g style colour invalid] at styled
    cases styled

/-- Styling a range gives the style and the colour to some of the cells, and changes nothing else. -/
theorem exists_chosen_of_styleRange {g g' : Grid} {range : Range} {style colour : Option Text}
    (styled : g.styleRange range style colour = .ok () g') :
    ∃ chosen : Position → Bool, g' = g.mapCells fun p cell => if chosen p then cell.restyle style colour else cell := by
  have valid := fault_of_styleRange styled
  rw [styleRange, valid] at styled
  cases result : styleRows (Cell.restyle style colour) range 1 g.rows with
  | error fault rows =>
    simp only [result] at styled
    cases styled
  | ok _ rows =>
    simp only [result] at styled
    cases styled
    obtain ⟨chosen, rfl⟩ := someChangedIn_of_styleRows (Cell.restyle_restyle style colour) result
    exact ⟨fun p => chosen (p.line - 1) (p.column - 1), rfl⟩

/-! ### Ranges by columns -/

/-- A change of cells depends only on what it does to the cells that the grid has. -/
theorem mapCells_congr {change change' : Position → Cell → Cell} {g : Grid}
    (same : ∀ p cell, g.cell? p = some cell → change p cell = change' p cell) : g.mapCells change = g.mapCells change' := by
  have rows : (g.mapCells change).rows = (g.mapCells change').rows := by
    refine List.mapIdx_eq_mapIdx_iff.mpr ?_
    intro row inside
    refine List.mapIdx_eq_mapIdx_iff.mpr ?_
    intro column within
    refine same ⟨row + 1, column + 1⟩ _ ?_
    rw [cell?, List.getElem?_eq_getElem inside]
    exact List.getElem?_eq_getElem within
  exact congrArg (fun rows => { g with rows }) rows

/-- Styling a range whose first column is a column gives the style and the colour to each cell of the grid between the first and
    the last place of the range in reading order, and changes nothing else. What the range has beyond the ends of rows or of the
    grid does not matter: every grid can be styled there, and only the cells count that the grid has. -/
theorem styleRange_exact {g g' : Grid} {range : Range} {style colour : Option Text} (column : 1 ≤ range.firstColumn)
    (styled : g.styleRange range style colour = .ok () g') :
    (∀ p, g'.cell? p = (g.cell? p).map fun cell =>
      if range.Has p then ⟨cell.char, style, if style = some Terminal.resetAll then none else colour⟩ else cell) ∧
    (g'.texts = g.texts ∧ g'.rows.length = g.rows.length ∧ g'.lineNumber = g.lineNumber ∧ g'.indent = g.indent) ∧
    (∀ h : Grid, ∃ h', h.styleRange range style colour = .ok () h') ∧
    (∀ other : Range, 1 ≤ other.firstColumn → other.fault? = none →
      (∀ p, (g.cell? p).isSome → (other.Has p ↔ range.Has p)) → g.styleRange other style colour = .ok () g') := by
  have valid := fault_of_styleRange styled
  have painted := g.styleRange_eq style colour column valid
  rw [styled] at painted
  cases painted
  refine ⟨fun p => cell_mapCells _ g p, ⟨texts_mapCells ?_ g, ?_, rfl, rfl⟩, ?_, ?_⟩
  · intro p cell
    by_cases within : range.Has p <;> simp [within, Cell.restyle]
  · simp [mapCells]
  · intro h
    exact ⟨_, h.styleRange_eq style colour column valid⟩
  · intro other column' valid' same
    rw [g.styleRange_eq style colour column' valid']
    refine congrArg _ (mapCells_congr ?_)
    intro p cell present
    simp only [same p (by rw [present]; rfl)]

/-- A range from the second column of the first row on, over an empty row and past the end of the grid. -/
theorem styled_to_the_end : ∃ g', (ofText "ab\n\ncd".toList [' '] (some 7)).styleRange ⟨1, 2, 9, 4⟩ (some Brightness.bright.code)
    (some Colour.red.code) = .ok () g' ∧ g'.cell? ⟨1, 1⟩ = some (Cell.plain 'a') ∧
    g'.cell? ⟨1, 2⟩ = some ⟨'b', some Brightness.bright.code, some Colour.red.code⟩ ∧ g'.cell? ⟨2, 1⟩ = none ∧
    g'.cell? ⟨3, 2⟩ = some ⟨'d', some Brightness.bright.code, some Colour.red.code⟩ ∧
    g'.texts = ["ab".toList, [], "cd".toList] ∧ g'.lineNumber = some 7 ∧ g'.indent = [' '] := by
  obtain ⟨g', styled⟩ : ∃ g', (ofText "ab\n\ncd".toList [' '] (some 7)).styleRange ⟨1, 2, 9, 4⟩ (some Brightness.bright.code)
      (some Colour.red.code) = .ok () g' := ⟨_, rfl⟩
  obtain ⟨cells, ⟨texts, _, number, indent⟩, _⟩ := styleRange_exact (by decide) styled
  refine ⟨g', styled, ?_, ?_, ?_, ?_, texts.trans (by decide +kernel), number, indent⟩
  · rw [cells]
    decide +kernel
  · rw [cells]
    decide +kernel
  · rw [cells]
    decide +kernel
  · rw [cells]
    decide +kernel

end Grid

end CMakeLint
