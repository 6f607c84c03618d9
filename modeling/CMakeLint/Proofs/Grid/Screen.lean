import CMakeLint.Proofs.Grid.Rendering
import CMakeLint.Proofs.Grid.Search

/-!
What is red on the screen. A highlight leaves the cells before the region that is found as they are, makes those of the region red
and resets all that follow (`paint_cases`). A cell that is left as it is takes on the colour that is on, so what counts is that no
such cell comes after a red one: the pen is red only from the start of the region on (`highlighted`). So red shows on the cells of
the region and nowhere else (`red_exactly_found`).
-/
namespace CMakeLint.Grid

/-! ### Cells of a highlight -/

/-- A region has started at or before a place. -/
def Region.Reached (region : Region) (p : Position) : Prop :=
  region.firstRow < p.line ∨ region.firstRow = p.line ∧ region.firstColumn ≤ p.column

variable {region : Region} {p : Position}

theorem Region.Reached.later {q : Position} (reached : region.Reached p) (before : p.Before q) : region.Reached q := by
  unfold Position.Before at before
  unfold Region.Reached at reached ⊢
  omega

theorem reached_of_has (inside : (Range.ofRegion region).Has p) : region.Reached p := by
  unfold Range.Has Range.ofRegion at inside
  unfold Region.Reached
  simp only at inside
  omega

theorem not_has_remainder (inside : (Range.ofRegion region).Has p) : ¬ (Issue.remainder region).Has p := by
  unfold Range.Has Range.ofRegion at inside
  unfold Range.Has Issue.remainder
  simp only at inside ⊢
  omega

/-- What has been reached and is not in the region comes after it. -/
theorem has_remainder (within : (p.line : Int) < Issue.highlightLimit) (reached : region.Reached p)
    (outside : ¬ (Range.ofRegion region).Has p) : (Issue.remainder region).Has p := by
  unfold Range.Has Range.ofRegion at outside
  unfold Region.Reached at reached
  unfold Range.Has Issue.remainder
  simp only at outside ⊢
  omega

theorem reached_of_remainder (ordered : region.Ordered) (after : (Issue.remainder region).Has p) : region.Reached p := by
  obtain ⟨_, _, rows, columns⟩ := ordered
  unfold Range.Has Issue.remainder at after
  unfold Region.Reached
  simp only at after
  omega

/-- A cell of a highlighted grid is in the region and red, or after it and reset, or before it and as it was. -/
theorem paint_cases (ordered : region.Ordered) (within : (p.line : Int) < Issue.highlightLimit) (cell : Cell) :
    ((Range.ofRegion region).Has p ∧ Issue.paint region p cell = cell.restyle none (some Colour.red.code)) ∨
    (¬ (Range.ofRegion region).Has p ∧ Issue.paint region p cell = cell.restyle (some Terminal.resetAll) none) ∨
    (¬ (Range.ofRegion region).Has p ∧ ¬ region.Reached p ∧ Issue.paint region p cell = cell) := by
  unfold Issue.paint
  dsimp only
  by_cases inside : (Range.ofRegion region).Has p
  · rw [if_pos inside, if_neg (not_has_remainder inside)]
    exact .inl ⟨inside, rfl⟩
  · rw [if_neg inside]
    by_cases reached : region.Reached p
    · rw [if_pos (has_remainder within reached inside)]
      exact .inr (.inl ⟨inside, rfl⟩)
    · rw [if_neg (fun after => reached (reached_of_remainder ordered after))]
      exact .inr (.inr ⟨inside, reached, rfl⟩)

/-! ### The colour on the screen -/

/-- The pen that writes in red. -/
def redPen : Pen := ⟨none, some Colour.red.code⟩

theorem draw_red (c : Char) {pen : Pen} {shown : Colour} (here : pen = Pen.default ∨ pen = redPen ∧ shown = .red) :
    ((Cell.plain c).restyle none (some Colour.red.code)).shownIn shown pen = .red ∧
      (((Cell.plain c).restyle none (some Colour.red.code)).draw pen).2 = redPen := by
  rcases here with rfl | ⟨rfl, rfl⟩
  · refine ⟨?_, rfl⟩
    show Terminal.obey (Terminal.obey shown []) Colour.red.code = .red
    rw [Terminal.obey_red]
  · refine ⟨?_, rfl⟩
    show Terminal.obey (Terminal.obey .red []) [] = .red
    rw [Terminal.obey_nil, Terminal.obey_nil]

theorem draw_reset (c : Char) {pen : Pen} {shown : Colour} (idle : pen = Pen.default → shown = .reset) :
    ((Cell.plain c).restyle (some Terminal.resetAll) none).shownIn shown pen = .reset ∧
      (((Cell.plain c).restyle (some Terminal.resetAll) none).draw pen).2 = Pen.default :=
  ⟨Pen.obey_reset idle, rfl⟩

theorem draw_plain (c : Char) (shown : Colour) :
    (Cell.plain c).shownIn shown Pen.default = shown ∧ ((Cell.plain c).draw Pen.default).2 = Pen.default := by
  refine ⟨?_, rfl⟩
  show Terminal.obey (Terminal.obey shown []) [] = shown
  rw [Terminal.obey_nil, Terminal.obey_nil]

/-- Through the cells of a highlighted grid, the pen is red from a red cell on up to the next one that is reset. -/
def highlighted (ordered : region.Ordered) : Guide where
  Fits p cell := (p.line : Int) < Issue.highlightLimit ∧ ∃ c, c ≠ Terminal.escape ∧ cell = Issue.paint region p (Cell.plain c)
  At p pen shown := (pen = Pen.default ∧ shown = .reset) ∨ (pen = redPen ∧ shown = .red ∧ region.Reached p)
  Shows p shown := shown = if (Range.ofRegion region).Has p then .red else .reset
  start := .inl ⟨rfl, rfl⟩
  drawable := by
    rintro p cell ⟨within, c, plain, rfl⟩
    rcases paint_cases ordered within (Cell.plain c) with ⟨_, same⟩ | ⟨_, same⟩ | ⟨_, _, same⟩
    · rw [same]
      exact restyle_drawable (plain_drawable plain) isCode_of_none (isCode_of_some 31)
    · rw [same]
      exact restyle_drawable (plain_drawable plain) (isCode_of_some 0) isCode_of_none
    · rw [same]
      exact plain_drawable plain
  coded := by
    rintro p pen shown (⟨rfl, _⟩ | ⟨rfl, _⟩)
    · exact Pen.default_coded
    · exact ⟨isCode_of_none, isCode_of_some 31⟩
  idle := by
    rintro p shown (⟨_, reset⟩ | ⟨red, _⟩)
    · exact reset
    · cases red
  resume := by
    rintro p pen shown (⟨rfl, _⟩ | ⟨rfl, _, reached⟩)
    · exact .inl ⟨rfl, Pen.default_resumed⟩
    · refine .inr ⟨rfl, ?_, reached⟩
      show Terminal.obey (Terminal.obey .reset Colour.red.code) [] = .red
      rw [Terminal.obey_nil, Terminal.obey_red]
  down := by
    rintro row column pen shown (default | ⟨red, colour, reached⟩)
    · exact .inl default
    · exact .inr ⟨red, colour, reached.later (.inl (Nat.lt_succ_self row))⟩
  right := by
    rintro row column pen shown cell ⟨within, c, _, rfl⟩ here
    have idle : pen = Pen.default → shown = .reset := by
      rintro rfl
      rcases here with ⟨_, reset⟩ | ⟨red, _⟩
      · exact reset
      · cases red
    rcases paint_cases ordered within (Cell.plain c) with ⟨inside, same⟩ | ⟨outside, same⟩ | ⟨outside, ahead, same⟩
    · obtain ⟨colour, after⟩ := draw_red c (here.imp And.left fun red => ⟨red.1, red.2.1⟩)
      rw [same, if_pos inside, colour, after]
      exact ⟨rfl, .inr ⟨rfl, rfl, (reached_of_has inside).later (.inr ⟨rfl, Nat.lt_succ_self column⟩)⟩⟩
    · obtain ⟨colour, after⟩ := draw_reset c idle
      rw [same, if_neg outside, colour, after]
      exact ⟨rfl, .inl ⟨rfl, rfl⟩⟩
    · -- nothing has been red so far
      rcases here with ⟨rfl, rfl⟩ | ⟨_, _, reached⟩
      · obtain ⟨colour, after⟩ := draw_plain c .reset
        rw [same, if_neg outside, colour, after]
        exact ⟨rfl, .inl ⟨rfl, rfl⟩⟩
      · exact absurd reached ahead

/-! ### Highlighted grids -/

theorem lastRow_le_of_find {g : Grid} {piece : Text} (found : g.find? piece = some region) : region.lastRow ≤ g.rows.length := by
  obtain ⟨_, k, here, last, _, _, char, rfl⟩ := find_eq_some_iff.mp found
  obtain ⟨above, line, below, split, row, _⟩ := isPlace_of_character char
  have length := congrArg List.length split
  rw [texts_length, List.length_append, List.length_cons] at length
  simp only
  omega

theorem line_le_of_cell {g : Grid} {cell : Cell} (present : g.cell? p = some cell) : p.line ≤ g.rows.length := by
  obtain ⟨row, column⟩ := p
  rcases row with _ | row
  · exact Nat.zero_le _
  rcases column with _ | column
  · cases present
  obtain ⟨cells, inside, _⟩ := Option.bind_eq_some_iff.mp present
  exact (List.getElem?_eq_some_iff.mp inside).1

/-- A highlight in a grid that ends before the limit paints the region that is found. -/
theorem highlight_eq_ok {g : Grid} {piece : Text} (few : (g.rows.length : Int) < Issue.highlightLimit)
    (found : g.find? piece = some region) : Issue.highlight g piece = .ok (g.mapCells (Issue.paint region)) := by
  have row := lastRow_le_of_find found
  rcases Issue.highlight_cases g piece with ⟨⟨region', found', beyond⟩, _⟩ | ⟨_, g', made⟩
  · rw [found] at found'
    cases found'
    omega
  · have painted := Issue.highlight_ok made
    rw [found, Option.elim_some] at painted
    rw [made, painted]

/-- In a highlighted grid with row numbers, the cells of the region that is found are shown in red, and all other cells and all row
    numbers in the default colour. What is shown are the characters of the grid in order, up to blanks at the end. Only a grid whose
    last number is too long is not shown. -/
theorem red_exactly_found {t indent piece : Text} {first : Int} {region : Region} (plain : Terminal.escape ∉ t)
    (plainIndent : Terminal.escape ∉ indent) (few : (Text.lines (normalize t)).length ≤ 99998)
    (found : (ofText t indent (some first)).find? piece = some region) :
    ∃ g, Issue.highlight (ofText t indent (some first)) piece = .ok g ∧
      (¬ TooLong first (Text.lines (normalize t)).length → ∃ out width kept left, g.write = .ok out ∧
        layout indent width (some first) (Text.lines (normalize t)) = kept ++ left ∧
        (∀ slot ∈ left, Text.isBlank slot.char = true) ∧
        List.Forall₂ (Slot.Holds fun p shown => shown = if (Range.ofRegion region).Has p then .red else .reset)
          (Terminal.read out) kept) ∧
      (TooLong first (Text.lines (normalize t)).length → g.write = .error .numberTooLong) := by
  have limit : ((ofText t indent (some first)).rows.length : Int) < Issue.highlightLimit := by
    rw [(rows_of_texts (texts_ofText t indent (some first))).1, Issue.highlightLimit]
    omega
  refine ⟨_, highlight_eq_ok limit found, ?_⟩
  have texts : ((ofText t indent (some first)).mapCells (Issue.paint region)).texts = Text.lines (normalize t) := by
    rw [texts_mapCells (Issue.paint_char region), texts_ofText]
  obtain ⟨length, nonempty⟩ := rows_of_texts texts
  have fits : ∀ p cell, ((ofText t indent (some first)).mapCells (Issue.paint region)).cell? p = some cell →
      (highlighted (find_ordered found)).Fits p cell := by
    intro p cell present
    rw [cell_mapCells] at present
    obtain ⟨old, before, rfl⟩ := Option.map_eq_some_iff.mp present
    have line := line_le_of_cell before
    obtain ⟨c, member, rfl⟩ := ofText_cell_eq before
    exact ⟨by omega, c, fun same => escape_not_mem_normalize plain (same ▸ member), rfl⟩
  constructor
  · intro short
    obtain ⟨kept, left, split, blank, holds⟩ := (highlighted (find_ordered found)).render plainIndent nonempty fits
    rw [texts] at split
    refine ⟨_, _, kept, left, write_of_short ?_, split, blank, holds⟩
    rintro _ ⟨rfl⟩
    rwa [length]
  · intro long
    exact write_of_tooLong nonempty rfl (length ▸ long)

/-- A piece that goes from the end of one row over an empty one into a third. -/
theorem red_over_rows : ∃ g out width kept left,
    Issue.highlight (ofText "ab\n\ncd\n".toList [' '] (some 9)) "b\n\nc".toList = .ok g ∧ g.write = .ok out ∧
      layout [' '] width (some 9) ["ab".toList, [], "cd".toList, []] = kept ++ left ∧
      (∀ slot ∈ left, Text.isBlank slot.char = true) ∧
      List.Forall₂ (Slot.Holds fun p shown => shown = if (⟨1, 2, 3, 1⟩ : Range).Has p then .red else .reset)
        (Terminal.read out) kept := by
  have found : (ofText "ab\n\ncd\n".toList [' '] (some 9)).find? "b\n\nc".toList = some ⟨1, 2, 3, 1⟩ := by decide +kernel
  have rows : Text.lines (normalize "ab\n\ncd\n".toList) = ["ab".toList, [], "cd".toList, []] := by decide +kernel
  obtain ⟨g, made, shown, _⟩ := red_exactly_found (by decide) (by decide) (by rw [rows]; decide) found
  rw [rows] at shown
  obtain ⟨out, width, kept, left, written, split, blank, holds⟩ := shown (by unfold TooLong; decide +kernel)
  exact ⟨g, out, width, kept, left, made, written, split, blank, holds⟩

/-- A highlight in two rows, the first of which has the greatest number that can be written: there is no text to be read. -/
theorem red_after_nines_not_written :
    Terminal.escape ∉ "ab\nc".toList ∧ (ofText "ab\nc".toList [] (some (nines 4300))).rows.length ≤ 99998 ∧
      (ofText "ab\nc".toList [] (some (nines 4300))).find? "b".toList = some ⟨1, 2, 1, 2⟩ ∧
      ∃ g, Issue.highlight (ofText "ab\nc".toList [] (some (nines 4300))) "b".toList = .ok g ∧
        g.write = .error .numberTooLong ∧ ¬ ∃ out, g.write = .ok out := by
  have found : (ofText "ab\nc".toList [] (some (nines 4300))).find? "b".toList = some ⟨1, 2, 1, 2⟩ := by decide +kernel
  have rows : (ofText "ab\nc".toList [] (some (nines 4300))).rows.length = 2 := by decide +kernel
  have made := highlight_eq_ok (by rw [rows]; decide) found
  have refused : ((ofText "ab\nc".toList [] (some (nines 4300))).mapCells (Issue.paint ⟨1, 2, 1, 2⟩)).write =
      .error .numberTooLong := by
    refine write_of_tooLong ?_ rfl tooLong_nines
    decide +kernel
  refine ⟨by decide, by rw [rows]; decide, found, _, made, refused, ?_⟩
  rintro ⟨out, written⟩
  rw [refused] at written
  cases written

end CMakeLint.Grid
