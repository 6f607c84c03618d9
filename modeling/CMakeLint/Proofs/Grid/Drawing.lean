import CMakeLint.Grid.Render
import CMakeLint.Proofs.Grid.Cells
import CMakeLint.Proofs.Terminal.Reading
import Mathlib.Data.List.Forall2

/-!
Grids on a terminal. The characters of a grid stand row by row, each with what it belongs to: the indent, the column of row numbers,
a cell or the end of the row (`layout`). What is drawn are these characters, with escape codes between them. A guide says what holds
of the pen and of the colour on the screen from cell to cell; it leads through a row (`Guide.drawAll`), through all rows
(`Guide.drawRows`) and through the text of the grid, in which only blanks at the end are left out (`Guide.render`). The numbers of
rows are always shown in the default colour.
-/
namespace CMakeLint

open Terminal (IsCode Glyph Writes obey)

/-! ### Pens and cells with escape codes -/

/-- A pen that was set by escape codes. -/
structure Pen.Coded (pen : Pen) : Prop where
  style : ∀ k ∈ pen.style, IsCode k
  colour : ∀ k ∈ pen.colour, IsCode k

/-- A cell whose style and colour are escape codes, and whose character is not part of one. -/
structure Cell.Drawable (cell : Cell) : Prop where
  plain : cell.char ≠ Terminal.escape
  style : ∀ k ∈ cell.style, IsCode k
  colour : ∀ k ∈ cell.colour, IsCode k

theorem getD_isCode {setting : Option Text} (coded : ∀ k ∈ setting, IsCode k) :
    setting.getD [] = [] ∨ IsCode (setting.getD []) := by
  cases setting with
  | none => exact .inl rfl
  | some k => exact .inr (coded k rfl)

namespace Pen

theorem default_coded : Pen.default.Coded :=
  ⟨fun _ member => (Option.not_mem_none _ member).elim, fun _ member => (Option.not_mem_none _ member).elim⟩

/-- The colour in which a pen goes on after a row number. -/
def resumed (pen : Pen) : Colour :=
  obey (obey .reset (pen.colour.getD [])) (pen.style.getD [])

theorem default_resumed : Pen.default.resumed = .reset := by
  show obey (obey .reset []) [] = .reset
  rw [Terminal.obey_nil, Terminal.obey_nil]

theorem Coded.codes_writes {pen : Pen} (coded : pen.Coded) : Writes .reset pen.codes [] pen.resumed :=
  (Writes.of_code (getD_isCode coded.colour) _).append (Writes.of_code (getD_isCode coded.style) _)

theorem reset_cases (pen : Pen) : pen.reset = [] ∨ IsCode pen.reset := by
  rw [reset]
  by_cases set : pen.isSet = true
  · rw [if_pos set]
    exact .inr (Terminal.isCode_code 0)
  · rw [if_neg set]
    exact .inl rfl

theorem eq_default_of_idle {pen : Pen} (idle : ¬ pen.isSet = true) : pen = Pen.default := by
  obtain ⟨style, colour⟩ := pen
  simp [isSet] at idle
  rw [idle.1, idle.2]
  rfl

theorem obey_reset {pen : Pen} {shown : Colour} (idle : pen = Pen.default → shown = .reset) : obey shown pen.reset = .reset := by
  rw [reset]
  by_cases set : pen.isSet = true
  · rw [if_pos set, Terminal.obey_resetAll]
  · rw [if_neg set, Terminal.obey_nil, idle (eq_default_of_idle set)]

end Pen

namespace Cell

theorem switch_cases (old : Option Text) {wanted : Option Text} (coded : ∀ k ∈ wanted, IsCode k) :
    switch old wanted = [] ∨ IsCode (switch old wanted) := by
  rw [switch]
  by_cases change : wanted.isSome ∧ wanted ≠ old
  · rw [if_pos change]
    exact getD_isCode coded
  · rw [if_neg change]
    exact .inl rfl

/-- The colour in which a cell is shown, by the colour before it and the pen. -/
def shownIn (shown : Colour) (pen : Pen) (cell : Cell) : Colour :=
  if cell.style = some Terminal.resetAll then obey shown pen.reset
  else obey (obey shown (switch pen.style cell.style)) (switch pen.colour cell.colour)

theorem Drawable.draw_writes {cell : Cell} (drawable : cell.Drawable) (shown : Colour) (pen : Pen) :
    Writes shown (cell.draw pen).1 [⟨cell.char, cell.shownIn shown pen⟩] (cell.shownIn shown pen) := by
  have char : ∀ colour, Writes colour [cell.char] [⟨cell.char, colour⟩] colour := fun colour => .char drawable.plain (.nil colour)
  rw [draw, shownIn]
  by_cases resets : cell.style = some Terminal.resetAll
  · rw [if_pos resets, if_pos resets]
    exact (Writes.of_code pen.reset_cases shown).append (char _)
  · rw [if_neg resets, if_neg resets]
    have style := Writes.of_code (switch_cases pen.style drawable.style) shown
    have colour := Writes.of_code (switch_cases pen.colour drawable.colour) (obey shown (switch pen.style cell.style))
    exact (style.append colour).append (char _)

theorem or_isCode {new old : Option Text} (first : ∀ k ∈ new, IsCode k) (second : ∀ k ∈ old, IsCode k) :
    ∀ k ∈ new.or old, IsCode k := by
  cases new with
  | none => exact second
  | some _ => exact first

theorem Drawable.draw_coded {cell : Cell} (drawable : cell.Drawable) {pen : Pen} (coded : pen.Coded) : (cell.draw pen).2.Coded := by
  rw [draw]
  by_cases resets : cell.style = some Terminal.resetAll
  · rw [if_pos resets]
    exact Pen.default_coded
  · rw [if_neg resets]
    exact ⟨or_isCode drawable.style coded.style, or_isCode drawable.colour coded.colour⟩

theorem drawAll_cons (pen : Pen) (cell : Cell) (rest : List Cell) : drawAll pen (cell :: rest) =
    ((cell.draw pen).1 ++ (drawAll (cell.draw pen).2 rest).1, (drawAll (cell.draw pen).2 rest).2) := rfl

end Cell

namespace Grid

/-! ### Where the characters of a grid stand -/

/-- What a character of a drawn grid belongs to. -/
inductive Part where
  | indent
  | gutter
  | cell (p : Position)
  | lineEnd
  deriving DecidableEq, Repr

/-- A character of a drawn grid. -/
structure Slot where
  part : Part
  char : Char
  deriving DecidableEq, Repr

/-- What stands between the indent of a row and its cells: the number of the row on the right of a column, which is blank for a
    negative number, and a bar. -/
def gutter (width : Nat) : Option Int → Text
  | none => []
  | some n => (if 0 ≤ n then (Text.ofNat n.toNat).leftpad width ' ' else List.replicate width ' ') ++ [' ', '|', ' ']

theorem gutter_plain (width : Nat) (number : Option Int) : Terminal.escape ∉ gutter width number := by
  cases number with
  | none => simp [gutter]
  | some n =>
    have digits : Terminal.escape ∉ Text.ofNat n.toNat := by
      intro member
      have digit := Nat.isDigit_of_mem_toDigits (by decide) (by decide) member
      exact absurd digit (by decide)
    have blanks : ∀ k, Terminal.escape ∉ List.replicate k ' ' := by
      intro k member
      exact absurd (List.eq_of_mem_replicate member) (by decide)
    have bar : Terminal.escape ∉ [' ', '|', ' '] := by decide
    rw [gutter]
    by_cases shown : 0 ≤ n
    · rw [if_pos shown, List.leftpad]
      simp [digits, blanks, bar]
    · rw [if_neg shown]
      simp [blanks, bar]

/-- The characters of a row. -/
def layoutRow (indent gutter : Text) (row : Nat) (cells : Text) : List Slot :=
  indent.map (⟨.indent, ·⟩) ++ gutter.map (⟨.gutter, ·⟩) ++ cells.mapIdx (fun i c => ⟨.cell ⟨row, i + 1⟩, c⟩) ++ [⟨.lineEnd, '\n'⟩]

/-- The characters of rows from a row on. -/
def layoutFrom (indent : Text) (width : Nat) (number : Option Int) (row : Nat) (rows : List Text) : List Slot :=
  (rows.mapIdx fun i cells => layoutRow indent (gutter width (number.map (· + (i : Int)))) (row + i) cells).flatten

/-- The characters of a grid. -/
def layout (indent : Text) (width : Nat) (number : Option Int) (rows : List Text) : List Slot :=
  layoutFrom indent width number 1 rows

theorem layoutFrom_cons (indent : Text) (width : Nat) (number : Option Int) (row : Nat) (cells : Text) (rest : List Text) :
    layoutFrom indent width number row (cells :: rest) =
      layoutRow indent (gutter width number) row cells ++ layoutFrom indent width (number.map (· + 1)) (row + 1) rest := by
  have same : number.map (· + ((0 : Nat) : Int)) = number := by simp
  have numbers : ∀ i : Nat, number.map (· + ((i + 1 : Nat) : Int)) = (number.map (· + 1)).map (· + (i : Int)) := by
    intro i
    cases number with
    | none => rfl
    | some n =>
      simp only [Option.map_some, Option.some.injEq]
      omega
  have rows : (fun (i : Nat) cells => layoutRow indent (gutter width (number.map (· + ((i + 1 : Nat) : Int)))) (row + (i + 1)) cells) =
      fun (i : Nat) cells => layoutRow indent (gutter width ((number.map (· + 1)).map (· + (i : Int)))) (row + 1 + i) cells := by
    funext i cells
    rw [numbers, Nat.add_assoc row 1 i, Nat.add_comm 1 i]
  rw [layoutFrom, List.mapIdx_cons, List.flatten_cons, same, rows]
  rfl

/-- A colour is right for a part of a grid: row numbers are in the default colour, and cells as given. -/
def Part.Allows (Shows : Position → Colour → Prop) : Part → Colour → Prop
  | .gutter, shown => shown = .reset
  | .cell p, shown => Shows p shown
  | _, _ => True

/-- A glyph is the character of a slot in a right colour. -/
def Slot.Holds (Shows : Position → Colour → Prop) (glyph : Glyph) (slot : Slot) : Prop :=
  glyph.char = slot.char ∧ slot.part.Allows Shows glyph.colour

/-- The width of the column of row numbers, if there is one. -/
def numberWidth (g : Grid) : Nat :=
  (g.lineNumber.map (gutterWidth · g.rows.length)).getD 0

theorem render_eq {g : Grid} (nonempty : g.rows ≠ []) :
    g.render = Text.trimEnd (drawRows g.indent g.numberWidth g.lineNumber Pen.default g.rows) ++ Terminal.resetAll := by
  rw [render, if_neg (by simpa using nonempty), numberWidth]
  cases g.lineNumber <;> rfl

variable {Shows : Position → Colour → Prop}

theorem holds_plain {part : Part} {shown : Colour} (allowed : part.Allows Shows shown) (t : Text) :
    List.Forall₂ (Slot.Holds Shows) (t.map (⟨·, shown⟩)) (t.map (⟨part, ·⟩)) := by
  rw [List.forall₂_map_left_iff, List.forall₂_map_right_iff]
  exact List.forall₂_same.mpr fun c _ => ⟨rfl, allowed⟩

theorem chars_of_holds {glyphs : List Glyph} {slots : List Slot} (holds : List.Forall₂ (Slot.Holds Shows) glyphs slots) :
    slots.map Slot.char = glyphs.map Glyph.char := by
  induction holds with
  | nil => rfl
  | cons head _ ih => rw [List.map_cons, List.map_cons, ih, head.1]

/-! ### Drawing -/

/-- What can be relied on while cells are drawn one after the other. -/
structure Guide where
  /-- The cell at a place is one of those that are reckoned with. -/
  Fits : Position → Cell → Prop
  /-- The pen and the colour on the screen before the cell at a place. -/
  At : Position → Pen → Colour → Prop
  /-- The colour of the cell at a place. -/
  Shows : Position → Colour → Prop
  start : At .first Pen.default .reset
  drawable : ∀ {p cell}, Fits p cell → cell.Drawable
  coded : ∀ {p pen shown}, At p pen shown → pen.Coded
  idle : ∀ {p shown}, At p Pen.default shown → shown = .reset
  resume : ∀ {p pen shown}, At p pen shown → At p pen pen.resumed
  down : ∀ {row column pen shown}, At ⟨row, column⟩ pen shown → At ⟨row + 1, 1⟩ pen shown
  right : ∀ {row column pen shown cell}, Fits ⟨row, column⟩ cell → At ⟨row, column⟩ pen shown →
    Shows ⟨row, column⟩ (cell.shownIn shown pen) ∧ At ⟨row, column + 1⟩ (cell.draw pen).2 (cell.shownIn shown pen)

namespace Guide

variable (G : Guide) {indent : Text} {row : Nat} {pen : Pen} {shown : Colour}

theorem drawAll {column : Nat} {cells : List Cell} (fits : ∀ i cell, cells[i]? = some cell → G.Fits ⟨row, column + i⟩ cell)
    (here : G.At ⟨row, column⟩ pen shown) :
    ∃ glyphs last, Writes shown (Cell.drawAll pen cells).1 glyphs last ∧
      G.At ⟨row, column + cells.length⟩ (Cell.drawAll pen cells).2 last ∧
      List.Forall₂ (Slot.Holds G.Shows) glyphs (cells.mapIdx fun i cell => ⟨.cell ⟨row, column + i⟩, cell.char⟩) := by
  induction cells generalizing column pen shown with
  | nil => exact ⟨[], shown, .nil shown, here, .nil⟩
  | cons cell rest ih =>
    have fit : G.Fits ⟨row, column⟩ cell := fits 0 cell rfl
    have shift : ∀ i, column + 1 + i = column + (i + 1) := by omega
    have later : ∀ i cell, rest[i]? = some cell → G.Fits ⟨row, column + 1 + i⟩ cell := by
      intro i cell member
      rw [shift]
      exact fits (i + 1) cell member
    obtain ⟨shows, next⟩ := G.right fit here
    obtain ⟨glyphs, last, writes, after, holds⟩ := ih later next
    refine ⟨⟨cell.char, cell.shownIn shown pen⟩ :: glyphs, last, ?_, ?_, ?_⟩
    · rw [Cell.drawAll_cons]
      exact ((G.drawable fit).draw_writes shown pen).append writes
    · rw [Cell.drawAll_cons, List.length_cons, ← shift]
      exact after
    · rw [List.mapIdx_cons]
      simp only [shift] at holds
      exact .cons ⟨rfl, shows⟩ holds

theorem rowStart (width : Nat) (number : Option Int) (plain : Terminal.escape ∉ indent) (here : G.At ⟨row, 1⟩ pen shown) :
    ∃ glyphs last, Writes shown (rowStart indent width number pen) glyphs last ∧ G.At ⟨row, 1⟩ pen last ∧
      List.Forall₂ (Slot.Holds G.Shows) glyphs (indent.map (⟨.indent, ·⟩) ++ (gutter width number).map (⟨.gutter, ·⟩)) := by
  have margin := Writes.of_plain plain shown
  have margins : List.Forall₂ (Slot.Holds G.Shows) (indent.map (⟨·, shown⟩)) (indent.map (⟨.indent, ·⟩)) :=
    holds_plain (show Part.indent.Allows G.Shows shown from trivial) indent
  cases number with
  | none =>
    refine ⟨_, shown, margin, here, ?_⟩
    rw [gutter, List.map_nil, List.append_nil]
    exact margins
  | some n =>
    -- the number is written in the default colour, and the pen is taken up again after it
    have reset := Writes.of_code pen.reset_cases shown
    rw [Pen.obey_reset (fun idle => G.idle (idle ▸ here))] at reset
    have numbers := Writes.of_plain (gutter_plain width (some n)) .reset
    have text : Grid.rowStart indent width (some n) pen = indent ++ pen.reset ++ gutter width (some n) ++ pen.codes := by
      simp [Grid.rowStart, gutter, gutterNumber, List.leftpad]
    refine ⟨_, _, text ▸ ((margin.append reset).append numbers).append (G.coded here).codes_writes, G.resume here, ?_⟩
    rw [List.append_nil, List.append_nil]
    exact List.rel_append margins (holds_plain (show Part.gutter.Allows G.Shows .reset from rfl) _)

theorem drawRows (width : Nat) (number : Option Int) (plain : Terminal.escape ∉ indent) {rows : List (List Cell)}
    (fits : ∀ i cells, rows[i]? = some cells → ∀ j cell, cells[j]? = some cell → G.Fits ⟨row + i, 1 + j⟩ cell)
    (here : G.At ⟨row, 1⟩ pen shown) :
    ∃ glyphs last, Writes shown (drawRows indent width number pen rows) glyphs last ∧
      List.Forall₂ (Slot.Holds G.Shows) glyphs (layoutFrom indent width number row (rows.map (·.map Cell.char))) := by
  induction rows generalizing row number pen shown with
  | nil => exact ⟨[], shown, .nil shown, .nil⟩
  | cons cells rest ih =>
    obtain ⟨starts, first, startWrites, begun, startHolds⟩ := G.rowStart width number plain here
    have fit : ∀ j cell, cells[j]? = some cell → G.Fits ⟨row, 1 + j⟩ cell := fits 0 cells rfl
    obtain ⟨inner, mid, cellWrites, ended, cellHolds⟩ := G.drawAll fit begun
    have later : ∀ i cells', rest[i]? = some cells' → ∀ j cell, cells'[j]? = some cell → G.Fits ⟨row + 1 + i, 1 + j⟩ cell := by
      intro i cells' member
      rw [Nat.add_assoc, Nat.add_comm 1 i]
      exact fits (i + 1) cells' member
    obtain ⟨below, last, restWrites, restHolds⟩ := ih (number.map (· + 1)) later (G.down ended)
    refine ⟨starts ++ inner ++ ⟨'\n', mid⟩ :: below, last, ?_, ?_⟩
    · exact (startWrites.append cellWrites).append (.char (by decide) restWrites)
    · have places : (cells.map Cell.char).mapIdx (fun i c => (⟨.cell ⟨row, i + 1⟩, c⟩ : Slot)) =
          cells.mapIdx fun i cell => ⟨.cell ⟨row, 1 + i⟩, cell.char⟩ := by
        refine List.ext_getElem? ?_
        intro i
        simp [Nat.add_comm 1, Function.comp_def]
      rw [List.map_cons, layoutFrom_cons, layoutRow, places, List.append_assoc _ [_], List.singleton_append]
      exact List.rel_append (List.rel_append startHolds cellHolds) (.cons ⟨rfl, trivial⟩ restHolds)

/-- What a terminal shows of a grid are its characters in order, up to blanks at the end. -/
theorem render {g : Grid} (plain : Terminal.escape ∉ g.indent) (nonempty : g.rows ≠ [])
    (fits : ∀ p cell, g.cell? p = some cell → G.Fits p cell) :
    ∃ kept left, layout g.indent g.numberWidth g.lineNumber g.texts = kept ++ left ∧
      (∀ slot ∈ left, Text.isBlank slot.char = true) ∧ List.Forall₂ (Slot.Holds G.Shows) (Terminal.read g.render) kept := by
  have places : ∀ i cells, g.rows[i]? = some cells → ∀ j cell, cells[j]? = some cell → G.Fits ⟨1 + i, 1 + j⟩ cell := by
    intro i cells row j cell column
    refine fits _ cell ?_
    rw [Nat.add_comm 1, Nat.add_comm 1, cell?, row]
    exact column
  obtain ⟨glyphs, last, writes, holds⟩ := G.drawRows g.numberWidth g.lineNumber plain places G.start
  obtain ⟨shown, cut, mid, rfl, blank, writes'⟩ := writes.trimEnd
  have text : Terminal.read g.render = shown := by
    have all := writes'.append (Writes.of_code (.inr (Terminal.isCode_code 0)) mid)
    rw [List.append_nil] at all
    rw [render_eq nonempty, Terminal.read]
    exact all.readFrom_eq
  have kept := List.forall₂_take shown.length holds
  have left := List.forall₂_drop shown.length holds
  rw [List.take_left] at kept
  rw [List.drop_left] at left
  refine ⟨_, _, (List.take_append_drop shown.length _).symm, ?_, text ▸ kept⟩
  intro slot member
  have char : slot.char ∈ cut.map Glyph.char := chars_of_holds left ▸ List.mem_map_of_mem member
  obtain ⟨glyph, member', same⟩ := List.mem_map.mp char
  exact same ▸ blank glyph member'

end Guide

end Grid

end CMakeLint
