import CMakeLint.Proofs.Grid.Drawing
import CMakeLint.Proofs.Grid.Styling

/-!
Styling never changes what is written. However often ranges of a grid are styled, its text without escape codes is that of the grid
without styles, up to blanks at the end (`unstyled_of_restyled`): each row with its indent, its number in a column that is wide enough
for all of them, a bar and its cells. The one thing that can go wrong is a row number that is too long to be written at all
(`write_of_tooLong`).
-/
namespace CMakeLint

open Terminal (IsCode)

/-! ### Characters that are shown -/

theorem Text.mem_unifyNewlines {t : Text} {c : Char} (member : c ∈ unifyNewlines t) : c ∈ t ∨ c = '\n' := by
  induction t with
  | nil => cases member
  | cons d t ih =>
    have later : c ∈ unifyNewlines t → c ∈ d :: t ∨ c = '\n' := by
      intro member
      rcases ih member with inside | newline
      · exact .inl (List.mem_cons_of_mem _ inside)
      · exact .inr newline
    rw [unifyNewlines] at member
    by_cases carriage : d = '\r'
    · rw [if_pos carriage] at member
      by_cases pair : t.head? = some '\n'
      · rw [if_pos pair] at member
        exact later member
      · rw [if_neg pair] at member
        rcases List.mem_cons.mp member with newline | member
        · exact .inr newline
        · exact later member
    · rw [if_neg carriage] at member
      rcases List.mem_cons.mp member with same | member
      · exact .inl (same ▸ List.mem_cons_self)
      · exact later member

theorem Text.mem_expandTabs {t : Text} {c : Char} (member : c ∈ expandTabs t) : c ∈ t ∨ c = ' ' := by
  obtain ⟨d, inside, expanded⟩ := List.mem_flatMap.mp member
  by_cases tab : d = '\t'
  · rw [if_pos tab] at expanded
    simp at expanded
    exact .inr expanded
  · rw [if_neg tab, List.mem_singleton] at expanded
    exact .inl (expanded ▸ inside)

namespace Grid

theorem escape_not_mem_normalize {t : Text} (plain : Terminal.escape ∉ t) : Terminal.escape ∉ normalize t := by
  intro member
  rcases Text.mem_expandTabs member with unified | blank
  · rcases Text.mem_unifyNewlines unified with inside | newline
    · exact plain inside
    · exact absurd newline (by decide)
  · exact absurd blank (by decide)

theorem ofText_cell_eq {t indent : Text} {lineNumber : Option Int} {p : Position} {cell : Cell}
    (present : (ofText t indent lineNumber).cell? p = some cell) : ∃ c ∈ normalize t, cell = Cell.plain c := by
  rw [cell_ofText] at present
  obtain ⟨c, char, rfl⟩ := Option.map_eq_some_iff.mp present
  obtain ⟨n, inside, _⟩ := Text.offset_of_charAt char
  exact ⟨c, List.mem_of_getElem? inside, rfl⟩

theorem plain_drawable {c : Char} (plain : c ≠ Terminal.escape) : (Cell.plain c).Drawable :=
  ⟨plain, by simp [Cell.plain], by simp [Cell.plain]⟩

theorem texts_length (g : Grid) : g.texts.length = g.rows.length := by
  simp [texts]

/-- A grid with the lines of a text has as many rows, and so at least one. -/
theorem rows_of_texts {g : Grid} {t : Text} (texts : g.texts = Text.lines t) :
    g.rows.length = (Text.lines t).length ∧ g.rows ≠ [] := by
  have length : g.rows.length = (Text.lines t).length := by rw [← texts, texts_length]
  refine ⟨length, ?_⟩
  intro empty
  rw [empty] at length
  exact Text.lines_ne_nil t (List.length_eq_zero_iff.mp length.symm)

/-! ### Styling again and again -/

theorem isCode_of_some (n : Nat) : ∀ k ∈ some (Terminal.code n), IsCode k := by
  rintro _ ⟨rfl⟩
  exact Terminal.isCode_code n

theorem isCode_of_none : ∀ k ∈ (none : Option Text), IsCode k := by
  rintro k ⟨⟩

/-- A grid that comes from another one by styling ranges of it one after the other, with escape codes as styles and colours. -/
inductive Restyled (g : Grid) : Grid → Prop where
  | same : Restyled g g
  | step {h h' : Grid} {range : Range} {style colour : Option Text} (before : Restyled g h) (styles : ∀ k ∈ style, IsCode k)
      (colours : ∀ k ∈ colour, IsCode k) (styled : h.styleRange range style colour = .ok () h') : Restyled g h'

theorem restyle_drawable {cell : Cell} {style colour : Option Text} (drawable : cell.Drawable) (styles : ∀ k ∈ style, IsCode k)
    (colours : ∀ k ∈ colour, IsCode k) : (cell.restyle style colour).Drawable := by
  refine ⟨drawable.plain, styles, ?_⟩
  by_cases resets : style = some Terminal.resetAll
  · simp [Cell.restyle, resets]
  · simpa [Cell.restyle, resets] using colours

namespace Restyled

variable {g h : Grid}

/-- A styling leaves the rows, the indent and the number of the first row as they are. -/
theorem frame (restyled : Restyled g h) : h.texts = g.texts ∧ h.indent = g.indent ∧ h.lineNumber = g.lineNumber := by
  induction restyled with
  | same => exact ⟨rfl, rfl, rfl⟩
  | step _ _ _ styled ih =>
    obtain ⟨chosen, rfl⟩ := exists_chosen_of_styleRange styled
    obtain ⟨texts, indent, number⟩ := ih
    refine ⟨?_, indent, number⟩
    rw [texts_mapCells, texts]
    intro p cell
    by_cases changed : chosen p = true <;> simp [changed, Cell.restyle]

theorem drawable (restyled : Restyled g h) (given : ∀ p cell, g.cell? p = some cell → cell.Drawable) :
    ∀ p cell, h.cell? p = some cell → cell.Drawable := by
  induction restyled with
  | same => exact given
  | step _ styles colours styled ih =>
    obtain ⟨chosen, rfl⟩ := exists_chosen_of_styleRange styled
    intro p cell present
    rw [cell_mapCells] at present
    obtain ⟨old, before, rfl⟩ := Option.map_eq_some_iff.mp present
    by_cases changed : chosen p = true
    · rw [if_pos changed]
      exact restyle_drawable (ih p old before) styles colours
    · rw [if_neg changed]
      exact ih p old before

end Restyled

/-- Cells with any codes. An idle pen stands for the default colour. -/
def anyStyle : Guide where
  Fits _ cell := cell.Drawable
  At _ pen shown := pen.Coded ∧ (pen = Pen.default → shown = .reset)
  Shows _ _ := True
  start := ⟨Pen.default_coded, fun _ => rfl⟩
  drawable := id
  coded := And.left
  idle here := here.2 rfl
  resume := by
    rintro p pen shown ⟨coded, _⟩
    refine ⟨coded, ?_⟩
    rintro rfl
    exact Pen.default_resumed
  down := id
  right := by
    rintro row column pen shown cell drawable ⟨coded, idle⟩
    refine ⟨trivial, drawable.draw_coded coded, ?_⟩
    rw [Cell.draw, Cell.shownIn]
    by_cases resets : cell.style = some Terminal.resetAll
    · rw [if_pos resets, if_pos resets]
      exact fun _ => Pen.obey_reset idle
    · rw [if_neg resets, if_neg resets]
      intro default
      obtain ⟨style, colour⟩ := Pen.mk.inj default
      obtain ⟨noStyle, oldStyle⟩ := Option.or_eq_none_iff.mp style
      obtain ⟨noColour, oldColour⟩ := Option.or_eq_none_iff.mp colour
      have before : pen = Pen.default := Pen.eq_default_of_idle (by simp [Pen.isSet, oldStyle, oldColour])
      simp [Cell.switch, noStyle, noColour, Terminal.obey_nil, idle before]

/-! ### Row numbers -/

theorem length_ofNat_mono {m n : Nat} (le : m ≤ n) : (Text.ofNat m).length ≤ (Text.ofNat n).length := by
  have positive : 0 < (Text.ofNat n).length := List.length_pos_iff.mpr Nat.toDigits_ne_nil
  have below := (Nat.length_toDigits_le_iff (by decide) positive).mp (Nat.le_refl (Text.ofNat n).length)
  exact (Nat.length_toDigits_le_iff (by decide) positive).mpr (Nat.lt_of_le_of_lt le below)

theorem ofInt_of_nonneg {n : Int} (nonneg : 0 ≤ n) : Text.ofInt n = Text.ofNat n.toNat := by
  rw [Text.ofInt, if_neg (by omega)]
  congr 1
  omega

/-- No number that is shown is wider than the column of row numbers. -/
theorem length_number_le {first : Int} {rows i : Nat} (inside : i < rows) (shown : 0 ≤ first + i) :
    (Text.ofNat (first + i).toNat).length ≤ gutterWidth first rows := by
  rw [gutterWidth, ofInt_of_nonneg (by omega)]
  exact Nat.le_trans (length_ofNat_mono (by omega)) (Nat.le_max_left _ _)

/-- The greatest of the numbers of some rows is too long to be written. -/
def TooLong (first : Int) (rows : Nat) : Prop :=
  Text.maxDigits < (Text.ofInt (max first 0 + rows - 1)).length

theorem tooLong_iff {first : Int} {rows : Nat} : TooLong first rows ↔ Text.maxDigits < gutterWidth first rows := by
  have small : 2 < Text.maxDigits := by decide
  rw [TooLong, gutterWidth]
  omega

theorem write_of_tooLong {g : Grid} {first : Int} (nonempty : g.rows ≠ []) (number : g.lineNumber = some first)
    (long : TooLong first g.rows.length) : g.write = .error .numberTooLong := by
  have rows : g.hasRows = true := by simpa [hasRows] using nonempty
  simp [write, number, rows, tooLong_iff.mp long]

theorem write_of_short {g : Grid} (short : ∀ first ∈ g.lineNumber, ¬ TooLong first g.rows.length) : g.write = .ok g.render := by
  rw [write]
  cases number : g.lineNumber with
  | none => rfl
  | some first =>
    have fits := short first (by rw [number]; rfl)
    rw [tooLong_iff] at fits
    simp [fits]

/-! ### What is written -/

/-- Rows as text, without styles and colours. -/
def plainRows (indent : Text) (width : Nat) (number : Option Int) (rows : List Text) : Text :=
  (rows.mapIdx fun i cells => indent ++ gutter width (number.map (· + (i : Int))) ++ cells ++ ['\n']).flatten

example : plainRows [' '] 2 (some (-1)) ["a".toList, [], "b".toList] = "    | a\n  0 | \n  1 | b\n".toList := by decide +kernel

theorem layout_chars (indent : Text) (width : Nat) (number : Option Int) (rows : List Text) :
    (layout indent width number rows).map Slot.char = plainRows indent width number rows := by
  have row : ∀ gutter row cells, (layoutRow indent gutter row cells).map Slot.char = indent ++ gutter ++ cells ++ ['\n'] := by
    intro gutter row cells
    have same : (cells.mapIdx fun i c => (⟨.cell ⟨row, i + 1⟩, c⟩ : Slot)).map Slot.char = cells := by
      refine List.ext_getElem? ?_
      intro i
      simp [Function.comp_def]
    simp [layoutRow, same, Function.comp_def]
  rw [layout, layoutFrom, plainRows, List.map_flatten]
  refine congrArg List.flatten (List.ext_getElem? ?_)
  intro i
  simp [row, Function.comp_def]

/-- However a grid is styled, its text without escape codes is that of its plain rows, up to blanks at the end. All row numbers
    stand in a column that is wide enough for them. A grid has no text if its last number is too long, and only then. -/
theorem unstyled_of_restyled {t indent : Text} {lineNumber : Option Int} {g : Grid} (plain : Terminal.escape ∉ t)
    (plainIndent : Terminal.escape ∉ indent) (restyled : Restyled (ofText t indent lineNumber) g) :
    ((∀ first ∈ lineNumber, ¬ TooLong first (Text.lines (normalize t)).length) → ∃ out width, g.write = .ok out ∧
      Text.trimEnd (Terminal.unstyled out) =
        Text.trimEnd (plainRows indent width lineNumber (Text.lines (normalize t))) ∧
      2 ≤ width ∧ ∀ first ∈ lineNumber, ∀ i < (Text.lines (normalize t)).length, 0 ≤ first + (i : Int) →
        (Text.ofNat (first + i).toNat).length ≤ width) ∧
    ((∃ first ∈ lineNumber, TooLong first (Text.lines (normalize t)).length) → g.write = .error .numberTooLong) := by
  obtain ⟨texts, (sameIndent : g.indent = indent), (sameNumber : g.lineNumber = lineNumber)⟩ := restyled.frame
  rw [texts_ofText] at texts
  obtain ⟨length, nonempty⟩ := rows_of_texts texts
  rw [← length]
  constructor
  · intro short
    have drawable : ∀ p cell, g.cell? p = some cell → cell.Drawable := by
      refine restyled.drawable ?_
      intro p cell present
      obtain ⟨c, member, rfl⟩ := ofText_cell_eq present
      exact plain_drawable fun same => escape_not_mem_normalize plain (same ▸ member)
    obtain ⟨kept, left, split, blank, holds⟩ := anyStyle.render (sameIndent ▸ plainIndent) nonempty drawable
    have chars : Terminal.unstyled g.render = kept.map Slot.char := (chars_of_holds holds).symm
    have all := layout_chars g.indent g.numberWidth g.lineNumber g.texts
    rw [split, List.map_append, numberWidth, texts, sameIndent, sameNumber] at all
    have blanks : ∀ c ∈ left.map Slot.char, Text.isBlank c = true := by
      intro c member
      obtain ⟨slot, inside, rfl⟩ := List.mem_map.mp member
      exact blank slot inside
    have text := Text.trimEnd_append_blank (kept.map Slot.char) blanks
    rw [all, ← chars] at text
    have written := write_of_short (sameNumber ▸ short)
    cases lineNumber with
    | none => exact ⟨g.render, 2, written, text.symm, Nat.le_refl 2, fun _ absent => (Option.not_mem_none _ absent).elim⟩
    | some first =>
      refine ⟨g.render, gutterWidth first g.rows.length, written, text.symm, Nat.le_max_right _ _, ?_⟩
      rintro _ ⟨rfl⟩ i inside shown
      exact length_number_le inside shown
  · rintro ⟨first, number, long⟩
    exact write_of_tooLong nonempty (sameNumber.trans number) long

/-- A grid whose numbers start below zero, styled first from the last column of its first row on and then to its end. -/
theorem plain_of_styled_twice : ∃ g g',
    (ofText "a\n\nb ".toList [' '] (some (-1))).styleRange ⟨1, 0, 3, 1⟩ (some Brightness.bright.code) (some Colour.red.code) = .ok () g ∧
    g.styleRange ⟨3, 2, 9, 9⟩ (some Terminal.resetAll) none = .ok () g' ∧
    ∃ out width, g'.write = .ok out ∧ 2 ≤ width ∧
      Text.trimEnd (Terminal.unstyled out) = Text.trimEnd (plainRows [' '] width (some (-1)) ["a".toList, [], "b ".toList]) := by
  obtain ⟨g, first⟩ : ∃ g, (ofText "a\n\nb ".toList [' '] (some (-1))).styleRange ⟨1, 0, 3, 1⟩ (some Brightness.bright.code)
      (some Colour.red.code) = .ok () g := ⟨_, rfl⟩
  obtain ⟨g', second⟩ : ∃ g', g.styleRange ⟨3, 2, 9, 9⟩ (some Terminal.resetAll) none = .ok () g' :=
    ⟨_, g.styleRange_eq _ _ (by decide) (by decide)⟩
  have restyled := Restyled.step (.step .same (isCode_of_some 1) (isCode_of_some 31) first) (isCode_of_some 0) isCode_of_none second
  have rows : Text.lines (normalize "a\n\nb ".toList) = ["a".toList, [], "b ".toList] := by decide +kernel
  have short : ∀ first ∈ some (-1 : Int), ¬ TooLong first (Text.lines (normalize "a\n\nb ".toList)).length := by
    rintro _ ⟨rfl⟩
    rw [rows, TooLong]
    decide +kernel
  obtain ⟨out, width, written, text, wide, _⟩ := (unstyled_of_restyled (by decide) (by decide) restyled).1 short
  rw [rows] at text
  exact ⟨g, g', first, second, out, width, written, wide, text⟩

/-- The number that is written with some nines. -/
def nines (k : Nat) : Nat :=
  Text.ofDigitValues (List.replicate k 9)

/-- The number after it has one digit more. -/
theorem length_after_nines {k : Nat} (positive : 0 < k) : k < (Text.ofNat (nines k + 1)).length := by
  have value : ∀ k n, (List.replicate k 9).foldl (fun n v => 10 * n + v) n + 1 = (n + 1) * 10 ^ k := by
    intro k
    induction k with
    | zero => simp
    | succ k ih =>
      intro n
      rw [List.replicate_succ, List.foldl_cons, ih, Nat.pow_succ]
      grind
  by_contra short
  have below := (Nat.length_toDigits_le_iff (by decide) positive).mp (Nat.le_of_not_lt short)
  have power := value k 0
  rw [Nat.zero_add, Nat.one_mul] at power
  rw [nines, Text.ofDigitValues, power] at below
  exact Nat.lt_irrefl _ below

theorem tooLong_nines : TooLong (nines Text.maxDigits) 2 := by
  have last : max (nines Text.maxDigits : Int) 0 + (2 : Nat) - 1 = (nines Text.maxDigits + 1 : Nat) := by omega
  rw [TooLong, last, ofInt_of_nonneg (Int.natCast_nonneg _), Int.toNat_natCast]
  exact length_after_nines (by decide)

/-- Of two rows, the first has the greatest number that can be written: there is no text for the second. -/
theorem after_nines_not_written :
    Terminal.escape ∉ "a\nb".toList ∧ Terminal.escape ∉ ([] : Text) ∧
      Restyled (ofText "a\nb".toList [] (some (nines 4300))) (ofText "a\nb".toList [] (some (nines 4300))) ∧
      (ofText "a\nb".toList [] (some (nines 4300))).write = .error .numberTooLong ∧
      ¬ ∃ out, (ofText "a\nb".toList [] (some (nines 4300))).write = .ok out := by
  have refused : (ofText "a\nb".toList [] (some (nines 4300))).write = .error .numberTooLong :=
    write_of_tooLong (rows_of_texts (texts_ofText _ _ _)).2 rfl tooLong_nines
  refine ⟨by decide, by decide, .same, refused, ?_⟩
  rintro ⟨out, written⟩
  rw [refused] at written
  cases written

end Grid

end CMakeLint
