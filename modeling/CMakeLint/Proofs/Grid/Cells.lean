import CMakeLint.Grid.Style
import CMakeLint.Proofs.Text.Layout

/-!
Grids cell by cell. Styling a range changes the cells between its first and its last place in reading order and no others
(`styleRange_eq`). The cells of the grid of a text are the characters of that text at their lines and columns
(`cell_ofText`), and so are the characters that are searched (`characters_ofText`).
-/
namespace CMakeLint

/-! ### Texts as they are shown -/

theorem Text.unifyNewlines_eq_nil_iff {t : Text} : unifyNewlines t = [] ↔ t = [] := by
  cases t with
  | nil => simp [unifyNewlines]
  | cons c t =>
    rw [unifyNewlines]
    by_cases carriage : c = '\r'
    · cases t with
      | nil => simp [carriage]
      | cons d t => by_cases newline : d = '\n' <;> simp [carriage, newline, unifyNewlines]
    · simp [carriage]

theorem Text.expandTabs_eq_nil_iff {t : Text} : expandTabs t = [] ↔ t = [] := by
  cases t with
  | nil => simp [expandTabs]
  | cons c t => by_cases tab : c = '\t' <;> simp [expandTabs, tab]

namespace Grid

theorem normalize_eq_nil_iff {t : Text} : normalize t = [] ↔ t = [] := by
  rw [normalize, Text.expandTabs_eq_nil_iff, Text.unifyNewlines_eq_nil_iff]

/-! ### Styling -/

/-- A place lies in a range. -/
def Range.Has (r : Range) (p : Position) : Prop :=
  (r.firstRow < p.line ∨ r.firstRow = p.line ∧ r.firstColumn ≤ p.column) ∧
    ((p.line : Int) < r.lastRow ∨ p.line = r.lastRow ∧ (p.column : Int) ≤ r.lastColumn)

instance (r : Range) (p : Position) : Decidable (r.Has p) :=
  inferInstanceAs (Decidable (_ ∧ _))

/-- A grid whose cells are changed by their places. -/
def mapCells (change : Position → Cell → Cell) (g : Grid) : Grid :=
  { g with rows := g.rows.mapIdx fun row cells => cells.mapIdx fun column => change ⟨row + 1, column + 1⟩ }

theorem styleCells_eq (change : Cell → Cell) (count offset : Nat) (row : List Cell) :
    styleCells change count offset row =
      .ok () (row.mapIdx fun i cell => if offset ≤ i ∧ i < offset + count then change cell else cell) := by
  induction count generalizing offset row with
  | zero =>
    rw [styleCells, mapIdx_eq_self]
    intro i _ cell
    exact if_neg (by omega)
  | succ count ih =>
    rw [styleCells]
    by_cases past : (row.length : Int) ≤ offset
    · rw [if_pos past, mapIdx_eq_self]
      intro i inside cell
      exact if_neg (by omega)
    · have place : place? row.length offset = some offset := by simp [place?]
      have next : (offset : Int) + 1 = (offset + 1 : Nat) := rfl
      simp only [past, ↓reduceIte, place, next, ih]
      refine congrArg _ (List.mapIdx_eq_iff.mpr ?_)
      intro i
      rw [List.getElem?_mapIdx, List.getElem?_modify]
      cases row[i]? with
      | none => rfl
      | some cell =>
        by_cases here : offset = i
        · subst here
          simp only [Option.map_some, Option.map_eq_map, ↓reduceIte]
          rw [if_pos (by omega), if_neg (by omega)]
        · have same : (offset ≤ i ∧ i < offset + (count + 1)) ↔ (offset + 1 ≤ i ∧ i < offset + 1 + count) := by omega
          simp [here, same]

theorem styleRows_eq (change : Cell → Cell) {range : Range} (column : 1 ≤ range.firstColumn) (row : Nat)
    (rows : List (List Cell)) : styleRows change range row rows =
      .ok () (rows.mapIdx fun r cells => cells.mapIdx fun c cell =>
        if range.Has ⟨row + r, c + 1⟩ then change cell else cell) := by
  induction rows generalizing row with
  | nil => rfl
  | cons cells rest ih =>
    rw [styleRows, ih (row + 1), List.mapIdx_cons]
    have below : ∀ r, row + 1 + r = row + (r + 1) := by omega
    simp only [below, Nat.add_zero]
    by_cases above : (row : Int) < range.firstRow
    · rw [if_pos above, mapIdx_eq_self (l := cells)]
      intro c _ cell
      exact if_neg (by unfold Range.Has; simp only; omega)
    · rw [if_neg above]
      by_cases past : range.lastRow < row
      · rw [if_pos past, mapIdx_eq_self (l := cells), mapIdx_eq_self (l := rest)]
        · intro r _ cells
          refine mapIdx_eq_self ?_
          intro c _ cell
          exact if_neg (by unfold Range.Has; simp only; omega)
        · intro c _ cell
          exact if_neg (by unfold Range.Has; simp only; omega)
      · have start : (range.startOffset row).toNat = range.startOffset row := by
          unfold Range.startOffset
          split <;> omega
        have cut : cells.mapIdx (fun c cell => if (range.startOffset row).toNat ≤ c ∧ c < (range.startOffset row).toNat +
            (range.stopOffset row cells.length - range.startOffset row).toNat then change cell else cell) =
            cells.mapIdx fun c cell => if range.Has ⟨row, c + 1⟩ then change cell else cell := by
          refine List.mapIdx_eq_mapIdx_iff.mpr ?_
          intro c inside
          refine if_congr ?_ rfl rfl
          unfold Range.Has Range.startOffset Range.stopOffset
          simp only
          split <;> split <;> omega
        have styled := styleCells_eq change (range.stopOffset row cells.length - range.startOffset row).toNat
          (range.startOffset row).toNat cells
        rw [start] at styled
        simp only [if_neg past, styled, cut]

/-- Styling a range whose first column is a column changes the cells of the range. -/
theorem styleRange_eq (g : Grid) {range : Range} (style colour : Option Text) (column : 1 ≤ range.firstColumn)
    (valid : range.fault? = none) : g.styleRange range style colour =
      .ok () (g.mapCells fun p cell => if range.Has p then cell.restyle style colour else cell) := by
  have number : ∀ r, 1 + r = r + 1 := by omega
  simp only [styleRange, valid, styleRows_eq (Cell.restyle style colour) column, mapCells, number]

/-- The texts of the rows. -/
def texts (g : Grid) : List Text :=
  g.rows.map (·.map Cell.char)

theorem texts_mapCells {change : Position → Cell → Cell} (same : ∀ p cell, (change p cell).char = cell.char) (g : Grid) :
    (g.mapCells change).texts = g.texts := by
  refine List.ext_getElem? ?_
  intro row
  simp only [texts, mapCells, List.getElem?_map, List.getElem?_mapIdx, Option.map_map]
  refine congrArg (fun f => g.rows[row]?.map f) (funext fun cells => ?_)
  refine List.ext_getElem? ?_
  intro column
  simp only [Function.comp_apply, List.getElem?_map, List.getElem?_mapIdx, Option.map_map]
  exact congrArg (fun f => cells[column]?.map f) (funext fun cell => same _ cell)

theorem mapCells_mapCells (change change' : Position → Cell → Cell) (g : Grid) :
    (g.mapCells change).mapCells change' = g.mapCells fun p cell => change' p (change p cell) := by
  simp [mapCells, Function.comp_def]

/-! ### Cells by their places -/

/-- The cell at a place. -/
def cell? (g : Grid) : Position → Option Cell
  | ⟨row + 1, column + 1⟩ => g.rows[row]?.bind (·[column]?)
  | _ => none

theorem cell_mapCells (change : Position → Cell → Cell) (g : Grid) (p : Position) :
    (g.mapCells change).cell? p = (g.cell? p).map (change p) := by
  obtain ⟨row, column⟩ := p
  rcases row with _ | row
  · rfl
  rcases column with _ | column
  · rfl
  simp only [cell?, mapCells, List.getElem?_mapIdx]
  cases g.rows[row]? with
  | none => rfl
  | some cells => simp

theorem cell_ofText (t indent : Text) (lineNumber : Option Int) (p : Position) :
    (ofText t indent lineNumber).cell? p = ((normalize t).charAt? p).map Cell.plain := by
  obtain ⟨row, column⟩ := p
  rcases row with _ | row
  · rfl
  rcases column with _ | column
  · rfl
  simp only [cell?, ofText, Text.charAt?, List.getElem?_map]
  cases (Text.lines (normalize t))[row]? with
  | none => rfl
  | some l => simp

theorem texts_ofText (t indent : Text) (lineNumber : Option Int) :
    (ofText t indent lineNumber).texts = Text.lines (normalize t) := by
  simp [texts, ofText, Cell.plain, Function.comp_def]

/-! ### Characters in reading order -/

/-- The characters of a text with their places, the first one at a given place. -/
def placed (p : Position) (t : Text) : List Located :=
  t.mapIdx fun n c => ⟨((t.take n).foldl Position.next p).line, ((t.take n).foldl Position.next p).column, c⟩

theorem placed_cons (p : Position) (c : Char) (t : Text) :
    placed p (c :: t) = ⟨p.line, p.column, c⟩ :: placed (p.next c) t := by
  simp [placed, List.mapIdx_cons]

theorem locateRows_cons (row : Nat) (cells : List Cell) (rest : List (List Cell)) :
    locateRows row (cells :: rest) = locateRow row 1 cells ++
      if rest = [] then [] else ⟨row, 1 + cells.length, '\n'⟩ :: locateRows (row + 1) rest := by
  cases rest with
  | nil => simp [locateRows]
  | cons next rest =>
    rw [locateRows, if_neg (by simp), Nat.add_comm 1]
    simp

/-- Going through the rows from a place in the first of them is going through the text from there. -/
theorem locate_lines (t : Text) (p : Position) {first : Text} {rest : List Text} (split : Text.lines t = first :: rest) :
    locateRow p.line p.column (first.map Cell.plain) ++ (if rest = [] then [] else
      ⟨p.line, p.column + first.length, '\n'⟩ :: locateRows (p.line + 1) (rest.map (·.map Cell.plain))) = placed p t := by
  -- the place moves along with the text, so that its line and column are always those of the row that is under way
  induction t generalizing p first rest with
  | nil =>
    rw [Text.lines_nil] at split
    obtain ⟨rfl, rfl⟩ := List.cons.inj split
    rfl
  | cons c t ih =>
    obtain ⟨next, more, below⟩ := Text.exists_first_line t
    rw [placed_cons]
    by_cases newline : c = '\n'
    · rw [newline, Text.lines_newline] at split
      obtain ⟨rfl, rfl⟩ := List.cons.inj split
      have tail := ih (p.next c) below
      rw [Position.next, if_pos newline] at tail ⊢
      rw [if_neg (Text.lines_ne_nil t), ← tail, below, newline, List.map_cons, locateRows_cons]
      simp [locateRow]
    · rw [Text.lines_cons newline, below] at split
      obtain ⟨rfl, rfl⟩ := List.cons.inj split
      have tail := ih (p.next c) below
      rw [Position.next, if_neg newline] at tail ⊢
      simp only [List.headD_cons, List.tail_cons, List.map_cons, List.length_cons]
      rw [← tail, locateRow]
      have column : p.column + (next.length + 1) = p.column + 1 + next.length := by omega
      rw [column]
      rfl

/-- The characters of the grid of a text are those of the text, each at its place. -/
theorem characters_ofText (t indent : Text) (lineNumber : Option Int) :
    (ofText t indent lineNumber).characters = placed .first (normalize t) := by
  obtain ⟨first, rest, split⟩ := Text.exists_first_line (normalize t)
  rw [← locate_lines (normalize t) .first split]
  rw [characters, ofText, split, List.map_cons, locateRows_cons]
  simp [Position.first]

/-! ### Where a text is found -/

/-- Characters spell a text if they begin with it and do not end there. -/
theorem spells_eq_some_iff {t : Text} {chars : List Located} {last : Located} : spells t chars = some last ↔
    t ≠ [] ∧ t <+: chars.map (·.char) ∧ t.length < chars.length ∧ chars[t.length - 1]? = some last := by
  induction chars generalizing t with
  | nil => rcases t with _ | ⟨c, _ | ⟨d, t⟩⟩ <;> simp [spells]
  | cons here rest ih =>
    rcases t with _ | ⟨c, _ | ⟨d, t⟩⟩
    · simp [spells]
    · cases rest with
      | nil => simp [spells]
      | cons next rest =>
        rw [spells]
        by_cases same : here.char = c
        · simp [same]
        · simp [same, Ne.symm same]
    · rw [spells]
      by_cases same : here.char = c
      · rw [if_pos same, ih]
        simp [same]
      · simp [same, Ne.symm same]

theorem locate_eq_some_iff {t : Text} {chars : List Located} {region : Region} : locate t chars = some region ↔
    ∃ k here last, chars[k]? = some here ∧ spells t (chars.drop k) = some last ∧
      (∀ j < k, spells t (chars.drop j) = none) ∧ region = ⟨here.row, here.column, last.row, last.column⟩ := by
  induction chars with
  | nil => simp [locate]
  | cons here rest ih =>
    rw [locate]
    cases spelled : spells t (here :: rest) with
    | some last =>
      constructor
      · rintro ⟨rfl⟩
        exact ⟨0, here, last, rfl, spelled, by simp, rfl⟩
      · rintro ⟨k, here', last', char, spelled', first, rfl⟩
        rcases k with _ | k
        · cases char
          rw [List.drop_zero, spelled] at spelled'
          cases spelled'
          rfl
        · have earlier := first 0 (Nat.succ_pos k)
          rw [List.drop_zero, spelled] at earlier
          cases earlier
    | none =>
      simp only
      rw [ih]
      constructor
      · rintro ⟨k, here', last, char, spelled', first, rfl⟩
        refine ⟨k + 1, here', last, char, spelled', ?_, rfl⟩
        intro j less
        rcases j with _ | j
        · exact spelled
        · exact first j (by omega)
      · rintro ⟨k, here', last, char, spelled', first, rfl⟩
        rcases k with _ | k
        · rw [List.drop_zero, spelled] at spelled'
          cases spelled'
        · exact ⟨k, here', last, char, spelled', fun j less => first (j + 1) (by omega), rfl⟩

/-- A piece of text stands at a position of a text, with at least one more character after it, and nowhere before. -/
structure FirstWithin (piece t : Text) (k : Nat) : Prop where
  occurs : piece <+: t.drop k
  more : k + piece.length < t.length
  first : ∀ j < k, ¬ piece <+: t.drop j

theorem spells_drop_iff {t : Text} {chars : List Located} {k : Nat} {last : Located} (nonempty : t ≠ []) :
    spells t (chars.drop k) = some last ↔
      t <+: (chars.map (·.char)).drop k ∧ k + t.length < chars.length ∧ chars[k + t.length - 1]? = some last := by
  have positive : 0 < t.length := List.length_pos_iff.mpr nonempty
  have index : k + (t.length - 1) = k + t.length - 1 := by omega
  have room : t.length < chars.length - k ↔ k + t.length < chars.length := by omega
  rw [spells_eq_some_iff, List.map_drop, List.length_drop, List.getElem?_drop, index, room]
  simp [nonempty]

/-- What is found in a grid goes from the cell where the first place of the text begins to the cell where it ends, if the text
    does not end the grid there. -/
theorem find_eq_some_iff {g : Grid} {t : Text} {region : Region} : g.find? t = some region ↔
    normalize t ≠ [] ∧ ∃ k here last, FirstWithin (normalize t) (g.characters.map (·.char)) k ∧
      g.characters[k]? = some here ∧ g.characters[k + (normalize t).length - 1]? = some last ∧
      region = ⟨here.row, here.column, last.row, last.column⟩ := by
  rw [find?, locate_eq_some_iff]
  generalize normalize t = t
  generalize g.characters = chars
  constructor
  · rintro ⟨k, here, last, char, spelled, earlier, rfl⟩
    have nonempty : t ≠ [] := (spells_eq_some_iff.mp spelled).1
    obtain ⟨occurs, more, char'⟩ := (spells_drop_iff nonempty).mp spelled
    refine ⟨nonempty, k, here, last, ⟨occurs, by simpa using more, ?_⟩, char, char', rfl⟩
    intro j less occurs'
    have inside : j + t.length - 1 < chars.length := by omega
    have found := (spells_drop_iff nonempty).mpr ⟨occurs', by omega, List.getElem?_eq_getElem inside⟩
    rw [earlier j less] at found
    cases found
  · rintro ⟨nonempty, k, here, last, ⟨occurs, more, first⟩, char, char', rfl⟩
    rw [List.length_map] at more
    refine ⟨k, here, last, char, (spells_drop_iff nonempty).mpr ⟨occurs, more, char'⟩, ?_, rfl⟩
    intro j less
    rw [Option.eq_none_iff_forall_ne_some]
    intro other spelled
    exact first j less ((spells_drop_iff nonempty).mp spelled).1

/-- The region from one place to another. -/
def Region.between (p q : Position) : Region :=
  ⟨p.line, p.column, q.line, q.column⟩

theorem placed_getElem? (t : Text) (n : Nat) :
    (placed .first t)[n]? = t[n]?.map fun c => ⟨(Position.ofOffset t n).line, (Position.ofOffset t n).column, c⟩ := by
  rw [placed, List.getElem?_mapIdx]
  rfl

theorem placed_chars (t : Text) : (placed .first t).map (·.char) = t := by
  refine List.ext_getElem? ?_
  intro n
  rw [List.getElem?_map, placed_getElem?, Option.map_map]
  exact Option.map_id'

theorem placed_eq_some {t : Text} {n : Nat} {a : Located} (char : (placed .first t)[n]? = some a) :
    a.row = (Position.ofOffset t n).line ∧ a.column = (Position.ofOffset t n).column := by
  rw [placed_getElem?] at char
  obtain ⟨c, _, rfl⟩ := Option.map_eq_some_iff.mp char
  exact ⟨rfl, rfl⟩

theorem exists_placed {t : Text} {n : Nat} (inside : n < t.length) : ∃ a, (placed .first t)[n]? = some a :=
  ⟨_, by rw [placed_getElem?, List.getElem?_eq_getElem inside]; rfl⟩

/-- What is found in the grid of a text is the first place of the piece that is not at the end. -/
theorem find_ofText_iff {t piece indent : Text} {lineNumber : Option Int} {region : Region} (nonempty : normalize piece ≠ []) :
    (ofText t indent lineNumber).find? piece = some region ↔ ∃ k, FirstWithin (normalize piece) (normalize t) k ∧
      region = .between (Position.ofOffset (normalize t) k)
        (Position.ofOffset (normalize t) (k + (normalize piece).length - 1)) := by
  rw [find_eq_some_iff, characters_ofText, placed_chars]
  constructor
  · rintro ⟨_, k, here, last, first, char, char', rfl⟩
    obtain ⟨row, column⟩ := placed_eq_some char
    obtain ⟨row', column'⟩ := placed_eq_some char'
    exact ⟨k, first, by rw [row, column, row', column', Region.between]⟩
  · rintro ⟨k, first, rfl⟩
    have more := first.more
    obtain ⟨here, char⟩ := exists_placed (t := normalize t) (n := k) (by omega)
    obtain ⟨last, char'⟩ := exists_placed (t := normalize t) (n := k + (normalize piece).length - 1) (by omega)
    obtain ⟨row, column⟩ := placed_eq_some char
    obtain ⟨row', column'⟩ := placed_eq_some char'
    exact ⟨nonempty, k, here, last, first, char, char', by rw [row, column, row', column', Region.between]⟩

end Grid

end CMakeLint
