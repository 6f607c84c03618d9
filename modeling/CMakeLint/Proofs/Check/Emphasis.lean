import CMakeLint.Proofs.Check.Report

/-!
Which cells of an issue are red. The reported text is searched in the lines that are shown, so what is red is its first
occurrence there, unless that occurrence ends the snippet (`isRed_iff`). These are the cells of the reported characters exactly
if the text does not occur earlier in the snippet and does not end it (`red_cells_iff`).
-/
namespace CMakeLint

namespace Grid

/-- The cell at a place is red. -/
def IsRed (g : Grid) (p : Position) : Prop :=
  ∃ cell, g.cell? p = some cell ∧ cell.colour = some Colour.red.code

end Grid

/-- A place is that of one of the characters from one position up to another one. A newline has no cell. -/
def Text.Covers (t : Text) (start stop : Nat) (p : Position) : Prop :=
  ∃ n c, start ≤ n ∧ n < stop ∧ t[n]? = some c ∧ c ≠ '\n' ∧ Position.ofOffset t n = p

/-! ### Ranges between positions -/

namespace Grid

/-- The range between the places of two positions has the places of the positions in between. -/
theorem has_between_iff {t : Text} {k l n : Nat} (inside : k < t.length) (inside' : l < t.length) (here : n < t.length) :
    (Range.ofRegion (.between (Position.ofOffset t k) (Position.ofOffset t l))).Has (Position.ofOffset t n) ↔ k ≤ n ∧ n ≤ l := by
  have order : ∀ {a b : Nat}, a < t.length → b < t.length →
      (¬ (Position.ofOffset t b).Before (Position.ofOffset t a) ↔ a ≤ b) := by
    intro a b first second
    constructor
    · intro notBefore
      by_contra less
      exact notBefore (Position.ofOffset_before (by omega) (Nat.le_of_lt first))
    · intro le before
      rcases Nat.lt_or_eq_of_le le with less | rfl
      · have after := Position.ofOffset_before less (Nat.le_of_lt second)
        unfold Position.Before at before after
        omega
      · unfold Position.Before at before
        omega
  rw [← order inside here, ← order here inside']
  unfold Range.Has Range.ofRegion Region.between Position.Before
  simp only
  omega

end Grid

namespace Issue

theorem paint_plain_colour (region : Grid.Region) (p : Position) (c : Char) :
    (paint region p (Cell.plain c)).colour = some Colour.red.code ↔ (Grid.Range.ofRegion region).Has p := by
  have apart : (Grid.Range.ofRegion region).Has p → ¬ (remainder region).Has p := by
    unfold Grid.Range.Has Grid.Range.ofRegion remainder
    simp only
    omega
  unfold paint
  dsimp only
  by_cases inside : (Grid.Range.ofRegion region).Has p
  · rw [if_pos inside, if_neg (apart inside)]
    simp [Cell.restyle, inside]
  · rw [if_neg inside]
    split <;> simp [Cell.restyle, Cell.plain, inside]

theorem isRed_painted_iff (t indent : Text) (lineNumber : Option Int) (region : Grid.Region) (p : Position) :
    ((Grid.ofText t indent lineNumber).mapCells (paint region)).IsRed p ↔
      ∃ n c, (Grid.normalize t)[n]? = some c ∧ c ≠ '\n' ∧ Position.ofOffset (Grid.normalize t) n = p ∧
        (Grid.Range.ofRegion region).Has p := by
  rw [Grid.IsRed, Grid.cell_mapCells, Grid.cell_ofText, Option.map_map]
  constructor
  · rintro ⟨cell, here, red⟩
    obtain ⟨c, char, rfl⟩ := Option.map_eq_some_iff.mp here
    obtain ⟨n, at_n, other, place⟩ := Text.charAt_eq_some_iff.mp char
    exact ⟨n, c, at_n, other, place, (paint_plain_colour region p c).mp red⟩
  · rintro ⟨n, c, at_n, other, place, inside⟩
    have char := Text.charAt_eq_some_iff.mpr ⟨n, at_n, other, place⟩
    exact ⟨_, Option.map_eq_some_iff.mpr ⟨c, char, rfl⟩, (paint_plain_colour region p c).mpr inside⟩

theorem not_isRed_plain (t indent : Text) (lineNumber : Option Int) (p : Position) :
    ¬ (Grid.ofText t indent lineNumber).IsRed p := by
  rintro ⟨cell, here, red⟩
  rw [Grid.cell_ofText] at here
  obtain ⟨c, _, rfl⟩ := Option.map_eq_some_iff.mp here
  cases red

/-- In the highlighted grid of a text, the cells of the first occurrence of a piece are red, unless it ends the text. -/
theorem isRed_iff {t piece indent : Text} {lineNumber : Option Int} {g : Grid} (nonempty : Grid.normalize piece ≠ [])
    (made : highlight (Grid.ofText t indent lineNumber) piece = .ok g) (p : Position) :
    g.IsRed p ↔ ∃ k, Grid.FirstWithin (Grid.normalize piece) (Grid.normalize t) k ∧
      (Grid.normalize t).Covers k (k + (Grid.normalize piece).length) p := by
  have positive := List.length_pos_iff.mpr nonempty
  rw [highlight_ok made]
  cases found : (Grid.ofText t indent lineNumber).find? piece with
  | none =>
    refine iff_of_false (not_isRed_plain t indent lineNumber p) ?_
    rintro ⟨k, first, _⟩
    rw [(Grid.find_ofText_iff nonempty).mpr ⟨k, first, rfl⟩] at found
    cases found
  | some region =>
    rw [Option.elim_some, isRed_painted_iff]
    constructor
    · rintro ⟨n, c, char, other, rfl, inside⟩
      obtain ⟨k, first, rfl⟩ := (Grid.find_ofText_iff nonempty).mp found
      have more := first.more
      have here := (List.getElem?_eq_some_iff.mp char).1
      obtain ⟨lower, upper⟩ := (Grid.has_between_iff (by omega) (by omega) here).mp inside
      exact ⟨k, first, n, c, lower, by omega, char, other, rfl⟩
    · rintro ⟨k, first, n, c, lower, upper, char, other, rfl⟩
      rw [(Grid.find_ofText_iff nonempty).mpr ⟨k, first, rfl⟩] at found
      cases found
      have more := first.more
      have here := (List.getElem?_eq_some_iff.mp char).1
      exact ⟨n, c, char, other, rfl, (Grid.has_between_iff (by omega) (by omega) here).mpr ⟨lower, by omega⟩⟩

end Issue

/-! ### The reported characters in the snippet -/

namespace Text

theorem slice_append_slice {t : Text} {a b c : Nat} (le : a ≤ b) (le' : b ≤ c) : t.slice a b ++ t.slice b c = t.slice a c := by
  have whole := take_append_slice (t := t) le'
  rw [← take_append_slice le, ← take_append_slice (Nat.le_trans le le'), List.append_assoc] at whole
  exact List.append_cancel_left whole

theorem expandTabs_append (a b : Text) : expandTabs (a ++ b) = expandTabs a ++ expandTabs b :=
  List.flatMap_append

theorem slice_eq_nil_iff {t : Text} {start stop : Nat} (inside : stop ≤ t.length) : t.slice start stop = [] ↔ stop ≤ start := by
  rw [← List.length_eq_zero_iff, slice, List.length_take, List.length_drop]
  omega

theorem getElem?_of_occurs {t piece : Text} {k n : Nat} (occurs : piece <+: t.drop k) (less : n < piece.length) :
    t[k + n]? = piece[n]? := by
  obtain ⟨rest, split⟩ := occurs
  rw [← List.getElem?_drop, ← split, List.getElem?_append_left less]

theorem covers_of_occurs {t piece : Text} {k n : Nat} {c : Char} (occurs : piece <+: t.drop k) (char : piece[n]? = some c)
    (other : c ≠ '\n') : t.Covers k (k + piece.length) (Position.ofOffset t (k + n)) := by
  have less := (List.getElem?_eq_some_iff.mp char).1
  exact ⟨k + n, c, by omega, by omega, by rw [getElem?_of_occurs occurs less, char], other, rfl⟩

/-- The characters of an occurrence have a cell exactly if they are not all newlines. -/
theorem exists_covers_iff {t piece : Text} {k : Nat} (occurs : piece <+: t.drop k) :
    (∃ p, t.Covers k (k + piece.length) p) ↔ ∃ c ∈ piece, c ≠ '\n' := by
  constructor
  · rintro ⟨p, n, c, lower, upper, char, other, _⟩
    obtain ⟨m, rfl⟩ := Nat.exists_eq_add_of_le lower
    rw [getElem?_of_occurs occurs (by omega)] at char
    exact ⟨c, List.mem_of_getElem? char, other⟩
  · rintro ⟨c, member, other⟩
    obtain ⟨n, char⟩ := List.getElem?_of_mem member
    exact ⟨_, covers_of_occurs occurs char other⟩

/-- The earlier one of two occurrences of a text has a cell that the later one does not have, if the text is not made of newlines
    only: that of the first character that is not a newline. -/
theorem le_of_covers {t piece : Text} {j k : Nat} (here : piece <+: t.drop j) (there : piece <+: t.drop k)
    (char : ∃ c ∈ piece, c ≠ '\n') (same : ∀ p, t.Covers j (j + piece.length) p → t.Covers k (k + piece.length) p) : k ≤ j := by
  obtain ⟨c, found⟩ := Option.isSome_iff_exists.mp
    (List.find?_isSome.mpr (by simpa using char) : (piece.find? (· ≠ '\n')).isSome)
  obtain ⟨other, newlines, rest, split, all⟩ := List.find?_eq_some_iff_append.mp found
  have first : piece[newlines.length]? = some c := by simp [split]
  obtain ⟨n, c', lower, upper, char', other', place⟩ := same _ (covers_of_occurs here first (by simpa using other))
  obtain ⟨m, rfl⟩ := Nat.exists_eq_add_of_le lower
  have less := (List.getElem?_eq_some_iff.mp first).1
  have position : k + m = j + newlines.length := by
    have inside := (List.getElem?_eq_some_iff.mp char').1
    have inside' := (List.getElem?_eq_some_iff.mp ((getElem?_of_occurs here less).trans first)).1
    exact Position.ofOffset_injective (Nat.le_of_lt inside) (Nat.le_of_lt inside') place
  -- the character at this place is not a newline, so that it is not among the newlines at the start of the later occurrence
  have after : newlines.length ≤ m := by
    by_contra early
    rw [getElem?_of_occurs there (by omega), split, List.getElem?_append_left (by omega)] at char'
    exact other' (by simpa using all c' (List.mem_of_getElem? char'))
  omega

end Text

namespace Grid

theorem FirstWithin.unique {piece t : Text} {j k : Nat} (one : FirstWithin piece t j) (other : FirstWithin piece t k) :
    j = k := by
  rcases Nat.lt_trichotomy j k with less | same | less
  · exact absurd one.occurs (other.first j less)
  · exact same
  · exact absurd other.occurs (one.first k less)

/-- The first occurrence of a text has the cells of a given occurrence only if it is that one, or if there are no cells. -/
theorem firstWithin_covers_iff {piece t : Text} {start : Nat} (occurs : piece <+: t.drop start) :
    (∀ p, (∃ k, FirstWithin piece t k ∧ t.Covers k (k + piece.length) p) ↔ t.Covers start (start + piece.length) p) ↔
      (∀ c ∈ piece, c = '\n') ∨ FirstWithin piece t start := by
  constructor
  · intro same
    by_cases char : ∃ c ∈ piece, c ≠ '\n'
    · obtain ⟨p, covered⟩ := (Text.exists_covers_iff occurs).mpr char
      obtain ⟨k, first, _⟩ := (same p).mpr covered
      have after : k ≤ start := by
        refine Text.le_of_covers occurs first.occurs char fun q covered => ?_
        obtain ⟨k', first', covered'⟩ := (same q).mpr covered
        rwa [first.unique first']
      have before : start ≤ k :=
        Text.le_of_covers first.occurs occurs char fun q covered => (same q).mp ⟨k, first, covered⟩
      exact .inr (Nat.le_antisymm after before ▸ first)
    · exact .inl fun c member => by_contra fun other => char ⟨c, member, other⟩
  · rintro (newlines | first) p
    · have empty : ∀ k, piece <+: t.drop k → ¬ t.Covers k (k + piece.length) p := by
        intro k here covered
        obtain ⟨c, member, other⟩ := (Text.exists_covers_iff here).mp ⟨p, covered⟩
        exact other (newlines c member)
      exact iff_of_false (fun ⟨k, first, covered⟩ => empty k first.occurs covered) (empty start occurs)
    · constructor
      · rintro ⟨k, first', covered⟩
        rwa [first.unique first']
      · exact fun covered => ⟨start, first, covered⟩

end Grid

namespace Issue

/-- The lines that an issue shows, with blanks in place of tabs. -/
def shown (i : Issue) : Text :=
  Text.expandTabs (i.context.of i.text)

/-- The characters that an issue reports, with blanks in place of tabs. -/
def reported (i : Issue) : Text :=
  Text.expandTabs (i.span.of i.text)

/-- Where the reported characters start in the lines that are shown. -/
def reportedAt (i : Issue) : Nat :=
  (Text.expandTabs (i.text.slice i.context.start i.span.start)).length

theorem reported_occurs {i : Issue} (covers : i.context.start ≤ i.span.start) (within : i.span.stop ≤ i.context.stop) :
    i.reported <+: i.shown.drop i.reportedAt := by
  have ordered : i.span.start ≤ i.span.stop := Nat.le_add_right _ _
  have split : i.shown = Text.expandTabs (i.text.slice i.context.start i.span.start) ++
      (i.reported ++ Text.expandTabs (i.text.slice i.span.stop i.context.stop)) := by
    rw [shown, reported, Span.of, Span.of, ← Text.expandTabs_append, ← Text.expandTabs_append,
      Text.slice_append_slice ordered within, Text.slice_append_slice covers (Nat.le_trans ordered within)]
  rw [split, reportedAt, List.drop_left]
  exact List.prefix_append _ _

end Issue

/-- Red is the first occurrence of the reported text in the lines that an issue shows, unless this occurrence ends them, which
    leaves nothing red. So the reported characters themselves are what is red, exactly if their text occurs in these lines no
    earlier and does not end them, apart from newlines, which have no cells. -/
theorem Check.red_cells_iff {check : Check} (listed : check ∈ catalog) {path : Path} {t : Text} (plain : '\r' ∉ t)
    {findings : Findings} (made : check.run path t = .ok findings) {i : Issue} (member : i ∈ findings.toList)
    (nonempty : i.span.length ≠ 0) :
    (∀ p, i.grid.IsRed p ↔
      ∃ k, Grid.FirstWithin i.reported i.shown k ∧ i.shown.Covers k (k + i.reported.length) p) ∧
    ((∀ p, i.grid.IsRed p ↔ i.shown.Covers i.reportedAt (i.reportedAt + i.reported.length) p) ↔
      (∀ c ∈ i.reported, c = '\n') ∨ Grid.FirstWithin i.reported i.shown i.reportedAt) := by
  obtain ⟨s, spot, issue⟩ := forall₂_mem_right (run_madeFrom made) member
  obtain ⟨first, last, start, stop, grounded⟩ := spots_grounded (catalog_placesSpots check listed) spot
  have placed := (reports_of_ok grounded (report_ok_iff.mpr issue)).placed
  have characters : i.reported ≠ [] := by
    intro empty
    have starts := placed.starts
    have within := placed.within
    have inside := placed.inside
    rw [Issue.reported, issue.text_eq, Text.expandTabs_eq_nil_iff, Span.of, Text.slice_eq_nil_iff (by omega), Span.stop] at empty
    omega
  have red : ∀ p, i.grid.IsRed p ↔
      ∃ k, Grid.FirstWithin i.reported i.shown k ∧ i.shown.Covers k (k + i.reported.length) p := by
    have grid := issue.grid_eq
    rw [← issue.text_eq] at plain grid
    have pieceEq : Grid.normalize (i.span.of i.text) = i.reported := Grid.normalize_of_plain (Span.of_plain plain _)
    have shownEq : Grid.normalize (i.context.of i.text) = i.shown := Grid.normalize_of_plain (Span.of_plain plain _)
    rw [← pieceEq, ← shownEq]
    exact Issue.isRed_iff (by rwa [pieceEq]) grid
  refine ⟨red, ?_⟩
  rw [← Grid.firstWithin_covers_iff (Issue.reported_occurs issue.covers issue.within)]
  exact forall_congr' fun p => by rw [red p]

/-- The library `pthread` is reported, and the start of another name before it is red. -/
theorem Check.red_cells_of_other_name : threadsPackage ∈ catalog ∧ '\r' ∉ "target_link_libraries(pthreads pthread)".toList ∧
    ∃ findings, threadsPackage.run (.ofText "a.cmake".toList) "target_link_libraries(pthreads pthread)".toList = .ok findings ∧
      ∃ i ∈ findings.toList, i.span = ⟨31, 7⟩ ∧ i.grid.IsRed ⟨1, 23⟩ ∧
        ¬ ∀ p, i.grid.IsRed p ↔ i.shown.Covers i.reportedAt (i.reportedAt + i.reported.length) p := by
  have listed : threadsPackage ∈ catalog := by simp [catalog]
  have plain : '\r' ∉ "target_link_libraries(pthreads pthread)".toList := by decide +kernel
  have parts : ((threadsPackage.run (.ofText "a.cmake".toList)
      "target_link_libraries(pthreads pthread)".toList).toOption.map fun findings =>
        findings.toList.map fun i => (i.span, i.shown, i.reported, i.reportedAt)) =
      some [(⟨31, 7⟩, "target_link_libraries(pthreads pthread)".toList, "pthread".toList, 31)] := by decide +kernel
  obtain ⟨findings, made, i, member, same⟩ := run_of_evaluated parts
  obtain ⟨spanEq, shownEq, reportedEq, atEq⟩ := by simpa only [Prod.mk.injEq] using same
  obtain ⟨red, own⟩ := red_cells_iff listed plain made member (by rw [spanEq]; decide)
  rw [shownEq, reportedEq] at red
  refine ⟨listed, plain, findings, made, i, member, spanEq, ?_, ?_⟩
  · refine (red _).mpr ⟨22, ⟨by decide +kernel, by decide +kernel, by decide +kernel⟩, ?_⟩
    exact ⟨22, 'p', by decide +kernel⟩
  · rw [own, reportedEq, shownEq, atEq]
    rintro (newlines | first)
    · exact absurd (newlines 'p' (by decide +kernel)) (by decide)
    · exact first.first 22 (by decide) (by decide +kernel)

end CMakeLint
