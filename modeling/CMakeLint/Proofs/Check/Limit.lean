import CMakeLint.Proofs.Check.Emphasis

/-!
Checks within the limit of highlights. Only a spot whose highlight ends beyond the limit makes a check of the catalogue fail
(`run_error_iff`). So a check cannot fail on a text with fewer lines than the limit (`run_ok_of_short`), nor for a spot on the
first of the lines that are shown (`Spot.fits_of_first_line`).
-/
namespace CMakeLint

/-! ### Newlines -/

namespace Text

theorem count_unifyNewlines_le (t : Text) : (unifyNewlines t).count '\n' ≤ t.count '\n' + t.count '\r' := by
  induction t with
  | nil => simp [unifyNewlines]
  | cons c t ih =>
    rw [unifyNewlines]
    by_cases carriage : c = '\r'
    · subst carriage
      rw [if_pos rfl, List.count_cons_self, List.count_cons_of_ne (by decide)]
      split
      · omega
      · rw [List.count_cons_self]
        omega
    · rw [if_neg carriage, List.count_cons, List.count_cons, List.count_cons]
      omega

theorem count_expandTabs (t : Text) : (expandTabs t).count '\n' = t.count '\n' := by
  have lengths := congrArg List.length (lines_expandTabs t)
  rw [List.length_map, length_lines, length_lines] at lengths
  omega

theorem count_normalize_le (t : Text) : (Grid.normalize t).count '\n' ≤ t.count '\n' + t.count '\r' := by
  rw [Grid.normalize, count_expandTabs]
  exact count_unifyNewlines_le t

theorem expandTabs_of_bare {t : Text} (bare : '\t' ∉ t) : expandTabs t = t := by
  have same : ∀ c ∈ t, (if c = '\t' then [' ', ' ', ' ', ' '] else [c]) = [c] := by
    intro c member
    rw [if_neg]
    rintro rfl
    exact bare member
  rw [expandTabs, List.flatMap_congr same, List.flatMap_singleton']

/-- Between two positions on one line there is no newline. -/
theorem newline_not_mem_slice {t : Text} {a b : Nat} (le : a ≤ b)
    (same : (Position.ofOffset t a).line = (Position.ofOffset t b).line) : '\n' ∉ t.slice a b := by
  rw [Position.ofOffset_line, Position.ofOffset_line, ← take_append_slice le, List.count_append] at same
  rw [← List.count_eq_zero]
  omega

end Text

/-! ### Highlights within the limit -/

theorem Span.of_sublist (s : Span) (t : Text) : (s.of t).Sublist t :=
  (List.take_sublist _ _).trans (List.drop_sublist _ _)

namespace Grid

theorem normalize_of_bare {t : Text} (plain : '\r' ∉ t) (bare : '\t' ∉ t) : normalize t = t := by
  rw [normalize_of_plain plain, Text.expandTabs_of_bare bare]

/-- The row in which a text is found to end. -/
theorem lastRow_of_find {t piece indent : Text} {lineNumber : Option Int} {region : Region}
    (found : (ofText t indent lineNumber).find? piece = some region) :
    ∃ k, FirstWithin (normalize piece) (normalize t) k ∧
      region.lastRow = ((normalize t).take (k + (normalize piece).length - 1)).count '\n' + 1 := by
  obtain ⟨k, first, rfl⟩ := (find_ofText_iff (find_eq_some_iff.mp found).1).mp found
  exact ⟨k, first, Position.ofOffset_line _ _⟩

/-- A piece on the first line is found there: it or an earlier occurrence. -/
theorem lastRow_of_first_line {before piece after indent : Text} {lineNumber : Option Int} {region : Region}
    (plain : '\r' ∉ before ++ piece ++ after) (line : '\n' ∉ before ++ piece)
    (found : (ofText (before ++ piece ++ after) indent lineNumber).find? piece = some region) : region.lastRow = 1 := by
  obtain ⟨k, ⟨_, _, earliest⟩, row⟩ := lastRow_of_find found
  have plain' : '\r' ∉ piece := fun member => plain (by simp [member])
  rw [normalize_of_plain plain, normalize_of_plain plain', Text.expandTabs_append] at row earliest
  have upto : k ≤ (Text.expandTabs before).length := by
    by_contra later
    refine earliest _ (Nat.not_le.mp later) ?_
    rw [Text.expandTabs_append, List.append_assoc, List.drop_left]
    exact List.prefix_append _ _
  have inside : k + (Text.expandTabs piece).length - 1 ≤ (Text.expandTabs (before ++ piece)).length := by
    rw [Text.expandTabs_append, List.length_append]
    omega
  have newlines := (List.take_sublist (k + (Text.expandTabs piece).length - 1)
    (Text.expandTabs (before ++ piece))).count_le '\n'
  rw [Text.count_expandTabs, List.count_eq_zero.mpr line] at newlines
  rw [row, List.take_append_of_le_length inside]
  omega

end Grid

/-- A text with fewer lines than the limit leaves room for every highlight. -/
theorem Spot.fits_of_short {t : Text} (short : ((t.count '\n' + t.count '\r' + 1 : Nat) : Int) < Issue.highlightLimit)
    (s : Spot) : ¬ s.Overruns t := by
  rintro ⟨span, context, _, _, region, found, beyond⟩
  obtain ⟨k, _, row⟩ := Grid.lastRow_of_find found
  have taken := (List.take_sublist (k + (Grid.normalize (span.of t)).length - 1) (Grid.normalize (context.of t))).count_le '\n'
  have shown := Text.count_normalize_le (context.of t)
  have newlines := (context.of_sublist t).count_le '\n'
  have returns := (context.of_sublist t).count_le '\r'
  omega

/-- What stands on the first of the lines that are shown is found there, or even earlier. -/
theorem Spot.fits_of_first_line {t : Text} (plain : '\r' ∉ t) {s : Spot} {first last start stop : Nat}
    (grounded : s.Grounded t first last start stop) (line : '\n' ∉ t.slice first stop) : ¬ s.Overruns t := by
  rintro ⟨span, context, spanEq, contextEq, region, found, beyond⟩
  obtain ⟨startEq, lastEq, groupEq, firstChar, lastChar, inside, after, ordered, before, starts⟩ := grounded
  have bounds : Check.groupBounds s.found s.group = ((start : Int), (stop : Int)) := by rw [Check.groupBounds, groupEq]
  rw [bounds, Span.ofBounds_ok ordered] at spanEq
  cases spanEq
  rw [startEq, lastEq] at contextEq
  obtain ⟨sameLine, _⟩ := Check.wholeLines_line contextEq firstChar lastChar (by omega) inside
  obtain ⟨context', contextEq', opens, closes, _⟩ := Check.wholeLines_spec firstChar lastChar (by omega) (by omega) inside
  rw [contextEq] at contextEq'
  cases contextEq'
  have piece : (⟨start, stop - start⟩ : Span).of t = t.slice start stop := by
    rw [Span.of, Span.stop, Nat.add_sub_cancel' ordered]
  have shown : context.of t = t.slice context.start start ++ t.slice start stop ++ t.slice stop context.stop := by
    rw [Span.of, Text.slice_append_slice (by omega) ordered, Text.slice_append_slice (by omega) (by omega)]
  have onLine : '\n' ∉ t.slice context.start start ++ t.slice start stop := by
    rw [Text.slice_append_slice (by omega) ordered, ← Text.slice_append_slice opens (by omega), List.mem_append]
    rintro (early | late)
    · exact Text.newline_not_mem_slice opens sameLine early
    · exact line late
  rw [piece, shown] at found
  have row := Grid.lastRow_of_first_line (shown ▸ Span.of_plain plain context) onLine found
  simp only [row, Issue.highlightLimit] at beyond
  omega

namespace Check

/-! ### Checks that do not fail -/

theorem run_error_iff {check : Check} (listed : check ∈ catalog) {path : Path} {t : Text} :
    (∃ fault, check.run path t = .error fault) ↔ ∃ s ∈ check.spots path t, s.Overruns t := by
  have form := catalog_placesSpots check listed
  constructor
  · rintro ⟨fault, failed⟩
    obtain ⟨s, spot, refused⟩ := run_error form failed
    obtain ⟨first, last, start, stop, grounded⟩ := spots_grounded form spot
    rcases report_cases check path grounded with ⟨overruns, _⟩ | ⟨_, i, made, _⟩
    · exact ⟨s, spot, overruns⟩
    · rw [made] at refused
      cases refused
  · rintro ⟨s, spot, overruns⟩
    obtain ⟨first, last, start, stop, grounded⟩ := spots_grounded form spot
    cases ran : check.run path t with
    | error fault => exact ⟨fault, rfl⟩
    | ok findings =>
      obtain ⟨i, _, made⟩ := forall₂_mem_left (run_ok form ran) spot
      rcases report_cases check path grounded with ⟨_, rows | columns⟩ | ⟨fits, _⟩
      · rw [rows] at made
        cases made
      · rw [columns] at made
        cases made
      · exact absurd overruns fits

theorem run_ok_of_fits {check : Check} (listed : check ∈ catalog) {path : Path} {t : Text}
    (fits : ∀ s ∈ check.spots path t, ¬ s.Overruns t) : ∃ findings, check.run path t = .ok findings := by
  cases ran : check.run path t with
  | ok findings => exact ⟨findings, rfl⟩
  | error fault =>
    obtain ⟨s, spot, overruns⟩ := (run_error_iff listed).mp ⟨fault, ran⟩
    exact absurd overruns (fits s spot)

/-- No check of the catalogue fails on a text with fewer lines than the limit. -/
theorem run_ok_of_short {check : Check} (listed : check ∈ catalog) (path : Path) {t : Text}
    (short : ((t.count '\n' + t.count '\r' + 1 : Nat) : Int) < Issue.highlightLimit) :
    ∃ findings, check.run path t = .ok findings :=
  run_ok_of_fits listed fun s _ => s.fits_of_short short

end Check

end CMakeLint
