import CMakeLint.Lint
import CMakeLint.Proofs.Check.Placement
import CMakeLint.Proofs.Pragma
import CMakeLint.Proofs.Span
import Mathlib.Data.List.Sort

/-!
What pragmas do to the issues of a script. A comment at the end of a line is not seen by the checks; if it is a pragma it takes
away the issues that touch its line, and it does nothing else (`issues_append_comment`). An issue without characters touches no
line at all: of the issues that are found on a line with a pragma, those stay and no others (`mem_issues_on_pragma_line`).
-/
namespace CMakeLint

namespace Lint

/-! ### Reading order -/

/-- One issue starts no later than another. -/
def StartsFirst (i j : Issue) : Prop := i.span.start ≤ j.span.start

instance : DecidableRel StartsFirst := fun i j => inferInstanceAs (Decidable (i.span.start ≤ j.span.start))

instance : Std.Total StartsFirst := ⟨fun i j => Nat.le_total i.span.start j.span.start⟩

instance : IsTrans Issue StartsFirst := ⟨fun _ _ _ => Nat.le_trans⟩

theorem insertInOrder_eq (i : Issue) (l : List Issue) : insertInOrder i l = l.orderedInsert StartsFirst i := by
  induction l with
  | nil => rfl
  | cons j rest ih =>
    rw [insertInOrder, ih, List.orderedInsert_cons]
    rfl

theorem inReadingOrder_eq (l : List Issue) : inReadingOrder l = l.insertionSort StartsFirst := by
  induction l with
  | nil => rfl
  | cons i rest ih =>
    rw [List.insertionSort_cons, ← ih, ← insertInOrder_eq]
    rfl

theorem mem_inReadingOrder {i : Issue} {l : List Issue} : i ∈ inReadingOrder l ↔ i ∈ l := by
  rw [inReadingOrder_eq, List.mem_insertionSort]

theorem orderedInsert_of_forall {i : Issue} {l : List Issue} (first : ∀ j ∈ l, StartsFirst i j) :
    l.orderedInsert StartsFirst i = i :: l := by
  cases l with
  | nil => rfl
  | cons j rest => exact List.orderedInsert_cons_of_le _ rest (first j List.mem_cons_self)

theorem filter_orderedInsert (p : Issue → Bool) (i : Issue) {l : List Issue} (sorted : l.Pairwise StartsFirst) :
    (l.orderedInsert StartsFirst i).filter p =
      if p i then (l.filter p).orderedInsert StartsFirst i else l.filter p := by
  induction l with
  | nil => by_cases keep : p i <;> simp [keep]
  | cons j rest ih =>
    obtain ⟨before, sorted⟩ := List.pairwise_cons.mp sorted
    by_cases first : StartsFirst i j
    · rw [List.orderedInsert_cons_of_le _ rest first, List.filter_cons]
      by_cases keep : p i
      · rw [if_pos keep, if_pos keep, orderedInsert_of_forall]
        intro k member
        rcases List.mem_cons.mp (List.mem_of_mem_filter member) with rfl | later
        · exact first
        · exact Nat.le_trans first (before k later)
      · rw [if_neg keep, if_neg keep]
    · rw [List.orderedInsert_of_not_le _ rest first, List.filter_cons, ih sorted, List.filter_cons]
      by_cases keep : p i <;> by_cases keep' : p j <;> simp [keep, keep', first]

/-- Issues that are left out may be left out before or after all are put in order. -/
theorem inReadingOrder_filter (p : Issue → Bool) (l : List Issue) :
    inReadingOrder (l.filter p) = (inReadingOrder l).filter p := by
  induction l with
  | nil => rfl
  | cons i rest ih =>
    rw [inReadingOrder_eq, inReadingOrder_eq] at ih
    rw [inReadingOrder_eq, inReadingOrder_eq, List.insertionSort_cons, List.filter_cons,
      filter_orderedInsert p i (List.pairwise_insertionSort StartsFirst rest), ← ih]
    by_cases keep : p i
    · rw [if_pos keep, if_pos keep, List.insertionSort_cons]
    · rw [if_neg keep, if_neg keep]

/-! ### The issues that are found -/

theorem issues_eq (path : Path) (t : Text) : issues path t =
    (Check.runAll Check.catalog path (Text.stripComments t)).map fun found =>
      inReadingOrder (found.filter fun i => !isSuppressed (Pragma.lines t) i) := rfl

theorem mem_runAll {path : Path} {t : Text} {found : List Issue} (ran : Check.runAll Check.catalog path t = .ok found)
    {i : Issue} (member : i ∈ found) :
    ∃ check ∈ Check.catalog, ∃ findings, check.run path t = .ok findings ∧ i ∈ findings.toList := by
  rw [Check.runAll] at ran
  cases findings : Check.catalog.mapM fun check => check.run path t with
  | error fault =>
    rw [findings] at ran
    cases ran
  | ok all =>
    rw [findings] at ran
    cases ran
    obtain ⟨some, present, inside⟩ := List.mem_flatMap.mp member
    obtain ⟨check, listed, made⟩ := forall₂_mem_right (mapM_ok findings) present
    exact ⟨check, listed, some, made, inside⟩

theorem runAll_placed {path : Path} {t : Text} {found : List Issue} (ran : Check.runAll Check.catalog path t = .ok found)
    {i : Issue} (member : i ∈ found) : i.WellPlaced t ∧ i.Grounded t := by
  obtain ⟨check, listed, findings, made, inside⟩ := mem_runAll ran member
  obtain ⟨s, _, reports⟩ := Check.run_reports (Check.catalog_placesSpots check listed) made inside
  exact ⟨reports.placed, reports.grounded⟩

theorem check_of_empty {path : Path} {t : Text} {found : List Issue} (ran : Check.runAll Check.catalog path t = .ok found)
    {i : Issue} (member : i ∈ found) (empty : i.span.length = 0) : i.check ∈ Check.argumentChecks := by
  obtain ⟨check, listed, findings, made, inside⟩ := mem_runAll ran member
  obtain ⟨s, _, reports⟩ := Check.run_reports (Check.catalog_placesSpots check listed) made inside
  rw [reports.check_eq]
  by_contra other
  exact Check.run_nonempty listed other made inside empty

theorem mem_lines_iff {i : Issue} {t : Text} (grounded : i.Grounded t) (number : Nat) :
    number ∈ i.lines ↔ i.span.Touches t number := by
  rw [Issue.lines, grounded.text_eq]
  exact Span.mem_lines_iff_touches grounded.anchored

theorem isSuppressed_append (pragmas more : List Nat) (i : Issue) :
    isSuppressed (pragmas ++ more) i = (isSuppressed pragmas i || isSuppressed more i) := by
  rw [Bool.eq_iff_iff, Bool.or_eq_true]
  simp only [isSuppressed, List.any_eq_true, List.contains_iff_mem, List.mem_append]
  constructor
  · rintro ⟨line, here, pragma | pragma⟩
    · exact .inl ⟨line, here, pragma⟩
    · exact .inr ⟨line, here, pragma⟩
  · rintro (⟨line, here, pragma⟩ | ⟨line, here, pragma⟩)
    · exact ⟨line, here, .inl pragma⟩
    · exact ⟨line, here, .inr pragma⟩

theorem isSuppressed_singleton (number : Nat) (i : Issue) : isSuppressed [number] i = true ↔ number ∈ i.lines := by
  simp [isSuppressed, List.any_eq_true]

end Lint

/-! ### Comments at the end of a line -/

namespace Pragma

/-- The numbers of the lines that have a pragma, the first line having a given number. -/
def linesFrom (first : Nat) (ls : List Text) : List Nat :=
  (ls.zipIdx first).filterMap fun (l, number) => if isOn l then some number else none

theorem linesFrom_split (first : Nat) (before : List Text) (line : Text) (after : List Text) :
    linesFrom first (before ++ line :: after) = linesFrom first before ++
      ((if isOn line then [before.length + first] else []) ++ linesFrom (before.length + first + 1) after) := by
  rw [linesFrom, List.zipIdx_append, List.filterMap_append, List.zipIdx_cons, List.filterMap_cons, Nat.add_comm first]
  cases on : isOn line with
  | false =>
    simp only [on, Bool.false_eq_true, ↓reduceIte]
    rfl
  | true =>
    simp only [on, ↓reduceIte]
    rfl

end Pragma

namespace Text

variable {t line c : Text} {before after : List Text}

theorem lines_append_comment (split : lines t = before ++ line :: after) (inLine : '\n' ∉ c) :
    lines (unlines (before ++ (line ++ c) :: after)) = before ++ (line ++ c) :: after := by
  have plain : ∀ l ∈ before ++ line :: after, '\n' ∉ l := fun l member => newline_not_mem_lines (split ▸ member)
  refine lines_unlines (by simp) fun l member => ?_
  rcases List.mem_append.mp member with earlier | later
  · exact plain l (List.mem_append_left _ earlier)
  · rcases List.mem_cons.mp later with rfl | later
    · rw [List.mem_append, not_or]
      exact ⟨plain line (by simp), inLine⟩
    · exact plain l (by simp [later])

/-- A comment at the end of a line without a comment leaves the text without comments as it is. -/
theorem stripComments_append_comment (split : lines t = before ++ line :: after) (plain : '#' ∉ line)
    (comment : c.head? = some '#') (inLine : '\n' ∉ c) :
    stripComments (unlines (before ++ (line ++ c) :: after)) = stripComments t := by
  obtain ⟨rest, rfl⟩ := List.head?_eq_some_iff.mp comment
  have kept : ∀ char ∈ line, decide (char ≠ '#') = true := by
    rintro char member
    rw [decide_eq_true_iff]
    rintro rfl
    exact plain member
  have cut : (line ++ '#' :: rest).takeWhile (· ≠ '#') = line.takeWhile (· ≠ '#') := by
    rw [List.takeWhile_append_of_pos kept, List.takeWhile_cons_of_neg (by simp), List.append_nil,
      List.takeWhile_eq_self_iff.mpr kept]
  rw [stripComments, stripComments, lines_append_comment split inLine, split, List.map_append, List.map_append,
    List.map_cons, List.map_cons, cut]

end Text

namespace Lint

/-- Let a comment be put at the end of a line that has none. If it is no pragma, the issues stay as they are. If it is one, the
    issues that touch the line in the text without comments are left out, and the others stay as they are. -/
theorem issues_append_comment {t line c : Text} {before after : List Text} (path : Path)
    (split : Text.lines t = before ++ line :: after) (plain : '#' ∉ line) (comment : c.head? = some '#') (inLine : '\n' ∉ c) :
    (Pragma.isOn c = false → issues path (Text.unlines (before ++ (line ++ c) :: after)) = issues path t) ∧
      (Pragma.isOn c = true → issues path (Text.unlines (before ++ (line ++ c) :: after)) =
        (issues path t).map (·.filter fun i => ¬ i.span.Touches (Text.stripComments t) (before.length + 1))) := by
  have pragmas : Pragma.lines t = Pragma.linesFrom 1 before ++ Pragma.linesFrom (before.length + 2) after := by
    rw [show Pragma.lines t = Pragma.linesFrom 1 (Text.lines t) from rfl, split, Pragma.linesFrom_split,
      Pragma.isOn_of_plain plain]
    rfl
  have pragmas' : Pragma.lines (Text.unlines (before ++ (line ++ c) :: after)) = Pragma.linesFrom 1 before ++
      ((if Pragma.isOn c then [before.length + 1] else []) ++ Pragma.linesFrom (before.length + 2) after) := by
    rw [← Pragma.isOn_append plain comment, ← Pragma.linesFrom_split,
      ← congrArg (Pragma.linesFrom 1) (Text.lines_append_comment split inLine)]
    rfl
  rw [issues_eq, issues_eq, Text.stripComments_append_comment split plain comment inLine, pragmas, pragmas']
  constructor
  · intro off
    rw [off]
    rfl
  · -- To compare the lists, the issues of the line are left out before all are put in order.
    intro on
    rw [if_pos on]
    cases ran : Check.runAll Check.catalog path (Text.stripComments t) with
    | error fault => rfl
    | ok found =>
      simp only [Except.map]
      rw [← inReadingOrder_filter, List.filter_filter]
      refine congrArg (Except.ok ∘ inReadingOrder) (List.filter_congr fun i member => ?_)
      have touched := (isSuppressed_singleton (before.length + 1) i).trans
        (mem_lines_iff (runAll_placed ran member).2 (before.length + 1))
      rw [isSuppressed_append, isSuppressed_append, isSuppressed_append, Bool.eq_iff_iff]
      simp [← touched]
      tauto

/-- A pragma in the middle of a call takes away what is found in its arguments, and leaves what is found before. -/
theorem issues_append_nocheck :
    Text.lines "project(a)\nadd_library(b\nc)".toList = ["project(a)".toList] ++ "add_library(b".toList :: ["c)".toList] ∧
      Pragma.isOn "#nocheck".toList = true ∧
      issues (.ofText "a.cmake".toList) (Text.unlines (["project(a)".toList] ++
        ("add_library(b".toList ++ "#nocheck".toList) :: ["c)".toList])) =
        (issues (.ofText "a.cmake".toList) "project(a)\nadd_library(b\nc)".toList).map
          (·.filter fun i => ¬ i.span.Touches (Text.stripComments "project(a)\nadd_library(b\nc)".toList) 2) ∧
      (issues (.ofText "a.cmake".toList) "project(a)\nadd_library(b\nc)".toList).toOption.map (·.map (·.position.line)) =
        some [1, 2] ∧
      (issues (.ofText "a.cmake".toList) "project(a)\nadd_library(b#nocheck\nc)".toList).toOption.map
        (·.map (·.position.line)) = some [1] := by
  have split : Text.lines "project(a)\nadd_library(b\nc)".toList =
      ["project(a)".toList] ++ "add_library(b".toList :: ["c)".toList] := by decide
  have on : Pragma.isOn "#nocheck".toList = true := by decide +kernel
  obtain ⟨_, filtered⟩ := issues_append_comment (c := "#nocheck".toList) (.ofText "a.cmake".toList) split (by decide) (by decide)
    (by decide)
  exact ⟨split, on, filtered on, by decide +kernel, by decide +kernel⟩

/-! ### Issues on a line with a pragma -/

/-- Of the issues that are found on a line with a pragma, exactly those stay that have no characters; they come from the checks
    of arguments. So no issue is left on such a line exactly if none without characters was found there. -/
theorem mem_issues_on_pragma_line {path : Path} {t : Text} {kept : List Issue} (made : issues path t = .ok kept) :
    ∃ found, Check.runAll Check.catalog path (Text.stripComments t) = .ok found ∧
      (∀ i, Pragma.Marks t i.position.line → (i ∈ kept ↔ i ∈ found ∧ i.span.length = 0)) ∧
      (∀ i ∈ kept, Pragma.Marks t i.position.line → i.check ∈ Check.argumentChecks) ∧
      ((∀ i ∈ kept, ¬ Pragma.Marks t i.position.line) ↔
        ∀ i ∈ found, i.span.length = 0 → ¬ Pragma.Marks t i.position.line) := by
  rw [issues_eq] at made
  cases ran : Check.runAll Check.catalog path (Text.stripComments t) with
  | error fault =>
    rw [ran] at made
    cases made
  | ok found =>
    rw [ran] at made
    cases made
    have stays : ∀ i, Pragma.Marks t i.position.line →
        (i ∈ inReadingOrder (found.filter fun i => !isSuppressed (Pragma.lines t) i) ↔ i ∈ found ∧ i.span.length = 0) := by
      intro i marked
      rw [mem_inReadingOrder, List.mem_filter]
      refine and_congr_right fun member => ?_
      obtain ⟨placed, grounded⟩ := runAll_placed ran member
      constructor
      · intro visible
        by_contra nonempty
        have touched : i.position.line ∈ i.lines := by
          rw [mem_lines_iff grounded, grounded.position_eq]
          exact ⟨i.span.start, placed.starts, Nat.le_refl _, by rw [Span.stop]; omega, rfl⟩
        have suppressed : isSuppressed (Pragma.lines t) i = true :=
          List.any_eq_true.mpr ⟨_, touched, List.contains_iff_mem.mpr (Pragma.mem_lines.mpr marked)⟩
        rw [suppressed] at visible
        cases visible
      · intro empty
        rw [isSuppressed, Issue.lines, Span.lines_of_empty empty]
        rfl
    refine ⟨found, rfl, stays, ?_, ?_⟩
    · intro i member marked
      obtain ⟨member, empty⟩ := (stays i marked).mp member
      exact check_of_empty ran member empty
    · constructor
      · intro clear i member empty marked
        exact clear i ((stays i marked).mpr ⟨member, empty⟩) marked
      · intro clear i member marked
        obtain ⟨member, empty⟩ := (stays i marked).mp member
        exact clear i member empty marked

/-- A call without arguments is reported on its line in spite of a pragma there. -/
theorem empty_call_on_pragma_line :
    ∃ kept, issues (.ofText "a.cmake".toList) "add_library() # nocheck".toList = .ok kept ∧
      ∃ i ∈ kept, i.position = ⟨1, 13⟩ ∧ Pragma.Marks "add_library() # nocheck".toList 1 ∧ i.span.length = 0 ∧
        i.check ∈ Check.argumentChecks := by
  have places : (issues (.ofText "a.cmake".toList) "add_library() # nocheck".toList).toOption.map
      (·.map fun i => (i.position, i.span.length)) = some [(⟨1, 13⟩, 0)] := by decide +kernel
  have marked : Pragma.Marks "add_library() # nocheck".toList 1 := Pragma.mem_lines.mp (by decide +kernel)
  cases made : issues (.ofText "a.cmake".toList) "add_library() # nocheck".toList with
  | error fault =>
    rw [made] at places
    cases places
  | ok kept =>
    simp only [made, Except.toOption, Option.map_some, Option.some.injEq] at places
    obtain ⟨i, rest, split⟩ : ∃ i rest, kept = i :: rest := by
      refine List.exists_cons_of_ne_nil (fun empty => ?_)
      simp [empty] at places
    rw [split, List.map_cons, List.cons.injEq, Prod.mk.injEq] at places
    obtain ⟨_, _, _, checks, _⟩ := mem_issues_on_pragma_line made
    have member : i ∈ kept := by simp [split]
    refine ⟨kept, rfl, i, member, places.1.1, marked, places.1.2, checks i member ?_⟩
    rw [places.1.1]
    exact marked

end Lint

end CMakeLint
