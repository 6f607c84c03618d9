import CMakeLint.Comment
import CMakeLint.Proofs.Check.Placement
import CMakeLint.Proofs.Text.Layout

/-!
What a reported issue says and shows. Everything about an issue follows from its spot (`report_ok_iff`). Its place is the place
of its first character in the text that was checked; comments are cut off at the ends of lines only, so that this is also the
place in the text with its comments (`position_in_source`). The lines that it shows are those of the match, under their own
numbers (`run_shows_lines`).
-/
namespace CMakeLint

/-! ### Issues and their spots -/

/-- All that an issue is made of, by the spot that it is made from. -/
structure Issue.MadeFrom (check : Check) (path : Path) (t : Text) (s : Spot) (i : Issue) : Prop where
  check_eq : i.check = check
  path_eq : i.path = some path
  text_eq : i.text = t
  description_eq : i.description = s.description
  nonempty : t ≠ []
  span_eq : Span.ofBounds (Check.groupBounds s.found s.group).1 (Check.groupBounds s.found s.group).2 = .ok i.span
  context_eq : Check.wholeLines t s.start s.last = .ok i.context
  covers : i.context.start ≤ i.span.start
  within : i.span.stop ≤ i.context.stop
  inside : i.span.start ≤ t.length
  position_eq : i.position = Position.ofOffset t i.span.start
  grid_eq : Issue.highlight (Grid.ofText (i.context.of t) (reportIndent ++ reportIndent)
    (some (Position.ofOffset t i.context.start).line)) (i.span.of t) = .ok i.grid

/-- A draft that has all parts becomes an issue only if they fit together. -/
theorem Draft.fits_of_issue {check : Check} {path : Path} {t : Text} {span context : Span} {description : Option Text}
    {i : Issue} (made : Draft.issue ⟨some check, some path, some t, some span, description, some context⟩ = .ok i) :
    t ≠ [] ∧ span.start ≤ t.length ∧ context.start ≤ span.start ∧ span.stop ≤ context.stop := by
  rw [Draft.issue] at made
  obtain ⟨_, ⟨rfl⟩, made⟩ := bind_eq_ok.mp made
  obtain ⟨_, ⟨rfl⟩, made⟩ := bind_eq_ok.mp made
  obtain ⟨text, given, made⟩ := bind_eq_ok.mp made
  obtain ⟨_, ⟨rfl⟩, made⟩ := bind_eq_ok.mp made
  have nonempty : t ≠ [] := by
    rintro rfl
    cases given
  have same : text = t := by
    simp only [Draft.part, Option.filter, List.isEmpty_eq_false_iff.mpr nonempty, Bool.not_false, ↓reduceIte] at given
    exact (Except.ok.inj given).symm
  subst same
  simp only [Option.getD_some] at made
  by_cases early : span.start < context.start
  · rw [if_pos early] at made
    cases made
  · by_cases late : context.stop < span.stop
    · rw [if_neg early, if_pos late] at made
      cases made
    · rw [if_neg early, if_neg late] at made
      obtain ⟨_, position, _⟩ := bind_eq_ok.mp made
      exact ⟨nonempty, Text.positionAt_eq_ok position, by omega, by omega⟩

namespace Check

theorem report_eq_ok_iff {check : Check} {path : Path} {t : Text} {s : Spot} {i : Issue} :
    check.report path t s = .ok i ↔ ∃ span context,
      Span.ofBounds (groupBounds s.found s.group).1 (groupBounds s.found s.group).2 = .ok span ∧
        wholeLines t s.start s.last = .ok context ∧
        Draft.issue ⟨some check, some path, some t, some span, s.description, some context⟩ = .ok i := by
  rw [report]
  constructor
  · intro made
    obtain ⟨span, spanEq, made⟩ := bind_eq_ok.mp made
    obtain ⟨context, contextEq, made⟩ := bind_eq_ok.mp made
    exact ⟨span, context, spanEq, contextEq, made⟩
  · rintro ⟨span, context, spanEq, contextEq, made⟩
    exact bind_eq_ok.mpr ⟨span, spanEq, bind_eq_ok.mpr ⟨context, contextEq, made⟩⟩

/-- An issue is reported for a spot exactly if it is made from it. -/
theorem report_ok_iff {check : Check} {path : Path} {t : Text} {s : Spot} {i : Issue} :
    check.report path t s = .ok i ↔ i.MadeFrom check path t s := by
  rw [report_eq_ok_iff]
  constructor
  · rintro ⟨span, context, spanEq, contextEq, made⟩
    obtain ⟨nonempty, starts, covers, within⟩ := Draft.fits_of_issue made
    rw [Draft.issue_eq s.description nonempty starts covers within] at made
    cases highlighted : Issue.highlight (Grid.ofText (context.of t) (reportIndent ++ reportIndent)
        (some (Position.ofOffset t context.start).line)) (span.of t) with
    | error fault =>
      rw [highlighted] at made
      cases made
    | ok grid =>
      rw [highlighted] at made
      cases made
      exact ⟨rfl, rfl, rfl, rfl, nonempty, spanEq, contextEq, covers, within, starts, rfl, highlighted⟩
  · intro made
    refine ⟨i.span, i.context, made.span_eq, made.context_eq, ?_⟩
    rw [Draft.issue_eq s.description made.nonempty made.inside made.covers made.within, made.grid_eq, Except.map,
      ← made.position_eq, ← made.description_eq, ← made.path_eq, ← made.check_eq, ← made.text_eq]

theorem rule_ne_none_of_run {check : Check} {path : Path} {t : Text} {findings : Findings}
    (made : check.run path t = .ok findings) : check.rule ≠ .none := by
  intro none
  rw [run, if_pos none] at made
  cases made

/-- What a check finds is made from its spots, in their order. -/
theorem run_madeFrom {check : Check} {path : Path} {t : Text} {findings : Findings}
    (made : check.run path t = .ok findings) :
    List.Forall₂ (fun s i => i.MadeFrom check path t s) (check.spots path t) findings.toList := by
  have all := run_toList (rule_ne_none_of_run made) path t
  rw [made] at all
  exact (mapM_ok all.symm).imp fun _ _ => report_ok_iff.mp

theorem run_of_evaluated {check : Check} {path : Path} {t : Text} {α : Type} {view : Issue → α} {a : α}
    (evaluated : ((check.run path t).toOption.map fun findings => findings.toList.map view) = some [a]) :
    ∃ findings, check.run path t = .ok findings ∧ ∃ i ∈ findings.toList, view i = a := by
  cases ran : check.run path t with
  | error fault =>
    rw [ran] at evaluated
    cases evaluated
  | ok findings =>
    rw [ran] at evaluated
    obtain ⟨i, single, same⟩ := List.map_eq_singleton_iff.mp (Option.some.inj evaluated)
    exact ⟨findings, rfl, i, by simp [single], same⟩

end Check

/-! ### Places in the text with its comments -/

namespace Text

theorem head_of_lines {t first : Text} {rest : List Text} {c : Char} (split : lines t = first :: rest) (head : t.head? = some c)
    (other : c ≠ '\n') : first.head? = some c := by
  obtain ⟨t', rfl⟩ := List.head?_eq_some_iff.mp head
  rw [lines_cons other] at split
  obtain ⟨rfl, _⟩ := List.cons.inj split
  rfl

/-- A position in the text without comments has a line in the text with comments: what stands before the position is the same
    there and has no comment, and so is the character of the position unless a newline or a comment follows. -/
theorem line_of_stripped {t : Text} {n : Nat} (inside : n ≤ (stripComments t).length) :
    ∃ earlier part rest, Position.ofOffset (stripComments t) n = ⟨earlier + 1, part.length + 1⟩ ∧
      (lines t)[earlier]? = some (part ++ rest) ∧ '#' ∉ part ∧
      n = (stripComments t).lineOffset (earlier + 1) + part.length ∧
      (stripComments t).slice ((stripComments t).lineOffset (earlier + 1)) n = part ∧
      ∀ c, (stripComments t)[n]? = some c → c ≠ '\n' → rest.head? = some c := by
  obtain ⟨earlier, part, first, others, before, after, all⟩ := exists_cut (stripComments t) n
  have number : ((lines t).map (·.takeWhile (· ≠ '#')))[earlier.length]? = some (part ++ first) := by
    rw [← lines_stripComments, all, List.getElem?_append_right (Nat.le_refl _), Nat.sub_self]
    rfl
  obtain ⟨raw, here, cut⟩ := Option.map_eq_some_iff.mp (by rwa [List.getElem?_map] at number)
  have whole : raw = part ++ (first ++ raw.dropWhile (· ≠ '#')) := by
    rw [← List.append_assoc, ← cut, List.takeWhile_append_dropWhile]
  have text := eq_of_lines before
  have length := congrArg List.length text
  rw [List.length_take, Nat.min_eq_left inside, List.length_append] at length
  refine ⟨earlier.length, part, _, Position.ofOffset_of_lines before, whole ▸ here, ?_, ?_, ?_, ?_⟩
  · intro sign
    have taken : '#' ∈ raw.takeWhile (· ≠ '#') := by
      rw [cut]
      exact List.mem_append_left _ sign
    simpa using List.mem_takeWhile_imp taken
  · rw [lineOffset_of_lines all]
    exact length
  · rw [lineOffset_of_lines all, slice_eq_drop_take, text, List.drop_left]
  · intro c char other
    rw [← List.head?_drop] at char
    rw [List.head?_append, head_of_lines after char other]
    rfl

end Text

namespace Check

/-- An issue that is found in the text without comments has a place in the text with its comments. What stands before it on its
    line there is what stands before it in the text that was checked, without any comment, and its first character is the one
    at its column, if it is not a newline. -/
theorem position_in_source {check : Check} {path : Path} {t : Text} {findings : Findings}
    (made : check.run path (Text.stripComments t) = .ok findings) {i : Issue} (member : i ∈ findings.toList) :
    1 ≤ i.position.line ∧ 1 ≤ i.position.column ∧ ∃ raw, (Text.lines t)[i.position.line - 1]? = some raw ∧
      i.position.column - 1 ≤ raw.length ∧ '#' ∉ raw.take (i.position.column - 1) ∧
      i.span.start = (Text.stripComments t).lineOffset i.position.line + (i.position.column - 1) ∧
      raw.take (i.position.column - 1) =
        (Text.stripComments t).slice ((Text.stripComments t).lineOffset i.position.line) i.span.start ∧
      ∀ c, (Text.stripComments t)[i.span.start]? = some c → c ≠ '\n' → raw[i.position.column - 1]? = some c := by
  obtain ⟨s, _, issue⟩ := forall₂_mem_right (run_madeFrom made) member
  obtain ⟨earlier, part, rest, place, here, plain, start, before, char⟩ := Text.line_of_stripped issue.inside
  rw [issue.position_eq, place]
  refine ⟨Nat.succ_pos _, Nat.succ_pos _, part ++ rest, here, ?_, ?_, start, ?_, ?_⟩
  · simp
  · simpa using plain
  · simpa using before.symm
  · intro c first other
    rw [Nat.add_sub_cancel, List.getElem?_append_right (Nat.le_refl _), Nat.sub_self, ← List.head?_eq_getElem?]
    exact char c first other

/-- A call that goes on after a comment, below a line of comment that is empty when it is checked. -/
theorem position_beside_comments :
    ∃ findings, libraryType.run (.ofText "a.cmake".toList) (Text.stripComments "# x(\nadd_library(a # b\n c)".toList) =
        .ok findings ∧
      ∃ i ∈ findings.toList, i.span = ⟨13, 5⟩ ∧ i.position = ⟨2, 13⟩ ∧
        ∃ raw, (Text.lines "# x(\nadd_library(a # b\n c)".toList)[1]? = some raw ∧ '#' ∉ raw.take 12 ∧
          raw[12]? = some 'a' := by
  have places : ((libraryType.run (.ofText "a.cmake".toList)
      (Text.stripComments "# x(\nadd_library(a # b\n c)".toList)).toOption.map fun findings =>
        findings.toList.map fun i => (i.span, i.position)) = some [(⟨13, 5⟩, ⟨2, 13⟩)] := by decide +kernel
  obtain ⟨findings, made, i, member, same⟩ := run_of_evaluated places
  obtain ⟨spanEq, place⟩ := Prod.mk.inj same
  obtain ⟨_, _, raw, here, _, plain, _, _, char⟩ := position_in_source made member
  rw [place] at here plain char
  rw [spanEq] at char
  exact ⟨findings, made, i, member, spanEq, place, raw, here, plain, char 'a' (by decide +kernel) (by decide)⟩

end Check

/-! ### Lines that are shown -/

theorem Text.unifyNewlines_of_plain {t : Text} (plain : '\r' ∉ t) : unifyNewlines t = t := by
  induction t with
  | nil => rfl
  | cons c t ih =>
    have other : c ≠ '\r' := fun same => plain (same ▸ List.mem_cons_self)
    rw [unifyNewlines, if_neg other, ih (fun member => plain (List.mem_cons_of_mem _ member))]

theorem Text.lines_expandTabs (t : Text) : lines (expandTabs t) = (lines t).map expandTabs := by
  induction t with
  | nil => rfl
  | cons c t ih =>
    obtain ⟨first, rest, split⟩ := exists_first_line t
    rw [split] at ih
    by_cases newline : c = '\n'
    · have tail : expandTabs (c :: t) = '\n' :: expandTabs t := by simp [expandTabs, newline]
      rw [tail, lines_newline, newline, lines_newline, ih, split]
      rfl
    · rw [lines_cons newline, split]
      by_cases tab : c = '\t'
      · have tail : expandTabs (c :: t) = ' ' :: ' ' :: ' ' :: ' ' :: expandTabs t := by simp [expandTabs, tab]
        have blank : ' ' ≠ '\n' := by decide
        rw [tail, lines_cons blank, lines_cons blank, lines_cons blank, lines_cons blank, ih]
        simp [expandTabs, tab]
      · have tail : expandTabs (c :: t) = c :: expandTabs t := by simp [expandTabs, tab]
        rw [tail, lines_cons newline, ih]
        simp [expandTabs, tab]

theorem Grid.normalize_of_plain {t : Text} (plain : '\r' ∉ t) : normalize t = Text.expandTabs t := by
  rw [normalize, Text.unifyNewlines_of_plain plain]

theorem Span.ofBounds_eq_ok {start stop : Int} {s : Span} (made : Span.ofBounds start stop = .ok s) :
    (s.start : Int) = start ∧ (s.stop : Int) = stop := by
  rw [Span.ofBounds, Span.ofLength] at made
  split at made
  · cases made
  · split at made
    · cases made
    · cases made
      simp only [Span.stop]
      omega

/-- The characters of a span are without carriage returns if the text is. -/
theorem Span.of_plain {t : Text} (plain : '\r' ∉ t) (s : Span) : '\r' ∉ s.of t := by
  intro member
  exact plain (List.mem_of_mem_drop (List.mem_of_mem_take member))

namespace Check

theorem wholeLines_eq_ok {t : Text} {first last : Int} {context : Span} (made : wholeLines t first last = .ok context) :
    ∃ stop, t.lineStart first = .ok context.start ∧ t.lineEnd last = .ok stop ∧ context.stop = stop + 1 := by
  rw [wholeLines] at made
  obtain ⟨start, started, made⟩ := bind_eq_ok.mp made
  obtain ⟨stop, stopped, made⟩ := bind_eq_ok.mp made
  obtain ⟨startEq, stopEq⟩ := Span.ofBounds_eq_ok made
  have same : context.start = start := by omega
  exact ⟨stop, same ▸ started, stopped, by omega⟩

/-- Whole lines from one character to another begin and end on the lines of these characters. -/
theorem wholeLines_line {t : Text} {first last : Nat} {context : Span} (made : wholeLines t first last = .ok context)
    (firstChar : t[first]? ≠ some '\n') (lastChar : t[last]? ≠ some '\n') (inside : first < t.length)
    (inside' : last < t.length) :
    (Position.ofOffset t context.start).line = (Position.ofOffset t first).line ∧
      (Position.ofOffset t context.stop).line = (Position.ofOffset t last).line := by
  obtain ⟨stop, started, stopped, same⟩ := wholeLines_eq_ok made
  rw [same]
  exact ⟨Text.lineStart_line inside firstChar started, Text.lineEnd_line inside' lastChar stopped⟩

end Check

/-- A spot shows the lines from the character at `first` to the character at `last`: those of its match, and for the minimum
    version those from the first project to the later end of that project and the first requirement. -/
def Spot.ShownFrom (rule : Rule) (t : Text) (s : Spot) (first last : Nat) : Prop :=
  match rule with
  | .minimumVersion => ∃ project, (Pattern.callNamedWithArguments ["project"]).search false t = some project ∧
      first = project.start ∧ last + 1 = max project.stop
        (((Pattern.callNamedWithArguments ["cmake_minimum_required"]).search false t).elim 0 (·.stop))
  | _ => first = s.found.start ∧ last + 1 = s.found.stop

/-- An issue shows the lines from `a` to `b` of a text: it has a row for each of them, which is the line with blanks in place of
    tabs, the first row has the number `a`, and the issue is reported on one of these lines. -/
structure Issue.ShowsLines (t : Text) (a b : Nat) (i : Issue) : Prop where
  rows : i.grid.rows.length = b - a + 1
  number : i.grid.lineNumber = some (a : Int)
  texts : ∀ k < b - a + 1, ∃ line, (Text.lines t)[a - 1 + k]? = some line ∧ i.grid.texts[k]? = some (Text.expandTabs line)
  after : a ≤ i.position.line
  before : i.position.line ≤ b

namespace Check

theorem minimumVersionSpot_shownFrom {path : Path} {t : Text} {s : Spot} (found : minimumVersionSpot? path t = some s)
    {first last : Nat} (start : s.start = first) (stop : s.last = last) : s.ShownFrom .minimumVersion t first last := by
  unfold minimumVersionSpot? at found
  split at found
  · cases found
  · cases project : (Pattern.callNamedWithArguments ["project"]).search false t with
    | none => simp [project] at found
    | some m =>
      refine ⟨m, project, ?_⟩
      cases required : (Pattern.callNamedWithArguments ["cmake_minimum_required"]).search false t with
      | none =>
        simp only [project, required, Option.some.injEq] at found
        subst found
        simp only [Spot.ofMatch, Option.elim_none] at *
        omega
      | some m' =>
        simp only [project, required] at found
        split at found
        · cases found
          simp only [Option.elim_some] at *
          omega
        · cases found

theorem spots_shownFrom {check : Check} {path : Path} {t : Text} {s : Spot} (member : s ∈ check.spots path t)
    {first last : Nat} (start : s.start = first) (stop : s.last = last) : s.ShownFrom check.rule t first last := by
  have ofMatch : ∀ m group description, s = Spot.ofMatch m group description →
      first = s.found.start ∧ last + 1 = s.found.stop := by
    rintro m group description rfl
    simp only [Spot.ofMatch] at *
    omega
  unfold spots at member
  cases rule : check.rule with
  | none =>
    rw [rule] at member
    cases member
  | minimumVersion =>
    rw [rule] at member
    exact minimumVersionSpot_shownFrom (Option.mem_toList.mp member) start stop
  | systemKeyword =>
    rw [rule] at member
    have found := Option.mem_toList.mp member
    unfold systemKeywordSpot? at found
    split at found
    · cases found
    · split at found
      · cases found
      · cases found
        exact ofMatch _ _ _ rfl
  | matching rule' =>
    rw [rule] at member
    obtain ⟨p, _, member⟩ := List.mem_flatMap.mp member
    obtain ⟨m, _, taken⟩ := List.mem_filterMap.mp member
    unfold matchSpot? at taken
    simp only at taken
    split at taken
    · cases taken
    · cases taken
      exact ofMatch _ _ _ rfl

theorem lines_context_length {t : Text} {context : Span} (within : context.start ≤ context.stop) :
    (Text.lines (context.of t)).length =
      (Position.ofOffset t context.stop).line - (Position.ofOffset t context.start).line + 1 := by
  have split := congrArg (List.count '\n') (Text.take_append_slice (t := t) within)
  rw [List.count_append] at split
  rw [Text.length_lines, Position.ofOffset_line, Position.ofOffset_line, Span.of]
  omega

/-- The snippet of an issue that is made from a spot on lines of the text. -/
theorem showsLines_of_madeFrom {check : Check} {path : Path} {t : Text} {s : Spot} {i : Issue} {first last start stop : Nat}
    (plain : '\r' ∉ t) (made : i.MadeFrom check path t s) (grounded : s.Grounded t first last start stop) :
    i.ShowsLines t (Position.ofOffset t first).line (Position.ofOffset t last).line := by
  have reports := reports_of_ok grounded (report_ok_iff.mpr made)
  have placed := reports.placed
  have group := reports.group_eq
  rw [grounded.group_eq] at group
  cases group
  obtain ⟨startEq, lastEq, _, firstChar, lastChar, inside, after, ordered, before, starts⟩ := grounded
  have context := made.context_eq
  rw [startEq, lastEq] at context
  obtain ⟨opening, closing⟩ := wholeLines_line context firstChar lastChar (by omega) inside
  have within : i.context.start ≤ i.context.stop := by
    have := placed.covers
    have := placed.ordered
    have := placed.within
    omega
  obtain ⟨above, below, split, number⟩ := Text.lines_slice within placed.opens placed.closes
  rw [show t.slice i.context.start i.context.stop = i.context.of t from rfl] at split
  have length := lines_context_length (t := t) within
  rw [opening, closing] at length
  have texts : i.grid.texts = (Text.lines (i.context.of t)).map Text.expandTabs := by
    rw [Issue.highlight_texts made.grid_eq, Grid.texts_ofText, Grid.normalize_of_plain (Span.of_plain plain _),
      Text.lines_expandTabs]
  refine ⟨?_, ?_, ?_, ?_, ?_⟩
  · rw [← length, ← List.length_map (f := Text.expandTabs), ← texts, Grid.texts, List.length_map]
  · rw [Issue.highlight_lineNumber made.grid_eq, ← opening]
    rfl
  · intro k less
    rw [← length] at less
    refine ⟨(Text.lines (i.context.of t))[k], ?_, ?_⟩
    · have index : (Position.ofOffset t first).line - 1 = above.length := by omega
      rw [split, index, List.append_assoc, List.getElem?_append_right (by omega), Nat.add_sub_cancel_left,
        List.getElem?_append_left less]
      exact List.getElem?_eq_getElem less
    · rw [texts, List.getElem?_map, List.getElem?_eq_getElem less]
      rfl
  · rw [made.position_eq]
    exact Position.ofOffset_line_mono t after
  · have here : t[last]? = some t[last] := List.getElem?_eq_getElem inside
    have step := Position.ofOffset_line_succ here
    rw [if_neg (fun newline => lastChar (by rw [here, newline]))] at step
    rw [made.position_eq]
    exact Nat.le_trans (Position.ofOffset_line_mono t (Nat.le_trans ordered before)) (Nat.le_of_eq step)

/-- Every issue of a check shows the lines of its match, from that of the first character to that of the last one, under their
    own numbers, and is reported on one of them. -/
theorem run_shows_lines {check : Check} (listed : check ∈ catalog) {path : Path} {t : Text} (plain : '\r' ∉ t)
    {findings : Findings} (made : check.run path t = .ok findings) :
    List.Forall₂ (fun s i => s.found.group? s.group = some (i.span.start, i.span.stop) ∧
      ∃ first last, s.ShownFrom check.rule t first last ∧
        i.ShowsLines t (Position.ofOffset t first).line (Position.ofOffset t last).line)
      (check.spots path t) findings.toList := by
  refine ((List.forall₂_and_left _ _).mpr ⟨fun s member => member, run_madeFrom made⟩).imp ?_
  rintro s i ⟨member, issue⟩
  obtain ⟨first, last, start, stop, grounded⟩ := spots_grounded (catalog_placesSpots check listed) member
  refine ⟨(reports_of_ok grounded (report_ok_iff.mpr issue)).group_eq, first, last, ?_, ?_⟩
  · exact spots_shownFrom member grounded.start_eq grounded.last_eq
  · exact showsLines_of_madeFrom plain issue grounded

/-- A requirement after the first project, which is shown from the line of the project to the line where the requirement ends. -/
theorem late_requirement_shows_lines : minimumVersion ∈ catalog ∧
    '\r' ∉ "\nproject(a\n\tb) cmake_minimum_required(\n)\n".toList ∧
    ∃ findings, minimumVersion.run (.ofText "CMakeLists.txt".toList)
        "\nproject(a\n\tb) cmake_minimum_required(\n)\n".toList = .ok findings ∧
      ∃ i ∈ findings.toList, i.position = ⟨3, 5⟩ ∧
        i.ShowsLines "\nproject(a\n\tb) cmake_minimum_required(\n)\n".toList 2 4 := by
  have listed : minimumVersion ∈ catalog := by simp [catalog]
  have plain : '\r' ∉ "\nproject(a\n\tb) cmake_minimum_required(\n)\n".toList := by decide +kernel
  have places : ((minimumVersion.run (.ofText "CMakeLists.txt".toList)
      "\nproject(a\n\tb) cmake_minimum_required(\n)\n".toList).toOption.map fun findings =>
        findings.toList.map fun i => i.position) = some [⟨3, 5⟩] := by decide +kernel
  obtain ⟨findings, made, i, member, place⟩ := run_of_evaluated places
  have projectAt : ((Pattern.callNamedWithArguments ["project"]).search false
      "\nproject(a\n\tb) cmake_minimum_required(\n)\n".toList).map (fun m => (m.start, m.stop)) = some (1, 14) := by
    decide +kernel
  have requiredAt : ((Pattern.callNamedWithArguments ["cmake_minimum_required"]).search false
      "\nproject(a\n\tb) cmake_minimum_required(\n)\n".toList).elim 0 (·.stop) = 40 := by
    decide +kernel
  obtain ⟨s, _, _, first, last, ⟨project, found, firstEq, lastEq⟩, shows⟩ :=
    forall₂_mem_right (run_shows_lines listed plain made) member
  rw [found, Option.map_some, Option.some.injEq, Prod.mk.injEq] at projectAt
  rw [requiredAt, projectAt.2] at lastEq
  obtain rfl : first = 1 := by omega
  obtain rfl : last = 39 := by omega
  exact ⟨listed, plain, findings, made, i, member, place, shows⟩

end Check

end CMakeLint
