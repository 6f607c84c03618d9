import CMakeLint.Check.Catalog
import CMakeLint.Check.Findings
import CMakeLint.Proofs.Grid.Highlight
import CMakeLint.Proofs.Lists
import CMakeLint.Proofs.Pattern.Shape
import CMakeLint.Proofs.Text.Lines

/-!
Where the checks of the catalogue report. The form of their patterns places every spot on lines of the text
(`spots_grounded`), so a spot becomes an issue unless its highlight overruns the limit, and the issue lies in whole lines of
the text (`report_cases`). A check fails exactly if one of its spots overruns (`run_fails_iff_overruns`).
-/
namespace CMakeLint

/-! ### Spots on lines -/

/-- Where a spot stands: it shows the lines from that of the character at `first` to that of the character at `last`, and its
    group goes from `start` to `stop` in between. -/
structure Spot.Grounded (t : Text) (s : Spot) (first last start stop : Nat) : Prop where
  start_eq : s.start = first
  last_eq : s.last = last
  group_eq : s.found.group? s.group = some (start, stop)
  firstChar : t[first]? ≠ some '\n'
  lastChar : t[last]? ≠ some '\n'
  inside : last < t.length
  after : first ≤ start
  ordered : start ≤ stop
  before : stop ≤ last + 1
  starts : start < t.length

theorem Spot.ofMatch_grounded {t : Text} {m : Pattern.Match} {number : Nat} (description : Option Text)
    (placed : Pattern.Placed t number m) :
    ∃ first last start stop, (Spot.ofMatch m number description).Grounded t first last start stop := by
  obtain ⟨nonempty, inside, firstChar, lastChar, start, stop, group, after, ordered, before, early⟩ := placed
  exact ⟨m.start, m.stop - 1, start, stop, rfl, by simp only [Spot.ofMatch]; omega, group, firstChar, lastChar, by omega, after,
    ordered, by omega, by omega⟩

namespace Check

/-- The form of the patterns of a rule places its spots. -/
def placesSpots : Rule → Bool
  | .none => false
  | .minimumVersion => true
  | .systemKeyword => true
  | .matching rule => rule.patterns.all fun p =>
    0 < reportedGroup rule p && p.reportsOnLines rule.ignoreCase (reportedGroup rule p)

theorem catalog_placesSpots : ∀ check ∈ catalog, placesSpots check.rule = true := by
  decide +kernel

theorem matchingSpots_grounded {check : Check} {rule : Matching} {t : Text} {s : Spot}
    (form : placesSpots (.matching rule) = true) (member : s ∈ matchingSpots check rule t) :
    ∃ first last start stop, s.Grounded t first last start stop := by
  obtain ⟨p, listed, member⟩ := List.mem_flatMap.mp member
  obtain ⟨m, found, taken⟩ := List.mem_filterMap.mp member
  obtain ⟨positive, lines⟩ := Bool.and_eq_true_iff.mp (List.all_eq_true.mp form p listed)
  unfold matchSpot? at taken
  simp only at taken
  split at taken
  · cases taken
  · cases taken
    exact Spot.ofMatch_grounded _ ((Pattern.findAll_isMatch found).placed (of_decide_eq_true positive) lines)

theorem callNamed_placed {name : String} {t : Text} {m : Pattern.Match}
    (form : (Pattern.callNamedWithArguments [name]).reportsOnLines false 1 = true)
    (found : (Pattern.callNamedWithArguments [name]).search false t = some m) : Pattern.Placed t 1 m :=
  (Pattern.search_isMatch found).placed Nat.one_pos form

theorem minimumVersionSpot_grounded {path : Path} {t : Text} {s : Spot} (found : minimumVersionSpot? path t = some s) :
    ∃ first last start stop, s.Grounded t first last start stop := by
  unfold minimumVersionSpot? at found
  split at found
  · cases found
  · cases project : (Pattern.callNamedWithArguments ["project"]).search false t with
    | none => simp [project] at found
    | some project' =>
      have projectPlaced := callNamed_placed (by decide) project
      cases required : (Pattern.callNamedWithArguments ["cmake_minimum_required"]).search false t with
      | none =>
        simp only [project, required, Option.some.injEq] at found
        rw [← found]
        exact Spot.ofMatch_grounded none projectPlaced
      | some required' =>
        have requiredPlaced := callNamed_placed (by decide) required
        simp only [project, required] at found
        split at found
        · rename_i later
          cases found
          obtain ⟨start, stop, group, after, ordered, before, early⟩ := requiredPlaced.group
          have nonempty := requiredPlaced.nonempty
          have inside := requiredPlaced.inside
          have inside' := projectPlaced.inside
          refine ⟨project'.start, max project'.stop required'.stop - 1, start, stop, rfl, ?_, group, projectPlaced.first, ?_,
            by omega, by omega, ordered, by omega, by omega⟩
          · simp only
            omega
          · rcases Nat.le_total project'.stop required'.stop with le | le
            · rw [Nat.max_eq_right le]
              exact requiredPlaced.last
            · rw [Nat.max_eq_left le]
              exact projectPlaced.last
        · cases found

theorem systemKeywordSpot_grounded {t : Text} {s : Spot} (found : systemKeywordSpot? t = some s) :
    ∃ first last start stop, s.Grounded t first last start stop := by
  unfold systemKeywordSpot? at found
  cases call : Pattern.includeDirectoriesWithSystem.search false t with
  | none => simp [call] at found
  | some m =>
    have placed : Pattern.Placed t 2 m := (Pattern.search_isMatch call).placed Nat.two_pos (by decide)
    simp only [call] at found
    split at found
    · cases found
    · cases found
      exact Spot.ofMatch_grounded none placed

/-- Every spot of a check stands on lines of the text if the form of its patterns says so. -/
theorem spots_grounded {check : Check} (form : placesSpots check.rule = true) {path : Path} {t : Text} {s : Spot}
    (member : s ∈ check.spots path t) : ∃ first last start stop, s.Grounded t first last start stop := by
  unfold spots at member
  cases rule : check.rule with
  | none =>
    rw [rule] at form
    cases form
  | minimumVersion =>
    rw [rule] at member
    exact minimumVersionSpot_grounded (Option.mem_toList.mp member)
  | systemKeyword =>
    rw [rule] at member
    exact systemKeywordSpot_grounded (Option.mem_toList.mp member)
  | matching m =>
    rw [rule] at form member
    exact matchingSpots_grounded form member

end Check

/-! ### Issues of spots -/

theorem Span.ofBounds_ok {start stop : Nat} (ordered : start ≤ stop) : Span.ofBounds start stop = .ok ⟨start, stop - start⟩ := by
  have length : ((stop : Int) - start).toNat = stop - start := by omega
  rw [Span.ofBounds, Span.ofLength, if_neg (by omega), if_neg (by omega), Int.toNat_natCast, length]

/-- A draft with a context that covers its span becomes an issue as soon as it can be highlighted. -/
theorem Draft.issue_eq {check : Check} {path : Path} {t : Text} {span context : Span} (description : Option Text)
    (nonempty : t ≠ []) (starts : span.start ≤ t.length) (covers : context.start ≤ span.start)
    (within : span.stop ≤ context.stop) :
    Draft.issue ⟨some check, some path, some t, some span, description, some context⟩ =
      (Issue.highlight (Grid.ofText (context.of t) (reportIndent ++ reportIndent)
        (some (Position.ofOffset t context.start).line)) (span.of t)).map fun grid =>
          ⟨check, some path, t, span, context, description, Position.ofOffset t span.start, grid⟩ := by
  have nonempty : t.isEmpty = false := List.isEmpty_eq_false_iff.mpr nonempty
  have early : ¬ span.start < context.start := by omega
  have late : ¬ context.stop < span.stop := by omega
  simp only [Draft.issue, Draft.part, bind, Except.bind, Option.filter, nonempty, Bool.not_false, ↓reduceIte,
    Option.getD_some, early, late, Text.positionAt_ok starts, Text.positionAt_ok (Nat.le_trans covers starts)]
  cases Issue.highlight _ _ <;> rfl

/-- Where an issue stands in a text: its span starts in the text and lies in its context, which is made of whole lines. -/
structure Issue.WellPlaced (t : Text) (i : Issue) : Prop where
  covers : i.context.start ≤ i.span.start
  ordered : i.span.start ≤ i.span.stop
  within : i.span.stop ≤ i.context.stop
  inside : i.context.stop ≤ t.length
  starts : i.span.start < t.length
  opens : i.context.start = 0 ∨ t[i.context.start - 1]? = some '\n'
  closes : i.context.stop = t.length ∨ t[i.context.stop]? = some '\n'

/-- What is known of an issue besides its place: it is about the text and is reported where its span starts, which is on or
    after a character that is no newline. -/
structure Issue.Grounded (t : Text) (i : Issue) : Prop where
  text_eq : i.text = t
  position_eq : i.position = Position.ofOffset t i.span.start
  anchored : ∃ n ≤ i.span.start, t[n]? ≠ some '\n'

/-- An issue is what a check reports of a spot: its span is the group of that spot. -/
structure Issue.Reports (check : Check) (t : Text) (s : Spot) (i : Issue) : Prop where
  check_eq : i.check = check
  group_eq : s.found.group? s.group = some (i.span.start, i.span.stop)
  placed : i.WellPlaced t
  grounded : i.Grounded t

/-- The text of a spot, searched in the lines that are shown, is found where it ends beyond the limit of highlights. -/
def Spot.Overruns (t : Text) (s : Spot) : Prop :=
  ∃ span context, Span.ofBounds (Check.groupBounds s.found s.group).1 (Check.groupBounds s.found s.group).2 = .ok span ∧
    Check.wholeLines t s.start s.last = .ok context ∧ Issue.Overruns (Grid.ofText (context.of t) [] none) (span.of t)

namespace Check

theorem wholeLines_spec {t : Text} {first last : Nat} (firstChar : t[first]? ≠ some '\n') (lastChar : t[last]? ≠ some '\n')
    (le : first ≤ last + 1) (inside : first < t.length) (inside' : last < t.length) :
    ∃ context, wholeLines t first last = .ok context ∧ context.start ≤ first ∧ last + 1 ≤ context.stop ∧
      context.stop ≤ t.length ∧ (context.start = 0 ∨ t[context.start - 1]? = some '\n') ∧
      (context.stop = t.length ∨ t[context.stop]? = some '\n') := by
  obtain ⟨start, found, startLe, opens⟩ := Text.lineStart_spec inside firstChar
  obtain ⟨stop, found', stopGe, stopLt, closes⟩ := Text.lineEnd_spec inside' lastChar
  have covers : start ≤ stop + 1 := by omega
  have span : Span.ofBounds start ((stop : Int) + 1) = .ok ⟨start, stop + 1 - start⟩ := Span.ofBounds_ok covers
  have upto : (⟨start, stop + 1 - start⟩ : Span).stop = stop + 1 := by
    simp only [Span.stop]
    omega
  refine ⟨⟨start, stop + 1 - start⟩, ?_, startLe, ?_, ?_, opens, ?_⟩
  · rw [wholeLines, found, found']
    exact span
  · rw [upto]
    omega
  · rw [upto]
    omega
  · rw [upto]
    exact closes

/-- What a check makes of a spot on lines of the text: an issue about its group in whole lines, as soon as it can be
    highlighted there. -/
theorem report_eq (check : Check) (path : Path) {t : Text} {s : Spot} {first last start stop : Nat}
    (grounded : s.Grounded t first last start stop) {context : Span} (lines : wholeLines t first last = .ok context)
    (opens : context.start ≤ first) (closes : last + 1 ≤ context.stop) :
    check.report path t s =
      (Issue.highlight (Grid.ofText (context.of t) (reportIndent ++ reportIndent)
        (some (Position.ofOffset t context.start).line)) ((⟨start, stop - start⟩ : Span).of t)).map fun grid =>
          ⟨check, some path, t, ⟨start, stop - start⟩, context, s.description, Position.ofOffset t start, grid⟩ := by
  obtain ⟨startEq, lastEq, groupEq, _, _, inside, after, ordered, before, starts⟩ := grounded
  have bounds : groupBounds s.found s.group = ((start : Int), (stop : Int)) := by rw [groupBounds, groupEq]
  have covers : context.start ≤ (⟨start, stop - start⟩ : Span).start := Nat.le_trans opens after
  have spanStop : (⟨start, stop - start⟩ : Span).stop = stop := by
    simp only [Span.stop]
    omega
  have within : (⟨start, stop - start⟩ : Span).stop ≤ context.stop := by omega
  have nonempty : t ≠ [] := List.ne_nil_of_length_pos (by omega)
  rw [report, bounds, startEq, lastEq]
  simp only [bind, Except.bind, Span.ofBounds_ok ordered, lines]
  exact Draft.issue_eq s.description nonempty (Nat.le_of_lt starts) covers within

/-- A spot on lines of the text is refused if its highlight overruns, and otherwise becomes an issue in whole lines. -/
theorem report_cases (check : Check) (path : Path) {t : Text} {s : Spot} {first last start stop : Nat}
    (grounded : s.Grounded t first last start stop) :
    (s.Overruns t ∧ (check.report path t s = .error .rangeRowsReversed ∨
        check.report path t s = .error .rangeColumnsReversed)) ∨
      (¬ s.Overruns t ∧ ∃ i, check.report path t s = .ok i ∧ i.Reports check t s) := by
  have spot := grounded
  obtain ⟨startEq, lastEq, groupEq, firstChar, lastChar, inside, after, ordered, before, starts⟩ := grounded
  obtain ⟨context, lines, contextStart, contextStop, contextInside, opens, closes⟩ :=
    wholeLines_spec firstChar lastChar (by omega) (by omega) inside
  have bounds : groupBounds s.found s.group = ((start : Int), (stop : Int)) := by rw [groupBounds, groupEq]
  have span : Span.ofBounds start stop = .ok ⟨start, stop - start⟩ := Span.ofBounds_ok ordered
  have spanStop : (⟨start, stop - start⟩ : Span).stop = stop := by
    simp only [Span.stop]
    omega
  have overruns : s.Overruns t ↔
      Issue.Overruns (Grid.ofText (context.of t) [] none) ((⟨start, stop - start⟩ : Span).of t) := by
    rw [Spot.Overruns, bounds, startEq, lastEq]
    constructor
    · rintro ⟨span', context', spanEq, contextEq, beyond⟩
      rw [span] at spanEq
      rw [lines] at contextEq
      cases spanEq
      cases contextEq
      exact beyond
    · intro beyond
      exact ⟨_, context, span, lines, beyond⟩
  rw [overruns, report_eq check path spot lines contextStart contextStop]
  rcases Issue.highlight_cases (Grid.ofText (context.of t) (reportIndent ++ reportIndent)
    (some (Position.ofOffset t context.start).line)) ((⟨start, stop - start⟩ : Span).of t) with
    ⟨beyond, refused⟩ | ⟨fits, grid, highlighted⟩
  · refine .inl ⟨beyond, ?_⟩
    rcases refused with rows | columns
    · exact .inl (by rw [rows]; rfl)
    · exact .inr (by rw [columns]; rfl)
  · refine .inr ⟨fits, _, by rw [highlighted]; rfl, rfl, ?_, ?_, ?_⟩
    · simp only [spanStop, groupEq]
    · exact ⟨Nat.le_trans contextStart after, Nat.le_add_right _ _, by simp only [spanStop]; omega, contextInside, starts,
        opens, closes⟩
    · exact ⟨rfl, rfl, first, after, firstChar⟩

theorem reports_of_ok {check : Check} {path : Path} {t : Text} {s : Spot} {first last start stop : Nat}
    (grounded : s.Grounded t first last start stop) {i : Issue} (made : check.report path t s = .ok i) :
    i.Reports check t s := by
  rcases report_cases check path grounded with ⟨_, rows | columns⟩ | ⟨_, i', made', reports⟩
  · rw [rows] at made
    cases made
  · rw [columns] at made
    cases made
  · rw [made'] at made
    cases made
    exact reports

/-! ### Checks -/

theorem spots_length_le_one {check : Check} (single : ∀ m, check.rule ≠ .matching m) (path : Path) (t : Text) :
    (check.spots path t).length ≤ 1 := by
  unfold spots
  cases rule : check.rule with
  | none => simp
  | minimumVersion => cases minimumVersionSpot? path t <;> simp
  | systemKeyword => cases systemKeywordSpot? t <;> simp
  | matching m => exact absurd rule (single m)

/-- A check with a rule makes one issue of each of its spots. -/
theorem run_toList {check : Check} (hasRule : check.rule ≠ .none) (path : Path) (t : Text) :
    (check.run path t).map Findings.toList = (check.spots path t).mapM (check.report path t) := by
  rw [run, if_neg hasRule]
  cases made : (check.spots path t).mapM (check.report path t) with
  | error fault => rfl
  | ok issues =>
    have short : (∀ m, check.rule ≠ .matching m) → issues.head?.toList = issues := fun single =>
      toList_head_of_length_le_one ((mapM_ok made).length_eq ▸ spots_length_le_one single path t)
    simp only [bind, Except.bind]
    cases rule : check.rule with
    | none => exact absurd rule hasRule
    | minimumVersion => exact congrArg Except.ok (short (fun m => by simp [rule]))
    | systemKeyword => exact congrArg Except.ok (short (fun m => by simp [rule]))
    | matching m => rfl

theorem rule_ne_none {check : Check} (form : placesSpots check.rule = true) : check.rule ≠ .none := by
  intro none
  rw [none] at form
  cases form

theorem run_ok {check : Check} (form : placesSpots check.rule = true) {path : Path} {t : Text} {findings : Findings}
    (made : check.run path t = .ok findings) :
    List.Forall₂ (fun s i => check.report path t s = .ok i) (check.spots path t) findings.toList := by
  have all := run_toList (rule_ne_none form) path t
  rw [made] at all
  exact mapM_ok all.symm

theorem run_error {check : Check} (form : placesSpots check.rule = true) {path : Path} {t : Text} {fault : Fault}
    (failed : check.run path t = .error fault) : ∃ s ∈ check.spots path t, check.report path t s = .error fault := by
  have all := run_toList (rule_ne_none form) path t
  rw [failed] at all
  exact mapM_error all.symm

/-- What such a check finds is what it reports of one of its spots. -/
theorem run_reports {check : Check} (form : placesSpots check.rule = true) {path : Path} {t : Text} {findings : Findings}
    (made : check.run path t = .ok findings) {i : Issue} (member : i ∈ findings.toList) :
    ∃ s ∈ check.spots path t, i.Reports check t s := by
  obtain ⟨s, spot, reported⟩ := forall₂_mem_right (run_ok form made) member
  obtain ⟨first, last, start, stop, grounded⟩ := spots_grounded form spot
  exact ⟨s, spot, reports_of_ok grounded reported⟩

/-! ### Spots without characters -/

/-- The patterns of a rule, each with the group of it that is reported and whether letters are compared without their case. -/
def reportedGroups : Rule → List (Bool × Nat × Pattern)
  | .none => []
  | .minimumVersion =>
    [(false, 1, .callNamedWithArguments ["project"]), (false, 1, .callNamedWithArguments ["cmake_minimum_required"])]
  | .systemKeyword => [(false, 2, .includeDirectoriesWithSystem)]
  | .matching rule => rule.patterns.map fun p => (rule.ignoreCase, reportedGroup rule p, p)

/-- Every spot is a group of a match of one of the patterns. -/
theorem spots_isMatch {check : Check} {path : Path} {t : Text} {s : Spot} (member : s ∈ check.spots path t) :
    ∃ ignoreCase p, (ignoreCase, s.group, p) ∈ reportedGroups check.rule ∧ Pattern.IsMatch ignoreCase p t s.found := by
  unfold spots at member
  cases rule : check.rule with
  | none =>
    rw [rule] at member
    cases member
  | minimumVersion =>
    rw [rule] at member
    have found := Option.mem_toList.mp member
    unfold minimumVersionSpot? at found
    split at found
    · cases found
    · split at found
      · cases found
      · rename_i project searched
        split at found
        · cases found
          exact ⟨false, _, by simp [reportedGroups, Spot.ofMatch], Pattern.search_isMatch searched⟩
        · rename_i required searched'
          split at found
          · cases found
            exact ⟨false, _, by simp [reportedGroups], Pattern.search_isMatch searched'⟩
          · cases found
  | systemKeyword =>
    rw [rule] at member
    have found := Option.mem_toList.mp member
    unfold systemKeywordSpot? at found
    split at found
    · cases found
    · rename_i m searched
      split at found
      · cases found
      · cases found
        exact ⟨false, _, by simp [reportedGroups, Spot.ofMatch], Pattern.search_isMatch searched⟩
  | matching rule' =>
    rw [rule] at member
    obtain ⟨p, listed, member⟩ := List.mem_flatMap.mp member
    obtain ⟨m, found, taken⟩ := List.mem_filterMap.mp member
    unfold matchSpot? at taken
    simp only at taken
    split at taken
    · cases taken
    · cases taken
      exact ⟨rule'.ignoreCase, p, List.mem_map.mpr ⟨p, listed, rfl⟩, Pattern.findAll_isMatch found⟩

/-- The checks that report arguments of a call, of which there may be none. -/
def argumentChecks : List Check := [projectVersion, targetScope, libraryType]

/-- The checks that report words. -/
def wordChecks : List Check :=
  [minimumVersion, systemKeyword, rpath, positionIndependentCode, compileDefinitions, languageStandard, compileOptions,
    includeDirectories, linkDirectories, threadsPackage, externalProjectArguments]

theorem mem_catalog {check : Check} (listed : check ∈ catalog) : check ∈ argumentChecks ∨ check ∈ wordChecks := by
  have split : catalog ⊆ argumentChecks ++ wordChecks := by
    simp only [catalog, argumentChecks, wordChecks, List.cons_subset, List.cons_append, List.nil_append, List.mem_cons,
      true_or, or_true, List.nil_subset, and_self]
  exact List.mem_append.mp (split listed)

theorem wordChecks_fill : ∀ check ∈ wordChecks, ∀ reported ∈ reportedGroups check.rule,
    0 < reported.2.1 ∧ reported.2.2.fills reported.2.1 = true := by
  decide +kernel

/-- Only the checks of arguments find issues without characters. -/
theorem run_nonempty {check : Check} (listed : check ∈ catalog) (other : check ∉ argumentChecks) {path : Path} {t : Text}
    {findings : Findings} (made : check.run path t = .ok findings) {i : Issue} (member : i ∈ findings.toList) :
    i.span.length ≠ 0 := by
  obtain ⟨s, spot, reports⟩ := run_reports (catalog_placesSpots check listed) made member
  obtain ⟨ignoreCase, p, reported, found⟩ := spots_isMatch spot
  obtain ⟨positive, form⟩ := wordChecks_fill check ((mem_catalog listed).resolve_left other) _ reported
  have filled := found.filled positive form reports.group_eq
  rw [Span.stop] at filled
  omega

/-! ### Failures -/

/-- A check of the catalogue fails exactly if one of the spots that it reports overruns the limit of highlights, and then only
    for that reason. Otherwise it gives one issue for each spot, and each lies in whole lines of the text. -/
theorem run_fails_iff_overruns {check : Check} (member : check ∈ catalog) (path : Path) (t : Text) :
    ((∃ fault, check.run path t = .error fault) ↔ ∃ s ∈ check.spots path t, s.Overruns t) ∧
      (∀ fault, check.run path t = .error fault → fault = .rangeRowsReversed ∨ fault = .rangeColumnsReversed) ∧
      ∀ findings, check.run path t = .ok findings →
        List.Forall₂ (fun s i => check.report path t s = .ok i) (check.spots path t) findings.toList ∧
          ∀ i ∈ findings.toList, i.WellPlaced t := by
  have form := catalog_placesSpots check member
  have spotCases : ∀ s ∈ check.spots path t, (s.Overruns t ∧ (check.report path t s = .error .rangeRowsReversed ∨
      check.report path t s = .error .rangeColumnsReversed)) ∨ (¬ s.Overruns t ∧ ∃ i, check.report path t s = .ok i) := by
    intro s spot
    obtain ⟨first, last, start, stop, grounded⟩ := spots_grounded form spot
    rcases report_cases check path grounded with refused | ⟨fits, i, made, _⟩
    · exact .inl refused
    · exact .inr ⟨fits, i, made⟩
  refine ⟨⟨?_, ?_⟩, ?_, ?_⟩
  · rintro ⟨fault, failed⟩
    obtain ⟨s, spot, refused⟩ := run_error form failed
    rcases spotCases s spot with ⟨overruns, _⟩ | ⟨_, i, made⟩
    · exact ⟨s, spot, overruns⟩
    · rw [made] at refused
      cases refused
  · rintro ⟨s, spot, overruns⟩
    cases ran : check.run path t with
    | error fault => exact ⟨fault, rfl⟩
    | ok findings =>
      obtain ⟨i, _, made⟩ := forall₂_mem_left (run_ok form ran) spot
      rcases spotCases s spot with ⟨_, rows | columns⟩ | ⟨fits, _⟩
      · rw [rows] at made
        cases made
      · rw [columns] at made
        cases made
      · exact absurd overruns fits
  · intro fault failed
    obtain ⟨s, spot, refused⟩ := run_error form failed
    rcases spotCases s spot with ⟨_, rows | columns⟩ | ⟨_, i, made⟩
    · rw [rows] at refused
      cases refused
      exact .inl rfl
    · rw [columns] at refused
      cases refused
      exact .inr rfl
    · rw [made] at refused
      cases refused
  · intro findings made
    refine ⟨run_ok form made, fun i found => ?_⟩
    obtain ⟨s, _, reports⟩ := run_reports form made found
    exact reports.placed

/-- A call without arguments that closes on a later line is reported at the end of its first line, where its span is. -/
theorem run_libraryType_open_call : libraryType ∈ catalog ∧
    ∃ findings, libraryType.run (.ofText "a.cmake".toList) "\nadd_library(\n)".toList = .ok findings ∧
      ∃ i ∈ findings.toList, i.WellPlaced "\nadd_library(\n)".toList ∧ i.span = ⟨13, 1⟩ ∧ i.context = ⟨1, 14⟩ := by
  have member : libraryType ∈ catalog := by simp [catalog]
  have spans : ((libraryType.run (.ofText "a.cmake".toList) "\nadd_library(\n)".toList).toOption.map fun findings =>
      findings.toList.map fun i => (i.span, i.context)) = some [(⟨13, 1⟩, ⟨1, 14⟩)] := by decide +kernel
  obtain ⟨_, _, placed⟩ := run_fails_iff_overruns member (.ofText "a.cmake".toList) "\nadd_library(\n)".toList
  cases ran : libraryType.run (.ofText "a.cmake".toList) "\nadd_library(\n)".toList with
  | error fault =>
    rw [ran] at spans
    cases spans
  | ok findings =>
    simp only [ran, Except.toOption, Option.map_some, Option.some.injEq] at spans
    obtain ⟨i, rest, split⟩ : ∃ i rest, findings.toList = i :: rest := by
      refine List.exists_cons_of_ne_nil (fun empty => ?_)
      simp [empty] at spans
    rw [split, List.map_cons, List.cons.injEq, Prod.mk.injEq] at spans
    exact ⟨member, findings, rfl, i, by simp [split], (placed findings ran).2 i (by simp [split]), spans.1.1, spans.1.2⟩

end Check

end CMakeLint
