import CMakeLint.Proofs.Check.Places

/-!
Why a match cannot be reported (`Refused`), with the fault of each reason. A check with patterns fails exactly if one of the matches
that it does not exempt is refused, and otherwise finds one issue for each of them, pattern by pattern in the order of the text
(`run_of_matching`).
-/
namespace CMakeLint

/-! ### Lines of a match -/

namespace Check

/-- Whole lines are refused if a newline stands where they should start or end, or if they end before the text starts. -/
theorem wholeLines_cases {t : Text} {start stop : Nat} (ordered : start ≤ stop) (inside : stop ≤ t.length) :
    (t[min start (t.length - 1)]? = some '\n' ∧ wholeLines t start ((stop : Int) - 1) = .error .positionOnNewline) ∨
    (stop = 0 ∧ wholeLines t start ((stop : Int) - 1) = .error .positionOutOfText) ∨
    (0 < stop ∧ t[stop - 1]? = some '\n' ∧ wholeLines t start ((stop : Int) - 1) = .error .positionOnNewline) ∨
    (t[min start (t.length - 1)]? ≠ some '\n' ∧ 0 < stop ∧ t[stop - 1]? ≠ some '\n' ∧
      ∃ context, wholeLines t start ((stop : Int) - 1) = .ok context ∧ context.start ≤ start ∧ stop ≤ context.stop) := by
  by_cases first : t[min start (t.length - 1)]? = some '\n'
  · refine .inl ⟨first, ?_⟩
    rw [wholeLines, Text.lineStart_newline (Nat.le_trans ordered inside) first]
    rfl
  · by_cases positive : 0 < stop
    · have last : (stop : Int) - 1 = (stop - 1 : Nat) := by omega
      have lines : wholeLines t start ((stop : Int) - 1) = wholeLines t (min start (t.length - 1) : Nat) (stop - 1 : Nat) := by
        rw [wholeLines, wholeLines, Text.lineStart_clamped (Nat.le_trans ordered inside), last]
      rw [lines]
      by_cases newline : t[stop - 1]? = some '\n'
      · obtain ⟨found, started, _⟩ := Text.lineStart_spec (n := min start (t.length - 1)) (by omega) first
        refine .inr (.inr (.inl ⟨positive, newline, ?_⟩))
        rw [wholeLines, started, Text.lineEnd_newline (by omega) newline]
        rfl
      · obtain ⟨context, made, opens, closes, _⟩ :=
          wholeLines_spec first newline (by omega) (by omega) (by omega)
        exact .inr (.inr (.inr ⟨first, positive, newline, context, made, by omega, by omega⟩))
    · obtain rfl : stop = 0 := by omega
      refine .inr (.inl ⟨rfl, ?_⟩)
      have character : t.lineCharacter start = .ok (min start (t.length - 1)) := by
        rw [Text.lineCharacter_eq (Nat.le_trans ordered inside), if_neg first]
      rw [wholeLines, Text.lineStart, character, show ((0 : Nat) : Int) - 1 = -1 from rfl, Text.lineEnd_before_start]
      rfl

end Check

/-! ### Refusals -/

/-- Why a match cannot be reported: the group that is to be reported took no part in it, a newline stands where the match starts (or
    ends the text, if the match starts after it), the match ends where the text starts, a newline ends it, or the highlight of the
    group ends beyond the limit. -/
inductive Pattern.Match.Refused (t : Text) (number : Nat) (m : Match) : Fault → Prop
  | groupMissing (missing : m.group? number = none) : Refused t number m .spanStartNegative
  | startsOnNewline (char : t[min m.start (t.length - 1)]? = some '\n') : Refused t number m .positionOnNewline
  | endsAtStart (stop : m.stop = 0) : Refused t number m .positionOutOfText
  | endsOnNewline (positive : 0 < m.stop) (char : t[m.stop - 1]? = some '\n') : Refused t number m .positionOnNewline
  | overruns {fault : Fault} (beyond : (Spot.ofMatch m number none).Overruns t)
      (reversed : fault = .rangeRowsReversed ∨ fault = .rangeColumnsReversed) : Refused t number m fault

namespace Check

variable {m : Pattern.Match} {number start stop : Nat}

theorem groupBounds_of_group (group : m.group? number = some (start, stop)) :
    groupBounds m number = ((start : Int), (stop : Int)) := by
  rw [groupBounds, group]

/-- A match is reported by its whole lines and the place of its group. -/
theorem report_of_group (check : Check) (path : Path) (t : Text) (description : Option Text)
    (group : m.group? number = some (start, stop)) (ordered : start ≤ stop) :
    check.report path t (.ofMatch m number description) = wholeLines t m.start ((m.stop : Int) - 1) >>= fun context =>
      Draft.issue ⟨some check, some path, some t, some ⟨start, stop - start⟩, description, some context⟩ := by
  rw [report]
  simp only [Spot.ofMatch, groupBounds_of_group group, Span.ofBounds_ok ordered]
  rfl

theorem overruns_of_group {t : Text} {context : Span} (group : m.group? number = some (start, stop)) (ordered : start ≤ stop)
    (lines : wholeLines t m.start ((m.stop : Int) - 1) = .ok context) :
    (Spot.ofMatch m number none).Overruns t ↔
      Issue.Overruns (Grid.ofText (context.of t) [] none) ((⟨start, stop - start⟩ : Span).of t) := by
  rw [Spot.Overruns]
  simp only [Spot.ofMatch, groupBounds_of_group group, Span.ofBounds_ok ordered, lines]
  constructor
  · rintro ⟨_, _, ⟨rfl⟩, ⟨rfl⟩, beyond⟩
    exact beyond
  · intro beyond
    exact ⟨_, _, rfl, rfl, beyond⟩

/-- A match in a text is refused for a reason, or there is no such reason and it becomes an issue. -/
theorem report_ofMatch (check : Check) (path : Path) {ignoreCase : Bool} {p : Pattern} {t : Text}
    (found : Pattern.IsMatch ignoreCase p t m) (number : Nat) (description : Option Text) :
    (∃ fault, check.report path t (.ofMatch m number description) = .error fault ∧ m.Refused t number fault) ∨
      ((∀ fault, ¬ m.Refused t number fault) ∧ ∃ i, check.report path t (.ofMatch m number description) = .ok i) := by
  obtain ⟨forward, inside⟩ := found.within
  cases group : m.group? number with
  | none =>
    have bounds : groupBounds m number = (-1, -1) := by rw [groupBounds, group]
    refine .inl ⟨_, ?_, .groupMissing group⟩
    rw [report]
    simp only [Spot.ofMatch, bounds]
    rfl
  | some place =>
    obtain ⟨start, stop⟩ := place
    obtain ⟨after, ordered, before⟩ := found.group_within group
    rw [report_of_group check path t description group ordered]
    rcases wholeLines_cases forward inside with ⟨char, lines⟩ | ⟨atStart, lines⟩ | ⟨positive, char, lines⟩ |
      ⟨first, positive, last, context, lines, opens, closes⟩
    · exact .inl ⟨_, by rw [lines]; rfl, .startsOnNewline char⟩
    · exact .inl ⟨_, by rw [lines]; rfl, .endsAtStart atStart⟩
    · exact .inl ⟨_, by rw [lines]; rfl, .endsOnNewline positive char⟩
    · have overruns := overruns_of_group group ordered lines
      have spanStop : (⟨start, stop - start⟩ : Span).stop = stop := by
        simp only [Span.stop]
        omega
      rw [lines]
      simp only [bind, Except.bind]
      rw [Draft.issue_eq description (List.ne_nil_of_length_pos (by omega)) (Nat.le_trans (Nat.le_trans ordered before) inside)
        (Nat.le_trans opens after) (by rw [spanStop]; omega)]
      -- Nothing but the highlight can fail from here on.
      rcases Issue.highlight_cases (Grid.ofText (context.of t) (reportIndent ++ reportIndent)
        (some (Position.ofOffset t context.start).line)) ((⟨start, stop - start⟩ : Span).of t) with
        ⟨beyond, refused⟩ | ⟨fits, grid, highlighted⟩
      · rcases refused with rows | columns
        · exact .inl ⟨_, by rw [rows]; rfl, .overruns (overruns.mpr beyond) (.inl rfl)⟩
        · exact .inl ⟨_, by rw [columns]; rfl, .overruns (overruns.mpr beyond) (.inr rfl)⟩
      · refine .inr ⟨?_, _, by rw [highlighted]; rfl⟩
        intro fault refused
        cases refused with
        | groupMissing missing =>
          rw [group] at missing
          cases missing
        | startsOnNewline char => exact first char
        | endsAtStart atStart => omega
        | endsOnNewline _ char => exact last char
        | overruns beyond _ => exact fits (overruns.mp beyond)

end Check

/-! ### Checks with patterns -/

/-- The span of an issue is the group that its spot reports. -/
theorem Issue.MadeFrom.group_eq {check : Check} {path : Path} {t : Text} {s : Spot} {i : Issue} (made : i.MadeFrom check path t s) :
    s.found.group? s.group = some (i.span.start, i.span.stop) := by
  have span := made.span_eq
  cases group : s.found.group? s.group with
  | none =>
    rw [Check.groupBounds, group] at span
    cases span
  | some place =>
    obtain ⟨start, stop⟩ := place
    rw [Check.groupBounds, group] at span
    obtain ⟨startEq, stopEq⟩ := Span.ofBounds_eq_ok span
    rw [Int.ofNat_inj.mp startEq, Int.ofNat_inj.mp stopEq]

namespace Check

/-- The matches of a pattern that a rule does not exempt. -/
def keptMatches (rule : Matching) (t : Text) (p : Pattern) : List Pattern.Match :=
  (p.findAll rule.ignoreCase t).filter fun m => !isExempt rule (groupText t m (reportedGroup rule p))

/-- What a check reports of a match that is not exempt. -/
def matchSpot (check : Check) (rule : Matching) (t : Text) (p : Pattern) (m : Pattern.Match) : Spot :=
  .ofMatch m (reportedGroup rule p) (some (fillIn p.groupCount (groupText t m) check.description))

variable {check : Check} {rule : Matching} {t : Text}

theorem patternSpots_eq (check : Check) (rule : Matching) (t : Text) (p : Pattern) :
    patternSpots check rule t p = (keptMatches rule t p).map (matchSpot check rule t p) := by
  rw [patternSpots, keptMatches, ← List.filterMap_eq_map, List.filterMap_filter]
  refine List.filterMap_congr ?_
  intro m _
  rw [matchSpot?]
  cases isExempt rule (groupText t m (reportedGroup rule p)) <;> rfl

theorem spots_of_matching (matching : check.rule = .matching rule) (path : Path) (t : Text) :
    check.spots path t = rule.patterns.flatMap fun p => (keptMatches rule t p).map (matchSpot check rule t p) := by
  rw [spots, matching]
  exact List.flatMap_congr fun p _ => patternSpots_eq check rule t p

theorem isMatch_of_kept {p : Pattern} {m : Pattern.Match} (kept : m ∈ keptMatches rule t p) :
    Pattern.IsMatch rule.ignoreCase p t m :=
  Pattern.findAll_isMatch (List.mem_of_mem_filter kept)

/-- Issues that are made from matches which follow each other are about pieces of text that follow each other. -/
theorem pairwise_of_madeFrom {p : Pattern} {path : Path} {issues : List Issue}
    (made : List.Forall₂ (fun m i => i.MadeFrom check path t (matchSpot check rule t p m)) (keptMatches rule t p) issues) :
    issues.Pairwise fun i j => i.span.stop ≤ j.span.start := by
  have follow : (keptMatches rule t p).Pairwise fun m m' => m.stop ≤ m'.start :=
    (Pattern.findAll_follow rule.ignoreCase p t).sublist (List.filter_sublist ..)
  have placed : List.Forall₂ (fun m i => m.start ≤ i.span.start ∧ i.span.stop ≤ m.stop) (keptMatches rule t p) issues := by
    refine ((List.forall₂_and_left _ _).mpr ⟨fun m kept => kept, made⟩).imp ?_
    rintro m i ⟨kept, issue⟩
    have within := (isMatch_of_kept kept).group_within issue.group_eq
    exact ⟨within.1, within.2.2⟩
  refine pairwise_of_forall₂ placed follow ?_
  rintro m m' i j ⟨_, before⟩ ⟨after, _⟩ later
  omega

/-- The fault of a check with patterns is the reason why one of its matches is refused. -/
theorem refused_of_run (matching : check.rule = .matching rule) {path : Path} {fault : Fault}
    (failed : check.run path t = .error fault) :
    ∃ p ∈ rule.patterns, ∃ m ∈ keptMatches rule t p, m.Refused t (reportedGroup rule p) fault := by
  have all := run_toList (by rw [matching]; simp : check.rule ≠ .none) path t
  rw [failed, spots_of_matching matching] at all
  obtain ⟨s, spot, error⟩ := mapM_error all.symm
  obtain ⟨p, listed, spot⟩ := List.mem_flatMap.mp spot
  obtain ⟨m, kept, rfl⟩ := List.mem_map.mp spot
  refine ⟨p, listed, m, kept, ?_⟩
  rcases report_ofMatch check path (isMatch_of_kept kept) (reportedGroup rule p)
    (some (fillIn p.groupCount (groupText t m) check.description)) with ⟨fault', error', refused⟩ | ⟨_, i, made⟩
  · rw [← matchSpot, error] at error'
    cases error'
    exact refused
  · rw [← matchSpot, error] at made
    cases made

/-- What a check with patterns finds: for each pattern, an issue of each match that is not exempt, in their order. -/
theorem madeFrom_of_run (matching : check.rule = .matching rule) {path : Path} {findings : Findings}
    (made : check.run path t = .ok findings) :
    ∃ found, findings = .all found.flatten ∧ List.Forall₂ (fun p issues =>
      List.Forall₂ (fun m i => i.MadeFrom check path t (matchSpot check rule t p m)) (keptMatches rule t p) issues)
        rule.patterns found := by
  have all := run_madeFrom made
  rw [spots_of_matching matching] at all
  obtain ⟨found, flat, each⟩ := exists_flatten_of_forall₂ all
  refine ⟨found, ?_, each.imp fun p issues => List.forall₂_map_left_iff.mp⟩
  rw [← flat]
  exact findings_eq_all matching made

/-- A match that became an issue was not refused. -/
theorem not_refused_of_madeFrom {path : Path} {p : Pattern} {m : Pattern.Match} {i : Issue} (kept : m ∈ keptMatches rule t p)
    (made : i.MadeFrom check path t (matchSpot check rule t p m)) (fault : Fault) :
    ¬ m.Refused t (reportedGroup rule p) fault := by
  rcases report_ofMatch check path (isMatch_of_kept kept) (reportedGroup rule p)
    (some (fillIn p.groupCount (groupText t m) check.description)) with ⟨fault', error, _⟩ | ⟨free, _⟩
  · rw [← matchSpot, report_ok_iff.mpr made] at error
    cases error
  · exact free fault

/-- A check with patterns fails exactly if some match that is not exempt is refused, and its fault is the reason for that. Otherwise
    it finds one issue for each match that is not exempt: pattern by pattern, and for each pattern in the order of the text. -/
theorem run_of_matching (matching : check.rule = .matching rule) (path : Path) (t : Text) :
    ((∃ fault, check.run path t = .error fault) ↔
      ∃ p ∈ rule.patterns, ∃ m ∈ keptMatches rule t p, ∃ fault, m.Refused t (reportedGroup rule p) fault) ∧
    (∀ fault, check.run path t = .error fault →
      ∃ p ∈ rule.patterns, ∃ m ∈ keptMatches rule t p, m.Refused t (reportedGroup rule p) fault) ∧
    ((∀ p ∈ rule.patterns, ∀ m ∈ keptMatches rule t p, ∀ fault, ¬ m.Refused t (reportedGroup rule p) fault) →
      ∃ found, check.run path t = .ok (.all found.flatten) ∧ List.Forall₂ (fun p issues =>
        List.Forall₂ (fun m i => i.MadeFrom check path t (matchSpot check rule t p m)) (keptMatches rule t p) issues ∧
          issues.Pairwise fun i j => i.span.stop ≤ j.span.start) rule.patterns found) := by
  refine ⟨⟨?_, ?_⟩, fun fault => refused_of_run matching, ?_⟩
  · rintro ⟨fault, failed⟩
    obtain ⟨p, listed, m, kept, refused⟩ := refused_of_run matching failed
    exact ⟨p, listed, m, kept, fault, refused⟩
  · rintro ⟨p, listed, m, kept, fault, refused⟩
    cases ran : check.run path t with
    | error fault' => exact ⟨fault', rfl⟩
    | ok findings =>
      obtain ⟨found, _, each⟩ := madeFrom_of_run matching ran
      obtain ⟨issues, _, made⟩ := forall₂_mem_left each listed
      obtain ⟨i, _, issue⟩ := forall₂_mem_left made kept
      exact absurd refused (not_refused_of_madeFrom kept issue fault)
  · intro free
    cases ran : check.run path t with
    | error fault =>
      obtain ⟨p, listed, m, kept, refused⟩ := refused_of_run matching ran
      exact absurd refused (free p listed m kept fault)
    | ok findings =>
      obtain ⟨found, rfl, each⟩ := madeFrom_of_run matching ran
      exact ⟨found, rfl, each.imp fun p issues made => ⟨made, pairwise_of_madeFrom made⟩⟩

/-- A rule for two letters, of which only the first is a group. -/
def letterRule : Matching :=
  ⟨[.alt (.group 1 (.one (.char 'a'))) (.one (.char 'b'))], false, 1, none⟩

/-- A check with that rule. -/
def letterCheck : Check :=
  ⟨"letters".toList, "a letter".toList, none, none, [], .matching letterRule⟩

/-- The check is one that can be defined. It fails on the second letter, whose match has no group. -/
theorem run_letterCheck_fails : Matching.define (some ["(a)|b".toList]) false 1 none = .ok letterRule ∧
    Check.define (some "letters".toList) (some "a letter".toList) none none [] (.matching letterRule) = .ok letterCheck ∧
    ∃ fault, letterCheck.run (.ofText "a.cmake".toList) "a b".toList = .error fault := by
  have kept : (⟨2, 3, []⟩ : Pattern.Match) ∈
      keptMatches letterRule "a b".toList (.alt (.group 1 (.one (.char 'a'))) (.one (.char 'b'))) := by decide +kernel
  refine ⟨by decide +kernel, by decide +kernel, ?_⟩
  refine (run_of_matching rfl _ _).1.mpr ⟨_, List.mem_singleton_self _, _, kept, _, .groupMissing ?_⟩
  decide +kernel

end Check

end CMakeLint
