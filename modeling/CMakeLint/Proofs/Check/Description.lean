import CMakeLint.Proofs.Check.Refusal
import CMakeLint.Proofs.Text.Substitution

/-!
Texts of groups in the descriptions of issues. A description is filled in by rounds, one number after the other, so a round may change
what an earlier one inserted. The rounds are the substitution of all placeholders at once, whatever the description, exactly if no text
is disturbed by the rounds after its own (`fillIn_eq_fillTogether_iff`). For a single description it is enough that the texts it asks
for are plain (`fillIn_of_isPlain`), which holds of all checks of the catalog (`isPlain_of_catalog`).
-/
namespace CMakeLint

namespace Check

open Text (placeholder substitute Inert)

/-- The number whose digit a character is. -/
def digitOf? (c : Char) : Option Nat :=
  (List.range 10).find? fun n => Nat.digitChar n = c

/-- The texts of the groups with certain numbers, by the digits of these numbers. -/
def groupTexts (wanted : Nat → Bool) (g : Nat → Text) (c : Char) : Option Text :=
  ((digitOf? c).filter wanted).map g

/-- A description with the texts of groups in place of all placeholders at once. -/
def fillTogether (groups : Nat) (g : Nat → Text) (description : Text) : Text :=
  substitute (groupTexts (fun n => n ≤ groups) g) description

/-- The rounds after its own leave the text of each group as it is, wherever it stands. -/
def Undisturbed (groups : Nat) (g : Nat → Text) : Prop :=
  ∀ i < 10, i ≤ groups → Inert (groupTexts (fun n => i < n && n ≤ groups) g) (g i)

/-- A text that makes no placeholder, neither in itself nor with what stands beside it. -/
structure IsPlain (w : Text) : Prop where
  nonempty : w ≠ []
  free : '\\' ∉ w
  opens : w.head?.bind digitOf? = none

/-! ### Texts by digits -/

theorem digitOf?_digitChar : ∀ n < 10, digitOf? (Nat.digitChar n) = some n := by decide

theorem digitOf?_eq_some {c : Char} {n : Nat} (digit : digitOf? c = some n) : n < 10 ∧ Nat.digitChar n = c :=
  ⟨List.mem_range.mp (List.mem_of_find?_eq_some digit), by simpa using List.find?_some digit⟩

variable {wanted wanted' : Nat → Bool} {g : Nat → Text} {c : Char} {w d : Text} {groups i : Nat}

theorem groupTexts_eq_some (given : groupTexts wanted g c = some w) :
    ∃ n < 10, wanted n = true ∧ Nat.digitChar n = c ∧ g n = w := by
  obtain ⟨n, digit, text⟩ := Option.map_eq_some_iff.mp given
  obtain ⟨digit, listed⟩ := Option.filter_eq_some_iff.mp digit
  obtain ⟨small, char⟩ := digitOf?_eq_some digit
  exact ⟨n, small, listed, char, text⟩

theorem groupTexts_digitChar (g : Nat → Text) (small : i < 10) (listed : wanted i = true) :
    groupTexts wanted g (Nat.digitChar i) = some (g i) := by
  rw [groupTexts, digitOf?_digitChar i small, Option.filter_some_pos listed, Option.map_some]

theorem groupTexts_backslash (wanted : Nat → Bool) (g : Nat → Text) : groupTexts wanted g '\\' = none := rfl

theorem groupTexts_congr (same : ∀ n < 10, wanted n = wanted' n) : groupTexts wanted g = groupTexts wanted' g := by
  funext c
  rw [groupTexts, groupTexts]
  cases digit : digitOf? c with
  | none => rfl
  | some n => simp [Option.filter, same n (digitOf?_eq_some digit).1]

theorem groupTexts_or (wanted wanted' : Nat → Bool) (g : Nat → Text) :
    (fun c => (groupTexts wanted g c).or (groupTexts wanted' g c)) = groupTexts (fun n => wanted n || wanted' n) g := by
  funext c
  rw [groupTexts, groupTexts, groupTexts]
  cases digitOf? c with
  | none => rfl
  | some n => cases first : wanted n <;> simp [Option.filter, first]

theorem substitute_groupTexts_of_unwanted (unwanted : ∀ n < 10, wanted n = false) (d : Text) :
    substitute (groupTexts wanted g) d = d := by
  refine Text.substitute_of_not_asked ?_
  intro c _
  rw [Option.eq_none_iff_forall_ne_some]
  intro w given
  obtain ⟨n, small, listed, _⟩ := groupTexts_eq_some given
  rw [unwanted n small] at listed
  cases listed

/-! ### Rounds -/

/-- The round of one number. -/
def round (groups : Nat) (g : Nat → Text) (d : Text) (i : Nat) : Text :=
  if i ≤ groups then Text.replaceAll (placeholder (Nat.digitChar i)) (g i) d else d

theorem fillIn_eq (groups : Nat) (g : Nat → Text) (d : Text) : fillIn groups g d = (List.range 10).foldl (round groups g) d := rfl

theorem round_eq (groups : Nat) (g : Nat → Text) (d : Text) (small : i < 10) :
    round groups g d i = substitute (groupTexts (fun n => n = i && n ≤ groups) g) d := by
  rw [round]
  by_cases listed : i ≤ groups
  · rw [if_pos listed, Text.replaceAll_placeholder]
    refine Text.substitute_congr ?_
    intro c _
    by_cases digit : c = Nat.digitChar i
    · rw [if_pos digit, digit, groupTexts_digitChar g small (by simpa using listed)]
    · rw [if_neg digit, eq_comm, Option.eq_none_iff_forall_ne_some]
      intro w given
      obtain ⟨n, _, same, char, _⟩ := groupTexts_eq_some given
      obtain ⟨rfl, _⟩ : n = i ∧ n ≤ groups := by simpa using same
      exact digit char.symm
  · rw [if_neg listed, substitute_groupTexts_of_unwanted]
    intro n _
    rw [Bool.and_eq_false_iff, decide_eq_false_iff_not, decide_eq_false_iff_not]
    omega

/-- The first rounds are one substitution if none of them disturbs what the description asked for before. -/
theorem foldl_round_range {count : Nat} (bound : count ≤ 10)
    (inert : ∀ i j, i < j → j < count → i ≤ groups → placeholder (Nat.digitChar i) <:+: d →
      Inert (groupTexts (fun n => n = j && n ≤ groups) g) (g i)) :
    (List.range count).foldl (round groups g) d = substitute (groupTexts (fun n => n < count && n ≤ groups) g) d := by
  induction count with
  | zero => exact (substitute_groupTexts_of_unwanted (fun n _ => by simp) d).symm
  | succ count ih =>
    have before := ih (by omega) fun i j early late => inert i j early (by omega)
    rw [List.range_succ, List.foldl_append, before, List.foldl_cons, List.foldl_nil, round_eq groups g _ (by omega),
      Text.substitute_substitute (groupTexts_backslash _ g), groupTexts_or]
    · refine congrArg (substitute · d) (groupTexts_congr ?_)
      intro n _
      rw [Bool.eq_iff_iff]
      simp only [Bool.or_eq_true, Bool.and_eq_true, decide_eq_true_eq]
      omega
    · intro c w given asked
      obtain ⟨n, _, listed, rfl, rfl⟩ := groupTexts_eq_some given
      obtain ⟨early, small⟩ : n < count ∧ n ≤ groups := by simpa using listed
      exact inert n count early (by omega) small asked

/-- The last rounds are one substitution if none of their texts is disturbed. -/
theorem foldl_round_range' {count : Nat} (bound : i + count = 10)
    (inert : ∀ j, i ≤ j → j < 10 → j ≤ groups → Inert (groupTexts (fun n => j < n && n ≤ groups) g) (g j)) (d : Text) :
    (List.range' i count).foldl (round groups g) d = substitute (groupTexts (fun n => i ≤ n && n ≤ groups) g) d := by
  induction count generalizing i d with
  | zero =>
    refine (substitute_groupTexts_of_unwanted ?_ d).symm
    intro n small
    rw [Bool.and_eq_false_iff, decide_eq_false_iff_not]
    omega
  | succ count ih =>
    rw [List.range'_succ, List.foldl_cons, ih (by omega) fun j early => inert j (by omega), round_eq groups g d (by omega),
      Text.substitute_substitute (groupTexts_backslash _ g), groupTexts_or]
    · refine congrArg (substitute · d) (groupTexts_congr ?_)
      intro n _
      rw [Bool.eq_iff_iff]
      simp only [Bool.or_eq_true, Bool.and_eq_true, decide_eq_true_eq]
      omega
    · intro c w given _
      obtain ⟨n, _, listed, _, rfl⟩ := groupTexts_eq_some given
      obtain ⟨rfl, small⟩ : n = i ∧ n ≤ groups := by simpa using listed
      exact inert n (Nat.le_refl n) (by omega) small

/-- For a single description it is enough that no later round disturbs a text that it asks for. -/
theorem fillIn_of_inert (inert : ∀ i j, i < j → j < 10 → i ≤ groups → placeholder (Nat.digitChar i) <:+: d →
      Inert (groupTexts (fun n => n = j && n ≤ groups) g) (g i)) : fillIn groups g d = fillTogether groups g d := by
  rw [fillIn_eq, foldl_round_range (Nat.le_refl 10) inert, fillTogether]
  refine congrArg (substitute · d) (groupTexts_congr ?_)
  intro n small
  rw [decide_eq_true small, Bool.true_and]

theorem inert_of_isPlain (plain : IsPlain w) : Inert (groupTexts wanted g) w := by
  have unasked : ∀ c, placeholder c <:+: w → groupTexts wanted g c = none :=
    fun c within => absurd (within.subset List.mem_cons_self) plain.free
  refine ⟨Text.substitute_of_not_asked unasked, ?_⟩
  intro c v given _
  refine ⟨plain.nonempty, ?_, fun last => plain.free (List.mem_of_getLast? last)⟩
  intro head
  obtain ⟨n, small, _, rfl, _⟩ := groupTexts_eq_some given
  have digit := plain.opens
  rw [head, Option.bind_some, digitOf?_digitChar n small] at digit
  cases digit

theorem fillIn_of_isPlain (plain : ∀ i < 10, i ≤ groups → placeholder (Nat.digitChar i) <:+: d → IsPlain (g i)) :
    fillIn groups g d = fillTogether groups g d :=
  fillIn_of_inert fun i j early late listed asked => inert_of_isPlain (plain i (by omega) listed asked)

/-! ### The exact condition -/

theorem range_split : ∀ i < 10, List.range 10 = List.range i ++ i :: List.range' (i + 1) (9 - i) := by decide

theorem digitChar_injective {i j : Nat} (small : i < 10) (small' : j < 10) (same : Nat.digitChar i = Nat.digitChar j) : i = j := by
  have digit := digitOf?_digitChar i small
  rw [same, digitOf?_digitChar j small'] at digit
  exact (Option.some_inj.mp digit).symm

/-- In a description that asks for one number alone, the rounds before it do nothing. -/
theorem foldl_round_of_alone (small : i < 10) (alone : ∀ c, placeholder c <:+: d → c = Nat.digitChar i ∨ c = '\\') :
    (List.range i).foldl (round groups g) d = d := by
  have other : ∀ n < i, ¬ placeholder (Nat.digitChar n) <:+: d := by
    intro n early asked
    rcases alone _ asked with same | backslash
    · exact absurd (digitChar_injective (by omega) small same) (Nat.ne_of_lt early)
    · have digit := digitOf?_digitChar n (by omega)
      rw [backslash] at digit
      cases digit
  rw [foldl_round_range (by omega) fun n j early late _ asked => absurd asked (other n (by omega))]
  refine Text.substitute_of_not_asked ?_
  intro c asked
  rw [Option.eq_none_iff_forall_ne_some]
  intro w given
  obtain ⟨n, _, listed, rfl, _⟩ := groupTexts_eq_some given
  rw [Bool.and_eq_true, decide_eq_true_eq] at listed
  exact other n listed.1 asked

/-- If the rounds are one substitution in every description, the text of a number is not disturbed, provided that the texts of later
    numbers are not. -/
theorem inert_of_agree (agree : ∀ d, fillIn groups g d = fillTogether groups g d) (small : i < 10) (listed : i ≤ groups)
    (later : ∀ j, i + 1 ≤ j → j < 10 → j ≤ groups → Inert (groupTexts (fun n => j < n && n ≤ groups) g) (g j)) :
    Inert (groupTexts (fun n => i < n && n ≤ groups) g) (g i) := by
  have first : groupTexts (fun n => n = i && n ≤ groups) g (Nat.digitChar i) = some (g i) :=
    groupTexts_digitChar g small (by simpa using listed)
  have both : groupTexts (fun n => n ≤ groups) g (Nat.digitChar i) = some (g i) :=
    groupTexts_digitChar g small (by simpa using listed)
  refine Text.inert_of_substitute (groupTexts_backslash _ g) (groupTexts_backslash _ g) (groupTexts_backslash _ g) first both ?_
  intro d alone
  have rounds := agree d
  rw [fillIn_eq, range_split i small, List.foldl_append, foldl_round_of_alone small alone, List.foldl_cons,
    foldl_round_range' (by omega) later, round_eq groups g d small] at rounds
  exact rounds

/-- Filling in by rounds is filling in all at once, for every description, exactly if no text is disturbed by the rounds after its
    own. -/
theorem fillIn_eq_fillTogether_iff (groups : Nat) (g : Nat → Text) :
    (∀ d, fillIn groups g d = fillTogether groups g d) ↔ Undisturbed groups g := by
  constructor
  · intro agree
    -- From the last number down, since the rounds after a number have to be one substitution first.
    have down : ∀ count i, 10 ≤ i + count → i < 10 → i ≤ groups →
        Inert (groupTexts (fun n => i < n && n ≤ groups) g) (g i) := by
      intro count
      induction count with
      | zero =>
        intro i bound small
        omega
      | succ count ih =>
        intro i bound small listed
        exact inert_of_agree agree small listed fun j late => ih j (by omega)
    exact fun i small listed => down 10 i (by omega) small listed
  · intro undisturbed d
    rw [fillIn_eq, List.range_eq_range', foldl_round_range' (Nat.zero_add 10) fun j _ => undisturbed j, fillTogether]
    refine congrArg (substitute · d) (groupTexts_congr ?_)
    intro n _
    rw [decide_eq_true (Nat.zero_le n), Bool.true_and]

/-! ### Descriptions of issues -/

/-- Only one check of the catalog has placeholders in its description. -/
theorem catalog_asks {check : Check} (listed : check ∈ catalog) : check = targetScope ∨ '\\' ∉ check.description := by
  have split : catalog = catalog.take 3 ++ targetScope :: catalog.drop 4 := rfl
  have silent : ∀ check ∈ catalog.take 3 ++ catalog.drop 4, '\\' ∉ check.description := by decide +kernel
  rw [split, List.mem_append, List.mem_cons] at listed
  rcases listed with before | same | after
  · exact .inr (silent check (List.mem_append_left _ before))
  · exact .inl same
  · exact .inr (silent check (List.mem_append_right _ after))

theorem targetScope_asks : ∀ i < 10, placeholder (Nat.digitChar i) <:+: targetScope.description → i = 1 := by decide +kernel

theorem scopedCommands_plain :
    ∀ w ∈ scopedCommands.map String.toList, w ≠ [] ∧ '\\' ∉ w ∧ w.head?.bind digitOf? = none := by decide +kernel

variable {check : Check} {rule : Matching} {t : Text} {p : Pattern} {m : Pattern.Match}

/-- The texts that the descriptions of the catalog ask for are plain: the one placeholder stands for the name of a command. -/
theorem isPlain_of_catalog (listed : check ∈ catalog) (matching : check.rule = .matching rule) (used : p ∈ rule.patterns)
    (kept : m ∈ keptMatches rule t p) (small : i < 10) (asked : placeholder (Nat.digitChar i) <:+: check.description) :
    IsPlain (groupText t m i) := by
  rcases catalog_asks listed with rfl | silent
  · obtain rfl := targetScope_asks i small asked
    cases matching
    obtain rfl := List.mem_singleton.mp used
    have found := List.mem_of_mem_filter kept
    have form : Text.areWords scopedCommands = true := by decide +kernel
    obtain ⟨calls, scan, all⟩ := Pattern.findAll_calls (some 1) (some 2) form t
    rw [Pattern.callNamedWithArguments_eq, all] at found
    obtain ⟨c, member, rfl⟩ := List.mem_map.mp found
    have call := scan.found c member
    have text : groupText t (Pattern.matchOf (some 1) (some 2) c) 1 = c.name := call.slice_name
    obtain ⟨nonempty, free, opens⟩ := scopedCommands_plain c.name call.named
    rw [text]
    exact ⟨nonempty, free, opens⟩
  · exact absurd (asked.subset List.mem_cons_self) silent

end Check

/-- What an issue of a match says: the description of the check, filled in by rounds with the texts of the groups. For each match, that
    is filling in all at once under the exact condition if the description is left open, and under a condition on the texts that the
    description asks for. -/
structure Issue.FilledIn (check : Check) (t : Text) (p : Pattern) (m : Pattern.Match) (i : Issue) : Prop where
  byRounds : i.description = some (Check.fillIn p.groupCount (Check.groupText t m) check.description)
  atOnce_iff : (∀ d, Check.fillIn p.groupCount (Check.groupText t m) d = Check.fillTogether p.groupCount (Check.groupText t m) d) ↔
    Check.Undisturbed p.groupCount (Check.groupText t m)
  ofPlain : (∀ n < 10, n ≤ p.groupCount → Text.placeholder (Nat.digitChar n) <:+: check.description →
      Check.IsPlain (Check.groupText t m n)) →
    i.description = some (Check.fillTogether p.groupCount (Check.groupText t m) check.description)
  ofCatalog : check ∈ Check.catalog →
    i.description = some (Check.fillTogether p.groupCount (Check.groupText t m) check.description)

namespace Check

variable {check : Check} {rule : Matching} {t : Text} {p : Pattern} {m : Pattern.Match}

theorem filledIn_of_madeFrom {path : Path} {i : Issue} (matching : check.rule = .matching rule) (used : p ∈ rule.patterns)
    (kept : m ∈ keptMatches rule t p) (made : i.MadeFrom check path t (matchSpot check rule t p m)) :
    i.FilledIn check t p m where
  byRounds := made.description_eq
  atOnce_iff := fillIn_eq_fillTogether_iff _ _
  ofPlain plain := by rw [made.description_eq, matchSpot, Spot.ofMatch, fillIn_of_isPlain plain]
  ofCatalog listed := by
    rw [made.description_eq, matchSpot, Spot.ofMatch, fillIn_of_isPlain]
    exact fun n small _ asked => isPlain_of_catalog listed matching used kept small asked

/-- Each issue of a check with patterns has the description of the check, filled in by rounds with the texts of its match. -/
theorem descriptions_of_matching (matching : check.rule = .matching rule) {path : Path} {findings : Findings}
    (made : check.run path t = .ok findings) :
    ∃ found, findings = .all found.flatten ∧ List.Forall₂ (fun p issues =>
      List.Forall₂ (fun m i => i.FilledIn check t p m) (keptMatches rule t p) issues) rule.patterns found := by
  obtain ⟨found, all, each⟩ := madeFrom_of_run matching made
  refine ⟨found, all, ?_⟩
  refine ((List.forall₂_and_left _ _).mpr ⟨fun p used => used, each⟩).imp ?_
  rintro p issues ⟨used, related⟩
  refine ((List.forall₂_and_left _ _).mpr ⟨fun m kept => kept, related⟩).imp ?_
  rintro m i ⟨kept, issue⟩
  exact filledIn_of_madeFrom matching used kept issue

/-- A pattern of two characters before a letter, with a group for each part. -/
def echoPattern : Pattern :=
  .seq (.group 1 (.seq (.one ⟨true, []⟩) (.one ⟨true, []⟩))) (.group 2 (.one (.char 'b')))

/-- A check that repeats the two characters. -/
def echoCheck : Check :=
  ⟨"echo".toList, "found \\1".toList, none, none, [], .matching ⟨[echoPattern], false, 1, none⟩⟩

/-- The match of that pattern in a text of three characters. -/
def echoMatch : Pattern.Match :=
  ⟨0, 3, [(2, 2, 3), (1, 0, 2)]⟩

/-- The check is one that can be defined. If the two characters are themselves a placeholder, the next round fills it in. -/
theorem echoCheck_not_verbatim : Matching.define (some ["(..)(b)".toList]) false 1 none = .ok ⟨[echoPattern], false, 1, none⟩ ∧
    Check.define (some "echo".toList) (some "found \\1".toList) none none [] echoCheck.rule = .ok echoCheck ∧
    ∃ i, echoCheck.run (.ofText "x.cmake".toList) "\\2b".toList = .ok (.all [i]) ∧ i.description = some "found b".toList ∧
      fillTogether 2 (groupText "\\2b".toList echoMatch) echoCheck.description = "found \\2".toList ∧
      ¬ Undisturbed 2 (groupText "\\2b".toList echoMatch) := by
  refine ⟨by decide +kernel, by decide +kernel, ?_⟩
  have evaluated : ((echoCheck.run (.ofText "x.cmake".toList) "\\2b".toList).toOption.map fun findings =>
      findings.toList.map Issue.description) = some [some "found b".toList] := by decide +kernel
  have kept : keptMatches ⟨[echoPattern], false, 1, none⟩ "\\2b".toList echoPattern = [echoMatch] := by decide +kernel
  have rounds : fillIn 2 (groupText "\\2b".toList echoMatch) echoCheck.description = "found b".toList := by decide +kernel
  have together : fillTogether 2 (groupText "\\2b".toList echoMatch) echoCheck.description = "found \\2".toList := by
    decide +kernel
  obtain ⟨findings, ran, _⟩ := run_of_evaluated evaluated
  obtain ⟨found, rfl, each⟩ := descriptions_of_matching rfl ran
  obtain ⟨issues, _, related, last, rfl⟩ := List.forall₂_cons_left_iff.mp each
  obtain rfl := List.forall₂_nil_left_iff.mp last
  rw [kept] at related
  obtain ⟨i, _, filled, last, rfl⟩ := List.forall₂_cons_left_iff.mp related
  obtain rfl := List.forall₂_nil_left_iff.mp last
  refine ⟨i, ran, filled.byRounds.trans (congrArg some rounds), together, ?_⟩
  intro undisturbed
  have same := filled.atOnce_iff.mpr undisturbed echoCheck.description
  exact absurd (rounds.symm.trans (same.trans together)) (by decide)

end Check

end CMakeLint
