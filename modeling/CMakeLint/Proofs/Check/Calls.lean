import CMakeLint.Proofs.Check.Limit
import CMakeLint.Proofs.Check.Locality
import CMakeLint.Proofs.Pattern.Mentions

/-!
Checks of calls. Seven checks look for calls of some commands. Their matches are a scan for calls from left to right, and they
report one part of each call, unless a word among its arguments excuses it (`findings_of_calls`). Such a check can fail, but only
for a highlight that ends beyond the limit, as in a call that is as long as that (`exists_overruns_openCall`). Three more checks
look for calls with a word among their arguments, and report the first such word of each (`findings_of_words`).
-/
namespace CMakeLint

/-! ### Parts of calls -/

/-- A part of a call that is reported. -/
inductive CallPart where
  | name
  | arguments
  deriving DecidableEq, Repr

/-- From where to where a part of a call goes. -/
def CallPart.bounds (c : Call) : CallPart → Nat × Nat
  | name => (c.start, c.nameStop)
  | arguments => (c.argumentsStart, c.argumentsStop)

namespace Check

/-! ### Issues of matches -/

/-- A check reports its spots, one after the other. -/
theorem run_forall_reports {check : Check} (form : placesSpots check.rule = true) {path : Path} {t : Text} {findings : Findings}
    (made : check.run path t = .ok findings) :
    List.Forall₂ (fun s i => i.Reports check t s) (check.spots path t) findings.toList := by
  refine ((List.forall₂_and_left _ _).mpr ⟨fun s member => member, run_ok form made⟩).imp ?_
  rintro s i ⟨member, reported⟩
  obtain ⟨_, _, _, _, grounded⟩ := spots_grounded form member
  exact reports_of_ok grounded reported

theorem findings_eq_all {check : Check} {rule : Matching} (matching : check.rule = .matching rule) {path : Path} {t : Text}
    {findings : Findings} (made : check.run path t = .ok findings) : findings = .all findings.toList := by
  rw [run, if_neg (by simp [matching])] at made
  obtain ⟨issues, _, made⟩ := bind_eq_ok.mp made
  simp only [matching] at made
  cases made
  rfl

/-- A check with one spot at most finds one issue at most. -/
theorem run_of_spot {check : Check} (listed : check ∈ catalog) (single : ∀ m, check.rule ≠ .matching m) {path : Path} {t : Text}
    {spot : Option Spot} (spotsEq : check.spots path t = spot.toList) {findings : Findings}
    (made : check.run path t = .ok findings) :
    (spot = none ∧ findings = .first none) ∨
      ∃ s i, spot = some s ∧ findings = .first (some i) ∧ i.MadeFrom check path t s ∧ i.Reports check t s := by
  have form := catalog_placesSpots check listed
  have madeFrom := run_madeFrom made
  have reports := run_forall_reports form made
  have first : findings = .first findings.toList.head? := by
    rw [run, if_neg (rule_ne_none form)] at made
    obtain ⟨issues, _, made⟩ := bind_eq_ok.mp made
    cases rule : check.rule with
    | matching m => exact absurd rule (single m)
    | _ =>
      simp only [rule] at made
      cases made
      cases issues <;> rfl
  rw [spotsEq] at madeFrom reports
  cases spot with
  | none =>
    refine .inl ⟨rfl, ?_⟩
    rw [first, List.forall₂_nil_left_iff.mp reports]
    rfl
  | some s =>
    obtain ⟨i, rest, report, none, issues⟩ := List.forall₂_cons_left_iff.mp reports
    rw [issues] at madeFrom
    refine .inr ⟨s, i, rfl, ?_, (List.forall₂_cons.mp madeFrom).1, report⟩
    rw [first, issues]
    rfl

/-- A spot is a match with the reported group. -/
theorem of_matchSpot {check : Check} {rule : Matching} {t : Text} {p : Pattern} {m : Pattern.Match} {s : Spot}
    (taken : matchSpot? check rule t p m = some s) : s.found = m ∧ s.group = reportedGroup rule p := by
  rw [matchSpot?] at taken
  by_cases exempted : isExempt rule (groupText t m (reportedGroup rule p)) = true
  · rw [if_pos exempted] at taken
    cases taken
  · rw [if_neg exempted] at taken
    cases taken
    exact ⟨rfl, rfl⟩

section NoExemption

variable {check : Check} {rule : Matching} {t : Text} {ps : List Pattern}

/-- Without an exemption every match is a spot. -/
theorem found_patternSpots (none : rule.exempt = none) :
    (ps.flatMap (patternSpots check rule t)).map Spot.found = ps.flatMap (·.findAll rule.ignoreCase t) := by
  have each : ∀ p m, (matchSpot? check rule t p m).map Spot.found = some m := by
    intro p m
    simp [matchSpot?, isExempt, none, Spot.ofMatch]
  rw [List.map_flatMap]
  simp only [patternSpots, List.map_filterMap, each, List.filterMap_some]

theorem group_of_mem_patternSpots {number : Nat} (reported : ∀ p ∈ ps, reportedGroup rule p = number) {s : Spot}
    (member : s ∈ ps.flatMap (patternSpots check rule t)) : s.group = number := by
  obtain ⟨p, listed, member⟩ := List.mem_flatMap.mp member
  obtain ⟨m, _, taken⟩ := List.mem_filterMap.mp member
  rw [(of_matchSpot taken).2, reported p listed]

/-- An issue for each match, which is about the reported group. -/
theorem forall₂_patternSpots (none : rule.exempt = none) {number : Nat} (reported : ∀ p ∈ ps, reportedGroup rule p = number)
    {issues : List Issue} (reports : List.Forall₂ (fun s i => i.Reports check t s) (ps.flatMap (patternSpots check rule t)) issues) :
    List.Forall₂ (fun m i => m.group? number = some (i.span.start, i.span.stop)) (ps.flatMap (·.findAll rule.ignoreCase t))
      issues := by
  rw [← found_patternSpots none, List.forall₂_map_left_iff]
  refine ((List.forall₂_and_left _ _).mpr ⟨fun s member => member, reports⟩).imp ?_
  rintro s i ⟨member, reports⟩
  rw [← group_of_mem_patternSpots reported member]
  exact reports.group_eq

end NoExemption

/-! ### Checks of calls -/

/-- A check of calls. -/
structure CallCheck where
  check : Check
  /-- The commands whose calls are looked for. -/
  commands : List String
  /-- The number under which a match remembers the name of a call, if it does. -/
  nameGroup : Option Nat
  /-- The number under which a match remembers the arguments of a call, if it does. -/
  argumentsGroup : Option Nat
  /-- What is reported of a call. -/
  part : CallPart
  /-- Words that excuse a call if one of them is among its arguments. -/
  excuses : List String
  /-- What the check looks for besides calls. -/
  others : List Pattern

namespace CallCheck

/-- The pattern of the calls. -/
def pattern (k : CallCheck) : Pattern :=
  .callOf k.nameGroup k.argumentsGroup k.commands

/-- The number of the reported part. -/
def number (k : CallCheck) : Nat :=
  match k.part with
  | .name => k.nameGroup.getD 0
  | .arguments => k.argumentsGroup.getD 0

/-- The rule of the check. -/
def rule (k : CallCheck) : Matching where
  patterns := k.pattern :: k.others
  ignoreCase := false
  group := k.number
  exempt := if k.excuses = [] then none else some (.anyWord k.excuses)

/-- A call as the check matches it. -/
def matchOf (k : CallCheck) : Call → Pattern.Match :=
  Pattern.matchOf k.nameGroup k.argumentsGroup

/-- What the check reports of a call. -/
def spot (k : CallCheck) (t : Text) (c : Call) : Spot :=
  .ofMatch (k.matchOf c) k.number (some (fillIn k.pattern.groupCount (groupText t (k.matchOf c)) k.check.description))

end CallCheck

/-- The check of library types. -/
def libraryCalls : CallCheck :=
  ⟨libraryType, ["add_library"], none, some 1, .arguments,
    ["STATIC", "SHARED", "MODULE", "OBJECT", "INTERFACE", "IMPORTED", "ALIAS"], []⟩

/-- The checks of calls: three ask for a word among the arguments and report these, the others report every call by its name. -/
def callChecks : List CallCheck :=
  [⟨projectVersion, ["project"], none, some 1, .arguments, ["VERSION"], []⟩,
    ⟨targetScope, scopedCommands, some 1, some 2, .arguments, ["PRIVATE", "PUBLIC", "INTERFACE"], []⟩,
    libraryCalls,
    ⟨compileDefinitions, ["add_compile_definitions", "add_definitions"], some 1, none, .name, [], []⟩,
    ⟨includeDirectories, ["include_directories"], some 1, none, .name, [], []⟩,
    ⟨linkDirectories, ["link_directories"], some 1, none, .name, [], []⟩,
    ⟨compileOptions, ["add_compile_options"], some 1, none, .name, [],
      [.setVariable (.group 1 (.words ["CMAKE_CXX_FLAGS", "CMAKE_C_FLAGS"]))]⟩]

/-- What the checks of calls have in common. -/
structure CallCheck.Sound (k : CallCheck) : Prop where
  listed : k.check ∈ catalog
  rule_eq : k.check.rule = .matching k.rule
  commands : Text.areWords k.commands = true
  excuses : k.excuses = [] ∨ Text.areWords k.excuses = true ∧ k.part = .arguments ∧ k.others = []
  reported : ∀ p ∈ k.pattern :: k.others, reportedGroup k.rule p = k.number
  group : ∀ c, (k.matchOf c).group? k.number = some (k.part.bounds c)

theorem callChecks_sound {k : CallCheck} (listed : k ∈ callChecks) : k.Sound := by
  have commands : ∀ k ∈ callChecks, Text.areWords k.commands = true := by decide +kernel
  have excuses : ∀ k ∈ callChecks, k.excuses = [] ∨ Text.areWords k.excuses = true ∧ k.part = .arguments ∧ k.others = [] := by
    decide +kernel
  have reported : ∀ k ∈ callChecks, ∀ p ∈ k.pattern :: k.others, reportedGroup k.rule p = k.number := by decide +kernel
  refine ⟨?_, ?_, commands k listed, excuses k listed, reported k listed, ?_⟩
  all_goals simp only [callChecks, List.mem_cons, List.not_mem_nil, or_false] at listed
  · rcases listed with rfl | rfl | rfl | rfl | rfl | rfl | rfl <;> simp [catalog, libraryCalls]
  · rcases listed with rfl | rfl | rfl | rfl | rfl | rfl | rfl <;> rfl
  · intro c
    rcases listed with rfl | rfl | rfl | rfl | rfl | rfl | rfl <;> rfl

variable {k : CallCheck} {t : Text}

/-- A word that excuses is looked for in the arguments, and is found if it stands there as a whole word. -/
theorem CallCheck.Sound.isExempt_iff (sound : k.Sound) {c : Call} (call : IsCall k.commands t c) :
    isExempt k.rule (groupText t (k.matchOf c) k.number) = true ↔ Mentions k.excuses c.arguments := by
  rcases sound.excuses with none | ⟨form, part, _⟩
  · have nothing : ¬ Mentions k.excuses c.arguments := by
      rintro ⟨o, found⟩
      rw [none] at found
      cases found.listed
    refine iff_of_false ?_ nothing
    simp [isExempt, rule, none]
  · have text : groupText t (k.matchOf c) k.number = c.arguments := by
      rw [groupText, Pattern.Match.text?, sound.group, part]
      exact call.slice_arguments
    have nonempty : k.excuses ≠ [] := Text.areWords_ne_nil form
    rw [text, isExempt, rule]
    simp only [if_neg nonempty]
    exact Pattern.search_anyWord form c.arguments

theorem CallCheck.Sound.matchSpot (sound : k.Sound) {c : Call} (call : IsCall k.commands t c) :
    matchSpot? k.check k.rule t k.pattern (k.matchOf c) =
      if Mentions k.excuses c.arguments then none else some (k.spot t c) := by
  rw [matchSpot?, sound.reported k.pattern List.mem_cons_self]
  simp only [sound.isExempt_iff call]
  rfl

theorem CallCheck.Sound.filterMap_matchSpot (sound : k.Sound) {calls : List Call} (found : ∀ c ∈ calls, IsCall k.commands t c) :
    (calls.map k.matchOf).filterMap (matchSpot? k.check k.rule t k.pattern) =
      (calls.filter fun c => ¬ Mentions k.excuses c.arguments).map (k.spot t) := by
  induction calls with
  | nil => rfl
  | cons c calls ih =>
    have rest := ih fun c' member => found c' (List.mem_cons_of_mem _ member)
    rw [List.map_cons, List.filterMap_cons, sound.matchSpot (found c List.mem_cons_self), rest]
    by_cases excused : Mentions k.excuses c.arguments
    · simp [excused]
    · simp [excused]

/-- The spots of a check of calls: one for each call that is not excused, and those of its other patterns. -/
theorem CallCheck.Sound.spots_eq (sound : k.Sound) (path : Path) {calls : List Call}
    (scan : Scan Call.start Call.stop (IsCall k.commands t) 0 calls) (all : k.pattern.findAll false t = calls.map k.matchOf) :
    k.check.spots path t = (calls.filter fun c => ¬ Mentions k.excuses c.arguments).map (k.spot t) ++
      k.others.flatMap (patternSpots k.check k.rule t) := by
  have cons : k.check.spots path t = patternSpots k.check k.rule t k.pattern ++
      k.others.flatMap (patternSpots k.check k.rule t) := by
    rw [spots, sound.rule_eq]
    exact List.flatMap_cons
  rw [cons, patternSpots]
  exact congrArg (· ++ _) ((congrArg _ all).trans (sound.filterMap_matchSpot scan.found))

/-- One issue for each call that is not excused, about the reported part of it, and then one for each match of the other
    patterns. -/
theorem CallCheck.Sound.findings (sound : k.Sound) {path : Path} {calls : List Call}
    (scan : Scan Call.start Call.stop (IsCall k.commands t) 0 calls) (all : k.pattern.findAll false t = calls.map k.matchOf)
    {findings : Findings} (made : k.check.run path t = .ok findings) :
    ∃ issues more, findings = .all (issues ++ more) ∧
      List.Forall₂ (fun c i => k.part.bounds c = (i.span.start, i.span.stop))
        (calls.filter fun c => ¬ Mentions k.excuses c.arguments) issues ∧
      List.Forall₂ (fun m i => m.group? k.number = some (i.span.start, i.span.stop)) (k.others.flatMap (·.findAll false t)) more := by
  have reports := run_forall_reports (catalog_placesSpots _ sound.listed) made
  rw [sound.spots_eq path scan all] at reports
  obtain ⟨issues, more, split, early, late⟩ := exists_append_of_forall₂ reports
  refine ⟨issues, more, ?_, (List.forall₂_map_left_iff.mp early).imp fun c i reports => ?_, ?_⟩
  · rw [← split]
    exact findings_eq_all sound.rule_eq made
  · exact Option.some.inj ((sound.group c).symm.trans reports.group_eq)
  · rcases sound.excuses with none | ⟨_, _, alone⟩
    · exact forall₂_patternSpots (if_pos none) (fun p member => sound.reported p (List.mem_cons_of_mem _ member)) late
    · rw [alone] at late ⊢
      cases late
      exact .nil

theorem CallCheck.Sound.fits_of_name (sound : k.Sound) (part : k.part = .name) (plain : '\r' ∉ t) {path : Path} {c : Call}
    (call : IsCall k.commands t c) (spot : k.spot t c ∈ k.check.spots path t) : ¬ (k.spot t c).Overruns t := by
  obtain ⟨first, last, start, stop, grounded⟩ := spots_grounded (catalog_placesSpots _ sound.listed) spot
  have bounds : some (c.start, c.nameStop) = some (start, stop) := by
    have group := (sound.group c).symm.trans grounded.group_eq
    rwa [part] at group
  cases bounds
  have here : first = c.start := (Int.ofNat_inj.mp grounded.start_eq).symm
  refine Spot.fits_of_first_line plain grounded ?_
  rw [here, call.slice_name]
  intro newline
  exact absurd ((Text.mem_areWords sound.commands call.named).2 _ newline) (by decide +kernel)

/-! ### A call that is too long -/

/-- A call of `add_library` whose arguments are some newlines. -/
def openCall (n : Nat) : Call :=
  ⟨[], "add_library".toList, [], List.replicate n '\n', []⟩

theorem openCall_isCall (n : Nat) : IsCall ["add_library"] (openCall n).text (openCall n) where
  text_eq := rfl
  named := by simp [openCall]
  opens := rfl
  blank := by simp [openCall]
  closes := by simp [openCall]

theorem openCall_text (n : Nat) : (openCall n).text = "add_library(".toList ++ (List.replicate n '\n' ++ [')']) := rfl

theorem normalize_openCall (n : Nat) : Grid.normalize (openCall n).text = (openCall n).text ∧
    Grid.normalize (List.replicate n '\n') = List.replicate n '\n' := by
  constructor
  · refine Grid.normalize_of_bare ?_ ?_
    · simp [openCall_text, List.mem_replicate]
    · simp [openCall_text, List.mem_replicate]
  · refine Grid.normalize_of_bare ?_ ?_
    · simp [List.mem_replicate]
    · simp [List.mem_replicate]

theorem firstWithin_openCall {n : Nat} (positive : 0 < n) :
    Grid.FirstWithin (List.replicate n '\n') (openCall n).text 12 := by
  have name : "add_library(".toList.length = 12 := by decide
  rw [openCall_text]
  refine ⟨?_, ?_, fun j less occurs => ?_⟩
  · rw [List.drop_left' name]
    exact List.prefix_append _ _
  · rw [List.length_append, List.length_append, name, List.length_replicate, List.length_singleton]
    omega
  · have newline := Text.getElem?_of_occurs occurs (n := 0) (by simpa using positive)
    rw [Nat.add_zero, List.getElem?_append_left (by omega), List.getElem?_replicate_of_lt positive] at newline
    exact absurd (List.mem_of_getElem? newline) (by decide)

/-- The newlines are found where they are, and end in the row of their number. -/
theorem overruns_openCall {n : Nat} (long : Issue.highlightLimit < n) :
    Issue.Overruns (Grid.ofText (openCall n).text [] none) (List.replicate n '\n') := by
  have positive : 0 < n := by
    rw [Issue.highlightLimit] at long
    omega
  obtain ⟨shown, piece⟩ := normalize_openCall n
  have nonempty : Grid.normalize (List.replicate n '\n') ≠ [] := by
    rw [piece]
    simpa using Nat.ne_of_gt positive
  have first : Grid.FirstWithin (Grid.normalize (List.replicate n '\n')) (Grid.normalize (openCall n).text) 12 := by
    rw [piece, shown]
    exact firstWithin_openCall positive
  refine ⟨_, (Grid.find_ofText_iff nonempty).mpr ⟨12, first, rfl⟩, .inl ?_⟩
  have row : ((openCall n).text.take (12 + n - 1)).count '\n' = n - 1 := by
    rw [openCall_text, show 12 + n - 1 = "add_library(".toList.length + (n - 1) by
      rw [show "add_library(".toList.length = 12 by decide]; omega, List.take_length_add_append,
      List.take_append_of_le_length (by simp), List.take_replicate, List.count_append, List.count_replicate_self,
      List.count_eq_zero.mpr (by decide)]
    omega
  simp only [Grid.Region.between, Position.ofOffset_line, piece, shown, List.length_replicate, row]
  omega

theorem openCall_not_excused (n : Nat) : ¬ Mentions libraryCalls.excuses (openCall n).arguments := by
  have form : Text.areWords libraryCalls.excuses = true := by decide +kernel
  have newline : Text.isWord '\n' = false := by decide +kernel
  rintro ⟨o, found⟩
  obtain ⟨nonempty, isWord⟩ := Text.mem_areWords form found.listed
  obtain ⟨c, w, word⟩ := List.exists_cons_of_ne_nil nonempty
  have member : c ∈ (openCall n).arguments := by
    rw [← found.text_eq, word]
    simp
  rw [(List.mem_replicate.mp member).2] at word
  have letter := isWord '\n' (by simp [word])
  rw [newline] at letter
  cases letter

/-- What is shown of this call is the whole text. -/
theorem openCall_spot_overruns {n : Nat} (long : Issue.highlightLimit < n) {first last start stop : Nat}
    (grounded : (libraryCalls.spot (openCall n).text (openCall n)).Grounded (openCall n).text first last start stop) :
    (libraryCalls.spot (openCall n).text (openCall n)).Overruns (openCall n).text := by
  have length : (openCall n).text.length = (openCall n).stop := by
    simp [openCall, Call.text, Call.tail, Call.stop, Call.argumentsStop, Call.argumentsStart, Call.nameStop, Call.start]
    omega
  obtain ⟨startEq, lastEq, groupEq, firstChar, lastChar, inside, after, ordered, before, starts⟩ := grounded
  have group : (libraryCalls.matchOf (openCall n)).group? 1 = some ((openCall n).argumentsStart, (openCall n).argumentsStop) := rfl
  cases group.symm.trans groupEq
  have lastAt : (((openCall n).stop : Nat) : Int) - 1 = last := lastEq
  have firstAt : first = 0 := (Int.ofNat_inj.mp startEq).symm
  obtain ⟨context, lines, opens, closes, bound, _⟩ := wholeLines_spec firstChar lastChar (by omega) (by omega) inside
  have whole : context.of (openCall n).text = (openCall n).text := by
    have contextStart : context.start = 0 := by omega
    have contextStop : context.stop = (openCall n).text.length := by omega
    rw [Span.of, contextStart, contextStop, Text.slice, List.drop_zero, Nat.sub_zero, List.take_length]
  refine ⟨_, context, Span.ofBounds_ok ordered, by rw [startEq, lastEq]; exact lines, ?_⟩
  rw [whole, Span.of, Span.stop, Nat.add_sub_cancel' ordered, (openCall_isCall n).slice_arguments]
  exact overruns_openCall long

/-- A call of `add_library` that goes on for more lines than the limit overruns it. -/
theorem exists_overruns_openCall {n : Nat} (long : Issue.highlightLimit < n) (path : Path) :
    ∃ s ∈ libraryType.spots path (openCall n).text, s.Overruns (openCall n).text := by
  have sound : libraryCalls.Sound := callChecks_sound (by simp [callChecks])
  obtain ⟨calls, scan, all⟩ := Pattern.findAll_calls none (some 1) sound.commands (openCall n).text
  have member : openCall n ∈ calls := by
    cases scan with
    | done none => exact absurd (none _ (openCall_isCall n)) (Nat.not_lt_zero _)
    | @next _ c rest found _ first _ =>
      have same : c.start = (openCall n).start := Nat.le_zero.mp (first _ (openCall_isCall n) (Nat.zero_le _))
      rw [found.unique sound.commands (openCall_isCall n) same]
      exact List.mem_cons_self
  have spot : libraryCalls.spot (openCall n).text (openCall n) ∈ libraryCalls.check.spots path (openCall n).text := by
    rw [sound.spots_eq path scan all]
    refine List.mem_append_left _ (List.mem_map.mpr ⟨openCall n, ?_, rfl⟩)
    exact List.mem_filter.mpr ⟨member, decide_eq_true (openCall_not_excused n)⟩
  obtain ⟨first, last, start, stop, grounded⟩ := spots_grounded (catalog_placesSpots _ sound.listed) spot
  exact ⟨_, spot, openCall_spot_overruns long grounded⟩

/-! ### What checks of calls find -/

/-- A check of calls finds its calls from left to right. It fails exactly if a highlight overruns the limit, which takes a text
    with as many lines as the limit, and does not happen to names in a text with newlines of one kind. Otherwise it finds one issue
    for each call that is not excused, which is about the arguments or the name of that call. -/
theorem findings_of_calls {k : CallCheck} (listed : k ∈ callChecks) (path : Path) (t : Text) :
    k.check.rule = .matching k.rule ∧
    ∃ calls, (∀ l, Scan Call.start Call.stop (IsCall k.commands t) 0 l ↔ l = calls) ∧
      k.pattern.findAll false t = calls.map k.matchOf ∧
      ((∃ fault, k.check.run path t = .error fault) ↔ ∃ s ∈ k.check.spots path t, s.Overruns t) ∧
      (((t.count '\n' + t.count '\r' + 1 : Nat) : Int) < Issue.highlightLimit → ∃ findings, k.check.run path t = .ok findings) ∧
      (k.part = .name → k.others = [] → '\r' ∉ t → ∃ findings, k.check.run path t = .ok findings) ∧
      ∀ findings, k.check.run path t = .ok findings → ∃ issues more, findings = .all (issues ++ more) ∧
        List.Forall₂ (fun c i => k.part.bounds c = (i.span.start, i.span.stop))
          (calls.filter fun c => ¬ Mentions k.excuses c.arguments) issues ∧
        List.Forall₂ (fun m i => m.group? k.number = some (i.span.start, i.span.stop))
          (k.others.flatMap (·.findAll false t)) more := by
  have sound := callChecks_sound listed
  obtain ⟨calls, scan, all⟩ := Pattern.findAll_calls k.nameGroup k.argumentsGroup sound.commands t
  refine ⟨sound.rule_eq, calls, fun l => ⟨fun scan' => ?_, fun same => same ▸ scan⟩, all, run_error_iff sound.listed,
    run_ok_of_short sound.listed path, fun part alone plain => ?_, fun findings => sound.findings scan all⟩
  · exact scan'.unique (fun a b call call' => call.unique sound.commands call') scan
  · refine run_ok_of_fits sound.listed fun s spot => ?_
    have spot' := spot
    rw [sound.spots_eq path scan all, alone, List.mem_append] at spot'
    rcases spot' with early | late
    · obtain ⟨c, kept, rfl⟩ := List.mem_map.mp early
      exact sound.fits_of_name part plain (scan.found c (List.mem_of_mem_filter kept)) spot
    · cases late

/-- A call ends at its first closing bracket, even if that is the bracket of a call inside. -/
example : ((libraryType.run (.ofText "a.cmake".toList)
    "my_add_library(a)\nadd_library (add_library(b)\nadd_library(STATIC)".toList).toOption.map fun findings =>
      findings.toList.map Issue.span) = some [⟨31, 13⟩] := by
  decide +kernel

/-- A call of `add_library` without a library type is not reported if it is too long: the check fails. -/
theorem run_openCall_fails : libraryCalls ∈ callChecks ∧ IsCall libraryCalls.commands (openCall 100000).text (openCall 100000) ∧
    ¬ Mentions libraryCalls.excuses (openCall 100000).arguments ∧
    ∃ fault, libraryType.run (.ofText "a.cmake".toList) (openCall 100000).text = .error fault := by
  have listed : libraryCalls ∈ callChecks := by simp [callChecks]
  have long : Issue.highlightLimit < (100000 : Nat) := by
    rw [Issue.highlightLimit]
    omega
  obtain ⟨_, _, _, _, fails, _⟩ := findings_of_calls listed (.ofText "a.cmake".toList) (openCall 100000).text
  exact ⟨listed, openCall_isCall _, openCall_not_excused _, fails.mpr (exists_overruns_openCall long _)⟩

/-! ### Calls with a word among their arguments -/

/-- A check of calls that must not have some words among their arguments. -/
structure WordCheck where
  check : Check
  /-- The command whose calls are looked for. -/
  command : String
  /-- The words that are looked for among the arguments. -/
  words : List String
  /-- What the check looks for besides calls. -/
  others : List Pattern

namespace WordCheck

/-- The pattern of the calls with one of the words. -/
def pattern (k : WordCheck) : Pattern :=
  .callContaining k.command k.words

/-- The rule of the check. -/
def rule (k : WordCheck) : Matching where
  patterns := k.pattern :: k.others
  ignoreCase := false
  group := 1
  exempt := none

end WordCheck

/-- The check of the thread library. -/
def threadCalls : WordCheck :=
  ⟨threadsPackage, "target_link_libraries", ["pthread"], []⟩

/-- The checks of calls with a word among their arguments. -/
def wordCallChecks : List WordCheck :=
  [⟨positionIndependentCode, "set", ["CMAKE_POSITION_INDEPENDENT_CODE"], []⟩, threadCalls,
    ⟨languageStandard, "set_target_properties", ["CXX_STANDARD", "C_STANDARD"],
      [.setVariable (.sequence [.edge, .group 1 (.words ["CMAKE_CXX_STANDARD", "CMAKE_C_STANDARD"])])]⟩]

/-- What these checks have in common. -/
structure WordCheck.Sound (k : WordCheck) : Prop where
  listed : k.check ∈ catalog
  rule_eq : k.check.rule = .matching k.rule
  command : Text.areWords [k.command] = true
  words : Text.areWords k.words = true
  reported : ∀ p ∈ k.pattern :: k.others, reportedGroup k.rule p = 1

theorem wordCallChecks_sound {k : WordCheck} (listed : k ∈ wordCallChecks) : k.Sound := by
  have command : ∀ k ∈ wordCallChecks, Text.areWords [k.command] = true := by decide +kernel
  have words : ∀ k ∈ wordCallChecks, Text.areWords k.words = true := by decide +kernel
  have reported : ∀ k ∈ wordCallChecks, ∀ p ∈ k.pattern :: k.others, reportedGroup k.rule p = 1 := by decide +kernel
  refine ⟨?_, ?_, command k listed, words k listed, reported k listed⟩
  all_goals simp only [wordCallChecks, List.mem_cons, List.not_mem_nil, or_false] at listed
  · rcases listed with rfl | rfl | rfl <;> simp [catalog, threadCalls]
  · rcases listed with rfl | rfl | rfl <;> rfl

theorem WordCheck.Sound.findings {k : WordCheck} (sound : k.Sound) {path : Path} {t : Text} {findings : Findings}
    (made : k.check.run path t = .ok findings) :
    ∃ issues more, findings = .all (issues ++ more) ∧
      List.Forall₂ (fun m i => m.group? 1 = some (i.span.start, i.span.stop)) (k.pattern.findAll false t) issues ∧
      List.Forall₂ (fun m i => m.group? 1 = some (i.span.start, i.span.stop)) (k.others.flatMap (·.findAll false t)) more := by
  have reports := run_forall_reports (catalog_placesSpots _ sound.listed) made
  have spotsEq : k.check.spots path t = (k.pattern :: k.others).flatMap (patternSpots k.check k.rule t) := by
    rw [spots, sound.rule_eq]
    rfl
  rw [spotsEq] at reports
  have all := forall₂_patternSpots rfl sound.reported reports
  rw [List.flatMap_cons] at all
  obtain ⟨issues, more, split, early, late⟩ := exists_append_of_forall₂ all
  exact ⟨issues, more, split ▸ findings_eq_all sound.rule_eq made, early, late⟩

/-- A check of calls with a word finds these calls from left to right, and skips no call for the sake of one without the word. Each
    match goes up to the first closing bracket, and what is reported of it is the first of the words among its arguments. -/
theorem findings_of_words {k : WordCheck} (listed : k ∈ wordCallChecks) (path : Path) (t : Text) :
    k.check.rule = .matching k.rule ∧
    ∃ calls, (∀ l, Scan Call.start Call.stop (fun c => IsCall [k.command] t c ∧ Mentions k.words c.arguments) 0 l ↔ l = calls) ∧
      List.Forall₂ (fun c m => m.start = c.start ∧ m.stop = c.stop ∧
          ∃ o, IsFirst Occurrence.start (IsWholeWord k.words c.arguments) o ∧
            m.group? 1 = some (c.argumentsStart + o.start, c.argumentsStart + o.start + o.word.length))
        calls (k.pattern.findAll false t) ∧
      ((∃ fault, k.check.run path t = .error fault) ↔ ∃ s ∈ k.check.spots path t, s.Overruns t) ∧
      ∀ findings, k.check.run path t = .ok findings → ∃ issues more, findings = .all (issues ++ more) ∧
        List.Forall₂ (fun m i => m.group? 1 = some (i.span.start, i.span.stop)) (k.pattern.findAll false t) issues ∧
        List.Forall₂ (fun m i => m.group? 1 = some (i.span.start, i.span.stop))
          (k.others.flatMap (·.findAll false t)) more := by
  have sound := wordCallChecks_sound listed
  obtain ⟨calls, scan, matched⟩ := Pattern.findAll_containing sound.command sound.words t
  refine ⟨sound.rule_eq, calls, fun l => ⟨fun scan' => ?_, fun same => same ▸ scan⟩, matched.imp ?_, run_error_iff sound.listed,
    fun findings => sound.findings⟩
  · exact scan'.unique (fun a b call call' => call.1.unique sound.command call'.1) scan
  · rintro c m ⟨o, first, rfl⟩
    exact ⟨rfl, rfl, o, first, rfl⟩

/-- Two calls, of which the second one links the thread library. -/
def threadScript : Text :=
  "target_link_libraries(pthreads)\ntarget_link_libraries(a pthreads b::pthread pthread)\n".toList

/-- A longer word is neither the thread library nor part of what is reported. -/
theorem findings_of_threadScript : threadCalls ∈ wordCallChecks ∧ ∃ c o, IsCall [threadCalls.command] threadScript c ∧ c.start = 32 ∧
    IsFirst Occurrence.start (IsWholeWord threadCalls.words c.arguments) o ∧ c.argumentsStart + o.start = 68 := by
  have listed : threadCalls ∈ wordCallChecks := by simp [wordCallChecks]
  have found : threadCalls.pattern.findAll false threadScript = [⟨32, 84, [(1, 68, 75)]⟩] := by decide +kernel
  obtain ⟨_, calls, scans, matched, _⟩ := findings_of_words listed (.ofText "a.cmake".toList) threadScript
  rw [found] at matched
  obtain ⟨c, member, start, _, o, first, group⟩ := forall₂_mem_right matched List.mem_cons_self
  have place : (68, 75) = (c.argumentsStart + o.start, c.argumentsStart + o.start + o.word.length) := Option.some.inj group
  exact ⟨listed, c, o, (((scans calls).mpr rfl).found c member).1, start.symm, first, (congrArg Prod.fst place).symm⟩

end Check

end CMakeLint
