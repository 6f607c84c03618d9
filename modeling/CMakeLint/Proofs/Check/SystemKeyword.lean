import CMakeLint.Proofs.Check.MinimumVersion
import CMakeLint.Proofs.Pattern.Languages

/-!
The check of the SYSTEM keyword. The keyword is in its place if it follows the target (`IsSystemSecond`), which is what the
check asks of a call (`matchWhole_systemSecond`). But it looks at the first call with the keyword only: if the keyword is in its place
there, nothing is found in the whole text, whatever the other calls are (`findings_of_systemKeyword`). And it knows few forms of
targets: after any other argument without quotes the keyword is reported, as after a reference with a suffix
(`findings_of_unquotedTarget`).
-/
namespace CMakeLint

/-! ### The keyword in its place -/

/-- Letters, digits, underscores and hyphens, at least one of them. -/
def IsTargetName (t : Text) : Prop :=
  (∀ c ∈ t, c.isAlphanum = true ∨ c = '_' ∨ c = '-') ∧ t ≠ []

/-- A target: a name, a variable or a string. -/
inductive IsTarget : Text → Prop
  | name {t : Text} (plain : IsTargetName t) : IsTarget t
  | reference {t : Text} (plain : IsTargetName t) : IsTarget ("$\x7b".toList ++ (t ++ ['\x7d']))
  | string {t : Text} (closed : '\x22' ∉ t) : IsTarget ('\x22' :: (t ++ ['\x22']))

/-- Arguments that start with a target and the SYSTEM keyword, each followed by blanks. -/
def IsSystemSecond (args : Text) : Prop :=
  ∃ before target blanks blanks' rest, args = before ++ (target ++ (blanks ++ ("SYSTEM".toList ++ (blanks' ++ rest)))) ∧
    AreBlanks before ∧ IsTarget target ∧ AreBlanks blanks ∧ blanks ≠ [] ∧ AreBlanks blanks' ∧ blanks' ≠ []

namespace Pattern

theorem accepts_targetName {c : Char} : (⟨false, nameMembers ++ [.char '-']⟩ : CharClass).accepts false c = true ↔
    c.isAlphanum = true ∨ c = '_' ∨ c = '-' := by
  have members : (⟨false, nameMembers ++ [.char '-']⟩ : CharClass).accepts false c = true ↔ 97 ≤ c.val ∧ c.val ≤ 122 ∨
      65 ≤ c.val ∧ c.val ≤ 90 ∨ 48 ≤ c.val ∧ c.val ≤ 57 ∨ c = '_' ∨ c = '-' := by
    simp [CharClass.accepts, CharClass.contains, nameMembers, Member.accepts, Char.le_def]
  have upper : c.isUpper = true ↔ 65 ≤ c.val ∧ c.val ≤ 90 := decide_eq_true_iff
  have lower : c.isLower = true ↔ 97 ≤ c.val ∧ c.val ≤ 122 :=
    Bool.and_eq_true_iff.trans (and_congr decide_eq_true_iff decide_eq_true_iff)
  have digit : c.isDigit = true ↔ 48 ≤ c.val ∧ c.val ≤ 57 :=
    Bool.and_eq_true_iff.trans (and_congr decide_eq_true_iff decide_eq_true_iff)
  have letters : c.isAlphanum = true ↔ (c.isUpper = true ∨ c.isLower = true) ∨ c.isDigit = true :=
    Bool.or_eq_true_iff.trans (or_congr_left Bool.or_eq_true_iff)
  rw [members, letters, upper, lower, digit, or_assoc, or_assoc, or_left_comm]

theorem takes_targetName : targetName.Takes false IsTargetName :=
  (takes_plus _).congr fun w => by simp [IsTargetName, accepts_targetName]

theorem takes_string : (sequence [char '\x22', many (.except '\x22') .lazyStar, char '\x22']).Takes false
    (After (· = ['\x22']) (After ('\x22' ∉ ·) (· = ['\x22']))) := by
  have inside : (many (.except '\x22') .lazyStar).Takes false ('\x22' ∉ ·) := by
    refine (takes_many rfl).congr fun w => ?_
    simp only [accepts_except, Repetition.lazyStar, Nat.zero_le, and_true]
    constructor
    · intro other member
      exact other _ member rfl
    · rintro closed c member rfl
      exact closed member
  exact (takes_char _).seq (inside.seq (takes_char _))

theorem takes_target : (choice [targetName, sequence [word "$\x7b", targetName, char '\x7d'],
    sequence [char '\x22', many (.except '\x22') .lazyStar, char '\x22']]).Takes false IsTarget := by
  have reference : (sequence [word "$\x7b", targetName, char '\x7d']).Takes false
      (After (· = "$\x7b".toList) (After IsTargetName (· = ['\x7d']))) :=
    (takes_word _).seq (takes_targetName.seq (takes_char _))
  refine (takes_targetName.alt (reference.alt takes_string)).congr fun w => ?_
  constructor
  · rintro (plain | ⟨_, _, rfl, rfl, t, _, rfl, plain, rfl⟩ | ⟨_, _, rfl, rfl, t, _, rfl, closed, rfl⟩)
    · exact .name plain
    · exact .reference plain
    · exact .string closed
  · rintro (plain | plain | closed)
    · exact .inl plain
    · exact .inr (.inl ⟨_, _, rfl, rfl, _, _, rfl, plain, rfl⟩)
    · exact .inr (.inr ⟨['\x22'], _, rfl, rfl, _, _, rfl, closed, rfl⟩)

/-- The pattern of the check behind the start of the text. -/
def systemBody : Pattern :=
  sequence [blanks, choice [targetName, sequence [word "$\x7b", targetName, char '\x7d'],
      sequence [char '\x22', many (.except '\x22') .lazyStar, char '\x22']],
    someBlanks, word "SYSTEM", someBlanks, many .any .lazyStar, anchor .textEnd]

theorem takesAll_systemBody : systemBody.TakesAll false IsSystemSecond := by
  have any : (many .any .lazyStar).Takes false fun _ => True :=
    (takes_many rfl).congr fun w => by simp [CharClass.any, CharClass.accepts, CharClass.contains, Repetition.lazyStar]
  refine (takes_blanks.seqAll (takes_target.seqAll (takes_someBlanks.seqAll ((takes_word "SYSTEM").seqAll
    (takes_someBlanks.seqAll (any.seqAll takesAll_textEnd)))))).congr fun args => ?_
  constructor
  · rintro ⟨before, _, rfl, blank, target, _, rfl, isTarget, bl, _, rfl, ⟨blank', nonempty⟩, _, _, rfl, rfl, bl', _, rfl,
      ⟨blank'', nonempty'⟩, rest, _, rfl, _, rfl⟩
    exact ⟨before, target, bl, bl', rest, by simp, blank, isTarget, blank', nonempty, blank'', nonempty'⟩
  · rintro ⟨before, target, bl, bl', rest, rfl, blank, isTarget, blank', nonempty, blank'', nonempty'⟩
    exact ⟨before, _, rfl, blank, target, _, rfl, isTarget, bl, _, rfl, ⟨blank', nonempty⟩, _, _, rfl, rfl, bl', _, rfl,
      ⟨blank'', nonempty'⟩, rest, [], by simp, trivial, rfl⟩

/-- The pattern of the check says that the keyword is in its place. -/
theorem matchWhole_systemSecond (args : Text) : (systemSecond.matchWhole false args).isSome = true ↔ IsSystemSecond args := by
  have body : systemSecond.ends false ⟨.atStart args, []⟩ = systemBody.ends false (.between [] args []) :=
    List.flatMap_singleton _ _
  rw [matchWhole, matchAt_isSome_iff, body]
  simp only [List.isEmpty_iff]
  exact takesAll_systemBody.exists_iff

end Pattern

/-! ### What the check finds -/

/-- A call for include directories with the SYSTEM keyword among its arguments. -/
def HasSystem (t : Text) (c : Call) : Prop :=
  IsCall ["target_include_directories"] t c ∧ Mentions ["SYSTEM"] c.arguments

namespace Check

variable {t : Text} {c : Call}

theorem systemKeywordSpot_of_first (first : IsFirst Call.start (HasSystem t) c) :
    ∃ o, IsFirst Occurrence.start (IsWholeWord ["SYSTEM"] c.arguments) o ∧
      ((IsSystemSecond c.arguments ∧ systemKeywordSpot? t = none) ∨
        (¬ IsSystemSecond c.arguments ∧
          systemKeywordSpot? t = some (.ofMatch (Pattern.matchWith (some 1) 2 c o) 2 none))) := by
  obtain ⟨o, firstWord, searched⟩ := Pattern.search_containing (some 1) 2 (by decide +kernel) (by decide +kernel) first
  have text : groupText t (Pattern.matchWith (some 1) 2 c o) 1 = c.arguments := first.1.1.slice_arguments
  rw [← Pattern.includeDirectoriesWithSystem_eq] at searched
  have asked : (Pattern.systemSecond.matchWhole false (groupText t (Pattern.matchWith (some 1) 2 c o) 1)).isSome = true ↔
      IsSystemSecond c.arguments := by rw [text, Pattern.matchWhole_systemSecond]
  refine ⟨o, firstWord, ?_⟩
  rw [systemKeywordSpot?, searched]
  by_cases second : IsSystemSecond c.arguments
  · exact .inl ⟨second, if_pos (asked.mpr second)⟩
  · exact .inr ⟨second, if_neg (mt asked.mp second)⟩

theorem systemKeywordSpot_of_none (none : ∀ c, ¬ HasSystem t c) : systemKeywordSpot? t = Option.none := by
  have searched := Pattern.search_no_containing (some 1) 2 (by decide +kernel) (by decide +kernel) none
  rw [systemKeywordSpot?, Pattern.includeDirectoriesWithSystem_eq, searched]

theorem systemKeyword_listed : systemKeyword ∈ catalog := by
  simp [catalog]

theorem systemKeyword_rule : systemKeyword.rule = .systemKeyword := rfl

theorem systemKeyword_single (m : Matching) : systemKeyword.rule ≠ .matching m := by
  simp [systemKeyword_rule]

theorem systemKeyword_spots (path : Path) (t : Text) : systemKeyword.spots path t = (systemKeywordSpot? t).toList := by
  rw [spots, systemKeyword_rule]

theorem run_systemKeyword_of_none (path : Path) (none : systemKeywordSpot? t = none) :
    systemKeyword.run path t = .ok (.first Option.none) := by
  rw [run, systemKeyword_spots, none, systemKeyword_rule]
  rfl

/-- What is reported of a call is its first keyword. -/
theorem span_of_systemKeywordSpot {path : Path} {o : Occurrence} {findings : Findings}
    (spot : systemKeywordSpot? t = some (.ofMatch (Pattern.matchWith (some 1) 2 c o) 2 none))
    (made : systemKeyword.run path t = .ok findings) :
    ∃ i, findings = .first (some i) ∧
      i.span.start = c.argumentsStart + o.start ∧ i.span.stop = c.argumentsStart + o.start + o.word.length := by
  rcases run_of_spot systemKeyword_listed systemKeyword_single (systemKeyword_spots path t) made with
    ⟨none, _⟩ | ⟨s, i, found, rfl, _, reports⟩
  · rw [none] at spot
    cases spot
  · rw [spot] at found
    cases found
    have bounds : (c.argumentsStart + o.start, c.argumentsStart + o.start + o.word.length) = (i.span.start, i.span.stop) :=
      Option.some.inj reports.group_eq
    exact ⟨i, rfl, (congrArg Prod.fst bounds).symm, (congrArg Prod.snd bounds).symm⟩

/-- The check of the SYSTEM keyword judges the first call with the keyword. If the keyword is in its place there, nothing is found,
    be it misplaced in other calls or not. If it is not in its place, it is reported, unless its highlight overruns the limit. -/
theorem findings_of_systemKeyword (path : Path) (t : Text) :
    ((∀ c, ¬ HasSystem t c) → systemKeyword.run path t = .ok (.first none)) ∧
    ∀ c, IsFirst Call.start (HasSystem t) c →
      (IsSystemSecond c.arguments → systemKeyword.run path t = .ok (.first none)) ∧
      (¬ IsSystemSecond c.arguments →
        ((∃ fault, systemKeyword.run path t = .error fault) ↔ ∃ s ∈ systemKeyword.spots path t, s.Overruns t) ∧
        (((t.count '\n' + t.count '\r' + 1 : Nat) : Int) < Issue.highlightLimit →
          ∃ findings, systemKeyword.run path t = .ok findings) ∧
        ∀ findings, systemKeyword.run path t = .ok findings →
          ∃ i o, findings = .first (some i) ∧ IsFirst Occurrence.start (IsWholeWord ["SYSTEM"] c.arguments) o ∧
            i.span.start = c.argumentsStart + o.start ∧ i.span.stop = c.argumentsStart + o.start + o.word.length) := by
  refine ⟨fun none => run_systemKeyword_of_none path (systemKeywordSpot_of_none none), fun c first => ?_⟩
  obtain ⟨o, firstWord, ⟨second, none⟩ | ⟨other, spot⟩⟩ := systemKeywordSpot_of_first first
  · exact ⟨fun _ => run_systemKeyword_of_none path none, fun other => absurd second other⟩
  · refine ⟨fun second => absurd second other, fun _ => ⟨run_error_iff systemKeyword_listed,
      run_ok_of_short systemKeyword_listed path, fun findings made => ?_⟩⟩
    obtain ⟨i, rfl, bounds⟩ := span_of_systemKeywordSpot spot made
    exact ⟨i, o, rfl, firstWord, bounds⟩

/-- Two calls for include directories. In the first one the keyword is in its place, in the second one it is not. -/
def mixedScript : Text :=
  "target_include_directories(a SYSTEM PRIVATE x)\ntarget_include_directories(b PRIVATE SYSTEM y)\n".toList

/-- The call with the keyword in its place hides the other one. -/
theorem misplaced_in_mixedScript : (∃ c, HasSystem mixedScript c ∧ ¬ IsSystemSecond c.arguments) ∧
    systemKeyword.run (.ofText "a.cmake".toList) mixedScript = .ok (.first none) := by
  have early : HasSystem mixedScript ⟨[], "target_include_directories".toList, [], "a SYSTEM PRIVATE x".toList,
      "\ntarget_include_directories(b PRIVATE SYSTEM y)\n".toList⟩ :=
    ⟨⟨by decide +kernel, by simp, rfl, by simp, by decide⟩, by decide +kernel⟩
  have late : HasSystem mixedScript ⟨"target_include_directories(a SYSTEM PRIVATE x)\n".toList,
      "target_include_directories".toList, [], "b PRIVATE SYSTEM y".toList, "\n".toList⟩ :=
    ⟨⟨by decide +kernel, by simp, by decide +kernel, by simp, by decide⟩, by decide +kernel⟩
  have second : IsSystemSecond "a SYSTEM PRIVATE x".toList :=
    (Pattern.matchWhole_systemSecond _).mp (by decide +kernel)
  have other : ¬ IsSystemSecond "b PRIVATE SYSTEM y".toList :=
    mt (Pattern.matchWhole_systemSecond _).mpr (by decide +kernel)
  have judged := (findings_of_systemKeyword (.ofText "a.cmake".toList) mixedScript).2 _ ⟨early, fun c _ => Nat.zero_le _⟩
  exact ⟨⟨_, late, other⟩, judged.1 second⟩

end Check

/-! ### The keyword after an unquoted target -/

/-- An argument without quotes: some characters that are neither blanks nor quotes. -/
def IsUnquoted (t : Text) : Prop :=
  t ≠ [] ∧ ∀ c ∈ t, Text.isBlank c = false ∧ c ≠ '\x22'

/-- Arguments that start with a given one and the SYSTEM keyword, each followed by blanks. -/
def SystemAfter (target args : Text) : Prop :=
  ∃ before blanks blanks' rest, args = before ++ (target ++ (blanks ++ ("SYSTEM".toList ++ (blanks' ++ rest)))) ∧
    AreBlanks before ∧ AreBlanks blanks ∧ blanks ≠ [] ∧ AreBlanks blanks' ∧ blanks' ≠ []

theorem isSystemSecond_iff_exists {args : Text} : IsSystemSecond args ↔ ∃ target, IsTarget target ∧ SystemAfter target args := by
  constructor
  · rintro ⟨before, target, bl, bl', rest, same, blank, isTarget, others⟩
    exact ⟨target, isTarget, before, bl, bl', rest, same, blank, others⟩
  · rintro ⟨target, isTarget, before, bl, bl', rest, same, blank, others⟩
    exact ⟨before, target, bl, bl', rest, same, blank, isTarget, others⟩

theorem head_of_areBlanks {bl : Text} (blank : AreBlanks bl) (nonempty : bl ≠ []) (rest : Text) :
    ∃ c, (bl ++ rest).head? = some c ∧ Text.isBlank c = true := by
  obtain ⟨c, bl, rfl⟩ := List.exists_cons_of_ne_nil nonempty
  exact ⟨c, rfl, blank c (by simp)⟩

theorem mentions_of_systemAfter {target args : Text} (placed : SystemAfter target args) : Mentions ["SYSTEM"] args := by
  obtain ⟨before, bl, bl', rest, rfl, _, blank, nonempty, blank', nonempty'⟩ := placed
  refine ⟨⟨before ++ (target ++ bl), "SYSTEM".toList, bl' ++ rest⟩, by simp, by simp, ?_, ?_⟩
  · have last : bl.getLast nonempty ∈ bl := List.getLast_mem nonempty
    simp only [List.getLast?_append, List.getLast?_eq_getLast_of_ne_nil nonempty, Option.some_or, Option.any_some]
    exact Text.isWord_of_isBlank (blank _ last)
  · obtain ⟨c, head, isBlank⟩ := head_of_areBlanks blank' nonempty' rest
    rw [head, Option.any_some]
    exact Text.isWord_of_isBlank isBlank

theorem IsTargetName.isUnquoted {t : Text} (plain : IsTargetName t) : IsUnquoted t := by
  have none : ∀ n ∈ Text.blankCodes, ¬ ((Char.ofNat n).isAlphanum = true ∨ Char.ofNat n = '_' ∨ Char.ofNat n = '-') := by
    decide +kernel
  refine ⟨plain.2, fun c member => ⟨?_, ?_⟩⟩
  · rw [Bool.eq_false_iff]
    intro blank
    have other := none _ (Text.mem_blankCodes blank)
    rw [Char.ofNat_toNat] at other
    exact other (plain.1 c member)
  · rintro rfl
    exact absurd (plain.1 _ member) (by decide)

/-- A target is unquoted unless it is a string. -/
theorem IsTarget.isUnquoted {t : Text} (isTarget : IsTarget t) : IsUnquoted t ∨ ∃ w, t = '\x22' :: w := by
  cases isTarget with
  | name plain => exact .inl plain.isUnquoted
  | string _ => exact .inr ⟨_, rfl⟩
  | @reference name plain =>
    refine .inl ⟨by simp, fun c member => ?_⟩
    have cases : c = '$' ∨ c = '\x7b' ∨ c ∈ name ∨ c = '\x7d' := by simpa using member
    rcases cases with rfl | rfl | inside | rfl
    · decide
    · decide
    · exact plain.isUnquoted.2 c inside
    · decide

/-- What is ahead of the keyword once the leading blanks are gone: the argument, and then a blank. -/
theorem SystemAfter.dropWhile {target args : Text} (placed : SystemAfter target args) {c : Char} {w : Text}
    (starts : target = c :: w) (visible : Text.isBlank c = false) :
    ∃ d rest, args.dropWhile Text.isBlank = target ++ d :: rest ∧ Text.isBlank d = true := by
  obtain ⟨before, bl, bl', rest, rfl, leading, blank, nonempty, _⟩ := placed
  obtain ⟨d, bl, rfl⟩ := List.exists_cons_of_ne_nil nonempty
  refine ⟨d, bl ++ ("SYSTEM".toList ++ (bl' ++ rest)), ?_, blank d (by simp)⟩
  rw [List.dropWhile_append_of_pos leading, starts, List.cons_append, List.dropWhile_cons_of_neg (by simp [visible])]
  rfl

/-- Blanks end an unquoted argument. So if a target comes before the keyword, it is that argument. -/
theorem SystemAfter.eq_target {target target' args : Text} (unquoted : IsUnquoted target) (isTarget : IsTarget target')
    (placed : SystemAfter target args) (placed' : SystemAfter target' args) : target = target' := by
  obtain ⟨c, w, starts⟩ := List.exists_cons_of_ne_nil unquoted.1
  obtain ⟨visible, noQuote⟩ := unquoted.2 c (by simp [starts])
  obtain ⟨d, rest, dropped, blank⟩ := placed.dropWhile starts visible
  rcases isTarget.isUnquoted with unquoted' | ⟨w', string⟩
  · obtain ⟨c', w', starts'⟩ := List.exists_cons_of_ne_nil unquoted'.1
    obtain ⟨d', rest', dropped', blank'⟩ := placed'.dropWhile starts' (unquoted'.2 c' (by simp [starts'])).1
    refine (Text.append_inj_of_run (p := fun e => !Text.isBlank e) (dropped.symm.trans dropped') ?_ ?_ ?_ ?_).1
    · intro e member
      simp [(unquoted.2 e member).1]
    · intro e member
      simp [(unquoted'.2 e member).1]
    · simp [blank]
    · simp [blank']
  · -- A string starts with a quote, and the argument does not.
    obtain ⟨d', rest', dropped', _⟩ := placed'.dropWhile string (by decide)
    have heads : c :: (w ++ d :: rest) = '\x22' :: (w' ++ d' :: rest') := by
      rw [← List.cons_append, ← List.cons_append, ← starts, ← string, ← dropped, dropped']
    exact absurd (List.cons.inj heads).1 noQuote

/-- Behind an unquoted argument the keyword is in its place if that argument is a target. -/
theorem isSystemSecond_iff_isTarget {target args : Text} (unquoted : IsUnquoted target) (placed : SystemAfter target args) :
    IsSystemSecond args ↔ IsTarget target := by
  rw [isSystemSecond_iff_exists]
  constructor
  · rintro ⟨target', isTarget, placed'⟩
    rwa [placed.eq_target unquoted isTarget placed']
  · intro isTarget
    exact ⟨target, isTarget, placed⟩

namespace Check

/-- If the first call for include directories has the SYSTEM keyword right after an unquoted argument, then the keyword is accepted
    exactly if that argument is a plain name or a plain reference. After any other argument, such as a reference with a suffix, it
    is reported although it is in its place. -/
theorem findings_of_unquotedTarget (path : Path) {t : Text} {c : Call} {target : Text}
    (first : IsFirst Call.start (IsCall ["target_include_directories"] t) c) (unquoted : IsUnquoted target)
    (placed : SystemAfter target c.arguments) :
    (systemKeyword.run path t = .ok (.first none) ↔ IsTarget target) ∧
    (((t.count '\n' + t.count '\r' + 1 : Nat) : Int) < Issue.highlightLimit → ¬ IsTarget target →
      ∃ i o, systemKeyword.run path t = .ok (.first (some i)) ∧ IsFirst Occurrence.start (IsWholeWord ["SYSTEM"] c.arguments) o ∧
        i.span.start = c.argumentsStart + o.start ∧ i.span.stop = c.argumentsStart + o.start + o.word.length) := by
  have firstSystem : IsFirst Call.start (HasSystem t) c :=
    ⟨⟨first.1, mentions_of_systemAfter placed⟩, fun c' other => first.2 c' other.1⟩
  have accepted := isSystemSecond_iff_isTarget unquoted placed
  obtain ⟨o, firstWord, ⟨second, noSpot⟩ | ⟨other, spot⟩⟩ := systemKeywordSpot_of_first firstSystem
  · have isTarget := accepted.mp second
    exact ⟨iff_of_true (run_systemKeyword_of_none path noSpot) isTarget, fun _ refused => absurd isTarget refused⟩
  · refine ⟨iff_of_false ?_ (mt accepted.mpr other), fun short _ => ?_⟩
    · intro made
      obtain ⟨i, same, _⟩ := span_of_systemKeywordSpot spot made
      cases same
    · obtain ⟨findings, made⟩ := run_ok_of_short systemKeyword_listed path short
      obtain ⟨i, rfl, bounds⟩ := span_of_systemKeywordSpot spot made
      exact ⟨i, o, made, firstWord, bounds⟩

/-- One call for include directories, of a target whose name is a reference with a suffix. -/
def suffixScript : Text :=
  "target_include_directories($\x7ba\x7d_x SYSTEM PRIVATE y)\n".toList

/-- The keyword is reported although it follows the target. -/
theorem reported_in_suffixScript :
    IsUnquoted "$\x7ba\x7d_x".toList ∧ SystemAfter "$\x7ba\x7d_x".toList "$\x7ba\x7d_x SYSTEM PRIVATE y".toList ∧
    ¬ IsTarget "$\x7ba\x7d_x".toList ∧ ∃ i, systemKeyword.run (.ofText "a.cmake".toList) suffixScript = .ok (.first (some i)) := by
  have call : IsCall ["target_include_directories"] suffixScript ⟨[], "target_include_directories".toList, [],
      "$\x7ba\x7d_x SYSTEM PRIVATE y".toList, "\n".toList⟩ := ⟨by decide +kernel, by simp, rfl, by simp, by decide⟩
  have unquoted : IsUnquoted "$\x7ba\x7d_x".toList := by simp [IsUnquoted, Text.isBlank]
  have blank : AreBlanks [' '] := by simp [AreBlanks, Text.isBlank]
  have placed : SystemAfter "$\x7ba\x7d_x".toList "$\x7ba\x7d_x SYSTEM PRIVATE y".toList :=
    ⟨[], [' '], [' '], "PRIVATE y".toList, by simp, by simp [AreBlanks], blank, by simp, blank, by simp⟩
  have refused : ¬ IsTarget "$\x7ba\x7d_x".toList := by
    rw [← isSystemSecond_iff_isTarget unquoted placed]
    exact mt (Pattern.matchWhole_systemSecond _).mpr (by decide +kernel)
  obtain ⟨i, _, made, _⟩ := (findings_of_unquotedTarget (.ofText "a.cmake".toList) ⟨call, fun c _ => Nat.zero_le _⟩
    unquoted placed).2 (by decide +kernel) refused
  exact ⟨unquoted, placed, refused, i, made⟩

end Check

end CMakeLint
