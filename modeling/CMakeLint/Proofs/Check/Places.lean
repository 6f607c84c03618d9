import CMakeLint.Proofs.Check.Calls

/-!
No check reports one place twice. The matches of one pattern follow each other, so what is reported of them is apart. Two checks
have two patterns, whose matches may overlap, but they report whole words, and no word of the one is a word of the other
(`reportsWord_setVariable`). Whole words of a text are equal or apart (`IsWholeWord.apart`), and so are all issues of a check
(`findings_apart`).
-/
namespace CMakeLint

/-- Two pieces of a text, each with its start and its end, that neither overlap nor start together. -/
def Apart (a b : Nat × Nat) : Prop :=
  (a.2 ≤ b.1 ∨ b.2 ≤ a.1) ∧ a.1 ≠ b.1

/-! ### Whole words -/

/-- Where a piece of a text starts and ends. -/
def Occurrence.bounds (o : Occurrence) : Nat × Nat :=
  (o.start, o.start + o.word.length)

namespace IsWholeWord

variable {ws ws' : List String} {t : Text} {o o' : Occurrence}

/-- Of two whole words the one that starts first ends before the other starts. -/
theorem stop_le (form : Text.areWords ws = true) (found : IsWholeWord ws t o) (found' : IsWholeWord ws' t o')
    (less : o.start < o'.start) : o.start + o.word.length ≤ o'.start := by
  by_contra inside
  -- The character before the second word belongs to the first one.
  have before : o'.before = o.before ++ o.word.take (o'.start - o.start) := by
    have taken : o'.before = t.take o'.start := by rw [← found'.text_eq, Occurrence.start, List.take_left]
    rw [taken, ← found.text_eq, List.take_append, List.take_of_length_le (Nat.le_of_lt less)]
    rw [List.take_append_of_le_length (by simp only [Occurrence.start] at *; omega)]
    rfl
  have nonempty : o.word.take (o'.start - o.start) ≠ [] := by
    rw [Ne, List.take_eq_nil_iff, not_or]
    exact ⟨by omega, (Text.mem_areWords form found.listed).1⟩
  have opens := found'.opens
  rw [before, List.getLast?_append, List.getLast?_eq_getLast_of_ne_nil nonempty, Option.some_or, Option.any_some] at opens
  have letter := (Text.mem_areWords form found.listed).2 _ (List.mem_of_mem_take (List.getLast_mem nonempty))
  rw [opens] at letter
  cases letter

/-- Different whole words of a text are apart. -/
theorem apart (form : Text.areWords ws = true) (found : IsWholeWord ws t o) (found' : IsWholeWord ws t o')
    (differ : o.word ≠ o'.word) : Apart o.bounds o'.bounds := by
  rcases Nat.lt_trichotomy o.start o'.start with less | same | greater
  · exact ⟨.inl (found.stop_le form found' less), Nat.ne_of_lt less⟩
  · exact absurd (congrArg Occurrence.word (found.unique form found' same)) differ
  · exact ⟨.inr (found'.stop_le form found greater), Nat.ne_of_gt greater⟩

theorem mono (sub : ws ⊆ ws') (found : IsWholeWord ws t o) : IsWholeWord ws' t o :=
  ⟨found.text_eq, List.map_subset _ sub found.listed, found.opens, found.closes⟩

end IsWholeWord

theorem Call.head_tail {names : List String} {t : Text} {c : Call} (call : IsCall names t c) :
    c.tail.head?.any Text.isWord = false := by
  rw [tail]
  cases blanks : c.blanks with
  | nil => exact (by decide +kernel : Text.isWord '(' = false)
  | cons d bl => exact Text.isWord_of_isBlank (call.blank d (by simp [blanks]))

/-- The name of a call is a whole word. -/
theorem IsCall.wholeWord {names : List String} {t : Text} {c : Call} (call : IsCall names t c) :
    IsWholeWord names t ⟨c.before, c.name, c.tail⟩ :=
  ⟨call.text_eq, call.named, call.opens, Call.head_tail call⟩

/-- A whole word of the arguments of a call is one of the text. -/
theorem IsCall.wholeWord_of_arguments {names ws : List String} {t : Text} {c : Call} (call : IsCall names t c) {o : Occurrence}
    (found : IsWholeWord ws c.arguments o) :
    ∃ o', IsWholeWord ws t o' ∧ o'.bounds = (c.argumentsStart + o.start, c.argumentsStart + o.start + o.word.length) := by
  refine ⟨⟨c.before ++ (c.name ++ (c.blanks ++ ['('])) ++ o.before, o.word, o.after ++ ')' :: c.after⟩,
    ⟨?_, found.listed, ?_, ?_⟩, ?_⟩
  · rw [← call.text_eq, Call.text, Call.tail, ← found.text_eq]
    simp
  · exact (Text.last_append_of_edge (Text.last_bracket _ _ _) _).trans found.opens
  · exact (Text.head_append_of_edge (by decide +kernel) _ _).trans found.closes
  · simp [Occurrence.bounds, Occurrence.start, Call.argumentsStart, Call.nameStop, Call.start]
    omega

/-! ### Words that are reported -/

namespace Pattern

/-- The first group of a match is always one of some whole words. -/
structure ReportsWord (p : Pattern) (ws : List String) : Prop where
  exists_word : ∀ {t m}, FirstAt p t m → ∃ o, IsWholeWord ws t o ∧ m.group? 1 = some o.bounds

variable {ws : List String}

theorem reportsWord_callNamed (form : Text.areWords ws = true) : (callNamed ws).ReportsWord ws := by
  constructor
  intro t m found
  have same : callNamed ws = callOf (some 1) none ws := rfl
  rw [same, firstAt_call_iff form] at found
  obtain ⟨c, call, rfl⟩ := found
  exact ⟨_, call.wholeWord, rfl⟩

theorem reportsWord_callContaining {name : String} (named : Text.areWords [name] = true) (form : Text.areWords ws = true) :
    (callContaining name ws).ReportsWord ws := by
  constructor
  intro t m found
  rw [FirstAt, ends_callContaining, ← FirstAt, firstAt_containing_iff named form] at found
  obtain ⟨c, o, call, first, rfl⟩ := found
  obtain ⟨o', found', bounds⟩ := call.wholeWord_of_arguments first.1
  exact ⟨o', found', by rw [bounds]; rfl⟩

/-- A pattern takes one of some words and remembers it as the first group. -/
def TakesWord (p : Pattern) (ws : List String) : Prop :=
  ∀ u v captures s, s ∈ p.ends false (.between u v captures) →
    ∃ w ∈ ws.map String.toList, ∃ v', v = w ++ v' ∧ s = .between (u ++ w) v' ((1, u.length, u.length + w.length) :: captures)

theorem takesWord_group (form : Text.areWords ws = true) : (group 1 (words ws)).TakesWord ws := by
  intro u v captures s member
  obtain ⟨_, taken, rfl⟩ := mem_group.mp member
  obtain ⟨w, listed, v', rfl, rfl⟩ := (mem_words (Text.areWords_ne_nil form)).mp taken
  exact ⟨w, listed, v', rfl, by simp [Attempt.between]⟩

theorem takesWord_edge {p : Pattern} (takes : p.TakesWord ws) : (sequence [edge, p]).TakesWord ws := by
  intro u v captures s member
  have split : (sequence [edge, p]).ends false (.between u v captures) =
      (edge.ends false (.between u v captures)).flatMap (p.ends false) := rfl
  rw [split, List.mem_flatMap] at member
  obtain ⟨_, edged, taken⟩ := member
  obtain ⟨_, rfl⟩ := mem_edge.mp edged
  exact takes u v captures s taken

theorem last_of_blanks {w : Text} (blank : ∀ c ∈ w, Text.isBlank c = true) : w.getLast?.any Text.isWord = false := by
  cases last : w.getLast? with
  | none => rfl
  | some c => exact Text.isWord_of_isBlank (blank c (List.mem_of_getLast? last))

/-- The variable that is set stands between a bracket or a blank and the edge of a word. -/
theorem reportsWord_setVariable (form : Text.areWords ws = true) {p : Pattern} (takes : p.TakesWord ws) :
    (setVariable p).ReportsWord ws := by
  constructor
  rintro _ _ ⟨u, v, s, rfl, head, rfl⟩
  have isCall : setVariable p = call (remembered none (words ["set"])) (sequence [blanks, p, edge, arguments]) := rfl
  have member := List.mem_of_head? head
  rw [isCall] at member
  obtain ⟨_, name, _, bl, v', rfl, _, rest⟩ := (mem_call (by decide +kernel)).mp member
  have split : ∀ s, (seq (sequence [blanks, p, edge, arguments]) (char ')')).ends false s =
      ((blanks.ends false s).flatMap fun s => (p.ends false s).flatMap fun s => (edge.ends false s).flatMap
        (arguments.ends false)).flatMap ((char ')').ends false) := fun _ => rfl
  simp only [split, List.mem_flatMap] at rest
  obtain ⟨_, ⟨_, skipped, _, taken, _, edged, more⟩, closed⟩ := rest
  obtain ⟨bl', v₁, rfl, blank, rfl⟩ := mem_blanks.mp skipped
  obtain ⟨w, listed, v₂, rfl, rfl⟩ := takes _ _ _ _ taken
  obtain ⟨isEdge, rfl⟩ := mem_edge.mp edged
  obtain ⟨args, v₃, rfl, _, rfl⟩ := mem_arguments.mp more
  obtain ⟨after, rfl, rfl⟩ := mem_char.mp closed
  obtain ⟨nonempty, isWord⟩ := Text.mem_areWords form listed
  refine ⟨⟨u ++ (name ++ (bl ++ ['('])) ++ bl', w, args ++ ')' :: after⟩, ⟨?_, listed, ?_, ?_⟩, rfl⟩
  · simp
  · exact (Text.last_append_of_edge (Text.last_bracket _ _ _) _).trans (last_of_blanks blank)
  · exact (Text.edge_after nonempty isWord).mp isEdge

end Pattern

/-! ### Spots and issues -/

/-- Two spots whose groups are apart. -/
def Spot.Apart (s s' : Spot) : Prop :=
  ∀ a b, s.found.group? s.group = some a → s'.found.group? s'.group = some b → CMakeLint.Apart a b

/-- Two issues at different places: their spans neither overlap nor start together, and they are reported at different positions. -/
structure Issue.Apart (i j : Issue) : Prop where
  disjoint : i.span.stop ≤ j.span.start ∨ j.span.stop ≤ i.span.start
  starts : i.span.start ≠ j.span.start
  positions : i.position ≠ j.position

/-- Matches that follow each other have groups that are apart, even if these are empty. -/
theorem Pattern.Placed.apart {t : Text} {number : Nat} {m m' : Match} (placed : Placed t number m) (placed' : Placed t number m')
    (follows : m.stop ≤ m'.start) {a b : Nat × Nat} (group : m.group? number = some a) (group' : m'.group? number = some b) :
    Apart a b := by
  obtain ⟨start, stop, here, after, ordered, before, early⟩ := placed.group
  obtain ⟨start', stop', here', after', ordered', before', early'⟩ := placed'.group
  rw [here] at group
  rw [here'] at group'
  cases group
  cases group'
  exact ⟨.inl (by simp only; omega), by simp only; omega⟩

theorem Issue.Reports.apart {check : Check} {t : Text} {s s' : Spot} {i j : Issue} (reports : i.Reports check t s)
    (reports' : j.Reports check t s') (apart : s.Apart s') : i.Apart j := by
  obtain ⟨disjoint, starts⟩ := apart _ _ reports.group_eq reports'.group_eq
  refine ⟨disjoint, starts, ?_⟩
  rw [reports.grounded.position_eq, reports'.grounded.position_eq]
  intro same
  exact starts (Position.ofOffset_injective (Nat.le_of_lt reports.placed.starts) (Nat.le_of_lt reports'.placed.starts) same)

namespace Check

/-- Two patterns of a rule report different words. -/
def ReportsOtherWords (rule : Matching) (p q : Pattern) : Prop :=
  reportedGroup rule p = 1 ∧ reportedGroup rule q = 1 ∧ ∃ ws ws', p.ReportsWord ws ∧ q.ReportsWord ws' ∧
    Text.areWords (ws ++ ws') = true ∧ ∀ w ∈ ws.map String.toList, w ∉ ws'.map String.toList

/-- Whether a rule has several patterns. -/
def hasSeveralPatterns : Rule → Bool
  | .matching rule => 1 < rule.patterns.length
  | _ => false

/-- Whether the case of letters matters for the patterns of a rule. -/
def isCaseSensitive : Rule → Bool
  | .matching rule => !rule.ignoreCase
  | _ => true

theorem catalog_severalPatterns :
    catalog.filter (fun check => hasSeveralPatterns check.rule) = [languageStandard, compileOptions] := rfl

theorem catalog_isCaseSensitive : ∀ check ∈ catalog, isCaseSensitive check.rule = true := by
  decide +kernel

variable {check : Check} {rule : Matching} {t : Text}

theorem catalog_reportsOtherWords (listed : check ∈ catalog) (matching : check.rule = .matching rule) :
    rule.patterns.Pairwise (ReportsOtherWords rule) := by
  by_cases several : hasSeveralPatterns check.rule = true
  · have two : check ∈ catalog.filter fun check => hasSeveralPatterns check.rule := List.mem_filter.mpr ⟨listed, several⟩
    rw [catalog_severalPatterns, List.mem_cons, List.mem_singleton] at two
    rcases two with rfl | rfl
    · cases matching
      refine List.pairwise_pair.mpr ⟨by decide +kernel, by decide +kernel, ["CXX_STANDARD", "C_STANDARD"],
        ["CMAKE_CXX_STANDARD", "CMAKE_C_STANDARD"], ?_, ?_, by decide +kernel, by decide +kernel⟩
      · exact Pattern.reportsWord_callContaining (by decide +kernel) (by decide +kernel)
      · refine Pattern.reportsWord_setVariable (by decide +kernel) (Pattern.takesWord_edge (Pattern.takesWord_group ?_))
        decide +kernel
    · cases matching
      refine List.pairwise_pair.mpr ⟨by decide +kernel, by decide +kernel, ["add_compile_options"],
        ["CMAKE_CXX_FLAGS", "CMAKE_C_FLAGS"], ?_, ?_, by decide +kernel, by decide +kernel⟩
      · exact Pattern.reportsWord_callNamed (by decide +kernel)
      · exact Pattern.reportsWord_setVariable (by decide +kernel) (Pattern.takesWord_group (by decide +kernel))
  · rw [matching, hasSeveralPatterns, decide_eq_true_iff, Nat.not_lt] at several
    exact pairwise_of_length_le_one several

/-- What is reported of the matches of one pattern is apart. -/
theorem patternSpots_apart {p : Pattern} (sensitive : rule.ignoreCase = false) (positive : 0 < reportedGroup rule p)
    (form : p.reportsOnLines false (reportedGroup rule p) = true) : (patternSpots check rule t p).Pairwise Spot.Apart := by
  have placed : ∀ m ∈ p.findAll false t, Pattern.Placed t (reportedGroup rule p) m := fun m member =>
    (Pattern.findAll_isMatch member).placed positive form
  have follows : (p.findAll false t).Pairwise fun m m' => m.stop ≤ m'.start :=
    (Pattern.findAll_scan (Pattern.consumes_of_reportsOnLines form) t).pairwise fun m found =>
      Nat.le_of_lt (found.moved (Pattern.consumes_of_reportsOnLines form)).1
  rw [patternSpots, sensitive, List.pairwise_filterMap]
  refine follows.imp_of_mem ?_
  intro m m' member member' later s taken s' taken' a b group group'
  obtain ⟨rfl, number⟩ := of_matchSpot taken
  obtain ⟨rfl, number'⟩ := of_matchSpot taken'
  rw [number] at group
  rw [number'] at group'
  exact (placed _ member).apart (placed _ member') later group group'

/-- What is reported of patterns for different words is apart, even if the matches overlap. -/
theorem apart_of_reportsOtherWords {p q : Pattern} (sensitive : rule.ignoreCase = false) (form : p.consumes = true)
    (form' : q.consumes = true) (others : ReportsOtherWords rule p q) {s s' : Spot} (member : s ∈ patternSpots check rule t p)
    (member' : s' ∈ patternSpots check rule t q) : s.Apart s' := by
  intro a b group group'
  obtain ⟨number, number', ws, ws', reports, reports', words, differ⟩ := others
  obtain ⟨m, matched, taken⟩ := List.mem_filterMap.mp member
  obtain ⟨m', matched', taken'⟩ := List.mem_filterMap.mp member'
  rw [sensitive] at matched matched'
  obtain ⟨rfl, reported⟩ := of_matchSpot taken
  obtain ⟨rfl, reported'⟩ := of_matchSpot taken'
  obtain ⟨o, found, bounds⟩ := reports.exists_word ((Pattern.findAll_scan form t).found _ matched)
  obtain ⟨o', found', bounds'⟩ := reports'.exists_word ((Pattern.findAll_scan form' t).found _ matched')
  rw [reported, number, bounds] at group
  rw [reported', number', bounds'] at group'
  cases group
  cases group'
  refine (found.mono (List.subset_append_left _ _)).apart words (found'.mono (List.subset_append_right _ _)) ?_
  intro same
  exact differ _ found.listed (same ▸ found'.listed)

theorem spots_apart (listed : check ∈ catalog) (path : Path) (t : Text) : (check.spots path t).Pairwise Spot.Apart := by
  cases matching : check.rule with
  | matching rule =>
    have form := catalog_placesSpots check listed
    have sensitive := catalog_isCaseSensitive check listed
    have others := catalog_reportsOtherWords listed matching
    rw [matching] at form sensitive
    rw [isCaseSensitive, Bool.not_eq_true'] at sensitive
    have lines : ∀ p ∈ rule.patterns, 0 < reportedGroup rule p ∧ p.reportsOnLines false (reportedGroup rule p) = true := by
      intro p member
      obtain ⟨positive, lines⟩ := Bool.and_eq_true_iff.mp (List.all_eq_true.mp form p member)
      exact ⟨of_decide_eq_true positive, sensitive ▸ lines⟩
    have consumes : ∀ p ∈ rule.patterns, p.consumes = true := fun p member =>
      Pattern.consumes_of_reportsOnLines (lines p member).2
    have split : check.spots path t = rule.patterns.flatMap (patternSpots check rule t) := by
      rw [spots, matching]
      rfl
    rw [split, List.pairwise_flatMap]
    refine ⟨fun p member => patternSpots_apart sensitive (lines p member).1 (lines p member).2, others.imp_of_mem ?_⟩
    intro p q member member' differ s spot s' spot'
    exact apart_of_reportsOtherWords sensitive (consumes p member) (consumes q member') differ spot spot'
  | _ =>
    have single : ∀ m, check.rule ≠ .matching m := by simp [matching]
    exact pairwise_of_length_le_one (spots_length_le_one single path t)

/-- No check reports one place twice, also if it has two patterns whose matches overlap. -/
theorem findings_apart (listed : check ∈ catalog) {path : Path} {findings : Findings} (made : check.run path t = .ok findings) :
    findings.toList.Pairwise Issue.Apart :=
  pairwise_of_forall₂ (run_forall_reports (catalog_placesSpots check listed) made) (spots_apart listed path t)
    fun _ _ _ _ reports reports' apart => reports.apart reports' apart

/-- A call with a word of one pattern, and inside of it a call of `set` with a word of the other. -/
def overlappingScript : Text :=
  "set_target_properties(a set(CMAKE_CXX_STANDARD CXX_STANDARD)\n".toList

/-- The matches overlap, and the two issues are apart. -/
theorem apart_in_overlappingScript :
    (languageStandard.spots (.ofText "a.cmake".toList) overlappingScript).map (fun s => (s.found.start, s.found.stop)) =
      [(0, 60), (24, 60)] ∧
    ∃ i j, languageStandard.run (.ofText "a.cmake".toList) overlappingScript = .ok (.all [i, j]) ∧ i.Apart j := by
  have listed : languageStandard ∈ catalog := by simp [catalog]
  have places : (languageStandard.spots (.ofText "a.cmake".toList) overlappingScript).map
      (fun s => (s.found.start, s.found.stop)) = [(0, 60), (24, 60)] := by decide +kernel
  obtain ⟨findings, made⟩ := run_ok_of_short listed (.ofText "a.cmake".toList) (t := overlappingScript) (by decide +kernel)
  have all : findings = .all findings.toList := findings_eq_all rfl made
  have apart := findings_apart listed made
  have two : findings.toList.length = 2 := by
    have count := congrArg List.length places
    rw [List.length_map, (run_forall_reports (catalog_placesSpots _ listed) made).length_eq] at count
    exact count
  obtain ⟨i, j, issues⟩ := List.length_eq_two.mp two
  rw [issues] at all apart
  exact ⟨places, i, j, all ▸ made, List.pairwise_pair.mp apart⟩

end Check

end CMakeLint
