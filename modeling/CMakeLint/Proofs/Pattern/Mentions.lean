import CMakeLint.Proofs.Lists
import CMakeLint.Proofs.Pattern.Calls

/-!
Patterns that look for words. A search for whole words succeeds exactly in the texts that contain one (`search_anyWord`). A
pattern of a call with a word among its arguments matches exactly the calls whose arguments contain the word. Such a call may
contain it more than once, and it is the first of these words that is remembered, since the arguments before it are kept as
short as possible (`firstAt_containing_iff`).
-/
namespace CMakeLint

/-- At most one word stands at a place as a whole word. -/
theorem IsWholeWord.unique {ws : List String} (form : Text.areWords ws = true) {t : Text} {o o' : Occurrence}
    (found : IsWholeWord ws t o) (found' : IsWholeWord ws t o') (same : o.start = o'.start) : o = o' := by
  obtain ⟨before, word, after⟩ := o
  obtain ⟨before', word', after'⟩ := o'
  obtain ⟨text, listed, _, closes⟩ := found
  obtain ⟨text', listed', _, closes'⟩ := found'
  simp only [Occurrence.start] at text text' same listed listed' closes closes'
  obtain ⟨rfl, fromWord⟩ := List.append_inj (text.trans text'.symm) same
  obtain ⟨rfl, rfl⟩ := Text.append_inj_of_run fromWord (Text.mem_areWords form listed).2 (Text.mem_areWords form listed').2
    closes closes'
  rfl

theorem Text.last_append_of_edge {u : Text} (edge : u.getLast?.any isWord = false) (w : Text) :
    (u ++ w).getLast?.any isWord = w.getLast?.any isWord := by
  rw [List.getLast?_append]
  cases w.getLast? with
  | none => exact edge
  | some c => rfl

theorem Text.head_append_of_edge {c : Char} (edge : isWord c = false) (w v : Text) :
    (w ++ c :: v).head?.any isWord = w.head?.any isWord := by
  cases w with
  | nil => exact edge
  | cons d w => rfl

/-- An opening bracket is no word character. -/
theorem Text.last_bracket (u w v : Text) : (u ++ (w ++ (v ++ ['(']))).getLast?.any isWord = false := by
  rw [← List.append_assoc, ← List.append_assoc, List.getLast?_concat]
  decide +kernel

namespace Pattern

variable {u v : Text} {captures : List (Nat × Nat × Nat)} {s : Attempt} {ws : List String}

/-! ### Whole words anywhere -/

theorem mem_anyWord (form : Text.areWords ws = true) : s ∈ (anyWord ws).ends false (.between u v captures) ↔
    ∃ w ∈ ws.map String.toList, ∃ v', v = w ++ v' ∧ u.getLast?.any Text.isWord = false ∧
      v'.head?.any Text.isWord = false ∧ s = .between (u ++ w) v' captures := by
  have split : (anyWord ws).ends false (.between u v captures) = (edge.ends false (.between u v captures)).flatMap fun s =>
      ((words ws).ends false s).flatMap (edge.ends false) := rfl
  simp only [split, List.mem_flatMap, mem_edge]
  constructor
  · rintro ⟨_, ⟨isEdge, rfl⟩, _, taken, last⟩
    obtain ⟨w, listed, v', rfl, rfl⟩ := (mem_words (Text.areWords_ne_nil form)).mp taken
    obtain ⟨isEdge', rfl⟩ := mem_edge.mp last
    obtain ⟨nonempty, word⟩ := Text.mem_areWords form listed
    exact ⟨w, listed, v', rfl, (Text.edge_before nonempty word).mp isEdge, (Text.edge_after nonempty word).mp isEdge', rfl⟩
  · rintro ⟨w, listed, v', rfl, opens, closes, rfl⟩
    obtain ⟨nonempty, word⟩ := Text.mem_areWords form listed
    exact ⟨_, ⟨(Text.edge_before nonempty word).mpr opens, rfl⟩, _,
      (mem_words (Text.areWords_ne_nil form)).mpr ⟨w, listed, v', rfl, rfl⟩,
      mem_edge.mpr ⟨(Text.edge_after nonempty word).mpr closes, rfl⟩⟩

/-- A search for whole words finds one if there is one. -/
theorem search_anyWord (form : Text.areWords ws = true) (t : Text) :
    ((anyWord ws).search false t).isSome = true ↔ Mentions ws t := by
  rcases search_cases (anyWord ws) t with ⟨m, searched, ⟨u, v, s, rfl, head, _⟩, _⟩ | ⟨searched, none⟩
  · rw [searched]
    obtain ⟨w, listed, v', rfl, opens, closes, _⟩ := (mem_anyWord form).mp (List.mem_of_head? head)
    exact iff_of_true rfl ⟨⟨u, w, v'⟩, rfl, listed, opens, closes⟩
  · rw [searched]
    refine iff_of_false Bool.false_ne_true ?_
    rintro ⟨⟨before, word, after⟩, rfl, listed, opens, closes⟩
    have member : Attempt.between (before ++ word) after [] ∈
        (anyWord ws).ends false (.between before (word ++ after) []) :=
      (mem_anyWord form).mpr ⟨word, listed, after, rfl, opens, closes, rfl⟩
    obtain ⟨s, others, tried⟩ := List.exists_cons_of_ne_nil (List.ne_nil_of_mem member)
    exact none _ ⟨before, word ++ after, s, rfl, by rw [tried]; rfl, rfl⟩

/-! ### Pieces that can be taken in one way only -/

theorem ends_literal (w : Text) : (literal w).ends false (.between u (w ++ v) captures) = [.between (u ++ w) v captures] := by
  induction w generalizing u with
  | nil => simp [literal, sequence, ends]
  | cons c w ih =>
    have step : (literal (c :: w)).ends false (.between u (c :: w ++ v) captures) =
        ((char c).ends false (.between u (c :: (w ++ v)) captures)).flatMap ((literal w).ends false) := ends_sequence_cons _ _ _
    have first : (char c).ends false (.between u (c :: (w ++ v)) captures) = [.between (u ++ [c]) (w ++ v) captures] := by
      simp [char, ends, CharClass.accepts, CharClass.char, CharClass.contains, Member.accepts, Attempt.between]
    rw [step, first, List.flatMap_singleton, ih, List.append_assoc, List.singleton_append]

/-- Among blanks there is no bracket. -/
theorem ends_bracket_of_blank {bl : Text} (blank : ∀ d ∈ bl, Text.isBlank d = true) {k : Nat} (inside : k < bl.length) :
    (char '(').ends false (.between u ((bl ++ '(' :: v).drop k) captures) = [] := by
  rw [List.eq_nil_iff_forall_not_mem]
  intro s taken
  obtain ⟨v', split, _⟩ := mem_char.mp taken
  rw [List.drop_append_of_le_length (Nat.le_of_lt inside), List.drop_eq_getElem_cons inside, List.cons_append] at split
  have isBlank := blank _ (List.getElem_mem inside)
  rw [(List.cons.inj split).1] at isBlank
  exact absurd isBlank (by decide +kernel)

/-- Blanks before a bracket are all taken: from any fewer of them the next character is no bracket. -/
theorem ends_blanks {bl : Text} (blank : ∀ d ∈ bl, Text.isBlank d = true) (q : Pattern) :
    (seq blanks (seq (char '(') q)).ends false (.between u (bl ++ '(' :: v) captures) =
      q.ends false (.between (u ++ (bl ++ ['('])) v captures) := by
  have refused : ¬ CharClass.blank.accepts false '(' = true := by decide +kernel
  have places : blanks.ends false (.between u (bl ++ '(' :: v) captures) = (List.range (bl.length + 1)).reverse.map fun k =>
      .between (u ++ (bl ++ '(' :: v).take k) ((bl ++ '(' :: v).drop k) captures := by
    rw [blanks, ends_many_of_run _ (fun d member => accepts_blank.mpr (blank d member)) refused]
    simp only [Repetition.select, Repetition.star, ↓reduceIte, List.drop_zero, ← List.map_reverse, List.map_map]
    rfl
  have rest : ((List.range bl.length).reverse.map fun k =>
      Attempt.between (u ++ (bl ++ '(' :: v).take k) ((bl ++ '(' :: v).drop k) captures).flatMap
        (fun s => ((char '(').ends false s).flatMap (q.ends false)) = [] := by
    rw [List.flatMap_eq_nil_iff]
    intro s member
    obtain ⟨k, inside, rfl⟩ := List.mem_map.mp member
    rw [List.mem_reverse, List.mem_range] at inside
    rw [ends_bracket_of_blank blank inside]
    rfl
  have opened : (char '(').ends false (.between (u ++ bl) ('(' :: v) captures) = [.between (u ++ (bl ++ ['('])) v captures] := by
    have literally : (literal ['(']).ends false (.between (u ++ bl) (['('] ++ v) captures) = _ := ends_literal ['(']
    rwa [List.append_assoc] at literally
  change (blanks.ends false _).flatMap (fun s => ((char '(').ends false s).flatMap (q.ends false)) = _
  rw [places, List.range_succ, List.reverse_append, List.map_append, List.flatMap_append, rest, List.append_nil]
  simp [opened]

/-- In a call nothing is left open up to its opening bracket. -/
theorem ends_call {name : String} (form : Text.areWords [name] = true) (opens : u.getLast?.any Text.isWord = false) {bl : Text}
    (blank : ∀ d ∈ bl, Text.isBlank d = true) (args : Pattern) :
    (call (word name) args).ends false (.between u (name.toList ++ (bl ++ '(' :: v)) captures) =
      (seq args (char ')')).ends false (.between (u ++ (name.toList ++ (bl ++ ['(']))) v captures) := by
  obtain ⟨nonempty, isWord⟩ := Text.mem_areWords form (List.mem_singleton.mpr rfl)
  have isEdge : edge.ends false (.between u (name.toList ++ (bl ++ '(' :: v)) captures) =
      [.between u (name.toList ++ (bl ++ '(' :: v)) captures] :=
    if_pos (bne_iff_ne.mpr ((Text.edge_before nonempty isWord).mpr opens))
  have split : (call (word name) args).ends false (.between u (name.toList ++ (bl ++ '(' :: v)) captures) =
      (edge.ends false (.between u (name.toList ++ (bl ++ '(' :: v)) captures)).flatMap fun s =>
        ((literal name.toList).ends false s).flatMap ((seq blanks (seq (char '(') (seq args (char ')')))).ends false) := rfl
  rw [split, isEdge, List.flatMap_singleton, ends_literal, List.flatMap_singleton, ends_blanks blank]
  simp only [List.append_assoc]

/-! ### Words among the arguments of a call -/

/-- One of some whole words, remembered under a number, and the arguments after it. -/
def wordAhead (number : Nat) (ws : List String) : Pattern :=
  sequence [edge, group number (words ws), edge, arguments]

/-- A call of a command with one of some whole words among its arguments, which is remembered under a number. The arguments are
    remembered too if a number is given for them. -/
def callWith (argumentsGroup : Option Nat) (wordGroup : Nat) (name : String) (ws : List String) : Pattern :=
  call (word name) (remembered argumentsGroup (seq arguments (wordAhead wordGroup ws)))

theorem includeDirectoriesWithSystem_eq :
    includeDirectoriesWithSystem = callWith (some 1) 2 "target_include_directories" ["SYSTEM"] := rfl

theorem ends_seq_assoc (p q r : Pattern) : (seq (seq p q) r).ends false = (seq p (seq q r)).ends false := by
  funext s
  exact List.flatMap_assoc

theorem ends_seq_congr {p p' q q' : Pattern} (same : p.ends false = p'.ends false) (same' : q.ends false = q'.ends false) :
    (seq p q).ends false = (seq p' q').ends false := by
  funext s
  rw [ends, ends, same, same']

theorem ends_callContaining (name : String) : (callContaining name ws).ends false = (callWith none 1 name ws).ends false := by
  have ahead : (seq (wholeWord ws) arguments).ends false = (wordAhead 1 ws).ends false :=
    (ends_seq_assoc _ _ _).trans (ends_seq_congr rfl (ends_seq_assoc _ _ _))
  have args : (seq (seq arguments (seq (wholeWord ws) arguments)) (char ')')).ends false =
      (seq (seq arguments (wordAhead 1 ws)) (char ')')).ends false := ends_seq_congr (ends_seq_congr rfl ahead) rfl
  exact ends_seq_congr rfl (ends_seq_congr rfl (ends_seq_congr rfl (ends_seq_congr rfl args)))

theorem mem_wordAhead (form : Text.areWords ws = true) {number : Nat} :
    s ∈ (wordAhead number ws).ends false (.between u v captures) ↔
      ∃ w ∈ ws.map String.toList, ∃ more v', v = w ++ (more ++ v') ∧ u.getLast?.any Text.isWord = false ∧
        (more ++ v').head?.any Text.isWord = false ∧ ')' ∉ more ∧
        s = .between (u ++ (w ++ more)) v' ((number, u.length, u.length + w.length) :: captures) := by
  have split : (wordAhead number ws).ends false (.between u v captures) =
      (edge.ends false (.between u v captures)).flatMap fun s => ((group number (words ws)).ends false s).flatMap
        fun s => (edge.ends false s).flatMap (arguments.ends false) := rfl
  have grouped : ∀ w v', (⟨(Attempt.between (u ++ w) v' captures).cursor, (number, u.length,
      (Attempt.between (u ++ w) v' captures).cursor.position) :: captures⟩ : Attempt) =
      .between (u ++ w) v' ((number, u.length, u.length + w.length) :: captures) := by
    intro w v'
    simp [Attempt.between]
  simp only [split, List.mem_flatMap, mem_edge]
  constructor
  · rintro ⟨_, ⟨isEdge, rfl⟩, _, taken, _, last, rest⟩
    obtain ⟨_, word, rfl⟩ := mem_group.mp taken
    obtain ⟨w, listed, v₁, rfl, rfl⟩ := (mem_words (Text.areWords_ne_nil form)).mp word
    simp only [Attempt.between_captures, grouped] at last
    obtain ⟨isEdge', rfl⟩ := mem_edge.mp last
    obtain ⟨more, v', rfl, plain, rfl⟩ := mem_arguments.mp rest
    obtain ⟨nonempty, isWord⟩ := Text.mem_areWords form listed
    exact ⟨w, listed, more, v', rfl, (Text.edge_before nonempty isWord).mp isEdge, (Text.edge_after nonempty isWord).mp isEdge',
      plain, by rw [List.append_assoc]⟩
  · rintro ⟨w, listed, more, v', rfl, opens, closes, plain, rfl⟩
    obtain ⟨nonempty, isWord⟩ := Text.mem_areWords form listed
    refine ⟨_, ⟨(Text.edge_before nonempty isWord).mpr opens, rfl⟩, _, mem_group.mpr ⟨_,
      (mem_words (Text.areWords_ne_nil form)).mpr ⟨w, listed, _, rfl, rfl⟩, (grouped w _).symm⟩, _,
      mem_edge.mpr ⟨(Text.edge_after nonempty isWord).mpr closes, rfl⟩, mem_arguments.mpr ⟨more, v', rfl, plain, ?_⟩⟩
    rw [List.append_assoc]

/-- All ways to match the rest of a call if the word stands after the first `k` characters of its arguments. -/
def closings (argumentsGroup : Option Nat) (number : Nat) (ws : List String) (u v : Text)
    (captures : List (Nat × Nat × Nat)) (k : Nat) : List Attempt :=
  ((wordAhead number ws).ends false (.between (u ++ v.take k) (v.drop k) captures)).flatMap fun s =>
    (char ')').ends false ⟨s.cursor, groupOf argumentsGroup u.length s.cursor.position ++ s.captures⟩

/-- The arguments before the word are kept as short as possible. -/
theorem ends_arguments {argumentsGroup : Option Nat} {number : Nat} {args after : Text} (plain : ')' ∉ args) :
    (seq (remembered argumentsGroup (seq arguments (wordAhead number ws))) (char ')')).ends false
        (.between u (args ++ ')' :: after) captures) =
      (List.range (args.length + 1)).flatMap (closings argumentsGroup number ws u (args ++ ')' :: after) captures) := by
  have accepted : ∀ d ∈ args, (CharClass.except ')').accepts false d = true := by
    intro d member
    rw [accepts_except]
    rintro rfl
    exact plain member
  have refused : ¬ (CharClass.except ')').accepts false ')' = true := by simp [accepts_except]
  have places : arguments.ends false (.between u (args ++ ')' :: after) captures) =
      (List.range (args.length + 1)).map fun k =>
        .between (u ++ (args ++ ')' :: after).take k) ((args ++ ')' :: after).drop k) captures := by
    rw [arguments, ends_many_of_run _ accepted refused]
    simp only [Repetition.select, Repetition.lazyStar, Bool.false_eq_true, ↓reduceIte, List.drop_zero, List.map_map]
    rfl
  rw [ends, ends_remembered, ends, places]
  simp only [List.flatMap_map, List.flatMap_assoc]
  rfl

variable {argumentsGroup : Option Nat} {number : Nat} {name : String}

/-- The place after a call, with the groups for its arguments and for a word among these. -/
def endWith (argumentsGroup : Option Nat) (number : Nat) (u args after : Text) (captures : List (Nat × Nat × Nat))
    (o : Occurrence) : Attempt :=
  .between (u ++ (args ++ [')'])) after (groupOf argumentsGroup u.length (u.length + args.length) ++
    (number, u.length + o.start, u.length + o.start + o.word.length) :: captures)

/-- Neither of the brackets of a call is a word character, so the words among its arguments are those of its arguments alone. -/
theorem mem_closings (form : Text.areWords ws = true) (opens : u.getLast?.any Text.isWord = false) {args after : Text}
    (plain : ')' ∉ args) {k : Nat} (inside : k ≤ args.length) :
    s ∈ closings argumentsGroup number ws u (args ++ ')' :: after) captures k ↔
      ∃ o, IsWholeWord ws args o ∧ o.start = k ∧ s = endWith argumentsGroup number u args after captures o := by
  have bracket : Text.isWord ')' = false := by decide +kernel
  have taken : (args ++ ')' :: after).take k = args.take k := List.take_append_of_le_length inside
  have left : (args ++ ')' :: after).drop k = args.drop k ++ ')' :: after := List.drop_append_of_le_length inside
  rw [closings, List.mem_flatMap, taken, left]
  simp only [mem_wordAhead form, Text.last_append_of_edge opens]
  constructor
  · rintro ⟨_, ⟨w, listed, more, v', split, starts, stops, closed, rfl⟩, last⟩
    obtain ⟨after', rfl, rfl⟩ := mem_char.mp last
    have word : ')' ∉ w := fun member => by simp [(Text.mem_areWords form listed).2 _ member] at bracket
    have none : ')' ∉ w ++ more := by simp [word, closed]
    have same : args.drop k ++ ')' :: after = (w ++ more) ++ ')' :: after' := by rw [split, List.append_assoc]
    obtain ⟨ahead, rfl⟩ := Text.append_cons_inj same (fun member => plain (List.drop_subset k args member)) none
    have length : (args.take k).length = k := List.length_take_of_le inside
    refine ⟨⟨args.take k, w, more⟩, ⟨?_, listed, starts, ?_⟩, length, ?_⟩
    · rw [← ahead, List.take_append_drop]
    · rwa [Text.head_append_of_edge bracket] at stops
    · have all : args.take k ++ (w ++ more) = args := by rw [← ahead, List.take_append_drop]
      have placed := congrArg List.length all
      simp only [List.length_append, length] at placed
      simp [endWith, Attempt.between, Occurrence.start, length, ← placed, ← ahead, Nat.add_assoc]
  · rintro ⟨⟨before, w, more⟩, ⟨rfl, listed, starts, stops⟩, rfl, rfl⟩
    simp only [Occurrence.start, List.take_left, List.drop_left] at starts ⊢
    refine ⟨_, ⟨w, listed, more, ')' :: after, List.append_assoc _ _ _, starts, ?_, fun member => plain (by simp [member]), rfl⟩, ?_⟩
    · rwa [Text.head_append_of_edge bracket]
    · refine mem_char.mpr ⟨after, rfl, ?_⟩
      simp [endWith, Attempt.between, Occurrence.start, Nat.add_assoc]

/-- Of the words among the arguments of a call the first one is tried first. -/
theorem head_closings (form : Text.areWords ws = true) (opens : u.getLast?.any Text.isWord = false) {args after : Text}
    (plain : ')' ∉ args) :
    ((List.range (args.length + 1)).flatMap (closings argumentsGroup number ws u (args ++ ')' :: after) captures)).head? = some s ↔
      ∃ o, IsFirst Occurrence.start (IsWholeWord ws args) o ∧ s = endWith argumentsGroup number u args after captures o := by
  have among : ∀ {s : Attempt} {k : Nat}, k ≤ args.length →
      (s ∈ closings argumentsGroup number ws u (args ++ ')' :: after) captures k ↔ _) :=
    fun inside => mem_closings form opens plain inside
  have inside : ∀ o, IsWholeWord ws args o → o.start ≤ args.length := by
    rintro o ⟨rfl, _, _, _⟩
    simp [Occurrence.start]
  rw [head_flatMap_range]
  constructor
  · rintro ⟨k, bound, head, none⟩
    obtain ⟨o, found, rfl, rfl⟩ := (among (by omega)).mp (List.mem_of_head? head)
    refine ⟨o, ⟨found, fun o' found' => ?_⟩, rfl⟩
    by_contra earlier
    have member := (among (inside o' found')).mpr ⟨o', found', rfl, rfl⟩
    rw [none _ (by omega)] at member
    cases member
  · rintro ⟨o, ⟨found, first⟩, rfl⟩
    refine ⟨o.start, Nat.lt_succ_of_le (inside o found), ?_, fun k less => ?_⟩
    · have member := (among (inside o found)).mpr ⟨o, found, rfl, rfl⟩
      obtain ⟨s, others, tried⟩ := List.exists_cons_of_ne_nil (List.ne_nil_of_mem member)
      obtain ⟨o', found', same, rfl⟩ := (among (inside o found)).mp (tried ▸ List.mem_cons_self)
      rw [tried, found'.unique form found same]
      rfl
    · rw [List.eq_nil_iff_forall_not_mem]
      intro s member
      obtain ⟨o', found', rfl, _⟩ := (among (Nat.le_of_lt (Nat.lt_of_lt_of_le less (inside o found)))).mp member
      exact absurd (first o' found') (Nat.not_le.mpr less)

/-- A call with a word among its arguments as a match. -/
def matchWith (argumentsGroup : Option Nat) (number : Nat) (c : Call) (o : Occurrence) : Match :=
  ⟨c.start, c.stop, groupOf argumentsGroup c.argumentsStart c.argumentsStop ++
    [(number, c.argumentsStart + o.start, c.argumentsStart + o.start + o.word.length)]⟩

theorem head_callWith (named : Text.areWords [name] = true) (form : Text.areWords ws = true) {t : Text} {c : Call}
    (call : IsCall [name] t c) {m : Match} :
    ((callWith argumentsGroup number name ws).ends false (.between c.before (c.name ++ c.tail) [])).head?.map
        (Attempt.matchFrom c.start) = some m ↔
      ∃ o, IsFirst Occurrence.start (IsWholeWord ws c.arguments) o ∧ m = matchWith argumentsGroup number c o := by
  have isName : c.name = name.toList := List.mem_singleton.mp call.named
  have matched : ∀ o, (endWith argumentsGroup number (c.before ++ (c.name ++ (c.blanks ++ ['(']))) c.arguments c.after [] o).matchFrom
      c.start = matchWith argumentsGroup number c o := by
    intro o
    have place : (c.before ++ (c.name ++ (c.blanks ++ ['(']))).length = c.argumentsStart := by
      simp [Call.argumentsStart, Call.nameStop, Call.start, Nat.add_assoc]
    have stop : (c.before ++ (c.name ++ (c.blanks ++ ['('])) ++ (c.arguments ++ [')'])).length = c.stop := by
      rw [List.length_append, place, List.length_append]
      rfl
    rw [endWith, Attempt.matchFrom, Attempt.between_position, Attempt.between_captures, stop, place]
    rfl
  rw [Call.tail, isName, callWith, ends_call named call.opens call.blank, ends_arguments call.closes, Option.map_eq_some_iff, ← isName]
  simp only [head_closings form (Text.last_bracket _ _ _) call.closes]
  constructor
  · rintro ⟨_, ⟨o, first, rfl⟩, rfl⟩
    exact ⟨o, first, matched o⟩
  · rintro ⟨o, first, rfl⟩
    exact ⟨_, ⟨o, first, rfl⟩, matched o⟩

theorem exists_call_of_mem (named : Text.areWords [name] = true) (form : Text.areWords ws = true)
    (member : s ∈ (callWith argumentsGroup number name ws).ends false (.between u v captures)) :
    ∃ c, IsCall [name] (u ++ v) c ∧ c.before = u := by
  have isCall : callWith argumentsGroup number name ws =
      call (remembered none (words [name])) (remembered argumentsGroup (seq arguments (wordAhead number ws))) := rfl
  rw [isCall] at member
  obtain ⟨opens, n, listed, bl, v', rfl, blank, rest⟩ := (mem_call named).mp member
  rw [ends, List.mem_flatMap] at rest
  obtain ⟨_, given, closed⟩ := rest
  obtain ⟨_, taken, rfl⟩ := mem_remembered.mp given
  rw [ends, List.mem_flatMap] at taken
  obtain ⟨_, early, late⟩ := taken
  obtain ⟨args, v₁, rfl, plain, rfl⟩ := mem_arguments.mp early
  obtain ⟨w, isWord, more, v₂, rfl, _, _, plain', rfl⟩ := (mem_wordAhead form).mp late
  obtain ⟨after, rfl, _⟩ := mem_char.mp closed
  have word : ')' ∉ w := fun member => absurd ((Text.mem_areWords form isWord).2 _ member) (by decide +kernel)
  refine ⟨⟨u, n, bl, args ++ (w ++ more), after⟩, ⟨?_, listed, opens, blank, ?_⟩, rfl⟩
  · simp [Call.text, Call.tail]
  · simp [plain, word, plain']

/-- The matches of a pattern of calls with a word are the calls whose arguments contain it, and the first of these words is
    remembered. -/
theorem firstAt_containing_iff (named : Text.areWords [name] = true) (form : Text.areWords ws = true) {t : Text} {m : Match} :
    FirstAt (callWith argumentsGroup number name ws) t m ↔
      ∃ c o, IsCall [name] t c ∧ IsFirst Occurrence.start (IsWholeWord ws c.arguments) o ∧
        m = matchWith argumentsGroup number c o := by
  constructor
  · rintro ⟨u, v, s, rfl, head, rfl⟩
    obtain ⟨c, call, rfl⟩ := exists_call_of_mem named form (List.mem_of_head? head)
    obtain rfl : c.name ++ c.tail = v := List.append_cancel_left call.text_eq
    have made : ((callWith argumentsGroup number name ws).ends false (.between c.before (c.name ++ c.tail) [])).head?.map
        (Attempt.matchFrom c.start) = some (s.matchFrom c.start) := by rw [head, Option.map_some]
    obtain ⟨o, first, same⟩ := (head_callWith named form call).mp made
    exact ⟨c, o, call, first, same⟩
  · rintro ⟨c, o, call, first, rfl⟩
    obtain ⟨s, head, same⟩ := Option.map_eq_some_iff.mp ((head_callWith named form call).mpr ⟨o, first, rfl⟩)
    exact ⟨c.before, c.name ++ c.tail, s, call.text_eq.symm, head, same.symm⟩

/-- The matches of a pattern of calls with a word are a scan for the calls whose arguments contain it. -/
theorem findAll_containing (named : Text.areWords [name] = true) (form : Text.areWords ws = true) (t : Text) :
    ∃ calls, Scan Call.start Call.stop (fun c => IsCall [name] t c ∧ Mentions ws c.arguments) 0 calls ∧
      List.Forall₂ (fun c m => ∃ o, IsFirst Occurrence.start (IsWholeWord ws c.arguments) o ∧ m = matchWith none 1 c o) calls
        ((callContaining name ws).findAll false t) := by
  have matched : ∀ m, FirstAt (callContaining name ws) t m ↔ ∃ c, (IsCall [name] t c ∧ Mentions ws c.arguments) ∧
      ∃ o, IsFirst Occurrence.start (IsWholeWord ws c.arguments) o ∧ m = matchWith none 1 c o := by
    intro m
    have same : FirstAt (callContaining name ws) t m ↔ FirstAt (callWith none 1 name ws) t m := by
      rw [FirstAt, FirstAt, ends_callContaining]
    rw [same, firstAt_containing_iff named form]
    constructor
    · rintro ⟨c, o, call, first, rfl⟩
      exact ⟨c, ⟨call, o, first.1⟩, o, first, rfl⟩
    · rintro ⟨c, ⟨call, _⟩, o, first, rfl⟩
      exact ⟨c, o, call, first, rfl⟩
  refine (findAll_scan (consumes_call _ _) t).transport ?_ ?_ matched ?_
  · rintro c m ⟨o, _, rfl⟩
    rfl
  · rintro c m ⟨o, _, rfl⟩
    rfl
  · rintro c ⟨_, o, found⟩
    obtain ⟨o', first⟩ := IsFirst.exists Occurrence.start found
    exact ⟨_, o', first, rfl⟩

/-- A search for a call with a word gives the first such call, with the first such word in it. -/
theorem search_containing (argumentsGroup : Option Nat) (number : Nat) (named : Text.areWords [name] = true)
    (form : Text.areWords ws = true) {t : Text} {c : Call}
    (first : IsFirst Call.start (fun c => IsCall [name] t c ∧ Mentions ws c.arguments) c) :
    ∃ o, IsFirst Occurrence.start (IsWholeWord ws c.arguments) o ∧
      (callWith argumentsGroup number name ws).search false t = some (matchWith argumentsGroup number c o) := by
  obtain ⟨⟨call, _, found⟩, least⟩ := first
  obtain ⟨o, firstWord⟩ := IsFirst.exists Occurrence.start found
  have matched : FirstAt (callWith argumentsGroup number name ws) t (matchWith argumentsGroup number c o) :=
    (firstAt_containing_iff named form).mpr ⟨c, o, call, firstWord, rfl⟩
  rcases search_cases (callWith argumentsGroup number name ws) t with ⟨m, searched, found', least'⟩ | ⟨_, none⟩
  · obtain ⟨c', o', call', firstWord', rfl⟩ := (firstAt_containing_iff named form).mp found'
    have same : c.start = c'.start := Nat.le_antisymm (least c' ⟨call', o', firstWord'.1⟩) (least' _ matched)
    obtain rfl := call.unique named call' same
    exact ⟨o', firstWord', searched⟩
  · exact absurd matched (none _)

theorem search_no_containing (argumentsGroup : Option Nat) (number : Nat) (named : Text.areWords [name] = true)
    (form : Text.areWords ws = true) {t : Text} (none : ∀ c, ¬ (IsCall [name] t c ∧ Mentions ws c.arguments)) :
    (callWith argumentsGroup number name ws).search false t = Option.none := by
  rcases search_cases (callWith argumentsGroup number name ws) t with ⟨m, _, found, _⟩ | ⟨searched, _⟩
  · obtain ⟨c, o, call, firstWord, _⟩ := (firstAt_containing_iff named form).mp found
    exact absurd ⟨call, o, firstWord.1⟩ (none c)
  · exact searched

end Pattern

end CMakeLint
