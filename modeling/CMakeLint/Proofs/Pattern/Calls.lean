import CMakeLint.Proofs.Pattern.Scan
import Mathlib.Data.List.Forall2

/-!
Calls of commands and whole words in a text, said as cuts of the text and without patterns: a call is a name that no word
character stands before, blanks, and arguments in brackets, up to the first closing bracket. A pattern of calls matches
exactly the calls (`firstAt_call_iff`).
-/
namespace CMakeLint

/-! ### Cuts of a text -/

namespace Text

/-- A run of characters of one kind before something else is told by the text. -/
theorem append_inj_of_run {p : Char → Bool} {a a' b b' : Text} (same : a ++ b = a' ++ b') (all : ∀ c ∈ a, p c = true)
    (all' : ∀ c ∈ a', p c = true) (other : b.head?.any p = false) (other' : b'.head?.any p = false) : a = a' ∧ b = b' := by
  have cut : ∀ {a b : Text}, (∀ c ∈ a, p c = true) → b.head?.any p = false → (a ++ b).takeWhile p = a := by
    intro a b all other
    rw [List.takeWhile_append_of_pos all]
    cases b with
    | nil => simp
    | cons c b =>
      have refused : ¬ p c = true := by simpa using other
      rw [List.takeWhile_cons_of_neg refused, List.append_nil]
  have first : a = a' := by rw [← cut all other, same, cut all' other']
  subst first
  exact ⟨rfl, List.append_cancel_left same⟩

/-- A text is told by what follows it if that starts with a character that it does not contain. -/
theorem append_cons_inj {d : Char} {a a' b b' : Text} (same : a ++ d :: b = a' ++ d :: b') (other : d ∉ a) (other' : d ∉ a') :
    a = a' ∧ b = b' := by
  have differ : ∀ {a : Text}, d ∉ a → ∀ c ∈ a, (c != d) = true := by
    intro a other c member
    rw [bne_iff_ne]
    rintro rfl
    exact other member
  obtain ⟨rfl, rest⟩ := append_inj_of_run same (differ other) (differ other') (by simp) (by simp)
  exact ⟨rfl, (List.cons.inj rest).2⟩

theorem slice_append (u w v : Text) : (u ++ (w ++ v)).slice u.length (u.length + w.length) = w := by
  rw [slice, List.drop_left, Nat.add_sub_cancel_left, List.take_left]

/-- The characters that are blank, by their codes. -/
def blankCodes : List Nat :=
  List.range' 0x09 5 ++ List.range' 0x1C 5 ++ List.range' 0x2000 11 ++
    [0x85, 0xA0, 0x1680, 0x2028, 0x2029, 0x202F, 0x205F, 0x3000]

theorem mem_blankCodes {c : Char} (blank : isBlank c = true) : c.toNat ∈ blankCodes := by
  simp only [isBlank, Bool.or_eq_true, Bool.and_eq_true, decide_eq_true_eq, beq_iff_eq] at blank
  simp only [blankCodes, List.mem_append, List.mem_range'_1, List.mem_cons, List.not_mem_nil, or_false]
  omega

theorem isWord_of_isBlank {c : Char} (blank : isBlank c = true) : isWord c = false := by
  have none : ∀ n ∈ blankCodes, isWord (Char.ofNat n) = false := by decide +kernel
  rw [← Char.ofNat_toNat c]
  exact none _ (mem_blankCodes blank)

/-- Some words, each of at least one character. -/
def areWords (ws : List String) : Bool :=
  !ws.isEmpty && ws.all fun w => !w.toList.isEmpty && w.toList.all isWord

theorem areWords_ne_nil {ws : List String} (form : areWords ws = true) : ws ≠ [] := by
  rintro rfl
  cases form

theorem mem_areWords {ws : List String} (form : areWords ws = true) {w : Text} (listed : w ∈ ws.map String.toList) :
    w ≠ [] ∧ ∀ c ∈ w, isWord c = true := by
  obtain ⟨s, member, rfl⟩ := List.mem_map.mp listed
  obtain ⟨_, each⟩ := Bool.and_eq_true_iff.mp form
  obtain ⟨nonempty, word⟩ := Bool.and_eq_true_iff.mp (List.all_eq_true.mp each s member)
  exact ⟨by simpa using nonempty, List.all_eq_true.mp word⟩

/-- A place before a word is its edge unless the word goes on to the left. -/
theorem edge_before {u w v : Text} (nonempty : w ≠ []) (word : ∀ c ∈ w, isWord c = true) :
    u.getLast?.any isWord ≠ (w ++ v).head?.any isWord ↔ u.getLast?.any isWord = false := by
  obtain ⟨c, w, rfl⟩ := List.exists_cons_of_ne_nil nonempty
  simp [word c]

/-- A place after a word is its edge unless the word goes on to the right. -/
theorem edge_after {u w v : Text} (nonempty : w ≠ []) (word : ∀ c ∈ w, isWord c = true) :
    (u ++ w).getLast?.any isWord ≠ v.head?.any isWord ↔ v.head?.any isWord = false := by
  have last : (u ++ w).getLast?.any isWord = true := by
    rw [List.getLast?_append, List.getLast?_eq_getLast_of_ne_nil nonempty]
    exact word _ (List.getLast_mem nonempty)
  rw [last]
  cases v.head?.any isWord <;> simp

end Text

/-! ### Calls and whole words -/

/-- A call in a text: what stands before it, its name, the blanks up to its opening bracket, its arguments, and what stands
    after its closing bracket. -/
structure Call where
  before : Text
  name : Text
  blanks : Text
  arguments : Text
  after : Text
  deriving DecidableEq, Repr

namespace Call

/-- What follows the name of a call. -/
def tail (c : Call) : Text :=
  c.blanks ++ '(' :: (c.arguments ++ ')' :: c.after)

/-- The text of a call and all around it. -/
def text (c : Call) : Text :=
  c.before ++ (c.name ++ c.tail)

/-- Where a call starts, which is where its name starts. -/
def start (c : Call) : Nat :=
  c.before.length

/-- Where the name of a call ends. -/
def nameStop (c : Call) : Nat :=
  c.start + c.name.length

/-- Where the arguments of a call start. -/
def argumentsStart (c : Call) : Nat :=
  c.nameStop + c.blanks.length + 1

/-- Where the arguments of a call end, which is where its closing bracket stands. -/
def argumentsStop (c : Call) : Nat :=
  c.argumentsStart + c.arguments.length

/-- Where a call ends. -/
def stop (c : Call) : Nat :=
  c.argumentsStop + 1

end Call

/-- A call of one of some commands: no word character stands before its name, and its first closing bracket closes it. -/
structure IsCall (names : List String) (t : Text) (c : Call) : Prop where
  text_eq : c.text = t
  named : c.name ∈ names.map String.toList
  opens : c.before.getLast?.any Text.isWord = false
  blank : ∀ d ∈ c.blanks, Text.isBlank d = true
  closes : ')' ∉ c.arguments

/-- A piece of a text with what stands before and after it. -/
structure Occurrence where
  before : Text
  word : Text
  after : Text
  deriving DecidableEq, Repr

/-- Where a piece of a text starts. -/
def Occurrence.start (o : Occurrence) : Nat :=
  o.before.length

/-- One of some words stands in a text as a whole word: no word character stands before or after it. -/
structure IsWholeWord (ws : List String) (t : Text) (o : Occurrence) : Prop where
  text_eq : o.before ++ (o.word ++ o.after) = t
  listed : o.word ∈ ws.map String.toList
  opens : o.before.getLast?.any Text.isWord = false
  closes : o.after.head?.any Text.isWord = false

/-- A text contains one of some words as a whole word. -/
def Mentions (ws : List String) (t : Text) : Prop :=
  ∃ o, IsWholeWord ws t o

instance (ws : List String) (t : Text) (o : Occurrence) : Decidable (IsWholeWord ws t o) :=
  decidable_of_iff (o.before ++ (o.word ++ o.after) = t ∧ o.word ∈ ws.map String.toList ∧
      o.before.getLast?.any Text.isWord = false ∧ o.after.head?.any Text.isWord = false)
    ⟨fun ⟨text, listed, opens, closes⟩ => ⟨text, listed, opens, closes⟩,
      fun ⟨text, listed, opens, closes⟩ => ⟨text, listed, opens, closes⟩⟩

theorem mentions_iff {ws : List String} {t : Text} : Mentions ws t ↔
    ∃ n ∈ List.range (t.length + 1), ∃ w ∈ ws.map String.toList, IsWholeWord ws t ⟨t.take n, w, t.drop (n + w.length)⟩ := by
  constructor
  · rintro ⟨⟨before, word, after⟩, rfl, listed, opens, closes⟩
    refine ⟨before.length, List.mem_range.mpr (by simp only [List.length_append]; omega), word, listed, ?_⟩
    have ahead : (before ++ (word ++ after)).drop (before.length + word.length) = after := by
      rw [← List.drop_drop, List.drop_left, List.drop_left]
    rw [List.take_left, ahead]
    exact ⟨rfl, listed, opens, closes⟩
  · rintro ⟨n, _, w, _, found⟩
    exact ⟨_, found⟩

instance (ws : List String) (t : Text) : Decidable (Mentions ws t) :=
  decidable_of_iff _ mentions_iff.symm

namespace IsCall

variable {names : List String} {t : Text} {c : Call}

theorem slice_name (call : IsCall names t c) : t.slice c.start c.nameStop = c.name := by
  rw [← call.text_eq, Call.text, Call.nameStop, Call.start, Text.slice_append]

theorem slice_arguments (call : IsCall names t c) : t.slice c.argumentsStart c.argumentsStop = c.arguments := by
  have split : t = (c.before ++ (c.name ++ (c.blanks ++ ['(']))) ++ (c.arguments ++ ')' :: c.after) := by
    rw [← call.text_eq, Call.text, Call.tail]
    simp
  have place : (c.before ++ (c.name ++ (c.blanks ++ ['(']))).length = c.argumentsStart := by
    simp [Call.argumentsStart, Call.nameStop, Call.start, Nat.add_assoc]
  rw [split, Call.argumentsStop, ← place, Text.slice_append]

end IsCall

/-- At most one call starts at a place. -/
theorem IsCall.unique {names : List String} (form : Text.areWords names = true) {t : Text} {c c' : Call}
    (call : IsCall names t c) (call' : IsCall names t c') (same : c.start = c'.start) : c = c' := by
  obtain ⟨before, name, blanks, arguments, after⟩ := c
  obtain ⟨before', name', blanks', arguments', after'⟩ := c'
  obtain ⟨text, named, _, blank, closes⟩ := call
  obtain ⟨text', named', _, blank', closes'⟩ := call'
  have bracket : Text.isWord '(' = false ∧ Text.isBlank '(' = false := by decide +kernel
  have stop : ∀ {bl : Text} {rest : Text}, (∀ d ∈ bl, Text.isBlank d = true) →
      (bl ++ '(' :: rest).head?.any Text.isWord = false := by
    intro bl rest blank
    cases bl with
    | nil => exact bracket.1
    | cons d bl => exact Text.isWord_of_isBlank (blank d List.mem_cons_self)
  simp only [Call.text, Call.tail, Call.start] at text text' same named named' blank blank' closes closes'
  obtain ⟨rfl, fromName⟩ := List.append_inj (text.trans text'.symm) same
  obtain ⟨rfl, fromBlanks⟩ := Text.append_inj_of_run fromName (Text.mem_areWords form named).2
    (Text.mem_areWords form named').2 (stop blank) (stop blank')
  obtain ⟨rfl, fromBracket⟩ := Text.append_inj_of_run fromBlanks blank blank' bracket.2 bracket.2
  obtain ⟨rfl, rfl⟩ := Text.append_cons_inj (List.cons.inj fromBracket).2 closes closes'
  rfl

namespace Pattern

/-! ### Patterns of calls -/

/-- A pattern that is remembered under a number, if one is given. -/
def remembered (number : Option Nat) (p : Pattern) : Pattern :=
  number.elim p (group · p)

/-- The pattern of calls of some commands, with a number for the name and one for the arguments if these are remembered. -/
def callOf (nameGroup argumentsGroup : Option Nat) (names : List String) : Pattern :=
  call (remembered nameGroup (words names)) (remembered argumentsGroup arguments)

theorem callNamedWithArguments_eq (names : List String) :
    callNamedWithArguments names = callOf (some 1) (some 2) names := rfl

/-- The group of a number that is given. -/
def groupOf (number : Option Nat) (start stop : Nat) : List (Nat × Nat × Nat) :=
  (number.map fun n => (n, start, stop)).toList

/-- A call as a match. -/
def matchOf (nameGroup argumentsGroup : Option Nat) (c : Call) : Match :=
  ⟨c.start, c.stop, groupOf argumentsGroup c.argumentsStart c.argumentsStop ++ groupOf nameGroup c.start c.nameStop⟩

variable {u v : Text} {captures : List (Nat × Nat × Nat)} {s : Attempt} {names : List String} {nameGroup argumentsGroup : Option Nat}

theorem ends_remembered (number : Option Nat) (p : Pattern) : (remembered number p).ends false (.between u v captures) =
    (p.ends false (.between u v captures)).map fun s => ⟨s.cursor, groupOf number u.length s.cursor.position ++ s.captures⟩ := by
  cases number with
  | none => exact (List.map_id' _).symm
  | some n => rfl

theorem mem_remembered {p : Pattern} {number : Option Nat} : s ∈ (remembered number p).ends false (.between u v captures) ↔
    ∃ s' ∈ p.ends false (.between u v captures), s = ⟨s'.cursor, groupOf number u.length s'.cursor.position ++ s'.captures⟩ := by
  rw [ends_remembered, List.mem_map]
  simp only [eq_comm]

theorem mem_blanks : s ∈ blanks.ends false (.between u v captures) ↔
    ∃ w v', v = w ++ v' ∧ (∀ c ∈ w, Text.isBlank c = true) ∧ s = .between (u ++ w) v' captures := by
  rw [blanks, mem_many_between rfl]
  simp [accepts_blank, Repetition.star]

theorem mem_arguments : s ∈ arguments.ends false (.between u v captures) ↔
    ∃ w v', v = w ++ v' ∧ ')' ∉ w ∧ s = .between (u ++ w) v' captures := by
  have plain : ∀ w : Text, (∀ c ∈ w, c ≠ ')') ↔ ')' ∉ w := by
    intro w
    constructor
    · intro other member
      exact other _ member rfl
    · rintro closed c member rfl
      exact closed member
  rw [arguments, mem_many_between rfl]
  simp [accepts_except, plain, Repetition.lazyStar]

/-- A call is cut at its name and at its opening bracket, whatever its arguments are. -/
theorem mem_call (form : Text.areWords names = true) {args : Pattern} :
    s ∈ (call (remembered nameGroup (words names)) args).ends false (.between u v captures) ↔
      u.getLast?.any Text.isWord = false ∧ ∃ name ∈ names.map String.toList, ∃ bl v',
        v = name ++ (bl ++ '(' :: v') ∧ (∀ d ∈ bl, Text.isBlank d = true) ∧
        s ∈ (seq args (char ')')).ends false (.between (u ++ (name ++ (bl ++ ['(']))) v'
          (groupOf nameGroup u.length (u.length + name.length) ++ captures)) := by
  have split : (call (remembered nameGroup (words names)) args).ends false (.between u v captures) =
      (edge.ends false (.between u v captures)).flatMap fun s => ((remembered nameGroup (words names)).ends false s).flatMap
        fun s => (blanks.ends false s).flatMap fun s => ((char '(').ends false s).flatMap
          ((seq args (char ')')).ends false) := rfl
  simp only [split, List.mem_flatMap, mem_edge]
  constructor
  · rintro ⟨_, ⟨isEdge, rfl⟩, _, named, _, skipped, _, opened, rest⟩
    obtain ⟨_, word, rfl⟩ := mem_remembered.mp named
    obtain ⟨name, listed, v₁, rfl, rfl⟩ := (mem_words (Text.areWords_ne_nil form)).mp word
    have grouped : (⟨(Attempt.between (u ++ name) v₁ captures).cursor, groupOf nameGroup u.length
        (Attempt.between (u ++ name) v₁ captures).cursor.position ++ captures⟩ : Attempt) =
        .between (u ++ name) v₁ (groupOf nameGroup u.length (u.length + name.length) ++ captures) := by
      simp [Attempt.between]
    simp only [Attempt.between_captures, grouped] at skipped
    obtain ⟨bl, v₂, rfl, blank, rfl⟩ := mem_blanks.mp skipped
    obtain ⟨v', rfl, rfl⟩ := mem_char.mp opened
    obtain ⟨nonempty, word⟩ := Text.mem_areWords form listed
    refine ⟨(Text.edge_before nonempty word).mp isEdge, name, listed, bl, v', rfl, blank, ?_⟩
    simpa only [List.append_assoc] using rest
  · rintro ⟨opens, name, listed, bl, v', rfl, blank, rest⟩
    obtain ⟨nonempty, word⟩ := Text.mem_areWords form listed
    refine ⟨_, ⟨(Text.edge_before nonempty word).mpr opens, rfl⟩,
      .between (u ++ name) (bl ++ '(' :: v') (groupOf nameGroup u.length (u.length + name.length) ++ captures), ?_,
      _, mem_blanks.mpr ⟨bl, '(' :: v', rfl, blank, rfl⟩, _, mem_char.mpr ⟨v', rfl, rfl⟩, ?_⟩
    · refine mem_remembered.mpr ⟨_, (mem_words (Text.areWords_ne_nil form)).mpr ⟨name, listed, _, rfl, rfl⟩, ?_⟩
      simp [Attempt.between]
    · simpa only [List.append_assoc] using rest

/-- Where a match of a call ends, with the groups that are remembered of it. -/
def endOf (nameGroup argumentsGroup : Option Nat) (c : Call) : Attempt :=
  .between (c.before ++ (c.name ++ (c.blanks ++ '(' :: (c.arguments ++ [')'])))) c.after
    (matchOf nameGroup argumentsGroup c).captures

theorem matchFrom_endOf (c : Call) : (endOf nameGroup argumentsGroup c).matchFrom c.start = matchOf nameGroup argumentsGroup c := by
  simp only [endOf, Attempt.matchFrom, matchOf, Attempt.between_position, Attempt.between_captures, Match.mk.injEq, true_and,
    and_true, List.length_append, List.length_cons, List.length_nil, Call.stop, Call.argumentsStop, Call.argumentsStart,
    Call.nameStop, Call.start]
  omega

theorem mem_callOf (form : Text.areWords names = true) :
    s ∈ (callOf nameGroup argumentsGroup names).ends false (.between u v []) ↔
      ∃ c, IsCall names (u ++ v) c ∧ c.before = u ∧ s = endOf nameGroup argumentsGroup c := by
  have last : ∀ {u v : Text} {captures}, s ∈ (seq (remembered argumentsGroup arguments) (char ')')).ends false
      (.between u v captures) ↔ ∃ args after, v = args ++ ')' :: after ∧ ')' ∉ args ∧
        s = .between (u ++ (args ++ [')'])) after (groupOf argumentsGroup u.length (u.length + args.length) ++ captures) := by
    intro u v captures
    rw [ends, List.mem_flatMap]
    constructor
    · rintro ⟨_, given, closed⟩
      obtain ⟨_, taken, rfl⟩ := mem_remembered.mp given
      obtain ⟨args, v', rfl, plain, rfl⟩ := mem_arguments.mp taken
      obtain ⟨after, rfl, rfl⟩ := mem_char.mp closed
      exact ⟨args, after, rfl, plain, by simp [Attempt.between]⟩
    · rintro ⟨args, after, rfl, plain, rfl⟩
      refine ⟨_, mem_remembered.mpr ⟨_, mem_arguments.mpr ⟨args, ')' :: after, rfl, plain, rfl⟩, rfl⟩, mem_char.mpr ⟨after, rfl, ?_⟩⟩
      simp [Attempt.between]
  rw [callOf, mem_call form]
  simp only [last]
  constructor
  · rintro ⟨opens, name, listed, bl, _, rfl, blank, args, after, rfl, plain, rfl⟩
    refine ⟨⟨u, name, bl, args, after⟩, ⟨rfl, listed, opens, blank, plain⟩, rfl, ?_⟩
    simp [endOf, matchOf, Call.start, Call.nameStop, Call.argumentsStart, Call.argumentsStop, Nat.add_assoc]
  · rintro ⟨c, call, rfl, rfl⟩
    have ahead : v = c.name ++ c.tail := (List.append_cancel_left call.text_eq).symm
    refine ⟨call.opens, c.name, call.named, c.blanks, _, ahead, call.blank, c.arguments, c.after, rfl, call.closes, ?_⟩
    simp [endOf, matchOf, Call.start, Call.nameStop, Call.argumentsStart, Call.argumentsStop, Nat.add_assoc]

/-- The matches of a pattern of calls are the calls. -/
theorem firstAt_call_iff (form : Text.areWords names = true) {t : Text} {m : Match} :
    FirstAt (callOf nameGroup argumentsGroup names) t m ↔
      ∃ c, IsCall names t c ∧ m = matchOf nameGroup argumentsGroup c := by
  constructor
  · rintro ⟨u, v, s, rfl, head, rfl⟩
    obtain ⟨c, call, rfl, rfl⟩ := (mem_callOf form).mp (List.mem_of_head? head)
    exact ⟨c, call, matchFrom_endOf c⟩
  · rintro ⟨c, call, rfl⟩
    -- there is a way to match this call, so some way is tried first, and no other call starts at this place
    have text : t = c.before ++ (c.name ++ c.tail) := call.text_eq.symm
    have member : endOf nameGroup argumentsGroup c ∈ (callOf nameGroup argumentsGroup names).ends false
        (.between c.before (c.name ++ c.tail) []) := (mem_callOf form).mpr ⟨c, text ▸ call, rfl, rfl⟩
    obtain ⟨s, others, tried⟩ := List.exists_cons_of_ne_nil (List.ne_nil_of_mem member)
    obtain ⟨c', call', same, rfl⟩ := (mem_callOf form).mp (tried ▸ List.mem_cons_self)
    rw [← text] at call'
    obtain rfl := call.unique form call' (congrArg List.length same.symm)
    exact ⟨c.before, c.name ++ c.tail, _, text, by rw [tried]; rfl, (matchFrom_endOf c).symm⟩

theorem consumes_call (name args : Pattern) : (call name args).consumes = true := by
  simp [call, sequence, char, consumes]

/-- The matches of a pattern of calls are a scan for calls. -/
theorem findAll_calls (nameGroup argumentsGroup : Option Nat) (form : Text.areWords names = true) (t : Text) :
    ∃ calls, Scan Call.start Call.stop (IsCall names t) 0 calls ∧
      (callOf nameGroup argumentsGroup names).findAll false t = calls.map (matchOf nameGroup argumentsGroup) := by
  have matched : ∀ m, FirstAt (callOf nameGroup argumentsGroup names) t m ↔
      ∃ c, IsCall names t c ∧ matchOf nameGroup argumentsGroup c = m := by
    intro m
    rw [firstAt_call_iff form]
    simp only [eq_comm]
  have scanned : ∃ calls, Scan Call.start Call.stop (IsCall names t) 0 calls ∧ List.Forall₂
      (fun c m => matchOf nameGroup argumentsGroup c = m) calls ((callOf nameGroup argumentsGroup names).findAll false t) :=
    (findAll_scan (consumes_call _ _) t).transport (fun c m same => congrArg Match.start same)
      (fun c m same => congrArg Match.stop same) matched fun c _ => ⟨_, rfl⟩
  obtain ⟨calls, scan, related⟩ := scanned
  rw [← List.forall₂_map_left_iff, List.forall₂_eq_eq_eq] at related
  exact ⟨calls, scan, related.symm⟩

/-- A search for calls gives the first one. -/
theorem search_calls (nameGroup argumentsGroup : Option Nat) (form : Text.areWords names = true) {t : Text} {c : Call}
    (first : IsFirst Call.start (IsCall names t) c) :
    (callOf nameGroup argumentsGroup names).search false t = some (matchOf nameGroup argumentsGroup c) := by
  have matched : FirstAt (callOf nameGroup argumentsGroup names) t (matchOf nameGroup argumentsGroup c) :=
    (firstAt_call_iff form).mpr ⟨c, first.1, rfl⟩
  rcases search_cases (callOf nameGroup argumentsGroup names) t with ⟨m, searched, found, least⟩ | ⟨_, none⟩
  · obtain ⟨c', call, rfl⟩ := (firstAt_call_iff form).mp found
    have same : c.start = c'.start := Nat.le_antisymm (first.2 c' call) (least _ matched)
    rw [searched, first.1.unique form call same]
  · exact absurd matched (none _)

theorem search_no_calls (nameGroup argumentsGroup : Option Nat) (form : Text.areWords names = true) {t : Text}
    (none : ∀ c, ¬ IsCall names t c) : (callOf nameGroup argumentsGroup names).search false t = Option.none := by
  rcases search_cases (callOf nameGroup argumentsGroup names) t with ⟨m, _, found, _⟩ | ⟨searched, _⟩
  · obtain ⟨c, call, _⟩ := (firstAt_call_iff form).mp found
    exact absurd call (none c)
  · exact searched

end Pattern

end CMakeLint
