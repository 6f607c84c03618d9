import CMakeLint.Pattern.Call
import CMakeLint.Proofs.Pattern.Ends

/-!
What the pieces of call patterns take, each as a cut of the text that is still ahead: a word takes itself, blanks and
arguments take a run of characters of their kind, and the edge of a word takes nothing. A match of a pattern made of such
pieces is a way to cut the text into what the pieces take.
-/
namespace CMakeLint.Pattern

/-! ### Places as cuts of a text -/

/-- The place between two parts of a text, with the groups closed so far. -/
def Attempt.between (before ahead : Text) (captures : List (Nat × Nat × Nat)) : Attempt :=
  ⟨⟨before.getLast?, ahead, before.length⟩, captures⟩

variable {u v : Text} {captures : List (Nat × Nat × Nat)} {s : Attempt}

@[simp] theorem Attempt.between_position : (Attempt.between u v captures).cursor.position = u.length := rfl

@[simp] theorem Attempt.between_rest : (Attempt.between u v captures).cursor.rest = v := rfl

@[simp] theorem Attempt.between_captures : (Attempt.between u v captures).captures = captures := rfl

/-! ### One after the other -/

theorem ends_sequence_cons {ignoreCase : Bool} (p : Pattern) (ps : List Pattern) (s : Attempt) :
    (sequence (p :: ps)).ends ignoreCase s = (p.ends ignoreCase s).flatMap ((sequence ps).ends ignoreCase) := by
  cases ps with
  | nil =>
    have single : (sequence []).ends ignoreCase = fun s => [s] := rfl
    rw [single, List.flatMap_singleton']
    rfl
  | cons q ps => rfl

theorem mem_choice {ignoreCase : Bool} {ps : List Pattern} (nonempty : ps ≠ []) {s s' : Attempt} :
    s' ∈ (choice ps).ends ignoreCase s ↔ ∃ p ∈ ps, s' ∈ p.ends ignoreCase s := by
  induction ps with
  | nil => exact absurd rfl nonempty
  | cons p ps ih =>
    cases ps with
    | nil => simp [choice]
    | cons q ps =>
      rw [choice, ends, List.mem_append, ih (by simp)]
      · simp
      · simp

/-- A group takes what its body takes, and remembers where that is. -/
theorem mem_group {n : Nat} {p : Pattern} : s ∈ (group n p).ends false (.between u v captures) ↔
    ∃ s' ∈ p.ends false (.between u v captures), s = ⟨s'.cursor, (n, u.length, s'.cursor.position) :: s'.captures⟩ := by
  rw [ends, List.mem_map]
  constructor
  · rintro ⟨s', member, rfl⟩
    exact ⟨s', member, rfl⟩
  · rintro ⟨s', member, rfl⟩
    exact ⟨s', member, rfl⟩

/-! ### Characters and words -/

theorem mem_char {c : Char} : s ∈ (char c).ends false (.between u v captures) ↔
    ∃ v', v = c :: v' ∧ s = .between (u ++ [c]) v' captures := by
  cases v with
  | nil => simp [char, ends]
  | cons d v =>
    by_cases same : d = c
    · simp [char, ends, same, CharClass.accepts, CharClass.char, CharClass.contains, Member.accepts, Attempt.between]
    · simp [char, ends, same, CharClass.accepts, CharClass.char, CharClass.contains, Member.accepts]

theorem mem_literal {w : Text} : s ∈ (literal w).ends false (.between u v captures) ↔
    ∃ v', v = w ++ v' ∧ s = .between (u ++ w) v' captures := by
  induction w generalizing u v with
  | nil => simp [literal, sequence, ends]
  | cons c w ih =>
    have step : (literal (c :: w)).ends false (.between u v captures) =
        ((char c).ends false (.between u v captures)).flatMap ((literal w).ends false) := ends_sequence_cons _ _ _
    rw [step, List.mem_flatMap]
    constructor
    · rintro ⟨s', first, rest⟩
      obtain ⟨v', rfl, rfl⟩ := mem_char.mp first
      obtain ⟨v'', rfl, rfl⟩ := ih.mp rest
      exact ⟨v'', rfl, by rw [List.append_assoc, List.singleton_append]⟩
    · rintro ⟨v', rfl, rfl⟩
      refine ⟨.between (u ++ [c]) (w ++ v') captures, mem_char.mpr ⟨w ++ v', rfl, rfl⟩, ih.mpr ⟨v', rfl, ?_⟩⟩
      rw [List.append_assoc, List.singleton_append]

theorem mem_words {ws : List String} (nonempty : ws ≠ []) : s ∈ (words ws).ends false (.between u v captures) ↔
    ∃ w ∈ ws.map String.toList, ∃ v', v = w ++ v' ∧ s = .between (u ++ w) v' captures := by
  rw [words, mem_choice (by simpa using nonempty)]
  simp only [List.mem_map, exists_exists_and_eq_and, word, mem_literal]

/-! ### Edges and runs of characters -/

theorem mem_edge : s ∈ edge.ends false (.between u v captures) ↔
    u.getLast?.any Text.isWord ≠ v.head?.any Text.isWord ∧ s = .between u v captures := by
  have holds : Anchor.holds (Attempt.between u v captures).cursor .wordEdge =
      (u.getLast?.any Text.isWord != v.head?.any Text.isWord) := rfl
  rw [edge, ends, holds]
  by_cases differ : u.getLast?.any Text.isWord = v.head?.any Text.isWord
  · simp [differ]
  · simp [differ]

theorem accepts_blank {ignoreCase : Bool} {c : Char} :
    CharClass.blank.accepts ignoreCase c = true ↔ Text.isBlank c = true := by
  cases ignoreCase with
  | false => simp [CharClass.blank, CharClass.accepts, CharClass.contains, Member.accepts, Kind.accepts]
  | true => simp [CharClass.blank, CharClass.accepts, CharClass.contains, Member.acceptsAnyCase, Kind.accepts]

theorem accepts_except {c d : Char} : (CharClass.except d).accepts false c = true ↔ c ≠ d := by
  simp [CharClass.except, CharClass.accepts, CharClass.contains, Member.accepts]

/-- The places after accepted characters, one after the other. -/
theorem stops_between (accepts : Char → Bool) (u v : Text) : stops accepts u.getLast? u.length v =
    (List.range ((v.takeWhile accepts).length + 1)).map fun k => (Attempt.between (u ++ v.take k) (v.drop k) []).cursor := by
  have places := stops_at accepts (u ++ v) u.length
  rw [List.drop_left] at places
  have before : (Cursor.at (u ++ v) u.length).before = u.getLast? := by rw [Cursor.at, List.take_left]
  rw [before] at places
  rw [places]
  refine List.map_congr_left fun k inside => ?_
  have bound := (List.takeWhile_sublist accepts (l := v)).length_le
  rw [List.mem_range] at inside
  have length : (v.take k).length = k := List.length_take_of_le (by omega)
  rw [Cursor.at, List.take_append, List.drop_append]
  simp [Attempt.between, length, List.take_of_length_le, List.drop_eq_nil_of_le]

/-- A run of characters of a class ends before the first character that is not in the class, or earlier. -/
theorem ends_many_of_run {cls : CharClass} (r : Repetition) {w : Text} {c : Char} (run : ∀ d ∈ w, cls.accepts false d = true)
    (refused : ¬ cls.accepts false c = true) :
    (many cls r).ends false (.between u (w ++ c :: v) captures) = (r.select ((List.range (w.length + 1)).map fun k =>
      (Attempt.between (u ++ (w ++ c :: v).take k) ((w ++ c :: v).drop k) []).cursor)).map (⟨·, captures⟩) := by
  have length : ((w ++ c :: v).takeWhile (cls.accepts false)).length = w.length := by
    rw [List.takeWhile_append_of_pos run, List.takeWhile_cons_of_neg refused, List.append_nil]
  rw [ends]
  simp only [Attempt.between, stops_between, length]

/-- A run of characters of a class, of any length that is allowed. -/
theorem mem_many_between {ignoreCase : Bool} {cls : CharClass} {r : Repetition} (unbounded : r.most = none) :
    s ∈ (many cls r).ends ignoreCase (.between u v captures) ↔
      ∃ w v', v = w ++ v' ∧ (∀ c ∈ w, cls.accepts ignoreCase c = true) ∧ r.least ≤ w.length ∧
        s = .between (u ++ w) v' captures := by
  have selected : ∀ places c, c ∈ r.select places ↔ c ∈ places.drop r.least := by
    intro places c
    rw [Repetition.select, unbounded]
    cases r.greedy <;> simp
  rw [ends, List.mem_map]
  simp only [selected, Attempt.between, stops_between, ← List.map_drop, List.mem_map]
  constructor
  · rintro ⟨_, ⟨k, inside, rfl⟩, rfl⟩
    obtain ⟨j, at_j⟩ := List.mem_iff_getElem?.mp inside
    rw [List.getElem?_drop] at at_j
    obtain ⟨bound, same⟩ := List.getElem?_eq_some_iff.mp at_j
    rw [List.getElem_range] at same
    rw [List.length_range] at bound
    have short := (List.takeWhile_sublist (cls.accepts ignoreCase) (l := v)).length_le
    refine ⟨v.take k, v.drop k, (List.take_append_drop k v).symm, ?_, ?_, rfl⟩
    · intro c member
      have leading : v.take k <+: v.takeWhile (cls.accepts ignoreCase) := by
        refine List.prefix_of_prefix_length_le (List.take_prefix k v) (List.takeWhile_prefix _) ?_
        rw [List.length_take]
        omega
      exact List.mem_takeWhile_imp (leading.subset member)
    · rw [List.length_take]
      omega
  · rintro ⟨w, v', rfl, accepted, least, rfl⟩
    have long : w.length ≤ ((w ++ v').takeWhile (cls.accepts ignoreCase)).length := by
      rw [List.takeWhile_append_of_pos accepted, List.length_append]
      omega
    refine ⟨_, ⟨w.length, ?_, rfl⟩, ?_⟩
    · refine List.mem_iff_getElem?.mpr ⟨w.length - r.least, ?_⟩
      rw [List.getElem?_drop, Nat.add_sub_cancel' least, List.getElem?_range (by omega)]
    · simp

end CMakeLint.Pattern
