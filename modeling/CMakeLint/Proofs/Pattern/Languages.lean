import CMakeLint.Proofs.Pattern.Pieces
import Mathlib.Data.List.Forall2

/-!
The language of a pattern. A pattern without groups and edges takes a run of characters if the run belongs to a set of texts, which
is found piece by piece (`Takes`): one pattern after the other takes the texts of the one language followed by those of the other,
a choice takes the texts of either, and a word takes itself, or the texts with the same letters if case does not matter.
-/
namespace CMakeLint

/-- Some blanks. -/
def AreBlanks (t : Text) : Prop :=
  ∀ c ∈ t, Text.isBlank c = true

namespace Pattern

/-- A pattern takes exactly the texts of a language. -/
structure Takes (p : Pattern) (ignoreCase : Bool) (L : Text → Prop) : Prop where
  mem_iff : ∀ {u v captures s}, s ∈ p.ends ignoreCase (.between u v captures) ↔
    ∃ w v', v = w ++ v' ∧ L w ∧ s = .between (u ++ w) v' captures

/-- A pattern takes all that is ahead exactly if that is a text of a language. -/
structure TakesAll (p : Pattern) (ignoreCase : Bool) (L : Text → Prop) : Prop where
  exists_iff : ∀ {u v captures}, (∃ s ∈ p.ends ignoreCase (.between u v captures), s.cursor.rest = []) ↔ L v

/-- The texts of one language followed by those of another one. -/
def After (L M : Text → Prop) (t : Text) : Prop :=
  ∃ a b, t = a ++ b ∧ L a ∧ M b

variable {p q : Pattern} {ignoreCase : Bool} {L M : Text → Prop}

theorem Takes.congr (takes : p.Takes ignoreCase L) (same : ∀ w, L w ↔ M w) : p.Takes ignoreCase M := by
  constructor
  intro u v captures s
  rw [takes.mem_iff]
  simp only [same]

theorem TakesAll.congr (takes : p.TakesAll ignoreCase L) (same : ∀ w, L w ↔ M w) : p.TakesAll ignoreCase M := by
  constructor
  intro u v captures
  rw [takes.exists_iff, same]

/-! ### One after the other, and one or the other -/

theorem Takes.seq (first : p.Takes ignoreCase L) (second : q.Takes ignoreCase M) : (p.seq q).Takes ignoreCase (After L M) := by
  constructor
  intro u v captures s
  rw [ends, List.mem_flatMap]
  constructor
  · rintro ⟨_, early, late⟩
    obtain ⟨a, v₁, rfl, inL, rfl⟩ := first.mem_iff.mp early
    obtain ⟨b, v', rfl, inM, rfl⟩ := second.mem_iff.mp late
    exact ⟨a ++ b, v', by simp, ⟨a, b, rfl, inL, inM⟩, by simp⟩
  · rintro ⟨_, v', rfl, ⟨a, b, rfl, inL, inM⟩, rfl⟩
    exact ⟨_, first.mem_iff.mpr ⟨a, b ++ v', by simp, inL, rfl⟩, second.mem_iff.mpr ⟨b, v', rfl, inM, by simp⟩⟩

theorem Takes.alt (first : p.Takes ignoreCase L) (second : q.Takes ignoreCase M) :
    (p.alt q).Takes ignoreCase fun w => L w ∨ M w := by
  constructor
  intro u v captures s
  rw [ends, List.mem_append, first.mem_iff, second.mem_iff]
  constructor
  · rintro (⟨w, v', rfl, inL, rfl⟩ | ⟨w, v', rfl, inM, rfl⟩)
    · exact ⟨w, v', rfl, .inl inL, rfl⟩
    · exact ⟨w, v', rfl, .inr inM, rfl⟩
  · rintro ⟨w, v', rfl, inL | inM, rfl⟩
    · exact .inl ⟨w, v', rfl, inL, rfl⟩
    · exact .inr ⟨w, v', rfl, inM, rfl⟩

theorem Takes.seqAll (first : p.Takes ignoreCase L) (second : q.TakesAll ignoreCase M) :
    (p.seq q).TakesAll ignoreCase (After L M) := by
  constructor
  intro u v captures
  simp only [ends, List.mem_flatMap]
  constructor
  · rintro ⟨s, ⟨_, early, late⟩, whole⟩
    obtain ⟨a, v', rfl, inL, rfl⟩ := first.mem_iff.mp early
    exact ⟨a, v', rfl, inL, second.exists_iff.mp ⟨s, late, whole⟩⟩
  · rintro ⟨a, b, rfl, inL, inM⟩
    obtain ⟨s, late, whole⟩ := second.exists_iff.mpr inM
    exact ⟨s, ⟨_, first.mem_iff.mpr ⟨a, b, rfl, inL, rfl⟩, late⟩, whole⟩

/-- Before a newline that ends the text there is something left, so the place is the end itself. -/
theorem takesAll_textEnd : (anchor .textEnd).TakesAll ignoreCase (· = []) := by
  constructor
  intro u v captures
  constructor
  · rintro ⟨s, member, whole⟩
    have same : s = .between u v captures := by
      rw [ends] at member
      by_cases holds : Anchor.holds (Attempt.between u v captures).cursor .textEnd = true
      · simpa [holds] using member
      · simp [holds] at member
    rwa [same] at whole
  · rintro rfl
    exact ⟨.between u [] captures, by simp [ends, Anchor.holds], rfl⟩

/-! ### Characters and words -/

theorem takes_one (cls : CharClass) : (one cls).Takes ignoreCase fun w => ∃ c, w = [c] ∧ cls.accepts ignoreCase c = true := by
  constructor
  intro u v captures s
  constructor
  · intro member
    cases v with
    | nil => simp [ends] at member
    | cons d v =>
      by_cases accepted : cls.accepts ignoreCase d = true
      · have same : s = .between (u ++ [d]) v captures := by simpa [ends, accepted, Attempt.between] using member
        exact ⟨[d], v, rfl, ⟨d, rfl, accepted⟩, same⟩
      · simp [ends, accepted] at member
  · rintro ⟨_, v', rfl, ⟨c, rfl, accepted⟩, rfl⟩
    simp [ends, accepted, Attempt.between]

theorem takes_many {cls : CharClass} {r : Repetition} (unbounded : r.most = none) :
    (many cls r).Takes ignoreCase fun w => (∀ c ∈ w, cls.accepts ignoreCase c = true) ∧ r.least ≤ w.length := by
  constructor
  intro u v captures s
  rw [mem_many_between unbounded]
  simp only [and_assoc]

theorem takes_plus (cls : CharClass) :
    (many cls .plus).Takes ignoreCase fun w => (∀ c ∈ w, cls.accepts ignoreCase c = true) ∧ w ≠ [] :=
  (takes_many rfl).congr fun w => by simp [Repetition.plus, List.length_pos_iff, Nat.succ_le_iff]

theorem takes_blanks : blanks.Takes ignoreCase AreBlanks :=
  (takes_many rfl).congr fun w => by simp [AreBlanks, accepts_blank, Repetition.star]

theorem takes_someBlanks : someBlanks.Takes ignoreCase fun w => AreBlanks w ∧ w ≠ [] :=
  (takes_plus _).congr fun w => by simp [AreBlanks, accepts_blank]

/-- Each character of a word takes one character, itself or, if case does not matter, one that differs from it in case only. -/
theorem takes_literal (w : Text) :
    (literal w).Takes ignoreCase (List.Forall₂ (fun d c => (CharClass.char d).accepts ignoreCase c = true) w) := by
  constructor
  induction w with
  | nil =>
    intro u v captures s
    simp [literal, sequence, ends]
  | cons d w ih =>
    intro u v captures s
    have step : (literal (d :: w)).ends ignoreCase (.between u v captures) =
        ((one (.char d)).ends ignoreCase (.between u v captures)).flatMap ((literal w).ends ignoreCase) :=
      ends_sequence_cons _ _ _
    rw [step, List.mem_flatMap]
    constructor
    · rintro ⟨s', first, rest⟩
      obtain ⟨_, v', rfl, ⟨c, rfl, accepted⟩, rfl⟩ := (takes_one _).mem_iff.mp first
      obtain ⟨x, v'', rfl, same, rfl⟩ := ih.mp rest
      exact ⟨c :: x, v'', by simp, .cons accepted same, by simp⟩
    · rintro ⟨_, v', rfl, same, rfl⟩
      obtain ⟨c, x, accepted, others, rfl⟩ := List.forall₂_cons_left_iff.mp same
      exact ⟨_, (takes_one _).mem_iff.mpr ⟨[c], x ++ v', rfl, ⟨c, rfl, accepted⟩, rfl⟩,
        ih.mpr ⟨x, v', rfl, others, by simp⟩⟩

theorem takes_char (c : Char) : (char c).Takes false (· = [c]) := by
  constructor
  intro u v captures s
  rw [mem_char]
  simp

theorem takes_word (w : String) : (word w).Takes false (· = w.toList) := by
  constructor
  intro u v captures s
  rw [word, mem_literal]
  simp

end Pattern

end CMakeLint
