import CMakeLint.Proofs.Text.Lines
import CMakeLint.Span

/-!
The lines of a span. A span touches a line if one of its characters is on that line, a newline being on the line that it ends.
For the purpose of suppression the last line is looked up only if the last character stands at a position greater than the
number of the first line. Positions and line numbers are far enough apart for that as soon as the text has one character up
to the start of the span that is no newline: then the lines are those that the span touches (`mem_lines_iff_touches`). What goes
wrong are spans of two characters in the newlines at the start of a text, of which the second line is missed
(`lineMask_exact_iff`).
-/
namespace CMakeLint

theorem testBit_foldl (lines : List Nat) (mask k : Nat) :
    (lines.foldl (fun mask line => mask ||| 1 <<< line) mask).testBit k = (mask.testBit k || lines.contains k) := by
  induction lines generalizing mask with
  | nil => simp
  | cons line lines ih =>
    have same : decide (line = k) = (k == line) := by
      rw [Bool.eq_iff_iff, decide_eq_true_iff, beq_iff_eq, eq_comm]
    rw [List.foldl_cons, ih, Nat.testBit_or, Nat.one_shiftLeft, Nat.testBit_two_pow, same, List.contains_cons, Bool.or_assoc]

namespace Position

/-- Lines go up one by one, so none is left out between two positions. -/
theorem exists_line_between {t : Text} {a b line : Nat} (le : a ≤ b) (inside : b ≤ t.length)
    (lower : (ofOffset t a).line ≤ line) (upper : line ≤ (ofOffset t b).line) :
    ∃ n, a ≤ n ∧ n ≤ b ∧ (ofOffset t n).line = line := by
  induction b, le using Nat.le_induction with
  | base => exact ⟨a, Nat.le_refl _, Nat.le_refl _, by omega⟩
  | succ b le ih =>
    by_cases earlier : line ≤ (ofOffset t b).line
    · obtain ⟨n, after, before, same⟩ := ih (by omega) earlier
      exact ⟨n, after, by omega, same⟩
    · have step := ofOffset_line_succ (List.getElem?_eq_getElem (show b < t.length by omega))
      refine ⟨b + 1, by omega, Nat.le_refl _, ?_⟩
      split at step <;> omega

theorem ofOffset_line_le (t : Text) (n : Nat) : (ofOffset t n).line ≤ n + 1 := by
  rw [ofOffset_line]
  have := List.count_le_length (a := '\n') (l := t.take n)
  rw [List.length_take] at this
  omega

/-- A line number reaches its greatest value only if there are newlines alone before the position. -/
theorem ofOffset_line_le_of_char {t : Text} {m n : Nat} (before : m < n) (inside : n ≤ t.length)
    (char : t[m]? ≠ some '\n') : (ofOffset t n).line ≤ n := by
  rw [ofOffset_line]
  have bound := List.count_le_length (a := '\n') (l := t.take n)
  have size : (t.take n).length = n := by
    rw [List.length_take]
    omega
  have notAll : (t.take n).count '\n' ≠ (t.take n).length := by
    intro all
    have present : t[m]? = some t[m] := List.getElem?_eq_getElem (by omega)
    have taken : (t.take n)[m]? = some t[m] := by rw [List.getElem?_take, if_pos before, present]
    have same := List.count_eq_length.mp all _ (List.mem_of_getElem? taken)
    exact char (by rw [present, ← same])
  omega

end Position

namespace Span

/-- One of the characters of a span is on a line. -/
def Touches (s : Span) (t : Text) (line : Nat) : Prop :=
  ∃ n < t.length, s.start ≤ n ∧ n < s.stop ∧ (Position.ofOffset t n).line = line

instance (s : Span) (t : Text) (line : Nat) : Decidable (s.Touches t line) :=
  inferInstanceAs (Decidable (∃ n < t.length, s.start ≤ n ∧ n < s.stop ∧ (Position.ofOffset t n).line = line))

theorem lines_of_empty {s : Span} (empty : s.length = 0) (t : Text) : s.lines t = [] := by
  rw [lines, if_pos (.inl empty)]

/-- A span covers two characters of a text, and the text starts with newlines only, up to the first of the two. -/
structure InNewlines (s : Span) (t : Text) : Prop where
  pair : min s.stop t.length = s.start + 2
  newlines : ∀ n ≤ s.start, t[n]? = some '\n'

/-- The line of the last character is the line at which a span ends, whether it is looked up or not. -/
theorem last_line_eq {s : Span} {t : Text} (regular : ¬ s.InNewlines t) (nonempty : s.length ≠ 0) (starts : s.start < t.length) :
    (if (Position.ofOffset t s.start).line < min s.stop t.length - 1
      then (Position.ofOffset t (min s.stop t.length - 1)).line else (Position.ofOffset t s.start).line) =
      (Position.ofOffset t (min s.stop t.length - 1)).line := by
  have stop : s.start < s.stop := by
    rw [Span.stop]
    omega
  split
  · rfl
  · rename_i near
    -- A line number is at most one more than its position, so the span has one character or two.
    have line := Position.ofOffset_line_le t s.start
    rcases (by omega : min s.stop t.length - 1 = s.start ∨ min s.stop t.length - 1 = s.start + 1) with same | next
    · rw [same]
    · obtain ⟨n, before, char⟩ : ∃ n ≤ s.start, t[n]? ≠ some '\n' := by
        by_contra all
        refine regular ⟨by omega, ?_⟩
        intro n before
        by_contra char
        exact all ⟨n, before, char⟩
      rcases Nat.lt_or_eq_of_le before with less | rfl
      · have lower := Position.ofOffset_line_le_of_char less (Nat.le_of_lt starts) char
        omega
      · -- The span starts with a character that is no newline: the second one is on the same line.
        have here : t[s.start]? = some t[s.start] := List.getElem?_eq_getElem starts
        have step := Position.ofOffset_line_succ here
        rw [if_neg (fun newline => char (by rw [here, newline]))] at step
        rw [next]
        exact step.symm

theorem mem_lines_iff_of_regular {s : Span} {t : Text} {line : Nat} (regular : ¬ s.InNewlines t) :
    line ∈ s.lines t ↔ s.Touches t line := by
  rw [lines]
  by_cases none : s.length = 0 ∨ t.length ≤ s.start
  · rw [if_pos none]
    constructor
    · intro member
      cases member
    · rintro ⟨n, inside, after, before, _⟩
      rw [Span.stop] at before
      omega
  · rw [if_neg none]
    obtain ⟨nonempty, starts⟩ := not_or.mp none
    have stop : s.start < s.stop := by
      rw [Span.stop]
      omega
    have last := last_line_eq regular nonempty (by omega)
    have mono := Position.ofOffset_line_mono t (show s.start ≤ min s.stop t.length - 1 by omega)
    simp only [last, List.mem_range'_1]
    constructor
    · rintro ⟨lower, upper⟩
      obtain ⟨n, after, before, same⟩ := Position.exists_line_between (show s.start ≤ min s.stop t.length - 1 by omega)
        (by omega) lower (by omega)
      exact ⟨n, by omega, after, by omega, same⟩
    · rintro ⟨n, inside, after, before, rfl⟩
      have lower := Position.ofOffset_line_mono t after
      have upper := Position.ofOffset_line_mono t (show n ≤ min s.stop t.length - 1 by omega)
      exact ⟨lower, by omega⟩

/-- The lines on which a span can be suppressed are those that it touches. -/
theorem mem_lines_iff_touches {s : Span} {t : Text} {line : Nat} (anchored : ∃ n ≤ s.start, t[n]? ≠ some '\n') :
    line ∈ s.lines t ↔ s.Touches t line := by
  obtain ⟨n, before, char⟩ := anchored
  exact mem_lines_iff_of_regular fun leading => char (leading.newlines n before)

/-! ### Lines as bits of a number -/

theorem testBit_lineMask (s : Span) (t : Text) (line : Nat) : (s.lineMask t).testBit line = true ↔ line ∈ s.lines t := by
  rw [lineMask, testBit_foldl]
  simp

variable {s : Span} {t : Text}

theorem InNewlines.line_start (leading : s.InNewlines t) : (Position.ofOffset t s.start).line = s.start + 1 := by
  have inside : s.start ≤ t.length := by
    have := leading.pair
    omega
  have size : (t.take s.start).length = s.start := by
    rw [List.length_take]
    omega
  have all : (t.take s.start).count '\n' = (t.take s.start).length := by
    refine List.count_eq_length.mpr ?_
    intro c member
    obtain ⟨n, before, rfl⟩ := List.mem_take_iff_getElem.mp member
    have newline := leading.newlines n (by omega)
    rw [List.getElem?_eq_getElem (by omega)] at newline
    exact (Option.some.inj newline).symm
  rw [Position.ofOffset_line, all, size]

/-- A span in the newlines that start a text counts as standing on its first line only. -/
theorem InNewlines.mem_lines (leading : s.InNewlines t) {line : Nat} : line ∈ s.lines t ↔ line = s.start + 1 := by
  have pair := leading.pair
  have present : ¬ (s.length = 0 ∨ t.length ≤ s.start) := by
    rw [Span.stop] at pair
    omega
  rw [lines, if_neg present, leading.line_start, pair]
  simp

/-- It touches two lines. -/
theorem InNewlines.touches_iff (leading : s.InNewlines t) {line : Nat} :
    s.Touches t line ↔ line = s.start + 1 ∨ line = s.start + 2 := by
  have pair := leading.pair
  have first := leading.line_start
  have second := Position.ofOffset_line_succ (leading.newlines s.start (Nat.le_refl _))
  rw [if_pos rfl, first] at second
  constructor
  · rintro ⟨n, inside, after, before, rfl⟩
    rcases (by omega : n = s.start ∨ n = s.start + 1) with rfl | rfl
    · exact .inl first
    · exact .inr second
  · rintro (rfl | rfl)
    · exact ⟨s.start, by omega, Nat.le_refl _, by omega, first⟩
    · exact ⟨s.start + 1, by omega, by omega, by omega, second⟩

/-- The bits of the mask are the lines that a span touches, but for the second line of a span in the newlines that start a text.
    So the mask is exact unless there is such a line. -/
theorem lineMask_exact_iff (s : Span) (t : Text) :
    (∀ line, (s.lineMask t).testBit line = true ↔ s.Touches t line ∧ ¬ (s.InNewlines t ∧ line = s.start + 2)) ∧
    ((∀ line, (s.lineMask t).testBit line = true ↔ s.Touches t line) ↔ ¬ s.InNewlines t) := by
  have bits : ∀ line, (s.lineMask t).testBit line = true ↔ s.Touches t line ∧ ¬ (s.InNewlines t ∧ line = s.start + 2) := by
    intro line
    rw [testBit_lineMask]
    by_cases leading : s.InNewlines t
    · rw [leading.mem_lines, leading.touches_iff]
      constructor
      · rintro rfl
        exact ⟨.inl rfl, by omega⟩
      · rintro ⟨touched, other⟩
        exact touched.resolve_right fun second => other ⟨leading, second⟩
    · rw [mem_lines_iff_of_regular leading]
      exact ⟨fun touched => ⟨touched, fun second => leading second.1⟩, And.left⟩
  refine ⟨bits, ?_⟩
  constructor
  · intro masked leading
    have touched : s.Touches t (s.start + 2) := leading.touches_iff.mpr (.inr rfl)
    exact ((bits _).mp ((masked _).mpr touched)).2 ⟨leading, rfl⟩
  · intro regular line
    rw [bits]
    exact ⟨And.left, fun touched => ⟨touched, fun second => regular second.1⟩⟩

/-- Two newlines at the start of a text are on two lines, but the mask has the first one only. -/
theorem second_newline_not_masked :
    (⟨0, 2⟩ : Span).InNewlines "\n\n".toList ∧ (⟨0, 2⟩ : Span).Touches "\n\n".toList 2 ∧
      ((⟨0, 2⟩ : Span).lineMask "\n\n".toList).testBit 2 = false ∧ (⟨0, 2⟩ : Span).lineMask "\n\n".toList = 2 := by
  have leading : (⟨0, 2⟩ : Span).InNewlines "\n\n".toList := by
    refine ⟨by decide, ?_⟩
    intro n before
    obtain rfl : n = 0 := Nat.le_zero.mp before
    rfl
  refine ⟨leading, leading.touches_iff.mpr (.inr rfl), ?_, by decide⟩
  rw [Bool.eq_false_iff]
  intro bit
  exact (((lineMask_exact_iff ⟨0, 2⟩ "\n\n".toList).1 2).mp bit).2 ⟨leading, rfl⟩

end Span

end CMakeLint
