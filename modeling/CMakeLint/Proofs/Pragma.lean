import CMakeLint.Pragma
import CMakeLint.Proofs.Pattern.Ends
import CMakeLint.Proofs.Text.Case

/-!
Which lines have a pragma. What stands before the first number sign of a line plays no part: the line has a pragma if the text
after that sign is one (`isOn_iff`). So a comment that is put at the end of a line without a comment makes the line a pragma
line exactly if it is one by itself (`isOn_append`).
-/
namespace CMakeLint

/-! ### The number sign has no other case -/

theorem Text.sameIgnoringCase_sign (c : Char) : sameIgnoringCase '#' c = true ↔ c = '#' :=
  sameIgnoringCase_of_single (by decide) (by decide) c

namespace Pattern

theorem accepts_sign (c : Char) : (CharClass.char '#').accepts true c = true ↔ c = '#' := by
  rw [← Text.sameIgnoringCase_sign]
  simp [CharClass.accepts, CharClass.char, CharClass.contains]

theorem accepts_except_sign (c : Char) : (CharClass.except '#').accepts true c = true ↔ c ≠ '#' := by
  rw [Ne, ← Text.sameIgnoringCase_sign]
  simp [CharClass.accepts, CharClass.except, CharClass.contains]

theorem matchAt_isSome_iff {ignoreCase : Bool} {p : Pattern} {c : Cursor} {acceptable : Cursor → Bool} :
    (p.matchAt ignoreCase c acceptable).isSome = true ↔ ∃ s ∈ p.ends ignoreCase ⟨c, []⟩, acceptable s.cursor = true := by
  rw [matchAt, run_eq_findSome, List.findSome?_isSome_iff]
  refine exists_congr fun s => and_congr_right fun _ => ?_
  by_cases accepted : acceptable s.cursor = true
  · simp [accepted]
  · simp [accepted]

theorem lazyStar_select (places : List Cursor) : Repetition.lazyStar.select places = places := by
  simp [Repetition.select, Repetition.lazyStar]

/-- As few characters as possible, but also any longer run of them. -/
theorem mem_lazyStar {ignoreCase : Bool} {cls : CharClass} {before rest : Text}
    (accepted : ∀ c ∈ before, cls.accepts ignoreCase c = true) :
    (⟨Cursor.at (before ++ rest) before.length, []⟩ : Attempt) ∈
      (many cls .lazyStar).ends ignoreCase ⟨Cursor.at (before ++ rest) 0, []⟩ := by
  have places := stops_at (cls.accepts ignoreCase) (before ++ rest) 0
  rw [List.drop_zero] at places
  have long : before.length ≤ ((before ++ rest).takeWhile (cls.accepts ignoreCase)).length := by
    rw [List.takeWhile_append_of_pos accepted, List.length_append]
    omega
  rw [ends, lazyStar_select]
  refine List.mem_map.mpr ⟨Cursor.at (before ++ rest) before.length, ?_, rfl⟩
  rw [show (Cursor.at (before ++ rest) 0).rest = before ++ rest from rfl, Cursor.at_position, places]
  refine List.mem_map.mpr ⟨before.length, List.mem_range.mpr (by omega), by rw [Nat.zero_add]⟩

end Pattern

namespace Pragma

open Pattern (Cursor Attempt)

/-- Whether the text after a number sign makes a pragma of it. -/
def suppresses (after : Text) : Bool :=
  (body.matchAt true ⟨some '#', after, 0⟩ (·.rest.isEmpty)).isSome

theorem line_eq : line =
    .seq (.anchor .textStart) (.seq (.many (.except '#') .lazyStar) (.seq (.one (.char '#')) body)) := rfl

theorem suppresses_iff (before after : Text) : suppresses after = true ↔
    ∃ s ∈ body.ends true ⟨⟨some '#', after, before.length + 1⟩, []⟩, s.cursor.rest.isEmpty = true := by
  have moved : (⟨⟨some '#', after, before.length + 1⟩, []⟩ : Attempt) =
      Attempt.shift (before.length + 1) ⟨⟨some '#', after, 0⟩, []⟩ := by
    simp [Attempt.shift, Cursor.shift]
  rw [suppresses, Pattern.matchAt_isSome_iff, moved, Pattern.ends_shift]
  constructor
  · rintro ⟨s, member, whole⟩
    exact ⟨s.shift (before.length + 1), List.mem_map.mpr ⟨s, member, rfl⟩, whole⟩
  · rintro ⟨s', member, whole⟩
    obtain ⟨s, member', rfl⟩ := List.mem_map.mp member
    exact ⟨s, member', whole⟩

/-- A line has a pragma if it has a number sign and the text after the first one makes a pragma of it. -/
theorem isOn_iff (l : Text) : isOn l = true ↔
    ∃ before after, l = before ++ '#' :: after ∧ '#' ∉ before ∧ suppresses after = true := by
  rw [isOn, Pattern.matchWhole, Pattern.matchAt_isSome_iff, Pattern.Cursor.atStart_eq, line_eq]
  constructor
  · rintro ⟨s, member, whole⟩
    obtain ⟨start, first, member⟩ := List.mem_flatMap.mp member
    -- The characters before the sign that is taken are other ones, so it is the first of its kind.
    have start_eq : start = ⟨Cursor.at l 0, []⟩ := by simpa [Pattern.ends, Pattern.Anchor.holds, Cursor.at] using first
    subst start_eq
    obtain ⟨sign, skipped, member⟩ := List.mem_flatMap.mp member
    obtain ⟨k, _, inside, accepted, rfl⟩ := Pattern.mem_many (t := l) ⟨rfl, Nat.zero_le _⟩ skipped
    simp only [Cursor.at_position, Nat.zero_add] at accepted inside member
    obtain ⟨afterSign, taken, member⟩ := List.mem_flatMap.mp member
    rw [Pattern.ends, Cursor.at_rest] at taken
    cases rest : l.drop k with
    | nil => simp [rest] at taken
    | cons c after =>
      rw [rest] at taken
      simp only at taken
      split at taken
      · rename_i isSign
        have isSign := (Pattern.accepts_sign c).mp isSign
        subst isSign
        rw [List.mem_singleton] at taken
        subst taken
        have length : (l.take k).length = k := by
          rw [List.length_take]
          omega
        refine ⟨l.take k, after, by rw [← rest, List.take_append_drop], ?_, ?_⟩
        · intro present
          obtain ⟨j, bound, at_j⟩ := List.getElem_of_mem present
          rw [length] at bound
          obtain ⟨d, char, other⟩ := accepted j bound
          rw [List.getElem_take] at at_j
          rw [List.getElem?_eq_getElem (by omega), at_j] at char
          cases char
          exact (Pattern.accepts_except_sign _).mp other rfl
        · refine (suppresses_iff (l.take k) after).mpr ⟨s, ?_, whole⟩
          rw [length]
          exact member
      · cases taken
  · rintro ⟨before, after, rfl, plain, suppressing⟩
    obtain ⟨s, member, whole⟩ := (suppresses_iff before after).mp suppressing
    refine ⟨s, ?_, whole⟩
    refine List.mem_flatMap.mpr ⟨⟨Cursor.at (before ++ '#' :: after) 0, []⟩, ?_, ?_⟩
    · simp [Pattern.ends, Pattern.Anchor.holds, Cursor.at]
    · refine List.mem_flatMap.mpr ⟨⟨Cursor.at (before ++ '#' :: after) before.length, []⟩, ?_, ?_⟩
      · refine Pattern.mem_lazyStar fun c present => (Pattern.accepts_except_sign c).mpr ?_
        rintro rfl
        exact plain present
      · refine List.mem_flatMap.mpr ⟨⟨⟨some '#', after, before.length + 1⟩, []⟩, ?_, member⟩
        have isSign : (Pattern.CharClass.char '#').accepts true '#' = true := (Pattern.accepts_sign '#').mpr rfl
        simp [Pattern.ends, isSign]

theorem split_at_sign {before before' after after' : Text} (plain : '#' ∉ before) (plain' : '#' ∉ before')
    (same : before ++ '#' :: after = before' ++ '#' :: after') : before = before' ∧ after = after' := by
  have cut : ∀ {l rest : Text}, '#' ∉ l → (l ++ '#' :: rest).takeWhile (· ≠ '#') = l := by
    intro l rest none
    rw [List.takeWhile_append_of_pos, List.takeWhile_cons_of_neg (by simp), List.append_nil]
    intro c present
    simp only [ne_eq, decide_not, Bool.not_eq_true', decide_eq_false_iff_not]
    rintro rfl
    exact none present
  have first : before = before' := by rw [← cut plain, same, cut plain']
  subst first
  exact ⟨rfl, (List.cons.inj (List.append_cancel_left same)).2⟩

/-- A comment at the end of a line without a comment suppresses as it does by itself. -/
theorem isOn_append {l c : Text} (plain : '#' ∉ l) (comment : c.head? = some '#') : isOn (l ++ c) = isOn c := by
  obtain ⟨after, rfl⟩ := List.head?_eq_some_iff.mp comment
  have rest : ∀ l : Text, '#' ∉ l → (isOn (l ++ '#' :: after) = true ↔ suppresses after = true) := by
    intro l plain
    rw [isOn_iff]
    constructor
    · rintro ⟨before, after', same, plain', suppressing⟩
      obtain ⟨_, rfl⟩ := split_at_sign plain plain' same
      exact suppressing
    · intro suppressing
      exact ⟨l, after, rfl, plain, suppressing⟩
  exact Bool.eq_iff_iff.mpr ((rest l plain).trans (rest [] (by simp)).symm)

theorem isOn_of_plain {l : Text} (plain : '#' ∉ l) : isOn l = false := by
  rw [Bool.eq_false_iff]
  intro on
  obtain ⟨before, after, rfl, _, _⟩ := (isOn_iff l).mp on
  exact plain (by simp)

/-- A line of a text, by its number, has a pragma. -/
def Marks (t : Text) (number : Nat) : Prop :=
  ∃ l, 1 ≤ number ∧ (Text.lines t)[number - 1]? = some l ∧ isOn l = true

theorem mem_lines {t : Text} {number : Nat} : number ∈ lines t ↔ Marks t number := by
  rw [lines, List.mem_filterMap]
  constructor
  · rintro ⟨⟨l, number'⟩, listed, chosen⟩
    obtain ⟨on, same⟩ : isOn l = true ∧ number' = number := by simpa using chosen
    subst same
    obtain ⟨lower, at_number⟩ := List.mem_zipIdx_iff_le_and_getElem?_sub.mp listed
    exact ⟨l, lower, at_number, on⟩
  · rintro ⟨l, lower, at_number, on⟩
    exact ⟨(l, number), List.mem_zipIdx_iff_le_and_getElem?_sub.mpr ⟨lower, at_number⟩, if_pos on⟩

end Pragma

end CMakeLint
