import CMakeLint.Comment
import CMakeLint.Position
import Mathlib.Data.List.TakeWhile

/-!
Texts by their lines. Splitting a text at its newlines and putting the lines together again are inverse to each other
(`unlines_lines`, `lines_unlines`), so a change of single lines is a change of the text: comments are stripped line by line
(`lines_stripComments`). The line of a position is counted by the newlines before it (`ofOffset_line`), and the first and the
last position of its line are next to a newline or an end of the text (`lineStart_spec`, `lineEnd_spec`).
-/
namespace CMakeLint

namespace Text

/-! ### Splitting and joining -/

theorem lines_nil : lines [] = [[]] := rfl

theorem lines_newline (t : Text) : lines ('\n' :: t) = [] :: lines t := by
  simp [lines, fields]

theorem lines_cons {c : Char} (other : c ≠ '\n') (t : Text) : lines (c :: t) = (c :: (lines t).headD []) :: (lines t).tail := by
  simp [lines, fields, other]

theorem lines_ne_nil (t : Text) : lines t ≠ [] := by
  cases t with
  | nil => simp [lines_nil]
  | cons c t =>
    by_cases newline : c = '\n'
    · rw [newline, lines_newline]
      simp
    · rw [lines_cons newline]
      simp

theorem newline_not_mem_lines {t l : Text} (member : l ∈ lines t) : '\n' ∉ l := by
  induction t generalizing l with
  | nil =>
    rw [lines_nil, List.mem_singleton] at member
    simp [member]
  | cons c t ih =>
    by_cases newline : c = '\n'
    · rw [newline, lines_newline] at member
      rcases List.mem_cons.mp member with rfl | later
      · simp
      · exact ih later
    · obtain ⟨first, rest, split⟩ := List.exists_cons_of_ne_nil (lines_ne_nil t)
      rw [lines_cons newline, split] at member
      rw [split] at ih
      rcases List.mem_cons.mp member with rfl | later
      · have := ih List.mem_cons_self
        simp [Ne.symm newline, this]
      · exact ih (List.mem_cons_of_mem _ later)

theorem unlines_cons (l : Text) {ls : List Text} (nonempty : ls ≠ []) : unlines (l :: ls) = l ++ '\n' :: unlines ls := by
  obtain ⟨next, rest, rfl⟩ := List.exists_cons_of_ne_nil nonempty
  simp [unlines, join, List.intercalate]

theorem unlines_singleton (l : Text) : unlines [l] = l := by
  simp [unlines, join, List.intercalate]

theorem unlines_cons_head (c : Char) (l : Text) (ls : List Text) : unlines ((c :: l) :: ls) = c :: unlines (l :: ls) := by
  cases ls with
  | nil => rw [unlines_singleton, unlines_singleton]
  | cons next rest =>
    rw [unlines_cons (c :: l) (List.cons_ne_nil next rest), unlines_cons l (List.cons_ne_nil next rest), List.cons_append]

/-- The lines of a text put together are the text. -/
theorem unlines_lines (t : Text) : unlines (lines t) = t := by
  induction t with
  | nil => rfl
  | cons c t ih =>
    by_cases newline : c = '\n'
    · rw [newline, lines_newline, unlines_cons _ (lines_ne_nil t), ih]
      rfl
    · obtain ⟨first, rest, split⟩ := List.exists_cons_of_ne_nil (lines_ne_nil t)
      rw [lines_cons newline, split]
      rw [split] at ih
      simp only [List.headD_cons, List.tail_cons]
      rw [unlines_cons_head, ih]

theorem lines_append_newline {l : Text} (plain : '\n' ∉ l) (t : Text) : lines (l ++ '\n' :: t) = l :: lines t := by
  induction l with
  | nil => exact lines_newline t
  | cons c l ih =>
    have tail := ih (fun member => plain (List.mem_cons_of_mem _ member))
    rw [List.cons_append, lines_cons (fun same => plain (same ▸ List.mem_cons_self)), tail]
    rfl

theorem lines_of_plain {l : Text} (plain : '\n' ∉ l) : lines l = [l] := by
  induction l with
  | nil => exact lines_nil
  | cons c l ih =>
    have tail := ih (fun member => plain (List.mem_cons_of_mem _ member))
    rw [lines_cons (fun same => plain (same ▸ List.mem_cons_self)), tail]
    rfl

/-- Lines without newlines are the lines of the text that they make. -/
theorem lines_unlines {ls : List Text} (nonempty : ls ≠ []) (plain : ∀ l ∈ ls, '\n' ∉ l) : lines (unlines ls) = ls := by
  induction ls with
  | nil => exact absurd rfl nonempty
  | cons l rest ih =>
    have here := plain l List.mem_cons_self
    cases rest with
    | nil => rw [unlines_singleton, lines_of_plain here]
    | cons next rest =>
      have tail := ih (List.cons_ne_nil next rest) (fun l member => plain l (List.mem_cons_of_mem _ member))
      rw [unlines_cons l (List.cons_ne_nil next rest), lines_append_newline here, tail]

/-- Stripping comments cuts every line at its first number sign. -/
theorem lines_stripComments (t : Text) : lines (stripComments t) = (lines t).map (·.takeWhile (· ≠ '#')) := by
  refine lines_unlines (by simpa using lines_ne_nil t) ?_
  intro l member newline
  obtain ⟨raw, raw_member, rfl⟩ := List.mem_map.mp member
  exact newline_not_mem_lines raw_member ((List.takeWhile_sublist _).mem newline)

end Text

/-! ### Lines of positions -/

theorem Position.foldl_next_line (t : Text) (p : Position) : (t.foldl Position.next p).line = p.line + t.count '\n' := by
  induction t generalizing p with
  | nil => rfl
  | cons c t ih =>
    rw [List.foldl_cons, ih, List.count_cons]
    by_cases newline : c = '\n'
    · simp [Position.next, newline]
      omega
    · simp [Position.next, newline]

/-- The line of a position is one more than the number of newlines before it. -/
theorem Position.ofOffset_line (t : Text) (n : Nat) : (Position.ofOffset t n).line = (t.take n).count '\n' + 1 := by
  rw [Position.ofOffset, Position.foldl_next_line, Nat.add_comm]
  rfl

theorem Position.ofOffset_line_mono (t : Text) {m n : Nat} (le : m ≤ n) :
    (Position.ofOffset t m).line ≤ (Position.ofOffset t n).line := by
  rw [Position.ofOffset_line, Position.ofOffset_line]
  exact Nat.succ_le_succ ((List.take_sublist_take_left le).count_le _)

theorem Position.ofOffset_line_succ {t : Text} {n : Nat} {c : Char} (char : t[n]? = some c) :
    (Position.ofOffset t (n + 1)).line = (Position.ofOffset t n).line + if c = '\n' then 1 else 0 := by
  rw [Position.ofOffset_line, Position.ofOffset_line, List.take_add_one, char, List.count_append]
  by_cases newline : c = '\n'
  · simp [newline]
  · simp [newline]

/-! ### Ends of lines -/

theorem takeWhile_length_cases {p : Char → Bool} (l : Text) :
    (l.takeWhile p).length = l.length ∨ ∃ c, l[(l.takeWhile p).length]? = some c ∧ p c = false := by
  induction l with
  | nil => exact .inl rfl
  | cons c l ih =>
    by_cases taken : p c = true
    · rw [List.takeWhile_cons_of_pos taken, List.length_cons, List.length_cons]
      rcases ih with all | ⟨d, next, refused⟩
      · exact .inl (by rw [all])
      · exact .inr ⟨d, by simpa using next, refused⟩
    · rw [List.takeWhile_cons_of_neg taken]
      exact .inr ⟨c, rfl, by simpa using taken⟩

namespace Text

variable {t : Text} {n : Nat}

theorem checkPosition_ok (inside : n ≤ t.length) : t.checkPosition n = .ok n := by
  rw [checkPosition, if_pos ⟨by omega, by omega⟩, Int.toNat_natCast]

theorem positionAt_ok (inside : n ≤ t.length) : t.positionAt n = .ok (Position.ofOffset t n) := by
  rw [positionAt, checkPosition_ok inside]
  rfl

theorem positionAt_late (late : t.length < n) : t.positionAt n = .error .positionOutOfText := by
  rw [positionAt, checkPosition, if_neg (by omega)]
  rfl

theorem positionAt_eq_ok {p : Position} (made : t.positionAt n = .ok p) : n ≤ t.length := by
  by_contra late
  rw [positionAt_late (Nat.lt_of_not_le late)] at made
  cases made

/-- The line of the end of a text is that of its last character. -/
theorem lineCharacter_eq (inside : n ≤ t.length) :
    t.lineCharacter n = if t[min n (t.length - 1)]? = some '\n' then .error .positionOnNewline else .ok (min n (t.length - 1)) := by
  rw [lineCharacter, checkPosition_ok inside]
  rfl

theorem lineCharacter_ok (inside : n < t.length) (char : t[n]? ≠ some '\n') : t.lineCharacter n = .ok n := by
  have index : min n (t.length - 1) = n := by omega
  rw [lineCharacter_eq (Nat.le_of_lt inside), index, if_neg char]

theorem lineStart_clamped (inside : n ≤ t.length) : t.lineStart n = t.lineStart (min n (t.length - 1) : Nat) := by
  have same : min (min n (t.length - 1)) (t.length - 1) = min n (t.length - 1) := by omega
  rw [lineStart, lineStart, lineCharacter_eq inside, lineCharacter_eq (by omega), same]

theorem lineEnd_clamped (inside : n ≤ t.length) : t.lineEnd n = t.lineEnd (min n (t.length - 1) : Nat) := by
  have same : min (min n (t.length - 1)) (t.length - 1) = min n (t.length - 1) := by omega
  rw [lineEnd, lineEnd, lineCharacter_eq inside, lineCharacter_eq (by omega), same]

theorem lineStart_newline (inside : n ≤ t.length) (char : t[min n (t.length - 1)]? = some '\n') :
    t.lineStart n = .error .positionOnNewline := by
  rw [lineStart, lineCharacter_eq inside, if_pos char]
  rfl

theorem lineEnd_newline (inside : n < t.length) (char : t[n]? = some '\n') :
    t.lineEnd n = .error .positionOnNewline := by
  have index : min n (t.length - 1) = n := by omega
  rw [lineEnd, lineCharacter_eq (Nat.le_of_lt inside), index, if_pos char]
  rfl

theorem lineEnd_before_start (t : Text) : t.lineEnd (-1) = .error .positionOutOfText := rfl

theorem lineStart_eq (inside : n < t.length) (char : t[n]? ≠ some '\n') :
    t.lineStart n = .ok (n - ((t.take n).reverse.takeWhile (· ≠ '\n')).length) := by
  rw [lineStart, lineCharacter_ok inside char]
  rfl

theorem lineEnd_eq (inside : n < t.length) (char : t[n]? ≠ some '\n') :
    t.lineEnd n = .ok (n + ((t.drop n).takeWhile (· ≠ '\n')).length - 1) := by
  rw [lineEnd, lineCharacter_ok inside char]
  rfl

/-- From a character on there is something on its line. -/
theorem length_line_pos (inside : n < t.length) (char : t[n]? ≠ some '\n') :
    0 < ((t.drop n).takeWhile (· ≠ '\n')).length := by
  have other : t[n] ≠ '\n' := fun newline => char (by rw [List.getElem?_eq_getElem inside, newline])
  rw [List.drop_eq_getElem_cons inside, List.takeWhile_cons_of_pos (by simpa using other)]
  simp

/-- The first position of the line of a character, where the text starts or after a newline. -/
theorem lineStart_spec (inside : n < t.length) (char : t[n]? ≠ some '\n') :
    ∃ first, t.lineStart n = .ok first ∧ first ≤ n ∧ (first = 0 ∨ t[first - 1]? = some '\n') := by
  refine ⟨n - ((t.take n).reverse.takeWhile (· ≠ '\n')).length, lineStart_eq inside char, Nat.sub_le _ _, ?_⟩
  have whole : (t.take n).reverse.length = n := by
    rw [List.length_reverse, List.length_take]
    omega
  rcases takeWhile_length_cases (p := (· ≠ '\n')) (t.take n).reverse with all | ⟨c, next, newline⟩
  · exact .inl (by omega)
  · have bound := (List.getElem?_eq_some_iff.mp next).1
    rw [whole] at bound
    rw [List.getElem?_reverse (by rw [List.length_take]; omega), List.length_take,
      Nat.min_eq_left (Nat.le_of_lt inside), List.getElem?_take, if_pos (by omega)] at next
    refine .inr ?_
    have same : n - ((t.take n).reverse.takeWhile (· ≠ '\n')).length - 1 =
        n - 1 - ((t.take n).reverse.takeWhile (· ≠ '\n')).length := by omega
    rw [same, next]
    simpa using newline

/-- The last position of the line of a character, where the text ends or before a newline. -/
theorem lineEnd_spec (inside : n < t.length) (char : t[n]? ≠ some '\n') :
    ∃ last, t.lineEnd n = .ok last ∧ n ≤ last ∧ last < t.length ∧ (last + 1 = t.length ∨ t[last + 1]? = some '\n') := by
  have positive := length_line_pos inside char
  have shorter := (List.takeWhile_sublist (l := t.drop n) (· ≠ '\n')).length_le
  rw [List.length_drop] at shorter
  refine ⟨n + ((t.drop n).takeWhile (· ≠ '\n')).length - 1, lineEnd_eq inside char, by omega, by omega, ?_⟩
  have after : n + ((t.drop n).takeWhile (· ≠ '\n')).length - 1 + 1 = n + ((t.drop n).takeWhile (· ≠ '\n')).length := by
    omega
  rw [after]
  rcases takeWhile_length_cases (p := (· ≠ '\n')) (t.drop n) with all | ⟨d, next, newline⟩
  · rw [List.length_drop] at all
    exact .inl (by omega)
  · rw [List.getElem?_drop] at next
    rw [next]
    exact .inr (by simpa using newline)

end Text

end CMakeLint
