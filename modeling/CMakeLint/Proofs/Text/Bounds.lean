import CMakeLint.Proofs.Text.Layout

/-!
Positions and lines of a text describe the same thing. Searching back and forth from a character for a newline gives the two ends of
its line, which depend on the number of the line only (`OnLine.lineStart_eq`, `OnLine.lineEnd_eq`), and what stands between them is
that line (`slice_line`). So the line and the column of a position, the ends of its line and the lines into which the text
is split agree with each other (`positions_agree_with_lines`).
-/
namespace CMakeLint.Text

/-! ### Searching for newlines -/

/-- Back from the end of a text to a newline is back to the start of its last line. -/
theorem takeWhile_reverse_of_lines {u part : Text} {earlier : List Text} (split : lines u = earlier ++ [part]) :
    u.reverse.takeWhile (· ≠ '\n') = part.reverse := by
  have plain : '\n' ∉ part := newline_not_mem_lines (t := u) (by rw [split]; simp)
  have above : (earlier.flatMap (· ++ ['\n'])).reverse.takeWhile (· ≠ '\n') = [] := by
    rcases List.eq_nil_or_concat earlier with rfl | ⟨before, l, rfl⟩
    · rfl
    · simp
  rw [eq_of_lines split, List.reverse_append, List.takeWhile_append_of_pos, above, List.append_nil]
  intro c member
  have other : c ≠ '\n' := by
    rintro rfl
    exact plain (List.mem_reverse.mp member)
  simpa using other

/-- From the start of a text to a newline is its first line. -/
theorem takeWhile_of_lines {v first : Text} {rest : List Text} (split : lines v = first :: rest) :
    v.takeWhile (· ≠ '\n') = first := by
  induction v generalizing first rest with
  | nil =>
    rw [lines_nil] at split
    cases split
    rfl
  | cons c v ih =>
    by_cases newline : c = '\n'
    · rw [newline, lines_newline] at split
      cases split
      simp [newline]
    · obtain ⟨next, more, below⟩ := exists_first_line v
      rw [lines_cons newline, below] at split
      cases split
      rw [List.takeWhile_cons_of_pos (by simpa using newline), ih below]
      rfl

/-! ### The ends of a line -/

/-- Where a line stops, by its number: after its last character. -/
def lineStop (t : Text) (number : Nat) : Nat :=
  t.lineOffset number + ((lines t)[number - 1]?.getD []).length

theorem lineStop_of_lines {t l : Text} {earlier rest : List Text} (split : lines t = earlier ++ l :: rest) :
    t.lineStop (earlier.length + 1) = (earlier.flatMap (· ++ ['\n'])).length + l.length := by
  rw [lineStop, lineOffset_of_lines split, split]
  simp

/-- What stands between the ends of a line is the line. -/
theorem slice_line {t l : Text} {k : Nat} (line : (lines t)[k]? = some l) :
    t.slice (t.lineOffset (k + 1)) (t.lineStop (k + 1)) = l := by
  obtain ⟨earlier, rest, split, rfl⟩ := split_of_getElem? line
  have text : t = earlier.flatMap (· ++ ['\n']) ++ unlines (l :: rest) := by
    have joined := unlines_append earlier [] l rest
    rw [List.nil_append, ← split, unlines_lines, unlines_concat, List.append_nil] at joined
    exact joined.symm
  have start : ∃ after, unlines (l :: rest) = l ++ after := by
    cases rest with
    | nil => exact ⟨[], by rw [unlines_singleton, List.append_nil]⟩
    | cons next rest => exact ⟨_, unlines_cons l (List.cons_ne_nil next rest)⟩
  obtain ⟨after, joined⟩ := start
  rw [lineOffset_of_lines split, lineStop_of_lines split, slice, Nat.add_sub_cancel_left, text, joined, List.drop_left,
    List.take_left]

/-- A position stands on a line: its column counts from the start of the line, and a newline or an end of the text is as far away
    from it as the ends of the line are. -/
structure OnLine (t : Text) (k n : Nat) : Prop where
  place : Position.ofOffset t n = ⟨k + 1, n - t.lineOffset (k + 1) + 1⟩
  line : (lines t)[k]? = some (t.slice (t.lineOffset (k + 1)) (t.lineStop (k + 1)))
  starts : t.lineOffset (k + 1) ≤ n
  stops : n ≤ t.lineStop (k + 1)
  back : ((t.take n).reverse.takeWhile (· ≠ '\n')).length = n - t.lineOffset (k + 1)
  forth : ((t.drop n).takeWhile (· ≠ '\n')).length = t.lineStop (k + 1) - n

variable {t : Text} {k m n : Nat}

theorem exists_onLine (inside : n ≤ t.length) : ∃ k, t.OnLine k n := by
  obtain ⟨earlier, part, first, rest, before, after, all⟩ := exists_cut t n
  have start := lineOffset_of_lines all
  have stop := lineStop_of_lines all
  have length := congrArg List.length (eq_of_lines before)
  rw [List.length_take, Nat.min_eq_left inside, List.length_append] at length
  rw [List.length_append] at stop
  have line : (lines t)[earlier.length]? = some (part ++ first) := by
    rw [all]
    simp
  refine ⟨earlier.length, ?_, by rw [slice_line line, line], by omega, by omega, ?_, ?_⟩
  · rw [Position.ofOffset_of_lines before, start, length, Nat.add_sub_cancel_left]
  · rw [takeWhile_reverse_of_lines before, List.length_reverse]
    omega
  · rw [takeWhile_of_lines after]
    omega

/-- The line of a character starts where the line with its number starts. -/
theorem OnLine.lineStart_eq (on : t.OnLine k n) (inside : n < t.length) (char : t[n]? ≠ some '\n') :
    t.lineStart n = .ok (t.lineOffset (k + 1)) := by
  rw [Text.lineStart_eq inside char, on.back, Nat.sub_sub_self on.starts]

/-- The line of a character ends with the last character of the line with its number. -/
theorem OnLine.lineEnd_eq (on : t.OnLine k n) (inside : n < t.length) (char : t[n]? ≠ some '\n') :
    t.lineEnd n = .ok (t.lineStop (k + 1) - 1) := by
  rw [Text.lineEnd_eq inside char, on.forth, Nat.add_sub_cancel' on.stops]

theorem OnLine.lt_lineStop (on : t.OnLine k n) (inside : n < t.length) (char : t[n]? ≠ some '\n') : n < t.lineStop (k + 1) := by
  have more := length_line_pos inside char
  rw [on.forth] at more
  omega

/-- If a line has a character, the end of the text is on that line only if the last character is. -/
theorem last_character_of_line (inside : n < t.length) (same : (Position.ofOffset t t.length).line = (Position.ofOffset t n).line) :
    t[t.length - 1]? ≠ some '\n' ∧ (Position.ofOffset t (t.length - 1)).line = (Position.ofOffset t n).line := by
  have last : t.length - 1 < t.length := by omega
  have step := Position.ofOffset_line_succ (List.getElem?_eq_getElem last)
  have lower := Position.ofOffset_line_mono t (show n ≤ t.length - 1 by omega)
  rw [Nat.sub_add_cancel (by omega), same] at step
  constructor
  · intro newline
    rw [List.getElem?_eq_getElem last] at newline
    rw [if_pos (Option.some.inj newline)] at step
    omega
  · split at step <;> omega

/-- The ends of a line that has a character are found from each of its positions but that of its newline. -/
theorem OnLine.ends_eq (on : t.OnLine k n) (inside : n < t.length) (within : m ≤ t.length)
    (same : (Position.ofOffset t m).line = k + 1) (char : t[m]? ≠ some '\n') :
    t.lineStart m = .ok (t.lineOffset (k + 1)) ∧ t.lineEnd m = .ok (t.lineStop (k + 1) - 1) := by
  have here : ∀ m < t.length, t[m]? ≠ some '\n' → (Position.ofOffset t m).line = k + 1 →
      t.lineStart m = .ok (t.lineOffset (k + 1)) ∧ t.lineEnd m = .ok (t.lineStop (k + 1) - 1) := by
    intro m within char same
    obtain ⟨k', on'⟩ := exists_onLine (Nat.le_of_lt within)
    obtain rfl : k' = k := by
      rw [on'.place] at same
      exact Nat.succ.inj same
    exact ⟨on'.lineStart_eq within char, on'.lineEnd_eq within char⟩
  rcases Nat.lt_or_eq_of_le within with before | rfl
  · exact here m before char same
  · -- at the end of the text the last character is asked instead
    have line : (Position.ofOffset t n).line = k + 1 := by rw [on.place]
    obtain ⟨char', same'⟩ := last_character_of_line inside (same.trans line.symm)
    have clamped : min t.length (t.length - 1) = t.length - 1 := by omega
    rw [lineStart_clamped (Nat.le_refl _), lineEnd_clamped (Nat.le_refl _), clamped]
    exact here _ (by omega) char' (same'.trans line)

/-! ### Positions and lines -/

/-- The line and the column of a character are counted from 1, in the lines into which the text is split and from the start of
    its line. The ends of the line enclose it, are those of every other position of the line, and what is between them is the
    line. Going on in the text is going on in lines and columns, so that no two positions have the same ones. -/
theorem positions_agree_with_lines (t : Text) :
    (∀ n < t.length, t[n]? ≠ some '\n' → ∃ k first last, t.positionAt n = .ok ⟨k + 1, n - first + 1⟩ ∧
      t.lineStart n = .ok first ∧ t.lineEnd n = .ok last ∧ first ≤ n ∧ n ≤ last ∧
      (lines t)[k]? = some (t.slice first (last + 1)) ∧
      ∀ m column : Nat, t.positionAt m = .ok ⟨k + 1, column⟩ → t[m]? ≠ some '\n' →
        t.lineStart m = .ok first ∧ t.lineEnd m = .ok last) ∧
    (∀ m n : Nat, m ≤ t.length → n ≤ t.length → t.positionAt m = t.positionAt n → m = n) ∧
    (∀ m n : Nat, m < n → n ≤ t.length → ∃ p q, t.positionAt m = .ok p ∧ t.positionAt n = .ok q ∧
      (p.line < q.line ∨ p.line = q.line ∧ p.column < q.column)) := by
  refine ⟨?_, ?_, ?_⟩
  · intro n inside char
    obtain ⟨k, on⟩ := exists_onLine (Nat.le_of_lt inside)
    have before := on.lt_lineStop inside char
    have stop : t.lineStop (k + 1) - 1 + 1 = t.lineStop (k + 1) := by omega
    refine ⟨k, t.lineOffset (k + 1), t.lineStop (k + 1) - 1, ?_, on.lineStart_eq inside char, on.lineEnd_eq inside char, on.starts,
      by omega, by rw [stop, on.line], ?_⟩
    · rw [positionAt_ok (Nat.le_of_lt inside), on.place]
    · intro m column place char'
      have within := positionAt_eq_ok place
      rw [positionAt_ok within] at place
      exact on.ends_eq inside within (by rw [Except.ok.inj place]) char'
  · intro m n within inside same
    rw [positionAt_ok within, positionAt_ok inside] at same
    exact Position.ofOffset_injective within inside (Except.ok.inj same)
  · intro m n less inside
    exact ⟨_, _, positionAt_ok (by omega), positionAt_ok inside, Position.ofOffset_before less inside⟩

/-- The last letter of a text that has an empty line and no newline at its end. From the end of the text the same line is found. -/
theorem last_letter_on_line : Text.positionAt "a\n\nbc".toList (4 : Nat) = .ok ⟨3, 2⟩ ∧
    (lines "a\n\nbc".toList)[2]? = some (slice "a\n\nbc".toList 3 5) ∧
    lineStart "a\n\nbc".toList (5 : Nat) = .ok 3 ∧ lineEnd "a\n\nbc".toList (5 : Nat) = .ok 4 := by
  have place : positionAt "a\n\nbc".toList (4 : Nat) = .ok ⟨3, 2⟩ := by decide +kernel
  have start : lineStart "a\n\nbc".toList (4 : Nat) = .ok 3 := by decide +kernel
  have stop : lineEnd "a\n\nbc".toList (4 : Nat) = .ok 4 := by decide +kernel
  obtain ⟨k, first, last, place', start', stop', _, _, line, others⟩ :=
    (positions_agree_with_lines "a\n\nbc".toList).1 4 (by decide) (by decide)
  obtain rfl : 3 = first := Except.ok.inj (start.symm.trans start')
  obtain rfl : 4 = last := Except.ok.inj (stop.symm.trans stop')
  obtain rfl : 2 = k := Nat.succ.inj (Position.mk.inj (Except.ok.inj (place.symm.trans place'))).1
  exact ⟨place, line, others 5 3 (by decide +kernel) (by decide)⟩

end CMakeLint.Text
