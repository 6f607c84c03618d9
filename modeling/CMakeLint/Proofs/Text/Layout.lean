import CMakeLint.Proofs.Lists
import CMakeLint.Proofs.Text.Lines

/-!
Lines and columns as places of a text. Cutting a text at a position cuts one of its lines and leaves the others as they are
(`exists_cut`), so a line and a column say which line is cut and where (`ofOffset_of_lines`), and later positions have later
places (`ofOffset_before`). A piece of text from the start of a line to the end of a line consists of lines of the text
(`lines_slice`), and the first and the last position of a line are on that line (`lineStart_line`, `lineEnd_line`).
-/
namespace CMakeLint

namespace Text

/-! ### Lines of a cut text -/

theorem unlines_append_head (l m : Text) (ms : List Text) : l ++ unlines (m :: ms) = unlines ((l ++ m) :: ms) := by
  induction l with
  | nil => rfl
  | cons c l ih => rw [List.cons_append, List.cons_append, unlines_cons_head, ih]

/-- Each line but the last has its newline. -/
theorem unlines_concat (ls : List Text) (l : Text) : unlines (ls ++ [l]) = ls.flatMap (· ++ ['\n']) ++ l := by
  induction ls with
  | nil => exact unlines_singleton l
  | cons first ls ih =>
    rw [List.cons_append, unlines_cons first (by simp), ih]
    simp

theorem unlines_append (ls : List Text) (l m : Text) (ms : List Text) :
    unlines (ls ++ [l]) ++ unlines (m :: ms) = unlines (ls ++ (l ++ m) :: ms) := by
  induction ls with
  | nil => rw [List.nil_append, List.nil_append, unlines_singleton, unlines_append_head]
  | cons first ls ih =>
    rw [List.cons_append, List.cons_append, unlines_cons first (by simp), unlines_cons first (by simp), ← ih]
    simp

/-- Where a text goes on, its last line goes on with the first line of what follows. -/
theorem lines_append_of_lines {u v part first : Text} {earlier rest : List Text} (before : lines u = earlier ++ [part])
    (after : lines v = first :: rest) : lines (u ++ v) = earlier ++ (part ++ first) :: rest := by
  have text : u ++ v = unlines (earlier ++ (part ++ first) :: rest) := by
    rw [← unlines_append, ← before, ← after, unlines_lines, unlines_lines]
  have above : ∀ l ∈ earlier ++ [part], '\n' ∉ l := fun l member => newline_not_mem_lines (before ▸ member)
  have below : ∀ l ∈ first :: rest, '\n' ∉ l := fun l member => newline_not_mem_lines (after ▸ member)
  rw [text]
  refine lines_unlines (by simp) ?_
  intro l member
  rcases List.mem_append.mp member with earlier' | later
  · exact above l (List.mem_append_left _ earlier')
  · rcases List.mem_cons.mp later with rfl | later
    · simp [above part (by simp), below first (by simp)]
    · exact below l (List.mem_cons_of_mem _ later)

theorem exists_last_line (t : Text) : ∃ earlier part, lines t = earlier ++ [part] :=
  ⟨_, _, (List.dropLast_concat_getLast (lines_ne_nil t)).symm⟩

theorem exists_first_line (t : Text) : ∃ first rest, lines t = first :: rest :=
  List.exists_cons_of_ne_nil (lines_ne_nil t)

/-- A position cuts one line of the text into a part before it and a part after it. -/
theorem exists_cut (t : Text) (n : Nat) : ∃ earlier part first rest, lines (t.take n) = earlier ++ [part] ∧
    lines (t.drop n) = first :: rest ∧ lines t = earlier ++ (part ++ first) :: rest := by
  obtain ⟨earlier, part, before⟩ := exists_last_line (t.take n)
  obtain ⟨first, rest, after⟩ := exists_first_line (t.drop n)
  have all := lines_append_of_lines before after
  rw [List.take_append_drop] at all
  exact ⟨earlier, part, first, rest, before, after, all⟩

theorem lines_append_newline_text (a b : Text) : lines (a ++ '\n' :: b) = lines a ++ lines b := by
  obtain ⟨earlier, part, split⟩ := exists_last_line a
  rw [lines_append_of_lines split (lines_newline b), split]
  simp

theorem length_lines (t : Text) : (lines t).length = t.count '\n' + 1 := by
  induction t with
  | nil => rfl
  | cons c t ih =>
    by_cases newline : c = '\n'
    · simp [newline, lines_newline, ih]
    · obtain ⟨first, rest, split⟩ := exists_first_line t
      rw [lines_cons newline, List.count_cons_of_ne newline, ← ih, split]
      simp

/-! ### Where lines start -/

/-- Where a line starts, by its number: after the lines before it and their newlines. -/
def lineOffset (t : Text) (number : Nat) : Nat :=
  (((lines t).take (number - 1)).flatMap (· ++ ['\n'])).length

theorem lineOffset_of_lines {t l : Text} {earlier rest : List Text} (split : lines t = earlier ++ l :: rest) :
    t.lineOffset (earlier.length + 1) = (earlier.flatMap (· ++ ['\n'])).length := by
  rw [lineOffset, split, Nat.add_sub_cancel, List.take_left]

theorem eq_of_lines {u part : Text} {earlier : List Text} (split : lines u = earlier ++ [part]) :
    u = earlier.flatMap (· ++ ['\n']) ++ part := by
  rw [← unlines_concat, ← split, unlines_lines]

theorem slice_eq_drop_take (t : Text) (start stop : Nat) : t.slice start stop = (t.take stop).drop start := by
  rw [slice, List.drop_take]

end Text

namespace Position

/-! ### Places of positions -/

theorem foldl_next_plain {l : Text} (plain : '\n' ∉ l) (p : Position) :
    l.foldl next p = ⟨p.line, p.column + l.length⟩ := by
  induction l generalizing p with
  | nil => rfl
  | cons c l ih =>
    have other : c ≠ '\n' := fun same => plain (same ▸ List.mem_cons_self)
    have tail : '\n' ∉ l := fun member => plain (List.mem_cons_of_mem _ member)
    rw [List.foldl_cons, next, if_neg other, ih tail, List.length_cons]
    simp only [mk.injEq, true_and]
    omega

theorem foldl_next_newline (l : Text) (p : Position) : (l ++ ['\n']).foldl next p = ⟨p.line + l.count '\n' + 1, 1⟩ := by
  rw [List.foldl_append, List.foldl_cons, List.foldl_nil, next, if_pos rfl, foldl_next_line]

theorem foldl_next_lines {ls : List Text} (plain : ∀ l ∈ ls, '\n' ∉ l) (number : Nat) :
    (ls.flatMap (· ++ ['\n'])).foldl next ⟨number, 1⟩ = ⟨number + ls.length, 1⟩ := by
  induction ls generalizing number with
  | nil => rfl
  | cons l ls ih =>
    have none : l.count '\n' = 0 := List.count_eq_zero.mpr (plain l List.mem_cons_self)
    rw [List.flatMap_cons, List.foldl_append, foldl_next_newline, none,
      ih (fun m member => plain m (List.mem_cons_of_mem _ member)), List.length_cons]
    simp only [mk.injEq, and_true]
    omega

/-- The place of a position: how many lines end before it, and how much of its own line stands before it. -/
theorem ofOffset_of_lines {t part : Text} {n : Nat} {earlier : List Text} (split : Text.lines (t.take n) = earlier ++ [part]) :
    ofOffset t n = ⟨earlier.length + 1, part.length + 1⟩ := by
  have plain : ∀ m ∈ earlier ++ [part], '\n' ∉ m := fun m member => Text.newline_not_mem_lines (split ▸ member)
  rw [ofOffset, Text.eq_of_lines split, List.foldl_append, first,
    foldl_next_lines (fun m member => plain m (List.mem_append_left _ member)), foldl_next_plain (plain part (by simp))]
  simp only [mk.injEq]
  omega

theorem ofOffset_succ {t : Text} {n : Nat} {c : Char} (char : t[n]? = some c) :
    ofOffset t (n + 1) = (ofOffset t n).next c := by
  rw [ofOffset, ofOffset, List.take_add_one, char, List.foldl_append]
  rfl

/-- A place stands before another one in reading order. -/
def Before (p q : Position) : Prop :=
  p.line < q.line ∨ p.line = q.line ∧ p.column < q.column

theorem Before.trans {p q r : Position} (first : p.Before q) (second : q.Before r) : p.Before r := by
  unfold Before at *
  omega

theorem before_next (p : Position) (c : Char) : p.Before (p.next c) := by
  unfold Before next
  split <;> simp

/-- Later positions have later places. -/
theorem ofOffset_before {t : Text} {m n : Nat} (lt : m < n) (inside : n ≤ t.length) :
    (ofOffset t m).Before (ofOffset t n) := by
  induction n, lt using Nat.le_induction with
  | base =>
    rw [ofOffset_succ (List.getElem?_eq_getElem (show m < t.length by omega))]
    exact before_next _ _
  | succ n lt ih =>
    rw [ofOffset_succ (List.getElem?_eq_getElem (show n < t.length by omega))]
    exact (ih (by omega)).trans (before_next _ _)

theorem ofOffset_injective {t : Text} {m n : Nat} (inside : m ≤ t.length) (inside' : n ≤ t.length)
    (same : ofOffset t m = ofOffset t n) : m = n := by
  rcases Nat.lt_trichotomy m n with less | equal | greater
  · have before := ofOffset_before less inside'
    rw [same] at before
    simp [Before] at before
  · exact equal
  · have before := ofOffset_before greater inside
    rw [same] at before
    simp [Before] at before

end Position

namespace Text

/-! ### Characters by their places -/

/-- The character at a place; a newline has none. -/
def charAt? (t : Text) : Position → Option Char
  | ⟨line + 1, column + 1⟩ => (lines t)[line]?.bind (·[column]?)
  | _ => none

theorem charAt_of_offset {t : Text} {n : Nat} {c : Char} (char : t[n]? = some c) (other : c ≠ '\n') :
    t.charAt? (Position.ofOffset t n) = some c := by
  obtain ⟨earlier, part, first, rest, before, after, all⟩ := exists_cut t n
  have inside : n < t.length := (List.getElem?_eq_some_iff.mp char).1
  have next : t.drop n = c :: t.drop (n + 1) := by
    rw [List.drop_eq_getElem_cons inside]
    rw [List.getElem?_eq_getElem inside] at char
    rw [Option.some.inj char]
  rw [next, lines_cons other] at after
  obtain ⟨rfl, rfl⟩ := List.cons.inj after
  rw [Position.ofOffset_of_lines before, charAt?, all]
  simp

theorem offset_of_charAt {t : Text} {p : Position} {c : Char} (char : t.charAt? p = some c) :
    ∃ n, t[n]? = some c ∧ c ≠ '\n' ∧ Position.ofOffset t n = p := by
  obtain ⟨line, column⟩ := p
  rcases line with _ | line
  · cases char
  rcases column with _ | column
  · cases char
  obtain ⟨l, number, within⟩ := Option.bind_eq_some_iff.mp char
  obtain ⟨earlier, rest, all, rfl⟩ := split_of_getElem? number
  obtain ⟨part, after, rfl, rfl⟩ := split_of_getElem? within
  have plain : ∀ m ∈ lines t, '\n' ∉ m := fun m member => newline_not_mem_lines member
  rw [all] at plain
  have here : '\n' ∉ part ++ c :: after := plain _ (by simp)
  have cut : lines (unlines (earlier ++ [part])) = earlier ++ [part] := by
    refine lines_unlines (by simp) ?_
    intro m member
    rcases List.mem_append.mp member with above | same
    · exact plain m (List.mem_append_left _ above)
    · rw [List.mem_singleton.mp same]
      exact fun newline => here (List.mem_append_left _ newline)
  have text : t = unlines (earlier ++ [part]) ++ unlines ((c :: after) :: rest) := by
    rw [unlines_append, ← all, unlines_lines]
  refine ⟨(unlines (earlier ++ [part])).length, ?_, ?_, ?_⟩
  · rw [text, List.getElem?_append_right (Nat.le_refl _), Nat.sub_self, unlines_cons_head]
    rfl
  · rintro rfl
    exact here (by simp)
  · refine Position.ofOffset_of_lines ?_
    rw [text, List.take_left, cut]

/-- The characters at places are those of the positions that have these places. -/
theorem charAt_eq_some_iff {t : Text} {p : Position} {c : Char} :
    t.charAt? p = some c ↔ ∃ n, t[n]? = some c ∧ c ≠ '\n' ∧ Position.ofOffset t n = p := by
  constructor
  · exact offset_of_charAt
  · rintro ⟨n, char, other, rfl⟩
    exact charAt_of_offset char other

/-! ### Whole lines -/

theorem take_append_slice {t : Text} {start stop : Nat} (le : start ≤ stop) :
    t.take start ++ t.slice start stop = t.take stop := by
  have length : stop = start + (stop - start) := by omega
  rw [slice, ← List.take_add, ← length]

/-- A piece of a text that starts and ends with lines of it consists of these lines. -/
theorem lines_slice {t : Text} {start stop : Nat} (le : start ≤ stop)
    (opens : start = 0 ∨ t[start - 1]? = some '\n') (closes : stop = t.length ∨ t[stop]? = some '\n') :
    ∃ above below, lines t = above ++ lines (t.slice start stop) ++ below ∧
      above.length + 1 = (Position.ofOffset t start).line := by
  have upper : ∀ rest : Text, ∃ above, lines (t.take start ++ rest) = above ++ lines rest ∧
      above.length + 1 = (Position.ofOffset t start).line := by
    intro rest
    rcases Nat.eq_zero_or_pos start with rfl | positive
    · exact ⟨[], by simp, rfl⟩
    · have newline := opens.resolve_left (by omega)
      have last : t.take start = t.take (start - 1) ++ ['\n'] := by
        have same : start = start - 1 + 1 := by omega
        rw [same, List.take_add_one, ← same, newline]
        rfl
      refine ⟨lines (t.take (start - 1)), ?_, ?_⟩
      · rw [last, List.append_assoc, List.singleton_append, lines_append_newline_text]
      · rw [Position.ofOffset_line, last, length_lines, List.count_append]
        rfl
  have lower : ∀ text : Text, ∃ below, lines (text ++ t.drop stop) = lines text ++ below := by
    intro text
    rcases closes with rfl | newline
    · exact ⟨[], by simp⟩
    · obtain ⟨inside, char⟩ := List.getElem?_eq_some_iff.mp newline
      refine ⟨lines (t.drop (stop + 1)), ?_⟩
      rw [List.drop_eq_getElem_cons inside, char, lines_append_newline_text]
  obtain ⟨below, under⟩ := lower (t.slice start stop)
  obtain ⟨above, upon, count⟩ := upper (t.slice start stop ++ t.drop stop)
  refine ⟨above, below, ?_, count⟩
  rw [List.append_assoc, ← under, ← upon, ← List.append_assoc, take_append_slice le, List.take_append_drop]

variable {t : Text} {n : Nat}

theorem takeWhile_plain (l : Text) : (l.takeWhile (· ≠ '\n')).count '\n' = 0 := by
  rw [List.count_eq_zero]
  intro member
  simpa using List.mem_takeWhile_imp member

theorem lineStart_line {first : Nat} (inside : n < t.length) (char : t[n]? ≠ some '\n') (found : t.lineStart n = .ok first) :
    (Position.ofOffset t first).line = (Position.ofOffset t n).line := by
  rw [lineStart_eq inside char] at found
  cases found
  have split := List.takeWhile_append_dropWhile (p := (· ≠ '\n')) (l := (t.take n).reverse)
  have plain := takeWhile_plain (t.take n).reverse
  generalize (t.take n).reverse.takeWhile (· ≠ '\n') = part at split plain ⊢
  generalize (t.take n).reverse.dropWhile (· ≠ '\n') = above at split
  have text : t.take n = above.reverse ++ part.reverse := by rw [← List.reverse_append, split, List.reverse_reverse]
  have length : n = above.length + part.length := by
    have := congrArg List.length text
    simp only [List.length_take, List.length_append, List.length_reverse] at this
    omega
  have before : t.take (n - part.length) = above.reverse := by
    have shorter : min (n - part.length) n = n - part.length := by omega
    have all : n - part.length = above.reverse.length := by
      rw [List.length_reverse]
      omega
    rw [← shorter, ← List.take_take, text, all, List.take_left]
  rw [Position.ofOffset_line, Position.ofOffset_line, before, text, List.count_append, List.count_reverse (l := part), plain,
    Nat.add_zero]

/-- A line ends on the line of its characters. -/
theorem lineEnd_line {last : Nat} (inside : n < t.length) (char : t[n]? ≠ some '\n') (found : t.lineEnd n = .ok last) :
    (Position.ofOffset t (last + 1)).line = (Position.ofOffset t n).line := by
  have positive := length_line_pos inside char
  rw [lineEnd_eq inside char] at found
  cases found
  have stop : n + ((t.drop n).takeWhile (· ≠ '\n')).length - 1 + 1 = n + ((t.drop n).takeWhile (· ≠ '\n')).length := by omega
  have text : t.take (n + ((t.drop n).takeWhile (· ≠ '\n')).length) = t.take n ++ (t.drop n).takeWhile (· ≠ '\n') := by
    rw [List.take_add, ← List.prefix_iff_eq_take.mp (List.takeWhile_prefix _)]
  rw [stop, Position.ofOffset_line, Position.ofOffset_line, text, List.count_append, takeWhile_plain, Nat.add_zero]

end Text

end CMakeLint
