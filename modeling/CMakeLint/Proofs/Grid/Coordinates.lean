import CMakeLint.Proofs.Grid.Cells

/-!
Coordinates in a grid are coordinates in its text. The text that a grid shows is the given one after three replacements
(`normalize_eq`), and going through the grid row by row is going through that text, every cell and every newline in the row and the
column of its position (`characters_at_positions`).
-/
namespace CMakeLint

namespace Text

theorem replaceAll_cons {old new t : Text} {c : Char} (other : ¬ old.isPrefixOf (c :: t) = true) :
    replaceAll old new (c :: t) = c :: replaceAll old new t := by
  rw [replaceAll, replaceFrom, if_neg other, replaceAll]

/-- Replacing a character is done one character at a time. -/
theorem replaceAll_single (c : Char) (new t : Text) : replaceAll [c] new t = t.flatMap fun d => if d = c then new else [d] := by
  induction t with
  | nil => rfl
  | cons d t ih =>
    rw [List.flatMap_cons, ← ih]
    by_cases same : d = c
    · have starts : [c].isPrefixOf (d :: t) = true := by simp [same]
      rw [replaceAll, replaceFrom, if_pos starts, if_pos same]
      rfl
    · rw [replaceAll_cons (by simp [Ne.symm same]), if_neg same]
      rfl

/-- Newlines are unified by two replacements: a carriage return with a newline after it goes first, one alone second. -/
theorem unifyNewlines_eq (t : Text) : unifyNewlines t = replaceAll ['\r'] ['\n'] (replaceAll ['\r', '\n'] ['\n'] t) := by
  fun_induction unifyNewlines t with
  | case1 => rfl
  | case2 t newline ih =>
    -- the newline stays and stands for both
    obtain ⟨u, rfl⟩ := List.head?_eq_some_iff.mp newline
    rw [ih, replaceAll_cons (t := u) (by simp)]
    rfl
  | case3 t alone ih =>
    have other : ¬ ['\r', '\n'].isPrefixOf ('\r' :: t) = true := by
      cases t with
      | nil => simp
      | cons d u =>
        have different : '\n' ≠ d := by
          rintro rfl
          exact alone rfl
        simp [different]
    rw [ih, replaceAll_cons other, replaceAll_single, replaceAll_single, List.flatMap_cons]
    rfl
  | case4 c t other ih =>
    rw [ih, replaceAll_cons (by simp [Ne.symm other]), replaceAll_single, replaceAll_single, List.flatMap_cons, if_neg other]
    rfl

theorem expandTabs_eq (t : Text) : expandTabs t = replaceAll ['\t'] [' ', ' ', ' ', ' '] t :=
  (replaceAll_single '\t' _ t).symm

end Text

namespace Grid

theorem normalize_eq (t : Text) : normalize t = Text.replaceAll ['\t'] [' ', ' ', ' ', ' ']
    (Text.replaceAll ['\r'] ['\n'] (Text.replaceAll ['\r', '\n'] ['\n'] t)) := by
  rw [normalize, Text.expandTabs_eq, Text.unifyNewlines_eq]

/-- The characters of the grid of a text are, in order, those of the text with its newlines of one kind and its tabs expanded. The row
    and the column of each of them, newlines included, are the line and the column of its position in that text. -/
theorem characters_at_positions (t indent : Text) (lineNumber : Option Int) :
    (ofText t indent lineNumber).characters.map (·.char) = normalize t ∧
    normalize t = Text.replaceAll ['\t'] [' ', ' ', ' ', ' ']
      (Text.replaceAll ['\r'] ['\n'] (Text.replaceAll ['\r', '\n'] ['\n'] t)) ∧
    ∀ (k : Nat) (a : Located), (ofText t indent lineNumber).characters[k]? = some a →
      (normalize t).positionAt k = .ok ⟨a.row, a.column⟩ := by
  rw [characters_ofText]
  refine ⟨placed_chars _, normalize_eq t, ?_⟩
  intro k a char
  have inside : k < (normalize t).length := by
    have less := (List.getElem?_eq_some_iff.mp char).1
    rwa [← List.length_map (·.char), placed_chars] at less
  obtain ⟨row, column⟩ := placed_eq_some char
  rw [Text.positionAt_ok (Nat.le_of_lt inside), row, column]

/-- Line ends of three kinds around a tab: the third row has no cells, and its newline stands in the first column. -/
theorem newline_of_empty_row : normalize "\r\n\t\r\n\ra\n".toList = "\n    \n\na\n".toList ∧
    (ofText "\r\n\t\r\n\ra\n".toList [] none).characters[6]? = some ⟨3, 1, '\n'⟩ ∧
    (normalize "\r\n\t\r\n\ra\n".toList).positionAt (6 : Nat) = .ok ⟨3, 1⟩ := by
  have char : (ofText "\r\n\t\r\n\ra\n".toList [] none).characters[6]? = some ⟨3, 1, '\n'⟩ := by decide +kernel
  exact ⟨by decide +kernel, char, (characters_at_positions _ [] none).2.2 6 _ char⟩

end Grid

end CMakeLint
