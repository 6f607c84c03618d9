import CMakeLint.Terminal
import Mathlib.Data.List.TakeWhile

/-!
What a terminal shows of a text. Escape codes are not shown: that of a colour switches to it, and the one that resets everything
goes back to the default colour (`read`). A text that is made of characters and whole codes is read piece by piece
(`Writes.readFrom_eq`), and leaving out the blanks at its end does not cut a code (`Writes.trimEnd`).
-/
namespace CMakeLint

namespace Text

/-! ### Blanks at the end -/

variable {t : Text}

theorem trimEnd_append_blank (t : Text) {blanks : Text} (blank : ∀ c ∈ blanks, isBlank c = true) :
    trimEnd (t ++ blanks) = trimEnd t := by
  have gone : blanks.reverse.dropWhile isBlank = [] := by
    rw [List.dropWhile_eq_nil_iff]
    intro c member
    exact blank c (List.mem_reverse.mp member)
  rw [trimEnd, List.reverse_append, List.dropWhile_append, gone]
  rfl

/-- What ends with a character that is not blank stays. -/
theorem trimEnd_append_solid (t : Text) {c : Char} (solid : isBlank c = false) (rest : Text) :
    trimEnd (t ++ [c] ++ rest) = t ++ [c] ++ trimEnd rest := by
  rw [trimEnd, List.reverse_append, List.dropWhile_append]
  by_cases empty : (rest.reverse.dropWhile isBlank).isEmpty = true
  · rw [if_pos empty, trimEnd, List.isEmpty_iff.mp empty]
    simp [solid]
  · rw [if_neg empty, trimEnd, List.reverse_append, List.reverse_reverse]

theorem trimEnd_cons_blank {c : Char} (blank : isBlank c = true) (empty : trimEnd t = []) : trimEnd (c :: t) = [] := by
  rw [trimEnd, List.reverse_eq_nil_iff] at empty ⊢
  rw [List.reverse_cons, List.dropWhile_append, empty]
  simp [blank]

theorem trimEnd_cons_of_ne_nil (c : Char) (nonempty : trimEnd t ≠ []) : trimEnd (c :: t) = c :: trimEnd t := by
  rw [trimEnd, ne_eq, List.reverse_eq_nil_iff] at nonempty
  rw [trimEnd, List.reverse_cons, List.dropWhile_append, if_neg (by simpa using nonempty), List.reverse_append]
  rfl

end Text

namespace Terminal

/-! ### Escape codes -/

/-- What may stand between the bracket of an escape code and its letter. -/
def isParameter (c : Char) : Bool :=
  c = ';' || ('0' ≤ c && c ≤ '9')

/-- The letters that end escape codes. -/
def isFinal (c : Char) : Bool :=
  ('a' ≤ c && c ≤ 'z') || ('A' ≤ c && c ≤ 'Z')

/-- An escape code: the escape character and a bracket, digits and semicolons, and a letter. -/
def IsCode (k : Text) : Prop :=
  ∃ parameters letter, k = escape :: '[' :: (parameters ++ [letter]) ∧ (∀ c ∈ parameters, isParameter c = true) ∧
    isFinal letter = true

/-- The escape code that a text starts with. -/
def code? : Text → Option Text
  | '\x1b' :: '[' :: t =>
    let parameters := t.takeWhile isParameter
    ((t.drop parameters.length).head?.filter isFinal).map fun letter => escape :: '[' :: (parameters ++ [letter])
  | _ => none

theorem isParameter_iff {c : Char} : isParameter c = true ↔ c.toNat = 59 ∨ 48 ≤ c.toNat ∧ c.toNat ≤ 57 := by
  simp only [isParameter, Bool.or_eq_true_iff, Bool.and_eq_true_iff, decide_eq_true_iff, Char.le_def, UInt32.le_iff_toNat_le,
    Char.ext_iff, ← UInt32.toNat_inj]
  exact Iff.rfl

theorem isFinal_iff {c : Char} :
    isFinal c = true ↔ (97 ≤ c.toNat ∧ c.toNat ≤ 122) ∨ 65 ≤ c.toNat ∧ c.toNat ≤ 90 := by
  simp only [isFinal, Bool.or_eq_true_iff, Bool.and_eq_true_iff, decide_eq_true_iff, Char.le_def, UInt32.le_iff_toNat_le]
  exact Iff.rfl

theorem not_isParameter_of_isFinal {c : Char} (final : isFinal c = true) : ¬ isParameter c = true := by
  rw [isFinal_iff] at final
  rw [isParameter_iff]
  omega

theorem not_isBlank_of_isFinal {c : Char} (final : isFinal c = true) : Text.isBlank c = false := by
  rw [isFinal_iff] at final
  simp [Text.isBlank]
  omega

/-- The codes of display attributes are escape codes. -/
theorem isCode_code (n : Nat) : IsCode (code n) := by
  refine ⟨Text.ofNat n, 'm', rfl, ?_, rfl⟩
  intro c member
  have digit := Nat.isDigit_of_mem_toDigits (by decide) (by decide) member
  rw [isParameter_iff]
  rw [Char.isDigit, Bool.and_eq_true_iff, decide_eq_true_iff, decide_eq_true_iff] at digit
  exact .inr digit

theorem code?_append {k : Text} (code : IsCode k) (t : Text) : code? (k ++ t) = some k := by
  obtain ⟨parameters, letter, rfl, inner, final⟩ := code
  have cut : (parameters ++ (letter :: t)).takeWhile isParameter = parameters := by
    rw [List.takeWhile_append_of_pos inner, List.takeWhile_cons_of_neg (not_isParameter_of_isFinal final), List.append_nil]
  have text : escape :: '[' :: (parameters ++ [letter]) ++ t = '\x1b' :: '[' :: (parameters ++ letter :: t) := by
    simp [escape]
  rw [text, code?]
  simp [cut, final]

theorem code?_of_ne {c : Char} (other : c ≠ escape) (t : Text) : code? (c :: t) = none := by
  rw [code?]
  intro rest same
  exact other (List.cons.inj same).1

/-! ### Reading -/

/-- A character on the screen and the colour it is shown in. -/
structure Glyph where
  char : Char
  colour : Colour
  deriving DecidableEq, Repr

/-- The colour in which a terminal goes on after a code. -/
def obey (shown : Colour) (k : Text) : Colour :=
  if k = resetAll then .reset
  else ((Colour.table.find? fun entry => code entry.2.2 = k).map (·.1)).getD shown

/-- `read` in a colour, after `skip` more characters of a code. -/
def readFrom : Nat → Colour → Text → List Glyph
  | _, _, [] => []
  | skip + 1, shown, _ :: t => readFrom skip shown t
  | 0, shown, c :: t =>
    match code? (c :: t) with
    | some k => readFrom (k.length - 1) (obey shown k) t
    | none => ⟨c, shown⟩ :: readFrom 0 shown t

/-- What a terminal in its default colour shows of a text. -/
def read (t : Text) : List Glyph :=
  readFrom 0 .reset t

/-- A text with its escape codes deleted. -/
def unstyled (t : Text) : Text :=
  (read t).map Glyph.char

theorem obey_resetAll (shown : Colour) : obey shown resetAll = .reset :=
  if_pos rfl

theorem obey_nil (shown : Colour) : obey shown [] = shown := by
  have unknown : (Colour.table.find? fun entry => code entry.2.2 = []) = none := by decide +kernel
  rw [obey, if_neg (by decide +kernel), unknown]
  rfl

theorem obey_red (shown : Colour) : obey shown Colour.red.code = .red := by
  have known : (Colour.table.find? fun entry => code entry.2.2 = Colour.red.code) = some (.red, "RED", 31) := by decide +kernel
  rw [obey, if_neg (by decide +kernel), known]
  rfl

theorem readFrom_skip (skipped : Text) (shown : Colour) (t : Text) :
    readFrom skipped.length shown (skipped ++ t) = readFrom 0 shown t := by
  induction skipped with
  | nil => rfl
  | cons c skipped ih => rw [List.length_cons, List.cons_append, readFrom, ih]

/-- A text that is made of characters and whole codes shows glyphs and takes a terminal from one colour to another. -/
inductive Writes : Colour → Text → List Glyph → Colour → Prop where
  | nil (shown : Colour) : Writes shown [] [] shown
  | char {shown last : Colour} {c : Char} {t : Text} {glyphs : List Glyph} (plain : c ≠ escape) (rest : Writes shown t glyphs last) :
      Writes shown (c :: t) (⟨c, shown⟩ :: glyphs) last
  | code {shown last : Colour} {k t : Text} {glyphs : List Glyph} (code : IsCode k) (rest : Writes (obey shown k) t glyphs last) :
      Writes shown (k ++ t) glyphs last

namespace Writes

variable {shown mid last : Colour} {t u : Text} {glyphs more : List Glyph}

theorem append (first : Writes shown t glyphs mid) (second : Writes mid u more last) :
    Writes shown (t ++ u) (glyphs ++ more) last := by
  induction first with
  | nil => exact second
  | char plain _ ih => exact .char plain (ih second)
  | code code _ ih =>
    rw [List.append_assoc]
    exact .code code (ih second)

theorem of_plain (plain : escape ∉ t) (shown : Colour) : Writes shown t (t.map (⟨·, shown⟩)) shown := by
  induction t with
  | nil => exact .nil shown
  | cons c t ih =>
    have other : c ≠ escape := fun same => plain (same ▸ List.mem_cons_self)
    exact .char other (ih fun member => plain (List.mem_cons_of_mem _ member))

/-- A code, or none, shows nothing. -/
theorem of_code {k : Text} (code : k = [] ∨ IsCode k) (shown : Colour) : Writes shown k [] (obey shown k) := by
  rcases code with rfl | code
  · rw [obey_nil]
    exact .nil shown
  · have writes := Writes.code code (.nil (obey shown k))
    rwa [List.append_nil] at writes

theorem readFrom_eq (writes : Writes shown t glyphs last) : readFrom 0 shown t = glyphs := by
  induction writes with
  | nil => rfl
  | char plain _ ih =>
    rw [readFrom, code?_of_ne plain]
    simp only [ih]
  | @code shown _ k t _ code _ ih =>
    have found := code?_append code t
    obtain ⟨parameters, letter, rfl, _⟩ := code
    rw [List.cons_append] at found ⊢
    rw [readFrom, found]
    exact (readFrom_skip ('[' :: (parameters ++ [letter])) _ t).trans ih

/-- Leaving out the blanks at the end leaves out blanks only. -/
theorem trimEnd (writes : Writes shown t glyphs last) :
    ∃ kept left mid, glyphs = kept ++ left ∧ (∀ glyph ∈ left, Text.isBlank glyph.char = true) ∧
      Writes shown (Text.trimEnd t) kept mid := by
  induction writes with
  | nil shown => exact ⟨[], [], shown, rfl, by simp, .nil shown⟩
  | @char shown _ c t glyphs plain _ ih =>
    obtain ⟨kept, left, mid, rfl, blank, writes⟩ := ih
    by_cases nothing : Text.trimEnd t = []
    · have empty : kept = [] := by
        rw [← writes.readFrom_eq, nothing]
        rfl
      by_cases white : Text.isBlank c = true
      · refine ⟨[], ⟨c, shown⟩ :: left, shown, by simp [empty], ?_, ?_⟩
        · intro glyph member
          rcases List.mem_cons.mp member with rfl | later
          · exact white
          · exact blank glyph later
        · rw [Text.trimEnd_cons_blank white nothing]
          exact .nil shown
      · have solid := Text.trimEnd_append_solid [] (Bool.eq_false_iff.mpr white) t
        refine ⟨⟨c, shown⟩ :: kept, left, mid, rfl, blank, ?_⟩
        rw [List.nil_append, List.singleton_append] at solid
        rw [solid]
        exact .char plain writes
    · refine ⟨⟨c, shown⟩ :: kept, left, mid, rfl, blank, ?_⟩
      rw [Text.trimEnd_cons_of_ne_nil c nothing]
      exact .char plain writes
  | @code shown _ k t glyphs code _ ih =>
    obtain ⟨kept, left, mid, rfl, blank, writes⟩ := ih
    refine ⟨kept, left, mid, rfl, blank, ?_⟩
    have ends : Text.trimEnd (k ++ t) = k ++ Text.trimEnd t := by
      obtain ⟨parameters, letter, rfl, _, final⟩ := code
      exact Text.trimEnd_append_solid (escape :: '[' :: parameters) (not_isBlank_of_isFinal final) t
    rw [ends]
    exact .code code writes

end Writes

end Terminal

end CMakeLint
