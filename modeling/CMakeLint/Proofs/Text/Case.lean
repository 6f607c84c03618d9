import CMakeLint.Text.Case

/-!
Which characters stand for a small letter of ASCII if case does not matter: the letter, its capital and, for three letters, some
characters beyond ASCII (`sameIgnoringCase_iff`). Signs that have no case stand for themselves only.
-/
namespace CMakeLint.Text

/-- The small letters of ASCII, and some signs that have no case. -/
def plainChars : Text :=
  "abcdefghijklmnopqrstuvwxyz #:_-".toList

/-- Letters that have further forms beyond ASCII: the capital dotted I and the small dotless one, the Kelvin sign and the long s. -/
def furtherForms : List (Char × List Char) :=
  [('i', ['\u0130', '\u0131']), ('k', ['\u212a']), ('s', ['\u017f'])]

/-- The forms of a letter if case does not matter. -/
def caseForms (d : Char) : List Char :=
  d :: d.toUpper :: (furtherForms.lookup d).getD []

/-! ### What becomes a small letter of ASCII -/

theorem toNat_ofNat_cases (n : Nat) : (Char.ofNat n).toNat = n ∨ (Char.ofNat n).toNat = 0 := by
  by_cases valid : n.isValidChar
  · exact .inl (by rw [Char.ofNat, dif_pos valid]; rfl)
  · exact .inr (by rw [Char.ofNat, dif_neg valid]; rfl)

theorem changeCase_cases (runs : List CaseRun) (c : Char) :
    changeCase runs c = c ∨ ∃ run ∈ runs, run.covers c.toNat = true ∧ changeCase runs c = run.apply c.toNat := by
  rw [changeCase]
  cases covered : runs.find? (·.covers c.toNat) with
  | none => exact .inl rfl
  | some run =>
    exact .inr ⟨run, List.mem_of_find?_eq_some covered, List.find?_some (p := fun r : CaseRun => r.covers c.toNat) covered, rfl⟩

/-- Whether a character is in ASCII or a small letter that shares its capital with one of ASCII. -/
def isNear (c : Char) : Bool :=
  0 < c.toNat && c.toNat < 0x80 || c.toNat == 0x131 || c.toNat == 0x17F

/-- The characters of ASCII, the capital dotted I and the Kelvin sign, by their codes. -/
def foldedCodes : List Nat :=
  List.range 0x80 ++ [0x130, 0x212A]

/-- Of the capitals beyond ASCII, only the Kelvin sign becomes a letter of ASCII or a small letter that shares its capital with
    one. -/
theorem lowerRuns_far : ∀ run ∈ lowerRuns, run.first = 0x212A ∧ run.last = 0x212A ∨
    0x80 ≤ (run.first : Int) + run.shift ∧ run.covers (Int.toNat (0x131 - run.shift)) = false ∧
      run.covers (Int.toNat (0x17F - run.shift)) = false := by
  decide +kernel

theorem lowerChar_cases (c : Char) : c.toNat ∈ foldedCodes ∨ lowerChar c = c ∨ isNear (lowerChar c) = false := by
  by_cases listed : c.toNat ∈ foldedCodes
  · exact .inl listed
  · obtain ⟨beyond, notDotted, notKelvin⟩ : ¬ c.toNat < 0x80 ∧ c.toNat ≠ 0x130 ∧ c.toNat ≠ 0x212A := by
      simpa [foldedCodes] using listed
    have lower : lowerChar c = changeCase lowerRuns c := by
      rw [lowerChar, if_neg beyond, if_neg (by simpa using notDotted)]
    rw [lower]
    rcases changeCase_cases lowerRuns c with same | ⟨run, inRuns, covers, changed⟩
    · exact .inr (.inl same)
    · have bounds : run.first ≤ c.toNat ∧ c.toNat ≤ run.last := by
        simp only [CaseRun.covers, Bool.and_eq_true, decide_eq_true_eq] at covers
        exact covers.1
      rcases lowerRuns_far run inRuns with kelvin | ⟨above, noI, noS⟩
      · omega
      · right
        right
        have misses : ∀ n : Nat, run.covers (Int.toNat (n - run.shift)) = false → (c.toNat : Int) + run.shift ≠ n := by
          intro n missed same
          have code : Int.toNat (n - run.shift) = c.toNat := by omega
          rw [code, covers] at missed
          cases missed
        have notI := misses 0x131 noI
        have notS := misses 0x17F noS
        rw [changed, CaseRun.apply]
        rcases toNat_ofNat_cases (Int.toNat (c.toNat + run.shift)) with value | value
        · simp only [isNear, value, Bool.or_eq_false_iff, Bool.and_eq_false_iff, decide_eq_false_iff_not, beq_eq_false_iff_ne]
          omega
        · simp [isNear, value]

/-! ### The forms of a letter -/

theorem caseForms_same : (plainChars.all fun d => (caseForms d).all (sameIgnoringCase d)) = true := by
  decide +kernel

theorem folded_forms : (plainChars.all fun d => foldedCodes.all fun n =>
    !sameIgnoringCase d (Char.ofNat n) || (caseForms d).contains (Char.ofNat n)) = true := by
  decide +kernel

theorem caseTwins_forms : (plainChars.all fun d =>
    (caseTwins (lowerChar d)).all fun e => isNear e && (caseForms d).contains e) = true := by
  decide +kernel

/-- If case does not matter, a plain character stands for its forms. -/
theorem sameIgnoringCase_iff {d : Char} (plain : d ∈ plainChars) (c : Char) : sameIgnoringCase d c = true ↔ c ∈ caseForms d := by
  constructor
  · intro same
    have twin : lowerChar c ∈ caseTwins (lowerChar d) := by simpa [sameIgnoringCase] using same
    obtain ⟨near, form⟩ := Bool.and_eq_true_iff.mp (List.all_eq_true.mp (List.all_eq_true.mp caseTwins_forms d plain) _ twin)
    rcases lowerChar_cases c with folded | small | far
    · have checked := List.all_eq_true.mp (List.all_eq_true.mp folded_forms d plain) _ folded
      rw [Char.ofNat_toNat, same] at checked
      simpa using checked
    · rw [small] at form
      simpa using form
    · rw [far] at near
      cases near
  · exact List.all_eq_true.mp (List.all_eq_true.mp caseForms_same d plain) c

/-- A sign without case stands for itself only. -/
theorem sameIgnoringCase_of_single {d : Char} (plain : d ∈ plainChars) (single : caseForms d = [d, d]) (c : Char) :
    sameIgnoringCase d c = true ↔ c = d := by
  rw [sameIgnoringCase_iff plain, single]
  simp

end CMakeLint.Text
