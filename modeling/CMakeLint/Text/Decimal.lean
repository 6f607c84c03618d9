import CMakeLint.Text.Basic
import CMakeLint.Text.Digit

/-!
Whole numbers in decimal: written without padding, and read with an optional sign, blanks around the number,
digits of any script, and single underscores between digits.
-/
namespace CMakeLint.Text

/-- A natural number in decimal. -/
def ofNat (n : Nat) : Text :=
  Nat.toDigits 10 n

/-- A whole number in decimal, with a sign if it is negative. -/
def ofInt (n : Int) : Text :=
  if n < 0 then '-' :: ofNat n.natAbs else ofNat n.natAbs

/-- Blanks that may stand around a number. -/
def isNumberBlank (c : Char) : Bool :=
  isBlank c && !(0x1C ≤ c.toNat && c.toNat ≤ 0x1F)

/-- Numbers with more digits than this are neither read nor written. -/
def maxDigits : Nat := 4300

/-- The number written by digits, the first being the most significant. -/
def ofDigitValues (values : List Nat) : Nat :=
  values.foldl (fun n v => 10 * n + v) 0

/-- Reads groups of digits with an underscore between neighbours. -/
def toNat? (t : Text) : Option Nat :=
  let groups := fields '_' t
  let digits := groups.flatten
  if groups.all (fun group => !group.isEmpty) && digits.length ≤ maxDigits then
    (digits.mapM digitValue?).map ofDigitValues
  else none

/-- Reads a whole number with blanks around it and an optional sign. -/
def toInt? (t : Text) : Option Int :=
  match ((t.dropWhile isNumberBlank).reverse.dropWhile isNumberBlank).reverse with
  | '-' :: digits => (toNat? digits).map fun n => -(n : Int)
  | '+' :: digits => (toNat? digits).map fun n => (n : Int)
  | digits => (toNat? digits).map fun n => (n : Int)

end CMakeLint.Text
