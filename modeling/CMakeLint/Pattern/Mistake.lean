import CMakeLint.Text.Basic

/-!
Mistakes in written patterns.
-/
namespace CMakeLint.Pattern

/-- What is wrong with a written pattern. -/
inductive Mistake where
  /-- A backslash is the last character. -/
  | escapeAtEnd
  /-- A backslash before a letter or digit that means nothing after it. -/
  | badEscape (written : Text)
  /-- A class without its closing bracket. -/
  | classUnterminated
  /-- A range in a class that is none. -/
  | badRange (first last : Text)
  /-- A repetition of nothing or of an anchor. -/
  | nothingToRepeat
  /-- A repetition of a repetition. -/
  | multipleRepeat
  /-- A repetition whose greatest number is below its least. -/
  | boundsReversed
  /-- A repetition whose number is too large. -/
  | boundTooLarge
  /-- A group without its closing bracket. -/
  | groupUnterminated
  /-- A closing bracket without its group. -/
  | unbalanced
  /-- The end of the pattern right after a question mark that opens a group. -/
  | groupCutOff
  /-- A group of a kind that there is not. -/
  | unknownGroup (kind : Text)
  deriving DecidableEq, Repr

/-- What is said about a mistake. -/
def Mistake.text : Mistake → Text
  | escapeAtEnd => "bad escape (end of pattern)".toList
  | badEscape written => "bad escape ".toList ++ written
  | classUnterminated => "unterminated character set".toList
  | badRange first last => "bad character range ".toList ++ first ++ '-' :: last
  | nothingToRepeat => "nothing to repeat".toList
  | multipleRepeat => "multiple repeat".toList
  | boundsReversed => "min repeat greater than max repeat".toList
  | boundTooLarge => "the repetition number is too large".toList
  | groupUnterminated => "missing ), unterminated subpattern".toList
  | unbalanced => "unbalanced parenthesis".toList
  | groupCutOff => "unexpected end of pattern".toList
  | unknownGroup kind => "unknown extension ?".toList ++ kind

end CMakeLint.Pattern
