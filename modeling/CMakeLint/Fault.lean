import CMakeLint.Pattern.Mistake

/-!
What the operations of this library refuse: a position outside its text, a range that ends before it starts, a report
that lacks a part. Each cause is a constructor of its own.
-/
namespace CMakeLint

/-- Why an operation was refused. -/
inductive Fault where
  /-- A position before the start or after the end of the text. -/
  | positionOutOfText
  /-- A position that holds a newline, where a character of a line was wanted. -/
  | positionOnNewline
  /-- A span that starts before its text. -/
  | spanStartNegative
  /-- A span that ends before it starts. -/
  | spanLengthNegative
  /-- A range whose first row is not a row. -/
  | rangeRowNotPositive
  /-- A range whose last row is before its first row. -/
  | rangeRowsReversed
  /-- A range in one row whose last column is before its first column. -/
  | rangeColumnsReversed
  /-- A column so far to the left that it is not in its row. -/
  | columnOutOfRow
  /-- A column so far to the left that it cannot be counted. -/
  | columnUncountable
  /-- A span with so many characters that they cannot be counted. -/
  | lengthUncountable
  /-- A number with so many digits that it cannot be written. -/
  | numberTooLong
  /-- A check without a name. -/
  | nameMissing
  /-- A check without a description. -/
  | descriptionMissing
  /-- A matching rule without a pattern. -/
  | patternMissing
  /-- A written pattern that cannot be read: what is wrong at which position. -/
  | patternMalformed (pattern : Text) (mistake : Pattern.Mistake) (position : Nat)
  /-- A check without a rule to run. -/
  | ruleMissing
  /-- An issue that no check reports. -/
  | checkMissing
  /-- An issue in no file. -/
  | pathMissing
  /-- An issue in an empty text. -/
  | textMissing
  /-- An issue without a span. -/
  | spanMissing
  /-- An issue without a context. -/
  | contextMissing
  /-- A context that starts after its span. -/
  | contextStartsLate
  /-- A context that ends before its span. -/
  | contextEndsEarly
  /-- No colour of this name. -/
  | colourUnknown (name : Text)
  deriving DecidableEq, Repr

end CMakeLint
