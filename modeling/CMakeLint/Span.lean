import CMakeLint.Position
import CMakeLint.Text.Decimal

/-!
Spans of text, and the lines a span stands on.
-/
namespace CMakeLint

/-- A piece of a text: where it starts and how many characters it has. -/
structure Span where
  start : Nat
  length : Nat
  deriving DecidableEq, Repr

namespace Span

/-- The position after the last character of a span. -/
def stop (s : Span) : Nat :=
  s.start + s.length

/-- A span by its start and its length. -/
def ofLength (start length : Int) : Except Fault Span :=
  if start < 0 then .error .spanStartNegative
  else if length < 0 then .error .spanLengthNegative
  else .ok ⟨start.toNat, length.toNat⟩

/-- A span by its start and its end. -/
def ofBounds (start stop : Int) : Except Fault Span :=
  ofLength start (stop - start)

/-- From here on, lengths cannot be counted. -/
def countLimit : Nat := 0x8000000000000000

/-- The number of characters of a span, if they can be counted. -/
def count (s : Span) : Except Fault Nat :=
  if s.length < countLimit then .ok s.length else .error .lengthUncountable

/-- The characters of a span, as far as the text has them. -/
def of (s : Span) (t : Text) : Text :=
  t.slice s.start s.stop

/-- The lines of a span, for the purpose of suppression. The last line is looked up only if the position of the span's
    last character is greater than the number of its first line; otherwise the span counts as standing on one line. -/
def lines (s : Span) (t : Text) : List Nat :=
  if s.length = 0 ∨ t.length ≤ s.start then []
  else
    let first := (Position.ofOffset t s.start).line
    let lastIndex := min s.stop t.length - 1
    let last := if first < lastIndex then (Position.ofOffset t lastIndex).line else first
    List.range' first (last + 1 - first)

/-- The lines of a span as a number: bit `i` stands for line `i`. -/
def lineMask (s : Span) (t : Text) : Nat :=
  (s.lines t).foldl (fun mask line => mask ||| 1 <<< line) 0

/-- The lines of a span as a number in writing. -/
def maskText (s : Span) (t : Text) : Except Fault Text :=
  let digits := Text.ofNat (s.lineMask t)
  if digits.length ≤ Text.maxDigits then .ok digits else .error .numberTooLong

end Span

end CMakeLint
