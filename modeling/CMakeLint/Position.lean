import CMakeLint.Fault

/-!
Lines and columns of positions in a text, both counted from 1, and the first and last position of a line.
-/
namespace CMakeLint

/-- A line and a column, both counted from 1. -/
structure Position where
  line : Nat
  column : Nat
  deriving DecidableEq, Repr

namespace Position

/-- The first position of every text. -/
def first : Position := ⟨1, 1⟩

/-- The position after a character that stands at `p`. -/
def next (p : Position) (c : Char) : Position :=
  if c = '\n' then ⟨p.line + 1, 1⟩ else ⟨p.line, p.column + 1⟩

/-- The line and column of the position after the first `n` characters of a text. -/
def ofOffset (t : Text) (n : Nat) : Position :=
  (t.take n).foldl next first

end Position

namespace Text

/-- A position of the text: from 0 up to its length, both included. -/
def checkPosition (t : Text) (pos : Int) : Except Fault Nat :=
  if 0 ≤ pos ∧ pos ≤ t.length then .ok pos.toNat else .error .positionOutOfText

/-- The line and column of a position. -/
def positionAt (t : Text) (pos : Int) : Except Fault Position := do
  let n ← checkPosition t pos
  return Position.ofOffset t n

/-- The character that a position stands for: its own, or the last one when the position is the end of the text. The
    line of a newline is not asked for. -/
def lineCharacter (t : Text) (pos : Int) : Except Fault Nat := do
  let n ← checkPosition t pos
  let index := min n (t.length - 1)
  if t[index]? = some '\n' then .error .positionOnNewline else .ok index

/-- The position of the first character on the line of a position. -/
def lineStart (t : Text) (pos : Int) : Except Fault Nat := do
  let index ← lineCharacter t pos
  return index - ((t.take index).reverse.takeWhile (· ≠ '\n')).length

/-- The position of the last character on the line of a position. -/
def lineEnd (t : Text) (pos : Int) : Except Fault Nat := do
  let index ← lineCharacter t pos
  return index + ((t.drop index).takeWhile (· ≠ '\n')).length - 1

end Text

end CMakeLint
