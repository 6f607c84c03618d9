import CMakeLint.Grid.Basic
import CMakeLint.Terminal

/-!
A grid as text for a terminal: each row with its indent and its number, and escape codes where style or colour change.
-/
namespace CMakeLint

/-- The style and the colour in which a terminal writes. -/
structure Pen where
  style : Option Text
  colour : Option Text
  deriving DecidableEq, Repr

namespace Pen

/-- Default style and colour. -/
def default : Pen := ⟨none, none⟩

/-- Whether the pen differs from the default. -/
def isSet (pen : Pen) : Bool :=
  pen.colour.isSome || pen.style.isSome

/-- The code that takes the pen back to the default, where one is needed. -/
def reset (pen : Pen) : Text :=
  if pen.isSet then Terminal.resetAll else []

/-- The codes that lead from the default to the pen. -/
def codes (pen : Pen) : Text :=
  pen.colour.getD [] ++ pen.style.getD []

end Pen

namespace Cell

/-- The code to write for a change from one setting to another; a cell without a setting keeps the old one. -/
def switch (old wanted : Option Text) : Text :=
  if wanted.isSome ∧ wanted ≠ old then wanted.getD [] else []

/-- A cell as text, and the pen after it. -/
def draw (pen : Pen) (cell : Cell) : Text × Pen :=
  if cell.style = some Terminal.resetAll then (pen.reset ++ [cell.char], Pen.default)
  else (switch pen.style cell.style ++ switch pen.colour cell.colour ++ [cell.char],
    ⟨cell.style.or pen.style, cell.colour.or pen.colour⟩)

/-- The cells of a row as text, and the pen after them. -/
def drawAll : Pen → List Cell → Text × Pen
  | pen, [] => ([], pen)
  | pen, cell :: rest =>
    let (text, after) := cell.draw pen
    let (more, last) := drawAll after rest
    (text ++ more, last)

end Cell

namespace Grid

/-- A number in a column of the given width; a negative one is left out. -/
def gutterNumber (width : Nat) (n : Int) : Text :=
  if 0 ≤ n then
    let digits := Text.ofNat n.toNat
    List.replicate (width - digits.length) ' ' ++ digits
  else List.replicate width ' '

/-- The width of the column of row numbers: enough for the last one, and at least 2. -/
def gutterWidth (first : Int) (rows : Nat) : Nat :=
  max (Text.ofInt (max first 0 + rows - 1)).length 2

/-- What stands before the cells of a row. Numbers are written in default style and colour. -/
def rowStart (indent : Text) (width : Nat) (number : Option Int) (pen : Pen) : Text :=
  match number with
  | none => indent
  | some n => indent ++ pen.reset ++ gutterNumber width n ++ [' ', '|', ' '] ++ pen.codes

/-- Rows as text, each with a newline. -/
def drawRows (indent : Text) (width : Nat) : Option Int → Pen → List (List Cell) → Text
  | _, _, [] => []
  | number, pen, row :: rest =>
    let (text, after) := Cell.drawAll pen row
    rowStart indent width number pen ++ text ++ '\n' :: drawRows indent width (number.map (· + 1)) after rest

/-- A grid as text: blanks at its end are left out, and default style and colour are restored. -/
def render (g : Grid) : Text :=
  if g.rows.isEmpty then []
  else
    let width := match g.lineNumber with
      | some first => gutterWidth first g.rows.length
      | none => 0
    Text.trimEnd (drawRows g.indent width g.lineNumber Pen.default g.rows) ++ Terminal.resetAll

/-- A grid as text, if the greatest number of its rows is not too long to be written. -/
def write (g : Grid) : Except Fault Text :=
  match g.lineNumber with
  | some first =>
    if g.hasRows && Text.maxDigits < gutterWidth first g.rows.length then .error .numberTooLong else .ok g.render
  | none => .ok g.render

end Grid

end CMakeLint
