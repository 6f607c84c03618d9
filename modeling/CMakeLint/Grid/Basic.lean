import CMakeLint.Text.Basic

/-!
Grids of characters, as a snippet of a script is shown: rows of cells, each cell with its own style and colour, an
indent, and perhaps line numbers.
-/
namespace CMakeLint

/-- A character of a grid with the escape codes of its style and its colour. -/
structure Cell where
  char : Char
  style : Option Text
  colour : Option Text
  deriving DecidableEq, Repr

/-- Rows of cells, the indent before each row, and the number of the first row if rows are numbered. -/
structure Grid where
  rows : List (List Cell)
  indent : Text
  lineNumber : Option Int
  deriving DecidableEq, Repr

namespace Cell

/-- A cell without style and colour. -/
def plain (c : Char) : Cell :=
  ⟨c, none, none⟩

end Cell

namespace Grid

/-- A text as a grid shows it: newlines of one kind, and four blanks in place of a tab. -/
def normalize (t : Text) : Text :=
  Text.expandTabs (Text.unifyNewlines t)

/-- The grid of a text, without style and colour. -/
def ofText (t indent : Text) (lineNumber : Option Int) : Grid :=
  ⟨(Text.lines (normalize t)).map (·.map Cell.plain), indent, lineNumber⟩

/-- Whether a grid has rows. -/
def hasRows (g : Grid) : Bool :=
  !g.rows.isEmpty

/-- A character with the row and the column where it stands, both counted from 1. -/
structure Located where
  row : Nat
  column : Nat
  char : Char
  deriving DecidableEq, Repr

/-- The characters of cells that stand in a row from a column on. -/
def locateRow (row : Nat) : Nat → List Cell → List Located
  | _, [] => []
  | column, cell :: rest => ⟨row, column, cell.char⟩ :: locateRow row (column + 1) rest

/-- The characters of rows from a row on, with a newline at the end of each row but the last. -/
def locateRows : Nat → List (List Cell) → List Located
  | _, [] => []
  | row, [cells] => locateRow row 1 cells
  | row, cells :: rest => locateRow row 1 cells ++ ⟨row, cells.length + 1, '\n'⟩ :: locateRows (row + 1) rest

/-- The characters of a grid in reading order, newlines included. -/
def characters (g : Grid) : List Located :=
  locateRows 1 g.rows

end Grid

end CMakeLint
