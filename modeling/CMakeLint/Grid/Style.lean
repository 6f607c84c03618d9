import CMakeLint.Fault
import CMakeLint.Grid.Find
import CMakeLint.Terminal

/-!
Styling a range of a grid, cell by cell in reading order. Columns are counted from 1; column 0 is the last cell of the row,
and smaller columns go on to the left from there. A range that is refused keeps what was styled before the refusal.
-/
namespace CMakeLint

namespace Cell

/-- A cell with another style and colour. The style that resets everything leaves no colour. -/
def restyle (style colour : Option Text) (cell : Cell) : Cell :=
  ⟨cell.char, style, if style = some Terminal.resetAll then none else colour⟩

end Cell

namespace Grid

/-- A range of a grid by the numbers a caller gives. -/
structure Range where
  firstRow : Int
  firstColumn : Int
  lastRow : Int
  lastColumn : Int
  deriving DecidableEq, Repr

namespace Range

/-- A range in which an omitted last row or column is the first one. -/
def ofParts (firstRow firstColumn : Int) (lastRow lastColumn : Option Int) : Range :=
  ⟨firstRow, firstColumn, lastRow.getD firstRow, lastColumn.getD firstColumn⟩

/-- The range of a region. -/
def ofRegion (r : Region) : Range :=
  ⟨r.firstRow, r.firstColumn, r.lastRow, r.lastColumn⟩

/-- Why a range cannot be one, if so. -/
def fault? (r : Range) : Option Fault :=
  if r.firstRow < 1 then some .rangeRowNotPositive
  else if r.lastRow < r.firstRow then some .rangeRowsReversed
  else if r.firstRow = r.lastRow ∧ r.lastColumn < r.firstColumn then some .rangeColumnsReversed
  else none

/-- The offset of the first cell of the range in a row, counted from 0. -/
def startOffset (r : Range) (row : Nat) : Int :=
  if (row : Int) = r.firstRow then r.firstColumn - 1 else 0

/-- The offset after the last cell of the range in a row of a given length. -/
def stopOffset (r : Range) (row length : Nat) : Int :=
  if (row : Int) = r.lastRow then r.lastColumn else length

end Range

/-- The place in a row of an offset from its start, or from its end if the offset is negative. -/
def place? (length : Nat) (offset : Int) : Option Nat :=
  if 0 ≤ offset then some offset.toNat
  else if -(length : Int) ≤ offset then some (offset + length).toNat
  else none

/-- Offsets below this one cannot be counted. -/
def leastOffset : Int := -0x8000000000000000

/-- Why an offset has no place in a row. -/
def offsetFault (offset : Int) : Fault :=
  if offset < leastOffset then .columnUncountable else .columnOutOfRow

/-- Styles `count` cells of a row from an offset on; the end of the row ends the range. -/
def styleCells (change : Cell → Cell) : Nat → Int → List Cell → EStateM.Result Fault (List Cell) Unit
  | 0, _, row => .ok () row
  | count + 1, offset, row =>
    if (row.length : Int) ≤ offset then .ok () row
    else match place? row.length offset with
      | some i => styleCells change count (offset + 1) (row.modify i change)
      | none => .error (offsetFault offset) row

/-- Styles the cells of a range in the rows from number `row` on. -/
def styleRows (change : Cell → Cell) (range : Range) :
    Nat → List (List Cell) → EStateM.Result Fault (List (List Cell)) Unit
  | _, [] => .ok () []
  | row, cells :: rest =>
    if (row : Int) < range.firstRow then
      match styleRows change range (row + 1) rest with
      | .ok () rest => .ok () (cells :: rest)
      | .error fault rest => .error fault (cells :: rest)
    else if range.lastRow < row then .ok () (cells :: rest)
    else
      let start := range.startOffset row
      match styleCells change (range.stopOffset row cells.length - start).toNat start cells with
      | .error fault cells => .error fault (cells :: rest)
      | .ok () cells =>
        match styleRows change range (row + 1) rest with
        | .ok () rest => .ok () (cells :: rest)
        | .error fault rest => .error fault (cells :: rest)

/-- Gives every cell of a range a style and a colour. -/
def styleRange (g : Grid) (range : Range) (style colour : Option Text) : EStateM.Result Fault Grid Unit :=
  match range.fault? with
  | some fault => .error fault g
  | none =>
    match styleRows (Cell.restyle style colour) range 1 g.rows with
    | .ok () rows => .ok () { g with rows := rows }
    | .error fault rows => .error fault { g with rows := rows }

end Grid

end CMakeLint
