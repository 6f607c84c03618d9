import CMakeLint.Grid.Basic

/-!
Where a text stands in a grid. The end of the grid is never part of what is found: an occurrence counts only if at least
one more character follows it.
-/
namespace CMakeLint.Grid

/-- From one cell of a grid to another one, both included. -/
structure Region where
  firstRow : Nat
  firstColumn : Nat
  lastRow : Nat
  lastColumn : Nat
  deriving DecidableEq, Repr

/-- The last character of a text that the characters of a grid spell, if more characters follow it. -/
def spells : Text → List Located → Option Located
  | [c], here :: _ :: _ => if here.char = c then some here else none
  | c :: d :: t, here :: rest => if here.char = c then spells (d :: t) rest else none
  | _, _ => none

/-- The first place where characters of a grid spell a text. -/
def locate (t : Text) : List Located → Option Region
  | [] => none
  | here :: rest =>
    match spells t (here :: rest) with
    | some last => some ⟨here.row, here.column, last.row, last.column⟩
    | none => locate t rest

/-- The region of the first occurrence of a text that does not reach the end of the grid. -/
def find? (g : Grid) (t : Text) : Option Region :=
  locate (normalize t) g.characters

end CMakeLint.Grid
