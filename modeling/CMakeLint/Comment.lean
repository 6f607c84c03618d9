import CMakeLint.Text.Basic

/-!
Comments of CMake scripts. A comment runs from a number sign to the end of its line; neither strings nor bracket
comments are looked for.
-/
namespace CMakeLint.Text

/-- A text without its comments; every line keeps its newline. -/
def stripComments (t : Text) : Text :=
  unlines ((lines t).map (·.takeWhile (· ≠ '#')))

end CMakeLint.Text
