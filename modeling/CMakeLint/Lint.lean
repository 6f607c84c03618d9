import CMakeLint.Check.Catalog
import CMakeLint.Check.Findings
import CMakeLint.Comment
import CMakeLint.Pragma

/-!
The issues of one script: what the checks find in the text without comments, less what pragmas suppress, in reading order.
-/
namespace CMakeLint.Lint

/-- Puts an issue before the first one that does not start before it. -/
def insertInOrder (i : Issue) : List Issue → List Issue
  | [] => [i]
  | j :: rest => if i.span.start ≤ j.span.start then i :: j :: rest else j :: insertInOrder i rest

/-- Issues by where they start; those that start at the same place keep their order. -/
def inReadingOrder (issues : List Issue) : List Issue :=
  issues.foldr insertInOrder []

/-- Whether an issue stands on one of some lines. -/
def isSuppressed (pragmas : List Nat) (i : Issue) : Bool :=
  i.lines.any (pragmas.contains ·)

/-- The issues of a script with newlines of one kind. -/
def issues (path : Path) (t : Text) : Except Fault (List Issue) := do
  let pragmas := Pragma.lines t
  let found ← Check.runAll Check.catalog path (Text.stripComments t)
  return inReadingOrder (found.filter fun i => !isSuppressed pragmas i)

/-- Whether a file is a CMake script, by its name. -/
def isScript (path : Path) : Bool :=
  Check.isListFile path || path.suffix.lowercase == ".cmake".toList

end CMakeLint.Lint
