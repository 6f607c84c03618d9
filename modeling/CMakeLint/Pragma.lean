import CMakeLint.Pattern.Call
import CMakeLint.Pattern.Match

/-!
Pragmas: comments that suppress the issues of their line. A pragma is the whole comment, which starts at the first number
sign of the line; upper and lower case are the same.
-/
namespace CMakeLint.Pragma

/-- What may stand between the words of a tool's name. -/
def separators : Pattern :=
  .many ⟨false, [.char ' ', .char '_', .char '-']⟩ .plus

/-- The verbs of a tool's name. -/
def verb : Pattern :=
  .words ["lint", "check"]

/-- The name of a tool for CMake, in either order. -/
def tool : Pattern :=
  .alt (.sequence [.word "cmake", separators, verb]) (.sequence [verb, separators, .word "cmake"])

/-- What follows the number sign of a pragma. -/
def body : Pattern :=
  .sequence [.blanks,
    .alt
      (.sequence [tool, .many ⟨false, [.char ':', .kind .blank]⟩ .plus, .words ["disable", "ignore"]])
      (.sequence [.word "no", verb]),
    .blanks, .anchor .textEnd]

/-- A line with a pragma. -/
def line : Pattern :=
  .sequence [.anchor .textStart, .many (.except '#') .lazyStar, .char '#', body]

/-- Whether a line has a pragma. -/
def isOn (l : Text) : Bool :=
  (line.matchWhole true l).isSome

/-- The numbers of the lines that have a pragma. -/
def lines (t : Text) : List Nat :=
  ((Text.lines t).zipIdx 1).filterMap fun (l, number) => if isOn l then some number else none

end CMakeLint.Pragma
