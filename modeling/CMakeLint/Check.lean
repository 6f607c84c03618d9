import CMakeLint.Grid.Basic
import CMakeLint.Link
import CMakeLint.Pattern.Parser

/-!
Checks: what a finding is called and how it is described, what to use instead, an example and further reading, and the rule
by which findings are made.
-/
namespace CMakeLint

/-- What to use instead: a text, or a link. -/
inductive Replacement where
  | text (t : Text)
  | link (l : Link)
  deriving DecidableEq, Repr

namespace Replacement

/-- Whether there is anything to show. -/
def isGiven : Replacement → Bool
  | text t => !t.isEmpty
  | link l => l.isGiven

/-- A replacement as text. -/
def toText : Replacement → Text
  | text t => t
  | link l => l.toText

end Replacement

/-- A rule that makes a finding of every match of its patterns. -/
structure Matching where
  /-- The patterns, in the order in which they are looked for. -/
  patterns : List Pattern
  /-- Whether upper and lower case are the same. -/
  ignoreCase : Bool
  /-- The group that is reported; the whole match if no group has this number. -/
  group : Int
  /-- Reported text that contains this pattern is no finding. -/
  exempt : Option Pattern
  deriving DecidableEq, Repr

/-- How findings are made. -/
inductive Rule where
  /-- No rule. -/
  | none
  /-- A project must be declared after the minimum version of CMake. -/
  | minimumVersion
  /-- The SYSTEM keyword must follow the target of include directories. -/
  | systemKeyword
  /-- Matches of patterns. -/
  | matching (m : Matching)
  deriving DecidableEq, Repr

/-- A check. -/
structure Check where
  name : Text
  description : Text
  replacement : Option Replacement
  sample : Option Grid
  references : List Link
  rule : Rule
  deriving DecidableEq, Repr

/-- The indent of a report's sections; their contents are indented twice. -/
def reportIndent : Text := [' ', ' ']

/-- Row numbers of an example: so small that none is shown. -/
def sampleLineNumber : Int := -999999

namespace Check

/-- An example as it is shown. -/
def sampleGrid? (t : Text) : Option Grid :=
  let trimmed := Text.trim t
  if trimmed.isEmpty then none
  else some (Grid.ofText trimmed (reportIndent ++ reportIndent) (some sampleLineNumber))

/-- A text that must not be blank. -/
def required (t : Option Text) (fault : Fault) : Except Fault Text :=
  match t.map Text.trim with
  | some (c :: t) => .ok (c :: t)
  | _ => .error fault

/-- Builds a check from its parts. Blanks around texts are left out, and so are links that lead nowhere. -/
def define (name description : Option Text) (replacement : Option Replacement) (sample : Option Text)
    (references : List Link) (rule : Rule) : Except Fault Check := do
  let name ← required name .nameMissing
  let description ← required description .descriptionMissing
  return {
    name, description
    replacement := replacement.map fun
      | .text t => .text (Text.trim t)
      | .link l => .link l
    sample := sample.bind sampleGrid?
    references := references.filter Link.isGiven
    rule }

end Check

namespace Matching

/-- Builds a rule from written patterns. Empty patterns are left out, but one has to remain. -/
def define (patterns : Option (List Text)) (ignoreCase : Bool) (group : Int) (exempt : Option Text) :
    Except Fault Matching := do
  let written := (patterns.getD []).filter (!·.isEmpty)
  if written.isEmpty then .error .patternMissing
  else
    let patterns ← written.mapM Pattern.ofText
    let exempt ← match exempt with
      | some (c :: t) => (Pattern.ofText (c :: t)).map some
      | _ => .ok none
    return { patterns, ignoreCase, group, exempt }

end Matching

end CMakeLint
