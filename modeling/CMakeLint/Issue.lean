import CMakeLint.Check
import CMakeLint.Grid.Render
import CMakeLint.Grid.Style
import CMakeLint.Path
import CMakeLint.Span

/-!
Issues: a finding of a check in a text, with the place it is reported at and the lines around it, in which the finding is
highlighted.
-/
namespace CMakeLint

/-- A finding of a check. -/
structure Issue where
  check : Check
  /-- The file of the finding, if it is known. -/
  path : Option Path
  text : Text
  span : Span
  /-- The part of the text that is shown. -/
  context : Span
  /-- What is said about the finding, if it differs from the description of the check. -/
  description : Option Text
  position : Position
  grid : Grid
  deriving DecidableEq, Repr

/-- What an issue is made from, before it is known that all parts are there and fit together. -/
structure Draft where
  check : Option Check
  path : Option Path
  text : Option Text
  span : Option Span
  description : Option Text
  context : Option Span
  deriving DecidableEq, Repr

namespace Issue

/-- Where a highlight ends at the latest: its row and its column. -/
def highlightLimit : Int := 99999

/-- Highlights the first occurrence of a text in a grid. All that follows is reset up to the limit. -/
def highlight (g : Grid) (t : Text) : Except Fault Grid :=
  match g.find? t with
  | none => .ok g
  | some region =>
    match g.styleRange (.ofRegion region) none (some Colour.red.code) with
    | .error fault _ => .error fault
    | .ok () g =>
      let after : Grid.Range := ⟨region.lastRow, region.lastColumn + 1, highlightLimit, highlightLimit⟩
      match g.styleRange after (some Terminal.resetAll) none with
      | .error fault _ => .error fault
      | .ok () g => .ok g

end Issue

namespace Draft

/-- The part that a draft must have. -/
def part {α : Type} (given : Option α) (fault : Fault) : Except Fault α :=
  match given with
  | some a => .ok a
  | none => .error fault

/-- An issue, if the draft has all parts, the context covers the span, and the span starts in the text. -/
def issue (d : Draft) : Except Fault Issue := do
  let check ← part d.check .checkMissing
  let path ← part d.path .pathMissing
  let text ← part (d.text.filter (!·.isEmpty)) .textMissing
  let span ← part d.span .spanMissing
  let context := d.context.getD span
  if span.start < context.start then .error .contextStartsLate
  else if context.stop < span.stop then .error .contextEndsEarly
  else
    let position ← text.positionAt span.start
    let given ← part d.context .contextMissing
    let first ← text.positionAt given.start
    let plain := Grid.ofText (context.of text) (reportIndent ++ reportIndent) (some first.line)
    let grid ← Issue.highlight plain (span.of text)
    return { check, path := some path, text, span, context, description := d.description, position, grid }

end Draft

namespace Issue

/-- The title of a section of a report. -/
def sectionTitle (title : String) : Text :=
  '\n' :: reportIndent ++ Brightness.bright.code ++ title.toList ++ [':'] ++ Terminal.resetAll

/-- A line of a section. -/
def sectionLine (t : Text) : Text :=
  '\n' :: reportIndent ++ reportIndent ++ t

/-- The place and the description of an issue. -/
def header (i : Issue) : Text :=
  Brightness.bright.code ++ (i.path.map Path.toText).getD "<file>".toList ++ [':'] ++ Text.ofNat i.position.line ++ [':'] ++
    Text.ofNat i.position.column ++ [':', ' '] ++ Terminal.resetAll ++ i.description.getD i.check.description

/-- An issue as it is reported. -/
def render (i : Issue) : Text :=
  i.header ++
    (if i.grid.hasRows then sectionTitle "Context" ++ '\n' :: i.grid.render else []) ++
    (match i.check.replacement with
      | some r => if r.isGiven then sectionTitle "Replace with" ++ sectionLine r.toText else []
      | none => []) ++
    (match i.check.sample with
      | some g => sectionTitle "Example" ++ '\n' :: g.render
      | none => []) ++
    (if i.check.references.isEmpty then []
      else sectionTitle "More information" ++ i.check.references.flatMap fun l => sectionLine l.toText)

/-- The lines on which a pragma suppresses an issue. -/
def lines (i : Issue) : List Nat :=
  i.span.lines i.text

end Issue

end CMakeLint
