import CMakeLint.Issue
import CMakeLint.Pattern.Call
import CMakeLint.Pattern.Match

/-!
Running a check on the text of a script: first the spots that its rule reports, then an issue for each of them.
-/
namespace CMakeLint

/-- What a check finds: at most one issue, or all there are. -/
inductive Findings where
  | first (issue : Option Issue)
  | all (issues : List Issue)
  deriving Repr

/-- The issues of findings. -/
def Findings.toList : Findings → List Issue
  | first issue => issue.toList
  | all issues => issues

/-- What is to be reported: a group of a match, what is said about it, and the lines that are shown, from that of one position to
    that of another one. -/
structure Spot where
  found : Pattern.Match
  group : Nat
  description : Option Text
  start : Int
  last : Int
  deriving DecidableEq, Repr

/-- A group of a match with the lines of the match. -/
def Spot.ofMatch (m : Pattern.Match) (group : Nat) (description : Option Text) : Spot :=
  ⟨m, group, description, m.start, (m.stop : Int) - 1⟩

namespace Check

/-- The whole lines from one position to another. -/
def wholeLines (t : Text) (start last : Int) : Except Fault Span := do
  let first ← t.lineStart start
  let stop ← t.lineEnd last
  Span.ofBounds first (stop + 1)

/-- The start and the end of a group; both are -1 if the group took no part in the match. -/
def groupBounds (m : Pattern.Match) (number : Nat) : Int × Int :=
  match m.group? number with
  | some (start, stop) => (start, stop)
  | none => (-1, -1)

/-- The text of a group, or a word for a group that took no part in the match. -/
def groupText (t : Text) (m : Pattern.Match) (number : Nat) : Text :=
  (m.text? t number).getD "None".toList

/-- The issue of a spot. -/
def report (check : Check) (path : Path) (t : Text) (s : Spot) : Except Fault Issue := do
  let (groupStart, groupStop) := groupBounds s.found s.group
  let span ← Span.ofBounds groupStart groupStop
  let context ← wholeLines t s.start s.last
  Draft.issue ⟨some check, some path, some t, some span, s.description, some context⟩

/-! ### Matching rules -/

/-- A description with the texts of groups in place of a backslash and a digit, one digit after the other. -/
def fillIn (groups : Nat) (groupText : Nat → Text) (description : Text) : Text :=
  (List.range 10).foldl (fun d i => if i ≤ groups then Text.replaceAll ['\\', Nat.digitChar i] (groupText i) d else d)
    description

/-- The group that a rule reports. -/
def reportedGroup (m : Matching) (p : Pattern) : Nat :=
  if 0 ≤ m.group ∧ m.group ≤ p.groupCount then m.group.toNat else 0

/-- Whether the reported text of a match is exempt from a rule. -/
def isExempt (rule : Matching) (reported : Text) : Bool :=
  match rule.exempt with
  | some p => (p.search rule.ignoreCase reported).isSome
  | none => false

/-- What is reported of a match, unless it is exempt. -/
def matchSpot? (check : Check) (rule : Matching) (t : Text) (p : Pattern) (m : Pattern.Match) : Option Spot :=
  let number := reportedGroup rule p
  if isExempt rule (groupText t m number) then none
  else some (.ofMatch m number (some (fillIn p.groupCount (groupText t m) check.description)))

/-- What is reported of all matches of all patterns of a rule. -/
def matchingSpots (check : Check) (rule : Matching) (t : Text) : List Spot :=
  rule.patterns.flatMap fun p => (p.findAll rule.ignoreCase t).filterMap (matchSpot? check rule t p)

/-! ### The other rules -/

/-- Whether a script is the main one of its directory. -/
def isListFile (path : Path) : Bool :=
  path.name.lowercase == "cmakelists.txt".toList

/-- The first project if no minimum version is required at all, and the first requirement if it comes after that project. -/
def minimumVersionSpot? (path : Path) (t : Text) : Option Spot :=
  if !isListFile path then none
  else
    match (Pattern.callNamedWithArguments ["project"]).search false t with
    | none => none
    | some project =>
      match (Pattern.callNamedWithArguments ["cmake_minimum_required"]).search false t with
      | none => some (.ofMatch project 1 none)
      | some required =>
        if project.start < required.start then
          some ⟨required, 1, none, project.start, (max project.stop required.stop : Nat) - 1⟩
        else none

/-- The SYSTEM keyword in the first call that has it, if it is not in its place there. -/
def systemKeywordSpot? (t : Text) : Option Spot :=
  match Pattern.includeDirectoriesWithSystem.search false t with
  | none => none
  | some m =>
    if (Pattern.systemSecond.matchWhole false (groupText t m 1)).isSome then none else some (.ofMatch m 2 none)

/-- The spots that a check reports, in the order in which it reports them. -/
def spots (check : Check) (path : Path) (t : Text) : List Spot :=
  match check.rule with
  | .none => []
  | .minimumVersion => (minimumVersionSpot? path t).toList
  | .systemKeyword => (systemKeywordSpot? t).toList
  | .matching rule => matchingSpots check rule t

/-- Runs a check on a script. -/
def run (check : Check) (path : Path) (t : Text) : Except Fault Findings := do
  if check.rule = .none then .error .ruleMissing
  else
    let issues ← (check.spots path t).mapM (check.report path t)
    match check.rule with
    | .matching _ => return .all issues
    | _ => return .first issues.head?

/-- Runs checks one after the other. -/
def runAll (checks : List Check) (path : Path) (t : Text) : Except Fault (List Issue) := do
  let findings ← checks.mapM fun check => check.run path t
  return findings.flatMap Findings.toList

end Check

end CMakeLint
