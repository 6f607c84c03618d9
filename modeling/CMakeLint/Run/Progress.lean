import CMakeLint.Disk.Lookup
import CMakeLint.Issue

/-!
What a run finds around it, what happens during its walk, and how far the walk has come.
-/
namespace CMakeLint

/-- What a run finds around it. -/
structure World where
  disk : Node
  /-- The working directory. -/
  here : Place
  /-- The files that git ignores; none if there is no git. -/
  ignored : Option (List Place)
  /-- The number of the entry before which the run is interrupted. -/
  interruptAt : Option Nat
  /-- Whether output goes to a terminal. -/
  terminal : Bool
  /-- Where this program is installed. -/
  location : Text
  /-- A number of directories inside of each other below the root for which a walk has room on the stack, whatever it does in
      the last of them. How much further it would get is not known: below them it counts as failed. -/
  levels : Nat
  /-- There is room for as many links that lead on to each other as are followed to get to a file. -/
  roomy : Node.maxLinks ≤ levels

/-- Levels for which a stack of a thousand calls has room. -/
def World.usualLevels : Nat := 900

theorem World.usualLevels_roomy : Node.maxLinks ≤ World.usualLevels := Nat.le_of_ble_eq_true rfl

/-- The place that a path leads to before links are followed. -/
def World.place (w : World) (p : Path) : Place :=
  if p.slashes = 0 then w.here ++ p.names else p.names

/-- What is at a path. -/
def World.stat (w : World) (p : Path) : Except Obstacle Node :=
  if Path.maxBytes < Path.bytes p.toText then .error .tooLong else w.disk.stat (w.place p)

/-- The path that is reached when all links are replaced, at most `depth` of them leading on to each other. -/
def World.resolve (w : World) (depth : Nat) (p : Path) : Node.Resolved :=
  w.disk.resolve w.here depth p

/-- Why an entry is not looked into. -/
inductive Skip where
  | permissions
  | submodule
  | mesonBuild
  | cmakeBuild
  | ninjaBuild
  | build
  | conan
  | ignored
  deriving DecidableEq, Repr

/-- What happens during a walk. -/
inductive Event where
  /-- An entry, relative to the root, is not looked into. -/
  | skipped (place : Place) (reason : Skip)
  /-- A script is read. -/
  | read (path : Path)
  /-- An issue is reported. -/
  | found (issue : Issue)
  /-- A script has no issues. -/
  | clean (place : Place)
  /-- The limit is reached. -/
  | limitReached
  deriving Repr

/-- Why a run cannot go on. -/
inductive Failure where
  /-- A script is not in UTF-8. -/
  | undecodable
  /-- A path that cannot be looked at. -/
  | blocked (obstacle : Obstacle) (path : Path)
  /-- A link that leads to itself. -/
  | loop (path : Path)
  /-- An entry that leads out of the root. -/
  | outside (path root : Path)
  /-- A check that was refused. -/
  | refused (fault : Fault)
  /-- Directories too deep inside of each other, or links that lead on to each other too often. -/
  | tooDeep
  /-- A limit that is not a number. -/
  | limitMissing
  /-- A title for a window where there is none. -/
  | titleRefused
  deriving DecidableEq, Repr

/-- How far a walk has come: the entries taken, the scripts read and the issues reported so far, and the events, the last one
    first. -/
structure Progress where
  entries : Nat
  files : Nat
  issues : Nat
  log : List Event
  deriving Repr

/-- The start of a walk. -/
def Progress.start : Progress := ⟨0, 0, 0, []⟩

/-- A part of a walk. What happened before a failure is kept. -/
abbrev Walk := EStateM Failure Progress

/-- Whether to go on with the next entry of a directory or to leave the directory. -/
inductive Flow where
  | next
  | leave
  deriving DecidableEq, Repr

namespace Walk

/-- Logs an event. -/
def log (event : Event) : Walk Unit :=
  modify fun p => { p with log := event :: p.log }

end Walk

end CMakeLint
