import CMakeLint.Lint
import CMakeLint.Run.Options
import CMakeLint.Run.Progress

/-!
The walk through a project: every entry of a directory in turn, directories before the entries after them. What happens is
kept as a log of events. An entry that cannot be followed ends the walk, as does a script that cannot be read.
-/
namespace CMakeLint

namespace Walk

/-- Counts an entry that is about to be taken, and tells whether the run has been interrupted. -/
def takeEntry (w : World) : Walk Bool := do
  modify fun p => { p with entries := p.entries + 1 }
  let p ← get
  return w.interruptAt.any fun k => 0 < k && k ≤ p.entries

/-- The issues of a script in turn, up to the limit. A missing limit ends the walk at the first issue. -/
def reportIssues (limit : Option Int) : List Issue → Walk Flow
  | [] => return .next
  | issue :: rest => do
    log (.found issue)
    modify fun p => { p with issues := p.issues + 1 }
    let p ← get
    match limit with
    | none => throw .limitMissing
    | some n =>
      if 0 < n ∧ n ≤ p.issues then
        log .limitReached
        return .leave
      else reportIssues limit rest

/-- The text of a file, with newlines of one kind. -/
def readText (path : Path) (content : ByteArray) (locked : Bool) : Except Failure Text :=
  if locked then .error (.blocked .denied path)
  else match String.fromUTF8? content with
    | some s => .ok (Text.unifyNewlines s.toList)
    | none => .error .undecodable

/-- Reports what the checks find in a script. -/
def reportFindings (limit : Option Int) (place : Place) : Except Fault (List Issue) → Walk Flow
  | .error fault => throw (.refused fault)
  | .ok [] => do
    log (.clean place)
    return .next
  | .ok issues => reportIssues limit issues

/-- Checks a script. -/
def visitScript (limit : Option Int) (path : Path) (place : Place) (content : ByteArray) (locked : Bool) : Walk Flow := do
  modify fun p => { p with files := p.files + 1 }
  let text ← MonadExcept.ofExcept (readText path content locked)
  log (.read path)
  reportFindings limit place (Lint.issues path text)

/-! ### Directories that are skipped -/

/-- Whether something is at a path that meets a condition. Only a lack of permission or a path that is too long prevents the
    answer. -/
def probe (w : World) (path : Path) (condition : Node → Bool) : Except Obstacle Bool :=
  match w.stat path with
  | .ok node => .ok (condition node)
  | .error .denied => .error .denied
  | .error .tooLong => .error .tooLong
  | .error _ => .ok false

/-- Whether a node is a directory. -/
def isDirectory : Node → Bool
  | .directory _ _ => true
  | _ => false

/-- Whether a node is a file. -/
def isFile : Node → Bool
  | .file _ _ => true
  | _ => false

/-- What marks a directory as one to skip: an entry of this name that meets a condition. -/
def marks (isRepository : Bool) : List (String × (Node → Bool) × Skip) :=
  (if isRepository then [(".git", fun _ => true, .submodule)] else []) ++
    [("meson-info", isDirectory, .mesonBuild), ("meson-logs", isDirectory, .mesonBuild),
      ("meson-private", isDirectory, .mesonBuild), ("CMakeCache.txt", isFile, .cmakeBuild),
      ("build.ninja", isFile, .ninjaBuild), ("compile_commands.json", isFile, .build), (".conan.db", isFile, .conan)]

/-- The reason of the first mark that a directory has. -/
def firstMark (w : World) (directory : Path) : List (String × (Node → Bool) × Skip) → Except Failure (Option Skip)
  | [] => .ok none
  | (name, condition, reason) :: rest =>
    let path := directory.child name.toList
    match probe w path condition with
    | .error .denied => .ok (some .permissions)
    | .error obstacle => .error (.blocked obstacle path)
    | .ok true => .ok (some reason)
    | .ok false => firstMark w directory rest

/-! ### Entries -/

/-- What a walk goes by: the options, the resolved root, and whether the root is a git repository. -/
structure Plan where
  world : World
  options : Options
  root : Path
  isRepository : Bool

/-- What is to be done about an entry of a directory. -/
inductive Errand where
  | nothing
  /-- To note that the entry is not looked into. -/
  | skip (place : Place) (reason : Skip)
  /-- To check a script. -/
  | check (path : Path) (place : Place) (content : ByteArray) (locked : Bool)
  /-- To walk through a directory. -/
  | descend (path : Path)

namespace Plan

/-- Whether git ignores a file. -/
def ignores (plan : Plan) (path : Path) : Bool :=
  plan.isRepository && plan.world.ignored.any (·.contains path.names)

/-- The part of a path below the root. -/
def relative (plan : Plan) (path : Path) : Except Failure Place :=
  match plan.root.below? path with
  | some place => .ok place
  | none => .error (.outside path plan.root)

/-- What is to be done about what is at a resolved path. -/
def nodeErrand (plan : Plan) (path : Path) (place : Place) : Node → Except Failure Errand
  | .directory _ _ =>
    if !plan.options.recurse then .ok .nothing
    else
      match firstMark plan.world path (marks plan.isRepository) with
      | .error f => .error f
      | .ok (some reason) => .ok (.skip place reason)
      | .ok none => .ok (.descend path)
  | .file content locked =>
    if !Lint.isScript path then .ok .nothing
    else if plan.ignores path then .ok (.skip place .ignored)
    else .ok (.check path place content locked)
  | _ => .ok .nothing

/-- What is to be done about an entry, with at most `links` links that lead on to each other. -/
def errand (plan : Plan) (links : Nat) (entry : Path) : Except Failure Errand :=
  match plan.world.resolve links entry with
  | .tooDeep => .error .tooDeep
  | .loop path => .error (.loop path)
  | .path path => do
    let place ← plan.relative path
    match plan.world.stat path with
    | .error .denied => .ok (.skip place .permissions)
    | .error obstacle => .error (.blocked obstacle path)
    | .ok node => plan.nodeErrand path place node

end Plan

/-! ### The walk -/

/-- Does what is to be done, with a way to walk through a directory. -/
def perform (limit : Option Int) (descend : Path → Walk Unit) : Errand → Walk Flow
  | .nothing => return .next
  | .skip place reason => do
    log (.skipped place reason)
    return .next
  | .check path place content locked => visitScript limit path place content locked
  | .descend path => do
    descend path
    return .next

/-- Takes an entry of a directory, with at most `links` links that lead on to each other. -/
def visitEntry (plan : Plan) (links : Nat) (descend : Path → Walk Unit) (entry : Path) : Walk Flow := do
  let errand ← MonadExcept.ofExcept (plan.errand links entry)
  perform plan.options.limit descend errand

/-- Takes entries of a directory until one makes the walk leave it or the run is interrupted. -/
def visitEntries (w : World) (visit : Path → Walk Flow) (directory : Path) : List Text → Walk Unit
  | [] => return ()
  | name :: rest => do
    if ← takeEntry w then return ()
    else match ← visit (directory.child name) with
      | .next => visitEntries w visit directory rest
      | .leave => return ()

/-- The names of the entries of a directory. -/
def list (w : World) (directory : Path) : Except Failure (List Text) :=
  match w.stat directory with
  | .ok (.directory entries false) => .ok (entries.map (·.1))
  | .ok (.directory _ true) => .error (.blocked .denied directory)
  | .ok _ => .error (.blocked .notDirectory directory)
  | .error obstacle => .error (.blocked obstacle directory)

/-- Walks through a directory and those below it, at most `depth` of them inside of each other; there are no entries to take in
    what is below these. The deeper the directory, the fewer links may lead on to each other. -/
def walk (plan : Plan) : (depth : Nat) → Path → Walk Unit
  | 0, directory => do
    let names ← MonadExcept.ofExcept (list plan.world directory)
    visitEntries plan.world (fun _ => throw .tooDeep) directory names
  | depth + 1, directory => do
    let names ← MonadExcept.ofExcept (list plan.world directory)
    visitEntries plan.world (visitEntry plan (depth + 1) (walk plan depth)) directory names

end Walk

end CMakeLint
