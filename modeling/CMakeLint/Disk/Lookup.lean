import CMakeLint.Disk.Node
import CMakeLint.Path

/-!
Places in a tree of files, given by names from its root. Following a place needs all names on the way to lead somewhere;
resolving one replaces links as far as they lead somewhere, and keeps the names after that.
-/
namespace CMakeLint

/-- A place in a tree of files, by the names that lead to it. -/
abbrev Place := List Text

/-- Why a place cannot be looked at. -/
inductive Obstacle where
  | missing
  | notDirectory
  | denied
  | loop
  | tooLong
  deriving DecidableEq, Repr

namespace Node

/-- The name of a directory inside of itself. -/
def sameName : Text := ['.']

/-- What is at a place, without following links. -/
def find : Node → Place → Except Obstacle Node
  | node, [] => .ok node
  | directory entries locked, name :: rest =>
    if locked then .error .denied
    else match entries.lookup name with
      | some node => node.find rest
      | none => .error .missing
  | _, _ :: _ => .error .notDirectory

/-- Whether names can be looked up in what is at a place. -/
def enter (disk : Node) (place : Place) : Except Obstacle Unit :=
  match disk.find place with
  | .ok (directory _ locked) => if locked then .error .denied else .ok ()
  | .ok _ => .error .notDirectory
  | .error obstacle => .error obstacle

/-- Where the names in a link start: at the root of the tree, or at the directory of the link. -/
def linkStart (above : Place) (target : Text) : Place :=
  if target.head? = some '/' then [] else above

/-! ### Following -/

/-- A place that was reached, or the first link on the way with its directory and the names after it. -/
inductive Reached where
  | place (p : Place)
  | link (above : Place) (target : Text) (rest : List Text)

/-- Follows steps from a place up to the first link. A step is a name, or empty where a slash only asks for a directory. -/
def advance (disk : Node) : Place → List Text → Except Obstacle Reached
  | here, [] => .ok (.place here)
  | here, [] :: rest =>
    match disk.find here with
    | .error obstacle => .error obstacle
    | .ok (directory _ _) => advance disk here rest
    | .ok _ => .error .notDirectory
  | here, name :: rest =>
    match disk.enter here with
    | .error obstacle => .error obstacle
    | .ok () =>
      if name = sameName then advance disk here rest
      else if name = Path.parentName then advance disk here.dropLast rest
      else if Path.maxNameBytes < Path.bytes name then .error .tooLong
      else match disk.find (here ++ [name]) with
        | .error obstacle => .error obstacle
        | .ok (link target) => .ok (.link here target rest)
        | .ok _ => advance disk (here ++ [name]) rest

/-- Follows steps and up to `links` links from a place. -/
def follow (disk : Node) : (links : Nat) → Place → List Text → Except Obstacle Place
  | links, here, steps =>
    match advance disk here steps with
    | .error obstacle => .error obstacle
    | .ok (.place p) => .ok p
    | .ok (.link above target rest) =>
      match links with
      | 0 => .error .loop
      | links + 1 => follow disk links (linkStart above target) (Text.fields '/' target ++ rest)

/-- The number of links that are followed before they count as a loop. -/
def maxLinks : Nat := 40

/-- What is at a place, following links. -/
def stat (disk : Node) (place : Place) : Except Obstacle Node := do
  let p ← disk.follow maxLinks [] place
  disk.find p

/-! ### Resolving -/

/-- A path in which every link is replaced, one at which a loop of links was found, or none because too many links lead on to
    each other. -/
inductive Resolved where
  | path (p : Path)
  | loop (p : Path)
  | tooDeep
  deriving DecidableEq, Repr

/-- Resolves steps from a path, with a way to resolve links: each step is looked up below the path, which a working directory
    `here` makes a place. What is no directory counts as one. -/
def resolveSteps (disk : Node) (here : Place) (expand : (link above : Path) → (target : Text) → Resolved) :
    Path → List Text → Resolved
  | p, [] => .path p
  | p, name :: rest =>
    if name = [] ∨ name = sameName then resolveSteps disk here expand p rest
    else if name = Path.parentName then resolveSteps disk here expand p.parent rest
    else match disk.find ((p.child name).normal here).names with
      | .ok (link target) =>
        match expand (p.child name) p target with
        | .path q => resolveSteps disk here expand q rest
        | .loop q => .loop (q.join (Text.join ['/'] rest))
        | .tooDeep => .tooDeep
      | _ => resolveSteps disk here expand (p.child name) rest

/-- Resolves steps from a path. A link that is met again by the same path while it is being resolved is a loop. `depth` bounds
    the links that are being resolved at a time. -/
def resolveFrom (disk : Node) (here : Place) : (depth : Nat) → (active : List Path) → Path → List Text → Resolved
  | depth, active, p, steps =>
    resolveSteps disk here (fun link above target =>
      if active.contains link then .loop link
      else match depth with
        | 0 => .tooDeep
        | depth + 1 => resolveFrom disk here depth (link :: active) (if target.head? = some '/' then .absolute [] else above)
          (Text.fields '/' target)) p steps

/-- Whether following a place leads into a loop of links. -/
def isLoop (disk : Node) (place : Place) : Bool :=
  match disk.stat place with
  | .error .loop => true
  | _ => false

/-- Resolves a path with at most `depth` links that lead on to each other. A loop of links is passed over if the names after it
    lead out of it again. -/
def resolve (disk : Node) (here : Place) (depth : Nat) (p : Path) : Resolved :=
  match disk.resolveFrom here depth [] ⟨min p.slashes 1, []⟩ p.names with
  | .path q => .path (q.normal here)
  | .loop q =>
    let q := q.normal here
    if disk.isLoop q.names then .loop q else .path q
  | .tooDeep => .tooDeep

end Node

end CMakeLint
