import CMakeLint.Text.Basic

/-!
Paths of files: a number of slashes at the start and the names after them. Dots that mean the same place and doubled
slashes are not kept.
-/
namespace CMakeLint

/-- A path: 0 slashes at its start if it is relative, 1 or 2 if it is absolute, and its names. -/
structure Path where
  slashes : Nat
  names : List Text
  deriving DecidableEq, Repr

namespace Path

/-- The names in a text between slashes, without empty ones and dots. -/
def namesOf (t : Text) : List Text :=
  (Text.fields '/' t).filter fun name => name ≠ [] ∧ name ≠ ['.']

/-- A path by its text. Two slashes at the start are kept, more count as one. -/
def ofText (t : Text) : Path :=
  let slashes := (t.takeWhile (· = '/')).length
  ⟨if slashes ≤ 2 then slashes else 1, namesOf t⟩

/-- The absolute path with these names. -/
def absolute (names : List Text) : Path :=
  ⟨1, names⟩

/-- The text of a path; the empty relative path is a dot. -/
def toText (p : Path) : Text :=
  if p.slashes = 0 ∧ p.names = [] then ['.'] else List.replicate p.slashes '/' ++ Text.join ['/'] p.names

/-- The last name of a path, if any. -/
def name (p : Path) : Text :=
  p.names.getLastD []

/-- The last name from its last dot on, unless that dot is its first or its last character. -/
def suffix (p : Path) : Text :=
  match p.name.beforeLast? '.', p.name.afterLast? '.' with
  | some (_ :: _), some (c :: after) => '.' :: c :: after
  | _, _ => []

/-- The number of bytes of a text in UTF-8. -/
def bytes (t : Text) : Nat :=
  (String.ofList t).utf8ByteSize

/-- The number of bytes of the longest name that can be looked up. -/
def maxNameBytes : Nat := 255

/-- The number of bytes of the longest path that can be looked up. -/
def maxBytes : Nat := 4095

/-- A path below another one. -/
def child (p : Path) (name : Text) : Path :=
  ⟨p.slashes, p.names ++ [name]⟩

/-- The name of the directory above. -/
def parentName : Text := ['.', '.']

/-- The path of the directory above, where it can be told from the names. The root is above itself. -/
def parent (p : Path) : Path :=
  if p.slashes = 0 ∧ (p.names = [] ∨ p.name = parentName) then p.child parentName else ⟨p.slashes, p.names.dropLast⟩

/-- The path that a text leads to from another path: the text itself if it starts with a slash. -/
def join (p : Path) (t : Text) : Path :=
  if t.head? = some '/' then ofText t else ⟨p.slashes, p.names ++ namesOf t⟩

/-- An absolute path without the names of directories above. A relative path starts at `here`. -/
def normal (here : List Text) (p : Path) : Path :=
  let names := if p.slashes = 0 then here ++ p.names else p.names
  (names.foldl (fun q name => if name = parentName then q.parent else q.child name) ⟨max p.slashes 1, []⟩)

/-- The names by which a path is below another one, if it is. -/
def below? (root p : Path) : Option (List Text) :=
  if root.slashes = p.slashes ∧ root.names.isPrefixOf p.names then some (p.names.drop root.names.length) else none

end Path

end CMakeLint
