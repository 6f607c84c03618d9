import CMakeLint.Text.Basic

/-!
A tree of files: directories with named entries in the order in which they are listed, files, links to other places, and
pipes. Files and directories may be locked. Names are texts: bytes that are not UTF-8 cannot stand in a name here, so a project
with such a name, which cannot be printed at all, is left out.
-/
namespace CMakeLint

/-- A file, a directory, a link or a pipe. Entries and targets are named by texts, so only names in UTF-8 are covered. -/
inductive Node where
  | file (content : ByteArray) (locked : Bool)
  | directory (entries : List (Text × Node)) (locked : Bool)
  | link (target : Text)
  | pipe

namespace Node

/-- An empty directory. -/
def emptyDirectory : Node :=
  directory [] false

/-- Changes the entry of a name, or puts a changed empty directory in its place in the order of names. -/
def changeEntry (name : Text) (change : Node → Node) : List (Text × Node) → List (Text × Node)
  | [] => [(name, change emptyDirectory)]
  | (other, node) :: rest =>
    if name = other then (other, change node) :: rest
    else if name < other then (name, change emptyDirectory) :: (other, node) :: rest
    else (other, node) :: changeEntry name change rest

/-- Changes what is at a place below a directory; directories on the way are made if they are missing. -/
def changeAt (change : Node → Node) : List Text → Node → Node
  | [], node => change node
  | name :: rest, directory entries locked => directory (changeEntry name (changeAt change rest) entries) locked
  | _ :: _, node => node

/-- A node that is locked, if it can be. -/
def lock : Node → Node
  | file content _ => file content true
  | directory entries _ => directory entries true
  | node => node

end Node

end CMakeLint
