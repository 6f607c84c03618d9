import CMakeLint.Disk.Lookup

/-!
Trees made from a list of entries, each with its place. Directories on the way to a place need no entry of their own.
-/
namespace CMakeLint

/-- What an entry puts at its place. -/
inductive Entry.Kind where
  | file (content : ByteArray)
  | directory
  | link (target : Text)
  | pipe

/-- An entry of a tree. -/
structure Entry where
  place : Place
  kind : Entry.Kind
  locked : Bool

namespace Node

/-- Puts an entry of some kind where a node is; a directory keeps what is in it. -/
def put : Entry.Kind → Node → Node
  | .file content, _ => file content false
  | .directory, node => node
  | .link target, _ => link target
  | .pipe, _ => pipe

/-- Where links lead to; a place that they do not lead to stays as it is. -/
def throughLinks (disk : Node) (place : Place) : Place :=
  match disk.resolve [] maxLinks (.absolute place) with
  | .path p => p.names
  | _ => place

/-- Where an entry is put: files and directories where all links lead to, links and pipes in such a directory. -/
def target (disk : Node) (e : Entry) : Place :=
  match e.kind, e.place.getLast? with
  | .link _, some name => disk.throughLinks e.place.dropLast ++ [name]
  | .pipe, some name => disk.throughLinks e.place.dropLast ++ [name]
  | _, _ => disk.throughLinks e.place

/-- The tree of some entries. They are locked once all of them are in place. -/
def ofEntries (entries : List Entry) : Node :=
  let tree := entries.foldl (fun disk e => disk.changeAt (put e.kind) (disk.target e)) emptyDirectory
  (entries.filter (·.locked)).foldl (fun disk e => disk.changeAt lock e.place) tree

end Node

end CMakeLint
