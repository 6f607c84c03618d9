import CMakeLint.Proofs.Disk.Leads
import Mathlib.Data.List.Induction

/-!
A tree of files below a place of the disk. In a tree without links every place that can be seen is where its names say
(`real_below`), so to look at a path is to look into the tree (`stat_child`, `stat_absolute`). The files of a tree are listed
directory by directory (`files`). Whether a tree has no links can be decided from all that can be seen in it
(`tidy_of_visible`).
-/
namespace CMakeLint

namespace Node

/-! ### Looking into a tree -/

theorem find_nil (node : Node) : node.find [] = .ok node := by
  cases node <;> rfl

theorem find_append (disk : Node) (a b : Place) : disk.find (a ++ b) = (disk.find a).bind fun node => node.find b := by
  induction a generalizing disk with
  | nil => cases disk <;> rfl
  | cons name a ih =>
    cases disk with
    | directory entries locked =>
      cases locked with
      | true => rfl
      | false =>
        simp only [List.cons_append, find, Bool.false_eq_true, ↓reduceIte]
        cases entries.lookup name with
        | none => rfl
        | some node => exact ih node
    | _ => rfl

section Entries
variable {tree : Node} {d : Place} {entries : List (Text × Node)}

theorem find_entry (isDirectory : tree.find d = .ok (.directory entries false)) (name : Text) :
    tree.find (d ++ [name]) = (entries.lookup name).elim (.error .missing) .ok := by
  rw [find_append, isDirectory]
  simp only [Except.bind, find, Bool.false_eq_true, ↓reduceIte]
  cases entries.lookup name with
  | none => rfl
  | some node => cases node <;> rfl

theorem find_entry_locked (isDirectory : tree.find d = .ok (.directory entries true)) (name : Text) :
    tree.find (d ++ [name]) = .error .denied := by
  rw [find_append, isDirectory]
  rfl

/-- What something is found below is a directory that is not locked. -/
theorem find_above {below : Place} {node : Node} (found : tree.find (d ++ below) = .ok node) (some : below ≠ []) :
    ∃ entries, tree.find d = .ok (.directory entries false) := by
  obtain ⟨name, rest, rfl⟩ := List.exists_cons_of_ne_nil some
  rw [find_append] at found
  cases above : tree.find d with
  | error obstacle =>
    rw [above] at found
    cases found
  | ok node' =>
    rw [above] at found
    cases node' with
    | directory entries locked =>
      cases locked with
      | true => cases found
      | false => exact ⟨entries, rfl⟩
    | _ => cases found

/-- What is found below a directory is an entry of it, which is not locked. -/
theorem find_concat_ok {name : Text} {node : Node} (found : tree.find (d ++ [name]) = .ok node) :
    ∃ entries, tree.find d = .ok (.directory entries false) ∧ entries.lookup name = some node := by
  obtain ⟨entries, isDirectory⟩ := find_above found (List.cons_ne_nil _ _)
  refine ⟨entries, isDirectory, ?_⟩
  rw [find_entry isDirectory] at found
  cases looked : entries.lookup name with
  | none =>
    rw [looked] at found
    cases found
  | some other =>
    rw [looked] at found
    cases found
    rfl

theorem mem_of_find (isDirectory : tree.find d = .ok (.directory entries false)) {name : Text} {rest : Place} {node : Node}
    (found : tree.find (d ++ name :: rest) = .ok node) : name ∈ entries.map (·.1) := by
  rw [find_append, isDirectory] at found
  simp only [Except.bind, find, Bool.false_eq_true, ↓reduceIte] at found
  cases looked : entries.lookup name with
  | none =>
    rw [looked] at found
    cases found
  | some child =>
    obtain ⟨earlier, later, rfl, _⟩ := List.lookup_eq_some_iff.mp looked
    simp

theorem lookup_of_mem (names : (entries.map (·.1)).Nodup) {entry : Text × Node} (member : entry ∈ entries) :
    entries.lookup entry.1 = some entry.2 := by
  obtain ⟨earlier, later, rfl⟩ := List.append_of_mem member
  refine List.lookup_eq_some_iff.mpr ⟨earlier, later, rfl, fun other before => ?_⟩
  rw [List.map_append, List.map_cons, List.nodup_append] at names
  have different := names.2.2 other.1 (List.mem_map_of_mem before) entry.1 List.mem_cons_self
  simpa using different.symm

end Entries

/-! ### Trees without links -/

/-- A tree in which no link can be seen, and in which the entries of a directory have names of their own. -/
structure Tidy (tree : Node) : Prop where
  linkless : ∀ place target, tree.find place ≠ .ok (.link target)
  named : ∀ place entries locked, tree.find place = .ok (.directory entries locked) → ∀ name ∈ entries.map (·.1), IsName name
  distinct : ∀ place entries locked, tree.find place = .ok (.directory entries locked) → (entries.map (·.1)).Nodup

instance (name : Text) : Decidable (IsName name) :=
  decidable_of_iff (name ≠ [] ∧ name ≠ sameName ∧ name ≠ Path.parentName ∧ Path.bytes name ≤ Path.maxNameBytes)
    ⟨fun ⟨nonempty, same, parent, fits⟩ => ⟨nonempty, same, parent, fits⟩,
      fun named => ⟨named.nonempty, named.not_same, named.not_parent, named.fits⟩⟩

/-- The names of the entries of a directory. -/
def entryNames : Node → List Text
  | .directory entries _ => entries.map (·.1)
  | _ => []

/-- Whether a node is a link. -/
def isLink : Node → Bool
  | .link _ => true
  | _ => false

/-- What a node must be for its tree to be tidy. -/
def IsTidy (node : Node) : Prop :=
  node.isLink = false ∧ (∀ name ∈ node.entryNames, IsName name) ∧ node.entryNames.Nodup

instance (node : Node) : Decidable node.IsTidy :=
  inferInstanceAs (Decidable (_ ∧ _ ∧ _))

mutual
/-- All that can be seen in a tree. -/
def visible : Node → List (Place × Node)
  | .directory entries false => ([], .directory entries false) :: visibleIn entries
  | node => [([], node)]

/-- All that can be seen among some entries and below them. -/
def visibleIn : List (Text × Node) → List (Place × Node)
  | [] => []
  | (name, node) :: rest => (visible node).map (fun seen => (name :: seen.1, seen.2)) ++ visibleIn rest
end

theorem mem_visibleIn {entries : List (Text × Node)} {name : Text} {node : Node} (looked : entries.lookup name = some node)
    {place : Place} {seen : Node} (inside : (place, seen) ∈ node.visible) : (name :: place, seen) ∈ visibleIn entries := by
  induction entries with
  | nil => cases looked
  | cons entry rest ih =>
    rw [visibleIn, List.mem_append]
    rw [List.lookup_cons] at looked
    split at looked
    · rename_i same
      cases looked
      obtain rfl := eq_of_beq same
      exact .inl (List.mem_map_of_mem inside)
    · exact .inr (ih looked)

theorem mem_visible {tree : Node} {place : Place} {node : Node} (found : tree.find place = .ok node) :
    (place, node) ∈ tree.visible := by
  induction place generalizing tree with
  | nil =>
    obtain rfl : tree = node := by cases tree <;> exact Except.ok.inj found
    unfold visible
    split <;> exact List.mem_cons_self
  | cons name place ih =>
    obtain ⟨entries, isDirectory⟩ := find_above (d := []) found (List.cons_ne_nil name place)
    obtain rfl : tree = .directory entries false := by cases tree <;> exact Except.ok.inj isDirectory
    rw [find, if_neg Bool.false_ne_true] at found
    cases looked : entries.lookup name with
    | none =>
      rw [looked] at found
      cases found
    | some child =>
      rw [looked] at found
      rw [visible]
      exact List.mem_cons_of_mem _ (mem_visibleIn looked (ih found))

theorem tidy_of_each {tree : Node} (each : ∀ place node, tree.find place = .ok node → node.IsTidy) : tree.Tidy where
  linkless place _ found := nomatch (each place _ found).1
  named place _ _ found := (each place _ found).2.1
  distinct place _ _ found := (each place _ found).2.2

theorem tidy_of_visible {tree : Node} (each : ∀ seen ∈ tree.visible, seen.2.IsTidy) : tree.Tidy :=
  tidy_of_each fun _ _ found => each _ (mem_visible found)

variable {disk tree : Node} {q d : Place}

theorem find_below (rooted : disk.find q = .ok tree) (d : Place) : disk.find (q ++ d) = tree.find d := by
  rw [find_append, rooted]
  rfl

theorem enter_below (rooted : disk.find q = .ok tree) {entries : List (Text × Node)}
    (isDirectory : tree.find d = .ok (.directory entries false)) : disk.enter (q ++ d) = .ok () := by
  rw [enter, find_below rooted, isDirectory]
  rfl

theorem isName_of_lookup (tidy : tree.Tidy) {entries : List (Text × Node)} {locked : Bool}
    (isDirectory : tree.find d = .ok (.directory entries locked)) {name : Text} {node : Node}
    (looked : entries.lookup name = some node) : IsName name := by
  rw [List.lookup_eq_some_iff] at looked
  obtain ⟨earlier, later, rfl, _⟩ := looked
  exact tidy.named d _ locked isDirectory name (by simp)

/-- Every place that can be seen in a tree without links is reached by its names. -/
theorem real_below (real : Real disk q) (rooted : disk.find q = .ok tree) (tidy : tree.Tidy) {node : Node}
    (found : tree.find d = .ok node) : Real disk (q ++ d) := by
  induction d using List.reverseRecOn generalizing node with
  | nil => rwa [List.append_nil]
  | append_singleton d name ih =>
    obtain ⟨entries, isDirectory, looked⟩ := find_concat_ok found
    have here : disk.find (q ++ d ++ [name]) = .ok node := by
      rw [List.append_assoc, find_below rooted, found]
    rw [← List.append_assoc]
    refine .child (ih isDirectory) (enter_below rooted isDirectory) (isName_of_lookup tidy isDirectory looked) here ?_
    rintro target rfl
    exact tidy.linkless _ target found

/-! ### Listing files -/

mutual
/-- The places of all files in a tree, directory by directory in the order in which entries are listed. -/
def files : Node → List Place
  | .file _ _ => [[]]
  | .directory entries _ => filesIn entries
  | _ => []

/-- The places of all files among some entries and below them. -/
def filesIn : List (Text × Node) → List Place
  | [] => []
  | (name, node) :: rest => (files node).map (name :: ·) ++ filesIn rest
end

theorem files_directory (entries : List (Text × Node)) (locked : Bool) :
    (directory entries locked).files = entries.flatMap fun entry => entry.2.files.map (entry.1 :: ·) := by
  rw [files]
  induction entries with
  | nil => rw [filesIn, List.flatMap_nil]
  | cons entry rest ih => rw [filesIn, ih, List.flatMap_cons]

theorem ne_nil_of_mem_files {entries : List (Text × Node)} {locked : Bool} {f : Place}
    (member : f ∈ (directory entries locked).files) : f ≠ [] := by
  rw [files_directory] at member
  simp only [List.mem_flatMap, List.mem_map] at member
  obtain ⟨_, _, _, _, rfl⟩ := member
  exact List.cons_ne_nil _ _

end Node

namespace World
open Node

variable {w : World} {p : Path} {q : Place} {entries : List (Text × Node)} {locked : Bool} {name : Text}

/-- To look at an entry of a directory is to look into the directory, unless the entry is a link. -/
theorem stat_child (here : Real w.disk w.here) (leads : w.LeadsTo p q)
    (isDirectory : w.disk.find q = .ok (.directory entries locked)) (named : IsName name)
    (plain : ∀ target, w.disk.find (q ++ [name]) ≠ .ok (.link target))
    (short : Path.bytes (p.child name).toText ≤ Path.maxBytes) : w.stat (p.child name) = w.disk.find (q ++ [name]) := by
  obtain ⟨k, few, leads⟩ := leads
  have place : w.place (p.child name) = w.place p ++ [name] := by
    unfold World.place Path.child
    split <;> simp
  have followed := follow_start here p maxLinks [name]
  rw [follow_of_leads leads, if_pos few] at followed
  rw [World.stat, if_neg (Nat.not_lt.mpr short), Node.stat, place, followed]
  cases locked with
  | true =>
    have denied : w.disk.enter q = .error .denied := by simp [enter, isDirectory]
    rw [follow_obstacle (by rw [advance.eq_3 _ _ _ _ named.nonempty, denied]), find_entry_locked isDirectory]
    rfl
  | false =>
    have inside : w.disk.enter q = .ok () := by simp [enter, isDirectory]
    cases found : w.disk.find (q ++ [name]) with
    | error obstacle =>
      rw [follow_obstacle (advance_missing inside named found)]
      rfl
    | ok node =>
      have noLink : ∀ target, node ≠ .link target := fun target same => plain target (same ▸ found)
      rw [follow_congr (advance_down inside named found noLink), follow_nil]
      exact found

theorem short_of_stat {node : Node} (found : w.stat p = .ok node) : Path.bytes p.toText ≤ Path.maxBytes := by
  by_contra long
  rw [World.stat, if_pos (Nat.lt_of_not_le long)] at found
  cases found

theorem leadsTo_absolute (real : Real w.disk q) : w.LeadsTo (.absolute q) q :=
  ⟨0, Nat.zero_le _, leads_of_real real⟩

theorem stat_absolute (here : Real w.disk w.here) (real : Real w.disk q) :
    w.stat (.absolute q) =
      if Path.maxBytes < Path.bytes (Path.absolute q).toText then .error .tooLong else w.disk.find q := by
  split
  · rename_i long
    rw [World.stat, if_pos long]
  · rename_i short
    exact stat_of_leadsTo here (leadsTo_absolute real) (Nat.not_lt.mp short)

end World

end CMakeLint
