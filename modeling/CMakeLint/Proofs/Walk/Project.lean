import CMakeLint.Proofs.Disk.Trees
import CMakeLint.Proofs.Walk.Course
import Mathlib.Data.List.Induction

/-!
Projects without links. Which files of a project are meant to be checked is told by its tree alone (`Project.Selected`):
scripts that git does not ignore, in directories that are neither locked nor build folders nor repositories of their own. What
a walk does about an entry of such a tree depends on nothing but the entry itself (`errand_of_entry`), as long as no path is
too long to be looked at (`Project.Fits`).
-/
namespace CMakeLint

namespace Walk

/-! ### Which files are meant -/

/-- Whether some entries hold one of a name that meets a condition. -/
def holds (entries : List (Text × Node)) (condition : Node → Bool) (name : String) : Bool :=
  (entries.lookup name.toList).any condition

/-- Whether a directory with these entries is a build folder or a database of packages. -/
def isBuildFolder (entries : List (Text × Node)) : Bool :=
  ["meson-info", "meson-logs", "meson-private"].any (holds entries isDirectory) ||
    ["CMakeCache.txt", "build.ninja", "compile_commands.json", ".conan.db"].any (holds entries isFile)

/-- Whether a file can be read and no check fails on its text. -/
def isCheckable (path : Path) : Node → Bool
  | .file content locked =>
    match readText path content locked with
    | .ok t => (Lint.issues path t).isOk
    | .error _ => false
  | _ => true

/-- What decides which files of a project are meant: its tree and where it is, whether to look into directories, and the files
    that git ignores. -/
structure Project where
  root : Place
  tree : Node
  recurse : Bool
  ignored : Option (List Place)

namespace Project
variable (s : Project)

/-- The path of a place in a project. -/
def path (place : Place) : Path :=
  .absolute (s.root ++ place)

/-- The path by which a walk comes to a directory: the root as it is given, and the path of any other one. -/
def visited (root : Path) (d : Place) : Path :=
  if d = [] then root else s.path d

/-- Whether the root is a git repository. -/
def isRepository : Bool :=
  (s.tree.find [".git".toList]).isOk

/-- Whether a directory may be looked into: it is not locked, no build folder, and no repository inside of one. -/
def isPassable (d : Place) : Bool :=
  match s.tree.find d with
  | .ok (.directory entries false) => !isBuildFolder entries && !(s.isRepository && holds entries (fun _ => true) ".git")
  | _ => false

/-- The entries of a directory are looked at: it is the root, or all directories from below the root down to it may be looked
    into. -/
def IsOpen (d : Place) : Prop :=
  (s.recurse = true ∨ d = []) ∧ ∀ n < d.length, s.isPassable (d.take (n + 1)) = true

/-- Whether git ignores a file. -/
def isIgnored (f : Place) : Bool :=
  s.isRepository && s.ignored.any (·.contains (s.root ++ f))

/-- A file that is meant to be checked: a script by its name or suffix in letters of any case, not ignored, in a directory whose
    entries are looked at. -/
def Selected (f : Place) : Prop :=
  ((s.path f).name.lowercase = "cmakelists.txt".toList ∨ (s.path f).suffix.lowercase = ".cmake".toList) ∧
    s.isIgnored f = false ∧ s.IsOpen f.dropLast

instance (d : Place) : Decidable (s.IsOpen d) :=
  inferInstanceAs (Decidable (_ ∧ _))

instance (f : Place) : Decidable (s.Selected f) :=
  inferInstanceAs (Decidable (_ ∧ _ ∧ _))

/-- The files that are meant to be checked, in the order of the tree. -/
def selected : List Place :=
  s.tree.files.filter (s.Selected ·)

/-! ### What is in reach -/

/-- An entry of the tree to which a walk comes. -/
structure Meets (e : Place) (node : Node) : Prop where
  found : s.tree.find e = .ok node
  below : e ≠ []
  opened : s.IsOpen e.dropLast

/-- No entry to which a walk comes is deeper below the root than some levels. -/
def Shallow (levels : Nat) : Prop :=
  ∀ e node, s.Meets e node → e.length ≤ levels

/-- No path at which a walk looks is too long: neither that of an entry, nor that of a mark in a directory, nor that of the
    repository below the root as it is given. -/
structure Fits (root : Path) : Prop where
  entry : ∀ e node, s.Meets e node → Path.bytes (s.path e).toText ≤ Path.maxBytes
  mark : s.recurse = true → ∀ e entries locked, s.Meets e (.directory entries locked) →
    ∀ mark ∈ marks s.isRepository, Path.bytes ((s.path e).child mark.1.toList).toText ≤ Path.maxBytes
  repository : Path.bytes (root.child ".git".toList).toText ≤ Path.maxBytes

/-- The files that are meant can be read and checked. -/
def Readable : Prop :=
  ∀ f node, s.Selected f → s.tree.find f = .ok node → isCheckable (s.path f) node = true

/-! What is in reach can be told from all that can be seen in the tree. -/

variable {s : Project} {root : Path}

theorem shallow_of_visible {levels : Nat} (each : ∀ seen ∈ s.tree.visible, seen.1.length ≤ levels) : s.Shallow levels :=
  fun e node meets => each (e, node) (Node.mem_visible meets.found)

theorem fits_of_visible (entry : ∀ seen ∈ s.tree.visible, Path.bytes (s.path seen.1).toText ≤ Path.maxBytes)
    (mark : ∀ seen ∈ s.tree.visible, ∀ mark ∈ marks s.isRepository,
      Path.bytes ((s.path seen.1).child mark.1.toList).toText ≤ Path.maxBytes)
    (repository : Path.bytes (root.child ".git".toList).toText ≤ Path.maxBytes) : s.Fits root where
  entry e node meets := entry (e, node) (Node.mem_visible meets.found)
  mark _ e entries locked meets := mark (e, .directory entries locked) (Node.mem_visible meets.found)
  repository := repository

theorem readable_of_visible (each : ∀ seen ∈ s.tree.visible, isCheckable (s.path seen.1) seen.2 = true) : s.Readable :=
  fun f node _ found => each (f, node) (Node.mem_visible found)

end Project

/-! ### Open directories -/

variable {s : Project} {d : Place} {name : Text}

theorem isOpen_nil : s.IsOpen [] :=
  ⟨.inr rfl, by simp⟩

theorem isOpen_concat : s.IsOpen (d ++ [name]) ↔ s.recurse = true ∧ s.IsOpen d ∧ s.isPassable (d ++ [name]) = true := by
  constructor
  · rintro ⟨recurse, passable⟩
    have recurse : s.recurse = true := recurse.resolve_right (by simp)
    refine ⟨recurse, ⟨.inl recurse, fun n below => ?_⟩, ?_⟩
    · have shown := passable n (by rw [List.length_append]; omega)
      rwa [List.take_append_of_le_length (by omega)] at shown
    · have shown := passable d.length (by simp)
      rwa [List.take_of_length_le (by simp)] at shown
  · rintro ⟨recurse, ⟨_, passable⟩, last⟩
    refine ⟨.inl recurse, fun n below => ?_⟩
    rw [List.length_append, List.length_singleton] at below
    rcases Nat.lt_succ_iff_lt_or_eq.mp below with earlier | rfl
    · rw [List.take_append_of_le_length (by omega)]
      exact passable n earlier
    · rwa [List.take_of_length_le (by simp)]

/-- What is selected below a directory shows that the directory is open. -/
theorem isOpen_of_append {x : Place} (opened : s.IsOpen (d ++ x)) : s.IsOpen d := by
  induction x using List.reverseRecOn with
  | nil => rwa [List.append_nil] at opened
  | append_singleton x name ih =>
    rw [← List.append_assoc, isOpen_concat] at opened
    exact ih opened.2.1

theorem isOpen_of_selected {x : Place} (some : x ≠ []) (selected : s.Selected (d ++ x)) : s.IsOpen d := by
  obtain ⟨_, _, opened⟩ := selected
  rw [List.dropLast_append_of_ne_nil some] at opened
  exact isOpen_of_append opened

theorem visited_concat (root : Path) : s.visited root (d ++ [name]) = s.path (d ++ [name]) :=
  if_neg (by simp)

theorem selected_iff {f : Place} :
    s.Selected f ↔ Lint.isScript (s.path f) = true ∧ s.isIgnored f = false ∧ s.IsOpen f.dropLast := by
  simp [Project.Selected, Lint.isScript, Check.isListFile]

/-! ### Marks -/

theorem isName_of_mark {isRepository : Bool} {mark : String × (Node → Bool) × Skip} (member : mark ∈ marks isRepository) :
    Node.IsName mark.1.toList where
  nonempty := (by decide : ∀ r, ∀ mark ∈ marks r, mark.1.toList ≠ []) isRepository mark member
  not_same := (by decide : ∀ r, ∀ mark ∈ marks r, mark.1.toList ≠ Node.sameName) isRepository mark member
  not_parent := (by decide : ∀ r, ∀ mark ∈ marks r, mark.1.toList ≠ Path.parentName) isRepository mark member
  fits := (by decide +kernel : ∀ r, ∀ mark ∈ marks r, Path.bytes mark.1.toList ≤ Path.maxNameBytes) isRepository mark member

theorem isPassable_iff {entries : List (Text × Node)} {locked : Bool} (found : s.tree.find d = .ok (.directory entries locked)) :
    s.isPassable d = true ↔ locked = false ∧ ∀ mark ∈ marks s.isRepository, holds entries mark.2.1 mark.1 = false := by
  cases locked with
  | true => simp [Project.isPassable, found]
  | false =>
    cases repository : s.isRepository with
    | true => simp [Project.isPassable, found, repository, marks, isBuildFolder, and_comm, and_assoc]
    | false => simp [Project.isPassable, found, repository, marks, isBuildFolder, and_assoc]

theorem firstMark_eq {w : World} {path : Path} {ms : List (String × (Node → Bool) × Skip)} {entries : List (Text × Node)}
    (probed : ∀ mark ∈ ms, probe w (path.child mark.1.toList) mark.2.1 = .ok (holds entries mark.2.1 mark.1)) :
    firstMark w path ms = .ok (ms.findSome? fun mark => if holds entries mark.2.1 mark.1 then some mark.2.2 else none) := by
  induction ms with
  | nil => rfl
  | cons mark rest ih =>
    have first := probed mark List.mem_cons_self
    have later := ih fun mark member => probed mark (List.mem_cons_of_mem _ member)
    simp only [firstMark, first]
    cases present : holds entries mark.2.1 mark.1 with
    | true => simp [present]
    | false => simpa [present] using later

theorem firstMark_denied {w : World} {path : Path} {mark : String × (Node → Bool) × Skip}
    (denied : probe w (path.child mark.1.toList) mark.2.1 = .error .denied) (rest : List (String × (Node → Bool) × Skip)) :
    firstMark w path (mark :: rest) = .ok (some .permissions) := by
  simp only [firstMark, denied]

/-! ### Errands in a project -/

/-- A plan to walk through a project, which is a tree without links. -/
structure Plan.Covers (plan : Plan) (s : Project) : Prop where
  here : Node.Real plan.world.disk plan.world.here
  leads : plan.world.LeadsTo plan.options.root s.root
  looked : plan.world.stat plan.options.root = .ok s.tree
  found : plan.world.disk.find s.root = .ok s.tree
  tidy : s.tree.Tidy
  root_eq : plan.root = .absolute s.root
  recurse_eq : plan.options.recurse = s.recurse
  ignored_eq : plan.world.ignored = s.ignored
  repository_eq : plan.isRepository = s.isRepository

/-- What is to be done about an entry that leads to a place in a project. -/
theorem errand_of_leads {plan : Plan} (here : Node.Real plan.world.disk plan.world.here)
    (root_eq : plan.root = .absolute s.root) {entry : Path} {e : Place} {k links : Nat} {node : Node}
    (leads : Node.Leads plan.world.disk k (plan.world.start entry) entry.names (s.root ++ e)) (enough : k ≤ links)
    (found : plan.world.stat (s.path e) = .ok node) : plan.errand links entry = plan.nodeErrand (s.path e) e node := by
  have resolved : plan.world.resolve links entry = .path (s.path e) := World.resolve_of_leads here leads enough
  have relative : plan.relative (s.path e) = .ok e := by
    rw [Plan.relative, root_eq, Path.below?, Project.path, Path.absolute, Path.absolute]
    simp [List.prefix_append]
  rw [Plan.errand, resolved]
  simp only [relative, found]
  rfl

/-- The plan of a walk through a project. -/
def Project.plan (s : Project) (w : World) (options : Options) : Plan :=
  ⟨w, options, .absolute s.root, s.isRepository⟩

section Errands
variable {plan : Plan} (covers : plan.Covers s) {entries : List (Text × Node)} {locked : Bool}
include covers

theorem real_found {node : Node} (found : s.tree.find d = .ok node) : Node.Real plan.world.disk (s.root ++ d) :=
  Node.real_below (World.real_of_leadsTo covers.here covers.leads) covers.found covers.tidy found

theorem probe_mark (isDirectory : s.tree.find d = .ok (.directory entries locked))
    {mark : String × (Node → Bool) × Skip} (named : Node.IsName mark.1.toList)
    (short : Path.bytes ((s.path d).child mark.1.toList).toText ≤ Path.maxBytes) :
    probe plan.world ((s.path d).child mark.1.toList) mark.2.1 =
      if locked then .error .denied else .ok (holds entries mark.2.1 mark.1) := by
  have real := real_found covers isDirectory
  have place : plan.world.disk.find (s.root ++ d) = .ok (.directory entries locked) := by
    rw [Node.find_below covers.found, isDirectory]
  have child : plan.world.disk.find (s.root ++ d ++ [mark.1.toList]) = s.tree.find (d ++ [mark.1.toList]) := by
    rw [List.append_assoc, Node.find_below covers.found]
  have plain : ∀ target, plan.world.disk.find (s.root ++ d ++ [mark.1.toList]) ≠ .ok (.link target) := fun target => by
    rw [child]
    exact covers.tidy.linkless _ target
  have looked := World.stat_child covers.here (World.leadsTo_absolute real) place named plain short
  rw [child] at looked
  unfold probe
  rw [show (s.path d).child mark.1.toList = (Path.absolute (s.root ++ d)).child mark.1.toList from rfl, looked]
  cases locked with
  | true => simp [Node.find_entry_locked isDirectory]
  | false =>
    rw [Node.find_entry isDirectory, holds]
    cases entries.lookup mark.1.toList with
    | none => rfl
    | some node => rfl

variable {root : Path} (fits : s.Fits root)
include fits

/-- A directory is walked through exactly if it may be. -/
theorem nodeErrand_directory (recurse : s.recurse = true) {e : Place} (meets : s.Meets e (.directory entries locked)) :
    (s.isPassable e = true → plan.nodeErrand (s.path e) e (.directory entries locked) = .ok (.descend (s.path e))) ∧
      (s.isPassable e = false →
        ∃ reason, plan.nodeErrand (s.path e) e (.directory entries locked) = .ok (.skip e reason)) := by
  have probed : ∀ mark ∈ marks s.isRepository, probe plan.world ((s.path e).child mark.1.toList) mark.2.1 =
      if locked then .error .denied else .ok (holds entries mark.2.1 mark.1) := fun mark member =>
    probe_mark covers meets.found (isName_of_mark member) (fits.mark recurse e entries locked meets mark member)
  have passable := isPassable_iff meets.found
  simp only [Plan.nodeErrand, covers.recurse_eq, recurse, covers.repository_eq, Bool.not_true, Bool.false_eq_true, ↓reduceIte]
  cases locked with
  | true =>
    have closed : ¬s.isPassable e = true := fun opened => nomatch (passable.mp opened).1
    have first : ∃ mark rest, marks s.isRepository = mark :: rest := by
      cases s.isRepository <;> exact ⟨_, _, rfl⟩
    obtain ⟨mark, rest, split⟩ := first
    rw [split, firstMark_denied (probed mark (by simp [split])) rest]
    exact ⟨fun opened => absurd opened closed, fun _ => ⟨.permissions, rfl⟩⟩
  | false =>
    rw [firstMark_eq probed]
    cases marked : (marks s.isRepository).findSome? fun mark => if holds entries mark.2.1 mark.1 then some mark.2.2 else none with
    | none =>
      have opened : s.isPassable e = true := by
        refine passable.mpr ⟨rfl, fun mark member => ?_⟩
        simpa using List.findSome?_eq_none_iff.mp marked mark member
      exact ⟨fun _ => rfl, fun closed => absurd opened (by simp [closed])⟩
    | some reason =>
      have closed : ¬s.isPassable e = true := by
        intro opened
        obtain ⟨mark, member, present⟩ := List.exists_of_findSome?_eq_some marked
        simp [(passable.mp opened).2 mark member] at present
      exact ⟨fun opened => absurd opened closed, fun _ => ⟨reason, rfl⟩⟩

theorem stat_path {e : Place} {node : Node} (meets : s.Meets e node) : plan.world.stat (s.path e) = .ok node := by
  have real := real_found covers meets.found
  have short : Path.bytes (Path.absolute (s.root ++ e)).toText ≤ Path.maxBytes := fits.entry e node meets
  rw [Project.path, World.stat_absolute covers.here real, if_neg (Nat.not_lt.mpr short), Node.find_below covers.found,
    meets.found]

theorem stat_visited (isDirectory : s.tree.find d = .ok (.directory entries false)) (opened : s.IsOpen d) :
    plan.world.stat (s.visited plan.options.root d) = .ok (.directory entries false) := by
  unfold Project.visited
  split
  · rename_i top
    subst top
    rw [Node.find_nil] at isDirectory
    rw [covers.looked, isDirectory]
  · rename_i below
    refine stat_path covers fits ⟨isDirectory, below, ?_⟩
    rw [← List.dropLast_concat_getLast below] at opened
    exact isOpen_of_append opened

omit fits in
theorem leads_visited (isDirectory : s.tree.find d = .ok (.directory entries false)) {links : Nat}
    (left : d.length + links = plan.world.levels) : ∃ k ≤ links, Node.Leads plan.world.disk k
      (plan.world.start (s.visited plan.options.root d)) (s.visited plan.options.root d).names (s.root ++ d) := by
  unfold Project.visited
  split
  · rename_i top
    subst top
    obtain ⟨k, few, leads⟩ := covers.leads
    have enough := plan.world.roomy
    rw [List.length_nil] at left
    exact ⟨k, by omega, by rwa [List.append_nil]⟩
  · exact ⟨0, Nat.zero_le links, Node.leads_of_real (real_found covers isDirectory)⟩

omit fits in
theorem meets_entry (isDirectory : s.tree.find d = .ok (.directory entries false))
    (opened : s.IsOpen d) {entry : Text × Node} (member : entry ∈ entries) : s.Meets (d ++ [entry.1]) entry.2 := by
  refine ⟨?_, by simp, by rwa [List.dropLast_concat]⟩
  rw [Node.find_entry isDirectory, Node.lookup_of_mem (covers.tidy.distinct d entries false isDirectory) member]
  rfl

omit fits in
theorem leadsTo_visited (isDirectory : s.tree.find d = .ok (.directory entries false)) :
    plan.world.LeadsTo (s.visited plan.options.root d) (s.root ++ d) := by
  unfold Project.visited
  split
  · rename_i top
    subst top
    rw [List.append_nil]
    exact covers.leads
  · exact World.leadsTo_absolute (real_found covers isDirectory)

omit fits in
theorem leads_entry {links : Nat} {node : Node} (isDirectory : s.tree.find d = .ok (.directory entries false))
    (left : d.length + links = plan.world.levels) (met : s.tree.find (d ++ [name]) = .ok node) :
    ∃ k ≤ links, Node.Leads plan.world.disk k (plan.world.start ((s.visited plan.options.root d).child name))
      ((s.visited plan.options.root d).child name).names (s.root ++ (d ++ [name])) := by
  obtain ⟨k, enough, leads⟩ := leads_visited covers isDirectory left
  have found : plan.world.disk.find (s.root ++ d ++ [name]) = .ok node := by
    rw [List.append_assoc, Node.find_below covers.found, met]
  obtain ⟨entries', isDirectory', looked⟩ := Node.find_concat_ok met
  have named := Node.isName_of_lookup covers.tidy isDirectory' looked
  have plain : ∀ target, node ≠ .link target := fun target same => covers.tidy.linkless _ target (same ▸ met)
  have step := Node.leads_append leads (.down (Node.enter_below covers.found isDirectory) named found plain .arrive)
  rw [List.append_assoc] at step
  exact ⟨k, enough, step⟩

/-- What is to be done about an entry is told by what it is. -/
theorem errand_of_entry {links : Nat} {node : Node} (isDirectory : s.tree.find d = .ok (.directory entries false))
    (left : d.length + links = plan.world.levels) (meets : s.Meets (d ++ [name]) node) :
    plan.errand links ((s.visited plan.options.root d).child name) =
      plan.nodeErrand (s.path (d ++ [name])) (d ++ [name]) node := by
  obtain ⟨k, enough, leads⟩ := leads_entry covers isDirectory left meets.found
  exact errand_of_leads covers.here covers.root_eq leads enough (stat_path covers fits meets)

/-- A directory that is walked through is one that may be. -/
theorem open_of_descend {e : Place} {node : Node} {sub : Path} (meets : s.Meets e node)
    (descends : plan.nodeErrand (s.path e) e node = .ok (.descend sub)) :
    sub = s.path e ∧ s.IsOpen e ∧ ∃ entries, node = .directory entries false := by
  cases node with
  | file content locked =>
    rw [Plan.nodeErrand] at descends
    split at descends
    · cases descends
    · split at descends <;> cases descends
  | link target => cases descends
  | pipe => cases descends
  | directory entries locked =>
    cases recurse : s.recurse with
    | false =>
      rw [Plan.nodeErrand, covers.recurse_eq, recurse] at descends
      cases descends
    | true =>
      obtain ⟨passes, skips⟩ := nodeErrand_directory covers fits recurse meets
      cases passable : s.isPassable e with
      | false =>
        obtain ⟨reason, skipped⟩ := skips passable
        rw [skipped] at descends
        cases descends
      | true =>
        rw [passes passable] at descends
        cases descends
        obtain ⟨rfl, _⟩ := (isPassable_iff meets.found).mp passable
        have opened : s.IsOpen (e.dropLast ++ [e.getLast meets.below]) := by
          rw [isOpen_concat, List.dropLast_concat_getLast]
          exact ⟨recurse, meets.opened, passable⟩
        rw [List.dropLast_concat_getLast] at opened
        exact ⟨rfl, opened, entries, rfl⟩

end Errands

end Walk

namespace Run
open Walk (Project)

/-- A run that is to check a project, which is a tree without links. -/
structure Asks (w : World) (options : Options) (s : Project) : Prop where
  walks : options.showVersion = false ∧ options.showLocation = false
  here : Node.Real w.disk w.here
  leads : w.LeadsTo options.root s.root
  found : w.stat options.root = .ok s.tree
  isDirectory : ∃ entries, s.tree = .directory entries false
  tidy : s.tree.Tidy
  recurse_eq : options.recurse = s.recurse
  ignored_eq : w.ignored = s.ignored

variable {w : World} {options : Options} {s : Project}

theorem find_top (asks : Asks w options s) :
    ∃ entries, s.tree = .directory entries false ∧ s.tree.find [] = .ok (.directory entries false) := by
  obtain ⟨entries, isDirectory⟩ := asks.isDirectory
  exact ⟨entries, isDirectory, by rw [Node.find_nil, isDirectory]⟩

theorem place_of_asks (asks : Asks w options s) : w.disk.find s.root = .ok s.tree := by
  rw [← World.stat_of_leadsTo asks.here asks.leads (World.short_of_stat asks.found), asks.found]

theorem probe_git (asks : Asks w options s) (fits : s.Fits options.root) :
    Walk.probe w (options.root.child ".git".toList) (fun _ => true) = .ok s.isRepository := by
  obtain ⟨entries, isDirectory, top⟩ := find_top asks
  have found := place_of_asks asks
  have child : w.disk.find (s.root ++ [".git".toList]) = s.tree.find [".git".toList] := Node.find_below found _
  have plain : ∀ target, w.disk.find (s.root ++ [".git".toList]) ≠ .ok (.link target) := fun target => by
    rw [child]
    exact asks.tidy.linkless _ target
  have looked := World.stat_child asks.here asks.leads (isDirectory ▸ found) (by decide) plain fits.repository
  have entry := Node.find_entry top ".git".toList
  rw [List.nil_append] at entry
  rw [child] at looked
  rw [Walk.probe, looked, Project.isRepository, entry]
  cases entries.lookup ".git".toList with
  | none => rfl
  | some node => rfl

/-- The plan of a run if its root leads to a directory. -/
theorem plan_of_root (walks : options.showVersion = false ∧ options.showLocation = false) (here : Node.Real w.disk w.here)
    (leads : w.LeadsTo options.root s.root) {entries : List (Text × Node)} {locked : Bool}
    (found : w.stat options.root = .ok (.directory entries locked))
    (git : Walk.probe w (options.root.child ".git".toList) (fun _ => true) = .ok s.isRepository) :
    plan? w options = some (s.plan w options) := by
  obtain ⟨k, few, leads⟩ := leads
  have directory : Walk.probe w options.root Walk.isDirectory = .ok true := by
    rw [Walk.probe, found]
    rfl
  have resolved : resolvedRoot w options.root = .ok (.absolute s.root) := by
    rw [resolvedRoot, World.resolve_of_leads here leads (Nat.le_trans few (Nat.le_succ_of_le w.roomy))]
  rw [plan?, walks.1, walks.2, directory, resolved, git]
  rfl

theorem plan_of_asks (asks : Asks w options s) (fits : s.Fits options.root) :
    plan? w options = some (s.plan w options) := by
  obtain ⟨entries, isDirectory, _⟩ := find_top asks
  exact plan_of_root asks.walks asks.here asks.leads (isDirectory ▸ asks.found) (probe_git asks fits)

theorem covers_of_asks (asks : Asks w options s) : (s.plan w options).Covers s where
  here := asks.here
  leads := asks.leads
  looked := asks.found
  found := place_of_asks asks
  tidy := asks.tidy
  root_eq := rfl
  recurse_eq := asks.recurse_eq
  ignored_eq := asks.ignored_eq
  repository_eq := rfl

end Run

end CMakeLint
