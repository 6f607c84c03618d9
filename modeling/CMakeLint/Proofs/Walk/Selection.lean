import CMakeLint.Proofs.Walk.Course
import CMakeLint.Proofs.Walk.Project
import Mathlib.Data.List.Basic
import Mathlib.Data.List.Nodup

/-!
Which files a run reads. In a project without links a walk comes to every file that is meant and reads it, and reads nothing
else (`surveys_route`). So a run reads exactly the files that are meant, in the order of the tree, each of them once
(`selected_read`), as long as there is room for the directories inside of each other and all the run has to say can be printed.
-/
namespace CMakeLint

namespace Walk

variable {s : Project} {d : Place} {name : Text}

/-! ### The route through a project -/

theorem failure?_of_isCheckable {stop : Stop} {path : Path} {place : Place} {content : ByteArray} {locked : Bool}
    (errand : stop.errand = .ok (.check path place content locked)) (checkable : isCheckable path (.file content locked) = true) :
    stop.failure? = none := by
  simp only [Stop.failure?, errand]
  rw [isCheckable] at checkable
  cases text : readText path content locked with
  | error f => simp [text] at checkable
  | ok t =>
    cases checked : Lint.issues path t with
    | error fault => simp [text, checked, Except.isOk, Except.toBool] at checkable
    | ok issues => simp only [checked]

/-- Stops at which exactly those of some files are read that are meant. -/
structure Surveys (s : Project) (stops : List Stop) (files : List Place) : Prop where
  reads_eq : stops.filterMap Stop.read? = (files.filter (s.Selected ·)).map s.path
  /-- No stop fails, unless a file that is meant cannot be read or checked. -/
  sound : ∀ stop ∈ stops, stop.failure? = none ∨ ∃ f content locked,
    stop.errand = .ok (.check (s.path f) f content locked) ∧ s.Selected f ∧ s.tree.find f = .ok (.file content locked)
  distinct : (files.filter (s.Selected ·)).Nodup

/-- Stops at which no script is read survey files of which none is meant. -/
theorem surveys_single {level : Nat} {errand : Errand} (unread : Stop.read? ⟨level, .ok errand⟩ = none) {files : List Place}
    (others : ∀ f ∈ files, ¬s.Selected f) : Surveys s [⟨level, .ok errand⟩] files := by
  have empty : files.filter (s.Selected ·) = [] := by simpa [List.filter_eq_nil_iff] using others
  refine ⟨?_, ?_, ?_⟩
  · rw [empty, List.filterMap_cons, unread]
    rfl
  · intro stop member
    obtain rfl := List.mem_singleton.mp member
    cases errand with
    | check => cases unread
    | _ => exact .inl rfl
  · simp [empty]

theorem surveys_descend {level : Nat} {path : Path} {stops : List Stop} {files : List Place} (inside : Surveys s stops files) :
    Surveys s (⟨level, .ok (.descend path)⟩ :: stops) files where
  reads_eq := inside.reads_eq
  sound stop member := by
    rcases List.mem_cons.mp member with rfl | deeper
    · exact .inl rfl
    · exact inside.sound stop deeper
  distinct := inside.distinct

/-- The entries of a directory are surveyed if each of them is. -/
theorem surveys_flatMap {entries : List (Text × Node)} (names : (entries.map (·.1)).Nodup) {stopsOf : Text × Node → List Stop}
    (each : ∀ entry ∈ entries, Surveys s (stopsOf entry) (entry.2.files.map fun f => d ++ entry.1 :: f)) :
    Surveys s (entries.flatMap stopsOf) ((entries.flatMap fun entry => entry.2.files.map (entry.1 :: ·)).map (d ++ ·)) := by
  have split : ((entries.flatMap fun entry => entry.2.files.map (entry.1 :: ·)).map (d ++ ·)).filter (s.Selected ·) =
      entries.flatMap fun entry => (entry.2.files.map fun f => d ++ entry.1 :: f).filter (s.Selected ·) := by
    rw [List.map_flatMap, List.filter_flatMap]
    simp only [List.map_map]
    rfl
  refine ⟨?_, ?_, ?_⟩
  · rw [split, List.filterMap_flatMap, List.map_flatMap]
    exact List.flatMap_congr fun entry member => (each entry member).reads_eq
  · intro stop member
    obtain ⟨entry, member, inside⟩ := List.mem_flatMap.mp member
    exact (each entry member).sound stop inside
  · rw [split, List.nodup_flatMap]
    refine ⟨fun entry member => (each entry member).distinct, ?_⟩
    refine (List.pairwise_map.mp names).imp fun {entry other} different => ?_
    intro f here there
    obtain ⟨_, _, rfl⟩ := List.mem_map.mp (List.mem_filter.mp here).1
    obtain ⟨_, _, same⟩ := List.mem_map.mp (List.mem_filter.mp there).1
    exact different (List.cons.inj (List.append_cancel_left same)).1.symm

section Routes
variable {plan : Plan} (covers : plan.Covers s) {root : Path} (fits : s.Fits root)
include covers fits

omit fits in
/-- A file is read exactly if it is meant. -/
theorem surveys_file (opened : s.IsOpen d) {content : ByteArray} {locked : Bool}
    (meets : s.Meets (d ++ [name]) (.file content locked)) (level : Nat) (inside : Path → Except Failure (List Stop)) :
    Surveys s (entryStops level inside (plan.nodeErrand (s.path (d ++ [name])) (d ++ [name]) (.file content locked)))
      ((Node.file content locked).files.map (d ++ [name] ++ ·)) := by
  have ignores : plan.ignores (s.path (d ++ [name])) = s.isIgnored (d ++ [name]) := by
    rw [Plan.ignores, covers.repository_eq, covers.ignored_eq]
    rfl
  have single : (Node.file content locked).files.map (d ++ [name] ++ ·) = [d ++ [name]] := by simp [Node.files]
  have selected : s.Selected (d ++ [name]) ↔
      Lint.isScript (s.path (d ++ [name])) = true ∧ s.isIgnored (d ++ [name]) = false := by
    rw [selected_iff, List.dropLast_concat]
    simp [opened]
  rw [single, Plan.nodeErrand, ignores]
  cases script : Lint.isScript (s.path (d ++ [name])) with
  | false => exact surveys_single rfl (by simp [selected, script])
  | true =>
    cases ignored : s.isIgnored (d ++ [name]) with
    | true => exact surveys_single rfl (by simp [selected, ignored])
    | false =>
      have meant : s.Selected (d ++ [name]) := selected.mpr ⟨script, ignored⟩
      refine ⟨?_, ?_, ?_⟩
      · simp [entryStops, Stop.read?, meant]
      · intro stop member
        obtain rfl := List.mem_singleton.mp member
        exact .inr ⟨_, content, locked, rfl, meant, meets.found⟩
      · simp [meant]

/-- A directory is surveyed if it may not be looked into, or what is in it is surveyed. -/
theorem surveys_directory (opened : s.IsOpen d) {entries : List (Text × Node)} {locked : Bool}
    (meets : s.Meets (d ++ [name]) (.directory entries locked)) (level : Nat) {inside : Path → Except Failure (List Stop)}
    (deeper : s.IsOpen (d ++ [name]) → locked = false → ∃ stops, inside (s.path (d ++ [name])) = .ok stops ∧
      Surveys s stops ((Node.directory entries locked).files.map (d ++ [name] ++ ·))) :
    Surveys s (entryStops level inside (plan.nodeErrand (s.path (d ++ [name])) (d ++ [name]) (.directory entries locked)))
      ((Node.directory entries locked).files.map (d ++ [name] ++ ·)) := by
  have closed : ¬s.IsOpen (d ++ [name]) →
      ∀ f ∈ (Node.directory entries locked).files.map (d ++ [name] ++ ·), ¬s.Selected f := by
    intro closed f member selected
    obtain ⟨x, inside, rfl⟩ := List.mem_map.mp member
    exact closed (isOpen_of_selected (Node.ne_nil_of_mem_files inside) selected)
  cases recurse : s.recurse with
  | false =>
    rw [Plan.nodeErrand, covers.recurse_eq, recurse]
    exact surveys_single rfl (closed fun opened => by simp [isOpen_concat, recurse] at opened)
  | true =>
    obtain ⟨descends, skips⟩ := nodeErrand_directory covers fits recurse meets
    cases passable : s.isPassable (d ++ [name]) with
    | false =>
      obtain ⟨reason, skipped⟩ := skips passable
      rw [skipped]
      exact surveys_single rfl (closed fun opened => by simp [isOpen_concat, passable] at opened)
    | true =>
      have unlocked := ((isPassable_iff meets.found).mp passable).1
      obtain ⟨stops, listed, surveys⟩ := deeper (isOpen_concat.mpr ⟨recurse, opened, passable⟩) unlocked
      rw [descends passable, entryStops, listed]
      exact surveys_descend surveys

/-- One entry is surveyed if what is in it is, where it is a directory that may be looked into. -/
theorem surveys_entry (opened : s.IsOpen d) {node : Node} (meets : s.Meets (d ++ [name]) node) (level : Nat)
    {inside : Path → Except Failure (List Stop)}
    (deeper : s.IsOpen (d ++ [name]) → ∀ entries, node = .directory entries false →
      ∃ stops, inside (s.path (d ++ [name])) = .ok stops ∧ Surveys s stops (node.files.map (d ++ [name] ++ ·))) :
    Surveys s (entryStops level inside (plan.nodeErrand (s.path (d ++ [name])) (d ++ [name]) node))
      (node.files.map (d ++ [name] ++ ·)) := by
  cases node with
  | pipe => exact surveys_single rfl (by simp [Node.files])
  | link target => exact absurd meets.found (covers.tidy.linkless _ target)
  | file content locked => exact surveys_file covers opened meets level inside
  | directory entries locked =>
    refine surveys_directory covers fits opened meets level fun opened' unlocked => ?_
    exact deeper opened' entries (by rw [unlocked])

/-- The route through an open directory surveys the files in it. The depth that is left goes down as the places get longer, so
    it is used up where nothing is in reach anymore. -/
theorem surveys_route (shallow : s.Shallow plan.world.levels) (depth level : Nat) {entries : List (Text × Node)}
    (isDirectory : s.tree.find d = .ok (.directory entries false)) (opened : s.IsOpen d) (left : d.length + depth = plan.world.levels) :
    ∃ stops, route plan depth level (s.visited plan.options.root d) = .ok stops ∧
      Surveys s stops ((Node.directory entries false).files.map (d ++ ·)) := by
  have looked := stat_visited covers fits isDirectory opened
  induction depth generalizing level d entries with
  | zero =>
    have none : entries = [] := by
      refine List.eq_nil_iff_forall_not_mem.mpr fun entry member => ?_
      have few := shallow _ _ (meets_entry covers isDirectory opened member)
      rw [List.length_append, List.length_singleton] at few
      omega
    subst none
    refine ⟨[], by rw [route, list, looked]; rfl, ?_⟩
    exact ⟨rfl, by simp, by simp [Node.files_directory]⟩
  | succ depth ih =>
    refine ⟨entries.flatMap fun entry => entryStops level (route plan depth (level + 1))
      (plan.errand (depth + 1) ((s.visited plan.options.root d).child entry.1)), ?_, ?_⟩
    · rw [route, list, looked]
      exact congrArg Except.ok (List.flatMap_map ..)
    · rw [Node.files_directory]
      refine surveys_flatMap (covers.tidy.distinct d entries false isDirectory) fun entry member => ?_
      have meets := meets_entry covers isDirectory opened member
      rw [errand_of_entry covers fits isDirectory left meets]
      have below : (fun f => d ++ entry.1 :: f) = (d ++ [entry.1] ++ ·) := by simp
      rw [below]
      refine surveys_entry covers fits opened meets level fun opened' entries' same => ?_
      rw [same] at meets ⊢
      have deeper : (d ++ [entry.1]).length + depth = plan.world.levels := by
        rw [List.length_append, List.length_singleton]
        omega
      have inside := ih (level + 1) meets.found opened' deeper (stat_visited covers fits meets.found opened')
      rwa [visited_concat] at inside

end Routes

end Walk

namespace Run
open Walk (Project)

variable {w : World} {options : Options} {s : Project}

/-- A run reads exactly the files that are meant, in the order of the tree, each of them once, and counts them, as long as there is
    room for the directories inside of each other and all that the run has to say can be printed. -/
theorem selected_read {arguments : List Text} {n : Int} (understood : Options.ofArguments arguments = .ok options)
    (asks : Asks w options s) (fits : s.Fits options.root) (shallow : s.Shallow w.levels) (readable : s.Readable)
    (uninterrupted : w.interruptAt = none) (limit : options.limit = some n) (free : n ≤ 0)
    (printable : (Terminal.print w.terminal (transcript w arguments).texts).isComplete = true) :
    ∃ p earlier, walked? w options = some p ∧ p.reads = s.selected.map s.path ∧ p.reads.Nodup ∧
      (run w arguments).stdout.lines = earlier ++ [Report.totals p.reported.length s.selected.length, []] ∧
      (run w arguments).exit = p.reported.length := by
  have planned := plan_of_asks asks fits
  have covers := covers_of_asks asks
  obtain ⟨entries, isDirectory, top⟩ := find_top asks
  obtain ⟨stops, listed, surveys⟩ :=
    Walk.surveys_route covers fits shallow w.levels 0 top Walk.isOpen_nil (Nat.zero_add _)
  rw [← isDirectory] at surveys
  simp only [List.nil_append, List.map_id'] at surveys
  have good : ∀ stop ∈ stops, stop.failure? = none := by
    intro stop member
    rcases surveys.sound stop member with fine | ⟨f, content, locked, errand, selected, found⟩
    · exact fine
    · exact Walk.failure?_of_isCheckable errand (readable f _ selected found)
  obtain ⟨p, walked, _, reads⟩ := walked_of_good planned uninterrupted limit free listed good
  obtain ⟨_, earlier, _, _, lines, exit⟩ := printed_of_walked understood walked printable
  have reads : p.reads = s.selected.map s.path := reads.trans surveys.reads_eq
  rw [reads, List.length_map] at lines
  refine ⟨p, earlier, walked, reads, ?_, lines, exit⟩
  rw [reads]
  refine surveys.distinct.map fun f g same => ?_
  exact List.append_cancel_left (congrArg Path.names same)

/-! ### A project with all kinds of directories -/

/-- A world with a project in its working directory. -/
def worldOf (tree : Node) (ignored : Option (List Place)) : World :=
  { twoScripts with disk := .directory [("r".toList, tree)] false, ignored := ignored }

/-- The project in the working directory of such a world. -/
def projectOf (tree : Node) (ignored : Option (List Place)) : Project :=
  ⟨["r".toList], tree, true, ignored⟩

theorem asks_plainRun {tree : Node} (isDirectory : ∃ entries, tree = .directory entries false) (tidy : tree.Tidy)
    (ignored : Option (List Place)) : Asks (worldOf tree ignored) plainRun (projectOf tree ignored) := by
  obtain ⟨entries, rfl⟩ := isDirectory
  have here : Node.Real (worldOf (.directory entries false) ignored).disk ["r".toList] :=
    .child .root rfl (by decide) (rfl : Node.find _ ([] ++ ["r".toList]) = .ok (.directory entries false)) nofun
  have leads : (worldOf (.directory entries false) ignored).LeadsTo plainRun.root ["r".toList] :=
    ⟨0, Nat.zero_le _, .arrive⟩
  exact ⟨⟨rfl, rfl⟩, here, leads, World.stat_of_leadsTo here leads (by decide), ⟨entries, rfl⟩, tidy, rfl, rfl⟩

/-- A repository with a script that is ignored, a build folder, a locked directory and a submodule. -/
def repository : Node :=
  .directory [
    (".git".toList, .directory [] false),
    ("CMakeLists.TXT".toList, .file .empty false),
    ("build".toList, .directory [("CMakeCache.txt".toList, .file .empty false), ("a.cmake".toList, .file .empty false)] false),
    ("locked".toList, .directory [("b.cmake".toList, .file .empty false)] true),
    ("old.cmake".toList, .file .empty false),
    ("part".toList, .directory [("x.CMake".toList, .file "add_library(x)".toUTF8 false)] false),
    ("submodule".toList, .directory [(".git".toList, .file .empty false), ("c.cmake".toList, .file .empty false)] false)] false

/-- What git ignores in the repository. -/
def ignoredScript : Option (List Place) :=
  some [["r".toList, "old.cmake".toList]]

theorem selected_read_in_repository :
    ∃ p earlier, walked? (worldOf repository ignoredScript) plainRun = some p ∧
      p.reads = [.absolute ["r".toList, "CMakeLists.TXT".toList], .absolute ["r".toList, "part".toList, "x.CMake".toList]] ∧
      (run (worldOf repository ignoredScript) []).stdout.lines = earlier ++ [Report.totals p.reported.length 2, []] := by
  have asks : Asks (worldOf repository ignoredScript) plainRun (projectOf repository ignoredScript) :=
    asks_plainRun ⟨_, rfl⟩ (Node.tidy_of_visible (by decide +kernel)) ignoredScript
  have understood : Options.ofArguments [] = .ok plainRun := by decide +kernel
  have printable : (Terminal.print false (transcript (worldOf repository ignoredScript) []).texts).isComplete = true := by
    decide +kernel
  obtain ⟨p, earlier, walked, reads, _, lines, _⟩ :=
    selected_read understood asks (Project.fits_of_visible (by decide +kernel) (by decide +kernel) (by decide +kernel))
      (Project.shallow_of_visible (by decide +kernel)) (Project.readable_of_visible (by decide +kernel)) rfl rfl
      (Int.le_refl 0) printable
  have selected : (projectOf repository ignoredScript).selected =
      [["CMakeLists.TXT".toList], ["part".toList, "x.CMake".toList]] := by decide +kernel
  have two : (projectOf repository ignoredScript).selected.length = 2 := by
    rw [selected]
    rfl
  rw [two] at lines
  rw [selected] at reads
  exact ⟨p, earlier, walked, reads, lines⟩

/-- Two scripts, the first of which has an issue with a command in its context that sets the title of the window. -/
def titled : Node :=
  .directory [
    ("a.cmake".toList, .file "add_library(x \x1b]2;t\x07)".toUTF8 false),
    ("b.cmake".toList, .file .empty false)] false

/-- Both scripts are meant and in reach, but the run ends in a failure when it prints the issue. -/
theorem title_not_printed :
    Asks (worldOf titled none) plainRun (projectOf titled none) ∧ (projectOf titled none).Fits plainRun.root ∧
      (projectOf titled none).Shallow (worldOf titled none).levels ∧ (projectOf titled none).Readable ∧
      (projectOf titled none).selected = [["a.cmake".toList], ["b.cmake".toList]] ∧
      Options.ofArguments [] = .ok plainRun ∧
      ∃ stdout, run (worldOf titled none) [] = .failed false stdout .titleRefused := by
  refine ⟨asks_plainRun ⟨_, rfl⟩ (Node.tidy_of_visible (by decide +kernel)) none,
    Project.fits_of_visible (by decide +kernel) (by decide +kernel) (by decide +kernel),
    Project.shallow_of_visible (by decide +kernel), Project.readable_of_visible (by decide +kernel), by decide +kernel,
    by decide +kernel, (Terminal.print false (transcript (worldOf titled none) []).texts).text, ?_⟩
  have refused : (Terminal.print false (transcript (worldOf titled none) []).texts).isComplete = false := by decide +kernel
  have terminal : (worldOf titled none).terminal = false := rfl
  rw [run, Outcome.ofTranscript, terminal]
  simp only [refused, Bool.not_false, ↓reduceIte]

end Run

end CMakeLint
