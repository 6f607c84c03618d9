import CMakeLint.Proofs.Disk.Trees
import CMakeLint.Proofs.Walk.Course
import CMakeLint.Proofs.Walk.Output
import Mathlib.Data.List.Basic
import Mathlib.Data.List.Nodup

/-!
The ways of a walk through a project with links. A way to an entry is the names of the entries on the way to it, each in the
directory to which the one before leads. A walk reads a script once for each way to it (`reads_of_ways`), so two ways to a
script make it read the script twice. If a directory is below itself, there are ways of any length, and no walk gets through.
-/
namespace CMakeLint

namespace Walk

/-- The entry at the end of some names below a directory is met with what is to be done about it. -/
inductive Way (plan : Plan) : Path → List Text → Errand → Prop
  | entry {directory : Path} {names : List Text} {name : Text} {errand : Errand}
      (listed : list plan.world directory = .ok names) (member : name ∈ names)
      (errand_eq : plan.errand plan.world.levels (directory.child name) = .ok errand) : Way plan directory [name] errand
  | inside {directory sub : Path} {names rest : List Text} {name : Text} {errand : Errand}
      (listed : list plan.world directory = .ok names) (member : name ∈ names)
      (errand_eq : plan.errand plan.world.levels (directory.child name) = .ok (.descend sub)) (later : Way plan sub rest errand) :
      Way plan directory (name :: rest) errand

/-- Some names below a directory lead to a script. -/
def ScriptWay (plan : Plan) (directory : Path) (names : List Text) (script : Path) : Prop :=
  ∃ place content locked, Way plan directory names (.check script place content locked)

/-- Some names below a directory lead to a directory, which may be the same. -/
def Reaches (plan : Plan) (directory : Path) (names : List Text) (sub : Path) : Prop :=
  names = [] ∧ sub = directory ∨ Way plan directory names (.descend sub)

/-- The issues of what is at a path. -/
def issuesAt (w : World) (path : Path) : List Issue :=
  match w.stat path with
  | .ok (.file content locked) => scriptIssues path content locked
  | _ => []

/-- Nothing on the way below a directory makes a walk fail: not too many directories are inside of each other, and each entry
    can be looked at and dealt with. -/
structure Clear (plan : Plan) (root : Path) : Prop where
  bounded : ∀ names sub, Reaches plan root names sub → names.length + Node.maxLinks ≤ plan.world.levels
  sound : ∀ names sub, Reaches plan root names sub → ∃ entries, list plan.world sub = .ok entries ∧
    ∀ name ∈ entries, (∃ node, plan.world.stat (sub.child name) = .ok node) ∧
      Stop.failure? ⟨0, plan.errand plan.world.levels (sub.child name)⟩ = none

theorem issuesAt_of_read {w : World} {path : Path} {content : ByteArray} {locked : Bool} {t : Text} {issues : List Issue}
    (found : w.stat path = .ok (.file content locked)) (text : readText path content locked = .ok t)
    (made : Lint.issues path t = .ok issues) : issuesAt w path = issues := by
  simp [issuesAt, found, scriptIssues, text, made, Except.toOption]

variable {plan : Plan} {directory sub : Path} {names rest : List Text} {errand : Errand}

theorem way_append (first : Way plan directory names (.descend sub)) (second : Way plan sub rest errand) :
    Way plan directory (names ++ rest) errand := by
  generalize descends : Errand.descend sub = e at first
  induction first with
  | entry listed member errand_eq =>
    subst descends
    exact .inside listed member errand_eq second
  | inside listed member errand_eq later ih => exact .inside listed member errand_eq (ih descends)

theorem way_of_reaches (first : Reaches plan directory names sub) (second : Way plan sub rest errand) :
    Way plan directory (names ++ rest) errand := by
  rcases first with ⟨rfl, rfl⟩ | first
  · exact second
  · exact way_append first second

/-! ### Errands with fewer links -/

theorem errand_less {links links' : Nat} (less : links ≤ links') (entry : Path) :
    plan.errand links entry = plan.errand links' entry ∨ plan.errand links entry = .error .tooDeep := by
  rw [Plan.errand, Plan.errand]
  rcases World.resolve_less less entry with same | deep
  · rw [same]
    exact .inl rfl
  · rw [deep]
    exact .inr rfl

/-- What is to be done at a level below the first one does not depend on the links that are left, as long as it is known. -/
theorem errand_levels {links : Nat} (less : links ≤ plan.world.levels) {entry : Path} (known : plan.errand links entry = .ok errand) :
    plan.errand plan.world.levels entry = .ok errand := by
  rcases errand_less less entry with same | deep
  · rw [← same, known]
  · rw [deep] at known
    cases known

/-- Where an entry can be looked at, there are always enough links left. -/
theorem errand_of_stat (here : Node.Real plan.world.disk plan.world.here) {entry : Path} {node : Node}
    (found : plan.world.stat entry = .ok node) {links : Nat} (enough : Node.maxLinks ≤ links) :
    plan.errand links entry = plan.errand plan.world.levels entry := by
  obtain ⟨q, ⟨k, few, leads⟩, _⟩ := World.leadsTo_of_stat here found
  rw [Plan.errand, Plan.errand, World.resolve_of_leads here leads (Nat.le_trans few enough),
    World.resolve_of_leads here leads (Nat.le_trans few plan.world.roomy)]

/-! ### All ways -/

/-- The ways to scripts that start with an entry. -/
def entryWays (name : Text) (inside : Path → List (List Text × Path)) : Except Failure Errand → List (List Text × Path)
  | .ok (.check path _ _ _) => [([name], path)]
  | .ok (.descend path) => (inside path).map fun way => (name :: way.1, way.2)
  | _ => []

/-- All ways to scripts below a directory, with the scripts, as far as a walk of this depth goes. -/
def ways (plan : Plan) : (depth : Nat) → Path → List (List Text × Path)
  | 0, _ => []
  | depth + 1, directory =>
    ((list plan.world directory).toOption.getD []).flatMap fun name =>
      entryWays name (ways plan depth) (plan.errand (depth + 1) (directory.child name))

/-- A walk reads the scripts to which there are ways, in the same order. -/
theorem reads_route (depth level : Nat) (directory : Path) :
    ((route plan depth level directory).toOption.getD []).filterMap Stop.read? = (ways plan depth directory).map (·.2) := by
  induction depth generalizing level directory with
  | zero =>
    rw [route, ways]
    cases list plan.world directory with
    | error f => rfl
    | ok names => simp [bind, Except.bind, pure, Except.pure, Except.toOption, Stop.read?]
  | succ depth ih =>
    rw [route, ways]
    cases list plan.world directory with
    | error f => rfl
    | ok names =>
      simp only [bind, Except.bind, pure, Except.pure, Except.toOption, Option.getD_some, List.filterMap_flatMap,
        List.map_flatMap]
      refine List.flatMap_congr fun name _ => ?_
      cases plan.errand (depth + 1) (directory.child name) with
      | error f => rfl
      | ok errand =>
        cases errand with
        | descend path =>
          have inside := ih (level + 1) path
          simp only [entryStops, entryWays, List.map_map, Function.comp_def]
          rw [← inside]
          cases route plan depth (level + 1) path with
          | error f => rfl
          | ok stops => rfl
        | _ => rfl

theorem head_of_entryWays {name : Text} {inside : Path → List (List Text × Path)} {e : Except Failure Errand}
    {names : List Text} (member : names ∈ (entryWays name inside e).map (·.1)) : ∃ rest, names = name :: rest := by
  obtain ⟨way, taken, rfl⟩ := List.mem_map.mp member
  clear member
  unfold entryWays at taken
  split at taken
  · obtain rfl := List.mem_singleton.mp taken
    exact ⟨[], rfl⟩
  · obtain ⟨later, _, rfl⟩ := List.mem_map.mp taken
    exact ⟨later.1, rfl⟩
  · cases taken

theorem nodup_list {w : World} (here : Node.Real w.disk w.here)
    (distinct : ∀ place entries locked, w.disk.find place = .ok (.directory entries locked) → (entries.map (·.1)).Nodup)
    (listed : list w directory = .ok names) : names.Nodup := by
  unfold list at listed
  split at listed
  · rename_i entries found
    cases listed
    obtain ⟨place, _, found⟩ := World.leadsTo_of_stat here found
    exact distinct place entries false found
  · cases listed
  · cases listed
  · cases listed

/-- No way is taken twice. -/
theorem nodup_ways (distinct : ∀ directory names, list plan.world directory = .ok names → names.Nodup) (depth : Nat)
    (directory : Path) : ((ways plan depth directory).map (·.1)).Nodup := by
  induction depth generalizing directory with
  | zero => exact List.nodup_nil
  | succ depth ih =>
    have names : ((list plan.world directory).toOption.getD []).Nodup := by
      cases listed : list plan.world directory with
      | error f => exact List.nodup_nil
      | ok names => exact distinct directory names listed
    rw [ways, List.map_flatMap, List.nodup_flatMap]
    refine ⟨fun name _ => ?_, names.imp fun {name other} different => ?_⟩
    · unfold entryWays
      split
      · exact List.nodup_singleton _
      · rename_i path _
        have longer : ((ways plan depth path).map fun way => (name :: way.1, way.2)).map (·.1) =
            ((ways plan depth path).map (·.1)).map (name :: ·) := by simp
        rw [longer]
        exact (ih path).map (List.cons_injective)
      · exact List.nodup_nil
    · intro way here there
      obtain ⟨_, rfl⟩ := head_of_entryWays here
      obtain ⟨_, same⟩ := head_of_entryWays there
      exact different (List.cons.inj same).1

/-! ### Routes that can be followed to their ends -/

/-- What is known of a directory if no stop in it fails. -/
theorem entries_of_good {depth level : Nat} {stops : List Stop} (routed : route plan depth level directory = .ok stops)
    (good : ∀ s ∈ stops, s.failure? = none) :
    ∃ entries, list plan.world directory = .ok entries ∧ ∀ name ∈ entries, ∃ d e, depth = d + 1 ∧
      plan.errand (d + 1) (directory.child name) = .ok e ∧
      ∀ sub, e = .descend sub → ∃ inside, route plan d (level + 1) sub = .ok inside ∧ ∀ s ∈ inside, s.failure? = none := by
  cases listed : list plan.world directory with
  | error f =>
    cases depth <;> rw [route, listed] at routed <;> cases routed
  | ok entries =>
    refine ⟨entries, rfl, fun name member => ?_⟩
    cases depth with
    | zero =>
      rw [route, listed] at routed
      cases routed
      cases good _ (List.mem_map_of_mem member)
    | succ d =>
      rw [route, listed] at routed
      cases routed
      have here : ∀ s ∈ entryStops level (route plan d (level + 1)) (plan.errand (d + 1) (directory.child name)),
          s.failure? = none := fun s inside => good s (List.mem_flatMap.mpr ⟨name, member, inside⟩)
      cases known : plan.errand (d + 1) (directory.child name) with
      | error f =>
        rw [known] at here
        cases here _ List.mem_cons_self
      | ok e =>
        refine ⟨d, e, rfl, known, ?_⟩
        rintro sub rfl
        rw [known, entryStops] at here
        cases inside : route plan d (level + 1) sub with
        | error f =>
          rw [inside] at here
          cases here _ List.mem_cons_self
        | ok stops =>
          rw [inside] at here
          exact ⟨stops, rfl, fun s later => here s (List.mem_cons_of_mem _ later)⟩

section Good
variable {depth level : Nat} {stops : List Stop} (enough : depth ≤ plan.world.levels)
  (routed : route plan depth level directory = .ok stops) (good : ∀ s ∈ stops, s.failure? = none)
include enough routed good

/-- What is to be done about an entry is known on the way, and the stops in it do not fail either. -/
theorem errand_of_good {entries : List Text} {name : Text} (listed : list plan.world directory = .ok entries)
    (member : name ∈ entries) (errand_eq : plan.errand plan.world.levels (directory.child name) = .ok errand) :
    ∃ d, depth = d + 1 ∧ plan.errand (d + 1) (directory.child name) = .ok errand ∧
      ∀ sub, errand = .descend sub → ∃ inside, route plan d (level + 1) sub = .ok inside ∧ ∀ s ∈ inside, s.failure? = none := by
  obtain ⟨entries', listed', each⟩ := entries_of_good routed good
  cases listed.symm.trans listed'
  obtain ⟨d, e, rfl, known, inside⟩ := each name member
  rw [errand_levels enough known] at errand_eq
  cases errand_eq
  exact ⟨d, rfl, known, inside⟩

/-- There are no longer ways than the walk is deep. -/
theorem length_le_of_good (way : Way plan directory names errand) : names.length ≤ depth := by
  induction way generalizing depth level stops with
  | entry listed member errand_eq =>
    obtain ⟨d, rfl, _⟩ := errand_of_good enough routed good listed member errand_eq
    exact Nat.le_add_left 1 d
  | inside listed member errand_eq later ih =>
    obtain ⟨d, rfl, _, inside⟩ := errand_of_good enough routed good listed member errand_eq
    obtain ⟨stops', routed', good'⟩ := inside _ rfl
    exact Nat.succ_le_succ (ih (Nat.le_of_succ_le enough) routed' good')

/-- The ways that a walk takes are all ways to scripts. -/
theorem mem_ways (script : Path) : (names, script) ∈ ways plan depth directory ↔ ScriptWay plan directory names script := by
  induction depth generalizing level directory names stops with
  | zero =>
    refine ⟨nofun, ?_⟩
    rintro ⟨_, _, _, way⟩
    have none := length_le_of_good enough routed good way
    cases way <;> cases none
  | succ depth ih =>
    obtain ⟨entries, listed, each⟩ := entries_of_good routed good
    rw [ways, listed, List.mem_flatMap]
    constructor
    · rintro ⟨name, member, way⟩
      obtain ⟨d, e, same, known, inside⟩ := each name member
      cases same
      have known' := errand_levels enough known
      rw [known] at way
      cases e with
      | nothing => cases way
      | skip => cases way
      | check path place content locked =>
        obtain ⟨rfl, rfl⟩ := Prod.mk.inj (List.mem_singleton.mp way)
        exact ⟨place, content, locked, .entry listed member known'⟩
      | descend sub =>
        obtain ⟨⟨rest, _⟩, later, same⟩ := List.mem_map.mp way
        obtain ⟨rfl, rfl⟩ := Prod.mk.inj same
        obtain ⟨stops', routed', good'⟩ := inside sub rfl
        obtain ⟨place, content, locked, later⟩ := (ih (Nat.le_of_succ_le enough) routed' good').mp later
        exact ⟨place, content, locked, .inside listed member known' later⟩
    · rintro ⟨place, content, locked, way⟩
      cases way with
      | @entry _ _ name _ listed' member errand_eq =>
        cases listed.symm.trans listed'
        obtain ⟨d, same, known, _⟩ := errand_of_good enough routed good listed member errand_eq
        cases same
        exact ⟨name, member, by rw [known]; exact List.mem_singleton_self _⟩
      | @inside _ sub _ rest name _ listed' member errand_eq later =>
        cases listed.symm.trans listed'
        obtain ⟨d, same, known, inside⟩ := errand_of_good enough routed good listed member errand_eq
        cases same
        obtain ⟨stops', routed', good'⟩ := inside sub rfl
        refine ⟨name, member, ?_⟩
        rw [known]
        exact List.mem_map.mpr
          ⟨(rest, script), (ih (Nat.le_of_succ_le enough) routed' good').mpr ⟨place, content, locked, later⟩, rfl⟩

end Good

/-! ### Issues on the way -/

/-- What is to be done about an entry if that is known. -/
theorem errand_ok {links : Nat} {entry : Path} (known : plan.errand links entry = .ok errand) :
    ∃ path place, plan.world.resolve links entry = .path path ∧ plan.relative path = .ok place ∧
      (errand = .skip place .permissions ∨
        ∃ node, plan.world.stat path = .ok node ∧ plan.nodeErrand path place node = .ok errand) := by
  rw [Plan.errand] at known
  cases resolved : plan.world.resolve links entry with
  | tooDeep =>
    rw [resolved] at known
    cases known
  | loop path =>
    rw [resolved] at known
    cases known
  | path path =>
    rw [resolved] at known
    cases below : plan.relative path with
    | error f =>
      simp only [below] at known
      cases known
    | ok place =>
      simp only [below, bind, Except.bind] at known
      refine ⟨path, place, rfl, below, ?_⟩
      split at known
      · exact .inl (Except.ok.inj known).symm
      · cases known
      · rename_i node found
        exact .inr ⟨node, found, known⟩

theorem stat_of_check {links : Nat} {entry path : Path} {place : Place} {content : ByteArray} {locked : Bool}
    (known : plan.errand links entry = .ok (.check path place content locked)) :
    plan.world.stat path = .ok (.file content locked) := by
  obtain ⟨path', place', _, _, skipped | ⟨node, found, known⟩⟩ := errand_ok known
  · cases skipped
  · cases node with
    | directory entries locked' =>
      rw [Plan.nodeErrand] at known
      split at known
      · cases known
      · split at known <;> cases known
    | file content' locked' =>
      rw [Plan.nodeErrand] at known
      split at known
      · cases known
      · split at known
        · cases known
        · cases known
          exact found
    | link target => cases known
    | pipe => cases known

theorem mem_entryStops {level : Nat} {inside : Path → Except Failure (List Stop)} {known : Except Failure Errand} {stop : Stop}
    (member : stop ∈ entryStops level inside known) :
    stop.errand = known ∨ (∃ f, stop.errand = .error f) ∨ ∃ path stops, inside path = .ok stops ∧ stop ∈ stops := by
  unfold entryStops at member
  split at member
  · rename_i path
    split at member
    · rename_i stops below
      rcases List.mem_cons.mp member with rfl | later
      · exact .inl rfl
      · exact .inr (.inr ⟨path, stops, below, later⟩)
    · obtain rfl := List.mem_singleton.mp member
      exact .inr (.inl ⟨_, rfl⟩)
  · obtain rfl := List.mem_singleton.mp member
    exact .inl rfl

/-- What is to be done at a stop is to be done about an entry, or it fails. -/
theorem errand_of_route {depth level : Nat} {stops : List Stop} (routed : route plan depth level directory = .ok stops)
    {stop : Stop} (member : stop ∈ stops) :
    (∃ links entry, stop.errand = plan.errand links entry) ∨ ∃ f, stop.errand = .error f := by
  induction depth generalizing level directory stops with
  | zero =>
    rw [route] at routed
    cases listed : list plan.world directory with
    | error f =>
      rw [listed] at routed
      cases routed
    | ok names =>
      rw [listed] at routed
      cases routed
      obtain ⟨_, _, rfl⟩ := List.mem_map.mp member
      exact .inr ⟨_, rfl⟩
  | succ depth ih =>
    rw [route] at routed
    cases listed : list plan.world directory with
    | error f =>
      rw [listed] at routed
      cases routed
    | ok names =>
      rw [listed] at routed
      cases routed
      obtain ⟨name, _, inside⟩ := List.mem_flatMap.mp member
      rcases mem_entryStops inside with same | failed | ⟨path, stops, below, later⟩
      · exact .inl ⟨_, _, same⟩
      · exact .inr failed
      · exact ih below later

/-- The issues at a stop are those of the script that is read there. -/
theorem issues_stop {depth level : Nat} {stops : List Stop} (routed : route plan depth level directory = .ok stops)
    {stop : Stop} (member : stop ∈ stops) : stop.issues = stop.read?.toList.flatMap (issuesAt plan.world) := by
  rcases errand_of_route routed member with ⟨links, entry, same⟩ | ⟨f, failed⟩
  · cases known : plan.errand links entry with
    | error f => simp [Stop.issues, Stop.read?, same, known]
    | ok errand =>
      cases errand with
      | check path place content locked =>
        simp [Stop.issues, Stop.read?, same, known, issuesAt, stat_of_check known]
      | _ => simp [Stop.issues, Stop.read?, same, known]
  · simp [Stop.issues, Stop.read?, failed]

theorem issues_route {depth level : Nat} {stops : List Stop} (routed : route plan depth level directory = .ok stops) :
    stops.flatMap Stop.issues = (stops.filterMap Stop.read?).flatMap (issuesAt plan.world) := by
  rw [List.flatMap_congr fun stop member => issues_stop routed member]
  clear routed
  induction stops with
  | nil => rfl
  | cons stop stops ih =>
    rw [List.flatMap_cons, ih, List.filterMap_cons]
    cases stop.read? with
    | none => rfl
    | some path => simp

/-! ### Walks that end -/

theorem reaches_entry {root : Path} {name : Text} (reached : Reaches plan root names directory) {entries : List Text}
    (listed : list plan.world directory = .ok entries) (member : name ∈ entries)
    (known : plan.errand plan.world.levels (directory.child name) = .ok (.descend sub)) : Reaches plan root (names ++ [name]) sub :=
  .inr (way_of_reaches reached (.entry listed member known))

/-- Where nothing fails, no stop on the route does. -/
theorem good_of_clear (here : Node.Real plan.world.disk plan.world.here) {root : Path} (clear : Clear plan root)
    (depth level : Nat) (reached : Reaches plan root names directory) (left : names.length + depth = plan.world.levels) :
    ∃ stops, route plan depth level directory = .ok stops ∧ ∀ s ∈ stops, s.failure? = none := by
  induction depth generalizing level names directory with
  | zero =>
    have few := clear.bounded names directory reached
    have some : 0 < Node.maxLinks := by decide
    omega
  | succ depth ih =>
    have few := clear.bounded names directory reached
    obtain ⟨entries, listed, each⟩ := clear.sound names directory reached
    refine ⟨_, by rw [route, listed]; rfl, fun s member => ?_⟩
    obtain ⟨name, entry, inside⟩ := List.mem_flatMap.mp member
    obtain ⟨⟨node, found⟩, fine⟩ := each name entry
    rw [errand_of_stat here found (by omega : Node.maxLinks ≤ depth + 1)] at inside
    cases known : plan.errand plan.world.levels (directory.child name) with
    | error f =>
      rw [known] at fine
      cases fine
    | ok errand =>
      rw [known] at inside fine
      cases errand with
      | descend sub =>
        obtain ⟨stops, routed, good⟩ := ih (level + 1) (reaches_entry reached listed entry known)
          (by rw [List.length_append, List.length_singleton]; omega)
        rw [entryStops, routed] at inside
        rcases List.mem_cons.mp inside with rfl | later
        · rfl
        · exact good s later
      | _ =>
        obtain rfl := List.mem_singleton.mp inside
        exact fine

theorem ne_nil_of_way (way : Way plan directory names errand) : names ≠ [] := by
  cases way <;> exact List.cons_ne_nil _ _

/-- Below a directory that is below itself there are ways of any length. -/
theorem exists_longer_way (cycle : Way plan directory names (.descend directory)) (k : Nat) :
    ∃ names', k < names'.length ∧ Way plan directory names' (.descend directory) := by
  have some := List.length_pos_iff.mpr (ne_nil_of_way cycle)
  induction k with
  | zero => exact ⟨names, some, cycle⟩
  | succ k ih =>
    obtain ⟨names', long, way⟩ := ih
    refine ⟨names ++ names', ?_, way_append cycle way⟩
    rw [List.length_append]
    omega

end Walk

namespace Run

variable {w : World} {options : Options} {plan : Walk.Plan} {n : Int}

section Free
variable (planned : plan? w options = some plan) (uninterrupted : w.interruptAt = none) (limit : options.limit = some n)
  (free : n ≤ 0)
include planned uninterrupted limit free

/-- A run through a directory that is below itself ends in a failure. -/
theorem failed_of_cycle {names more : List Text} {directory : Path} (reached : Walk.Reaches plan options.root names directory)
    (cycle : Walk.Way plan directory more (.descend directory)) : ∃ texts f, withOptions w options = ⟨texts, .failure f⟩ := by
  rcases failed_or_walked planned with ⟨_, f, failed, _⟩ | ⟨p, walked⟩
  · exact ⟨_, f, failed⟩
  · obtain ⟨stops, routed, good, _⟩ := good_of_walked planned uninterrupted limit free walked
    obtain ⟨rfl, _, _⟩ := plan_parts planned
    obtain ⟨rounds, long, way⟩ := Walk.exists_longer_way cycle plan.world.levels
    have few := Walk.length_le_of_good (Nat.le_refl _) routed good (Walk.way_of_reaches reached way)
    rw [List.length_append] at few
    omega

/-- The issues that such a run reports are those of the scripts that it reads. -/
theorem reported_of_reads {p : Progress} (walked : walked? w options = some p) :
    p.reported = p.reads.flatMap (Walk.issuesAt w) := by
  obtain ⟨stops, routed, _, reported, read⟩ := good_of_walked planned uninterrupted limit free walked
  obtain ⟨rfl, _, _⟩ := plan_parts planned
  rw [reported, Walk.issues_route routed, read]

/-- Let a run have no limit and not be interrupted. If nothing on the way fails, its walk ends. It reads each script once for
    each way to it, in the order of the ways, and reports and counts the issues of what it reads, so it reads no script twice
    exactly if no two ways lead to the same one. If all that the run has to say can be printed, these are the issues that it
    prints and ends with; else it ends in a failure on the way. If a directory is below itself, the run ends in a failure. -/
theorem reads_of_ways (here : Node.Real w.disk w.here)
    (distinct : ∀ place entries locked, w.disk.find place = .ok (.directory entries locked) → (entries.map (·.1)).Nodup) :
    (Walk.Clear plan options.root → ∃ p, walked? w options = some p) ∧
      (∀ p, walked? w options = some p →
        (∃ ways : List (List Text × Path), (ways.map (·.1)).Nodup ∧
          (∀ names script, (names, script) ∈ ways ↔ Walk.ScriptWay plan options.root names script) ∧
          p.reads = ways.map (·.2)) ∧
        p.reported = p.reads.flatMap (Walk.issuesAt w) ∧
        (∃ before, withOptions w options =
          ⟨before ++ Report.line (Report.totals p.reported.length p.reads.length), .exit p.reported.length⟩) ∧
        (∀ arguments, Options.ofArguments arguments = .ok options →
          Prints w arguments (p.reads.flatMap (Walk.issuesAt w))) ∧
        (p.reads.Nodup ↔ ∀ names names' script, Walk.ScriptWay plan options.root names script →
          Walk.ScriptWay plan options.root names' script → names = names')) ∧
      ∀ names more directory, Walk.Reaches plan options.root names directory →
        Walk.Way plan directory more (.descend directory) → ∃ texts f, withOptions w options = ⟨texts, .failure f⟩ := by
  obtain ⟨rfl, same, _⟩ := plan_parts planned
  refine ⟨fun clear => ?_, fun p walked => ?_, fun names more directory reached cycle =>
    failed_of_cycle planned uninterrupted limit free reached cycle⟩
  · obtain ⟨stops, routed, good⟩ := Walk.good_of_clear here clear plan.world.levels 0 (.inl ⟨rfl, rfl⟩) (Nat.zero_add _)
    obtain ⟨p, walked, _⟩ := walked_of_good planned uninterrupted limit free routed good
    exact ⟨p, walked⟩
  · obtain ⟨stops, routed, good, _, read⟩ := good_of_walked planned uninterrupted limit free walked
    have reported := reported_of_reads planned uninterrupted limit free walked
    have all : ∀ names script, (names, script) ∈ Walk.ways plan plan.world.levels options.root ↔
        Walk.ScriptWay plan options.root names script := fun names script =>
      Walk.mem_ways (Nat.le_refl _) routed good script
    have taken := @Walk.reads_route plan plan.world.levels 0 options.root
    rw [routed] at taken
    have reads : p.reads = (Walk.ways plan plan.world.levels options.root).map (·.2) := read.trans taken
    have once := Walk.nodup_ways (fun _ _ listed => Walk.nodup_list here distinct listed) plan.world.levels options.root
    refine ⟨⟨_, once, all, reads⟩, reported, totals_of_walked walked, fun arguments understood => ?_, ?_⟩
    · rw [← reported]
      exact prints_of_walked understood walked
    · rw [reads, List.nodup_map_iff_inj_on once.of_map]
      constructor
      · intro injective names names' script way way'
        have equal := injective _ ((all names script).mpr way) _ ((all names' script).mpr way') rfl
        exact (Prod.mk.inj equal).1
      · rintro single ⟨names, script⟩ way ⟨names', script'⟩ way' rfl
        rw [single names names' script ((all names script).mp way) ((all names' script).mp way')]

end Free

/-! ### A script with two names -/

/-- A working directory with a script that has an issue, and a link to the script. -/
def linkedScript : World :=
  { twoScripts with
    disk := .directory [("r".toList, .directory [
      ("a.cmake".toList, .file "add_library(x)".toUTF8 false), ("b.cmake".toList, .link "a.cmake".toList)] false)] false }

/-- The script is read and its issue is printed twice, as there are two ways to the script. -/
theorem linked_script_read_twice :
    ∃ plan p, plan? linkedScript plainRun = some plan ∧ walked? linkedScript plainRun = some p ∧
      p.reads = [.absolute ["r".toList, "a.cmake".toList], .absolute ["r".toList, "a.cmake".toList]] ∧
      p.reported.length = 2 ∧ (printedIssues linkedScript []).length = 2 ∧ (run linkedScript []).exit = 2 ∧
      ∃ names names' script, Walk.ScriptWay plan plainRun.root names script ∧ Walk.ScriptWay plan plainRun.root names' script ∧
        names ≠ names' := by
  have walks : (plan? linkedScript plainRun).isSome = true := by decide +kernel
  have counts : (walked? linkedScript plainRun).map (fun p => (p.reads, p.reported.length)) =
      some ([.absolute ["r".toList, "a.cmake".toList], .absolute ["r".toList, "a.cmake".toList]], 2) := by decide +kernel
  obtain ⟨plan, planned⟩ := Option.isSome_iff_exists.mp walks
  obtain ⟨p, walked, counted⟩ := Option.map_eq_some_iff.mp counts
  obtain ⟨reads, reported⟩ := Prod.mk.inj counted
  have here : Node.Real linkedScript.disk ["r".toList] :=
    .child .root rfl (by decide) (rfl : Node.find _ ([] ++ ["r".toList]) = .ok _) nofun
  have distinct : ∀ seen ∈ linkedScript.disk.visible, seen.2.entryNames.Nodup := by decide +kernel
  have understood : Options.ofArguments [] = .ok plainRun := by decide +kernel
  have printable : (Terminal.print false (transcript linkedScript []).texts).isComplete = true := by decide +kernel
  obtain ⟨_, issues, _, said, twice⟩ := (reads_of_ways planned rfl rfl (Int.le_refl 0) here
    fun place entries locked found => distinct (place, _) (Node.mem_visible found)).2.1 p walked
  obtain ⟨printed, exit⟩ := (said [] understood).whole printable
  rw [← issues] at printed exit
  rw [reported] at exit
  refine ⟨plan, p, planned, walked, reads, reported, by rw [printed, List.length_map, reported], exit, ?_⟩
  by_contra single
  have same := twice.mpr fun names names' script way way' => by
    by_contra different
    exact single ⟨names, names', script, way, way', different⟩
  rw [reads] at same
  exact absurd same (by decide)

end Run

end CMakeLint
