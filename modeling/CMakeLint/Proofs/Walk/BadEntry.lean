import CMakeLint.Proofs.Walk.Alike
import CMakeLint.Proofs.Walk.Selection
import CMakeLint.Proofs.Walk.Ways
import Mathlib.Data.List.Basic

/-!
Projects with one entry that cannot be read or followed. Without the entry, the route of a walk is the same but for the stop at
the entry (`route_same`, `route_split`). So a run that comes to the entry ends in a failure there, and one that does not come to
it is the same as without it (`run_with_bad_entry`).
-/
namespace CMakeLint

/-- A world in which an entry is taken out. -/
def World.without (w : World) (place : Place) : World :=
  { w with disk := w.disk.without place }

namespace Walk
open Run (Asks)

/-- An entry that cannot be read or followed: a link that leaves the root, a link to something that cannot be looked at, or a
    script that is locked. -/
inductive Spoils (plan : Plan) (entry : Path) : Prop
  | outside {path : Path} (resolved : plan.world.resolve plan.world.levels entry = .path path) (left : plan.root.below? path = none)
  | dangling {path : Path} {obstacle : Obstacle} (resolved : plan.world.resolve plan.world.levels entry = .path path)
      (missing : plan.world.stat path = .error obstacle) (other : obstacle ≠ .denied)
  | unreadable {path : Path} {place : Place} {content : ByteArray}
      (known : plan.errand plan.world.levels entry = .ok (.check path place content true))

/-! ### The stop at a bad entry -/

section Stops
variable {plan : Plan} {entry : Path}

theorem failure_of_spoils (spoils : Spoils plan entry) (level : Nat) :
    ∃ f, Stop.failure? ⟨level, plan.errand plan.world.levels entry⟩ = some f := by
  cases spoils with
  | @outside path resolved left =>
    have failed : plan.errand plan.world.levels entry = .error (.outside path plan.root) := by
      simp only [Plan.errand, resolved, Plan.relative, left]
      rfl
    exact ⟨_, by rw [Stop.failure?, failed]⟩
  | @dangling path obstacle resolved missing other =>
    cases below : plan.relative path with
    | error f =>
      have failed : plan.errand plan.world.levels entry = .error f := by
        simp only [Plan.errand, resolved, below]
        rfl
      exact ⟨f, by rw [Stop.failure?, failed]⟩
    | ok place =>
      have failed : plan.errand plan.world.levels entry = .error (.blocked obstacle path) := by
        simp only [Plan.errand, resolved, below, missing]
        cases obstacle with
        | denied => exact absurd rfl other
        | _ => rfl
      exact ⟨_, by rw [Stop.failure?, failed]⟩
  | @unreadable path place content known =>
    refine ⟨.blocked .denied path, ?_⟩
    rw [Stop.failure?, known]
    rfl

/-- With fewer links left, a bad entry is bad as well. -/
theorem failure_of_less (spoils : Spoils plan entry) {links : Nat} (less : links ≤ plan.world.levels) (level : Nat) :
    ∃ f, Stop.failure? ⟨level, plan.errand links entry⟩ = some f := by
  rcases errand_less less entry with same | deep
  · rw [same]
    exact failure_of_spoils spoils level
  · rw [deep]
    exact ⟨.tooDeep, rfl⟩

theorem entryStops_of_failure {level : Nat} {known : Except Failure Errand} {f : Failure}
    (failed : Stop.failure? ⟨level, known⟩ = some f) (inside : Path → Except Failure (List Stop)) :
    entryStops level inside known = [⟨level, known⟩] := by
  cases known with
  | error f => rfl
  | ok errand =>
    cases errand with
    | descend path => cases failed
    | _ => rfl

theorem entryStops_congr {level : Nat} {inside inside' : Path → Except Failure (List Stop)} {known : Except Failure Errand}
    (same : ∀ path, known = .ok (.descend path) → inside path = inside' path) :
    entryStops level inside known = entryStops level inside' known := by
  cases known with
  | error f => rfl
  | ok errand =>
    cases errand with
    | descend path => rw [entryStops, entryStops, same path rfl]
    | _ => rfl

end Stops

/-! ### Errands with and without the entry -/

section Errands
variable {w : World} {options : Options} {s : Project} {d x : Place} {last name : Text}

theorem leadsTo_kept {p : Path} {q : Place} (leads : (w.without (s.root ++ d ++ [last])).LeadsTo p q) : w.LeadsTo p q := by
  obtain ⟨k, few, leads⟩ := leads
  exact ⟨k, few, Node.leads_of_without leads⟩

variable (asks : Asks (w.without (s.root ++ d ++ [last])) options s)
include asks

theorem here_kept : Node.Real w.disk w.here :=
  Node.real_of_without asks.here

theorem find_kept {node : Node} (found : s.tree.find x = .ok node) :
    (w.disk.without (s.root ++ d ++ [last])).find (s.root ++ x) = .ok node := by
  have below := Node.find_below (Run.place_of_asks asks) x
  rw [found] at below
  exact below

/-- What is found in the project is neither the entry nor below it. -/
theorem not_removed {node : Node} (found : s.tree.find x = .ok node) : ¬s.root ++ d ++ [last] <+: s.root ++ x := by
  intro removed
  obtain ⟨obstacle, missing⟩ := @Node.find_removed w.disk _ _ _ removed
  rw [find_kept asks found] at missing
  cases missing

/-- Marks are seen or not seen with the entry as without it, unless the entry has the name of a mark. -/
theorem probe_kept {p : Path} (leads : (w.without (s.root ++ d ++ [last])).LeadsTo p (s.root ++ x))
    {entries' : List (Text × Node)} {locked : Bool} (isDirectory : s.tree.find x = .ok (.directory entries' locked))
    {mark : String × (Node → Bool) × Skip} (member : mark ∈ marks true) (other : mark.1.toList ≠ last)
    (short : Path.bytes (p.child mark.1.toList).toText ≤ Path.maxBytes) :
    probe w (p.child mark.1.toList) mark.2.1 =
      probe (w.without (s.root ++ d ++ [last])) (p.child mark.1.toList) mark.2.1 := by
  have named := isName_of_mark member
  have place' := find_kept asks isDirectory
  obtain ⟨entries, place, _⟩ := Node.find_directory_of_without place'
  have kept : ¬s.root ++ d ++ [last] <+: s.root ++ x ++ [mark.1.toList] := by
    rw [List.prefix_concat_iff]
    rintro (same | removed)
    · exact other (List.cons.inj (List.append_inj' same rfl).2).1.symm
    · exact not_removed asks isDirectory removed
  have corresponds := Node.corresponds_imp (fun _ _ left => left.alike) (@Node.find_without w.disk _ _ _ kept)
  have plain' : ∀ target,
      (w.disk.without (s.root ++ d ++ [last])).find (s.root ++ x ++ [mark.1.toList]) ≠ .ok (.link target) := by
    intro target found
    rw [List.append_assoc s.root x] at found
    have below := Node.find_below (Run.place_of_asks asks) (x ++ [mark.1.toList])
    exact asks.tidy.linkless _ target (below.symm.trans found)
  have plain := Node.plain_of_corresponds corresponds plain'
  exact probe_alike (World.stat_child (here_kept asks) (leadsTo_kept leads) place named plain short)
    (World.stat_child asks.here leads place' named plain' short) corresponds member

variable (fits : s.Fits options.root) (unmarked : ∀ mark ∈ marks true, mark.1.toList ≠ last)
include fits

theorem stat_kept {node' : Node} (meets : s.Meets x node') : ∃ node, w.stat (s.path x) = .ok node ∧ Node.Alike node node' := by
  have real := Node.real_of_without (real_found (Run.covers_of_asks asks) meets.found)
  obtain ⟨node, found, left⟩ := Node.find_of_without (find_kept asks meets.found)
  have short : Path.bytes (Path.absolute (s.root ++ x)).toText ≤ Path.maxBytes := fits.entry x node' meets
  refine ⟨node, ?_, left.alike⟩
  rw [Project.path, World.stat_absolute (here_kept asks) real, if_neg (Nat.not_lt.mpr short), found]

include unmarked

theorem nodeErrand_kept {node node' : Node} (meets : s.Meets x node') (alike : Node.Alike node node') :
    (s.plan w options).nodeErrand (s.path x) x node =
      (s.plan (w.without (s.root ++ d ++ [last])) options).nodeErrand (s.path x) x node' := by
  have directory : ∀ entries entries' locked, s.Meets x (.directory entries' locked) →
      (s.plan w options).nodeErrand (s.path x) x (.directory entries locked) =
        (s.plan (w.without (s.root ++ d ++ [last])) options).nodeErrand (s.path x) x (.directory entries' locked) := by
    intro entries entries' locked meets
    rw [Plan.nodeErrand, Plan.nodeErrand]
    cases recurse : options.recurse with
    | false => simp [Project.plan, recurse]
    | true =>
      have real := real_found (Run.covers_of_asks asks) meets.found
      have same : firstMark w (s.path x) (marks s.isRepository) =
          firstMark (w.without (s.root ++ d ++ [last])) (s.path x) (marks s.isRepository) :=
        firstMark_congr fun mark member => probe_kept asks (World.leadsTo_absolute real) meets.found (mem_marks member)
          (unmarked mark (mem_marks member))
          (fits.mark (asks.recurse_eq ▸ recurse) x entries' locked meets mark member)
      simp only [Project.plan, recurse, same]
  cases alike with
  | directory entries entries' locked => exact directory entries entries' locked meets
  | same =>
    cases node with
    | directory entries locked => exact directory entries entries locked meets
    | _ => rfl

/-- What is to be done about another entry is the same with the bad one as without it. -/
theorem errand_kept {entries' : List (Text × Node)} {links : Nat} {node' : Node}
    (isDirectory : s.tree.find x = .ok (.directory entries' false)) (left : x.length + links = w.levels)
    (meets : s.Meets (x ++ [name]) node') :
    (s.plan w options).errand links ((s.visited options.root x).child name) =
      (s.plan (w.without (s.root ++ d ++ [last])) options).errand links ((s.visited options.root x).child name) := by
  have covers := Run.covers_of_asks asks
  obtain ⟨k, enough, leads⟩ := leads_entry covers isDirectory left meets.found
  obtain ⟨node, found, alike⟩ := stat_kept asks fits meets
  have kept : (s.plan w options).errand links ((s.visited options.root x).child name) =
      (s.plan w options).nodeErrand (s.path (x ++ [name])) (x ++ [name]) node :=
    errand_of_leads (here_kept asks) rfl (Node.leads_of_without leads) enough found
  rw [kept, nodeErrand_kept asks fits unmarked meets alike]
  exact (errand_of_entry covers fits isDirectory left meets).symm

end Errands

/-! ### Routes with and without the entry -/

/-- The stops of the entry of a name in a directory. -/
def stopsAt (plan : Plan) (depth level : Nat) (directory : Path) (name : Text) : List Stop :=
  entryStops level (route plan depth (level + 1)) (plan.errand (depth + 1) (directory.child name))

theorem route_zero (plan : Plan) {directory : Path} {names : List Text} (listed : list plan.world directory = .ok names)
    (level : Nat) : route plan 0 level directory = .ok (names.map fun _ => ⟨level, .error .tooDeep⟩) := by
  rw [route, listed]
  rfl

theorem route_succ (plan : Plan) {directory : Path} {names : List Text} (listed : list plan.world directory = .ok names)
    (depth level : Nat) :
    route plan (depth + 1) level directory = .ok (names.flatMap (stopsAt plan depth level directory)) := by
  rw [route, listed]
  rfl

/-- A route with a stop that fails, and the same route without that stop, unless it is left as it is. -/
def Spoilt (stops stops' : List Stop) : Prop :=
  ∃ before bad after f, stops = before ++ bad :: after ∧ Stop.failure? bad = some f ∧
    (stops' = before ++ after ∨ stops' = stops)

theorem spoilt_append {stops stops' : List Stop} (spoilt : Spoilt stops stops') (l r : List Stop) :
    Spoilt (l ++ (stops ++ r)) (l ++ (stops' ++ r)) := by
  obtain ⟨before, bad, after, f, rfl, failed, same⟩ := spoilt
  refine ⟨l ++ before, bad, after ++ r, f, by simp, failed, ?_⟩
  rcases same with rfl | rfl
  · exact .inl (by simp)
  · exact .inr rfl

theorem find_of_isOpen {s : Project} {x rest : Place} {name : Text} (opened : s.IsOpen (x ++ name :: rest)) :
    ∃ entries, s.tree.find (x ++ [name]) = .ok (.directory entries false) := by
  rw [List.append_cons] at opened
  have passable := (isOpen_concat.mp (isOpen_of_append opened)).2.2
  unfold Project.isPassable at passable
  split at passable
  · exact ⟨_, by assumption⟩
  · cases passable

section Routes
variable {w : World} {options : Options} {s : Project} {d x : Place} {last name : Text}
  (asks : Asks (w.without (s.root ++ d ++ [last])) options s) (fits : s.Fits options.root)
  (unmarked : ∀ mark ∈ marks true, mark.1.toList ≠ last) {entries' : List (Text × Node)}
include asks fits

theorem list_without (isDirectory : s.tree.find x = .ok (.directory entries' false)) (opened : s.IsOpen x) :
    list (w.without (s.root ++ d ++ [last])) (s.visited options.root x) = .ok (entries'.map (·.1)) := by
  have looked : (w.without (s.root ++ d ++ [last])).stat (s.visited options.root x) = .ok (.directory entries' false) :=
    stat_visited (Run.covers_of_asks asks) fits isDirectory opened
  rw [list, looked]

theorem stat_visited_kept (isDirectory : s.tree.find x = .ok (.directory entries' false)) (opened : s.IsOpen x) :
    ∃ entries, w.stat (s.visited options.root x) = .ok (.directory entries false) ∧
      w.disk.find (s.root ++ x) = .ok (.directory entries false) ∧
      entries'.map (·.1) = if x = d then (entries.map (·.1)).filter (· ≠ last) else entries.map (·.1) := by
  have covers := Run.covers_of_asks asks
  have short := World.short_of_stat (stat_visited covers fits isDirectory opened)
  have leads := leadsTo_kept (leadsTo_visited covers isDirectory)
  obtain ⟨entries, found, names⟩ := Node.find_directory_of_without (find_kept asks isDirectory)
  refine ⟨entries, ?_, found, ?_⟩
  · rw [← found]
    exact World.stat_of_leadsTo (here_kept asks) leads short
  · simpa using names

theorem list_apart (isDirectory : s.tree.find x = .ok (.directory entries' false)) (opened : s.IsOpen x) (other : x ≠ d) :
    list w (s.visited options.root x) = .ok (entries'.map (·.1)) := by
  obtain ⟨entries, looked, _, names⟩ := stat_visited_kept asks fits isDirectory opened
  rw [if_neg other] at names
  rw [list, looked, names]

/-- The directory of the entry has one name more with it. -/
theorem list_split (isDirectory : s.tree.find d = .ok (.directory entries' false)) (opened : s.IsOpen d)
    (distinct : ∀ entries locked, w.disk.find (s.root ++ d) = .ok (.directory entries locked) → (entries.map (·.1)).Nodup)
    (present : ∃ node, w.disk.find (s.root ++ d ++ [last]) = .ok node) :
    ∃ before after, list w (s.visited options.root d) = .ok (before ++ last :: after) ∧
      entries'.map (·.1) = before ++ after := by
  obtain ⟨entries, looked, found, names⟩ := stat_visited_kept asks fits isDirectory opened
  obtain ⟨node, present⟩ := present
  obtain ⟨before, after, split⟩ := List.append_of_mem (Node.mem_of_find found present)
  refine ⟨before, after, by simp only [list, looked, split], ?_⟩
  have once := distinct entries false found
  rw [split, List.nodup_append, List.nodup_cons] at once
  obtain ⟨_, ⟨notAfter, _⟩, apart⟩ := once
  have notBefore : last ∉ before := fun member => apart last member last List.mem_cons_self rfl
  have keeps : ∀ l : List Text, last ∉ l → l.filter (· ≠ last) = l := by
    intro l missing
    rw [List.filter_eq_self]
    intro name member
    simpa using fun same : name = last => missing (same ▸ member)
  rw [names, if_pos rfl, split, List.filter_append, List.filter_cons_of_neg (by simp), keeps before notBefore,
    keeps after notAfter]

/-- A directory on the way to the entry holds one name that leads there. -/
theorem list_toward (isDirectory : s.tree.find x = .ok (.directory entries' false)) (within : x <+: d) (opened : s.IsOpen d)
    (distinct : ∀ entries locked, w.disk.find (s.root ++ d) = .ok (.directory entries locked) → (entries.map (·.1)).Nodup)
    (present : ∃ node, w.disk.find (s.root ++ d ++ [last]) = .ok node) :
    ∃ before name after names', list w (s.visited options.root x) = .ok (before ++ name :: after) ∧
      list (w.without (s.root ++ d ++ [last])) (s.visited options.root x) = .ok names' ∧
      (x = d ∧ name = last ∧ names' = before ++ after ∨ (∃ rest, d = x ++ name :: rest) ∧ names' = before ++ name :: after) ∧
      ∀ other ∈ before ++ after, (∃ node, s.Meets (x ++ [other]) node) ∧ ¬x ++ [other] <+: d := by
  obtain ⟨rest, rfl⟩ := within
  have opened' := isOpen_of_append opened
  have listed' := list_without asks fits isDirectory opened'
  have meets : ∀ other ∈ entries'.map (·.1), ∃ node, s.Meets (x ++ [other]) node := by
    intro other named
    obtain ⟨entry, member, rfl⟩ := List.mem_map.mp named
    exact ⟨entry.2, meets_entry (Run.covers_of_asks asks) isDirectory opened' member⟩
  cases rest with
  | nil =>
    rw [List.append_nil] at asks opened distinct present listed' ⊢
    obtain ⟨before, after, listed, names⟩ := list_split asks fits isDirectory opened distinct present
    rw [names] at listed' meets
    refine ⟨before, last, after, _, listed, listed', .inl ⟨rfl, rfl, rfl⟩, fun other member => ⟨meets other member, ?_⟩⟩
    exact fun longer => absurd longer.length_le (by simp)
  | cons name rest =>
    have listed := list_apart asks fits isDirectory opened' (by simp)
    obtain ⟨node, found⟩ := find_of_isOpen opened
    obtain ⟨before, after, names⟩ := List.append_of_mem (Node.mem_of_find isDirectory found)
    have once := asks.tidy.distinct x entries' false isDirectory
    rw [names] at once listed listed' meets
    refine ⟨before, name, after, _, listed, listed', .inr ⟨⟨rest, rfl⟩, rfl⟩, fun other member => ⟨meets other ?_, ?_⟩⟩
    · simp only [List.mem_append, List.mem_cons] at member ⊢
      exact member.imp_right .inr
    · intro toward
      obtain ⟨_, same⟩ := (List.prefix_append_right_inj x).mp toward
      obtain rfl := (List.cons.inj same).1
      exact (List.nodup_middle.mp once).notMem member

include unmarked

/-- The stops of another entry are the same, if those in it are. -/
theorem stopsAt_kept {depth level : Nat} {node' : Node} (isDirectory : s.tree.find x = .ok (.directory entries' false))
    (left : x.length + (depth + 1) = w.levels) (meets : s.Meets (x ++ [name]) node')
    (inside : ∀ entries, s.tree.find (x ++ [name]) = .ok (.directory entries false) → s.IsOpen (x ++ [name]) →
      route (s.plan w options) depth (level + 1) (s.visited options.root (x ++ [name])) =
        route (s.plan (w.without (s.root ++ d ++ [last])) options) depth (level + 1)
          (s.visited options.root (x ++ [name]))) :
    stopsAt (s.plan w options) depth level (s.visited options.root x) name =
      stopsAt (s.plan (w.without (s.root ++ d ++ [last])) options) depth level (s.visited options.root x) name := by
  have covers := Run.covers_of_asks asks
  rw [stopsAt, stopsAt, errand_kept asks fits unmarked isDirectory left meets]
  refine entryStops_congr fun path descends => ?_
  have known := (errand_of_entry covers fits isDirectory left meets).symm.trans descends
  obtain ⟨rfl, opened, entries, rfl⟩ := open_of_descend covers fits meets known
  have same := inside entries meets.found opened
  rwa [visited_concat] at same

/-- The route through a directory from which a walk does not come to the entry is the same with it as without it. -/
theorem route_same (depth level : Nat) (isDirectory : s.tree.find x = .ok (.directory entries' false)) (opened : s.IsOpen x)
    (left : x.length + depth = w.levels) (apart : ¬(x <+: d ∧ s.IsOpen d)) :
    route (s.plan w options) depth level (s.visited options.root x) =
      route (s.plan (w.without (s.root ++ d ++ [last])) options) depth level (s.visited options.root x) := by
  induction depth generalizing level x entries' with
  | zero =>
    have other : x ≠ d := fun same => apart ⟨same ▸ List.prefix_refl x, same ▸ opened⟩
    rw [route_zero (s.plan w options) (list_apart asks fits isDirectory opened other),
      route_zero (s.plan (w.without (s.root ++ d ++ [last])) options) (list_without asks fits isDirectory opened)]
  | succ depth ih =>
    have other : x ≠ d := fun same => apart ⟨same ▸ List.prefix_refl x, same ▸ opened⟩
    rw [route_succ (s.plan w options) (list_apart asks fits isDirectory opened other),
      route_succ (s.plan (w.without (s.root ++ d ++ [last])) options) (list_without asks fits isDirectory opened)]
    refine congrArg Except.ok (List.flatMap_congr fun name named => ?_)
    obtain ⟨entry, member, rfl⟩ := List.mem_map.mp named
    have meets := meets_entry (Run.covers_of_asks asks) isDirectory opened member
    refine stopsAt_kept asks fits unmarked isDirectory left meets fun entries found opened' => ?_
    refine ih (level + 1) found opened' ?_ fun within => ?_
    · rw [List.length_append, List.length_singleton]
      omega
    · exact apart ⟨(List.prefix_append x [entry.1]).trans within.1, within.2⟩

/-- The stops of an entry that does not lead to the bad one are the same. -/
theorem stopsAt_apart {depth level : Nat} {node' : Node} (isDirectory : s.tree.find x = .ok (.directory entries' false))
    (left : x.length + (depth + 1) = w.levels) (meets : s.Meets (x ++ [name]) node') (apart : ¬x ++ [name] <+: d) :
    stopsAt (s.plan w options) depth level (s.visited options.root x) name =
      stopsAt (s.plan (w.without (s.root ++ d ++ [last])) options) depth level (s.visited options.root x) name := by
  refine stopsAt_kept asks fits unmarked isDirectory left meets fun entries found opened => ?_
  refine route_same asks fits unmarked depth (level + 1) found opened ?_ fun within => apart within.1
  rw [List.length_append, List.length_singleton]
  omega

/-- The stops of an open directory are itself and those in it, with the entry as without it. -/
theorem stopsAt_open {depth level : Nat} {entries : List (Text × Node)} {stops stops' : List Stop}
    (isDirectory : s.tree.find x = .ok (.directory entries' false)) (left : x.length + (depth + 1) = w.levels)
    (found : s.tree.find (x ++ [name]) = .ok (.directory entries false)) (opened : s.IsOpen (x ++ [name]))
    (inside : route (s.plan w options) depth (level + 1) (s.visited options.root (x ++ [name])) = .ok stops)
    (inside' : route (s.plan (w.without (s.root ++ d ++ [last])) options) depth (level + 1)
      (s.visited options.root (x ++ [name])) = .ok stops') :
    stopsAt (s.plan w options) depth level (s.visited options.root x) name =
        ⟨level, .ok (.descend (s.path (x ++ [name])))⟩ :: stops ∧
      stopsAt (s.plan (w.without (s.root ++ d ++ [last])) options) depth level (s.visited options.root x) name =
        ⟨level, .ok (.descend (s.path (x ++ [name])))⟩ :: stops' := by
  have covers := Run.covers_of_asks asks
  obtain ⟨recurse, above, passable⟩ := isOpen_concat.mp opened
  have meets : s.Meets (x ++ [name]) (.directory entries false) := ⟨found, by simp, by rwa [List.dropLast_concat]⟩
  have known' : (s.plan (w.without (s.root ++ d ++ [last])) options).errand (depth + 1)
      ((s.visited options.root x).child name) = .ok (.descend (s.path (x ++ [name]))) :=
    (errand_of_entry covers fits isDirectory left meets).trans ((nodeErrand_directory covers fits recurse meets).1 passable)
  have known := (errand_kept asks fits unmarked isDirectory left meets).trans known'
  rw [visited_concat] at inside inside'
  constructor
  · rw [stopsAt, known, entryStops, inside]
  · rw [stopsAt, known', entryStops, inside']

/-- The route to the entry has one stop more with it, which fails, unless it fails without it at the same place. -/
theorem route_split (depth level : Nat) (isDirectory : s.tree.find x = .ok (.directory entries' false)) (within : x <+: d)
    (left : x.length + depth = w.levels) (opened : s.IsOpen d)
    (distinct : ∀ entries locked, w.disk.find (s.root ++ d) = .ok (.directory entries locked) → (entries.map (·.1)).Nodup)
    (present : ∃ node, w.disk.find (s.root ++ d ++ [last]) = .ok node)
    (spoils : Spoils (s.plan w options) ((s.visited options.root d).child last)) :
    ∃ stops stops', route (s.plan w options) depth level (s.visited options.root x) = .ok stops ∧
      route (s.plan (w.without (s.root ++ d ++ [last])) options) depth level (s.visited options.root x) = .ok stops' ∧
      Spoilt stops stops' := by
  induction depth generalizing level x entries' with
  | zero =>
    obtain ⟨before, name, after, names', listed, listed', toward, _⟩ :=
      list_toward asks fits isDirectory within opened distinct present
    refine ⟨_, _, route_zero (s.plan w options) listed level,
      route_zero (s.plan (w.without (s.root ++ d ++ [last])) options) listed' level, ?_⟩
    refine ⟨before.map _, _, after.map _, .tooDeep, List.map_append, rfl, ?_⟩
    rcases toward with ⟨_, _, rfl⟩ | ⟨_, rfl⟩
    · exact .inl List.map_append
    · exact .inr rfl
  | succ depth ih =>
    obtain ⟨before, name, after, names', listed, listed', toward, others⟩ :=
      list_toward asks fits isDirectory within opened distinct present
    have same : ∀ other ∈ before ++ after, stopsAt (s.plan w options) depth level (s.visited options.root x) other =
        stopsAt (s.plan (w.without (s.root ++ d ++ [last])) options) depth level (s.visited options.root x) other := by
      intro other member
      obtain ⟨⟨node, meets⟩, apart⟩ := others other member
      exact stopsAt_apart asks fits unmarked isDirectory left meets apart
    have earlier := List.flatMap_congr fun other member => same other (List.mem_append_left after member)
    have later := List.flatMap_congr fun other member => same other (List.mem_append_right before member)
    refine ⟨_, _, route_succ (s.plan w options) listed depth level,
      route_succ (s.plan (w.without (s.root ++ d ++ [last])) options) listed' depth level, ?_⟩
    rcases toward with ⟨rfl, rfl, rfl⟩ | ⟨⟨rest, rfl⟩, rfl⟩
    · obtain ⟨f, failed⟩ := failure_of_less spoils (show depth + 1 ≤ w.levels by omega) level
      have single := entryStops_of_failure failed (route (s.plan w options) depth (level + 1))
      rw [List.flatMap_append, List.flatMap_cons, List.flatMap_append, earlier, later, stopsAt, single]
      exact ⟨_, _, _, f, rfl, failed, .inl rfl⟩
    · obtain ⟨entries, found⟩ := find_of_isOpen opened
      have deeper : (x ++ [name]).length + depth = w.levels := by
        rw [List.length_append, List.length_singleton]
        omega
      obtain ⟨stops, stops', inside, inside', spoilt⟩ := ih (level + 1) found (by simp) deeper
      rw [List.append_cons] at opened
      obtain ⟨first, first'⟩ :=
        stopsAt_open asks fits unmarked isDirectory left found (isOpen_of_append opened) inside inside'
      rw [List.flatMap_append, List.flatMap_cons, List.flatMap_append, List.flatMap_cons, earlier, later, first, first']
      have whole := spoilt_append spoilt [⟨level, .ok (.descend (s.path (x ++ [name])))⟩] []
      simp only [List.singleton_append, List.append_nil] at whole
      exact spoilt_append whole _ _

end Routes

/-- How stops are followed depends on the world only by when it interrupts. -/
theorem follow_congr {w w' : World} (same : w.interruptAt = w'.interruptAt) (limit : Option Int) (stops : List Stop) :
    follow w limit stops = follow w' limit stops := by
  induction stops using follow.induct with
  | case1 => rw [follow, follow]
  | case2 stop rest ih =>
    rw [follow, follow, take, take, takeEntry, takeEntry, same]
    exact bind_congr ih

end Walk

namespace Run
open Walk (Project)

variable {w : World} {options : Options} {s : Project} {d : Place} {last : Text}

theorem exit_of_failure {arguments : List Text} (understood : Options.ofArguments arguments = .ok options) {texts : List Text}
    {f : Failure} (failed : withOptions w options = ⟨texts, .failure f⟩) : (run w arguments).exit = -1 := by
  rw [run, transcript, understood]
  simp only [failed, Outcome.ofTranscript]
  split <;> rfl

section BadEntry
variable (asks : Asks (w.without (s.root ++ d ++ [last])) options s) (fits : s.Fits options.root)
  (unmarked : ∀ mark ∈ Walk.marks true, mark.1.toList ≠ last)
include asks fits unmarked

theorem plan_kept : plan? w options = some (s.plan w options) := by
  obtain ⟨entries, isDirectory, top⟩ := find_top asks
  obtain ⟨entries', looked, _⟩ := Walk.stat_visited_kept asks fits top Walk.isOpen_nil
  have leads : (w.without (s.root ++ d ++ [last])).LeadsTo options.root (s.root ++ []) := by
    rw [List.append_nil]
    exact asks.leads
  have member : (".git", (fun _ : Node => true), Skip.submodule) ∈ Walk.marks true := List.mem_cons_self
  have git := Walk.probe_kept asks leads top member (unmarked _ member) fits.repository
  exact plan_of_root asks.walks (Walk.here_kept asks) (Walk.leadsTo_kept asks.leads) looked (git.trans (probe_git asks fits))

/-- An entry to which no walk comes makes no difference. -/
theorem withOptions_of_closed (closed : ¬s.IsOpen d) :
    withOptions w options = withOptions (w.without (s.root ++ d ++ [last])) options := by
  obtain ⟨entries, _, top⟩ := find_top asks
  obtain ⟨_, _, made⟩ := plan_parts (plan_kept asks fits unmarked)
  obtain ⟨_, _, made'⟩ := plan_parts (plan_of_asks asks fits)
  have same := Walk.route_same asks fits unmarked w.levels 0 top Walk.isOpen_nil (Nat.zero_add _) fun within =>
    closed within.2
  rw [Project.visited, if_pos rfl] at same
  have interrupts : w.interruptAt = (w.without (s.root ++ d ++ [last])).interruptAt := rfl
  have walks : Walk.walk (s.plan w options) w.levels options.root =
      Walk.walk (s.plan (w.without (s.root ++ d ++ [last])) options) w.levels options.root := by
    rw [Walk.walk_eq_follow, Walk.walk_eq_follow, same]
    exact bind_congr fun stops => Walk.follow_congr interrupts options.limit stops
  rw [made, made', walkAndReport, walkAndReport, show (s.plan w options).world.levels = w.levels from rfl,
    show (s.plan w options).options.root = options.root from rfl, walks]
  rfl

/-- A run that comes to the entry ends in a failure, with nothing reported that is not reported without the entry as well. -/
theorem failed_of_spoils {n : Int} (uninterrupted : w.interruptAt = none) (limit : options.limit = some n) (free : n ≤ 0)
    (opened : s.IsOpen d)
    (distinct : ∀ entries locked, w.disk.find (s.root ++ d) = .ok (.directory entries locked) → (entries.map (·.1)).Nodup)
    (present : ∃ node, w.disk.find (s.root ++ d ++ [last]) = .ok node)
    (spoils : Walk.Spoils (s.plan w options) ((s.visited options.root d).child last)) :
    ∃ (q : Progress) (f : Failure), withOptions w options =
        ⟨opening (s.plan w options) ++ Report.events options.verbose q.log.reverse, .failure f⟩ ∧
      ∀ p, walked? (w.without (s.root ++ d ++ [last])) options = some p → q.reported <+: p.reported := by
  obtain ⟨entries, _, top⟩ := find_top asks
  obtain ⟨_, stops', routed, routed', before, bad, after, f, rfl, failed, same⟩ :=
    Walk.route_split asks fits unmarked w.levels 0 top List.nil_prefix (Nat.zero_add _) opened distinct present spoils
  have planned := plan_kept asks fits unmarked
  have planned' := plan_of_asks asks fits
  rcases failed_or_walked planned' with ⟨_, _, _, unwalked⟩ | ⟨p, walked⟩
  · obtain ⟨q, f, made, _⟩ := failed_of_mem planned uninterrupted limit free routed
      (List.mem_append_right before List.mem_cons_self) (by rw [failed]; exact Option.some_ne_none f)
    exact ⟨q, f, made, fun p walked => by rw [unwalked] at walked; cases walked⟩
  · obtain ⟨stops, routed'', good, reported, _⟩ := good_of_walked planned' uninterrupted limit free walked
    cases routed'.symm.trans routed''
    have kept : stops' = before ++ after := by
      refine same.resolve_right fun whole => ?_
      have none := good bad (by rw [whole]; exact List.mem_append_right before List.mem_cons_self)
      rw [failed] at none
      cases none
    subst kept
    obtain ⟨q, made, reported', _⟩ := failed_of_bad planned uninterrupted limit free routed
      (fun stop member => good stop (List.mem_append_left after member)) failed
    refine ⟨q, f, made, fun p' walked' => ?_⟩
    cases walked.symm.trans walked'
    rw [reported, reported', List.flatMap_append]
    exact List.prefix_append _ _

/-- Let a project without links have one entry more that cannot be read or followed. A run without a limit that is not
    interrupted ends in a failure if it comes to the entry, with no issue printed that is not printed without the entry as well.
    If it does not come to the entry, it is the same as without it. -/
theorem run_with_bad_entry {arguments : List Text} {n : Int} (understood : Options.ofArguments arguments = .ok options)
    (uninterrupted : w.interruptAt = none) (limit : options.limit = some n) (free : n ≤ 0)
    (distinct : ∀ entries locked, w.disk.find (s.root ++ d) = .ok (.directory entries locked) → (entries.map (·.1)).Nodup)
    (present : ∃ node, w.disk.find (s.root ++ d ++ [last]) = .ok node)
    (spoils : Walk.Spoils (s.plan w options) ((s.visited options.root d).child last)) :
    (s.IsOpen d → (run w arguments).exit = -1 ∧
      ∃ (q : Progress) (f : Failure), withOptions w options =
          ⟨opening (s.plan w options) ++ Report.events options.verbose q.log.reverse, .failure f⟩ ∧
        ∀ p, walked? (w.without (s.root ++ d ++ [last])) options = some p → q.reported <+: p.reported) ∧
      (¬s.IsOpen d → run w arguments = run (w.without (s.root ++ d ++ [last])) arguments) := by
  constructor
  · intro opened
    obtain ⟨q, f, made, fewer⟩ :=
      failed_of_spoils asks fits unmarked uninterrupted limit free opened distinct present spoils
    exact ⟨exit_of_failure understood made, q, f, made, fewer⟩
  · intro closed
    have same := withOptions_of_closed asks fits unmarked closed
    rw [run, run, transcript, transcript, understood]
    simp only [same]
    rfl

end BadEntry

/-! ### A link to nothing -/

/-- A script with an issue. -/
def scriptAlone : Node :=
  .directory [("a.cmake".toList, .file "add_library(x)".toUTF8 false)] false

/-- The script, and a link to nothing beside it. -/
def scriptAndLink : Node :=
  .directory [("a.cmake".toList, .file "add_library(x)".toUTF8 false), ("b".toList, .link "gone".toList)] false

/-- With the link the run ends in a failure; without it, it ends with one issue. -/
theorem link_to_nothing_spoils_run :
    (run (worldOf scriptAndLink none) []).exit = -1 ∧ (run (worldOf scriptAlone none) []).exit = 1 := by
  have asks : Asks ((worldOf scriptAndLink none).without ["r".toList, "b".toList]) plainRun (projectOf scriptAlone none) :=
    asks_plainRun ⟨_, rfl⟩ (Node.tidy_of_visible (by decide +kernel)) none
  have fits : (projectOf scriptAlone none).Fits plainRun.root :=
    Project.fits_of_visible (by decide +kernel) (by decide +kernel) (by decide +kernel)
  have understood : Options.ofArguments [] = .ok plainRun := by decide +kernel
  have distinct : ∀ seen ∈ (worldOf scriptAndLink none).disk.visible, seen.2.entryNames.Nodup := by decide +kernel
  have spoils : Walk.Spoils ((projectOf scriptAlone none).plan (worldOf scriptAndLink none) plainRun)
      (plainRun.root.child "b".toList) :=
    .dangling (by decide +kernel : _ = Node.Resolved.path (.absolute ["r".toList, "gone".toList]))
      (rfl : _ = Except.error Obstacle.missing) (by decide)
  obtain ⟨exit, _⟩ := (run_with_bad_entry (d := []) asks fits (by decide) understood rfl rfl (Int.le_refl 0)
    (fun entries locked found => distinct (_, _) (Node.mem_visible found)) ⟨_, rfl⟩ spoils).1 Walk.isOpen_nil
  exact ⟨exit, by decide +kernel⟩

end Run

end CMakeLint
