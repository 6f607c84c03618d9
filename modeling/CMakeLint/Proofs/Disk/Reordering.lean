import CMakeLint.Proofs.Disk.Removal
import Mathlib.Data.List.Perm.Basic

/-!
Trees of files that list the entries of their directories in another order. The same is found in both at every place, but for
the order of names (`find_reordered`). Where trees look alike, all ways in them lead to the same places (`follow_alike`), and
paths resolve to the same (`resolve_alike`).
-/
namespace CMakeLint.Node

mutual

/-- Trees that differ at most in the order in which their directories list entries. The entries of a directory have names of
    their own. -/
inductive Reordered : Node → Node → Prop
  | file (content : ByteArray) (locked : Bool) : Reordered (.file content locked) (.file content locked)
  | link (target : Text) : Reordered (.link target) (.link target)
  | pipe : Reordered .pipe .pipe
  | directory {entries moved entries' : List (Text × Node)} (locked : Bool) (distinct : (entries.map (·.1)).Nodup)
      (order : entries.Perm moved) (below : ReorderedBelow moved entries') :
      Reordered (.directory entries locked) (.directory entries' locked)

/-- Entries of the same names in the same order, with trees that differ at most in the order of what their directories list. -/
inductive ReorderedBelow : List (Text × Node) → List (Text × Node) → Prop
  | nil : ReorderedBelow [] []
  | cons {node node' : Node} {entries entries' : List (Text × Node)} (name : Text) (here : Reordered node node')
      (rest : ReorderedBelow entries entries') : ReorderedBelow ((name, node) :: entries) ((name, node') :: entries')

end

/-- Nodes that cannot be told from each other, and list the same names in any order. -/
structure Relisted (node node' : Node) : Prop where
  alike : Alike node node'
  names_perm : node.entryNames.Perm node'.entryNames

/-! ### What is found -/

theorem names_reorderedBelow {entries entries' : List (Text × Node)} (below : ReorderedBelow entries entries') :
    entries.map (·.1) = entries'.map (·.1) := by
  induction entries generalizing entries' with
  | nil =>
    cases below
    rfl
  | cons entry entries ih =>
    cases below with
    | cons name here rest => rw [List.map_cons, List.map_cons, ih rest]

/-- In both lists nothing has a name, or what has it is the same up to order. -/
theorem lookup_reorderedBelow {entries entries' : List (Text × Node)} (below : ReorderedBelow entries entries') (name : Text) :
    (entries.lookup name = none ∧ entries'.lookup name = none) ∨
      ∃ node node', entries.lookup name = some node ∧ entries'.lookup name = some node' ∧ Reordered node node' := by
  induction entries generalizing entries' with
  | nil =>
    cases below
    exact .inl ⟨rfl, rfl⟩
  | cons entry entries ih =>
    cases below with
    | @cons node node' _ _ first here rest =>
      by_cases same : name = first
      · subst same
        exact .inr ⟨node, node', by simp, by simp, here⟩
      · simpa [List.lookup_cons, beq_false_of_ne same] using ih rest

theorem lookup_perm {entries moved : List (Text × Node)} (distinct : (entries.map (·.1)).Nodup) (order : entries.Perm moved)
    (name : Text) : entries.lookup name = moved.lookup name := by
  have distinct' : (moved.map (·.1)).Nodup := (order.map (·.1)).nodup_iff.mp distinct
  cases found : moved.lookup name with
  | some node =>
    obtain ⟨before, after, rfl, _⟩ := List.lookup_eq_some_iff.mp found
    have member : (name, node) ∈ entries := order.mem_iff.mpr (by simp)
    exact lookup_of_mem distinct member
  | none =>
    rw [List.lookup_eq_none_iff] at found ⊢
    intro entry member
    exact found entry (order.mem_iff.mp member)

/-- At every place the same is found in both trees, but for the order of names. -/
theorem find_reordered {tree tree' : Node} (reordered : Reordered tree tree') (place : Place) :
    Corresponds Relisted (tree.find place) (tree'.find place) := by
  induction place generalizing tree tree' with
  | nil =>
    rw [find, find]
    cases reordered with
    | file content locked => exact ⟨.same _, List.Perm.refl _⟩
    | link target => exact ⟨.same _, List.Perm.refl _⟩
    | pipe => exact ⟨.same _, List.Perm.refl _⟩
    | @directory entries moved entries' locked distinct order below =>
      refine ⟨.directory entries entries' locked, ?_⟩
      rw [entryNames, entryNames, ← names_reorderedBelow below]
      exact order.map (·.1)
  | cons name rest ih =>
    cases reordered with
    | file content locked => rfl
    | link target => rfl
    | pipe => rfl
    | @directory entries moved entries' locked distinct order below =>
      cases locked with
      | true => rfl
      | false =>
        simp only [find, lookup_perm distinct order name]
        obtain ⟨missing, missing'⟩ | ⟨node, node', found, found', here⟩ := lookup_reorderedBelow below name
        · rw [missing, missing']
          rfl
        · rw [found, found']
          exact ih here

/-! ### Ways in trees that look alike -/

section Alike
variable {disk disk' : Node} (alike : ∀ place, Corresponds Alike (disk.find place) (disk'.find place))
include alike

theorem enter_alike (place : Place) : disk.enter place = disk'.enter place := by
  rw [enter, enter]
  obtain ⟨obstacle, found, found'⟩ | ⟨node, node', found, found', same⟩ := corresponds_cases (alike place)
  · rw [found, found']
  · rw [found, found']
    cases same with
    | same => rfl
    | directory entries entries' locked => rfl

theorem advance_alike (here : Place) (steps : List Text) : disk.advance here steps = disk'.advance here steps := by
  induction steps generalizing here with
  | nil => rfl
  | cons name rest ih =>
    cases name with
    | nil =>
      simp only [advance]
      obtain ⟨obstacle, found, found'⟩ | ⟨node, node', found, found', same⟩ := corresponds_cases (alike here)
      · rw [found, found']
      · rw [found, found']
        cases same with
        | directory entries entries' locked => exact ih here
        | same =>
          cases node with
          | directory entries locked => exact ih here
          | _ => rfl
    | cons c name =>
      simp only [advance, enter_alike alike, ih]
      obtain ⟨obstacle, found, found'⟩ | ⟨node, node', found, found', same⟩ := corresponds_cases (alike (here ++ [c :: name]))
      · rw [found, found']
      · rw [found, found']
        cases same with
        | same => rfl
        | directory entries entries' locked => rfl

theorem follow_alike (links : Nat) (here : Place) (steps : List Text) :
    disk.follow links here steps = disk'.follow links here steps := by
  induction links generalizing here steps with
  | zero => rw [follow, follow, advance_alike alike]
  | succ links ih =>
    rw [follow, follow, advance_alike alike]
    simp only [ih]

/-- What a place leads to is found in both trees, if nodes of both at the same place are related. -/
theorem stat_alike {related : Node → Node → Prop}
    (found : ∀ place, Corresponds related (disk.find place) (disk'.find place)) (place : Place) :
    Corresponds related (disk.stat place) (disk'.stat place) := by
  rw [stat, stat, follow_alike alike]
  cases disk'.follow maxLinks [] place with
  | error obstacle => rfl
  | ok place => exact found place

theorem isLoop_alike (place : Place) : disk.isLoop place = disk'.isLoop place := by
  rw [isLoop, isLoop]
  obtain ⟨obstacle, found, found'⟩ | ⟨node, node', found, found', _⟩ := corresponds_cases (stat_alike alike alike place)
  · rw [found, found']
  · rw [found, found']

theorem resolveSteps_alike (here : Place) {expand expand' : (link above : Path) → (target : Text) → Resolved}
    (same : ∀ link above target, expand link above target = expand' link above target) (p : Path) (steps : List Text) :
    disk.resolveSteps here expand p steps = disk'.resolveSteps here expand' p steps := by
  induction steps generalizing p with
  | nil => rfl
  | cons name rest ih =>
    simp only [resolveSteps, ih]
    obtain ⟨obstacle, found, found'⟩ | ⟨node, node', found, found', looks⟩ :=
      corresponds_cases (alike ((p.child name).normal here).names)
    · rw [found, found']
    · rw [found, found']
      cases looks with
      | directory entries entries' locked => rfl
      | same =>
        cases node with
        | link target => simp only [same]
        | _ => rfl

theorem resolveFrom_alike (here : Place) (depth : Nat) (active : List Path) (p : Path) (steps : List Text) :
    disk.resolveFrom here depth active p steps = disk'.resolveFrom here depth active p steps := by
  induction depth generalizing active p steps with
  | zero =>
    rw [resolveFrom, resolveFrom]
    exact resolveSteps_alike alike here (fun _ _ _ => rfl) p steps
  | succ depth ih =>
    rw [resolveFrom, resolveFrom]
    exact resolveSteps_alike alike here (fun _ _ _ => by simp only [ih]) p steps

theorem resolve_alike (here : Place) (depth : Nat) (p : Path) : disk.resolve here depth p = disk'.resolve here depth p := by
  rw [resolve, resolve, resolveFrom_alike alike]
  simp only [isLoop_alike alike]

end Alike

end CMakeLint.Node
