import CMakeLint.Proofs.Disk.Trees
import Mathlib.Data.List.Basic

/-!
Trees of files with an entry taken out. All that is neither this entry nor below it looks the same as before
(`find_without`), so what can be reached without the entry is reached in the same way with it (`leads_of_without`).
-/
namespace CMakeLint

namespace Node

/-- A tree without the entry at a place. -/
def without : Node → Place → Node
  | .directory entries locked, [name] => .directory (entries.filter (·.1 ≠ name)) locked
  | .directory entries locked, name :: next :: rest =>
    .directory (entries.map fun entry => (entry.1, if entry.1 = name then entry.2.without (next :: rest) else entry.2)) locked
  | node, _ => node

/-- Nodes that cannot be told from each other unless their entries are listed. -/
inductive Alike : Node → Node → Prop
  | same (node : Node) : Alike node node
  | directory (entries entries' : List (Text × Node)) (locked : Bool) :
      Alike (.directory entries locked) (.directory entries' locked)

/-- What is found is the same up to a relation of nodes. -/
def Corresponds (related : Node → Node → Prop) : Except Obstacle Node → Except Obstacle Node → Prop
  | .ok node, .ok node' => related node node'
  | .error obstacle, .error obstacle' => obstacle = obstacle'
  | _, _ => False

/-- What is left of a node at a place `x` when an entry of the directory `d` is taken out. -/
structure Left (d : Place) (last : Text) (x : Place) (node node' : Node) : Prop where
  alike : Alike node node'
  names_eq : node'.entryNames = if x = d then node.entryNames.filter (· ≠ last) else node.entryNames

theorem lookup_filter (entries : List (Text × Node)) {name other : Text} (different : other ≠ name) :
    (entries.filter (·.1 ≠ name)).lookup other = entries.lookup other := by
  induction entries with
  | nil => rfl
  | cons entry rest ih =>
    by_cases removed : entry.1 = name
    · rw [List.filter_cons_of_neg (by simpa using removed), List.lookup_cons, ih]
      have : (other == entry.1) = false := beq_false_of_ne (removed ▸ different)
      rw [this]
    · rw [List.filter_cons_of_pos (by simpa using removed), List.lookup_cons, List.lookup_cons, ih]

theorem lookup_filter_self (entries : List (Text × Node)) (name : Text) :
    (entries.filter (·.1 ≠ name)).lookup name = none := by
  rw [List.lookup_eq_none_iff]
  intro entry member
  simpa using (by simpa using (List.mem_filter.mp member).2 : entry.1 ≠ name).symm

theorem lookup_map (entries : List (Text × Node)) (change : Text → Node → Node) (name : Text) :
    (entries.map fun entry => (entry.1, change entry.1 entry.2)).lookup name = (entries.lookup name).map (change name) := by
  induction entries with
  | nil => rfl
  | cons entry rest ih =>
    rw [List.map_cons, List.lookup_cons, List.lookup_cons, ih]
    by_cases same : name = entry.1
    · subst same
      simp
    · simp [beq_false_of_ne same]

theorem without_cons (entries : List (Text × Node)) (locked : Bool) (name : Text) {rest : Place} (some : rest ≠ []) :
    (directory entries locked).without (name :: rest) = .directory
      (entries.map fun entry => (entry.1, if entry.1 = name then entry.2.without rest else entry.2)) locked := by
  obtain ⟨next, rest, rfl⟩ := List.exists_cons_of_ne_nil some
  rw [without]

theorem corresponds_refl {related : Node → Node → Prop} (same : ∀ node, related node node) (found : Except Obstacle Node) :
    Corresponds related found found := by
  cases found with
  | error obstacle => rfl
  | ok node => exact same node

/-- The same obstacle is found on both sides, or related nodes. -/
theorem corresponds_cases {related : Node → Node → Prop} {found found' : Except Obstacle Node}
    (corresponds : Corresponds related found found') :
    (∃ obstacle, found = .error obstacle ∧ found' = .error obstacle) ∨
      ∃ node node', found = .ok node ∧ found' = .ok node' ∧ related node node' := by
  cases found with
  | error obstacle =>
    cases found' with
    | error obstacle' =>
      cases (corresponds : obstacle = obstacle')
      exact .inl ⟨obstacle, rfl, rfl⟩
    | ok node' => exact corresponds.elim
  | ok node =>
    cases found' with
    | error obstacle' => exact corresponds.elim
    | ok node' => exact .inr ⟨node, node', rfl, rfl, corresponds⟩

theorem corresponds_imp {related related' : Node → Node → Prop} (imp : ∀ node node', related node node' → related' node node')
    {found found' : Except Obstacle Node} (corresponds : Corresponds related found found') :
    Corresponds related' found found' := by
  obtain ⟨obstacle, rfl, rfl⟩ | ⟨node, node', rfl, rfl, same⟩ := corresponds_cases corresponds
  · rfl
  · exact imp node node' same

theorem plain_of_alike {node node' : Node} (alike : Alike node node') (plain : ∀ target, node' ≠ .link target) (target : Text) :
    node ≠ .link target := by
  cases alike with
  | same => exact plain target
  | directory => nofun

theorem plain_of_corresponds {found found' : Except Obstacle Node} (corresponds : Corresponds Alike found found')
    (plain : ∀ target, found' ≠ .ok (.link target)) (target : Text) : found ≠ .ok (.link target) := by
  rintro rfl
  cases found' with
  | error obstacle => exact corresponds
  | ok node' =>
    have plain' : ∀ target, node' ≠ .link target := fun target same => plain target (congrArg Except.ok same)
    exact plain_of_alike corresponds plain' target rfl

variable {tree disk : Node} {d x q here : Place} {last : Text} {k : Nat} {steps : List Text}

theorem left_of_ne (other : x ≠ d) (node : Node) : Left d last x node node :=
  ⟨.same node, by rw [if_neg other]⟩

theorem find_without_child (kept : ¬[last] <+: x) :
    Corresponds (Left [] last x) (tree.find x) ((tree.without [last]).find x) := by
  cases tree with
  | directory entries locked =>
    rw [without]
    cases x with
    | nil =>
      refine ⟨.directory .., ?_⟩
      simp [entryNames, List.filter_map, Function.comp_def]
    | cons name x =>
      have different : name ≠ last := by
        rintro rfl
        exact kept (List.prefix_append [name] x)
      simp only [find, lookup_filter entries different]
      exact corresponds_refl (left_of_ne (List.cons_ne_nil name x)) _
  | _ =>
    cases x with
    | nil => exact ⟨.same _, rfl⟩
    | cons name x => rfl

/-- What is neither the entry that is taken out nor below it is still found. -/
theorem find_without (kept : ¬d ++ [last] <+: x) :
    Corresponds (Left d last x) (tree.find x) ((tree.without (d ++ [last])).find x) := by
  induction d generalizing tree x with
  | nil => exact find_without_child kept
  | cons first d ih =>
    cases tree with
    | directory entries locked =>
      rw [List.cons_append, without_cons entries locked first (by simp)]
      cases x with
      | nil =>
        refine ⟨.directory .., ?_⟩
        simp [entryNames, Function.comp_def]
      | cons name x =>
        simp only [find, lookup_map entries fun name node => if name = first then node.without (d ++ [last]) else node]
        cases locked with
        | true => rfl
        | false =>
          simp only [Bool.false_eq_true, ↓reduceIte]
          cases entries.lookup name with
          | none => rfl
          | some child =>
            by_cases same : name = first
            · subst same
              have deeper : Corresponds (Left d last x) (child.find x) ((child.without (d ++ [last])).find x) :=
                ih fun below => kept (List.cons_prefix_cons.mpr ⟨rfl, below⟩)
              simp only [Option.map_some, ↓reduceIte]
              exact corresponds_imp (fun node node' left => ⟨left.alike, by simpa using left.names_eq⟩) deeper
            · simp only [Option.map_some, if_neg same]
              exact corresponds_refl (left_of_ne fun equal => same (List.cons.inj equal).1) _
    | _ =>
      cases x with
      | nil => exact ⟨.same _, rfl⟩
      | cons name x => rfl

/-- The entry that is taken out is not found anymore. -/
theorem find_removed (removed : d ++ [last] <+: x) : ∃ obstacle, (tree.without (d ++ [last])).find x = .error obstacle := by
  induction d generalizing tree x with
  | nil =>
    obtain ⟨x, rfl⟩ := removed
    cases tree with
    | directory entries locked =>
      rw [List.nil_append, without, List.singleton_append, find]
      cases locked with
      | true => exact ⟨_, rfl⟩
      | false =>
        rw [lookup_filter_self]
        exact ⟨_, rfl⟩
    | _ => exact ⟨_, rfl⟩
  | cons first d ih =>
    obtain ⟨rest, rfl⟩ := removed
    cases tree with
    | directory entries locked =>
      rw [List.cons_append, without_cons entries locked first (by simp), List.cons_append, find,
        lookup_map entries fun name node => if name = first then node.without (d ++ [last]) else node]
      cases locked with
      | true => exact ⟨_, rfl⟩
      | false =>
        cases entries.lookup first with
        | none => exact ⟨_, rfl⟩
        | some child =>
          obtain ⟨obstacle, missing⟩ := @ih child _ (List.prefix_append (d ++ [last]) rest)
          exact ⟨obstacle, by simpa using missing⟩
    | _ => exact ⟨_, rfl⟩

theorem find_of_without {node' : Node} (found : (disk.without (d ++ [last])).find x = .ok node') :
    ∃ node, disk.find x = .ok node ∧ Left d last x node node' := by
  by_cases removed : d ++ [last] <+: x
  · obtain ⟨obstacle, missing⟩ := @find_removed disk _ _ _ removed
    rw [missing] at found
    cases found
  · have kept := @find_without disk _ _ _ removed
    rw [found] at kept
    cases before : disk.find x with
    | error obstacle =>
      rw [before] at kept
      exact kept.elim
    | ok node =>
      rw [before] at kept
      exact ⟨node, rfl, kept⟩

/-! ### Reaching what is left -/

theorem find_directory_of_without {entries' : List (Text × Node)} {locked : Bool}
    (found : (disk.without (d ++ [last])).find x = .ok (.directory entries' locked)) :
    ∃ entries, disk.find x = .ok (.directory entries locked) ∧
      entries'.map (·.1) = if x = d then (entries.map (·.1)).filter (· ≠ last) else entries.map (·.1) := by
  obtain ⟨node, found, left⟩ := find_of_without found
  cases left.alike with
  | same => exact ⟨entries', found, left.names_eq⟩
  | directory entries => exact ⟨entries, found, left.names_eq⟩

theorem find_plain_of_without {node' : Node} (found : (disk.without (d ++ [last])).find x = .ok node')
    (plain : ∀ target, node' ≠ .link target) : ∃ node, disk.find x = .ok node ∧ ∀ target, node ≠ .link target := by
  obtain ⟨node, found, left⟩ := find_of_without found
  exact ⟨node, found, plain_of_alike left.alike plain⟩

theorem enter_of_without (inside : (disk.without (d ++ [last])).enter x = .ok ()) : disk.enter x = .ok () := by
  unfold enter at inside
  split at inside
  · rename_i entries' locked found
    obtain ⟨entries, found, _⟩ := find_directory_of_without found
    rw [enter, found]
    exact inside
  · cases inside
  · cases inside

/-- What can be reached without an entry is reached in the same way with it. -/
theorem leads_of_without (leads : Leads (disk.without (d ++ [last])) k here steps q) : Leads disk k here steps q := by
  induction leads with
  | arrive => exact .arrive
  | slash isDirectory later ih =>
    obtain ⟨_, isDirectory, _⟩ := find_directory_of_without isDirectory
    exact .slash isDirectory ih
  | stay inside later ih => exact .stay (enter_of_without inside) ih
  | up inside later ih => exact .up (enter_of_without inside) ih
  | down inside named found plain later ih =>
    obtain ⟨_, found, plain⟩ := find_plain_of_without found plain
    exact .down (enter_of_without inside) named found plain ih
  | link inside named found first later ih ih' =>
    obtain ⟨node, found, left⟩ := find_of_without found
    cases left.alike
    exact .link (enter_of_without inside) named found ih ih'

theorem real_of_without (real : Real (disk.without (d ++ [last])) q) : Real disk q := by
  induction real with
  | root => exact .root
  | child above inside named found plain ih =>
    obtain ⟨_, found, plain⟩ := find_plain_of_without found plain
    exact .child ih (enter_of_without inside) named found plain

end Node

end CMakeLint
