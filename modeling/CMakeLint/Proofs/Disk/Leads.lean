import CMakeLint.Run.Progress

/-!
Where steps lead to in a tree of files, as a relation that counts the links on the way. Following steps is this relation
(`follow_of_leads`, `leads_of_follow`), and replacing the links in a path gives the same place (`resolve_of_leads`): no link can
be met again while it is being replaced, since it would need more links than itself.
-/
namespace CMakeLint

namespace Node

/-! ### Advancing and following -/

section
variable {disk : Node} {here : Place} {rest : List Text}

theorem advance_slash {entries : List (Text × Node)} {locked : Bool}
    (isDirectory : disk.find here = .ok (.directory entries locked)) :
    disk.advance here ([] :: rest) = disk.advance here rest := by
  rw [advance, isDirectory]

theorem follow_congr {here' : Place} {steps steps' : List Text} (same : disk.advance here steps = disk.advance here' steps')
    (links : Nat) : disk.follow links here steps = disk.follow links here' steps' := by
  rw [follow, follow, same]

end

/-! ### Where steps lead to -/

/-- A name that an entry of a directory can have. -/
structure IsName (name : Text) : Prop where
  nonempty : name ≠ []
  not_same : name ≠ sameName
  not_parent : name ≠ Path.parentName
  fits : Path.bytes name ≤ Path.maxNameBytes

/-- Steps lead from one place to another, with a number of links on the way. -/
inductive Leads (disk : Node) : Nat → Place → List Text → Place → Prop
  | arrive {here : Place} : Leads disk 0 here [] here
  | slash {k : Nat} {here q : Place} {entries : List (Text × Node)} {locked : Bool} {rest : List Text}
      (isDirectory : disk.find here = .ok (.directory entries locked)) (later : Leads disk k here rest q) :
      Leads disk k here ([] :: rest) q
  | stay {k : Nat} {here q : Place} {rest : List Text} (inside : disk.enter here = .ok ()) (later : Leads disk k here rest q) :
      Leads disk k here (sameName :: rest) q
  | up {k : Nat} {here q : Place} {rest : List Text} (inside : disk.enter here = .ok ())
      (later : Leads disk k here.dropLast rest q) : Leads disk k here (Path.parentName :: rest) q
  | down {k : Nat} {here q : Place} {name : Text} {node : Node} {rest : List Text} (inside : disk.enter here = .ok ())
      (named : IsName name) (found : disk.find (here ++ [name]) = .ok node) (plain : ∀ target, node ≠ .link target)
      (later : Leads disk k (here ++ [name]) rest q) : Leads disk k here (name :: rest) q
  | link {i j : Nat} {here mid q : Place} {name target : Text} {rest : List Text} (inside : disk.enter here = .ok ())
      (named : IsName name) (found : disk.find (here ++ [name]) = .ok (.link target))
      (first : Leads disk i (linkStart here target) (Text.fields '/' target) mid) (later : Leads disk j mid rest q) :
      Leads disk (i + j + 1) here (name :: rest) q

variable {disk : Node} {here q : Place} {name : Text} {rest : List Text} {k : Nat}

/-! ### One step of following -/

theorem advance_stay (inside : disk.enter here = .ok ()) :
    disk.advance here (sameName :: rest) = disk.advance here rest := by
  simp [sameName, advance, inside]

theorem advance_up (inside : disk.enter here = .ok ()) :
    disk.advance here (Path.parentName :: rest) = disk.advance here.dropLast rest := by
  simp [sameName, Path.parentName, advance, inside]

section Names
variable (inside : disk.enter here = .ok ()) (named : IsName name)
include inside named

theorem advance_down {node : Node} (found : disk.find (here ++ [name]) = .ok node) (plain : ∀ target, node ≠ .link target) :
    disk.advance here (name :: rest) = disk.advance (here ++ [name]) rest := by
  rw [advance.eq_3 _ _ _ _ named.nonempty, inside]
  simp only [named.not_same, named.not_parent, Nat.not_lt.mpr named.fits, ↓reduceIte, found]

theorem advance_link {target : Text} (found : disk.find (here ++ [name]) = .ok (.link target)) :
    disk.advance here (name :: rest) = .ok (.link here target rest) := by
  rw [advance.eq_3 _ _ _ _ named.nonempty, inside]
  simp only [named.not_same, named.not_parent, Nat.not_lt.mpr named.fits, ↓reduceIte, found]

theorem advance_missing {obstacle : Obstacle} (missing : disk.find (here ++ [name]) = .error obstacle) :
    disk.advance here (name :: rest) = .error obstacle := by
  rw [advance.eq_3 _ _ _ _ named.nonempty, inside]
  simp only [named.not_same, named.not_parent, Nat.not_lt.mpr named.fits, ↓reduceIte, missing]

end Names

theorem follow_obstacle {steps : List Text} {obstacle : Obstacle} (stopped : disk.advance here steps = .error obstacle)
    (links : Nat) : disk.follow links here steps = .error obstacle := by
  rw [follow, stopped]

theorem follow_nil (links : Nat) : disk.follow links here [] = .ok here := by
  rw [follow]
  rfl

theorem follow_link {target : Text} (inside : disk.enter here = .ok ()) (named : IsName name)
    (found : disk.find (here ++ [name]) = .ok (.link target)) (links : Nat) :
    disk.follow (links + 1) here (name :: rest) =
      disk.follow links (linkStart here target) (Text.fields '/' target ++ rest) := by
  rw [follow, advance_link inside named found]

theorem follow_link_zero {target : Text} (inside : disk.enter here = .ok ()) (named : IsName name)
    (found : disk.find (here ++ [name]) = .ok (.link target)) : disk.follow 0 here (name :: rest) = .error .loop := by
  rw [follow, advance_link inside named found]

/-! ### Following -/

/-- Steps are followed to where they lead if there are enough links to use up, and end in a loop if there are not. -/
theorem follow_of_leads {steps : List Text} (leads : Leads disk k here steps q) (links : Nat) (rest : List Text) :
    disk.follow links here (steps ++ rest) = if k ≤ links then disk.follow (links - k) q rest else .error .loop := by
  induction leads generalizing links rest with
  | arrive => simp
  | slash isDirectory later ih =>
    rw [List.cons_append, follow_congr (advance_slash isDirectory), ih]
  | stay inside later ih =>
    rw [List.cons_append, follow_congr (advance_stay inside), ih]
  | up inside later ih =>
    rw [List.cons_append, follow_congr (advance_up inside), ih]
  | down inside named found plain later ih =>
    rw [List.cons_append, follow_congr (advance_down inside named found plain), ih]
  | @link i j here mid q name target steps inside named found first later ih ih' =>
    rw [List.cons_append]
    cases links with
    | zero => rw [follow_link_zero inside named found, if_neg (by omega)]
    | succ links =>
      rw [follow_link inside named found, ih, ih']
      by_cases first : i ≤ links
      · by_cases enough : j ≤ links - i
        · rw [if_pos first, if_pos enough, if_pos (by omega), Nat.sub_sub, Nat.add_sub_add_right]
        · rw [if_pos first, if_neg enough, if_neg (by omega)]
      · rw [if_neg first, if_neg (by omega)]

theorem leads_append {steps steps' : List Text} {mid : Place} {i j : Nat} (first : Leads disk i here steps mid)
    (second : Leads disk j mid steps' q) : Leads disk (i + j) here (steps ++ steps') q := by
  induction first with
  | arrive => rwa [Nat.zero_add]
  | slash isDirectory later ih => exact .slash isDirectory (ih second)
  | stay inside later ih => exact .stay inside (ih second)
  | up inside later ih => exact .up inside (ih second)
  | down inside named found plain later ih => exact .down inside named found plain (ih second)
  | @link i' j' here mid' q' name target steps inside named found first later ih ih' =>
    have whole := Leads.link inside named found first (ih' second)
    rwa [show i' + (j' + j) + 1 = i' + j' + 1 + j by omega] at whole

theorem exists_leads_of_append {steps steps' : List Text} (leads : Leads disk k here (steps ++ steps') q) :
    ∃ mid i j, i + j = k ∧ Leads disk i here steps mid ∧ Leads disk j mid steps' q := by
  induction steps generalizing here k with
  | nil => exact ⟨here, 0, k, Nat.zero_add k, .arrive, leads⟩
  | cons name steps ih =>
    cases leads with
    | slash isDirectory later =>
      obtain ⟨mid, i, j, count, first, second⟩ := ih later
      exact ⟨mid, i, j, count, .slash isDirectory first, second⟩
    | stay inside later =>
      obtain ⟨mid, i, j, count, first, second⟩ := ih later
      exact ⟨mid, i, j, count, .stay inside first, second⟩
    | up inside later =>
      obtain ⟨mid, i, j, count, first, second⟩ := ih later
      exact ⟨mid, i, j, count, .up inside first, second⟩
    | down inside named found plain later =>
      obtain ⟨mid, i, j, count, first, second⟩ := ih later
      exact ⟨mid, i, j, count, .down inside named found plain first, second⟩
    | link inside named found first later =>
      obtain ⟨mid, i, j, count, second, third⟩ := ih later
      exact ⟨mid, _, j, by omega, .link inside named found first second, third⟩

/-- What is followed to a place leads to it, without more links than there were to use up. -/
theorem leads_of_follow {links : Nat} {steps : List Text} (followed : disk.follow links here steps = .ok q) :
    ∃ k ≤ links, Leads disk k here steps q := by
  induction links using Nat.strongRecOn generalizing here steps with
  | ind links ih =>
  induction steps generalizing here with
  | nil =>
    rw [follow_nil] at followed
    cases followed
    exact ⟨0, Nat.zero_le _, .arrive⟩
  | cons name steps inner =>
    by_cases slash : name = []
    · subst slash
      cases found : disk.find here with
      | error obstacle =>
        rw [follow_obstacle (by rw [advance, found])] at followed
        cases followed
      | ok node =>
        cases node with
        | directory entries locked =>
          rw [follow_congr (advance_slash found)] at followed
          obtain ⟨k, few, leads⟩ := inner followed
          exact ⟨k, few, .slash found leads⟩
        | _ =>
          rw [follow_obstacle (by rw [advance, found])] at followed
          cases followed
    · cases inside : disk.enter here with
      | error obstacle =>
        rw [follow_obstacle (by rw [advance.eq_3 _ _ _ _ slash, inside])] at followed
        cases followed
      | ok _ =>
        by_cases same : name = sameName
        · subst same
          rw [follow_congr (advance_stay inside)] at followed
          obtain ⟨k, few, leads⟩ := inner followed
          exact ⟨k, few, .stay inside leads⟩
        by_cases parent : name = Path.parentName
        · subst parent
          rw [follow_congr (advance_up inside)] at followed
          obtain ⟨k, few, leads⟩ := inner followed
          exact ⟨k, few, .up inside leads⟩
        by_cases long : Path.maxNameBytes < Path.bytes name
        · have stopped : disk.advance here (name :: steps) = .error .tooLong := by
            rw [advance.eq_3 _ _ _ _ slash, inside]
            simp [same, parent, long]
          rw [follow_obstacle stopped] at followed
          cases followed
        have named : IsName name := ⟨slash, same, parent, Nat.not_lt.mp long⟩
        cases found : disk.find (here ++ [name]) with
        | error obstacle =>
          rw [follow_obstacle (advance_missing inside named found)] at followed
          cases followed
        | ok node =>
          by_cases linked : ∃ target, node = .link target
          · obtain ⟨target, rfl⟩ := linked
            cases links with
            | zero =>
              rw [follow_link_zero inside named found] at followed
              cases followed
            | succ links =>
              rw [follow_link inside named found] at followed
              obtain ⟨k, few, leads⟩ := ih links (Nat.lt_succ_self links) followed
              obtain ⟨mid, i, j, count, first, later⟩ := exists_leads_of_append leads
              exact ⟨i + j + 1, by omega, .link inside named found first later⟩
          · have plain : ∀ target, node ≠ .link target := fun target same => linked ⟨target, same⟩
            rw [follow_congr (advance_down inside named found plain)] at followed
            obtain ⟨k, few, leads⟩ := inner followed
            exact ⟨k, few, .down inside named found plain leads⟩

/-! ### Places without links -/

/-- A place whose names lead to it, none of them by a link. -/
inductive Real (disk : Node) : Place → Prop
  | root : Real disk []
  | child {here : Place} {name : Text} {node : Node} (above : Real disk here) (inside : disk.enter here = .ok ())
      (named : IsName name) (found : disk.find (here ++ [name]) = .ok node) (plain : ∀ target, node ≠ .link target) :
      Real disk (here ++ [name])

theorem leads_of_real (real : Real disk q) : Leads disk 0 [] q q := by
  induction real with
  | root => exact .arrive
  | child above inside named found plain ih => exact leads_append ih (.down inside named found plain .arrive)

theorem isName_of_real (real : Real disk q) : ∀ name ∈ q, IsName name := by
  induction real with
  | root => simp
  | child above inside named found plain ih =>
    intro other member
    rcases List.mem_append.mp member with earlier | last
    · exact ih other earlier
    · rwa [List.mem_singleton.mp last]

theorem real_dropLast (real : Real disk q) : Real disk q.dropLast := by
  cases real with
  | root => exact .root
  | child above inside named found plain => rwa [List.dropLast_concat]

theorem real_linkStart (real : Real disk here) (target : Text) : Real disk (linkStart here target) := by
  unfold linkStart
  split
  · exact .root
  · exact real

theorem real_of_leads {steps : List Text} (leads : Leads disk k here steps q) (real : Real disk here) : Real disk q := by
  induction leads with
  | arrive => exact real
  | slash _ _ ih => exact ih real
  | stay _ _ ih => exact ih real
  | up _ _ ih => exact ih (real_dropLast real)
  | down inside named found plain _ ih => exact ih (.child real inside named found plain)
  | link _ _ _ _ _ ih ih' => exact ih' (ih (real_linkStart real _))

end Node

/-! ### Paths as places -/

namespace Path

theorem normal_child (here : List Text) (p : Path) {name : Text} (other : name ≠ parentName) :
    (p.child name).normal here = (p.normal here).child name := by
  by_cases relative : p.slashes = 0
  · simp [normal, child, relative, ← List.append_assoc, List.foldl_append, other]
  · simp [normal, child, relative, List.foldl_append, other]

theorem normal_child_parent (here : List Text) (p : Path) :
    (p.child parentName).normal here = (p.normal here).parent := by
  by_cases relative : p.slashes = 0
  · simp [normal, child, relative, ← List.append_assoc, List.foldl_append]
  · simp [normal, child, relative, List.foldl_append]

theorem foldl_names {names : List Text} (plain : parentName ∉ names) (q : Path) :
    names.foldl (fun q name => if name = parentName then q.parent else q.child name) q = ⟨q.slashes, q.names ++ names⟩ := by
  induction names generalizing q with
  | nil => simp
  | cons name names ih =>
    have other : name ≠ parentName := fun same => plain (same ▸ List.mem_cons_self)
    have later : parentName ∉ names := fun member => plain (List.mem_cons_of_mem name member)
    rw [List.foldl_cons, if_neg other, ih later]
    simp [child]

theorem parent_absolute (here : List Text) : (absolute here).parent = absolute here.dropLast := by
  simp [parent, absolute]

end Path

namespace Node

/-- A path on the way of resolving one stands for a place: relative to the working directory `cwd`, or absolute. -/
structure Stands (cwd : Place) (p : Path) (here : Place) : Prop where
  flat : p.slashes ≤ 1
  clean : p.slashes = 1 → Path.parentName ∉ p.names
  normal_eq : p.normal cwd = .absolute here

variable {disk : Node} {here q cwd : Place} {name : Text} {rest : List Text} {k : Nat} {p : Path}

theorem stands_child (stands : Stands cwd p here) (other : name ≠ Path.parentName) :
    Stands cwd (p.child name) (here ++ [name]) where
  flat := stands.flat
  clean absolute := by
    have names := stands.clean absolute
    simp [Path.child, names, other.symm]
  normal_eq := by
    rw [Path.normal_child cwd p other, stands.normal_eq]
    rfl

theorem stands_parent (stands : Stands cwd p here) : Stands cwd p.parent here.dropLast := by
  by_cases below : p.slashes = 0 ∧ (p.names = [] ∨ p.name = Path.parentName)
  · rw [Path.parent, if_pos below]
    refine ⟨stands.flat, fun absolute => absurd (below.1 ▸ absolute : 0 = 1) (by decide), ?_⟩
    rw [Path.normal_child_parent, stands.normal_eq, Path.parent_absolute]
  · rw [Path.parent, if_neg below]
    refine ⟨stands.flat, fun absolute member => stands.clean absolute ((List.dropLast_sublist _).mem member), ?_⟩
    obtain ⟨slashes, names⟩ := p
    by_cases empty : names = []
    · subst empty
      -- Only an absolute path without names is left, and it stands for the root.
      have absolute : slashes = 1 := by
        have flat := stands.flat
        simp only [true_or, and_true] at below
        simp only at flat
        omega
      subst absolute
      have root : here = [] := by
        have whole := stands.normal_eq
        simpa [Path.normal, Path.absolute] using whole
      rw [root]
      rfl
    · obtain ⟨earlier, last, rfl⟩ : ∃ earlier last, names = earlier ++ [last] :=
        ⟨_, _, (List.dropLast_concat_getLast empty).symm⟩
      have other : last ≠ Path.parentName := by
        rintro rfl
        by_cases relative : slashes = 0
        · exact below ⟨relative, .inr (by simp [Path.name])⟩
        · have flat := stands.flat
          simp only at flat
          exact stands.clean (by simp only; omega) (by simp)
      have whole := stands.normal_eq
      have split : (⟨slashes, earlier ++ [last]⟩ : Path) = Path.child ⟨slashes, earlier⟩ last := rfl
      rw [split, Path.normal_child cwd _ other] at whole
      simp only [Path.child, Path.absolute, Path.mk.injEq] at whole
      rw [List.dropLast_concat, ← whole.2, List.dropLast_concat]
      exact congrArg (fun slashes => Path.mk slashes _) whole.1

theorem stands_here (real : Real disk cwd) : Stands cwd ⟨0, []⟩ cwd := by
  refine ⟨Nat.zero_le 1, by simp, ?_⟩
  have names : Path.parentName ∉ cwd := fun member => (isName_of_real real _ member).not_parent rfl
  simpa [Path.normal, Path.absolute] using Path.foldl_names names ⟨1, []⟩

theorem stands_linkStart (stands : Stands cwd p here) (target : Text) :
    Stands cwd (if target.head? = some '/' then .absolute [] else p) (linkStart here target) := by
  unfold linkStart
  split
  · exact ⟨Nat.le_refl 1, by simp [Path.absolute], rfl⟩
  · exact stands

/-! ### Resolving -/

section Steps
variable {expand : (link above : Path) → (target : Text) → Resolved}

theorem resolveSteps_skip (skipped : name = [] ∨ name = sameName) :
    disk.resolveSteps cwd expand p (name :: rest) = disk.resolveSteps cwd expand p rest := by
  rw [resolveSteps, if_pos skipped]

theorem resolveSteps_up :
    disk.resolveSteps cwd expand p (Path.parentName :: rest) = disk.resolveSteps cwd expand p.parent rest := by
  rw [resolveSteps, if_neg (by decide), if_pos rfl]

theorem resolveSteps_down {node : Node} (named : IsName name) (stands : Stands cwd p here)
    (found : disk.find (here ++ [name]) = .ok node) (plain : ∀ target, node ≠ .link target) :
    disk.resolveSteps cwd expand p (name :: rest) = disk.resolveSteps cwd expand (p.child name) rest := by
  have place := (stands_child stands named.not_parent).normal_eq
  rw [resolveSteps, if_neg (by simp [named.nonempty, named.not_same]), if_neg named.not_parent, place]
  simp only [Path.absolute, found]
  cases node with
  | link target => exact absurd rfl (plain target)
  | _ => rfl

theorem resolveSteps_link {target : Text} {r : Path} (named : IsName name) (stands : Stands cwd p here)
    (found : disk.find (here ++ [name]) = .ok (.link target)) (expanded : expand (p.child name) p target = .path r) :
    disk.resolveSteps cwd expand p (name :: rest) = disk.resolveSteps cwd expand r rest := by
  have place := (stands_child stands named.not_parent).normal_eq
  rw [resolveSteps, if_neg (by simp [named.nonempty, named.not_same]), if_neg named.not_parent, place]
  simp only [Path.absolute, found, expanded]

end Steps

/-- A link that is being replaced needs at least a number of other links. -/
def Needs (disk : Node) (cwd : Place) (k : Nat) (link : Path) : Prop :=
  ∃ above name target, link.normal cwd = .absolute (above ++ [name]) ∧ disk.find (above ++ [name]) = .ok (.link target) ∧
    ∀ links < k, disk.follow links (linkStart above target) (Text.fields '/' target) = .error .loop

theorem needs_mono {k' : Nat} {link : Path} (le : k' ≤ k) (needs : Needs disk cwd k link) : Needs disk cwd k' link := by
  obtain ⟨above, name, target, place, found, looped⟩ := needs
  exact ⟨above, name, target, place, found, fun links few => looped links (Nat.lt_of_lt_of_le few le)⟩

/-- Paths are resolved to where they lead. A link that is being replaced is not met again: it would need fewer links than it
    needs. -/
theorem resolveFrom_of_leads {steps : List Text} (leads : Leads disk k here steps q) (depth : Nat) (active : List Path)
    (stands : Stands cwd p here) (enough : k ≤ depth) (needs : ∀ link ∈ active, Needs disk cwd k link) :
    ∃ r, disk.resolveFrom cwd depth active p steps = .path r ∧ Stands cwd r q := by
  induction leads generalizing depth active p with
  | arrive => exact ⟨p, by rw [resolveFrom]; rfl, stands⟩
  | slash isDirectory later ih =>
    rw [resolveFrom, resolveSteps_skip (.inl rfl), ← resolveFrom]
    exact ih depth active stands enough needs
  | stay inside later ih =>
    rw [resolveFrom, resolveSteps_skip (.inr rfl), ← resolveFrom]
    exact ih depth active stands enough needs
  | up inside later ih =>
    rw [resolveFrom, resolveSteps_up, ← resolveFrom]
    exact ih depth active (stands_parent stands) enough needs
  | down inside named found plain later ih =>
    rw [resolveFrom, resolveSteps_down named stands found plain, ← resolveFrom]
    exact ih depth active (stands_child stands named.not_parent) enough needs
  | @link i j here mid q name target steps inside named found first later ih ih' =>
    have place := (stands_child stands named.not_parent).normal_eq
    have followed : ∀ links, disk.follow links (linkStart here target) (Text.fields '/' target) =
        if i ≤ links then .ok mid else .error .loop := by
      intro links
      have whole := follow_of_leads first links []
      rwa [List.append_nil, follow_nil] at whole
    have fresh : p.child name ∉ active := by
      intro member
      obtain ⟨above, other, target', place', found', looped⟩ := needs _ member
      rw [place, Path.absolute, Path.absolute, Path.mk.injEq] at place'
      obtain ⟨rfl, same⟩ := List.append_inj' place'.2 rfl
      cases same
      rw [found] at found'
      cases found'
      have again := looped i (by omega)
      rw [followed, if_pos (Nat.le_refl i)] at again
      cases again
    obtain ⟨depth, rfl⟩ : ∃ d, depth = d + 1 := ⟨depth - 1, by omega⟩
    have needs' : ∀ link ∈ p.child name :: active, Needs disk cwd i link := by
      intro link member
      rcases List.mem_cons.mp member with rfl | earlier
      · exact ⟨here, name, target, place, found, fun links few => by rw [followed, if_neg (by omega)]⟩
      · exact needs_mono (by omega) (needs link earlier)
    obtain ⟨r, resolved, stands'⟩ := ih depth (p.child name :: active) (stands_linkStart stands target) (by omega) needs'
    have rest := ih' (depth + 1) active stands' (by omega) fun link member => needs_mono (by omega) (needs link member)
    rw [resolveFrom] at rest ⊢
    rwa [resolveSteps_link named stands found (r := r)]
    simp [fresh, resolved]

/-! ### Fewer links -/

/-- With fewer links that may lead on to each other, a path is resolved to the same or there are too many of them. -/
theorem resolveSteps_less {expand expand' : Path → Path → Text → Resolved}
    (less : ∀ link above target, expand link above target = expand' link above target ∨ expand link above target = .tooDeep)
    (p : Path) (steps : List Text) :
    disk.resolveSteps cwd expand p steps = disk.resolveSteps cwd expand' p steps ∨
      disk.resolveSteps cwd expand p steps = .tooDeep := by
  induction steps generalizing p with
  | nil => exact .inl rfl
  | cons name rest ih =>
    rw [resolveSteps, resolveSteps]
    split
    · exact ih p
    · split
      · exact ih p.parent
      · split
        · rename_i target _
          rcases less (p.child name) p target with same | deep
          · rw [same]
            split
            · rename_i q _
              exact ih q
            · exact .inl rfl
            · exact .inl rfl
          · rw [deep]
            exact .inr rfl
        · exact ih (p.child name)

theorem resolveFrom_less {depth depth' : Nat} (less : depth ≤ depth') (active : List Path) (p : Path) (steps : List Text) :
    disk.resolveFrom cwd depth active p steps = disk.resolveFrom cwd depth' active p steps ∨
      disk.resolveFrom cwd depth active p steps = .tooDeep := by
  induction depth generalizing depth' active p steps with
  | zero =>
    rw [resolveFrom.eq_def disk cwd depth', resolveFrom.eq_def disk cwd 0]
    refine resolveSteps_less (fun link above target => ?_) p steps
    split
    · exact .inl rfl
    · exact .inr rfl
  | succ depth ih =>
    obtain ⟨more, rfl⟩ := Nat.exists_eq_add_of_le less
    rw [resolveFrom.eq_def disk cwd (depth + 1), resolveFrom.eq_def disk cwd (depth + 1 + more), Nat.add_right_comm]
    refine resolveSteps_less (fun link above target => ?_) p steps
    split
    · exact .inl rfl
    · exact ih (Nat.le_add_right depth more) _ _ _

end Node

namespace World
open Node

/-- Where a path starts. -/
def start (w : World) (p : Path) : Place :=
  if p.slashes = 0 then w.here else []

/-- A path leads to a place, without more links than can be followed. -/
def LeadsTo (w : World) (p : Path) (q : Place) : Prop :=
  ∃ k ≤ maxLinks, Leads w.disk k (w.start p) p.names q

variable {w : World} {p : Path} {q : Place} {name : Text} {k : Nat}

theorem real_start (here : Real w.disk w.here) (p : Path) : Real w.disk (w.start p) := by
  unfold start
  split
  · exact here
  · exact .root

theorem follow_start (here : Real w.disk w.here) (p : Path) (links : Nat) (rest : List Text) :
    w.disk.follow links [] (w.place p ++ rest) = w.disk.follow links (w.start p) (p.names ++ rest) := by
  have started := follow_of_leads (leads_of_real (real_start here p)) links (p.names ++ rest)
  rw [if_pos (Nat.zero_le links), Nat.sub_zero] at started
  rw [← started]
  unfold place start
  split <;> simp

theorem stat_of_leadsTo (here : Real w.disk w.here) (leads : w.LeadsTo p q) (short : Path.bytes p.toText ≤ Path.maxBytes) :
    w.stat p = w.disk.find q := by
  obtain ⟨k, few, leads⟩ := leads
  have followed := follow_start here p maxLinks []
  rw [follow_of_leads leads, if_pos few, follow_nil, List.append_nil] at followed
  rw [World.stat, if_neg (Nat.not_lt.mpr short), Node.stat, followed]
  rfl

theorem leadsTo_of_stat (here : Real w.disk w.here) {node : Node} (found : w.stat p = .ok node) :
    ∃ q, w.LeadsTo p q ∧ w.disk.find q = .ok node := by
  unfold World.stat Node.stat at found
  split at found
  · cases found
  · have started := follow_start here p maxLinks []
    rw [List.append_nil, List.append_nil] at started
    rw [started] at found
    cases followed : w.disk.follow maxLinks (w.start p) p.names with
    | error obstacle =>
      rw [followed] at found
      cases found
    | ok q =>
      rw [followed] at found
      exact ⟨q, leads_of_follow followed, found⟩

theorem real_of_leadsTo (here : Real w.disk w.here) (leads : w.LeadsTo p q) : Real w.disk q := by
  obtain ⟨k, _, leads⟩ := leads
  exact real_of_leads leads (real_start here p)

theorem resolve_of_leads (here : Real w.disk w.here) (leads : Leads w.disk k (w.start p) p.names q) {depth : Nat}
    (enough : k ≤ depth) : w.resolve depth p = .path (.absolute q) := by
  have stands : Stands w.here ⟨min p.slashes 1, []⟩ (w.start p) := by
    unfold start
    split
    · rename_i relative
      rw [relative]
      exact stands_here here
    · rename_i absolute
      rw [Nat.min_eq_right (by omega)]
      exact ⟨Nat.le_refl 1, by simp, rfl⟩
  obtain ⟨r, resolved, stands'⟩ := resolveFrom_of_leads leads depth [] stands enough (by simp)
  rw [World.resolve, Node.resolve, resolved]
  simp only [stands'.normal_eq]

theorem resolve_less {links links' : Nat} (less : links ≤ links') (p : Path) :
    w.resolve links p = w.resolve links' p ∨ w.resolve links p = .tooDeep := by
  rw [World.resolve, World.resolve, Node.resolve, Node.resolve]
  rcases @resolveFrom_less w.disk w.here links links' less [] ⟨min p.slashes 1, []⟩ p.names with same | deep
  · rw [same]
    exact .inl rfl
  · rw [deep]
    exact .inr rfl

end World

end CMakeLint
