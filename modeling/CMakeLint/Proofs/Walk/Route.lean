import CMakeLint.Run.Walk

/-!
The route of a walk: all entries below a directory in one list, each with the number of directories around it. A walk follows
this list (`walk_eq_follow`). To leave a directory is to drop what comes next as long as it is no higher up.
-/
namespace CMakeLint.Walk

/-- An entry on the way: how many directories below the first one it is in, and what is to be done about it. -/
structure Stop where
  level : Nat
  errand : Except Failure Errand

/-- Does what is to be done at a stop. The entries of a directory are stops of their own. -/
def Stop.act (limit : Option Int) (s : Stop) : Walk Flow := do
  let errand ← MonadExcept.ofExcept s.errand
  perform limit (fun _ => return ()) errand

/-- What comes after all entries at a level and below it. -/
def leaving (level : Nat) (stops : List Stop) : List Stop :=
  stops.dropWhile (level ≤ ·.level)

/-- Where a walk goes on after a stop at a level: at the next one, or after the directory if that is left. -/
def after (level : Nat) (rest : List Stop) : Flow → List Stop
  | .next => rest
  | .leave => leaving level rest

theorem after_length_le (level : Nat) (rest : List Stop) (flow : Flow) : (after level rest flow).length ≤ rest.length := by
  cases flow with
  | next => exact Nat.le_refl _
  | leave => exact (List.dropWhile_suffix _).length_le

/-- Takes an entry, unless the run is interrupted, which makes it leave the directory. -/
def take (w : World) (visit : Walk Flow) : Walk Flow := do
  if ← takeEntry w then return .leave
  else visit

/-- Goes from stop to stop. -/
def follow (w : World) (limit : Option Int) : List Stop → Walk Unit
  | [] => return ()
  | s :: rest => do
    let flow ← take w (s.act limit)
    follow w limit (after s.level rest flow)
  termination_by stops => stops.length
  decreasing_by
    exact Nat.lt_succ_of_le (after_length_le s.level rest flow)

/-- The stop of an entry and, if it is a directory, the stops in it. A directory that cannot be listed is one stop. -/
def entryStops (level : Nat) (inside : Path → Except Failure (List Stop)) : Except Failure Errand → List Stop
  | .ok (.descend path) =>
    match inside path with
    | .ok stops => ⟨level, .ok (.descend path)⟩ :: stops
    | .error f => [⟨level, .error f⟩]
  | errand => [⟨level, errand⟩]

/-- All stops below a directory, as far as a walk of this depth goes. -/
def route (plan : Plan) : (depth level : Nat) → Path → Except Failure (List Stop)
  | 0, level, directory => do
    let names ← list plan.world directory
    return names.map fun _ => ⟨level, .error .tooDeep⟩
  | depth + 1, level, directory => do
    let names ← list plan.world directory
    return names.flatMap fun name =>
      entryStops level (route plan depth (level + 1)) (plan.errand (depth + 1) (directory.child name))

/-! ### Leaving a directory -/

/-- What follows the entries of a directory is higher up. -/
def EndsAbove (level : Nat) (rest : List Stop) : Prop :=
  ∀ s ∈ rest.head?, s.level < level

theorem leaving_append {level : Nat} {stops rest : List Stop} (inside : ∀ s ∈ stops, level ≤ s.level) :
    leaving level (stops ++ rest) = leaving level rest :=
  List.dropWhile_append_of_pos fun s member => decide_eq_true (inside s member)

theorem leaving_of_endsAbove {level : Nat} {rest : List Stop} (above : EndsAbove level rest) : leaving level rest = rest := by
  cases rest with
  | nil => rfl
  | cons s rest =>
    have higher := above s rfl
    exact List.dropWhile_cons_of_neg (by simpa using higher)

section Entries
variable {level : Nat} {inside : Path → Except Failure (List Stop)}

theorem entryStops_head (errand : Except Failure Errand) :
    ∃ s rest, entryStops level inside errand = s :: rest ∧ s.level = level := by
  unfold entryStops
  split
  · split
    · exact ⟨_, _, rfl, rfl⟩
    · exact ⟨_, _, rfl, rfl⟩
  · exact ⟨_, _, rfl, rfl⟩

theorem level_le_entryStops (below : ∀ path stops, inside path = .ok stops → ∀ s ∈ stops, level ≤ s.level)
    (errand : Except Failure Errand) : ∀ s ∈ entryStops level inside errand, level ≤ s.level := by
  intro s member
  unfold entryStops at member
  split at member
  · rename_i path
    split at member
    · rename_i stops listed
      rcases List.mem_cons.mp member with rfl | deeper
      · exact Nat.le_refl level
      · exact below path stops listed s deeper
    · obtain rfl := List.mem_singleton.mp member
      exact Nat.le_refl level
  · obtain rfl := List.mem_singleton.mp member
    exact Nat.le_refl level

end Entries

theorem level_le_route {plan : Plan} {depth level : Nat} {directory : Path} {stops : List Stop}
    (listed : route plan depth level directory = .ok stops) : ∀ s ∈ stops, level ≤ s.level := by
  induction depth generalizing level directory stops with
  | zero =>
    rw [route] at listed
    cases names : list plan.world directory with
    | error f =>
      rw [names] at listed
      cases listed
    | ok names' =>
      rw [names] at listed
      cases listed
      intro s member
      obtain ⟨_, _, rfl⟩ := List.mem_map.mp member
      exact Nat.le_refl level
  | succ depth ih =>
    rw [route] at listed
    cases names : list plan.world directory with
    | error f =>
      rw [names] at listed
      cases listed
    | ok names' =>
      rw [names] at listed
      cases listed
      intro s member
      obtain ⟨name, _, member⟩ := List.mem_flatMap.mp member
      refine level_le_entryStops (fun path stops listed s member => ?_) _ s member
      exact Nat.le_of_succ_le (ih listed s member)

/-! ### A walk follows its route -/

/-- To take an entry is to follow its stops, whatever comes after them in the directory and above. -/
def Follows (w : World) (limit : Option Int) (level : Nat) (visit : Walk Flow) (stops : List Stop) : Prop :=
  ∀ rest, EndsAbove (level + 1) rest →
    follow w limit (stops ++ rest) = do
      let flow ← take w visit
      follow w limit (after level rest flow)

variable {w : World} {limit : Option Int} {level : Nat}

theorem follows_single (errand : Except Failure Errand) {visit : Walk Flow} (same : visit = Stop.act limit ⟨level, errand⟩) :
    Follows w limit level visit [⟨level, errand⟩] := by
  intro rest _
  rw [List.singleton_append, follow, same]

/-- It is enough to look at an entry that is not interrupted. -/
theorem take_bind_congr {visit visit' : Walk Flow} {next next' : Flow → Walk Unit} (left : next .leave = next' .leave)
    (same : (do let flow ← visit; next flow) = (do let flow ← visit'; next' flow : Walk Unit)) :
    (do let flow ← take w visit; next flow) = (do let flow ← take w visit'; next' flow : Walk Unit) := by
  rw [take, take, bind_assoc, bind_assoc]
  refine bind_congr fun interrupted => ?_
  cases interrupted with
  | true =>
    simp only [↓reduceIte, pure_bind]
    exact left
  | false => exact same

theorem follows_descend {path : Path} {descend : Walk Unit} {stops : List Stop} (deeper : ∀ s ∈ stops, level ≤ s.level)
    (walked : ∀ rest, EndsAbove (level + 1) rest →
      follow w limit (stops ++ rest) = do descend; follow w limit rest) :
    Follows w limit level (do descend; return .next) (⟨level, .ok (.descend path)⟩ :: stops) := by
  intro rest above
  rw [List.cons_append, follow]
  refine take_bind_congr (congrArg (follow w limit) (leaving_append deeper)) ?_
  have arrived : Stop.act limit ⟨level, .ok (.descend path)⟩ = pure .next := rfl
  rw [arrived, pure_bind, bind_assoc]
  simp only [pure_bind]
  exact walked rest above

theorem follows_failure {f : Failure} {descend : Walk Unit}
    (walked : ∀ rest, EndsAbove (level + 1) rest → throw f = do descend; follow w limit rest) :
    Follows w limit level (do descend; return .next) [⟨level, .error f⟩] := by
  intro rest above
  rw [List.singleton_append, follow]
  refine take_bind_congr rfl ?_
  rw [bind_assoc]
  simp only [pure_bind]
  exact walked rest above

/-- An entry is taken by following its stops if a directory is walked through by following those in it. -/
theorem follows_entryStops {inside : Path → Except Failure (List Stop)} {descend : Path → Walk Unit}
    (deeper : ∀ path stops, inside path = .ok stops → ∀ s ∈ stops, level ≤ s.level)
    (walked : ∀ path rest, EndsAbove (level + 1) rest →
      (do let stops ← MonadExcept.ofExcept (inside path); follow w limit (stops ++ rest)) =
        (do descend path; follow w limit rest : Walk Unit))
    (errand : Except Failure Errand) :
    Follows w limit level (do let errand ← MonadExcept.ofExcept errand; perform limit descend errand)
      (entryStops level inside errand) := by
  cases errand with
  | error f => exact follows_single (.error f) rfl
  | ok e =>
    cases e with
    | nothing => exact follows_single (.ok .nothing) rfl
    | skip place reason => exact follows_single (.ok (.skip place reason)) rfl
    | check path place content locked => exact follows_single (.ok (.check path place content locked)) rfl
    | descend path =>
      cases listed : inside path with
      | ok stops =>
        rw [entryStops, listed]
        refine follows_descend (deeper path stops listed) fun rest above => ?_
        rw [← walked path rest above, listed]
        rfl
      | error f =>
        rw [entryStops, listed]
        refine follows_failure fun rest above => ?_
        rw [← walked path rest above, listed]
        rfl

theorem visitEntries_follow (visit : Path → Walk Flow) (directory : Path) {stopsOf : Text → List Stop}
    (levels : ∀ name, ∀ s ∈ stopsOf name, level ≤ s.level)
    (heads : ∀ name, ∃ s rest, stopsOf name = s :: rest ∧ s.level = level)
    (follows : ∀ name, Follows w limit level (visit (directory.child name)) (stopsOf name)) (names : List Text)
    {rest : List Stop} (above : EndsAbove level rest) :
    follow w limit (names.flatMap stopsOf ++ rest) = (do visitEntries w visit directory names; follow w limit rest) := by
  induction names with
  | nil => rfl
  | cons name names ih =>
    have later : EndsAbove (level + 1) (names.flatMap stopsOf ++ rest) := by
      intro s first
      cases names with
      | nil => exact Nat.lt_succ_of_lt (above s first)
      | cons next names =>
        obtain ⟨head, tail, split, same⟩ := heads next
        rw [List.flatMap_cons, split] at first
        cases first
        omega
    -- All other entries of the directory are dropped, and nothing after them, as that is higher up.
    have left : leaving level (names.flatMap stopsOf ++ rest) = rest := by
      rw [leaving_append, leaving_of_endsAbove above]
      intro s member
      obtain ⟨name, _, member⟩ := List.mem_flatMap.mp member
      exact levels name s member
    rw [List.flatMap_cons, List.append_assoc, follows name _ later, visitEntries, take, bind_assoc, bind_assoc]
    refine bind_congr fun interrupted => ?_
    cases interrupted with
    | true =>
      simp only [↓reduceIte, pure_bind]
      exact congrArg (follow w limit) left
    | false =>
      simp only [Bool.false_eq_true, ↓reduceIte, bind_assoc]
      refine bind_congr fun flow => ?_
      cases flow with
      | next => exact ih
      | leave => exact congrArg (follow w limit) left

/-- A walk through a directory follows the route in it. -/
theorem walk_follow (plan : Plan) (depth level : Nat) (directory : Path) (rest : List Stop) (above : EndsAbove level rest) :
    (do
      let stops ← MonadExcept.ofExcept (route plan depth level directory)
      follow plan.world plan.options.limit (stops ++ rest)) =
      (do walk plan depth directory; follow plan.world plan.options.limit rest : Walk Unit) := by
  induction depth generalizing level directory rest with
  | zero =>
    rw [route, walk]
    cases names : list plan.world directory with
    | error f => rfl
    | ok names' =>
      have tooDeep : ∀ name, Follows plan.world plan.options.limit level ((fun _ => throw .tooDeep) (directory.child name))
          [⟨level, .error .tooDeep⟩] := fun _ => follows_single (.error .tooDeep) rfl
      have levels : ∀ _ : Text, ∀ s ∈ [(⟨level, .error .tooDeep⟩ : Stop)], level ≤ s.level := by simp
      have followed := visitEntries_follow (fun _ => throw .tooDeep) directory levels (fun _ => ⟨_, _, rfl, rfl⟩) tooDeep
        names' above
      rw [← List.map_eq_flatMap] at followed
      exact followed
  | succ depth ih =>
    rw [route, walk]
    cases names : list plan.world directory with
    | error f => rfl
    | ok names' =>
      have deeper : ∀ path stops, route plan depth (level + 1) path = .ok stops → ∀ s ∈ stops, level ≤ s.level :=
        fun path stops listed s member => Nat.le_of_succ_le (level_le_route listed s member)
      exact visitEntries_follow (visitEntry plan (depth + 1) (walk plan depth)) directory
        (fun name => level_le_entryStops deeper _) (fun name => entryStops_head _)
        (fun name => follows_entryStops deeper (fun path rest above => ih (level + 1) path rest above) _) names' above

/-- A walk is to follow its route, if its directory can be listed. -/
theorem walk_eq_follow (plan : Plan) (depth : Nat) (directory : Path) :
    walk plan depth directory = (do
      let stops ← MonadExcept.ofExcept (route plan depth 0 directory)
      follow plan.world plan.options.limit stops) := by
  have whole := walk_follow plan depth 0 directory [] (by simp [EndsAbove])
  simp only [List.append_nil, follow] at whole
  rw [whole]
  exact (bind_pure _).symm

/-! ### Walks with other limits -/

/-- The same plan with another limit. -/
def Plan.limitedTo (plan : Plan) (limit : Int) : Plan :=
  { plan with options := { plan.options with limit := some limit } }

/-- The route depends on a plan by what is listed and what is to be done about entries. -/
theorem route_congr {plan plan' : Plan} (lists : ∀ directory, list plan.world directory = list plan'.world directory)
    (errands : ∀ links entry, plan.errand links entry = plan'.errand links entry) (depth level : Nat) (directory : Path) :
    route plan depth level directory = route plan' depth level directory := by
  induction depth generalizing level directory with
  | zero => rw [route, route, lists]
  | succ depth ih =>
    have inside : route plan depth (level + 1) = route plan' depth (level + 1) := funext (ih (level + 1))
    simp only [route, lists, errands, inside]

/-- The route does not depend on the limit. -/
theorem route_limitedTo (plan : Plan) (limit : Int) (depth level : Nat) (directory : Path) :
    route (plan.limitedTo limit) depth level directory = route plan depth level directory := by
  have lists : ∀ directory, list (plan.limitedTo limit).world directory = list plan.world directory := fun _ => rfl
  have errands : ∀ links entry, (plan.limitedTo limit).errand links entry = plan.errand links entry := fun _ _ => rfl
  exact route_congr lists errands depth level directory

end CMakeLint.Walk
