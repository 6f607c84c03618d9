import CMakeLint.Proofs.Disk.Removal
import CMakeLint.Proofs.Walk.Limit

/-!
Walks in two worlds in which the same is found, but for the entries of directories. What is to be done about an entry is the
same in both (`errand_agrees`), so the routes are the same as well if directories list the same entries (`route_agrees`).
-/
namespace CMakeLint.Walk

/-! ### Marks -/

theorem mem_marks {isRepository : Bool} {mark : String × (Node → Bool) × Skip} (member : mark ∈ marks isRepository) :
    mark ∈ marks true := by
  cases isRepository with
  | true => exact member
  | false => exact List.mem_cons_of_mem _ member

theorem condition_alike {mark : String × (Node → Bool) × Skip} (member : mark ∈ marks true) {node node' : Node}
    (alike : Node.Alike node node') : mark.2.1 node = mark.2.1 node' := by
  cases alike with
  | same => rfl
  | directory entries entries' locked =>
    simp only [marks, ↓reduceIte, List.cons_append, List.nil_append, List.mem_cons, List.not_mem_nil, or_false] at member
    rcases member with rfl | rfl | rfl | rfl | rfl | rfl | rfl | rfl <;> rfl

/-- A mark is seen in two worlds alike if the same is found there. -/
theorem probe_alike {w w' : World} {path : Path} {found found' : Except Obstacle Node} (looked : w.stat path = found)
    (looked' : w'.stat path = found') (corresponds : Node.Corresponds Node.Alike found found')
    {mark : String × (Node → Bool) × Skip} (member : mark ∈ marks true) : probe w path mark.2.1 = probe w' path mark.2.1 := by
  unfold probe
  rw [looked, looked']
  obtain ⟨obstacle, rfl, rfl⟩ | ⟨node, node', rfl, rfl, alike⟩ := Node.corresponds_cases corresponds
  · rfl
  · exact congrArg Except.ok (condition_alike member alike)

theorem firstMark_congr {w w' : World} {path : Path} {ms : List (String × (Node → Bool) × Skip)}
    (same : ∀ mark ∈ ms, probe w (path.child mark.1.toList) mark.2.1 = probe w' (path.child mark.1.toList) mark.2.1) :
    firstMark w path ms = firstMark w' path ms := by
  induction ms with
  | nil => rfl
  | cons mark rest ih =>
    simp only [firstMark]
    rw [same mark List.mem_cons_self, ih fun mark member => same mark (List.mem_cons_of_mem _ member)]

/-! ### Plans -/

/-- Two plans that go by the same root and the same options for a walk, in worlds in which the same is found. -/
structure Agrees (plan plan' : Plan) : Prop where
  root_eq : plan.root = plan'.root
  isRepository_eq : plan.isRepository = plan'.isRepository
  recurse_eq : plan.options.recurse = plan'.options.recurse
  ignored_eq : plan.world.ignored = plan'.world.ignored
  resolve_eq : ∀ links path, plan.world.resolve links path = plan'.world.resolve links path
  stat_alike : ∀ path, Node.Corresponds Node.Alike (plan.world.stat path) (plan'.world.stat path)

section Agrees
variable {plan plan' : Plan} (agrees : Agrees plan plan')
include agrees

theorem firstMark_agrees (path : Path) :
    firstMark plan.world path (marks plan.isRepository) = firstMark plan'.world path (marks plan'.isRepository) := by
  rw [agrees.isRepository_eq]
  apply firstMark_congr
  intro mark member
  exact probe_alike rfl rfl (agrees.stat_alike _) (mem_marks member)

theorem nodeErrand_agrees (path : Path) (place : Place) {node node' : Node} (alike : Node.Alike node node') :
    plan.nodeErrand path place node = plan'.nodeErrand path place node' := by
  have directory : ∀ entries entries' locked, plan.nodeErrand path place (.directory entries locked) =
      plan'.nodeErrand path place (.directory entries' locked) := by
    intro entries entries' locked
    rw [Plan.nodeErrand, Plan.nodeErrand, agrees.recurse_eq, firstMark_agrees agrees path]
  have ignores : plan.ignores path = plan'.ignores path := by
    rw [Plan.ignores, Plan.ignores, agrees.isRepository_eq, agrees.ignored_eq]
  cases alike with
  | directory entries entries' locked => exact directory entries entries' locked
  | same =>
    cases node with
    | directory entries locked => exact directory entries entries locked
    | file content locked => rw [Plan.nodeErrand, Plan.nodeErrand, ignores]
    | _ => rfl

/-- What is to be done about an entry is the same in both worlds. -/
theorem errand_agrees (links : Nat) (entry : Path) : plan.errand links entry = plan'.errand links entry := by
  rw [Plan.errand, Plan.errand, agrees.resolve_eq]
  cases plan'.world.resolve links entry with
  | tooDeep => rfl
  | loop path => rfl
  | path path =>
    have relative : plan.relative path = plan'.relative path := by
      rw [Plan.relative, Plan.relative, agrees.root_eq]
    have alike := agrees.stat_alike path
    simp only [relative]
    refine bind_congr fun place => ?_
    obtain ⟨obstacle, found, found'⟩ | ⟨node, node', found, found', same⟩ := Node.corresponds_cases alike
    · rw [found, found']
      cases obstacle with
      | _ => rfl
    · rw [found, found']
      exact nodeErrand_agrees agrees path place same

theorem route_agrees (lists : ∀ directory, list plan.world directory = list plan'.world directory) (depth level : Nat)
    (directory : Path) : route plan depth level directory = route plan' depth level directory :=
  route_congr lists (errand_agrees agrees) depth level directory

end Agrees

end CMakeLint.Walk
