import CMakeLint.Proofs.Check.Report
import CMakeLint.Proofs.Disk.Reordering
import CMakeLint.Proofs.Suppression
import CMakeLint.Proofs.Walk.Alike
import CMakeLint.Proofs.Walk.Output
import CMakeLint.Proofs.Walk.Ways

/-!
Runs in which directories list their entries in another order. The same is to be done about every entry, so the route of a walk
has the same stops in another order (`route_perm`). A run without a limit that is not interrupted makes all of them. So it
reports the same issues, those of each script in the same order (`run_reordered`).
-/
namespace CMakeLint

/-- The same world with another tree of files. -/
def World.onDisk (w : World) (disk : Node) : World :=
  { w with disk := disk }

namespace Walk

/-! ### Routes in another order -/

/-- Both fail for the same reason, or both give the same in some order. -/
def SameUpToOrder {α : Type} (x y : Except Failure (List α)) : Prop :=
  (∃ f, x = .error f ∧ y = .error f) ∨ ∃ l l', x = .ok l ∧ y = .ok l' ∧ l.Perm l'

theorem entryStops_perm {level : Nat} {inside inside' : Path → Except Failure (List Stop)}
    (same : ∀ path, SameUpToOrder (inside path) (inside' path)) (known : Except Failure Errand) :
    (entryStops level inside known).Perm (entryStops level inside' known) := by
  cases known with
  | error f => exact List.Perm.refl _
  | ok errand =>
    cases errand with
    | descend path =>
      rw [entryStops, entryStops]
      obtain ⟨f, failed, failed'⟩ | ⟨stops, stops', listed, listed', perm⟩ := same path
      · rw [failed, failed']
      · rw [listed, listed']
        exact perm.cons _
    | _ => exact List.Perm.refl _

theorem route_perm {plan plan' : Plan} (lists : ∀ directory, SameUpToOrder (list plan.world directory) (list plan'.world directory))
    (errands : ∀ links entry, plan.errand links entry = plan'.errand links entry) (depth level : Nat) (directory : Path) :
    SameUpToOrder (route plan depth level directory) (route plan' depth level directory) := by
  induction depth generalizing level directory with
  | zero =>
    rw [route, route]
    obtain ⟨f, failed, failed'⟩ | ⟨names, names', listed, listed', perm⟩ := lists directory
    · rw [failed, failed']
      exact .inl ⟨f, rfl, rfl⟩
    · rw [listed, listed']
      exact .inr ⟨_, _, rfl, rfl, perm.map _⟩
  | succ depth ih =>
    rw [route, route]
    obtain ⟨f, failed, failed'⟩ | ⟨names, names', listed, listed', perm⟩ := lists directory
    · rw [failed, failed']
      exact .inl ⟨f, rfl, rfl⟩
    · rw [listed, listed']
      refine .inr ⟨_, _, rfl, rfl, (perm.flatMap_right _).trans (List.Perm.flatMap_left names' ?_)⟩
      intro name _
      rw [errands]
      exact entryStops_perm (ih (level + 1)) _

section Reordered
variable {w : World} {disk : Node} (reordered : Node.Reordered w.disk disk)
include reordered

theorem find_alike (place : Place) : Node.Corresponds Node.Alike (w.disk.find place) (disk.find place) :=
  Node.corresponds_imp (fun _ _ relisted => relisted.alike) (Node.find_reordered reordered place)

theorem stat_reordered (path : Path) : Node.Corresponds Node.Relisted (w.stat path) ((w.onDisk disk).stat path) := by
  have looked : Node.Corresponds Node.Relisted (w.disk.stat (w.place path)) (disk.stat (w.place path)) :=
    Node.stat_alike (find_alike reordered) (Node.find_reordered reordered) (w.place path)
  unfold World.stat
  by_cases long : Path.maxBytes < Path.bytes path.toText
  · rw [if_pos long, if_pos long]
    rfl
  · rw [if_neg long, if_neg long]
    exact looked

theorem resolve_reordered (links : Nat) (path : Path) : w.resolve links path = (w.onDisk disk).resolve links path :=
  Node.resolve_alike (find_alike reordered) w.here links path

theorem list_reordered (directory : Path) : SameUpToOrder (list w directory) (list (w.onDisk disk) directory) := by
  rw [list, list]
  obtain ⟨obstacle, found, found'⟩ | ⟨node, node', found, found', relisted⟩ :=
    Node.corresponds_cases (stat_reordered reordered directory)
  · rw [found, found']
    exact .inl ⟨_, rfl, rfl⟩
  · obtain ⟨alike, names⟩ := relisted
    rw [found, found']
    cases alike with
    | directory entries entries' locked =>
      cases locked with
      | true => exact .inl ⟨_, rfl, rfl⟩
      | false => exact .inr ⟨_, _, rfl, rfl, names⟩
    | same =>
      cases node with
      | directory entries locked =>
        cases locked with
        | true => exact .inl ⟨_, rfl, rfl⟩
        | false => exact .inr ⟨_, _, rfl, rfl, names⟩
      | _ => exact .inl ⟨_, rfl, rfl⟩

theorem agrees_reordered {plan : Plan} (world : plan.world = w) : Agrees plan { plan with world := w.onDisk disk } := by
  subst world
  exact ⟨rfl, rfl, rfl, rfl, resolve_reordered reordered,
    fun path => Node.corresponds_imp (fun _ _ relisted => relisted.alike) (stat_reordered reordered path)⟩

theorem issuesAt_reordered (path : Path) : issuesAt (w.onDisk disk) path = issuesAt w path := by
  rw [issuesAt, issuesAt]
  obtain ⟨obstacle, found, found'⟩ | ⟨node, node', found, found', relisted⟩ :=
    Node.corresponds_cases (stat_reordered reordered path)
  · rw [found, found']
  · rw [found, found']
    cases relisted.alike with
    | same => rfl
    | directory entries entries' locked => rfl

end Reordered

/-! ### The issues of one script -/

theorem path_of_issues {path : Path} {t : Text} {issues : List Issue} (found : Lint.issues path t = .ok issues) {i : Issue}
    (member : i ∈ issues) : i.path = some path := by
  rw [Lint.issues_eq] at found
  cases ran : Check.runAll Check.catalog path (Text.stripComments t) with
  | error fault =>
    rw [ran] at found
    cases found
  | ok all =>
    rw [ran] at found
    cases found
    have inside := List.mem_of_mem_filter (Lint.mem_inReadingOrder.mp member)
    obtain ⟨check, _, findings, made, reported⟩ := Lint.mem_runAll ran inside
    obtain ⟨s, _, origin⟩ := forall₂_mem_right (Check.run_madeFrom made) reported
    exact origin.path_eq

theorem path_of_issuesAt {w : World} {path : Path} {i : Issue} (member : i ∈ issuesAt w path) : i.path = some path := by
  unfold issuesAt at member
  split at member
  · rename_i content locked _
    rw [scriptIssues] at member
    cases text : readText path content locked with
    | error f =>
      rw [text] at member
      cases member
    | ok t =>
      cases found : Lint.issues path t with
      | error fault => simp [text, found, Except.toOption] at member
      | ok issues => exact path_of_issues found (by simpa [text, found, Except.toOption] using member)
  · cases member

theorem filter_issuesAt (w : World) (path path' : Path) :
    (issuesAt w path').filter (fun i => i.path = some path) = if path' = path then issuesAt w path else [] := by
  by_cases same : path' = path
  · subst same
    rw [if_pos rfl, List.filter_eq_self]
    intro i member
    exact decide_eq_true (path_of_issuesAt member)
  · rw [if_neg same, List.filter_eq_nil_iff]
    intro i member
    rw [path_of_issuesAt member]
    simpa using same

/-- The issues of one script are the same in any order of reading, even if it is read more than once. -/
theorem filter_reads {reads reads' : List Path} (perm : reads.Perm reads') (w : World) (path : Path) :
    (reads.flatMap (issuesAt w)).filter (fun i => i.path = some path) =
      (reads'.flatMap (issuesAt w)).filter fun i => i.path = some path := by
  simp only [List.filter_flatMap, filter_issuesAt]
  apply flatMap_eq_of_perm perm
  intro first second
  by_cases same : first = path
  · by_cases same' : second = path
    · rw [same, same']
    · simp [same']
  · simp [same]

end Walk

/-! ### Runs -/

namespace Run

section Reordered
variable {w : World} {disk : Node} {arguments : List Text} {options : Options} {plan : Walk.Plan} {n : Int} {p : Progress}
  (reordered : Node.Reordered w.disk disk)
include reordered

theorem plan_reordered (planned : plan? w options = some plan) :
    plan? (w.onDisk disk) options = some { plan with world := w.onDisk disk } := by
  have agrees := Walk.agrees_reordered reordered (plan_parts planned).1
  have probes : ∀ path, ∀ mark ∈ Walk.marks true,
      Walk.probe (w.onDisk disk) path mark.2.1 = Walk.probe w path mark.2.1 := by
    intro path mark member
    have alike := agrees.stat_alike path
    rw [(plan_parts planned).1] at alike
    exact (Walk.probe_alike rfl rfl alike member).symm
  have resolved : resolvedRoot (w.onDisk disk) options.root = resolvedRoot w options.root := by
    have levels : (w.onDisk disk).levels = w.levels := rfl
    rw [resolvedRoot, resolvedRoot, levels, Walk.resolve_reordered reordered]
  have moved : plan? (w.onDisk disk) options =
      (plan? w options).map fun plan => ⟨w.onDisk disk, options, plan.root, plan.isRepository⟩ :=
    plan_congr rfl (probes _ ("meson-info", Walk.isDirectory, .mesonBuild) (by simp [Walk.marks])) resolved
      (probes _ (".git", fun _ => true, .submodule) (by simp [Walk.marks]))
  obtain ⟨_, rfl, _⟩ := plan_parts planned
  rw [moved, planned]
  rfl

/-- The same happens on both walks in some order, and the issues of each script are the same in the same order. -/
theorem walked_reordered (planned : plan? w options = some plan) (uninterrupted : w.interruptAt = none)
    (limit : options.limit = some n) (free : n ≤ 0) (walked : walked? w options = some p) :
    ∃ p', walked? (w.onDisk disk) options = some p' ∧ p.log.reverse.Perm p'.log.reverse ∧
      ∀ path, p'.reported.filter (fun i => i.path = some path) = p.reported.filter fun i => i.path = some path := by
  have agrees := Walk.agrees_reordered reordered (plan_parts planned).1
  have planned' := plan_reordered reordered planned
  obtain ⟨stops, routed, good, _, reads⟩ := good_of_walked planned uninterrupted limit free walked
  have lists : ∀ directory, Walk.SameUpToOrder (Walk.list plan.world directory) (Walk.list (w.onDisk disk) directory) := by
    rw [(plan_parts planned).1]
    exact Walk.list_reordered reordered
  have routes : Walk.SameUpToOrder (Walk.route plan w.levels 0 options.root)
      (Walk.route { plan with world := w.onDisk disk } w.levels 0 options.root) :=
    Walk.route_perm lists (Walk.errand_agrees agrees) w.levels 0 options.root
  obtain ⟨f, failed, _⟩ | ⟨stops₁, stops', routed₁, routed', perm⟩ := routes
  · rw [routed] at failed
    cases failed
  rw [routed] at routed₁
  cases routed₁
  have good' : ∀ s ∈ stops', s.failure? = none := fun s member => good s (perm.mem_iff.mpr member)
  obtain ⟨p', walked', _, reads'⟩ := walked_of_good planned' uninterrupted limit free routed' good'
  refine ⟨p', walked', ?_, fun path => ?_⟩
  · rw [log_of_good planned uninterrupted limit free routed good walked,
      log_of_good planned' uninterrupted limit free routed' good' walked']
    exact perm.flatMap_right _
  · have same : Walk.issuesAt (w.onDisk disk) = Walk.issuesAt w := funext (Walk.issuesAt_reordered reordered)
    rw [reported_of_reads planned uninterrupted limit free walked, reads,
      reported_of_reads planned' uninterrupted limit free walked', reads', same]
    exact Walk.filter_reads (perm.filterMap _).symm w path

/-- Let a run without a limit reach its walk, not be interrupted and not fail. If directories list their entries in another order,
    the run does not fail either. It prints the same issues in some order, those of each script in the same order. It has the same
    totals and ends with the same code. -/
theorem run_reordered (understood : Options.ofArguments arguments = .ok options) (planned : plan? w options = some plan)
    (uninterrupted : w.interruptAt = none) (limit : options.limit = some n) (free : n ≤ 0)
    (sound : ∀ stdout f, run w arguments ≠ .failed w.terminal stdout f) :
    ∃ p p' earlier earlier', walked? w options = some p ∧ walked? (w.onDisk disk) options = some p' ∧
      p.reported.Perm p'.reported ∧
      (∀ path, p'.reported.filter (fun i => i.path = some path) = p.reported.filter fun i => i.path = some path) ∧
      printedIssues w arguments = p.reported.map Report.issueText ∧
      printedIssues (w.onDisk disk) arguments = p'.reported.map Report.issueText ∧
      (run w arguments).stdout.lines = earlier ++ [Report.totals p.reported.length p.reads.length, []] ∧
      (run (w.onDisk disk) arguments).stdout.lines = earlier' ++ [Report.totals p.reported.length p.reads.length, []] ∧
      (run w arguments).exit = p.reported.length ∧ (run (w.onDisk disk) arguments).exit = p.reported.length := by
  have planned' := plan_reordered reordered planned
  rcases run_of_plan understood planned with ⟨stdout, f, failed⟩ | ⟨p, walked, complete⟩
  · exact absurd failed (sound stdout f)
  obtain ⟨p', walked', perm, sameOrder⟩ := walked_reordered reordered planned uninterrupted limit free walked
  have complete' : (Terminal.print w.terminal (transcript (w.onDisk disk) arguments).texts).isComplete = true := by
    obtain ⟨before, events⟩ := (isComplete_iff_events understood walked planned).mp complete
    apply (isComplete_iff_events understood walked' planned').mpr
    constructor
    · obtain ⟨rfl, _, _⟩ := plan_parts planned
      exact before
    · intro e member
      exact events e (perm.mem_iff.mpr member)
  have reported : p.reported.Perm p'.reported := perm.filterMap _
  have reads : p.reads.Perm p'.reads := perm.filterMap _
  obtain ⟨_, earlier, _, _, lines, exit⟩ := printed_of_walked understood walked complete
  obtain ⟨_, earlier', _, _, lines', exit'⟩ := printed_of_walked understood walked' complete'
  rw [← reported.length_eq, ← reads.length_eq] at lines'
  rw [← reported.length_eq] at exit'
  exact ⟨p, p', earlier, earlier', walked, walked', reported, sameOrder, ((prints_of_walked understood walked).whole complete).1,
    ((prints_of_walked understood walked').whole complete').1, lines, lines', exit, exit'⟩

end Reordered

/-- Two directories with a script each, listed the other way round. -/
def twoScriptsTurned : Node :=
  .directory [("r".toList, .directory [("b".toList, scriptDirectory), ("a".toList, scriptDirectory)] false)] false

/-- The issues come the other way round as well. -/
theorem run_other_way_round :
    Node.Reordered twoScriptsShown.disk twoScriptsTurned ∧
    ∃ p p' earlier earlier', walked? twoScriptsShown plainRun = some p ∧
      walked? (twoScriptsShown.onDisk twoScriptsTurned) plainRun = some p' ∧
      p.reported.Perm p'.reported ∧ p.reported ≠ p'.reported ∧
      (run twoScriptsShown []).stdout.lines = earlier ++ ["found 2 errors in 2 files.".toList, []] ∧
      (run (twoScriptsShown.onDisk twoScriptsTurned) []).stdout.lines = earlier' ++ ["found 2 errors in 2 files.".toList, []] ∧
      (run (twoScriptsShown.onDisk twoScriptsTurned) []).exit = 2 := by
  have script : Node.Reordered scriptDirectory scriptDirectory :=
    .directory false (by decide) (.refl _) (.cons _ (.file _ _) .nil)
  have reordered : Node.Reordered twoScriptsShown.disk twoScriptsTurned :=
    .directory false (by decide) (.refl _)
      (.cons _ (.directory false (by decide) (.swap _ _ _) (.cons _ script (.cons _ script .nil))) .nil)
  have understood : Options.ofArguments [] = .ok plainRun := by decide +kernel
  have walks : (plan? twoScriptsShown plainRun).isSome = true := by decide +kernel
  have places : (walked? twoScriptsShown plainRun).map (fun p => (p.reported.map (·.path), p.reads.length)) =
      some ([some (.ofText "/r/a/x.cmake".toList), some (.ofText "/r/b/x.cmake".toList)], 2) := by decide +kernel
  have places' : (walked? (twoScriptsShown.onDisk twoScriptsTurned) plainRun).map (fun p => p.reported.map (·.path)) =
      some [some (.ofText "/r/b/x.cmake".toList), some (.ofText "/r/a/x.cmake".toList)] := by decide +kernel
  obtain ⟨plan, planned⟩ := Option.isSome_iff_exists.mp walks
  obtain ⟨_, walked, _⟩ := Option.map_eq_some_iff.mp places
  have sound := (sound_on_terminal understood walked rfl).2
  obtain ⟨p, p', earlier, earlier', walked, walked', perm, _, _, _, lines, lines', _, exit'⟩ :=
    run_reordered reordered understood planned rfl rfl (Int.le_refl 0) sound
  rw [walked, Option.map_some, Option.some.injEq, Prod.mk.injEq] at places
  rw [walked', Option.map_some, Option.some.injEq] at places'
  have two : p.reported.length = 2 := by simpa using congrArg List.length places.1
  have words : Report.totals 2 2 = "found 2 errors in 2 files.".toList := by decide +kernel
  rw [two, places.2, words] at lines lines'
  rw [two] at exit'
  refine ⟨reordered, p, p', earlier, earlier', walked, walked', perm, ?_, lines, lines', exit'⟩
  intro same
  rw [← same, places.1] at places'
  exact absurd places' (by decide +kernel)

end Run

end CMakeLint
