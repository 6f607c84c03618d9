import CMakeLint.Proofs.Walk.Alike
import CMakeLint.Proofs.Walk.Course
import CMakeLint.Proofs.Walk.Output

/-!
What an interrupt does to a run. A walk that is interrupted does nothing more, in whatever directory it is (`follow_halted`).
Up to there it does what it does without the interrupt, so it stands at a point that the other walk goes through
(`follow_interruptedAt`), and what the other one logs from there on only adds to the log (`follow_calm`). So its log is the start
of the other one (`walk_interruptedAt`), and an interrupted run prints the start of what it would have printed, and the totals
of that start (`run_interruptedAt`).
-/
namespace CMakeLint

/-- The same world with an interrupt before the entry of a number. -/
def World.interruptedAt (w : World) (k : Nat) : World :=
  { w with interruptAt := some k }

theorem World.interruptedBy_interruptedAt {w : World} {k : Nat} (positive : 0 < k) (e : Nat) :
    (w.interruptedAt k).interruptedBy e = decide (k ≤ e) := by
  simp [interruptedBy, interruptedAt, positive]

namespace Walk

variable {w : World} {limit : Option Int} {s : Stop} {stops rest : List Stop} {p q : Progress} {flow : Flow}

/-- What is done at a stop only adds to the log and takes no entry, even if it fails. -/
theorem act_adds (limit : Option Int) (s : Stop) (p : Progress) :
    p.log <:+ (reached (s.act limit) p).log ∧ (reached (s.act limit) p).entries = p.entries := by
  rcases act_happens limit s p with ⟨events, happens, _⟩ | ⟨f, failed⟩
  · exact ⟨⟨events.reverse, happens.log_eq.symm⟩, happens.entries_eq⟩
  · rw [reached, failed]
    exact ⟨List.suffix_refl _, rfl⟩

/-! ### What a walk does up to an interrupt -/

/-- The stops that are handed to a walk that is not interrupted, up to its end or to the one that fails. -/
def handed (limit : Option Int) : List Stop → Progress → List Stop
  | [], _ => []
  | s :: rest, p =>
    match s.act limit { p with entries := p.entries + 1 } with
    | .ok flow q => s :: handed limit (after s.level rest flow) q
    | .error _ _ => [s]
  termination_by stops => stops.length
  decreasing_by
    exact Nat.lt_succ_of_le (after_length_le s.level rest flow)

theorem handed_acted (acted : s.act limit { p with entries := p.entries + 1 } = .ok flow q) (rest : List Stop) :
    handed limit (s :: rest) p = s :: handed limit (after s.level rest flow) q := by
  rw [handed]
  simp only [acted]

theorem handed_failed {f : Failure} (acted : s.act limit { p with entries := p.entries + 1 } = .error f q)
    (rest : List Stop) : handed limit (s :: rest) p = [s] := by
  rw [handed]
  simp only [acted]

/-- A walk that is not interrupted counts the stops that are handed to it, and only adds to the log. -/
theorem follow_calm (calm : w.interruptAt = none) (limit : Option Int) (stops : List Stop) (p : Progress) :
    p.log <:+ (reached (follow w limit stops) p).log ∧
      (reached (follow w limit stops) p).entries = p.entries + (handed limit stops p).length := by
  induction stops using stops_induction generalizing p with
  | nil =>
    rw [follow, handed]
    exact ⟨List.suffix_refl _, rfl⟩
  | cons s rest ih =>
    have running := running_of_uninterrupted calm (p.entries + 1)
    obtain ⟨grows, counted⟩ := act_adds limit s { p with entries := p.entries + 1 }
    rw [reached] at grows counted ⊢
    cases acted : s.act limit { p with entries := p.entries + 1 } with
    | error f q =>
      rw [acted] at grows counted
      rw [follow_failed running acted, handed_failed acted]
      exact ⟨grows, counted⟩
    | ok flow q =>
      rw [acted] at grows counted
      rw [follow_acted running acted, handed_acted acted]
      obtain ⟨grows', entries⟩ := ih flow q
      refine ⟨grows.trans grows', ?_⟩
      have counted : q.entries = p.entries + 1 := counted
      rw [reached, counted] at entries
      rw [entries, List.length_cons]
      omega

/-- A walk is not changed by an interrupt that comes after its last entry. Else it ends where the other one comes to the entry,
    and has read the scripts at the stops before. -/
theorem follow_interruptedAt {k : Nat} (calm : w.interruptAt = none) (limit : Option Int) (stops : List Stop)
    (before : p.entries < k) :
    (p.entries + (handed limit stops p).length < k ∧ follow (w.interruptedAt k) limit stops p = follow w limit stops p) ∨
      k ≤ p.entries + (handed limit stops p).length ∧ ∃ q later e,
        follow (w.interruptedAt k) limit stops p = .ok () { q with entries := e } ∧
        follow w limit stops p = follow w limit later q ∧
        q.reads = p.reads ++ ((handed limit stops p).take (k - 1 - p.entries)).filterMap Stop.read? := by
  have positive : 0 < k := by omega
  induction stops using stops_induction generalizing p with
  | nil =>
    left
    rw [follow, follow, handed]
    exact ⟨before, rfl⟩
  | cons s rest ih =>
    have running := running_of_uninterrupted calm (p.entries + 1)
    by_cases last : k ≤ p.entries + 1
    · -- The interrupt comes before this stop.
      have interrupted : (w.interruptedAt k).interruptedBy (p.entries + 1) = true := by
        rw [World.interruptedBy_interruptedAt positive]
        exact decide_eq_true last
      obtain ⟨e, halted⟩ := follow_halted interrupted limit (s :: rest)
      have none : k - 1 - p.entries = 0 := by omega
      refine .inr ⟨?_, p, s :: rest, e, halted, rfl, by simp [none]⟩
      cases acted : s.act limit { p with entries := p.entries + 1 } with
      | error f q =>
        rw [handed_failed acted]
        exact last
      | ok flow q =>
        rw [handed_acted acted, List.length_cons]
        omega
    · have running' : (w.interruptedAt k).interruptedBy (p.entries + 1) = false := by
        rw [World.interruptedBy_interruptedAt positive]
        exact decide_eq_false last
      cases acted : s.act limit { p with entries := p.entries + 1 } with
      | error f q =>
        left
        rw [follow_failed running acted, follow_failed running' acted, handed_failed acted]
        exact ⟨by simpa using last, rfl⟩
      | ok flow q =>
        obtain ⟨events, happens, read⟩ := happens_of_act acted
        have counted : q.entries = p.entries + 1 := happens.entries_eq
        rw [follow_acted running acted, follow_acted running' acted, handed_acted acted, List.length_cons]
        rcases ih flow (p := q) (by omega) with ⟨beyond, same⟩ | ⟨within, q', later, e, halted, same, reads⟩
        · exact .inl ⟨by omega, same⟩
        · have one : k - 1 - p.entries = k - 1 - q.entries + 1 := by omega
          refine .inr ⟨by omega, q', later, e, halted, same, ?_⟩
          have unchanged : Progress.reads { p with entries := p.entries + 1 } = p.reads := rfl
          rw [reads, happens.reads_eq, read, unchanged, one, List.take_succ_cons, List.append_assoc]
          cases script : s.read? with
          | none => simp [script]
          | some path => simp [script]

end Walk

namespace Run

/-- The stops that are handed to the walk of a run that is not interrupted. -/
def handed (w : World) (options : Options) : List Walk.Stop :=
  match stops? w options with
  | some stops => Walk.handed options.limit stops Progress.start
  | none => []

section Interrupt
variable {w : World} {arguments : List Text} {options : Options} {plan : Walk.Plan} {p : Progress} {k : Nat}

theorem plan_interruptedAt (planned : plan? w options = some plan) (k : Nat) :
    plan? (w.interruptedAt k) options = some { plan with world := w.interruptedAt k } := by
  have moved : plan? (w.interruptedAt k) options =
      (plan? w options).map fun plan => ⟨w.interruptedAt k, options, plan.root, plan.isRepository⟩ :=
    plan_congr rfl rfl rfl rfl
  obtain ⟨_, rfl, _⟩ := plan_parts planned
  rw [moved, planned]
  rfl

theorem route_interruptedAt (planned : plan? w options = some plan) (k depth level : Nat) (directory : Path) :
    Walk.route { plan with world := w.interruptedAt k } depth level directory = Walk.route plan depth level directory := by
  obtain ⟨rfl, _, _⟩ := plan_parts planned
  have agrees : Walk.Agrees { plan with world := plan.world.interruptedAt k } plan :=
    ⟨rfl, rfl, rfl, rfl, fun _ _ => rfl, fun path => Node.corresponds_refl .same (plan.world.stat path)⟩
  have lists : ∀ directory, Walk.list (plan.world.interruptedAt k) directory = Walk.list plan.world directory := fun _ => rfl
  exact Walk.route_agrees agrees lists depth level directory

/-- Two runs are the same if their walks are. -/
theorem run_interruptedAt_of_walk (understood : Options.ofArguments arguments = .ok options)
    (planned : plan? w options = some plan)
    (same : Walk.walk { plan with world := w.interruptedAt k } (w.interruptedAt k).levels options.root Progress.start =
      Walk.walk plan w.levels options.root Progress.start) : run (w.interruptedAt k) arguments = run w arguments := by
  obtain ⟨rfl, rfl, _⟩ := plan_parts planned
  rw [run, run, transcript_of_plan understood planned, transcript_of_plan understood (plan_interruptedAt planned k),
    walkAndReport, walkAndReport, same]
  rfl

/-- What an interrupt does to the walk of a run. The log of a walk that is cut short is the start of the other one. -/
theorem walk_interruptedAt (calm : w.interruptAt = none) (planned : plan? w options = some plan) (positive : 0 < k) :
    (Walk.reached (Walk.walk plan w.levels options.root) Progress.start).entries = (handed w options).length ∧
      ((handed w options).length < k →
        Walk.walk { plan with world := w.interruptedAt k } (w.interruptedAt k).levels options.root Progress.start =
          Walk.walk plan w.levels options.root Progress.start) ∧
      (k ≤ (handed w options).length → ∃ p,
        Walk.walk { plan with world := w.interruptedAt k } (w.interruptedAt k).levels options.root Progress.start = .ok () p ∧
        p.reads = ((handed w options).take (k - 1)).filterMap Walk.Stop.read? ∧
        p.log <:+ (Walk.reached (Walk.walk plan w.levels options.root) Progress.start).log) := by
  have routes : Walk.route { plan with world := w.interruptedAt k } (w.interruptedAt k).levels 0 options.root =
      Walk.route plan w.levels 0 options.root := route_interruptedAt planned k w.levels 0 options.root
  cases listed : Walk.route plan w.levels 0 options.root with
  | error f =>
    have none : handed w options = [] := by simp [handed, stops?, planned, listed, Except.toOption]
    rw [none, Walk.reached, Walk.walk_eq_follow, Walk.walk_eq_follow, routes, listed]
    exact ⟨rfl, fun _ => rfl, fun within => absurd positive (Nat.not_lt.mpr within)⟩
  | ok stops =>
    rw [listed] at routes
    have all : handed w options = Walk.handed options.limit stops Progress.start := by
      simp [handed, stops?, planned, listed, Except.toOption]
    have count := (Walk.follow_calm calm options.limit stops Progress.start).2
    have cases := Walk.follow_interruptedAt calm options.limit stops (p := Progress.start) positive
    rw [show Progress.start.entries = 0 from rfl, Nat.zero_add] at count cases
    rw [Nat.sub_zero] at cases
    rw [Walk.reached] at count ⊢
    rw [all, walk_of_route planned listed, walk_of_route (plan_interruptedAt planned k) routes]
    refine ⟨count, ?_⟩
    rcases cases with ⟨beyond, same⟩ | ⟨within, q, later, e, halted, comes, reads⟩
    · exact ⟨fun _ => same, fun within => absurd beyond (Nat.not_lt.mpr within)⟩
    · refine ⟨fun beyond => absurd beyond (Nat.not_lt.mpr within), fun _ => ⟨_, halted, reads, ?_⟩⟩
      rw [comes]
      exact (Walk.follow_calm calm options.limit later q).1

/-- What there is to print for the start of a log comes first in what a run prints. -/
theorem texts_of_log_suffix
    (first : p.log <:+ (Walk.reached (Walk.walk plan plan.world.levels plan.options.root) Progress.start).log) :
    ∃ more, (walkAndReport plan (opening plan)).texts =
      opening plan ++ Report.events plan.options.verbose p.log.reverse ++ more := by
  obtain ⟨later, grown⟩ := first
  obtain ⟨texts, split⟩ := Report.events_append plan.options.verbose p.log.reverse later.reverse
  refine ⟨texts ++ (closing (Walk.walk plan plan.world.levels plan.options.root Progress.start)).texts, ?_⟩
  rw [walkAndReport_eq, ← grown, List.reverse_append, split]
  simp only [List.append_assoc]

/-- An interrupt only cuts a run short. If it comes before an entry that is handed to the walk, the walk does not fail and reads
    the scripts at the entries before and no others. What is printed before the totals is the start of what is printed without the
    interrupt, and the run ends with the number of issues in it. If something before the interrupt cannot be printed, the run
    fails there as it does without the interrupt. -/
theorem run_interruptedAt (calm : w.interruptAt = none) (understood : Options.ofArguments arguments = .ok options)
    (planned : plan? w options = some plan) (positive : 0 < k) :
    (Walk.reached (Walk.walk plan w.levels options.root) Progress.start).entries = (handed w options).length ∧
      ((handed w options).length < k → run (w.interruptedAt k) arguments = run w arguments) ∧
      (k ≤ (handed w options).length → ∃ (p : Progress) (ls : List Text), walked? (w.interruptedAt k) options = some p ∧
        p.reads = ((handed w options).take (k - 1)).filterMap Walk.Stop.read? ∧
        ls.filter (Report.errorWord.isPrefixOf ·) = p.reported.map Report.issueText ∧
        ((Terminal.print w.terminal (ls.flatMap Report.line)).isComplete = true →
          run (w.interruptedAt k) arguments = ⟨p.reported.length, (Terminal.print w.terminal (ls.flatMap Report.line)).text ++
            (Report.totals p.reported.length p.reads.length ++ ['\n']), []⟩ ∧
          (Terminal.print w.terminal (ls.flatMap Report.line)).text <+: (run w arguments).stdout) ∧
        ((Terminal.print w.terminal (ls.flatMap Report.line)).isComplete = false →
          run (w.interruptedAt k) arguments = run w arguments ∧ run w arguments =
            .failed w.terminal (Terminal.print w.terminal (ls.flatMap Report.line)).text .titleRefused)) := by
  obtain ⟨count, unchanged, cut⟩ := walk_interruptedAt calm planned positive
  refine ⟨count, fun beyond => ?_, fun within => ?_⟩
  · exact run_interruptedAt_of_walk understood planned (unchanged beyond)
  · obtain ⟨p, walk, reads, first⟩ := cut within
    have planned' := plan_interruptedAt planned k
    have walked : walked? (w.interruptedAt k) options = some p := by
      rw [walked?, planned']
      simp only [walk]
    obtain ⟨rfl, rfl, _⟩ := plan_parts planned
    obtain ⟨ls, before, found, said⟩ := transcript_of_walked understood planned' walked
    obtain ⟨more, texts⟩ := texts_of_log_suffix first
    have starts : (transcript plan.world arguments).texts = ls.flatMap Report.line ++ more := by
      rw [transcript_of_plan understood planned, texts, before]
      rfl
    obtain ⟨done, failed⟩ := runs_of_common_start said starts rfl
    exact ⟨p, ls, walked, reads, found, done, failed⟩

/-- Between two directories, an interrupt leaves the issue of the first one. After both it changes nothing. -/
theorem interrupted_between_directories :
    (∃ (p : Progress) (ls : List Text), walked? (twoScriptsShown.interruptedAt 3) plainRun = some p ∧ p.reads.length = 1 ∧
      ls.filter (Report.errorWord.isPrefixOf ·) = p.reported.map Report.issueText ∧
      run (twoScriptsShown.interruptedAt 3) [] =
        ⟨1, (Terminal.print true (ls.flatMap Report.line)).text ++ (Report.totals 1 1 ++ ['\n']), []⟩ ∧
      (Terminal.print true (ls.flatMap Report.line)).text <+: (run twoScriptsShown []).stdout) ∧
    run (twoScriptsShown.interruptedAt 5) [] = run twoScriptsShown [] := by
  have understood : Options.ofArguments [] = .ok plainRun := by decide +kernel
  have entries : (plan? twoScriptsShown plainRun).map (fun plan =>
      (Walk.reached (Walk.walk plan twoScriptsShown.levels plainRun.root) Progress.start).entries) = some 4 := by decide +kernel
  have counts : (walked? (twoScriptsShown.interruptedAt 3) plainRun).map (fun p => (p.reported.length, p.reads.length)) =
      some (1, 1) := by decide +kernel
  obtain ⟨plan, planned, four⟩ := Option.map_eq_some_iff.mp entries
  obtain ⟨count, _, cut⟩ := run_interruptedAt (k := 3) rfl understood planned (by decide)
  obtain ⟨_, same, _⟩ := run_interruptedAt (k := 5) rfl understood planned (by decide)
  rw [four] at count
  refine ⟨?_, same (by omega)⟩
  obtain ⟨p, ls, walked, _, found, done, _⟩ := cut (by omega)
  rw [walked, Option.map_some, Option.some.injEq, Prod.mk.injEq] at counts
  rw [counts.1, counts.2] at done
  exact ⟨p, ls, walked, counts.2, found, done (Terminal.isComplete_of_terminal _)⟩

end Interrupt

end Run

end CMakeLint
