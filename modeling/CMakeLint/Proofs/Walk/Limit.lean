import CMakeLint.Proofs.Walk.Route
import CMakeLint.Run.Outcome

/-!
What a limit does to the issues of a run. Up to the limit they are those of a run without one. At the limit only the directory
of the last script is left: the walk goes on in the directories around it, and there the first script with an issue reports
one issue more. So the limit holds exactly if no entry that is still taken has an issue (`reported_of_limit`).
-/
namespace CMakeLint

/-- The issue that an event reports. -/
def Event.issue? : Event → Option Issue
  | .found issue => some issue
  | _ => none

/-- The issues that are reported so far, the first one first. -/
def Progress.reported (p : Progress) : List Issue :=
  p.log.reverse.filterMap Event.issue?

/-- Whether a run is interrupted before the entry of a number. -/
def World.interruptedBy (w : World) (entry : Nat) : Bool :=
  w.interruptAt.any fun k => 0 < k && k ≤ entry

namespace Walk

/-- The issues of a script; none if it cannot be read or checked. -/
def scriptIssues (path : Path) (content : ByteArray) (locked : Bool) : List Issue :=
  match readText path content locked with
  | .ok t => (Lint.issues path t).toOption.getD []
  | .error _ => []

/-- The issues that there are at a stop. -/
def Stop.issues (s : Stop) : List Issue :=
  match s.errand with
  | .ok (.check path _ content locked) => scriptIssues path content locked
  | _ => []

/-! ### What one stop reports -/

/-- Some issues are reported from one state of a walk to another, and they are counted. -/
structure Reports (p p' : Progress) (issues : List Issue) : Prop where
  reported_eq : p'.reported = p.reported ++ issues
  issues_eq : p'.issues = p.issues + issues.length

theorem reports_refl (p : Progress) : Reports p p [] :=
  ⟨(List.append_nil _).symm, rfl⟩

theorem reports_trans {p p' p'' : Progress} {issues issues' : List Issue} (first : Reports p p' issues)
    (second : Reports p' p'' issues') : Reports p p'' (issues ++ issues') := by
  refine ⟨?_, ?_⟩
  · rw [second.reported_eq, first.reported_eq, List.append_assoc]
  · rw [second.issues_eq, first.issues_eq, List.length_append, Nat.add_assoc]

theorem reports_log {p p' : Progress} {event : Event} (silent : event.issue? = none) (logged : p'.log = event :: p.log)
    (counted : p'.issues = p.issues) : Reports p p' [] := by
  refine ⟨?_, counted⟩
  rw [Progress.reported, Progress.reported, logged, List.reverse_cons, List.filterMap_append,
    List.filterMap_cons_none silent, List.filterMap_nil]

theorem reports_found (p : Progress) (issue : Issue) :
    Reports p { p with issues := p.issues + 1, log := .found issue :: p.log } [issue] := by
  refine ⟨?_, rfl⟩
  simp [Progress.reported, Event.issue?]

/-- How a script with these issues ends: all of them are reported, or the limit is reached and the last one that is reported
    is the one that reaches it, or the first one if it was reached before. -/
inductive Ended (n : Int) (p p' : Progress) (issues : List Issue) : Flow → Prop where
  | all (fits : n ≤ 0 ∨ issues = [] ∨ p.issues + issues.length < n) (reports : Reports p p' issues) : Ended n p p' issues .next
  | reached (positive : 0 < n) (some : issues ≠ []) (enough : n ≤ p.issues + issues.length)
      (reports : Reports p p' (issues.take (max 1 (n - p.issues).toNat))) : Ended n p p' issues .leave

theorem Ended.after {n : Int} {p p' p'' : Progress} {issues : List Issue} {flow : Flow} (before : Reports p p' [])
    (ended : Ended n p' p'' issues flow) : Ended n p p'' issues flow := by
  have same : p'.issues = p.issues := before.issues_eq
  cases ended with
  | all fits reports =>
    rw [same] at fits
    exact .all fits (reports_trans before reports)
  | reached positive some enough reports =>
    rw [same] at enough reports
    exact .reached positive some enough (reports_trans before reports)

theorem ended_silent {n : Int} {p p' : Progress} (reports : Reports p p' []) : Ended n p p' [] .next :=
  .all (.inr (.inl rfl)) reports

theorem reportIssues_cons (n : Int) (issue : Issue) (rest : List Issue) (p : Progress) :
    reportIssues (some n) (issue :: rest) p =
      if 0 < n ∧ n ≤ ((p.issues + 1 : Nat) : Int) then
        .ok .leave { p with issues := p.issues + 1, log := .limitReached :: .found issue :: p.log }
      else reportIssues (some n) rest { p with issues := p.issues + 1, log := .found issue :: p.log } :=
  apply_ite (fun walk : Walk Flow => walk { p with issues := p.issues + 1, log := .found issue :: p.log }) _ _ _

theorem reportIssues_ended {n : Int} {issues : List Issue} {p p' : Progress} {flow : Flow}
    (ran : reportIssues (some n) issues p = .ok flow p') : Ended n p p' issues flow ∧ p'.entries = p.entries := by
  induction issues generalizing p with
  | nil =>
    cases ran
    exact ⟨ended_silent (reports_refl _), rfl⟩
  | cons issue rest ih =>
    rw [reportIssues_cons] at ran
    split at ran
    · rename_i limit
      cases ran
      have one : max 1 (n - p.issues).toNat = 1 := by omega
      refine ⟨.reached limit.1 (List.cons_ne_nil _ _) ?_ ?_, rfl⟩
      · rw [List.length_cons]
        omega
      · rw [one]
        exact reports_trans (reports_found p issue) (reports_log rfl rfl rfl)
    · rename_i below
      obtain ⟨ended, entries⟩ := ih ran
      refine ⟨?_, entries⟩
      cases ended with
      | all fits reports =>
        refine .all ?_ (reports_trans (reports_found p issue) reports)
        rw [List.length_cons]
        rcases fits with free | none | fits
        · exact .inl free
        · subst none
          simp only [List.length_nil]
          omega
        · simp only at fits
          omega
      | reached positive some enough reports =>
        simp only at enough reports
        have more : max 1 (n - p.issues).toNat = max 1 (n - ((p.issues + 1 : Nat) : Int)).toNat + 1 := by omega
        refine .reached positive (List.cons_ne_nil _ _) ?_ ?_
        · rw [List.length_cons]
          omega
        · rw [more, List.take_succ_cons]
          exact reports_trans (reports_found p issue) reports

theorem visitScript_ended {n : Int} {path : Path} {place : Place} {content : ByteArray} {locked : Bool} {p p' : Progress}
    {flow : Flow} (ran : visitScript (some n) path place content locked p = .ok flow p') :
    Ended n p p' (scriptIssues path content locked) flow ∧ p'.entries = p.entries := by
  rw [visitScript] at ran
  cases text : readText path content locked with
  | error f =>
    rw [text] at ran
    cases ran
  | ok t =>
    rw [text] at ran
    have read : Reports p { p with files := p.files + 1, log := .read path :: p.log } [] := reports_log rfl rfl rfl
    have checked : reportFindings (some n) place (Lint.issues path t)
        { p with files := p.files + 1, log := .read path :: p.log } = .ok flow p' := ran
    cases found : Lint.issues path t with
    | error fault =>
      rw [found] at checked
      cases checked
    | ok issues =>
      have issues_eq : scriptIssues path content locked = issues := by simp [scriptIssues, text, found, Except.toOption]
      rw [found] at checked
      rw [issues_eq]
      cases issues with
      | nil =>
        cases checked
        exact ⟨.after read (ended_silent (reports_log rfl rfl rfl)), rfl⟩
      | cons issue rest =>
        obtain ⟨ended, entries⟩ := reportIssues_ended checked
        exact ⟨.after read ended, entries⟩

theorem act_ended {n : Int} {s : Stop} {p p' : Progress} {flow : Flow} (acted : s.act (some n) p = .ok flow p') :
    Ended n p p' s.issues flow ∧ p'.entries = p.entries := by
  obtain ⟨level, errand⟩ := s
  cases errand with
  | error f => cases acted
  | ok errand =>
    cases errand with
    | nothing =>
      cases acted
      exact ⟨ended_silent (reports_refl _), rfl⟩
    | descend path =>
      cases acted
      exact ⟨ended_silent (reports_refl _), rfl⟩
    | skip place reason =>
      cases acted
      exact ⟨ended_silent (reports_log rfl rfl rfl), rfl⟩
    | check path place content locked => exact visitScript_ended acted

/-! ### What a walk reports -/

variable {w : World} {n : Int} {stops : List Stop} {p q : Progress}

/-- What follows a stop is shorter, whether its directory is left or not. -/
theorem stops_induction {motive : List Stop → Prop} (stops : List Stop) (nil : motive [])
    (cons : ∀ s rest, (∀ flow, motive (after s.level rest flow)) → motive (s :: rest)) : motive stops := by
  induction size : stops.length using Nat.strongRecOn generalizing stops with
  | ind size ih =>
    cases stops with
    | nil => exact nil
    | cons s rest =>
      refine cons s rest fun flow => ih _ ?_ (after s.level rest flow) rfl
      rw [← size]
      exact Nat.lt_succ_of_le (after_length_le s.level rest flow)

/-- What is done about an entry: nothing if the run is interrupted, and else what is to be done at the stop. -/
inductive Taken (w : World) (n : Int) (p p' : Progress) (issues : List Issue) (flow : Flow) : Prop where
  | interrupted (interrupted : w.interruptedBy (p.entries + 1) = true) (left : flow = .leave) (reports : Reports p p' [])
  | ended (running : w.interruptedBy (p.entries + 1) = false) (ended : Ended n p p' issues flow)

theorem take_cases (visit : Walk Flow) (p : Progress) :
    take w visit p = if w.interruptedBy (p.entries + 1) then .ok .leave { p with entries := p.entries + 1 }
      else visit { p with entries := p.entries + 1 } :=
  apply_ite (fun walk : Walk Flow => walk { p with entries := p.entries + 1 }) _ _ _

/-- What the next stop of a walk that does not fail does, and how the walk goes on after it. -/
theorem follow_cons_taken {s : Stop} (ran : follow w (some n) (s :: stops) p = .ok () q) :
    ∃ p' flow, p'.entries = p.entries + 1 ∧ Taken w n p p' s.issues flow ∧
      follow w (some n) (after s.level stops flow) p' = .ok () q := by
  have counted : Reports p { p with entries := p.entries + 1 } [] := ⟨(List.append_nil _).symm, rfl⟩
  rw [follow] at ran
  cases taken : take w (s.act (some n)) p with
  | error f p' =>
    simp only [bind, EStateM.bind, taken] at ran
    cases ran
  | ok flow p' =>
    simp only [bind, EStateM.bind, taken] at ran
    rw [take_cases] at taken
    split at taken
    · rename_i interrupted
      cases taken
      exact ⟨_, _, rfl, .interrupted interrupted rfl counted, ran⟩
    · rename_i running
      obtain ⟨ended, entries⟩ := act_ended taken
      exact ⟨p', flow, entries, .ended (by simpa using running) (.after counted ended), ran⟩

theorem interruptedBy_mono {e e' : Nat} (le : e ≤ e') (interrupted : w.interruptedBy e = true) : w.interruptedBy e' = true := by
  rw [World.interruptedBy] at interrupted ⊢
  cases set : w.interruptAt with
  | none =>
    rw [set] at interrupted
    cases interrupted
  | some k =>
    simp only [set, Option.any_some, Bool.and_eq_true, decide_eq_true_eq] at interrupted ⊢
    omega

section Steps
variable {limit : Option Int} {s : Stop} {flow : Flow}

/-- A walk that is not interrupted does what is to be done at a stop and goes on. -/
theorem follow_acted (running : w.interruptedBy (p.entries + 1) = false)
    (acted : s.act limit { p with entries := p.entries + 1 } = .ok flow q) (rest : List Stop) :
    follow w limit (s :: rest) p = follow w limit (after s.level rest flow) q := by
  have taken := take_cases (w := w) (s.act limit) p
  rw [running, if_neg Bool.false_ne_true, acted] at taken
  rw [follow]
  simp only [bind, EStateM.bind, taken]

theorem follow_failed {f : Failure} (running : w.interruptedBy (p.entries + 1) = false)
    (acted : s.act limit { p with entries := p.entries + 1 } = .error f q) (rest : List Stop) :
    follow w limit (s :: rest) p = .error f q := by
  have taken := take_cases (w := w) (s.act limit) p
  rw [running, if_neg Bool.false_ne_true, acted] at taken
  rw [follow]
  simp only [bind, EStateM.bind, taken]

/-- An interrupted walk does nothing more than to count entries. -/
theorem follow_halted (interrupted : w.interruptedBy (p.entries + 1) = true) (limit : Option Int) (stops : List Stop) :
    ∃ e, follow w limit stops p = .ok () { p with entries := e } := by
  induction stops using stops_induction generalizing p with
  | nil =>
    refine ⟨p.entries, ?_⟩
    rw [follow]
    rfl
  | cons s rest ih =>
    have taken := take_cases (w := w) (s.act limit) p
    rw [if_pos interrupted] at taken
    have still : w.interruptedBy (p.entries + 1 + 1) = true := interruptedBy_mono (Nat.le_succ _) interrupted
    obtain ⟨e, halted⟩ := ih .leave (p := { p with entries := p.entries + 1 }) still
    refine ⟨e, ?_⟩
    rw [follow]
    simp only [bind, EStateM.bind, taken]
    exact halted

end Steps

/-- An interrupted walk reports nothing more. -/
theorem follow_interrupted (interrupted : w.interruptedBy (p.entries + 1) = true)
    (ran : follow w (some n) stops p = .ok () q) : Reports p q [] := by
  obtain ⟨e, halted⟩ := follow_halted interrupted (some n) stops
  rw [ran] at halted
  cases halted
  exact ⟨(List.append_nil _).symm, rfl⟩

/-- The next stop of a walk that does not fail: the last one if the run is interrupted there. -/
theorem follow_cons_cases {s : Stop} (ran : follow w (some n) (s :: stops) p = .ok () q) :
    (w.interruptedBy (p.entries + 1) = true ∧ Reports p q []) ∨
      (w.interruptedBy (p.entries + 1) = false ∧ ∃ p' flow, p'.entries = p.entries + 1 ∧ Ended n p p' s.issues flow ∧
        follow w (some n) (after s.level stops flow) p' = .ok () q) := by
  obtain ⟨p', flow, entries, taken, later⟩ := follow_cons_taken ran
  cases taken with
  | interrupted interrupted _ silent =>
    have still : w.interruptedBy (p'.entries + 1) = true := interruptedBy_mono (by omega) interrupted
    exact .inl ⟨interrupted, reports_trans silent (follow_interrupted still later)⟩
  | ended running ended => exact .inr ⟨running, p', flow, entries, ended, later⟩

theorem follow_reports (ran : follow w (some n) stops p = .ok () q) : ∃ more, Reports p q more := by
  induction stops using stops_induction generalizing p with
  | nil =>
    rw [follow] at ran
    cases ran
    exact ⟨[], reports_refl _⟩
  | cons s rest ih =>
    obtain ⟨_, silent⟩ | ⟨_, p', flow, _, ended, later⟩ := follow_cons_cases ran
    · exact ⟨[], silent⟩
    · obtain ⟨more, reports'⟩ := ih flow later
      cases ended with
      | all _ reports => exact ⟨_, reports_trans reports reports'⟩
      | reached _ _ _ reports => exact ⟨_, reports_trans reports reports'⟩

/-- The stops before a run is interrupted, after a number of entries. -/
def beforeInterrupt (w : World) : (entries : Nat) → List Stop → List Stop
  | _, [] => []
  | entries, s :: rest => if w.interruptedBy (entries + 1) then [] else s :: beforeInterrupt w (entries + 1) rest

/-- Without a limit, a walk reports all issues on its way. -/
theorem follow_unlimited (free : n ≤ 0) (ran : follow w (some n) stops p = .ok () q) :
    Reports p q ((beforeInterrupt w p.entries stops).flatMap Stop.issues) := by
  induction stops generalizing p with
  | nil =>
    rw [follow] at ran
    cases ran
    exact reports_refl _
  | cons s rest ih =>
    rw [beforeInterrupt]
    obtain ⟨interrupted, silent⟩ | ⟨running, p', flow, entries, ended, later⟩ := follow_cons_cases ran
    · rw [if_pos interrupted]
      exact silent
    · rw [if_neg (by simp [running]), ← entries, List.flatMap_cons]
      cases ended with
      | all _ reports => exact reports_trans reports (ih later)
      | reached positive _ _ _ => omega

/-- Once the limit is reached, a walk reports something exactly if there is an issue on its way. -/
theorem follow_beyond (positive : 0 < n) (beyond : n ≤ p.issues) (ran : follow w (some n) stops p = .ok () q) :
    ∃ more, Reports p q more ∧ (more = [] ↔ ∀ s ∈ beforeInterrupt w p.entries stops, s.issues = []) := by
  induction stops generalizing p with
  | nil =>
    rw [follow] at ran
    cases ran
    exact ⟨[], reports_refl _, by simp [beforeInterrupt]⟩
  | cons s rest ih =>
    rw [beforeInterrupt]
    obtain ⟨interrupted, silent⟩ | ⟨running, p', flow, entries, ended, later⟩ := follow_cons_cases ran
    · rw [if_pos interrupted]
      exact ⟨[], silent, by simp⟩
    · rw [if_neg (by simp [running]), ← entries]
      cases ended with
      | all fits reports =>
        have none : s.issues = [] := by
          rcases fits with free | none | fits
          · omega
          · exact none
          · omega
        rw [none] at reports
        have same : p'.issues = p.issues := reports.issues_eq
        obtain ⟨more, reports', silent⟩ := ih (by omega) later
        refine ⟨more, reports_trans reports reports', ?_⟩
        rw [silent]
        simp [none]
      | reached _ some _ reports =>
        -- One issue is reported before the limit is looked at.
        obtain ⟨more, reports'⟩ := follow_reports later
        have one : max 1 (n - p.issues).toNat = 1 := by omega
        refine ⟨_, reports_trans reports reports', ?_⟩
        rw [one]
        simp [some]

/-- The stops that are still made when the missing number of issues has been reported: those after the directory of the last
    one of them. -/
def overtime (w : World) : (missing entries : Nat) → List Stop → List Stop
  | _, _, [] => []
  | missing, entries, s :: rest =>
    if w.interruptedBy (entries + 1) then []
    else if missing ≤ s.issues.length then beforeInterrupt w (entries + 1) (leaving s.level rest)
    else overtime w (missing - s.issues.length) (entries + 1) rest

/-- With a limit, a walk reports the same up to the limit, and nothing after it exactly if there is no issue in overtime. -/
theorem follow_limited {limit : Nat} (below : p.issues < limit) (ran : follow w (some limit) stops p = .ok () q) :
    ∃ more, Reports p q more ∧
      more.take (limit - p.issues) = ((beforeInterrupt w p.entries stops).flatMap Stop.issues).take (limit - p.issues) ∧
      (more = ((beforeInterrupt w p.entries stops).flatMap Stop.issues).take (limit - p.issues) ↔
        ∀ s ∈ overtime w (limit - p.issues) p.entries stops, s.issues = []) := by
  induction stops generalizing p with
  | nil =>
    rw [follow] at ran
    cases ran
    exact ⟨[], reports_refl _, by simp [beforeInterrupt], by simp [beforeInterrupt, overtime]⟩
  | cons s rest ih =>
    rw [beforeInterrupt, overtime]
    obtain ⟨interrupted, silent⟩ | ⟨running, p', flow, entries, ended, later⟩ := follow_cons_cases ran
    · rw [if_pos interrupted, if_pos interrupted]
      exact ⟨[], silent, by simp, by simp⟩
    · rw [if_neg (by simp [running]), if_neg (by simp [running]), ← entries, List.flatMap_cons]
      cases ended with
      | all fits reports =>
        have fits : p.issues + s.issues.length < limit := by
          rcases fits with free | none | fits
          · omega
          · simp [none, below]
          · omega
        have counted := reports.issues_eq
        have left : limit - p'.issues = limit - p.issues - s.issues.length := by omega
        have split : ∀ l : List Issue, (s.issues ++ l).take (limit - p.issues) =
            s.issues ++ l.take (limit - p.issues - s.issues.length) := fun l => by
          rw [List.take_append, List.take_of_length_le (by omega)]
        obtain ⟨more, reports', same, law⟩ := ih (by omega) later
        rw [left] at same law
        rw [if_neg (by omega)]
        refine ⟨_, reports_trans reports reports', ?_, ?_⟩
        · rw [split, split, same]
        · rw [split, List.append_cancel_left_eq]
          exact law
      | reached positive _ enough reports =>
        -- The limit is reached at this stop, so all that is reported up to the limit comes from it.
        have count : max 1 ((limit : Int) - p.issues).toNat = limit - p.issues := by omega
        rw [count] at reports
        have length : (s.issues.take (limit - p.issues)).length = limit - p.issues := by
          rw [List.length_take]
          omega
        have counted := reports.issues_eq
        obtain ⟨more, reports', silent⟩ := follow_beyond positive (by omega) later
        rw [if_pos (by omega), List.take_append_of_le_length (by omega)]
        refine ⟨_, reports_trans reports reports', ?_, ?_⟩
        · rw [List.take_append_of_le_length (by omega), List.take_take, Nat.min_self]
        · rw [after] at silent
          rw [← silent]
          simp

end Walk

/-! ### Runs with a limit -/

namespace Run

/-- The plan of the walk that a run makes, if it makes one. -/
def plan? (w : World) (options : Options) : Option Walk.Plan :=
  if options.showVersion || options.showLocation then none
  else
    match Walk.probe w options.root Walk.isDirectory, resolvedRoot w options.root,
      Walk.probe w (options.root.child ".git".toList) (fun _ => true) with
    | .ok true, .ok root, .ok isRepository => some ⟨w, options, root, isRepository⟩
    | _, _, _ => none

/-- How far a run has come at the end of its walk, if it makes one that does not fail. This is what the run has to print; if it
    cannot print some of it, it ends there. -/
def walked? (w : World) (options : Options) : Option Progress :=
  match plan? w options with
  | none => none
  | some plan =>
    match Walk.walk plan w.levels options.root Progress.start with
    | .ok () p => some p
    | .error _ _ => none

/-- The stops on the way of a run, if it makes a walk in a directory that can be listed. -/
def stops? (w : World) (options : Options) : Option (List Walk.Stop) :=
  match plan? w options with
  | none => none
  | some plan => (Walk.route plan w.levels 0 options.root).toOption

/-- What a run prints before its walk. -/
def opening (plan : Walk.Plan) : List Text :=
  Report.banner ++ Report.line ("root: ".toList ++ plan.root.toText) ++
    gitNotes plan.world plan.options.verbose plan.isRepository

theorem plan_parts {w : World} {options : Options} {plan : Walk.Plan} (walks : plan? w options = some plan) :
    plan.world = w ∧ plan.options = options ∧ withOptions w options = walkAndReport plan (opening plan) := by
  unfold plan? at walks
  split at walks
  · cases walks
  · rename_i others
    rw [Bool.not_eq_true, Bool.or_eq_false_iff] at others
    split at walks
    · rename_i root isRepository isDirectory resolved git
      cases walks
      refine ⟨rfl, rfl, ?_⟩
      rw [withOptions, others.1, others.2, isDirectory]
      simp only [Bool.false_eq_true, ↓reduceIte, checkProject, resolved, git]
      rfl
    · cases walks

/-- The plan of a run follows from what is asked for and from what is at the root. -/
theorem plan_congr {w w' : World} {options options' : Options}
    (asked : (options'.showVersion || options'.showLocation) = (options.showVersion || options.showLocation))
    (top : Walk.probe w' options'.root Walk.isDirectory = Walk.probe w options.root Walk.isDirectory)
    (resolved : resolvedRoot w' options'.root = resolvedRoot w options.root)
    (git : Walk.probe w' (options'.root.child ".git".toList) (fun _ => true) =
      Walk.probe w (options.root.child ".git".toList) fun _ => true) :
    plan? w' options' = (plan? w options).map fun plan => ⟨w', options', plan.root, plan.isRepository⟩ := by
  simp only [plan?, asked, top, resolved, git]
  split
  · rfl
  · cases Walk.probe w options.root Walk.isDirectory with
    | error obstacle => rfl
    | ok isDirectory =>
      cases isDirectory with
      | false => rfl
      | true =>
        cases resolvedRoot w options.root with
        | error f => rfl
        | ok root =>
          cases Walk.probe w (options.root.child ".git".toList) (fun _ => true) with
          | error obstacle => rfl
          | ok isRepository => rfl

theorem plan_limited (w : World) (options : Options) (limit : Int) :
    plan? w { options with limit := some limit } = (plan? w options).map (·.limitedTo limit) := by
  have limited : plan? w { options with limit := some limit } =
      (plan? w options).map fun plan => ⟨w, { options with limit := some limit }, plan.root, plan.isRepository⟩ :=
    plan_congr rfl rfl rfl rfl
  rw [limited]
  cases planned : plan? w options with
  | none => rfl
  | some plan =>
    obtain ⟨rfl, rfl, _⟩ := plan_parts planned
    rfl

/-- What a run prints after its walk, and the code it ends with. -/
theorem exists_opening {w : World} {options : Options} {p : Progress} (walked : walked? w options = some p) :
    ∃ plan, plan? w options = some plan ∧ withOptions w options =
      ⟨opening plan ++ Report.events options.verbose p.log.reverse ++ Report.summary p, .exit p.issues⟩ := by
  unfold walked? at walked
  cases walks : plan? w options with
  | none => simp [walks] at walked
  | some plan =>
    obtain ⟨world, same, made⟩ := plan_parts walks
    cases ran : Walk.walk plan w.levels options.root Progress.start with
    | error f p' => simp [walks, ran] at walked
    | ok _ p' =>
      simp only [walks, ran, Option.some.injEq] at walked
      rw [walked] at ran
      rw [made, walkAndReport, world, same, ran]
      exact ⟨plan, rfl, rfl⟩

theorem withOptions_of_walked {w : World} {options : Options} {p : Progress} (walked : walked? w options = some p) :
    ∃ before, withOptions w options =
      ⟨before ++ Report.events options.verbose p.log.reverse ++ Report.summary p, .exit p.issues⟩ := by
  obtain ⟨plan, _, made⟩ := exists_opening walked
  exact ⟨opening plan, made⟩

theorem walk_of_route {w : World} {options : Options} {plan : Walk.Plan} {stops : List Walk.Stop}
    (planned : plan? w options = some plan) (listed : Walk.route plan w.levels 0 options.root = .ok stops) :
    Walk.walk plan w.levels options.root Progress.start = Walk.follow w options.limit stops Progress.start := by
  obtain ⟨world, same, _⟩ := plan_parts planned
  rw [Walk.walk_eq_follow, listed, world, same]
  rfl

/-- A run whose walk does not fail goes from stop to stop on its way. -/
theorem follow_of_walked {w : World} {options : Options} {p : Progress} (walked : walked? w options = some p) :
    ∃ stops, stops? w options = some stops ∧ Walk.follow w options.limit stops Progress.start = .ok () p := by
  unfold walked? at walked
  unfold stops?
  cases planned : plan? w options with
  | none => simp [planned] at walked
  | some plan =>
    cases ran : Walk.walk plan w.levels options.root Progress.start with
    | error f q => simp [planned, ran] at walked
    | ok _ q =>
      simp only [planned, ran, Option.some.injEq] at walked
      subst walked
      cases listed : Walk.route plan w.levels 0 options.root with
      | error f =>
        rw [Walk.walk_eq_follow, listed] at ran
        cases ran
      | ok stops =>
        rw [walk_of_route planned listed] at ran
        exact ⟨stops, by simp [listed, Except.toOption], ran⟩

/-- The way of a run does not depend on the limit. -/
theorem stops_limited (w : World) (options : Options) (limit : Int) :
    stops? w { options with limit := some limit } = stops? w options := by
  unfold stops?
  rw [plan_limited]
  cases plan? w options with
  | none => rfl
  | some plan => simp only [Option.map_some, Walk.route_limitedTo]

/-- Let neither a run with a limit nor the same run without one fail. The first issues that they report are the same, as many
    as the limit says. The run with a limit reports these alone, and does not report more than the limit says, exactly if
    there is no issue at the stops that are still made after the limit is reached. -/
theorem reported_of_limit {w : World} {options : Options} {n : Nat} {m : Int} (positive : 0 < n) (free : m ≤ 0) {p q : Progress}
    (limited : walked? w { options with limit := some (n : Int) } = some p)
    (unlimited : walked? w { options with limit := some m } = some q) :
    ∃ stops, stops? w options = some stops ∧
      p.reported.take n = q.reported.take n ∧
      (p.reported = q.reported.take n ↔ ∀ s ∈ Walk.overtime w n 0 stops, s.issues = []) ∧
      (p.reported.length ≤ n ↔ ∀ s ∈ Walk.overtime w n 0 stops, s.issues = []) ∧
      ∃ before, withOptions w { options with limit := some (n : Int) } =
        ⟨before ++ Report.events options.verbose p.log.reverse ++ Report.summary p, .exit p.reported.length⟩ := by
  obtain ⟨stops, listed, followed⟩ := follow_of_walked limited
  obtain ⟨stops', listed', followed'⟩ := follow_of_walked unlimited
  rw [stops_limited] at listed listed'
  cases listed.symm.trans listed'
  obtain ⟨more, reports, same, law⟩ := Walk.follow_limited (show Progress.start.issues < n from positive) followed
  have all := Walk.follow_unlimited free followed'
  have reported : p.reported = more := reports.reported_eq
  have reported' : q.reported = (Walk.beforeInterrupt w 0 stops).flatMap Walk.Stop.issues := all.reported_eq
  have counted : p.issues = p.reported.length := by
    rw [reports.issues_eq, reported]
    exact Nat.zero_add _
  obtain ⟨before, made⟩ := withOptions_of_walked limited
  simp only [show Progress.start.issues = 0 from rfl, show Progress.start.entries = 0 from rfl, Nat.sub_zero] at same law
  rw [← reported, ← reported'] at same law
  refine ⟨stops, listed, same, law, ?_, before, by rw [made, counted]⟩
  rw [← law]
  constructor
  · intro few
    rw [← same, List.take_of_length_le few]
  · intro exactly
    rw [exactly, List.length_take]
    exact Nat.min_le_left _ _

/-- A directory with a script that has one issue. -/
def scriptDirectory : Node :=
  .directory [("x.cmake".toList, .file "add_library(x)".toUTF8 false)] false

/-- A working directory with two such directories in it. -/
def twoScripts : World where
  disk := .directory [("r".toList, .directory [("a".toList, scriptDirectory), ("b".toList, scriptDirectory)] false)] false
  here := ["r".toList]
  ignored := none
  interruptAt := none
  terminal := false
  location := []
  levels := World.usualLevels
  roomy := World.usualLevels_roomy

/-- A run in the working directory that asks for nothing special. -/
def plainRun : Options := ⟨false, true, false, false, some 0, .ofText ['.']⟩

/-- With one issue as the limit, the script in the second directory still reports its issue. -/
theorem limit_passed_in_second_directory :
    ∃ p q, walked? twoScripts { plainRun with limit := some (1 : Nat) } = some p ∧
      walked? twoScripts { plainRun with limit := some 0 } = some q ∧
      p.reported.take 1 = q.reported.take 1 ∧ p.reported ≠ q.reported.take 1 ∧
      ∃ before, withOptions twoScripts { plainRun with limit := some (1 : Nat) } =
        ⟨before ++ Report.events false p.log.reverse ++ Report.summary p, .exit 2⟩ := by
  have counts : (walked? twoScripts { plainRun with limit := some (1 : Nat) }).map (·.reported.length) = some 2 := by
    decide +kernel
  have counts' : (walked? twoScripts { plainRun with limit := some 0 }).isSome = true := by decide +kernel
  obtain ⟨p, limited, length⟩ := Option.map_eq_some_iff.mp counts
  obtain ⟨q, unlimited⟩ := Option.isSome_iff_exists.mp counts'
  obtain ⟨stops, _, same, law, few, before, made⟩ := reported_of_limit Nat.one_pos (Int.le_refl 0) limited unlimited
  refine ⟨p, q, limited, unlimited, same, ?_, before, ?_⟩
  · rw [Ne, law, ← few, length]
    decide
  · rw [made, length]
    rfl

end Run

end CMakeLint
