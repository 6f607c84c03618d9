import CMakeLint.Proofs.Walk.Totals
import Mathlib.Data.List.Basic

/-!
Walks without a limit that are not interrupted. Such a walk makes every stop on its route up to the first one that fails
(`follow_good`, `follow_bad`). So a run ends without a failure exactly if no stop fails, and then it reads every script and
reports every issue on its way (`walked_of_good`, `good_of_walked`).
-/
namespace CMakeLint

namespace Walk

/-- Why a walk cannot go on at a stop. -/
def Stop.failure? (s : Stop) : Option Failure :=
  match s.errand with
  | .error f => some f
  | .ok (.check path _ content locked) =>
    match readText path content locked with
    | .error f => some f
    | .ok t =>
      match Lint.issues path t with
      | .error fault => some (.refused fault)
      | .ok _ => none
  | .ok _ => none

/-- What happens when a script with these issues is checked and there is no limit. -/
def scriptEvents (place : Place) : List Issue → List Event
  | [] => [.clean place]
  | issues => issues.map .found

/-- What happens at a stop that does not fail if there is no limit. -/
def Stop.events (s : Stop) : List Event :=
  match s.errand with
  | .ok (.skip place reason) => [.skipped place reason]
  | .ok (.check path place content locked) => .read path :: scriptEvents place (scriptIssues path content locked)
  | _ => []

/-- These events are logged from one state of a walk to another. -/
def Logged (p q : Progress) (events : List Event) : Prop :=
  q.log.reverse = p.log.reverse ++ events

/-- A walk has gone from one state to another by some stops, and reported what there was to report. -/
structure Passed (p q : Progress) (stops : List Stop) : Prop where
  reported_eq : q.reported = p.reported ++ stops.flatMap Stop.issues
  reads_eq : q.reads = p.reads ++ stops.filterMap Stop.read?

theorem issue?_scriptEvents (place : Place) (issues : List Issue) :
    (scriptEvents place issues).filterMap Event.issue? = issues := by
  cases issues with
  | nil => rfl
  | cons issue rest => simp [scriptEvents, Event.issue?, Function.comp_def]

theorem read?_scriptEvents (place : Place) (issues : List Issue) :
    (scriptEvents place issues).filterMap Event.read? = [] := by
  cases issues with
  | nil => rfl
  | cons issue rest => simp [scriptEvents, Event.read?]

theorem issue?_events (s : Stop) : s.events.filterMap Event.issue? = s.issues := by
  obtain ⟨level, errand⟩ := s
  cases errand with
  | error f => rfl
  | ok errand =>
    cases errand with
    | check path place content locked =>
      rw [Stop.events, List.filterMap_cons_none rfl, issue?_scriptEvents]
      rfl
    | _ => rfl

theorem read?_events (s : Stop) : s.events.filterMap Event.read? = s.read?.toList := by
  obtain ⟨level, errand⟩ := s
  cases errand with
  | error f => rfl
  | ok errand =>
    cases errand with
    | check path place content locked =>
      have script : Stop.events ⟨level, .ok (.check path place content locked)⟩ =
          .read path :: scriptEvents place (scriptIssues path content locked) := rfl
      simp [script, read?_scriptEvents, Event.read?, Stop.read?]
    | _ => rfl

/-- What is logged tells what is reported and read. -/
theorem passed_of_logged {p q : Progress} {stops : List Stop} (logged : Logged p q (stops.flatMap Stop.events)) :
    Passed p q stops := by
  constructor
  · rw [Progress.reported, logged, List.filterMap_append, List.filterMap_flatMap]
    simp only [issue?_events]
    rfl
  · rw [Progress.reads, logged, List.filterMap_append, List.filterMap_flatMap]
    simp only [read?_events]
    rw [← List.filterMap_eq_flatMap_toList]
    rfl

variable {n : Int}

/-- Without a limit, all issues of a script are reported. -/
theorem reportIssues_free (free : n ≤ 0) (issues : List Issue) (p : Progress) :
    ∃ q, reportIssues (some n) issues p = .ok .next q ∧ Logged p q (issues.map .found) := by
  induction issues generalizing p with
  | nil => exact ⟨p, rfl, (List.append_nil _).symm⟩
  | cons issue rest ih =>
    obtain ⟨q, ran, logged⟩ := ih { p with issues := p.issues + 1, log := .found issue :: p.log }
    refine ⟨q, ?_, ?_⟩
    · rw [reportIssues_cons, if_neg (by omega), ran]
    · rw [Logged, logged]
      simp

theorem reportFindings_free (free : n ≤ 0) (place : Place) (issues : List Issue) (p : Progress) :
    ∃ q, reportFindings (some n) place (.ok issues) p = .ok .next q ∧ Logged p q (scriptEvents place issues) := by
  cases issues with
  | nil =>
    refine ⟨{ p with log := .clean place :: p.log }, rfl, ?_⟩
    simp [Logged, scriptEvents]
  | cons issue rest => exact reportIssues_free free (issue :: rest) p

/-- A script that can be read and checked is read, and all its issues are reported. -/
theorem visitScript_free (free : n ≤ 0) {path : Path} (place : Place) {content : ByteArray} {locked : Bool} {t : Text}
    {issues : List Issue} (text : readText path content locked = .ok t) (found : Lint.issues path t = .ok issues)
    (p : Progress) :
    ∃ q, visitScript (some n) path place content locked p = .ok .next q ∧
      Logged p q (.read path :: scriptEvents place issues) := by
  obtain ⟨q, ran, logged⟩ :=
    reportFindings_free free place issues { p with files := p.files + 1, log := .read path :: p.log }
  refine ⟨q, ?_, ?_⟩
  · rw [visitScript_read text, found, ran]
  · rw [Logged, logged]
    simp

theorem act_good (free : n ≤ 0) {s : Stop} (good : s.failure? = none) (p : Progress) :
    ∃ q, s.act (some n) p = .ok .next q ∧ Logged p q s.events := by
  obtain ⟨level, errand⟩ := s
  cases errand with
  | error f => cases good
  | ok errand =>
    cases errand with
    | nothing => exact ⟨p, rfl, (List.append_nil _).symm⟩
    | descend path => exact ⟨p, rfl, (List.append_nil _).symm⟩
    | skip place reason =>
      refine ⟨{ p with log := .skipped place reason :: p.log }, rfl, ?_⟩
      simp [Logged, Stop.events]
    | check path place content locked =>
      cases text : readText path content locked with
      | error f => simp [Stop.failure?, text] at good
      | ok t =>
        cases found : Lint.issues path t with
        | error fault => simp [Stop.failure?, text, found] at good
        | ok issues =>
          obtain ⟨q, ran, logged⟩ := visitScript_free free place text found p
          refine ⟨q, ran, ?_⟩
          simpa [Stop.events, scriptIssues, text, found, Except.toOption] using logged

theorem act_bad {s : Stop} {f : Failure} (bad : s.failure? = some f) (p : Progress) :
    ∃ q, s.act (some n) p = .error f q ∧ q.reported = p.reported := by
  obtain ⟨level, errand⟩ := s
  cases errand with
  | error f' =>
    cases bad
    exact ⟨p, rfl, rfl⟩
  | ok errand =>
    cases errand with
    | nothing => cases bad
    | descend path => cases bad
    | skip place reason => cases bad
    | check path place content locked =>
      cases text : readText path content locked with
      | error f' =>
        simp only [Stop.failure?, text, Option.some.injEq] at bad
        subst bad
        exact ⟨_, visitScript_unread text (some n) place p, rfl⟩
      | ok t =>
        cases found : Lint.issues path t with
        | ok issues => simp [Stop.failure?, text, found] at bad
        | error fault =>
          simp only [Stop.failure?, text, found, Option.some.injEq] at bad
          subst bad
          refine ⟨{ p with files := p.files + 1, log := .read path :: p.log }, ?_, ?_⟩
          · have checked := visitScript_read text (some n) place p
            rw [found] at checked
            exact checked
          · simp [Progress.reported, Event.issue?, List.filterMap_cons]

/-! ### Following a route -/

theorem first_bad (stops : List Stop) : (∀ s ∈ stops, s.failure? = none) ∨
    ∃ before s rest f, stops = before ++ s :: rest ∧ (∀ s ∈ before, s.failure? = none) ∧ s.failure? = some f := by
  induction stops with
  | nil => exact .inl (by simp)
  | cons s stops ih =>
    cases failure : s.failure? with
    | some f => exact .inr ⟨[], s, stops, f, rfl, by simp, failure⟩
    | none =>
      rcases ih with good | ⟨before, s', rest, f, rfl, good, bad⟩
      · exact .inl (by simpa [failure] using good)
      · exact .inr ⟨s :: before, s', rest, f, rfl, by simpa [failure] using good, bad⟩

variable {w : World} {stops : List Stop}

theorem running_of_uninterrupted (uninterrupted : w.interruptAt = none) (e : Nat) : w.interruptedBy e = false := by
  simp [World.interruptedBy, uninterrupted]

theorem follow_step (uninterrupted : w.interruptAt = none) (free : n ≤ 0) {s : Stop} (good : s.failure? = none)
    (rest : List Stop) (p : Progress) :
    ∃ q, follow w (some n) (s :: rest) p = follow w (some n) rest q ∧ Logged p q s.events := by
  obtain ⟨q, acted, logged⟩ := act_good free good { p with entries := p.entries + 1 }
  exact ⟨q, follow_acted (running_of_uninterrupted uninterrupted _) acted rest, logged⟩

/-- A walk past stops that do not fail does not fail itself, and logs what happens at each of them. -/
theorem follow_good (uninterrupted : w.interruptAt = none) (free : n ≤ 0) (good : ∀ s ∈ stops, s.failure? = none)
    (p : Progress) : ∃ q, follow w (some n) stops p = .ok () q ∧ Logged p q (stops.flatMap Stop.events) := by
  induction stops generalizing p with
  | nil =>
    refine ⟨p, ?_, (List.append_nil _).symm⟩
    rw [follow]
    rfl
  | cons s rest ih =>
    obtain ⟨q, step, logged⟩ := follow_step uninterrupted free (good s List.mem_cons_self) rest p
    obtain ⟨r, ran, logged'⟩ := ih (fun s member => good s (List.mem_cons_of_mem _ member)) q
    refine ⟨r, by rw [step, ran], ?_⟩
    rw [Logged, logged', logged, List.flatMap_cons, List.append_assoc]

/-- A walk ends at the first stop that fails, with what was reported before it. -/
theorem follow_bad (uninterrupted : w.interruptAt = none) (free : n ≤ 0) (good : ∀ s ∈ stops, s.failure? = none)
    {s : Stop} {f : Failure} (bad : s.failure? = some f) (rest : List Stop) (p : Progress) :
    ∃ q, follow w (some n) (stops ++ s :: rest) p = .error f q ∧ q.reported = p.reported ++ stops.flatMap Stop.issues := by
  induction stops generalizing p with
  | nil =>
    obtain ⟨q, acted, reported⟩ := act_bad bad { p with entries := p.entries + 1 }
    refine ⟨q, ?_, by rw [reported]; exact (List.append_nil _).symm⟩
    exact follow_failed (running_of_uninterrupted uninterrupted _) acted rest
  | cons s' stops ih =>
    obtain ⟨q, step, logged⟩ := follow_step uninterrupted free (good s' List.mem_cons_self) (stops ++ s :: rest) p
    obtain ⟨r, ran, reported⟩ := ih (fun s member => good s (List.mem_cons_of_mem _ member)) q
    have passed : Passed p q [s'] := passed_of_logged (by simpa using logged)
    refine ⟨r, by rw [List.cons_append, step, ran], ?_⟩
    rw [reported, passed.reported_eq]
    simp

end Walk

namespace Run

variable {w : World} {options : Options} {plan : Walk.Plan} {stops : List Walk.Stop} {n : Int} {p : Progress}

theorem totals_of_walked (walked : walked? w options = some p) :
    ∃ before, withOptions w options =
      ⟨before ++ Report.line (Report.totals p.reported.length p.reads.length), .exit p.reported.length⟩ := by
  have tallied := tallied_of_walked walked
  obtain ⟨before, made⟩ := withOptions_of_walked walked
  refine ⟨before ++ Report.events options.verbose p.log.reverse, ?_⟩
  rw [made, ← tallied.issues_eq, ← tallied.files_eq]
  rfl

/-- A run that makes a walk ends in a failure, or its walk does not fail. -/
theorem failed_or_walked (planned : plan? w options = some plan) :
    (∃ (q : Progress) (f : Failure), withOptions w options =
        ⟨opening plan ++ Report.events options.verbose q.log.reverse, .failure f⟩ ∧ walked? w options = none) ∨
      ∃ p, walked? w options = some p := by
  obtain ⟨world, same, made⟩ := plan_parts planned
  rw [walked?, planned]
  cases ran : Walk.walk plan w.levels options.root Progress.start with
  | ok _ p => exact .inr ⟨p, by simp only [ran]⟩
  | error f p =>
    refine .inl ⟨p, f, ?_, by simp only [ran]⟩
    rw [made, walkAndReport, world, same, ran]

section Free
variable (planned : plan? w options = some plan) (uninterrupted : w.interruptAt = none) (limit : options.limit = some n)
  (free : n ≤ 0)
include planned uninterrupted limit free

/-- A run past stops that do not fail reads every script and reports every issue there. -/
theorem walked_of_good (listed : Walk.route plan w.levels 0 options.root = .ok stops)
    (good : ∀ s ∈ stops, s.failure? = none) :
    ∃ p, walked? w options = some p ∧ p.reported = stops.flatMap Walk.Stop.issues ∧
      p.reads = stops.filterMap Walk.Stop.read? := by
  obtain ⟨p, ran, logged⟩ := Walk.follow_good uninterrupted free good Progress.start
  have passed := Walk.passed_of_logged logged
  refine ⟨p, ?_, passed.reported_eq, passed.reads_eq⟩
  rw [walked?, planned]
  simp only [walk_of_route planned listed, limit, ran]

/-- The walk of such a run logs what happens at each stop. -/
theorem log_of_good (listed : Walk.route plan w.levels 0 options.root = .ok stops)
    (good : ∀ s ∈ stops, s.failure? = none) (walked : walked? w options = some p) :
    p.log.reverse = stops.flatMap Walk.Stop.events := by
  obtain ⟨q, ran, logged⟩ := Walk.follow_good uninterrupted free good Progress.start
  rw [walked?, planned] at walked
  simp only [walk_of_route planned listed, limit, ran, Option.some.injEq] at walked
  rw [← walked]
  exact logged

/-- A run that comes to a stop that fails ends there, with what was reported before it. -/
theorem failed_of_bad {s : Walk.Stop} {rest : List Walk.Stop} {f : Failure}
    (listed : Walk.route plan w.levels 0 options.root = .ok (stops ++ s :: rest))
    (good : ∀ s ∈ stops, s.failure? = none) (bad : s.failure? = some f) :
    ∃ q : Progress, withOptions w options = ⟨opening plan ++ Report.events options.verbose q.log.reverse, .failure f⟩ ∧
      q.reported = stops.flatMap Walk.Stop.issues ∧ walked? w options = none := by
  obtain ⟨world, same, made⟩ := plan_parts planned
  obtain ⟨q, ran, reported⟩ := Walk.follow_bad uninterrupted free good bad rest Progress.start
  have walk := walk_of_route planned listed
  rw [limit, ran] at walk
  refine ⟨q, ?_, reported, ?_⟩
  · rw [made, walkAndReport, world, same, walk]
  · rw [walked?, planned]
    simp only [walk]

/-- A run that does not fail has passed all stops on its way, and none of them fails. -/
theorem good_of_walked (walked : walked? w options = some p) :
    ∃ stops, Walk.route plan w.levels 0 options.root = .ok stops ∧ (∀ s ∈ stops, s.failure? = none) ∧
      p.reported = stops.flatMap Walk.Stop.issues ∧ p.reads = stops.filterMap Walk.Stop.read? := by
  cases listed : Walk.route plan w.levels 0 options.root with
  | error f =>
    have walk : Walk.walk plan w.levels options.root Progress.start = .error f Progress.start := by
      rw [Walk.walk_eq_follow, listed]
      rfl
    rw [walked?, planned] at walked
    simp only [walk] at walked
    cases walked
  | ok stops =>
    rcases Walk.first_bad stops with good | ⟨before, s, rest, f, rfl, good, bad⟩
    · obtain ⟨q, walked', reported, reads⟩ := walked_of_good planned uninterrupted limit free listed good
      rw [walked] at walked'
      cases walked'
      exact ⟨stops, rfl, good, reported, reads⟩
    · obtain ⟨_, _, _, failed⟩ := failed_of_bad planned uninterrupted limit free listed good bad
      rw [walked] at failed
      cases failed

theorem failed_of_mem {s : Walk.Stop} (listed : Walk.route plan w.levels 0 options.root = .ok stops)
    (member : s ∈ stops) (bad : s.failure? ≠ none) :
    ∃ (q : Progress) (f : Failure), withOptions w options =
      ⟨opening plan ++ Report.events options.verbose q.log.reverse, .failure f⟩ ∧ walked? w options = none := by
  rcases failed_or_walked planned with failed | ⟨p, walked⟩
  · exact failed
  · obtain ⟨stops', listed', good, _⟩ := good_of_walked planned uninterrupted limit free walked
    rw [listed] at listed'
    cases listed'
    exact absurd (good s member) bad

end Free

end Run

end CMakeLint
