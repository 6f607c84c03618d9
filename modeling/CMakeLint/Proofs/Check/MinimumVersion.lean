import CMakeLint.Proofs.Check.Calls

/-!
The check of minimum versions. It looks at the first project and at the first requirement of a version only, but says whether
there is any project without a requirement before it (`findings_of_minimumVersion`): the first project is such a one if there is
any.
-/
namespace CMakeLint

/-- A call of `project`. -/
def IsProject (t : Text) (c : Call) : Prop :=
  IsCall ["project"] t c

/-- A call of `cmake_minimum_required`. -/
def IsRequirement (t : Text) (c : Call) : Prop :=
  IsCall ["cmake_minimum_required"] t c

/-- A project with no requirement of a version before it. -/
def IsUnprepared (t : Text) (p : Call) : Prop :=
  IsProject t p ∧ ∀ r, IsRequirement t r → ¬ r.start < p.start

/-- A project and a requirement do not start at the same place, since their names start with different letters. -/
theorem IsProject.start_ne {t : Text} {p r : Call} (project : IsProject t p) (requirement : IsRequirement t r) :
    p.start ≠ r.start := by
  intro same
  obtain ⟨_, ahead⟩ := List.append_inj (project.text_eq.trans requirement.text_eq.symm) same
  rw [List.mem_singleton.mp project.named, List.mem_singleton.mp requirement.named] at ahead
  exact absurd (congrArg List.head? ahead) (by simp)

/-- If some project is not prepared, the first one is not. -/
theorem exists_unprepared_iff {t : Text} : (∃ p, IsUnprepared t p) ↔
    ∃ p, IsFirst Call.start (IsProject t) p ∧ ∀ r, IsFirst Call.start (IsRequirement t) r → p.start < r.start := by
  constructor
  · rintro ⟨p, project, none⟩
    obtain ⟨p', first⟩ := IsFirst.exists Call.start project
    refine ⟨p', first, fun r requirement => ?_⟩
    have := first.2 p project
    have := none r requirement.1
    have := first.1.start_ne requirement.1
    omega
  · rintro ⟨p, first, earlier⟩
    refine ⟨p, first.1, fun r requirement => ?_⟩
    obtain ⟨r', first'⟩ := IsFirst.exists Call.start requirement
    have := first'.2 r requirement
    have := earlier r' first'
    omega

/-- An issue shows all lines of a call. -/
def Issue.ShowsCall (i : Issue) (c : Call) : Prop :=
  i.context.start ≤ c.start ∧ c.stop ≤ i.context.stop

/-- An issue is about the name of a call. -/
def Issue.NamesCall (i : Issue) (c : Call) : Prop :=
  i.span.start = c.start ∧ i.span.stop = c.nameStop

namespace Check

variable {path : Path} {t : Text}

/-- A call as the check of minimum versions matches it. -/
def versionMatch : Call → Pattern.Match :=
  Pattern.matchOf (some 1) (some 2)

theorem areWords_project : Text.areWords ["project"] = true := by decide +kernel

theorem areWords_requirement : Text.areWords ["cmake_minimum_required"] = true := by decide +kernel

/-- Without any requirement the first project is reported. -/
theorem minimumVersionSpot_of_project (list : isListFile path = true) {p : Call} (first : IsFirst Call.start (IsProject t) p)
    (missing : ∀ r, ¬ IsRequirement t r) : minimumVersionSpot? path t = some (.ofMatch (versionMatch p) 1 none) := by
  rw [minimumVersionSpot?, Pattern.callNamedWithArguments_eq, Pattern.callNamedWithArguments_eq,
    Pattern.search_calls _ _ areWords_project first, Pattern.search_no_calls _ _ areWords_requirement missing]
  simp [list, versionMatch]

/-- The first requirement is reported if it comes after the first project. -/
theorem minimumVersionSpot_of_both (list : isListFile path = true) {p r : Call} (first : IsFirst Call.start (IsProject t) p)
    (first' : IsFirst Call.start (IsRequirement t) r) : minimumVersionSpot? path t =
      if p.start < r.start then some ⟨versionMatch r, 1, none, p.start, (max p.stop r.stop : Nat) - 1⟩ else none := by
  rw [minimumVersionSpot?, Pattern.callNamedWithArguments_eq, Pattern.callNamedWithArguments_eq,
    Pattern.search_calls _ _ areWords_project first, Pattern.search_calls _ _ areWords_requirement first']
  simp only [list, Bool.not_true, Bool.false_eq_true, ↓reduceIte]
  rfl

theorem minimumVersionSpot_of_other (list : isListFile path = false) : minimumVersionSpot? path t = none := by
  rw [minimumVersionSpot?, list]
  rfl

theorem minimumVersionSpot_of_no_project (missing : ∀ p, ¬ IsProject t p) : minimumVersionSpot? path t = none := by
  rw [minimumVersionSpot?, Pattern.callNamedWithArguments_eq, Pattern.search_no_calls _ _ areWords_project missing]
  simp

/-- There is something to report exactly if some project in the main script of a directory is not prepared. -/
theorem minimumVersionSpot_isSome_iff :
    (minimumVersionSpot? path t).isSome = true ↔ isListFile path = true ∧ ∃ p, IsUnprepared t p := by
  rw [exists_unprepared_iff]
  cases list : isListFile path with
  | false => simp [minimumVersionSpot_of_other list]
  | true =>
    by_cases project : ∃ p, IsProject t p
    · obtain ⟨_, project⟩ := project
      obtain ⟨p, first⟩ := IsFirst.exists Call.start project
      by_cases requirement : ∃ r, IsRequirement t r
      · obtain ⟨_, requirement⟩ := requirement
        obtain ⟨r, first'⟩ := IsFirst.exists Call.start requirement
        rw [minimumVersionSpot_of_both list first first']
        by_cases later : p.start < r.start
        · rw [if_pos later]
          refine iff_of_true rfl ⟨rfl, p, first, fun r' first'' => ?_⟩
          rwa [← first'.start_eq first'']
        · rw [if_neg later]
          refine iff_of_false (by simp) ?_
          rintro ⟨_, p', first'', earlier⟩
          have := first.start_eq first''
          have := earlier r first'
          omega
      · have missing : ∀ r, ¬ IsRequirement t r := fun r found => requirement ⟨r, found⟩
        rw [minimumVersionSpot_of_project list first missing]
        exact iff_of_true rfl ⟨rfl, p, first, fun r first' => absurd first'.1 (missing r)⟩
    · have missing : ∀ p, ¬ IsProject t p := fun p found => project ⟨p, found⟩
      rw [minimumVersionSpot_of_no_project missing]
      refine iff_of_false (by simp) ?_
      rintro ⟨_, p, first, _⟩
      exact missing p first.1

/-- The lines that are shown of a spot are those from its first to its last character. -/
theorem context_of_madeFrom {check : Check} {s : Spot} {i : Issue} {first last start stop : Nat}
    (grounded : s.Grounded t first last start stop) (made : i.MadeFrom check path t s) :
    i.context.start ≤ first ∧ last + 1 ≤ i.context.stop := by
  have after := grounded.after
  have starts := grounded.starts
  have ordered := grounded.ordered
  have before := grounded.before
  obtain ⟨context, lines, opens, closes, _⟩ :=
    wholeLines_spec grounded.firstChar grounded.lastChar (by omega) (by omega) grounded.inside
  have same := made.context_eq
  rw [grounded.start_eq, grounded.last_eq, lines] at same
  cases same
  exact ⟨opens, closes⟩

/-- An issue about minimum versions shows the first project, and the first requirement if there is one. It is about the name of
    the latter, or else of the former. -/
theorem minimumVersion_issue {s : Spot} (spot : minimumVersionSpot? path t = some s) {i : Issue}
    (made : i.MadeFrom minimumVersion path t s) (reports : i.Reports minimumVersion t s) :
    ∃ p, IsFirst Call.start (IsProject t) p ∧ i.ShowsCall p ∧
      (((∀ r, ¬ IsRequirement t r) ∧ i.NamesCall p) ∨
        ∃ r, IsFirst Call.start (IsRequirement t) r ∧ i.ShowsCall r ∧ i.NamesCall r) := by
  obtain ⟨first, last, start, stop, grounded⟩ := minimumVersionSpot_grounded spot
  obtain ⟨opens, closes⟩ := context_of_madeFrom grounded made
  obtain ⟨list, unprepared⟩ := minimumVersionSpot_isSome_iff.mp (Option.isSome_of_eq_some spot)
  obtain ⟨p, firstly, earlier⟩ := exists_unprepared_iff.mp unprepared
  have named : ∀ c, s.found = versionMatch c → s.group = 1 → i.NamesCall c := by
    intro c found group
    have bounds := reports.group_eq
    rw [found, group] at bounds
    have same : (c.start, c.nameStop) = (i.span.start, i.span.stop) := Option.some.inj bounds
    exact ⟨(congrArg Prod.fst same).symm, (congrArg Prod.snd same).symm⟩
  refine ⟨p, firstly, ?_⟩
  by_cases requirement : ∃ r, IsRequirement t r
  · obtain ⟨_, requirement⟩ := requirement
    obtain ⟨r, firstly'⟩ := IsFirst.exists Call.start requirement
    have later := earlier r firstly'
    rw [minimumVersionSpot_of_both list firstly firstly', if_pos later] at spot
    cases spot
    have startEq : ((p.start : Nat) : Int) = first := grounded.start_eq
    have lastEq : ((max p.stop r.stop : Nat) : Int) - 1 = last := grounded.last_eq
    refine ⟨⟨by omega, by omega⟩, .inr ⟨r, firstly', ⟨by omega, by omega⟩, named r rfl rfl⟩⟩
  · have missing : ∀ r, ¬ IsRequirement t r := fun r found => requirement ⟨r, found⟩
    rw [minimumVersionSpot_of_project list firstly missing] at spot
    cases spot
    have startEq : ((p.start : Nat) : Int) = first := grounded.start_eq
    have lastEq : ((p.stop : Nat) : Int) - 1 = last := grounded.last_eq
    exact ⟨⟨by omega, by omega⟩, .inl ⟨missing, named p rfl rfl⟩⟩

/-- The check of minimum versions finds an issue exactly if some project in the main script of a directory has no requirement of a
    version before it. The issue is about the first requirement, or about the first project if there is no requirement at all,
    and shows whole lines with both. -/
theorem findings_of_minimumVersion {findings : Findings} (made : minimumVersion.run path t = .ok findings) :
    ∃ found : Option Issue, findings = .first found ∧
      (found.isSome = true ↔ path.name.lowercase = "cmakelists.txt".toList ∧ ∃ p, IsUnprepared t p) ∧
      ∀ i, found = some i → i.WellPlaced t ∧ ∃ p, IsFirst Call.start (IsProject t) p ∧ i.ShowsCall p ∧
        (((∀ r, ¬ IsRequirement t r) ∧ i.NamesCall p) ∨
          ∃ r, IsFirst Call.start (IsRequirement t) r ∧ i.ShowsCall r ∧ i.NamesCall r) := by
  have listed : minimumVersion ∈ catalog := by simp [catalog]
  have rule : minimumVersion.rule = .minimumVersion := rfl
  have spotsEq : minimumVersion.spots path t = (minimumVersionSpot? path t).toList := by rw [spots, rule]
  have reported : (minimumVersionSpot? path t).isSome = true ↔
      path.name.lowercase = "cmakelists.txt".toList ∧ ∃ p, IsUnprepared t p := by
    rw [minimumVersionSpot_isSome_iff, isListFile, beq_iff_eq]
  rcases run_of_spot listed (by simp [rule]) spotsEq made with ⟨none, rfl⟩ | ⟨s, i, spot, rfl, issue, reports⟩
  · rw [none] at reported
    exact ⟨Option.none, rfl, reported, by simp⟩
  · rw [spot] at reported
    refine ⟨some i, rfl, reported, ?_⟩
    rintro _ ⟨rfl⟩
    exact ⟨reports.placed, minimumVersion_issue spot issue reports⟩

/-- A project whose brackets a requirement opens in. Both calls end at the same bracket. -/
def nestedScript : Text :=
  "project(a cmake_minimum_required(VERSION 3.16)\nproject(b)\n".toList

/-- A requirement among the arguments of the first project comes too late. -/
theorem findings_of_nestedScript :
    ∃ findings, minimumVersion.run (.ofText "CMAKELISTS.TXT".toList) nestedScript = .ok findings ∧
      ∃ i ∈ findings.toList, i.span = ⟨10, 22⟩ ∧ (∃ p, IsUnprepared nestedScript p) ∧
        ∃ p, IsFirst Call.start (IsProject nestedScript) p ∧ i.ShowsCall p ∧
          ∃ r, IsFirst Call.start (IsRequirement nestedScript) r ∧ i.ShowsCall r ∧ i.NamesCall r := by
  have spans : ((minimumVersion.run (.ofText "CMAKELISTS.TXT".toList) nestedScript).toOption.map fun findings =>
      findings.toList.map Issue.span) = some [⟨10, 22⟩] := by decide +kernel
  obtain ⟨findings, made, i, member, span⟩ := run_of_evaluated spans
  obtain ⟨found, rfl, reported, about⟩ := findings_of_minimumVersion made
  have some : found = some i := Option.mem_toList.mp member
  obtain ⟨_, p, first, shown, ⟨_, named⟩ | requirement⟩ := about i some
  · have length : p.name.length = 7 := by rw [List.mem_singleton.mp first.1.named]; decide
    have := named.1
    have := named.2
    simp only [span, Span.stop, Call.nameStop] at *
    omega
  · exact ⟨_, made, i, member, span, (reported.mp (some ▸ rfl)).2, p, first, shown, requirement⟩

end Check

end CMakeLint
