import CMakeLint.Proofs.Check.Locality

/-!
Scripts that repeat the same call. A check that looks for patterns finds as much in each copy as in one (`run_copies`), so there
are scripts with any number of issues (`issues_copies`).
-/
namespace CMakeLint

/-! ### Texts without number signs -/

namespace Text

theorem mem_of_mem_lines {t l : Text} (member : l ∈ lines t) {c : Char} (inside : c ∈ l) : c ∈ t := by
  induction t generalizing l with
  | nil =>
    rw [lines_nil, List.mem_singleton] at member
    rw [member] at inside
    exact inside
  | cons d t ih =>
    by_cases newline : d = '\n'
    · rw [newline, lines_newline] at member
      rcases List.mem_cons.mp member with rfl | later
      · cases inside
      · exact List.mem_cons_of_mem _ (ih later inside)
    · obtain ⟨first, rest, split⟩ := exists_first_line t
      rw [lines_cons newline, split, List.headD_cons, List.tail_cons] at member
      rcases List.mem_cons.mp member with rfl | later
      · rcases List.mem_cons.mp inside with rfl | inside
        · exact List.mem_cons_self
        · exact List.mem_cons_of_mem _ (ih (split ▸ List.mem_cons_self) inside)
      · exact List.mem_cons_of_mem _ (ih (split ▸ List.mem_cons_of_mem _ later) inside)

theorem stripComments_of_plain {t : Text} (plain : '#' ∉ t) : stripComments t = t := by
  have same : ∀ l ∈ lines t, l.takeWhile (· ≠ '#') = l := by
    intro l member
    rw [List.takeWhile_eq_self_iff]
    intro c inside
    exact decide_eq_true fun sign => plain (mem_of_mem_lines member (sign ▸ inside))
  rw [stripComments, List.map_congr_left same, List.map_id', unlines_lines]

end Text

theorem Pragma.lines_of_plain {t : Text} (plain : '#' ∉ t) : lines t = [] := by
  rw [List.eq_nil_iff_forall_not_mem]
  intro number member
  obtain ⟨l, _, found, on⟩ := mem_lines.mp member
  have inLine : '#' ∉ l := fun inside => plain (Text.mem_of_mem_lines (List.mem_of_getElem? found) inside)
  rw [isOn_of_plain inLine] at on
  cases on

/-- In a text without number signs there are no comments, and nothing is suppressed. -/
theorem Lint.issues_of_plain (path : Path) {t : Text} (plain : '#' ∉ t) :
    issues path t = (Check.runAll Check.catalog path t).map inReadingOrder := by
  have kept : ∀ found : List Issue, found.filter (fun i => !isSuppressed [] i) = found := by
    intro found
    rw [List.filter_eq_self]
    intro i _
    simp [isSuppressed]
  rw [issues_eq, Text.stripComments_of_plain plain, Pragma.lines_of_plain plain]
  simp only [kept]

theorem Lint.length_inReadingOrder (l : List Issue) : (inReadingOrder l).length = l.length := by
  rw [inReadingOrder_eq, List.length_insertionSort]

/-! ### Copies of a text -/

/-- Some copies of a text, one after the other. -/
def Text.copies (n : Nat) (t : Text) : Text :=
  (List.replicate n t).flatten

theorem Text.copies_succ (n : Nat) (t : Text) : copies (n + 1) t = t ++ copies n t := by
  rw [copies, List.replicate_succ, List.flatten_cons]
  rfl

theorem Text.mem_copies {n : Nat} {t : Text} {c : Char} (member : c ∈ copies n t) : c ∈ t := by
  obtain ⟨copy, among, inside⟩ := List.mem_flatten.mp member
  rwa [(List.mem_replicate.mp among).2] at inside

namespace Check

/-- A check that looks for patterns finds as much in each copy as in one. -/
theorem run_copies {check : Check} (listed : check ∈ catalog) {rule : Matching} (matching : check.rule = .matching rule)
    {t : Text} (closed : [')', '\n'] <:+ t) {path : Path} {once : Findings} (made : check.run path t = .ok once) (n : Nat) :
    ∃ all, check.run path (Text.copies (n + 1) t) = .ok all ∧ all.toList.length = (n + 1) * once.toList.length := by
  induction n with
  | zero =>
    refine ⟨once, ?_, by simp⟩
    rw [Text.copies_succ]
    simpa [Text.copies] using made
  | succ n ih =>
    obtain ⟨rest, made', length⟩ := ih
    obtain ⟨both, made''⟩ := run_append_of_parts listed matching closed made made'
    obtain ⟨first, second, ran, ran', early, late⟩ := parts_of_run_append listed matching closed made''
    rw [made] at ran
    rw [made'] at ran'
    cases ran
    cases ran'
    refine ⟨both, by rw [Text.copies_succ, made''], ?_⟩
    rw [List.length_eq_length_filter_add (fun i : Issue => decide (i.span.start < t.length)), early, late, List.length_map,
      List.length_map]
    have count : second.length = (n + 1) * first.length := length
    rw [count, Findings.toList, Nat.add_comm, ← Nat.succ_mul]

/-! ### Copies of one call -/

/-- A call that leaves out the type of a library. -/
def untypedCall : Text :=
  "add_library(x)\n".toList

/-- A script that is not the main one of its directory. -/
def scriptPath : Path :=
  .absolute ["r".toList, "a.cmake".toList]

/-- The number of issues that a check finds in the call. -/
def issuesInCall (check : Check) : Nat :=
  if check.name = libraryType.name then 1 else 0

theorem search_of_findAll {ignoreCase : Bool} {p : Pattern} {t : Text} (none : p.findAll ignoreCase t = []) :
    p.search ignoreCase t = Option.none := by
  have each : ∀ (t : Text) (before : Option Char) (position : Nat), p.findAllFrom ignoreCase 0 before position t = [] →
      p.searchFrom ignoreCase before position t = Option.none := by
    intro t
    induction t with
    | nil =>
      intro before position found
      rw [Pattern.findAllFrom, Pattern.matchesAt] at found
      rw [Pattern.searchFrom]
      cases tried : p.matchAt ignoreCase ⟨before, [], position⟩ fun _ => true with
      | none => rfl
      | some m =>
        simp only [tried] at found
        split at found <;> cases found
    | cons c t ih =>
      intro before position found
      rw [Pattern.findAllFrom_cons, List.append_eq_nil_iff] at found
      obtain ⟨here, later⟩ := found
      rw [here] at later
      rw [Pattern.searchFrom]
      rw [Pattern.matchesAt] at here
      cases tried : p.matchAt ignoreCase ⟨before, c :: t, position⟩ fun _ => true with
      | none => exact ih (some c) (position + 1) later
      | some m =>
        simp only [tried] at here
        split at here <;> cases here
  exact each t Option.none 0 none

theorem findAll_copies {p : Pattern} {ignoreCase : Bool} (form : p.staysWithin ignoreCase ')' = true) {t : Text}
    (closed : [')', '\n'] <:+ t) (none : p.findAll ignoreCase t = []) (n : Nat) :
    p.findAll ignoreCase (Text.copies (n + 1) t) = [] := by
  induction n with
  | zero =>
    rw [Text.copies_succ]
    simpa [Text.copies] using none
  | succ n ih =>
    rw [Text.copies_succ, Pattern.findAll_append form closed, none, ih]
    rfl

/-- Each check finds as much in copies of the call as in one, times the number of copies. -/
theorem run_calls {check : Check} (listed : check ∈ catalog) (n : Nat) :
    ∃ all, check.run scriptPath (Text.copies (n + 1) untypedCall) = .ok all ∧
      all.toList.length = (n + 1) * issuesInCall check := by
  have closed : [')', '\n'] <:+ untypedCall := by decide +kernel
  have once : ∀ check ∈ catalog, (check.run scriptPath untypedCall).toOption.map (·.toList.length) =
      some (issuesInCall check) := by decide +kernel
  obtain ⟨found, ran, count⟩ := Option.map_eq_some_iff.mp (once check listed)
  cases made : check.run scriptPath untypedCall with
  | error fault =>
    rw [made] at ran
    cases ran
  | ok findings =>
    rw [made] at ran
    cases ran
    cases rule : check.rule with
    | none =>
      rw [run, rule] at made
      cases made
    | matching m =>
      rw [← count]
      exact run_copies listed rule closed made n
    | minimumVersion =>
      have nothing : ∀ t, check.run scriptPath t = .ok (.first none) := by
        intro t
        have spots : check.spots scriptPath t = [] := by
          rw [spots, rule]
          rfl
        rw [run, spots, rule]
        rfl
      rw [nothing] at made
      cases made
      refine ⟨.first none, nothing _, ?_⟩
      rw [← count]
      rfl
    | systemKeyword =>
      have nothing : ∀ t, Pattern.includeDirectoriesWithSystem.search false t = none → check.run scriptPath t = .ok (.first none) := by
        intro t missing
        have spots : check.spots scriptPath t = [] := by
          rw [spots, rule]
          simp only [systemKeywordSpot?, missing]
          rfl
        rw [run, spots, rule]
        rfl
      have none : Pattern.includeDirectoriesWithSystem.findAll false untypedCall = [] := by decide +kernel
      rw [nothing _ (search_of_findAll none)] at made
      cases made
      refine ⟨.first Option.none, nothing _ (search_of_findAll (findAll_copies (by decide +kernel) closed none n)), ?_⟩
      rw [← count]
      rfl

theorem runAll_cons {check : Check} {checks : List Check} {path : Path} {t : Text} {findings : Findings} {found : List Issue}
    (made : check.run path t = .ok findings) (rest : runAll checks path t = .ok found) :
    runAll (check :: checks) path t = .ok (findings.toList ++ found) := by
  rw [runAll] at rest ⊢
  rw [List.mapM_cons, made]
  cases all : checks.mapM fun check => check.run path t with
  | error fault =>
    rw [all] at rest
    cases rest
  | ok others =>
    rw [all] at rest
    cases rest
    rfl

theorem runAll_calls (n : Nat) {checks : List Check} (listed : ∀ check ∈ checks, check ∈ catalog) :
    ∃ found, runAll checks scriptPath (Text.copies (n + 1) untypedCall) = .ok found ∧
      found.length = (n + 1) * checks.countP (fun check => check.name = libraryType.name) := by
  induction checks with
  | nil => exact ⟨[], rfl, rfl⟩
  | cons check checks ih =>
    obtain ⟨findings, made, count⟩ := run_calls (listed check List.mem_cons_self) n
    obtain ⟨found, ran, length⟩ := ih fun check member => listed check (List.mem_cons_of_mem _ member)
    refine ⟨findings.toList ++ found, runAll_cons made ran, ?_⟩
    rw [List.length_append, count, length, ← Nat.mul_add, Nat.add_comm (issuesInCall check), List.countP_cons, issuesInCall]
    simp only [decide_eq_true_eq]

end Check

/-- A script with any number of copies of the call has one issue for each. -/
theorem Lint.issues_copies (n : Nat) :
    ∃ found, issues Check.scriptPath (Text.copies (n + 1) Check.untypedCall) = .ok found ∧ found.length = n + 1 := by
  have plain : '#' ∉ Text.copies (n + 1) Check.untypedCall := fun member => absurd (Text.mem_copies member) (by decide)
  have one : Check.catalog.countP (fun check => check.name = Check.libraryType.name) = 1 := by decide +kernel
  obtain ⟨found, ran, length⟩ := Check.runAll_calls n fun check (member : check ∈ Check.catalog) => member
  refine ⟨inReadingOrder found, ?_, ?_⟩
  · rw [issues_of_plain _ plain, ran]
    rfl
  · rw [length_inReadingOrder, length, one, Nat.mul_one]

end CMakeLint
