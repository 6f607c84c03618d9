import CMakeLint.Proofs.Check.Places
import CMakeLint.Proofs.Walk.Ways

/-!
The order in which the issues of a script are printed. They are sorted by where they start in the text, and later offsets have later
positions, so that they come in the order of their lines and columns. Issues at one position come from different checks, and keep
the order of the checks (`ordered_inReadingOrder`). What is left out are the issues whose lines share a bit with those of the pragmas
(`not_isSuppressed_iff`). All that is left is printed, as far as it can be printed, after the issues of the scripts that a run reads
before (`issues_printed_in_order`).
-/
namespace CMakeLint

/-! ### Lines as bits of a number -/

/-- The lines with a pragma as a number: bit `i` stands for line `i`. -/
def Pragma.lineMask (t : Text) : Nat :=
  (lines t).foldl (fun mask line => mask ||| 1 <<< line) 0

namespace Lint

/-- An issue is left out if its lines and those of the pragmas have a bit in common. -/
theorem not_isSuppressed_iff {t : Text} {i : Issue} (grounded : i.Grounded (Text.stripComments t)) :
    (!isSuppressed (Pragma.lines t) i) = true ↔ i.span.lineMask (Text.stripComments t) &&& Pragma.lineMask t = 0 := by
  have bits : ∀ k, (i.span.lineMask (Text.stripComments t) &&& Pragma.lineMask t).testBit k =
      (i.lines.contains k && (Pragma.lines t).contains k) := by
    intro k
    rw [Nat.testBit_and, Span.lineMask, Pragma.lineMask, testBit_foldl, testBit_foldl, Issue.lines, grounded.text_eq]
    simp
  rw [Bool.not_eq_true', isSuppressed, List.any_eq_false]
  constructor
  · intro apart
    refine Nat.eq_of_testBit_eq fun k => ?_
    rw [bits, Nat.zero_testBit, Bool.and_eq_false_iff]
    by_cases member : k ∈ i.lines
    · exact .inr (by simpa using apart k member)
    · exact .inl (by simpa using member)
  · intro zero k member present
    have bit := bits k
    rw [zero, Nat.zero_testBit, present, List.contains_iff_mem.mpr member] at bit
    cases bit

/-! ### Order of positions and of checks -/

/-- Issues as a reader meets them: each once, none at a position before that of an earlier one, and those at one position in the
    order of the checks. -/
structure Ordered (issues : List Issue) : Prop where
  once : issues.Nodup
  ascending : issues.Pairwise fun i j => i.position.Before j.position ∨ i.position = j.position
  checks : ∀ place, ((issues.filter fun i => i.position = place).map Issue.check).Sublist Check.catalog

variable {path : Path} {t : Text}

/-- The issues of one check stand at different positions. -/
theorem positions_differ {check : Check} (listed : check ∈ Check.catalog) {findings : Findings}
    (made : check.run path t = .ok findings) : findings.toList.Pairwise fun i j => i.position ≠ j.position :=
  pairwise_of_forall₂ (Check.run_forall_reports (Check.catalog_placesSpots check listed) made)
    (Check.spots_apart listed path t) fun _ _ _ _ reports reports' apart => (reports.apart reports' apart).positions

/-- A check has one issue at most at a position. -/
theorem check_sublist {check : Check} (listed : check ∈ Check.catalog) {findings : Findings}
    (made : check.run path t = .ok findings) {p : Issue → Bool} {place : Position} (here : ∀ i, p i = true → i.position = place) :
    ((findings.toList.filter p).map Issue.check).Sublist [check] := by
  have differ := (positions_differ listed made).filter p
  have own : ∀ i ∈ findings.toList.filter p, i.check = check := by
    intro i member
    obtain ⟨s, _, reports⟩ := Check.run_reports (Check.catalog_placesSpots check listed) made (List.mem_of_mem_filter member)
    exact reports.check_eq
  have chosen : ∀ i ∈ findings.toList.filter p, i.position = place := fun i member => here i (List.of_mem_filter member)
  rcases issues : findings.toList.filter p with _ | ⟨i, _ | ⟨j, rest⟩⟩
  · simp
  · have isOwn := own i (by simp [issues])
    simp [isOwn]
  · rw [issues] at differ chosen
    have other := (List.pairwise_cons.mp differ).1 j (by simp)
    exact absurd ((chosen i (by simp)).trans (chosen j (by simp)).symm) other

/-- The issues of some checks at one position, in the order in which they are found, have the order of the checks. -/
theorem checks_sublist {checks : List Check} {found : List Findings}
    (returned : List.Forall₂ (fun check findings => check.run path t = .ok findings) checks found)
    (listed : ∀ check ∈ checks, check ∈ Check.catalog) {p : Issue → Bool} {place : Position}
    (here : ∀ i, p i = true → i.position = place) :
    (((found.flatMap Findings.toList).filter p).map Issue.check).Sublist checks := by
  induction returned with
  | nil => simp
  | cons made rest ih =>
    rw [List.flatMap_cons, List.filter_append, List.map_append]
    exact (check_sublist (listed _ (by simp)) made here).append (ih fun check member => listed check (by simp [member]))

section Placed

variable {l : List Issue} (placed : ∀ i ∈ l, i.WellPlaced t ∧ i.Grounded t)
include placed

/-- Issues at one position start at one place, so that they stay as they are. -/
theorem inReadingOrder_of_place (place : Position) :
    inReadingOrder (l.filter fun i => i.position = place) = l.filter fun i => i.position = place := by
  rw [inReadingOrder_eq]
  refine List.Pairwise.insertionSort_eq (List.pairwise_of_forall_mem_list fun i member j member' => ?_)
  obtain ⟨member, here⟩ := List.mem_filter.mp member
  obtain ⟨member', here'⟩ := List.mem_filter.mp member'
  obtain ⟨wellPlaced, grounded⟩ := placed i member
  obtain ⟨wellPlaced', grounded'⟩ := placed j member'
  have same : Position.ofOffset t i.span.start = Position.ofOffset t j.span.start := by
    rw [← grounded.position_eq, ← grounded'.position_eq, of_decide_eq_true here, of_decide_eq_true here']
  exact Nat.le_of_eq (Position.ofOffset_injective (Nat.le_of_lt wellPlaced.starts) (Nat.le_of_lt wellPlaced'.starts) same)

/-- Later offsets have later positions. -/
theorem ascending_inReadingOrder :
    (inReadingOrder l).Pairwise fun i j => i.position.Before j.position ∨ i.position = j.position := by
  have sorted : (inReadingOrder l).Pairwise StartsFirst := by
    rw [inReadingOrder_eq]
    exact List.pairwise_insertionSort _ _
  refine sorted.imp_of_mem ?_
  intro i j member member' first
  obtain ⟨_, grounded⟩ := placed i (mem_inReadingOrder.mp member)
  obtain ⟨wellPlaced, grounded'⟩ := placed j (mem_inReadingOrder.mp member')
  rw [grounded.position_eq, grounded'.position_eq]
  rcases Nat.lt_or_eq_of_le first with less | same
  · exact .inl (Position.ofOffset_before less (Nat.le_of_lt wellPlaced.starts))
  · exact .inr (by rw [same])

end Placed

/-- Issues of which those at one position come from different checks are there once each. -/
theorem nodup_of_checks {l : List Issue}
    (checks : ∀ place, ((l.filter fun i => i.position = place).map Issue.check).Sublist Check.catalog) : l.Nodup := by
  have once : Check.catalog.Nodup := List.Nodup.of_map Check.name (by decide +kernel)
  rw [List.nodup_iff_count_le_one]
  intro i
  have here := List.Nodup.of_map _ ((checks i.position).nodup once)
  rw [← List.count_filter (p := fun j => decide (j.position = i.position)) (by simp)]
  exact List.nodup_iff_count_le_one.mp here i

section Returned

variable {found : List Findings}
  (returned : List.Forall₂ (fun check findings => check.run path t = .ok findings) Check.catalog found)
include returned

theorem runAll_of_returned : Check.runAll Check.catalog path t = .ok (found.flatMap Findings.toList) := by
  rw [Check.runAll, mapM_of_forall₂ returned]
  rfl

/-- What is kept of the findings, as it is sorted. Sorting does not mix the issues at one position, so that they stay in the order
    in which they were found, one check after the other. -/
theorem ordered_inReadingOrder (keep : Issue → Bool) : Ordered (inReadingOrder ((found.flatMap Findings.toList).filter keep)) := by
  have placed : ∀ i ∈ (found.flatMap Findings.toList).filter keep, i.WellPlaced t ∧ i.Grounded t :=
    fun i member => runAll_placed (runAll_of_returned returned) (List.mem_of_mem_filter member)
  have checks : ∀ place, (((inReadingOrder ((found.flatMap Findings.toList).filter keep)).filter fun i =>
      i.position = place).map Issue.check).Sublist Check.catalog := by
    intro place
    have here : ∀ i : Issue, (decide (i.position = place) && keep i) = true → i.position = place :=
      fun i both => of_decide_eq_true (Bool.and_eq_true_iff.mp both).1
    rw [← inReadingOrder_filter, inReadingOrder_of_place placed, List.filter_filter]
    exact checks_sublist returned (fun _ member => member) here
  exact ⟨nodup_of_checks checks, ascending_inReadingOrder placed, checks⟩

end Returned

/-! ### What is printed -/

/-- The issues of a script: what the checks find and no pragma covers. -/
theorem exists_ordered {found : List Findings}
    (returned : List.Forall₂ (fun check findings => check.run path (Text.stripComments t) = .ok findings) Check.catalog found) :
    ∃ kept, issues path t = .ok kept ∧ Ordered kept ∧ kept.Perm ((found.flatMap Findings.toList).filter fun i =>
      i.span.lineMask (Text.stripComments t) &&& Pragma.lineMask t = 0) := by
  have ran := runAll_of_returned returned
  have chosen : (found.flatMap Findings.toList).filter (fun i => !isSuppressed (Pragma.lines t) i) =
      (found.flatMap Findings.toList).filter fun i => i.span.lineMask (Text.stripComments t) &&& Pragma.lineMask t = 0 := by
    refine List.filter_congr fun i member => Bool.eq_iff_iff.mpr ?_
    rw [not_isSuppressed_iff (runAll_placed ran member).2, decide_eq_true_iff]
  refine ⟨_, by rw [issues_eq, ran]; rfl, ordered_inReadingOrder returned _, ?_⟩
  rw [inReadingOrder_eq, chosen]
  exact List.perm_insertionSort _ _

end Lint

namespace Report

/-- The issues among what is shown of some events. -/
theorem filter_events (verbose : Bool) (es : List Event) :
    (events verbose es).filter (errorWord.isPrefixOf ·) = (es.filterMap Event.issue?).map issueText := by
  obtain ⟨ls, lined, errors⟩ := lined_events verbose es
  rw [lined, filter_lines, errors]

/-- What is printed of some events is the first of their issues, and all of them if all that is shown can be printed. -/
theorem printedIssues_events (isTerminal verbose : Bool) (es : List Event) :
    printedIssues isTerminal (events verbose es) <+: (es.filterMap Event.issue?).map issueText ∧
      ((∀ text ∈ events verbose es, Terminal.canPrint isTerminal text = true) →
        printedIssues isTerminal (events verbose es) = (es.filterMap Event.issue?).map issueText) := by
  rw [← filter_events verbose es]
  constructor
  · exact (List.takeWhile_prefix _).filter _
  · intro printable
    rw [printedIssues, List.takeWhile_eq_self_iff.mpr printable]

end Report

namespace Lint

/-- If the checks return, the issues of a script are those they have found whose lines miss the lines of the pragmas, in the order
    of their positions and, at one position, in the order of the checks. A walk without a limit reports them all after those reported
    before, and prints them in this order: up to a text that cannot be printed, and all of them if there is none so far, as on a
    terminal. A run without a limit that reads the script and is not interrupted reports them between those of the scripts read before
    and after, and prints all these issues in order; at the first text that cannot be printed it ends in a failure. -/
theorem issues_printed_in_order {path : Path} {t : Text} {found : List Findings}
    (returned : List.Forall₂ (fun check findings => check.run path (Text.stripComments t) = .ok findings) Check.catalog found) :
    ∃ kept, issues path t = .ok kept ∧ Ordered kept ∧
      kept.Perm ((found.flatMap Findings.toList).filter fun i =>
        i.span.lineMask (Text.stripComments t) &&& Pragma.lineMask t = 0) ∧
      (∀ (n : Int) place content locked p, n ≤ 0 → Walk.readText path content locked = .ok t →
        ∃ q, Walk.visitScript (some n) path place content locked p = .ok .next q ∧ q.reported = p.reported ++ kept ∧
          ∀ verbose isTerminal,
            Report.printedIssues isTerminal (Report.events verbose q.log.reverse) <+:
              (p.reported ++ kept).map Report.issueText ∧
            (isTerminal = true ∨ (∀ text ∈ Report.events verbose q.log.reverse, Terminal.canPrint isTerminal text = true) →
              Report.printedIssues isTerminal (Report.events verbose q.log.reverse) =
                (p.reported ++ kept).map Report.issueText)) ∧
      ∀ (w : World) arguments options (n : Int) p content locked before after,
        Options.ofArguments arguments = .ok options → options.limit = some n → n ≤ 0 → w.interruptAt = none →
        Run.walked? w options = some p → p.reads = before ++ path :: after →
        w.stat path = .ok (.file content locked) → Walk.readText path content locked = .ok t →
        p.reported = before.flatMap (Walk.issuesAt w) ++ kept ++ after.flatMap (Walk.issuesAt w) ∧
          Run.Prints w arguments p.reported := by
  obtain ⟨kept, made, ordered, permuted⟩ := exists_ordered returned
  refine ⟨kept, made, ordered, permuted, ?_, ?_⟩
  · intro n place content locked p free text
    obtain ⟨q, visited, logged⟩ := Walk.visitScript_free free place text made p
    have reported : q.reported = p.reported ++ kept := by
      rw [Progress.reported, logged, List.filterMap_append, List.filterMap_cons_none rfl, Walk.issue?_scriptEvents]
      rfl
    refine ⟨q, visited, reported, fun verbose isTerminal => ?_⟩
    obtain ⟨leading, whole⟩ := Report.printedIssues_events isTerminal verbose q.log.reverse
    rw [← reported]
    refine ⟨leading, ?_⟩
    rintro (rfl | printable)
    · exact whole fun _ _ => rfl
    · exact whole printable
  · intro w arguments options n p content locked before after understood limit free uninterrupted walked reads file text
    refine ⟨?_, Run.prints_of_walked understood walked⟩
    obtain ⟨plan, planned, _⟩ := Run.exists_opening walked
    rw [Run.reported_of_reads planned uninterrupted limit free walked, reads, List.flatMap_append, List.flatMap_cons,
      Walk.issuesAt_of_read file text made, List.append_assoc]

/-- A script with two issues at one position, and a third one on a line with a pragma. -/
def tiedScript : Text :=
  "target_link_options(-Wl,-rpath=x)\nadd_library(a) # nolint\n".toList

/-- The path of the script. -/
def tiedPath : Path :=
  .absolute ["r".toList, "a.cmake".toList]

/-- A working directory with this script alone, and a terminal. -/
def tiedWorld : World :=
  { Run.twoScriptsShown with disk := .directory [("r".toList, .directory
      [("a.cmake".toList, .file (String.ofList tiedScript).toUTF8 false)] false)] false }

/-- The third issue is left out, and the others are printed in the order of their checks, by a run as well. -/
theorem printed_of_tiedScript :
    ∃ i j q, issues tiedPath tiedScript = .ok [i, j] ∧ Ordered [i, j] ∧
      (i.check.name = Check.targetScope.name ∧ i.position = ⟨1, 21⟩) ∧ (j.check.name = Check.rpath.name ∧ j.position = ⟨1, 21⟩) ∧
      Walk.visitScript (some 0) tiedPath ["a.cmake".toList] (String.ofList tiedScript).toUTF8 false .start = .ok .next q ∧
      Report.printedIssues true (Report.events false q.log.reverse) = [i, j].map Report.issueText ∧
      Run.printedIssues tiedWorld [] = [i, j].map Report.issueText ∧ (Run.run tiedWorld []).exit = 2 := by
  have read : Walk.readText tiedPath (String.ofList tiedScript).toUTF8 false = .ok tiedScript := by
    rw [Walk.readText, if_neg (by decide)]
    decide +kernel
  have evaluated : ((issues tiedPath tiedScript).toOption.map fun kept =>
      kept.map fun i => (i.check.name, i.position)) =
      some [(Check.targetScope.name, ⟨1, 21⟩), (Check.rpath.name, ⟨1, 21⟩)] := by decide +kernel
  have understood : Options.ofArguments [] = .ok Run.plainRun := by decide +kernel
  have visits : (Run.walked? tiedWorld Run.plainRun).map (·.reads) = some [tiedPath] := by decide +kernel
  obtain ⟨p, walked, reads⟩ := Option.map_eq_some_iff.mp visits
  cases returned : Check.catalog.mapM fun check => check.run tiedPath (Text.stripComments tiedScript) with
  | error fault =>
    rw [issues_eq, Check.runAll, returned] at evaluated
    cases evaluated
  | ok found =>
    obtain ⟨kept, made, ordered, _, printed, ran⟩ := issues_printed_in_order (mapM_ok returned)
    obtain ⟨q, visited, _, shown⟩ := printed 0 ["a.cmake".toList] _ false .start (Int.le_refl 0) read
    obtain ⟨reported, prints⟩ := ran tiedWorld [] Run.plainRun 0 p _ false [] [] understood rfl (Int.le_refl 0) rfl walked reads
      rfl read
    rw [List.flatMap_nil, List.nil_append, List.append_nil] at reported
    obtain ⟨all, exit⟩ := prints.whole (Terminal.isComplete_of_terminal _)
    rw [reported] at all exit
    rw [made] at evaluated
    obtain ⟨i, rest, rfl, first, more⟩ := List.map_eq_cons_iff.mp (Option.some.inj evaluated)
    obtain ⟨j, rest, rfl, second, more⟩ := List.map_eq_cons_iff.mp more
    obtain rfl := List.map_eq_nil_iff.mp more
    exact ⟨i, j, q, made, ordered, Prod.mk.inj first, Prod.mk.inj second, visited, (shown false true).2 (.inl rfl), all, exit⟩

end Lint

namespace Run

/-- One script with an issue, in whose context a command sets the title of the window. -/
def titledScript : World :=
  { twoScripts with disk := .directory [("r".toList, .directory
      [("a.cmake".toList, .file "add_library(x \x1b]2;t\x07)\n".toUTF8 false)] false)] false }

/-- The issue is reported but not printed. -/
theorem issue_of_titledScript_not_printed :
    Options.ofArguments [] = .ok plainRun ∧ plainRun.limit = some 0 ∧
      (∃ p i, walked? titledScript plainRun = some p ∧ p.reported = [i]) ∧ printedIssues titledScript [] = [] := by
  have counted : (walked? titledScript plainRun).map (·.reported.length) = some 1 := by decide +kernel
  obtain ⟨p, walked, length⟩ := Option.map_eq_some_iff.mp counted
  obtain ⟨i, single⟩ := List.length_eq_one_iff.mp length
  exact ⟨by decide +kernel, rfl, ⟨p, i, walked, single⟩, by decide +kernel⟩

end Run

end CMakeLint
