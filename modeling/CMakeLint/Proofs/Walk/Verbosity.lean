import CMakeLint.Proofs.Walk.Alike
import CMakeLint.Proofs.Walk.Output

/-!
What verbose output does to a run. The walk is the same (`walk_verbosely`), so all that a run prints is printed by a verbose run
as well, with more lines in between that report no issue (`Widened`). The two differ in more than these lines only if one of
them cannot be printed: there the verbose run ends in a failure that the other one does not see (`run_verbosely`).
-/
namespace CMakeLint

/-! ### Asking for verbose output -/

namespace Options

/-- The same options with verbose output asked for. -/
def verbosely (options : Options) : Options :=
  { options with verbose := true }

/-- What has been read, with verbose output asked for. -/
def Reading.verbosely (r : Reading) : Reading :=
  { r with options := r.options.verbosely }

namespace Reading

theorem take_verbosely (r : Reading) (flag : Flag) : r.verbosely.take flag = (r.take flag).map verbosely := by
  cases flag with
  | _ => rfl

theorem takeLimit_verbosely (r : Reading) (value : Text) :
    r.verbosely.takeLimit value = (r.takeLimit value).map verbosely := by
  rw [takeLimit, takeLimit]
  cases Text.toInt? value with
  | none => rfl
  | some n => rfl

theorem takeValue_verbosely (r : Reading) (t : Text) : r.verbosely.takeValue t = (r.takeValue t).verbosely := by
  obtain ⟨options, hasRoot, extra⟩ := r
  cases hasRoot with
  | true => rfl
  | false => rfl

theorem foldlM_take_verbosely (r : Reading) (flags : List Flag) :
    flags.foldlM take r.verbosely = (flags.foldlM take r).map verbosely := by
  induction flags generalizing r with
  | nil => rfl
  | cons flag flags ih =>
    rw [List.foldlM_cons, List.foldlM_cons, take_verbosely]
    cases r.take flag with
    | error stop => rfl
    | ok r' => exact ih r'

end Reading

open Reading (take_verbosely takeLimit_verbosely takeValue_verbosely foldlM_take_verbosely)

theorem takeWithValue_verbosely (r : Reading) (flag : Flag) (isShort : Bool) (value : Text) :
    takeWithValue r.verbosely flag isShort value = (takeWithValue r flag isShort value).map Reading.verbosely := by
  rw [takeWithValue, takeWithValue]
  by_cases limit : flag = .limit
  · rw [if_pos limit, if_pos limit]
    by_cases mark : value = markText
    · rw [if_pos mark, if_pos mark]
      rfl
    · rw [if_neg mark, if_neg mark]
      exact takeLimit_verbosely r value
  · rw [if_neg limit, if_neg limit]
    cases isShort with
    | false => rfl
    | true =>
      cases cluster flag value with
      | error stop => rfl
      | ok flags => exact foldlM_take_verbosely r flags

theorem readAll_verbosely (r : Reading) (kinds : List Argument) :
    readAll r.verbosely kinds = (readAll r kinds).map Reading.verbosely := by
  fun_induction readAll r kinds with
  | case1 r => rfl
  | case2 r flag isShort value rest ih =>
    rw [readAll, takeWithValue_verbosely]
    cases takeWithValue r flag isShort value with
    | error stop => rfl
    | ok r' => exact ih r'
  | case3 r isShort t rest ih =>
    rw [readAll, takeLimit_verbosely]
    cases r.takeLimit t with
    | error stop => rfl
    | ok r' => exact ih r'
  | case4 r flag isShort rest other ih =>
    rw [readAll, take_verbosely]
    · cases r.take flag with
      | error stop => rfl
      | ok r' => exact ih r'
    · exact other
  | case5 r t rest ih => exact ih
  | case6 r t rest ih =>
    rw [readAll, ← ih]
    obtain ⟨options, hasRoot, extra⟩ := r
    cases hasRoot with
    | true => rfl
    | false => rfl
  | case7 r t rest other ih =>
    rw [readAll, takeValue_verbosely]
    · exact ih
    · exact other
  | case8 r rest ih =>
    rw [readAll, ← ih]
    obtain ⟨options, hasRoot, extra⟩ := r
    cases hasRoot with
    | true => rfl
    | false => rfl

/-- A command line with the verbose option in front asks for the same, and for verbose output. -/
theorem ofArguments_verbosely {arguments : List Text} {options : Options} (understood : ofArguments arguments = .ok options) :
    ofArguments ("--verbose".toList :: arguments) = .ok options.verbosely := by
  have first : classify "--verbose".toList = .ok (.option .verbose false none) := by decide +kernel
  have other : "--verbose".toList ≠ markText := by decide
  rw [ofArguments] at understood ⊢
  cases kinds : classifyAll arguments with
  | error e =>
    rw [kinds] at understood
    cases understood
  | ok kinds' =>
    rw [kinds] at understood
    have all : classifyAll ("--verbose".toList :: arguments) = .ok (.option .verbose false none :: kinds') := by
      rw [classifyAll, if_neg other, first, kinds]
      rfl
    have taken : readAll ⟨default, false, []⟩ (.option .verbose false none :: kinds') =
        (readAll ⟨default, false, []⟩ kinds').map Reading.verbosely := by
      rw [← readAll_verbosely]
      rw [readAll]
      · rfl
      · intro t rest _ isLimit
        cases isLimit
    simp only at understood ⊢
    rw [all]
    simp only [taken]
    cases read : readAll ⟨default, false, []⟩ kinds' with
    | error stop =>
      rw [read] at understood
      cases understood
    | ok r =>
      rw [read] at understood
      have nothing : (if r.extra.isEmpty then .ok r.options else .error (.misuse (.unrecognized r.extra)) :
          Except Stop Options) = .ok options := understood
      by_cases empty : r.extra.isEmpty = true
      · rw [if_pos empty] at nothing
        cases nothing
        exact if_pos empty
      · rw [if_neg empty] at nothing
        cases nothing

end Options

/-! ### More lines -/

namespace Report
open Terminal (canPrint canPrint_of_unescaped)

/-- Texts and the same texts with more lines in between, none of which reports an issue. The first argument is whether printing
    comes as far with more lines as without: the first line that cannot be printed, if there is one, is among both. -/
inductive Widened (isTerminal : Bool) : Bool → List Text → List Text → Prop
  | nil : Widened isTerminal true [] []
  | both {isSound : Bool} {few many : List Text} (t : Text) (rest : Widened isTerminal isSound few many) :
      Widened isTerminal (!canPrint isTerminal t || isSound) (line t ++ few) (line t ++ many)
  | more {isSound : Bool} {few many : List Text} (t : Text) (other : errorWord.isPrefixOf t = false)
      (rest : Widened isTerminal isSound few many) : Widened isTerminal (canPrint isTerminal t && isSound) few (line t ++ many)

variable {isTerminal isSound : Bool} {few many : List Text}

theorem widened_both {t : Text} (printable : canPrint isTerminal t = true) (rest : Widened isTerminal isSound few many) :
    Widened isTerminal isSound (line t ++ few) (line t ++ many) := by
  have both := Widened.both t rest
  rwa [printable, Bool.not_true, Bool.false_or] at both

theorem widened_more {t : Text} (printable : canPrint isTerminal t = true) (other : errorWord.isPrefixOf t = false)
    (rest : Widened isTerminal isSound few many) : Widened isTerminal isSound few (line t ++ many) := by
  have more := Widened.more t other rest
  rwa [printable, Bool.true_and] at more

/-- With more lines no other issues are printed, and fewer only if printing does not come as far. -/
theorem printedIssues_widened (widened : Widened isTerminal isSound few many) :
    printedIssues isTerminal many <+: printedIssues isTerminal few := by
  induction widened with
  | nil => exact List.prefix_refl _
  | both t rest ih =>
    by_cases printable : canPrint isTerminal t = true
    · rw [printedIssues_line printable, printedIssues_line printable]
      exact (List.prefix_append_right_inj _).mpr ih
    · have stuck : canPrint isTerminal t = false := by simpa using printable
      simp [printedIssues_stuck stuck]
  | more t other rest ih =>
    by_cases printable : canPrint isTerminal t = true
    · rw [printedIssues_line printable, other]
      exact ih
    · rw [printedIssues_stuck (by simpa using printable)]
      exact List.nil_prefix

theorem shown_of_canPrint {t : Text} (printable : canPrint isTerminal t = true) : ∃ s, Terminal.shown? isTerminal t = some s :=
  Option.isSome_iff_exists.mp printable

theorem not_shown_of_canPrint {t : Text} (stuck : ¬canPrint isTerminal t = true) : Terminal.shown? isTerminal t = none := by
  simpa [canPrint] using stuck

/-- If printing comes as far with more lines, it ends for the same reason, and has printed the same issues and all the lines. -/
theorem printed_widened (widened : Widened isTerminal isSound few many) (sound : isSound = true) :
    (Terminal.print isTerminal many).isComplete = (Terminal.print isTerminal few).isComplete ∧
      printedIssues isTerminal many = printedIssues isTerminal few ∧
      (Terminal.print isTerminal few).text.lines.Sublist (Terminal.print isTerminal many).text.lines := by
  induction widened with
  | nil => exact ⟨rfl, rfl, List.Sublist.refl _⟩
  | both t rest ih =>
    by_cases printable : canPrint isTerminal t = true
    · obtain ⟨s, shown⟩ := shown_of_canPrint printable
      rw [printable, Bool.not_true, Bool.false_or] at sound
      obtain ⟨complete, issues, lines⟩ := ih sound
      rw [printedIssues_line printable, printedIssues_line printable, Terminal.print_line shown, Terminal.print_line shown]
      refine ⟨complete, by rw [issues], ?_⟩
      rw [Text.lines_append_newline_text, Text.lines_append_newline_text]
      exact lines.append_left _
    · have stuck := not_shown_of_canPrint printable
      rw [printedIssues_stuck (by simpa using printable), printedIssues_stuck (by simpa using printable),
        Terminal.print_line_stuck stuck, Terminal.print_line_stuck stuck]
      exact ⟨rfl, rfl, List.Sublist.refl _⟩
  | more t other rest ih =>
    rw [Bool.and_eq_true] at sound
    obtain ⟨s, shown⟩ := shown_of_canPrint sound.1
    obtain ⟨complete, issues, lines⟩ := ih sound.2
    rw [printedIssues_line sound.1, other, Terminal.print_line shown]
    refine ⟨complete, issues, ?_⟩
    rw [Text.lines_append_newline_text]
    exact lines.trans (List.sublist_append_right _ _)

/-- If printing does not come as far with more lines, one of them cannot be printed. -/
theorem stuck_widened (widened : Widened isTerminal isSound few many) (unsound : isSound = false) :
    (Terminal.print isTerminal many).isComplete = false := by
  induction widened with
  | nil => cases unsound
  | both t rest ih =>
    rw [Bool.or_eq_false_iff, Bool.not_eq_false'] at unsound
    obtain ⟨s, shown⟩ := shown_of_canPrint unsound.1
    rw [Terminal.print_line shown]
    exact ih unsound.2
  | more t other rest ih =>
    by_cases printable : canPrint isTerminal t = true
    · obtain ⟨s, shown⟩ := shown_of_canPrint printable
      rw [printable, Bool.true_and] at unsound
      rw [Terminal.print_line shown]
      exact ih unsound
    · rw [Terminal.print_line_stuck (not_shown_of_canPrint printable)]

/-! ### Events of a verbose run -/

/-- Whether a verbose run comes as far with events as any other: the first one that cannot be printed, if there is one, is
    printed by both. -/
def getsThrough (isTerminal : Bool) : List Event → Bool
  | [] => true
  | e :: es =>
    if (event true e).all (canPrint isTerminal) then getsThrough isTerminal es else isShown false e

theorem all_line (t : Text) : (line t).all (canPrint isTerminal) = canPrint isTerminal t := by
  simp [line, canPrint_newline]

theorem getsThrough_hidden {e : Event} {t : Text} (texts : event true e = line t) (hidden : isShown false e = false)
    (es : List Event) : getsThrough isTerminal (e :: es) = (canPrint isTerminal t && getsThrough isTerminal es) := by
  rw [getsThrough, texts, all_line, hidden]
  cases canPrint isTerminal t with
  | true => rfl
  | false => rfl

theorem getsThrough_visible {e : Event} {t : Text} (texts : event true e = line t) (visible : isShown false e = true)
    (es : List Event) : getsThrough isTerminal (e :: es) = (!canPrint isTerminal t || getsThrough isTerminal es) := by
  rw [getsThrough, texts, all_line, visible]
  cases canPrint isTerminal t with
  | true => rfl
  | false => rfl

/-- The blank line before an issue is printed by a verbose run if it is printed by another. -/
theorem widened_found (issue : Issue) {isAfter isAfterVerbose : Bool} (follows : isAfterVerbose = true → isAfter = true)
    (rest : Widened isTerminal isSound few many) :
    Widened isTerminal (!canPrint isTerminal (issueText issue) || isSound) (event isAfter (.found issue) ++ few)
      (event isAfterVerbose (.found issue) ++ many) := by
  have blank : canPrint isTerminal [] = true := canPrint_of_unescaped List.not_mem_nil
  have both := Widened.both (issueText issue) rest
  cases isAfterVerbose with
  | true =>
    rw [follows rfl]
    exact both
  | false =>
    cases isAfter with
    | true => exact widened_more blank (by decide +kernel) both
    | false => exact widened_both blank both

/-- A verbose run prints the events that any run prints, and more. -/
theorem widened_shown (es : List Event) {isAfter isAfterVerbose : Bool} (follows : isAfterVerbose = true → isAfter = true)
    (rest : Widened isTerminal true few many) :
    Widened isTerminal (getsThrough isTerminal es) (shown isAfter (es.filter (isShown false)) ++ few)
      (shown isAfterVerbose (es.filter (isShown true)) ++ many) := by
  induction es generalizing isAfter isAfterVerbose with
  | nil => exact rest
  | cons e es ih =>
    -- What only a verbose run prints is no issue, and the next issue has a blank line before it there.
    have hidden : ∀ t, event true e = line t → errorWord.isPrefixOf t = false → isShown false e = false →
        Widened isTerminal (getsThrough isTerminal (e :: es)) (shown isAfter (es.filter (isShown false)) ++ few)
          (line t ++ (shown false (es.filter (isShown true)) ++ many)) := by
      intro t texts other notShown
      rw [getsThrough_hidden texts notShown]
      exact .more t other (ih nofun)
    cases e with
    | read path => exact ih follows
    | skipped place reason =>
      have more := hidden _ rfl (not_errorWord_of_head (by decide)) rfl
      rwa [← List.append_assoc] at more
    | clean place =>
      have more := hidden _ rfl (not_errorWord_of_head (by decide)) rfl
      rwa [← List.append_assoc] at more
    | found issue =>
      have both := widened_found issue follows (ih (id : true = true → true = true))
      rw [getsThrough_visible rfl rfl]
      rwa [← List.append_assoc, ← List.append_assoc] at both
    | limitReached =>
      have both := Widened.both "reached error limit, stopping.".toList (ih (id : false = true → false = true))
      rw [getsThrough_visible rfl rfl]
      rwa [← List.append_assoc, ← List.append_assoc] at both

end Report

/-! ### Verbose runs -/

namespace Run
open Terminal (canPrint canPrint_of_unescaped)
open Report (Widened widened_both widened_more)

/-- What happens on the walk of a plan, in order. -/
def history (plan : Walk.Plan) : List Event :=
  (Walk.reached (Walk.walk plan plan.world.levels plan.options.root) Progress.start).log.reverse

/-- Whether a verbose run comes as far as any other. It does so if nobody can print the root. -/
def comesThrough (plan : Walk.Plan) : Bool :=
  !canPrint plan.world.terminal ("root: ".toList ++ plan.root.toText) ||
    Report.getsThrough plan.world.terminal (history plan)

variable {isTerminal isSound : Bool} {few many : List Text}

theorem widened_gitNotes (w : World) (isRepository : Bool) (rest : Widened isTerminal isSound few many) :
    Widened isTerminal isSound (gitNotes w false isRepository ++ few) (gitNotes w true isRepository ++ many) := by
  have repository : canPrint isTerminal "detected git repository".toList = true := canPrint_of_unescaped (by decide)
  have git : canPrint isTerminal "detected git".toList = true := canPrint_of_unescaped (by decide)
  have noGit : canPrint isTerminal (Report.warningWord ++
      " could not detect git; .gitignore rules will not be respected".toList) = true := by
    cases isTerminal with
    | true => rfl
    | false => decide +kernel
  cases isRepository with
  | false => exact rest
  | true =>
    unfold gitNotes
    cases w.ignored with
    | none => exact widened_more repository (by decide +kernel) (widened_both noGit rest)
    | some _ => exact widened_more repository (by decide +kernel) (widened_more git (by decide +kernel) rest)

/-- The plan of the same run with verbose output. -/
def verbosePlan (plan : Walk.Plan) : Walk.Plan :=
  { plan with options := plan.options.verbosely }

theorem widened_opening {plan : Walk.Plan} (quiet : plan.options.verbose = false) (rest : Widened isTerminal isSound few many) :
    Widened isTerminal (!canPrint isTerminal ("root: ".toList ++ plan.root.toText) || isSound) (opening plan ++ few)
      (opening (verbosePlan plan) ++ many) := by
  have banner : canPrint isTerminal (Terminal.paint .bright .cyan "check_cmake".toList ++ " v".toList ++ versionText ++
      " - github.com/marzer/check-cmake".toList) = true := by
    cases isTerminal with
    | true => rfl
    | false => decide +kernel
  have notes := widened_gitNotes plan.world plan.isRepository rest
  have both := widened_both banner (Widened.both ("root: ".toList ++ plan.root.toText) notes)
  rw [opening, opening, quiet]
  simp only [List.append_assoc]
  exact both

theorem widened_closing (result : EStateM.Result Failure Progress Unit) :
    Widened isTerminal true (closing result).texts (closing result).texts := by
  cases result with
  | error f p => exact .nil
  | ok _ p =>
    have unescaped : '\x1b' ∉ Report.totals p.issues p.files :=
      fun member => absurd (Report.visible_totals _ _ _ member) (by decide)
    exact widened_both (canPrint_of_unescaped unescaped) .nil

section Verbose
variable {w : World} {arguments arguments' : List Text} {options : Options} {plan : Walk.Plan}

theorem plan_verbosely (planned : plan? w options = some plan) : plan? w options.verbosely = some (verbosePlan plan) := by
  have moved : plan? w options.verbosely =
      (plan? w options).map fun plan => ⟨w, options.verbosely, plan.root, plan.isRepository⟩ := plan_congr rfl rfl rfl rfl
  obtain ⟨rfl, rfl, _⟩ := plan_parts planned
  rw [moved, planned]
  rfl

/-- The walk of a verbose run is the same. -/
theorem walk_verbosely (plan : Walk.Plan) (depth : Nat) (directory : Path) :
    Walk.walk (verbosePlan plan) depth directory = Walk.walk plan depth directory := by
  have agrees : Walk.Agrees (verbosePlan plan) plan :=
    ⟨rfl, rfl, rfl, rfl, fun _ _ => rfl, fun path => Node.corresponds_refl .same (plan.world.stat path)⟩
  have lists : ∀ directory, Walk.list (verbosePlan plan).world directory = Walk.list plan.world directory := fun _ => rfl
  rw [Walk.walk_eq_follow, Walk.walk_eq_follow, Walk.route_agrees agrees lists]
  rfl

/-- What a verbose run has to print is what any run has to print, and more. -/
theorem widened_run (understood : Options.ofArguments arguments = .ok options) (quiet : options.verbose = false)
    (planned : plan? w options = some plan) (understood' : Options.ofArguments arguments' = .ok options.verbosely) :
    Widened w.terminal (comesThrough plan) (transcript w arguments).texts (transcript w arguments').texts ∧
      (transcript w arguments').ending = (transcript w arguments).ending := by
  obtain ⟨rfl, rfl, _⟩ := plan_parts planned
  rw [transcript_of_plan understood planned, transcript_of_plan understood' (plan_verbosely planned), walkAndReport_eq,
    walkAndReport_eq, walk_verbosely]
  refine ⟨?_, rfl⟩
  simp only [List.append_assoc]
  have last : Widened plan.world.terminal true _ _ :=
    widened_closing (Walk.walk plan plan.world.levels plan.options.root Progress.start)
  have events := Report.widened_shown (history plan) (id : false = true → false = true) last
  rw [quiet]
  exact widened_opening quiet events

/-- Let a run reach its walk, wherever it is interrupted. With verbose output it prints the same issues in the same order, prints
    all other lines as well, and ends with the same code and the same message, if it comes as far. If the first thing that cannot
    be printed is one that only a verbose run prints, it fails there, and has printed the first of these issues. -/
theorem run_verbosely (understood : Options.ofArguments arguments = .ok options) (quiet : options.verbose = false)
    (planned : plan? w options = some plan) :
    Options.ofArguments ("--verbose".toList :: arguments) = .ok options.verbosely ∧
    ∀ arguments', Options.ofArguments arguments' = .ok options.verbosely →
      printedIssues w arguments' <+: printedIssues w arguments ∧
      (comesThrough plan = true →
        printedIssues w arguments' = printedIssues w arguments ∧
        (run w arguments').exit = (run w arguments).exit ∧ (run w arguments').stderr = (run w arguments).stderr ∧
        (run w arguments).stdout.lines.Sublist (run w arguments').stdout.lines) ∧
      (comesThrough plan = false → ∃ stdout, run w arguments' = .failed w.terminal stdout .titleRefused) := by
  refine ⟨Options.ofArguments_verbosely understood, fun arguments' understood' => ?_⟩
  obtain ⟨widened, ending⟩ := widened_run understood quiet planned understood'
  refine ⟨Report.printedIssues_widened widened, fun through => ?_, fun lost => ?_⟩
  · obtain ⟨complete, issues, lines⟩ := Report.printed_widened widened through
    obtain ⟨exit, stderr⟩ := Outcome.ofTranscript_congr ending complete
    refine ⟨issues, exit, stderr, ?_⟩
    rw [run, run, Outcome.stdout_ofTranscript, Outcome.stdout_ofTranscript]
    exact lines
  · exact ⟨_, Outcome.ofTranscript_stuck (Report.stuck_widened widened lost)⟩

/-- A script with an issue after one that has none. -/
def cleanBefore : World :=
  { twoScripts with disk := .directory [("r".toList, .directory [
    ("a.cmake".toList, .file .empty false), ("b.cmake".toList, .file "add_library(x)".toUTF8 false)] false)] false }

/-- With verbose output, the issue comes after a line about the other script. -/
theorem verbose_before_issue :
    printedIssues cleanBefore ["--verbose".toList] = printedIssues cleanBefore [] ∧
      (run cleanBefore ["--verbose".toList]).exit = 1 ∧
      (run cleanBefore ["--verbose".toList]).stderr = (run cleanBefore []).stderr ∧
      (run cleanBefore []).stdout.lines.Sublist (run cleanBefore ["--verbose".toList]).stdout.lines := by
  have understood : Options.ofArguments [] = .ok plainRun := by decide +kernel
  have through : (plan? cleanBefore plainRun).map comesThrough = some true := by decide +kernel
  have one : (run cleanBefore []).exit = 1 := by decide +kernel
  obtain ⟨plan, planned, through⟩ := Option.map_eq_some_iff.mp through
  obtain ⟨understood', verbosely⟩ := run_verbosely understood rfl planned
  obtain ⟨_, same, _⟩ := verbosely _ understood'
  obtain ⟨issues, exit, stderr, lines⟩ := same through
  exact ⟨issues, exit.trans one, stderr, lines⟩

/-- A script without issues whose name sets the title of the window. -/
def titledName : World :=
  { twoScripts with disk := .directory [("r".toList, .directory [
    ("\x1b]2;t\x07.cmake".toList, .file .empty false)] false)] false }

/-- A run finds no issue there and succeeds. With verbose output it fails when it prints the name. -/
theorem verbose_name_not_printed :
    Options.ofArguments [] = .ok plainRun ∧ (plan? titledName plainRun).isSome = true ∧ (run titledName []).exit = 0 ∧
      (run titledName []).stderr = [] ∧ (run titledName ["--verbose".toList]).exit = -1 ∧
      (run titledName ["--verbose".toList]).stderr ≠ [] := by
  decide +kernel

end Verbose

end Run

end CMakeLint
