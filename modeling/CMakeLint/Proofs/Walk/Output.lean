import CMakeLint.Proofs.Walk.Totals
import Mathlib.Data.List.TakeWhile

/-!
What comes out of a run that makes a walk: what there is to say before the walk, then its events, and the totals if it does not
fail (`walkAndReport_eq`). All this is printed text by text up to the first that cannot be (`isComplete_iff`, `print_stops`). What
is printed for the first events of a walk comes first in what is printed for all of them (`events_append`).
-/
namespace CMakeLint

namespace Terminal

/-- Whether a text can be printed. -/
def canPrint (isTerminal : Bool) (t : Text) : Bool :=
  (shown? isTerminal t).isSome

variable {isTerminal : Bool} {ts : List Text}

theorem canPrint_of_unescaped {t : Text} (unescaped : '\x1b' ∉ t) : canPrint isTerminal t = true := by
  rw [canPrint, shown_of_unescaped unescaped]
  rfl

theorem isComplete_iff : (print isTerminal ts).isComplete = true ↔ ∀ t ∈ ts, canPrint isTerminal t = true := by
  induction ts with
  | nil => simp [print]
  | cons t ts ih =>
    cases shown : shown? isTerminal t with
    | none => simp [print, canPrint, shown]
    | some s => simp [print, canPrint, shown, ih]

theorem isComplete_of_terminal (ts : List Text) : (print true ts).isComplete = true :=
  isComplete_iff.mpr fun _ _ => rfl

/-- Nothing is printed after a text that cannot be. -/
theorem print_stops (stuck : (print isTerminal ts).isComplete = false) (us : List Text) :
    print isTerminal (ts ++ us) = print isTerminal ts := by
  induction ts with
  | nil => cases stuck
  | cons t ts ih =>
    cases shown : shown? isTerminal t with
    | none => simp [print, shown]
    | some s =>
      simp only [print, shown] at stuck
      simp [print, shown, ih stuck]

theorem text_print_append (isTerminal : Bool) (ts us : List Text) :
    (print isTerminal ts).text <+: (print isTerminal (ts ++ us)).text := by
  cases complete : (print isTerminal ts).isComplete with
  | true =>
    rw [print_append isTerminal ts us complete]
    exact List.prefix_append _ _
  | false => simp [print_stops complete]

theorem print_line {t s : Text} (printable : shown? isTerminal t = some s) (ts : List Text) :
    print isTerminal (Report.line t ++ ts) =
      ⟨s ++ '\n' :: (print isTerminal ts).text, (print isTerminal ts).isComplete⟩ := by
  have newline : shown? isTerminal ['\n'] = some ['\n'] := shown_of_unescaped (by decide) isTerminal
  simp [Report.line, print, printable, newline]

theorem print_line_stuck {t : Text} (stuck : shown? isTerminal t = none) (ts : List Text) :
    print isTerminal (Report.line t ++ ts) = ⟨[], false⟩ := by
  simp [Report.line, print, stuck]

end Terminal

namespace Report
open Terminal (canPrint canPrint_of_unescaped)

/-- The issues among texts that are printed up to the first one that cannot be: those with the word for an error. -/
def printedIssues (isTerminal : Bool) (ts : List Text) : List Text :=
  (ts.takeWhile (canPrint isTerminal)).filter (errorWord.isPrefixOf ·)

theorem events_append (verbose : Bool) (es more : List Event) :
    ∃ texts, events verbose (es ++ more) = events verbose es ++ texts := by
  have shown_append : ∀ (afterIssue : Bool) (es more : List Event),
      ∃ texts, shown afterIssue (es ++ more) = shown afterIssue es ++ texts := by
    intro afterIssue es more
    induction es generalizing afterIssue with
    | nil => exact ⟨_, rfl⟩
    | cons e es ih =>
      obtain ⟨texts, split⟩ := ih (isIssue e)
      exact ⟨texts, by simp [shown, split]⟩
  rw [events, events, List.filter_append]
  exact shown_append false _ _

theorem canPrint_newline (isTerminal : Bool) : canPrint isTerminal ['\n'] = true :=
  canPrint_of_unescaped (by decide)

theorem printedIssues_line {isTerminal : Bool} {t : Text} (printable : canPrint isTerminal t = true) (ts : List Text) :
    printedIssues isTerminal (line t ++ ts) =
      (if errorWord.isPrefixOf t then [t] else []) ++ printedIssues isTerminal ts := by
  have newline : errorWord.isPrefixOf ['\n'] = false := by decide +kernel
  by_cases isError : errorWord.isPrefixOf t = true
  · simp [printedIssues, line, printable, canPrint_newline, newline, isError]
  · simp [printedIssues, line, printable, canPrint_newline, newline, isError]

theorem printedIssues_stuck {isTerminal : Bool} {t : Text} (stuck : canPrint isTerminal t = false) (ts : List Text) :
    printedIssues isTerminal (line t ++ ts) = [] := by
  simp [printedIssues, line, stuck]

/-- Of a line, only the text before the newline can be an issue. -/
theorem filter_lines (ls : List Text) :
    (ls.flatMap line).filter (errorWord.isPrefixOf ·) = ls.filter (errorWord.isPrefixOf ·) := by
  have newline : errorWord.isPrefixOf ['\n'] = false := by decide +kernel
  induction ls with
  | nil => rfl
  | cons t ls ih =>
    rw [List.flatMap_cons, List.filter_append, ih]
    by_cases isError : errorWord.isPrefixOf t = true
    · simp [line, newline, isError]
    · simp [line, newline, isError]

theorem canPrint_blank (isTerminal : Bool) : ∀ t ∈ line [], canPrint isTerminal t = true := by
  intro t member
  simp only [line, List.mem_cons, List.not_mem_nil, or_false] at member
  rcases member with rfl | rfl
  · exact canPrint_of_unescaped List.not_mem_nil
  · exact canPrint_newline isTerminal

/-- Only the blank line before an issue depends on what was printed before. -/
theorem canPrint_event_iff (isTerminal afterIssue : Bool) (e : Event) :
    (∀ t ∈ event afterIssue e, canPrint isTerminal t = true) ↔ ∀ t ∈ event true e, canPrint isTerminal t = true := by
  cases e with
  | found issue =>
    cases afterIssue with
    | true => rfl
    | false =>
      have blank := canPrint_blank isTerminal
      simp only [event, Bool.false_eq_true, ↓reduceIte, List.mem_append, List.not_mem_nil, false_or]
      constructor
      · intro all t member
        exact all t (.inr member)
      · rintro all t (member | member)
        · exact blank t member
        · exact all t member
  | _ => rfl

/-- Events can be printed if each of those that are shown can be, whatever the order is. -/
theorem canPrint_events_iff (isTerminal verbose : Bool) (es : List Event) :
    (∀ t ∈ events verbose es, canPrint isTerminal t = true) ↔
      ∀ e ∈ es, isShown verbose e = true → ∀ t ∈ event true e, canPrint isTerminal t = true := by
  have each : ∀ (afterIssue : Bool) (es : List Event), (∀ t ∈ shown afterIssue es, canPrint isTerminal t = true) ↔
      ∀ e ∈ es, ∀ t ∈ event true e, canPrint isTerminal t = true := by
    intro afterIssue es
    induction es generalizing afterIssue with
    | nil => simp [shown]
    | cons e es ih =>
      simp only [shown, List.forall_mem_append, List.forall_mem_cons]
      rw [canPrint_event_iff, ih]
  rw [events, each]
  simp only [List.mem_filter, and_imp]

end Report

namespace Outcome

variable {isTerminal : Bool} {t : Transcript}

theorem stdout_ofTranscript (isTerminal : Bool) (t : Transcript) :
    (ofTranscript isTerminal t).stdout = (Terminal.print isTerminal t.texts).text := by
  simp only [ofTranscript]
  split
  · rfl
  · split
    · rfl
    · split <;> rfl
    · rfl
    · rfl

theorem ofTranscript_stuck (stuck : (Terminal.print isTerminal t.texts).isComplete = false) :
    ofTranscript isTerminal t = .failed isTerminal (Terminal.print isTerminal t.texts).text .titleRefused := by
  simp only [ofTranscript, stuck, Bool.not_false, ↓reduceIte]

theorem ofTranscript_exit {code : Int} (complete : (Terminal.print isTerminal t.texts).isComplete = true)
    (ends : t.ending = .exit code) :
    ofTranscript isTerminal t = ⟨code, (Terminal.print isTerminal t.texts).text, []⟩ := by
  simp only [ofTranscript, complete, ends, Bool.not_true, Bool.false_eq_true, ↓reduceIte]

/-- What a run ends with depends on its ending and on whether all before can be printed. -/
theorem ofTranscript_congr {t' : Transcript} (ending : t'.ending = t.ending)
    (complete : (Terminal.print isTerminal t'.texts).isComplete = (Terminal.print isTerminal t.texts).isComplete) :
    (ofTranscript isTerminal t').exit = (ofTranscript isTerminal t).exit ∧
      (ofTranscript isTerminal t').stderr = (ofTranscript isTerminal t).stderr := by
  simp only [ofTranscript, complete, ending]
  split
  · exact ⟨rfl, rfl⟩
  · split
    · exact ⟨rfl, rfl⟩
    · split <;> exact ⟨rfl, rfl⟩
    · exact ⟨rfl, rfl⟩
    · exact ⟨rfl, rfl⟩

end Outcome

namespace Run

/-- The issues that a run prints. -/
def printedIssues (w : World) (arguments : List Text) : List Text :=
  Report.printedIssues w.terminal (transcript w arguments).texts

/-- A run prints these issues in order up to the first text that cannot be printed. There it ends in a failure. Without such a text
    it prints all of them and ends with their number. -/
structure Prints (w : World) (arguments : List Text) (issues : List Issue) : Prop where
  leading : printedIssues w arguments <+: issues.map Report.issueText
  whole : (Terminal.print w.terminal (transcript w arguments).texts).isComplete = true →
    printedIssues w arguments = issues.map Report.issueText ∧ (run w arguments).exit = issues.length
  stuck : (Terminal.print w.terminal (transcript w arguments).texts).isComplete = false →
    run w arguments = .failed w.terminal (Terminal.print w.terminal (transcript w arguments).texts).text .titleRefused

/-- What is printed after the events of a walk, and how the run ends then. -/
def closing : EStateM.Result Failure Progress Unit → Transcript
  | .ok () p => ⟨Report.summary p, .exit p.issues⟩
  | .error f _ => ⟨[], .failure f⟩

theorem walkAndReport_eq (plan : Walk.Plan) (before : List Text) :
    walkAndReport plan before =
      ⟨before ++ Report.events plan.options.verbose
          (Walk.reached (Walk.walk plan plan.world.levels plan.options.root) Progress.start).log.reverse ++
        (closing (Walk.walk plan plan.world.levels plan.options.root Progress.start)).texts,
        (closing (Walk.walk plan plan.world.levels plan.options.root Progress.start)).ending⟩ := by
  rw [walkAndReport, Walk.reached]
  cases Walk.walk plan plan.world.levels plan.options.root Progress.start with
  | ok _ p => rfl
  | error f p => simp [closing]

/-- What a run that makes a walk has to print. -/
theorem transcript_of_plan {w : World} {arguments : List Text} {options : Options} {plan : Walk.Plan}
    (understood : Options.ofArguments arguments = .ok options) (planned : plan? w options = some plan) :
    transcript w arguments = walkAndReport plan (opening plan) := by
  obtain ⟨_, _, made⟩ := plan_parts planned
  rw [transcript, understood]
  exact made

section Walked
variable {w : World} {arguments : List Text} {options : Options} {plan : Walk.Plan} {p : Progress}
  (understood : Options.ofArguments arguments = .ok options) (walked : walked? w options = some p)
include understood walked

/-- All that a run has to say can be printed if this is so for what is said before the walk and for each event that is shown. -/
theorem isComplete_iff_events (planned : plan? w options = some plan) :
    (Terminal.print w.terminal (transcript w arguments).texts).isComplete = true ↔
      (∀ t ∈ opening plan, Terminal.canPrint w.terminal t = true) ∧
        ∀ e ∈ p.log.reverse, Report.isShown options.verbose e = true →
          ∀ t ∈ Report.event true e, Terminal.canPrint w.terminal t = true := by
  obtain ⟨ls, before, _, said⟩ := transcript_of_walked understood planned walked
  have start : (Terminal.print w.terminal (transcript w arguments).texts).isComplete = true ↔
      (Terminal.print w.terminal (ls.flatMap Report.line)).isComplete = true := by
    rw [said]
    constructor
    · intro complete
      rw [List.flatMap_append] at complete
      exact Terminal.isComplete_of_append complete
    · intro complete
      rw [print_totals _ _ complete]
  rw [start, before, Terminal.isComplete_iff, List.forall_mem_append, Report.canPrint_events_iff]

/-- What a run has to say about issues is what is reported. -/
theorem issues_of_walked : (transcript w arguments).texts.filter (Report.errorWord.isPrefixOf ·) =
    p.reported.map Report.issueText := by
  obtain ⟨plan, planned, _⟩ := exists_opening walked
  obtain ⟨ls, _, found, said⟩ := transcript_of_walked understood planned walked
  have totals : Report.errorWord.isPrefixOf (Report.totals p.reported.length p.reads.length) = false :=
    Report.not_errorWord_of_head (by decide)
  rw [said, Report.filter_lines, List.filter_append, found]
  simp [totals]

/-- A run whose walk does not fail prints the issues that are reported. -/
theorem prints_of_walked : Prints w arguments p.reported where
  leading := by
    rw [← issues_of_walked understood walked]
    exact (List.takeWhile_prefix _).filter _
  whole complete := by
    obtain ⟨_, _, _, _, _, exit⟩ := printed_of_walked understood walked complete
    refine ⟨?_, exit⟩
    rw [← issues_of_walked understood walked, printedIssues, Report.printedIssues,
      List.takeWhile_eq_self_iff.mpr (Terminal.isComplete_iff.mp complete)]
  stuck incomplete := Outcome.ofTranscript_stuck incomplete

/-- On a terminal everything can be printed, so a run does not fail if its walk does not. -/
theorem sound_on_terminal (terminal : w.terminal = true) :
    (run w arguments).exit = p.reported.length ∧ ∀ stdout f, run w arguments ≠ .failed w.terminal stdout f := by
  have complete : (Terminal.print w.terminal (transcript w arguments).texts).isComplete = true := by
    rw [terminal]
    exact Terminal.isComplete_of_terminal _
  obtain ⟨_, _, _, _, _, exit⟩ := printed_of_walked understood walked complete
  refine ⟨exit, ?_⟩
  intro stdout f failed
  rw [failed] at exit
  have negative : (-1 : Int) = p.reported.length := exit
  omega

end Walked

/-- Let one run print lines and the totals, and let another one start with the same lines. What the first one prints before the
    totals is the start of what the other one prints. If these lines cannot all be printed, both runs fail there. -/
theorem runs_of_common_start {w w' : World} {arguments arguments' : List Text} {ls more : List Text} {issues files : Nat}
    (said : transcript w arguments = ⟨(ls ++ [Report.totals issues files]).flatMap Report.line, .exit issues⟩)
    (starts : (transcript w' arguments').texts = ls.flatMap Report.line ++ more) (terminal : w.terminal = w'.terminal) :
    ((Terminal.print w.terminal (ls.flatMap Report.line)).isComplete = true →
        run w arguments = ⟨issues, (Terminal.print w.terminal (ls.flatMap Report.line)).text ++
          (Report.totals issues files ++ ['\n']), []⟩ ∧
        (Terminal.print w.terminal (ls.flatMap Report.line)).text <+: (run w' arguments').stdout) ∧
      ((Terminal.print w.terminal (ls.flatMap Report.line)).isComplete = false →
        run w arguments = run w' arguments' ∧ run w' arguments' =
          .failed w.terminal (Terminal.print w.terminal (ls.flatMap Report.line)).text .titleRefused) := by
  constructor
  · intro complete
    have totals := print_totals issues files complete
    constructor
    · rw [run, said, Outcome.ofTranscript_exit (by rw [totals]) rfl, totals]
    · rw [run, Outcome.stdout_ofTranscript, starts, terminal]
      exact Terminal.text_print_append _ _ _
  · intro stuck
    have stops := Terminal.print_stops stuck
    have failed : run w arguments =
        .failed w.terminal (Terminal.print w.terminal (ls.flatMap Report.line)).text .titleRefused := by
      rw [run, said, List.flatMap_append, Outcome.ofTranscript_stuck (by simp only [stops, stuck])]
      simp only [stops]
    have failed' : run w' arguments' =
        .failed w.terminal (Terminal.print w.terminal (ls.flatMap Report.line)).text .titleRefused := by
      rw [run, ← terminal, Outcome.ofTranscript_stuck (by rw [starts, stops, stuck]), starts, stops]
    exact ⟨failed.trans failed'.symm, failed'⟩

/-- Two directories with a script each, and a terminal. -/
def twoScriptsShown : World :=
  { twoScripts with terminal := true }

end Run

end CMakeLint
