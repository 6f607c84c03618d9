import CMakeLint.Proofs.Check.Copies
import CMakeLint.Proofs.Walk.Course
import CMakeLint.Proofs.Walk.Output

/-!
What the caller of a run sees of the code that it ends with. A run ends with the number of its issues, of which the caller sees
the remainder by 256. So a run looks like one without issues exactly if it has a multiple of 256 of them (`status_of_run`), and
there are scripts with any number of issues (`walked_calls`).
-/
namespace CMakeLint

/-- What is seen of the code that a run ends with. -/
def Outcome.status (o : Outcome) : Nat :=
  (o.exit % 256).toNat

theorem Outcome.status_of_count {o : Outcome} {n : Nat} (exit : o.exit = n) :
    o.status = n % 256 ∧ (o.status = 0 ↔ 256 ∣ n) := by
  have seen : o.status = n % 256 := by
    rw [status, exit]
    omega
  exact ⟨seen, by rw [seen, Nat.dvd_iff_mod_eq_zero]⟩

/-- The code that goes with an ending. -/
def Ending.code : Ending → Int
  | .exit code => code
  | .badRoot _ => -1
  | .misuse _ => 2
  | .failure _ => -1

/-- A run that does not fail ends with the code of its ending. -/
theorem Outcome.exit_of_sound {isTerminal : Bool} {t : Transcript}
    (sound : ∀ stdout f, ofTranscript isTerminal t ≠ .failed isTerminal stdout f) :
    (ofTranscript isTerminal t).exit = t.ending.code ∧ ∀ f, t.ending ≠ .failure f := by
  cases complete : (Terminal.print isTerminal t.texts).isComplete with
  | false => exact absurd (ofTranscript_stuck complete) (sound _ _)
  | true =>
    cases ends : t.ending with
    | exit code =>
      rw [ofTranscript_exit complete ends]
      exact ⟨rfl, fun _ => Ending.noConfusion⟩
    | misuse error =>
      simp only [ofTranscript, complete, ends, Bool.not_true, Bool.false_eq_true, ↓reduceIte]
      exact ⟨rfl, fun _ => Ending.noConfusion⟩
    | failure f =>
      have failed : ofTranscript isTerminal t = .failed isTerminal (Terminal.print isTerminal t.texts).text f := by
        simp only [ofTranscript, complete, ends, Bool.not_true, Bool.false_eq_true, ↓reduceIte]
      exact absurd failed (sound _ _)
    | badRoot root =>
      cases complaint : (Terminal.print isTerminal (Report.badRoot root)).isComplete with
      | true =>
        simp only [ofTranscript, complete, ends, complaint, Bool.not_true, Bool.false_eq_true, ↓reduceIte]
        exact ⟨rfl, fun _ => Ending.noConfusion⟩
      | false =>
        have failed : ofTranscript isTerminal t =
            .failed isTerminal (Terminal.print isTerminal t.texts).text .titleRefused := by
          simp only [ofTranscript, complete, ends, complaint, Bool.not_true, Bool.false_eq_true, ↓reduceIte]
        exact absurd failed (sound _ _)

namespace Run

variable {w : World} {arguments : List Text} {options : Options}

/-- The issues that a run reports. There are none if it makes no walk. -/
def reportedIssues (w : World) (arguments : List Text) : List Issue :=
  match Options.ofArguments arguments with
  | .ok options => ((walked? w options).map Progress.reported).getD []
  | .error _ => []

/-- A run without a walk prints what it is asked for, or its root is no directory, or it fails. -/
theorem ending_of_unplanned (unplanned : plan? w options = none) :
    (withOptions w options).ending = .exit 0 ∨ (∃ root, (withOptions w options).ending = .badRoot root) ∨
      ∃ f, (withOptions w options).ending = .failure f := by
  unfold plan? at unplanned
  rw [withOptions]
  by_cases version : options.showVersion = true
  · rw [if_pos version]
    exact .inl rfl
  · by_cases location : options.showLocation = true
    · rw [if_neg version, if_pos location]
      exact .inl rfl
    · rw [if_neg version, if_neg location]
      rw [if_neg (by simp [version, location])] at unplanned
      cases top : Walk.probe w options.root Walk.isDirectory with
      | error obstacle => exact .inr (.inr ⟨_, rfl⟩)
      | ok isDirectory =>
        cases isDirectory with
        | false => exact .inr (.inl ⟨_, rfl⟩)
        | true =>
          simp only [checkProject]
          cases resolved : resolvedRoot w options.root with
          | error f => exact .inr (.inr ⟨_, rfl⟩)
          | ok root =>
            cases git : Walk.probe w (options.root.child ".git".toList) (fun _ => true) with
            | error obstacle => exact .inr (.inr ⟨_, rfl⟩)
            | ok isRepository =>
              rw [top, resolved, git] at unplanned
              cases unplanned

theorem reportedIssues_of_walked {p : Progress} (understood : Options.ofArguments arguments = .ok options)
    (walked : walked? w options = some p) : reportedIssues w arguments = p.reported := by
  simp [reportedIssues, understood, walked]

theorem reportedIssues_of_unplanned (understood : Options.ofArguments arguments = .ok options)
    (unplanned : plan? w options = none) : reportedIssues w arguments = [] := by
  simp [reportedIssues, understood, walked?, unplanned]

/-- A run that does not fail ends with the number of the issues that it reports, or has no root or no options to start with. -/
theorem ending_of_sound (sound : ∀ stdout f, run w arguments ≠ .failed w.terminal stdout f) :
    (transcript w arguments).ending = .exit (reportedIssues w arguments).length ∨
      (∃ root, (transcript w arguments).ending = .badRoot root ∧ reportedIssues w arguments = []) ∨
      ∃ error, (transcript w arguments).ending = .misuse error ∧ reportedIssues w arguments = [] := by
  cases understood : Options.ofArguments arguments with
  | error stop =>
    have none : reportedIssues w arguments = [] := by simp [reportedIssues, understood]
    rw [none, transcript, understood]
    cases stop with
    | help => exact .inl rfl
    | misuse error => exact .inr (.inr ⟨error, rfl, rfl⟩)
  | ok options =>
    cases planned : plan? w options with
    | some plan =>
      rcases run_of_plan understood planned with ⟨stdout, f, failed⟩ | ⟨p, walked, _⟩
      · exact absurd failed (sound stdout f)
      · obtain ⟨_, _, _, said⟩ := transcript_of_walked understood planned walked
        rw [said, reportedIssues_of_walked understood walked]
        exact .inl rfl
    | none =>
      have noFailure := (Outcome.exit_of_sound sound).2
      have made : transcript w arguments = withOptions w options := by rw [transcript, understood]
      rw [reportedIssues_of_unplanned understood planned]
      rw [made] at noFailure ⊢
      rcases ending_of_unplanned planned with ends | ⟨root, ends⟩ | ⟨f, ends⟩
      · exact .inl ends
      · exact .inr (.inl ⟨root, ends, rfl⟩)
      · exact absurd ends (noFailure f)

/-- A run that makes a walk and does not fail prints all the issues that it reports. -/
theorem printedIssues_of_sound (sound : ∀ stdout f, run w arguments ≠ .failed w.terminal stdout f)
    (understood : Options.ofArguments arguments = .ok options) (walks : (plan? w options).isSome = true) :
    printedIssues w arguments = (reportedIssues w arguments).map Report.issueText := by
  obtain ⟨plan, planned⟩ := Option.isSome_iff_exists.mp walks
  rcases run_of_plan understood planned with ⟨stdout, f, failed⟩ | ⟨p, walked, complete⟩
  · exact absurd failed (sound stdout f)
  · rw [reportedIssues_of_walked understood walked]
    exact ((prints_of_walked understood walked).whole complete).1

/-- Let a run not fail. Unless its command line is not understood or its root is no directory, it ends with the number of issues
    that it prints, and its caller sees the remainder of this number by 256. So the caller sees a success exactly if the number
    of issues is a multiple of 256. -/
theorem status_of_run (sound : ∀ stdout f, run w arguments ≠ .failed w.terminal stdout f) :
    (∃ code, (transcript w arguments).ending = .exit code ∧
        (run w arguments).exit = (reportedIssues w arguments).length ∧
        (run w arguments).status = (reportedIssues w arguments).length % 256 ∧
        ((run w arguments).status = 0 ↔ 256 ∣ (reportedIssues w arguments).length) ∧
        ∀ options, Options.ofArguments arguments = .ok options → (plan? w options).isSome = true →
          printedIssues w arguments = (reportedIssues w arguments).map Report.issueText) ∨
      (∃ root, (transcript w arguments).ending = .badRoot root ∧ reportedIssues w arguments = [] ∧
        (run w arguments).status = 255) ∨
      ∃ error, (transcript w arguments).ending = .misuse error ∧ reportedIssues w arguments = [] ∧
        (run w arguments).status = 2 := by
  have exit := (Outcome.exit_of_sound sound).1
  rw [← run] at exit
  rcases ending_of_sound sound with ends | ⟨root, ends, none⟩ | ⟨error, ends, none⟩
  · have count : (run w arguments).exit = (reportedIssues w arguments).length := by
      rw [exit, ends]
      rfl
    obtain ⟨seen, zero⟩ := Outcome.status_of_count count
    exact .inl ⟨_, ends, count, seen, zero, fun _ => printedIssues_of_sound sound⟩
  · refine .inr (.inl ⟨root, ends, none, ?_⟩)
    rw [Outcome.status, exit, ends]
    rfl
  · refine .inr (.inr ⟨error, ends, none, ?_⟩)
    rw [Outcome.status, exit, ends]
    rfl

/-! ### Any number of issues -/

/-- A working directory with one script, on a terminal. -/
def oneScript (t : Text) : World where
  disk := .directory [("r".toList, .directory [("a.cmake".toList, .file (String.ofList t).toUTF8 false)] false)] false
  here := ["r".toList]
  ignored := none
  interruptAt := none
  terminal := true
  location := []
  levels := World.usualLevels
  roomy := World.usualLevels_roomy

/-- The stop at the script. -/
def scriptStop (t : Text) : Walk.Stop :=
  ⟨0, .ok (.check Check.scriptPath ["a.cmake".toList] (String.ofList t).toUTF8 false)⟩

theorem plan_oneScript (t : Text) :
    plan? (oneScript t) plainRun = some ⟨oneScript t, plainRun, .absolute ["r".toList], false⟩ := rfl

theorem route_oneScript (t : Text) :
    Walk.route ⟨oneScript t, plainRun, .absolute ["r".toList], false⟩ (oneScript t).levels 0 plainRun.root =
      .ok [scriptStop t] := rfl

theorem readText_ofList {t : Text} (plain : '\r' ∉ t) (path : Path) :
    Walk.readText path (String.ofList t).toUTF8 false = .ok t := by
  have decoded : String.fromUTF8? (String.ofList t).toUTF8 = some (String.ofList t) :=
    dif_pos (String.ofList t).isValidUTF8
  rw [Walk.readText, decoded]
  simp [Text.unifyNewlines_of_plain plain]

/-- A run in a directory whose only script has copies of a call with an issue reports one issue for each. -/
theorem walked_calls (n : Nat) :
    ∃ p, walked? (oneScript (Text.copies (n + 1) Check.untypedCall)) plainRun = some p ∧ p.reported.length = n + 1 := by
  have plain : '\r' ∉ Text.copies (n + 1) Check.untypedCall := fun member => absurd (Text.mem_copies member) (by decide)
  obtain ⟨found, checked, length⟩ := Lint.issues_copies n
  have text := readText_ofList plain Check.scriptPath
  have good : ∀ s ∈ [scriptStop (Text.copies (n + 1) Check.untypedCall)], s.failure? = none := by
    intro s member
    obtain rfl := List.mem_singleton.mp member
    simp only [Walk.Stop.failure?, scriptStop, text, checked]
  obtain ⟨p, walked, reported, _⟩ := walked_of_good (plan_oneScript _) rfl rfl (Int.le_refl 0) (route_oneScript _) good
  refine ⟨p, walked, ?_⟩
  have issues : (scriptStop (Text.copies (n + 1) Check.untypedCall)).issues = found := by
    simp only [Walk.Stop.issues, scriptStop, Walk.scriptIssues, text, checked, Except.toOption, Option.getD_some]
  rw [reported, List.flatMap_singleton, issues, length]

/-- A working directory with one script that has 256 issues. -/
def manyIssues : World :=
  oneScript (Text.copies 256 Check.untypedCall)

/-- A run that prints 256 issues looks like a success. -/
theorem success_with_many_issues :
    (printedIssues manyIssues []).length = 256 ∧ (run manyIssues []).exit = 256 ∧ (run manyIssues []).status = 0 := by
  have understood : Options.ofArguments [] = .ok plainRun := by decide +kernel
  obtain ⟨p, walked, length⟩ : ∃ p, walked? manyIssues plainRun = some p ∧ p.reported.length = 256 := walked_calls 255
  have planned : plan? manyIssues plainRun = some ⟨manyIssues, plainRun, .absolute ["r".toList], false⟩ := rfl
  obtain ⟨exit, sound⟩ := sound_on_terminal understood walked rfl
  rw [length] at exit
  have reported := reportedIssues_of_walked understood walked
  obtain ⟨_, _, _, said⟩ := transcript_of_walked understood planned walked
  obtain ⟨_, _, _, seen, _, printed⟩ | ⟨_, ends, _⟩ | ⟨_, ends, _⟩ := status_of_run sound
  · refine ⟨?_, exit, ?_⟩
    · rw [printed plainRun understood (by rw [planned]; rfl), List.length_map, reported, length]
    · rw [seen, reported, length]
  · rw [said] at ends
    cases ends
  · rw [said] at ends
    cases ends

end Run

end CMakeLint
