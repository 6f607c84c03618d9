import CMakeLint.Proofs.Text.Layout
import CMakeLint.Proofs.Walk.Limit

/-!
The totals at the end of a run. What is done at a stop adds to the log and to the counters alike (`act_happens`), so a walk that
does not fail keeps them in step (`follow_tallied`), whatever the limit is and wherever the run is interrupted. All output
before the totals is lines, and those that start with the word for an error are the reported issues in order (`lined_events`).
So the last line of a run that ends without a failure tells how many issues have been printed and how many scripts have been
read (`totals_of_run`).
-/
namespace CMakeLint

/-- The script that an event reads. -/
def Event.read? : Event → Option Path
  | .read path => some path
  | _ => none

/-- The scripts that are read so far, the first one first. -/
def Progress.reads (p : Progress) : List Path :=
  p.log.reverse.filterMap Event.read?

namespace Walk

/-! ### What a part of a walk does -/

/-- How far a part of a walk comes, whether it fails or not. -/
def reached {α : Type} (m : Walk α) (p : Progress) : Progress :=
  match m p with
  | .ok _ q => q
  | .error _ q => q

/-- The script that is read at a stop. -/
def Stop.read? (s : Stop) : Option Path :=
  match s.errand with
  | .ok (.check path _ _ _) => some path
  | _ => none

/-- What happens from one state of a walk to another: these events are logged, the issues and scripts among them are counted, and
    no entry is taken. -/
structure Happens (p q : Progress) (events : List Event) : Prop where
  log_eq : q.log = events.reverse ++ p.log
  issues_eq : q.issues = p.issues + (events.filterMap Event.issue?).length
  files_eq : q.files = p.files + (events.filterMap Event.read?).length
  entries_eq : q.entries = p.entries

variable {p q r : Progress} {events more : List Event}

theorem happens_refl (p : Progress) : Happens p p [] :=
  ⟨rfl, rfl, rfl, rfl⟩

theorem happens_trans (first : Happens p q events) (second : Happens q r more) : Happens p r (events ++ more) := by
  refine ⟨?_, ?_, ?_, ?_⟩
  · rw [second.log_eq, first.log_eq, List.reverse_append, List.append_assoc]
  · rw [second.issues_eq, first.issues_eq, List.filterMap_append, List.length_append, Nat.add_assoc]
  · rw [second.files_eq, first.files_eq, List.filterMap_append, List.length_append, Nat.add_assoc]
  · rw [second.entries_eq, first.entries_eq]

theorem happens_log (p : Progress) {event : Event} (noIssue : event.issue? = none) (noRead : event.read? = none) :
    Happens p { p with log := event :: p.log } [event] :=
  ⟨rfl, by simp [noIssue], by simp [noRead], rfl⟩

theorem happens_found (p : Progress) (issue : Issue) :
    Happens p { p with issues := p.issues + 1, log := .found issue :: p.log } [.found issue] :=
  ⟨rfl, rfl, rfl, rfl⟩

theorem happens_read (p : Progress) (path : Path) :
    Happens p { p with files := p.files + 1, log := .read path :: p.log } [.read path] :=
  ⟨rfl, rfl, rfl, rfl⟩

theorem Happens.reads_eq (happens : Happens p q events) : q.reads = p.reads ++ events.filterMap Event.read? := by
  rw [Progress.reads, Progress.reads, happens.log_eq, List.reverse_append, List.reverse_reverse, List.filterMap_append]

theorem Happens.reported_eq (happens : Happens p q events) : q.reported = p.reported ++ events.filterMap Event.issue? := by
  rw [Progress.reported, Progress.reported, happens.log_eq, List.reverse_append, List.reverse_reverse, List.filterMap_append]

theorem reportIssues_happens (limit : Option Int) (issues : List Issue) (p : Progress) :
    ∃ events, Happens p (reached (reportIssues limit issues) p) events ∧ events.filterMap Event.read? = [] := by
  induction issues generalizing p with
  | nil => exact ⟨[], happens_refl p, rfl⟩
  | cons issue rest ih =>
    have found := happens_found p issue
    cases limit with
    | none => exact ⟨_, found, rfl⟩
    | some n =>
      rw [reached, reportIssues_cons]
      by_cases enough : 0 < n ∧ n ≤ ((p.issues + 1 : Nat) : Int)
      · rw [if_pos enough]
        exact ⟨[.found issue, .limitReached], happens_trans found (happens_log _ rfl rfl), rfl⟩
      · obtain ⟨events, happens, unread⟩ := ih { p with issues := p.issues + 1, log := .found issue :: p.log }
        rw [if_neg enough]
        exact ⟨_, happens_trans found happens, unread⟩

theorem reportFindings_happens (limit : Option Int) (place : Place) (findings : Except Fault (List Issue)) (p : Progress) :
    ∃ events, Happens p (reached (reportFindings limit place findings) p) events ∧ events.filterMap Event.read? = [] := by
  cases findings with
  | error fault => exact ⟨[], happens_refl p, rfl⟩
  | ok issues =>
    cases issues with
    | nil => exact ⟨_, happens_log p rfl rfl, rfl⟩
    | cons issue rest => exact reportIssues_happens limit (issue :: rest) p

theorem visitScript_unread {path : Path} {content : ByteArray} {locked : Bool} {f : Failure}
    (unread : readText path content locked = .error f) (limit : Option Int) (place : Place) (p : Progress) :
    visitScript limit path place content locked p = .error f { p with files := p.files + 1 } := by
  rw [visitScript, unread]
  rfl

theorem visitScript_read {path : Path} {content : ByteArray} {locked : Bool} {t : Text}
    (text : readText path content locked = .ok t) (limit : Option Int) (place : Place) (p : Progress) :
    visitScript limit path place content locked p =
      reportFindings limit place (Lint.issues path t) { p with files := p.files + 1, log := .read path :: p.log } := by
  rw [visitScript, text]
  rfl

/-- What is done at a stop, even if it fails: the script there is read and nothing else, unless it is only counted because it
    cannot be read. -/
theorem act_happens (limit : Option Int) (s : Stop) (p : Progress) :
    (∃ events, Happens p (reached (s.act limit) p) events ∧ events.filterMap Event.read? = s.read?.toList) ∨
      ∃ f, s.act limit p = .error f { p with files := p.files + 1 } := by
  obtain ⟨level, errand⟩ := s
  cases errand with
  | error f => exact .inl ⟨[], happens_refl p, rfl⟩
  | ok errand =>
    cases errand with
    | nothing => exact .inl ⟨[], happens_refl p, rfl⟩
    | descend path => exact .inl ⟨[], happens_refl p, rfl⟩
    | skip place reason => exact .inl ⟨_, happens_log p rfl rfl, rfl⟩
    | check path place content locked =>
      have script : Stop.act limit ⟨level, .ok (.check path place content locked)⟩ p =
          visitScript limit path place content locked p := rfl
      rw [reached, script]
      cases text : readText path content locked with
      | error f => exact .inr ⟨f, visitScript_unread text limit place p⟩
      | ok t =>
        obtain ⟨events, happens, unread⟩ := reportFindings_happens limit place (Lint.issues path t)
          { p with files := p.files + 1, log := .read path :: p.log }
        rw [visitScript_read text]
        refine .inl ⟨_, happens_trans (happens_read p path) happens, ?_⟩
        rw [List.filterMap_append, unread]
        rfl

theorem happens_of_act {limit : Option Int} {s : Stop} {flow : Flow} (acted : s.act limit p = .ok flow q) :
    ∃ events, Happens p q events ∧ events.filterMap Event.read? = s.read?.toList := by
  rcases act_happens limit s p with happens | ⟨f, failed⟩
  · rwa [reached, acted] at happens
  · rw [acted] at failed
    cases failed

/-! ### Counters along a walk -/

/-- The counters agree with what has happened. -/
structure Tallied (p : Progress) : Prop where
  issues_eq : p.issues = p.reported.length
  files_eq : p.files = p.reads.length

theorem tallied_of_happens (happens : Happens p q events) (tallied : Tallied p) : Tallied q := by
  constructor
  · rw [happens.issues_eq, tallied.issues_eq, happens.reported_eq, List.length_append]
  · rw [happens.files_eq, tallied.files_eq, happens.reads_eq, List.length_append]

/-- A walk that does not fail keeps the counters in step with what happens, whatever the limit is and wherever it is
    interrupted. -/
theorem follow_tallied {w : World} {limit : Option Int} {stops : List Stop} (ran : follow w limit stops p = .ok () q)
    (tallied : Tallied p) : Tallied q := by
  induction stops using stops_induction generalizing p with
  | nil =>
    rw [follow] at ran
    cases ran
    exact tallied
  | cons s rest ih =>
    cases running : w.interruptedBy (p.entries + 1) with
    | true =>
      obtain ⟨e, halted⟩ := follow_halted running limit (s :: rest)
      rw [ran] at halted
      cases halted
      exact ⟨tallied.issues_eq, tallied.files_eq⟩
    | false =>
      cases acted : s.act limit { p with entries := p.entries + 1 } with
      | error f p' =>
        rw [follow_failed running acted] at ran
        cases ran
      | ok flow p' =>
        rw [follow_acted running acted] at ran
        obtain ⟨events, happens, _⟩ := happens_of_act acted
        exact ih flow ran (tallied_of_happens happens ⟨tallied.issues_eq, tallied.files_eq⟩)

end Walk

/-! ### Lines of output -/

namespace Report

/-- Texts that are printed line by line. The lines that start with the word for an error are these issues. -/
def Lined (texts : List Text) (issues : List Issue) : Prop :=
  ∃ ls : List Text, texts = ls.flatMap line ∧ ls.filter (errorWord.isPrefixOf ·) = issues.map issueText

theorem lined_nil : Lined [] [] :=
  ⟨[], rfl, rfl⟩

theorem lined_append {texts texts' : List Text} {issues issues' : List Issue} (first : Lined texts issues)
    (second : Lined texts' issues') : Lined (texts ++ texts') (issues ++ issues') := by
  obtain ⟨ls, rfl, found⟩ := first
  obtain ⟨ls', rfl, found'⟩ := second
  exact ⟨ls ++ ls', by simp, by simp [found, found']⟩

theorem lined_line {t : Text} (other : errorWord.isPrefixOf t = false) : Lined (line t) [] :=
  ⟨[t], by simp, by simp [other]⟩

theorem lined_issue (issue : Issue) : Lined (line (issueText issue)) [issue] := by
  refine ⟨[issueText issue], by simp, ?_⟩
  have starts : errorWord.isPrefixOf (issueText issue) = true := by
    rw [List.isPrefixOf_iff_prefix, issueText, List.append_assoc, List.append_assoc]
    exact List.prefix_append _ _
  simp [starts]

/-- The word for an error starts with an escape character, which no other word at the start of a line does. -/
theorem not_errorWord_of_head {c : Char} {t : Text} (other : c ≠ '\x1b') : errorWord.isPrefixOf (c :: t) = false := by
  have escaped : errorWord = '\x1b' :: errorWord.tail := by decide +kernel
  rw [escaped, List.isPrefixOf_cons_cons]
  simp [other.symm]

theorem lined_event (afterIssue : Bool) (e : Event) : Lined (event afterIssue e) e.issue?.toList := by
  cases e with
  | skipped place reason => exact lined_line (not_errorWord_of_head (by decide))
  | read path => exact lined_nil
  | found issue =>
    have blank : Lined (if afterIssue then [] else line []) [] := by
      cases afterIssue with
      | true => exact lined_nil
      | false => exact lined_line (by decide +kernel)
    exact lined_append blank (lined_issue issue)
  | clean place => exact lined_line (not_errorWord_of_head (by decide))
  | limitReached => exact lined_line (by decide +kernel)

theorem lined_shown (afterIssue : Bool) (es : List Event) : Lined (shown afterIssue es) (es.filterMap Event.issue?) := by
  induction es generalizing afterIssue with
  | nil => exact lined_nil
  | cons e es ih =>
    have both := lined_append (lined_event afterIssue e) (ih (isIssue e))
    rw [shown]
    cases found : e.issue? with
    | none => simpa [found] using both
    | some issue => simpa [found] using both

/-- What is printed for the events of a walk is lines; those that report errors are the issues among the events. -/
theorem lined_events (verbose : Bool) (es : List Event) : Lined (events verbose es) (es.filterMap Event.issue?) := by
  have all : (es.filter (isShown verbose)).filterMap Event.issue? = es.filterMap Event.issue? := by
    induction es with
    | nil => rfl
    | cons e es ih =>
      by_cases visible : isShown verbose e = true
      · rw [List.filter_cons_of_pos visible, List.filterMap_cons, List.filterMap_cons, ih]
      · have silent : e.issue? = none := by
          cases e with
          | found issue => exact absurd rfl visible
          | _ => rfl
        rw [List.filter_cons_of_neg visible, List.filterMap_cons_none silent, ih]
  rw [← all]
  exact lined_shown false _

end Report

namespace Terminal

theorem plain_of_unescaped {t : Text} (unescaped : '\x1b' ∉ t) : plain t = t := by
  induction t with
  | nil => rfl
  | cons c t ih =>
    have here : codeLength? (c :: t) = none := by
      unfold codeLength?
      split <;> simp_all
    have rest := ih (fun member => unescaped (List.mem_cons_of_mem c member))
    rw [plain] at rest ⊢
    rw [plainFrom, here]
    exact congrArg (c :: ·) rest

theorem commandsFrom_of_unescaped {t : Text} (unescaped : '\x1b' ∉ t) (offset : Nat) : commandsFrom offset 0 t = [] := by
  induction t generalizing offset with
  | nil => rfl
  | cons c t ih =>
    have here : command? (c :: t) = none := by
      unfold command?
      split <;> simp_all
    rw [commandsFrom, here]
    exact ih (fun member => unescaped (List.mem_cons_of_mem c member)) (offset + 1)

theorem shown_of_unescaped {t : Text} (unescaped : '\x1b' ∉ t) (isTerminal : Bool) : shown? isTerminal t = some t := by
  cases isTerminal with
  | true => rfl
  | false => simp [shown?, withoutCommands?, commands, commandsFrom_of_unescaped unescaped, plain_of_unescaped unescaped]

/-- Texts are printed one after the other up to the first that cannot be. -/
theorem print_append (isTerminal : Bool) (ts ts' : List Text) (complete : (print isTerminal ts).isComplete = true) :
    print isTerminal (ts ++ ts') =
      ⟨(print isTerminal ts).text ++ (print isTerminal ts').text, (print isTerminal ts').isComplete⟩ := by
  induction ts with
  | nil => rfl
  | cons t ts ih =>
    cases shown : shown? isTerminal t with
    | none => simp [print, shown] at complete
    | some s =>
      simp only [print, shown] at complete
      simp [print, shown, ih complete]

theorem isComplete_of_append {isTerminal : Bool} {ts ts' : List Text}
    (complete : (print isTerminal (ts ++ ts')).isComplete = true) : (print isTerminal ts).isComplete = true := by
  induction ts with
  | nil => rfl
  | cons t ts ih =>
    rw [List.cons_append] at complete
    cases shown : shown? isTerminal t with
    | none => simp [print, shown] at complete
    | some s =>
      simp only [print, shown] at complete ⊢
      exact ih complete

/-- What is printed for lines, of which there are some, ends with a newline. -/
theorem print_lines_end {isTerminal : Bool} {ls : List Text} (some : ls ≠ [])
    (complete : (print isTerminal (ls.flatMap Report.line)).isComplete = true) :
    ∃ t, (print isTerminal (ls.flatMap Report.line)).text = t ++ ['\n'] := by
  obtain ⟨earlier, l, rfl⟩ : ∃ earlier l, ls = earlier ++ [l] := ⟨_, _, (List.dropLast_concat_getLast some).symm⟩
  have newline : shown? isTerminal ['\n'] = Option.some ['\n'] := shown_of_unescaped (by decide) isTerminal
  have split : (earlier ++ [l]).flatMap Report.line = (earlier.flatMap Report.line ++ [l]) ++ [['\n']] := by
    simp [Report.line]
  rw [split] at complete ⊢
  rw [print_append isTerminal _ _ (isComplete_of_append complete)]
  exact ⟨(print isTerminal (earlier.flatMap Report.line ++ [l])).text, by simp [print, newline]⟩

end Terminal

namespace Report

theorem visible_of_all {t : Text} (all : t.all (32 ≤ ·.toNat) = true) : ∀ c ∈ t, 32 ≤ c.toNat :=
  fun c member => of_decide_eq_true (List.all_eq_true.mp all c member)

theorem visible_count (n : Nat) {thing : String} (visible : ∀ c ∈ thing.toList, 32 ≤ c.toNat) :
    ∀ c ∈ count n thing, 32 ≤ c.toNat := by
  intro c member
  simp only [count, List.mem_append, List.mem_cons] at member
  obtain (digit | rfl | letter) | plural := member
  · have isDigit := Nat.isDigit_of_mem_toDigits (by decide) (by decide) digit
    simp only [Char.isDigit, ge_iff_le, Bool.and_eq_true, decide_eq_true_eq, UInt32.le_iff_toNat_le] at isDigit
    exact Nat.le_trans (by decide) isDigit.1
  · decide
  · exact visible c letter
  · split at plural
    · cases plural
    · obtain rfl := List.mem_singleton.mp plural
      decide

theorem visible_totals (issues files : Nat) : ∀ c ∈ totals issues files, 32 ≤ c.toNat := by
  have errors := @visible_count issues "error" (visible_of_all (by decide))
  have scripts := @visible_count files "file" (visible_of_all (by decide))
  have words : ∀ c ∈ "found ".toList ++ " in ".toList, 32 ≤ c.toNat := visible_of_all (by decide)
  intro c member
  unfold totals at member
  simp only [List.append_assoc, List.mem_append] at member
  rcases member with word | number | word | number | stop
  · exact words c (List.mem_append_left _ word)
  · exact errors c number
  · exact words c (List.mem_append_right _ word)
  · exact scripts c number
  · obtain rfl := List.mem_singleton.mp stop
    decide

end Report

/-! ### Runs -/

namespace Run

theorem lined_gitNotes (w : World) (verbose isRepository : Bool) : Report.Lined (gitNotes w verbose isRepository) [] := by
  have repository : Report.Lined (Report.line "detected git repository".toList) [] := Report.lined_line (by decide +kernel)
  have git : Report.Lined (Report.line "detected git".toList) [] := Report.lined_line (by decide +kernel)
  have noGit : Report.Lined (Report.line (Report.warningWord ++
      " could not detect git; .gitignore rules will not be respected".toList)) [] := Report.lined_line (by decide +kernel)
  cases isRepository with
  | false => exact Report.lined_nil
  | true =>
    unfold gitNotes
    cases verbose with
    | false =>
      cases w.ignored with
      | none => exact noGit
      | some _ => exact Report.lined_nil
    | true =>
      cases w.ignored with
      | none => exact Report.lined_append repository noGit
      | some _ => exact Report.lined_append repository git

theorem lined_opening (plan : Walk.Plan) : Report.Lined (opening plan) [] := by
  have banner : Report.Lined Report.banner [] := Report.lined_line (by decide +kernel)
  have root : Report.Lined (Report.line ("root: ".toList ++ plan.root.toText)) [] :=
    Report.lined_line (Report.not_errorWord_of_head (by decide))
  exact Report.lined_append (Report.lined_append banner root) (lined_gitNotes _ _ _)

theorem opening_ne_nil (plan : Walk.Plan) : opening plan ≠ [] := by
  simp [opening, Report.banner, Report.line]

/-- A run that reaches its walk ends in a failure, or its walk does not fail and all it has to say can be printed. -/
theorem run_of_plan {w : World} {arguments : List Text} {options : Options} {plan : Walk.Plan}
    (understood : Options.ofArguments arguments = .ok options) (walks : plan? w options = some plan) :
    (∃ stdout f, run w arguments = .failed w.terminal stdout f) ∨
      ∃ p, walked? w options = some p ∧ (Terminal.print w.terminal (transcript w arguments).texts).isComplete = true := by
  obtain ⟨world, same, made⟩ := plan_parts walks
  have said : transcript w arguments = walkAndReport plan (opening plan) := by
    rw [transcript, understood]
    exact made
  unfold run walked?
  rw [said, walks, walkAndReport, world, same]
  simp only
  cases ran : Walk.walk plan w.levels options.root Progress.start with
  | error f p =>
    left
    simp only [Outcome.ofTranscript]
    split
    · exact ⟨_, _, rfl⟩
    · exact ⟨_, _, rfl⟩
  | ok _ p =>
    simp only [Outcome.ofTranscript]
    split
    · exact .inl ⟨_, _, rfl⟩
    · rename_i complete
      exact .inr ⟨p, rfl, by simpa using complete⟩

theorem tallied_of_walked {w : World} {options : Options} {p : Progress} (walked : walked? w options = some p) :
    Walk.Tallied p := by
  obtain ⟨stops, _, followed⟩ := follow_of_walked walked
  exact Walk.follow_tallied followed ⟨rfl, rfl⟩

/-- The totals can always be printed. -/
theorem print_totals {isTerminal : Bool} {ls : List Text} (issues files : Nat)
    (complete : (Terminal.print isTerminal (ls.flatMap Report.line)).isComplete = true) :
    Terminal.print isTerminal ((ls ++ [Report.totals issues files]).flatMap Report.line) =
      ⟨(Terminal.print isTerminal (ls.flatMap Report.line)).text ++ (Report.totals issues files ++ ['\n']), true⟩ := by
  have unescaped : '\x1b' ∉ Report.totals issues files :=
    fun member => absurd (Report.visible_totals issues files _ member) (by decide)
  have newline : Terminal.shown? isTerminal ['\n'] = Option.some ['\n'] := Terminal.shown_of_unescaped (by decide) isTerminal
  have printed : Terminal.print isTerminal ([Report.totals issues files].flatMap Report.line) =
      ⟨Report.totals issues files ++ ['\n'], true⟩ := by
    simp [Report.line, Terminal.print, Terminal.shown_of_unescaped unescaped, newline]
  rw [List.flatMap_append, Terminal.print_append isTerminal _ _ complete, printed]

/-- After lines of which there are some, the totals are a line of their own. -/
theorem lines_print_totals {isTerminal : Bool} {ls : List Text} (issues files : Nat) (some : ls ≠ [])
    (complete : (Terminal.print isTerminal (ls.flatMap Report.line)).isComplete = true) :
    ∃ earlier, (Terminal.print isTerminal ((ls ++ [Report.totals issues files]).flatMap Report.line)).text.lines =
      earlier ++ [Report.totals issues files, []] := by
  have oneLine : '\n' ∉ Report.totals issues files :=
    fun member => absurd (Report.visible_totals issues files _ member) (by decide)
  obtain ⟨t, ended⟩ := Terminal.print_lines_end some complete
  refine ⟨t.lines, ?_⟩
  rw [print_totals issues files complete, ended]
  simp only
  rw [List.append_assoc, List.singleton_append, Text.lines_append_newline_text,
    Text.lines_append_newline_text, Text.lines_of_plain oneLine, Text.lines_nil, List.singleton_append]

/-- What a run has to print if its walk does not fail: lines for what happens, those with the word for an error for the issues,
    and the totals. -/
theorem transcript_of_walked {w : World} {arguments : List Text} {options : Options} {plan : Walk.Plan} {p : Progress}
    (understood : Options.ofArguments arguments = .ok options) (planned : plan? w options = some plan)
    (walked : walked? w options = some p) :
    ∃ ls, ls.flatMap Report.line = opening plan ++ Report.events options.verbose p.log.reverse ∧
      ls.filter (Report.errorWord.isPrefixOf ·) = p.reported.map Report.issueText ∧
      transcript w arguments =
        ⟨(ls ++ [Report.totals p.reported.length p.reads.length]).flatMap Report.line, .exit p.reported.length⟩ := by
  have tallied := tallied_of_walked walked
  obtain ⟨plan', planned', made⟩ := exists_opening walked
  rw [planned] at planned'
  cases planned'
  obtain ⟨ls, before, found⟩ := Report.lined_append (lined_opening plan) (Report.lined_events options.verbose p.log.reverse)
  refine ⟨ls, before.symm, found, ?_⟩
  rw [transcript, understood]
  simp only
  rw [made, before, List.flatMap_append, List.flatMap_singleton, ← tallied.issues_eq, ← tallied.files_eq]
  rfl

/-- What a run prints at its end if its walk does not fail and all it has to say can be printed. -/
theorem printed_of_walked {w : World} {arguments : List Text} {options : Options} {p : Progress}
    (understood : Options.ofArguments arguments = .ok options) (walked : walked? w options = some p)
    (complete : (Terminal.print w.terminal (transcript w arguments).texts).isComplete = true) :
    ∃ ls earlier,
      (transcript w arguments).texts = (ls ++ [Report.totals p.reported.length p.reads.length]).flatMap Report.line ∧
      ls.filter (Report.errorWord.isPrefixOf ·) = p.reported.map Report.issueText ∧
      (run w arguments).stdout.lines = earlier ++ [Report.totals p.reported.length p.reads.length, []] ∧
      (run w arguments).exit = p.reported.length := by
  obtain ⟨plan, planned, _⟩ := exists_opening walked
  obtain ⟨ls, before, found, said⟩ := transcript_of_walked understood planned walked
  have some : ls ≠ [] := by
    rintro rfl
    exact opening_ne_nil plan (List.append_eq_nil_iff.mp before.symm).1
  rw [said] at complete
  have earlierComplete : (Terminal.print w.terminal (ls.flatMap Report.line)).isComplete = true := by
    rw [List.flatMap_append] at complete
    exact Terminal.isComplete_of_append complete
  obtain ⟨earlier, lines⟩ := lines_print_totals p.reported.length p.reads.length some earlierComplete
  have ran : run w arguments =
      ⟨p.reported.length, (Terminal.print w.terminal (transcript w arguments).texts).text, []⟩ := by
    rw [run, said, Outcome.ofTranscript]
    simp only [complete, Bool.not_true, Bool.false_eq_true, ↓reduceIte]
  refine ⟨ls, earlier, by rw [said], found, ?_, by rw [ran]⟩
  rw [ran, said]
  exact lines

/-- Let a run reach its walk and not end in a failure, whatever the limit is and wherever it is interrupted. Its last line tells
    the number of issues and the number of scripts read, and it ends with the number of issues. The issues are the lines that
    are printed with the word for an error. -/
theorem totals_of_run {w : World} {arguments : List Text} {options : Options}
    (understood : Options.ofArguments arguments = .ok options) (walks : (plan? w options).isSome = true)
    (sound : ∀ stdout f, run w arguments ≠ .failed w.terminal stdout f) :
    ∃ p ls earlier, walked? w options = some p ∧
      (transcript w arguments).texts = (ls ++ [Report.totals p.reported.length p.reads.length]).flatMap Report.line ∧
      ls.filter (Report.errorWord.isPrefixOf ·) = p.reported.map Report.issueText ∧
      (run w arguments).stdout.lines = earlier ++ [Report.totals p.reported.length p.reads.length, []] ∧
      (run w arguments).exit = p.reported.length := by
  obtain ⟨plan, planned⟩ := Option.isSome_iff_exists.mp walks
  rcases run_of_plan understood planned with ⟨stdout, f, failed⟩ | ⟨p, walked, complete⟩
  · exact absurd failed (sound stdout f)
  · obtain ⟨ls, earlier, texts, issues, lines, exit⟩ := printed_of_walked understood walked complete
    exact ⟨p, ls, earlier, walked, texts, issues, lines, exit⟩

/-- With one issue as the limit, two directories report one each, and the totals say so. -/
theorem totals_of_two_directories :
    ∃ p ls earlier, walked? twoScripts { plainRun with limit := some 1 } = some p ∧
      (transcript twoScripts ["--limit".toList, "1".toList]).texts =
        (ls ++ [Report.totals p.reported.length p.reads.length]).flatMap Report.line ∧
      ls.filter (Report.errorWord.isPrefixOf ·) = p.reported.map Report.issueText ∧
      (run twoScripts ["--limit".toList, "1".toList]).stdout.lines =
        earlier ++ ["found 2 errors in 2 files.".toList, []] ∧
      (run twoScripts ["--limit".toList, "1".toList]).exit = 2 := by
  have understood : Options.ofArguments ["--limit".toList, "1".toList] = .ok { plainRun with limit := some 1 } := by
    decide +kernel
  have walks : (plan? twoScripts { plainRun with limit := some 1 }).isSome = true := by decide +kernel
  have counts : (walked? twoScripts { plainRun with limit := some 1 }).map (fun p => (p.reported.length, p.reads.length)) =
      some (2, 2) := by decide +kernel
  have exit : (run twoScripts ["--limit".toList, "1".toList]).exit = 2 := by decide +kernel
  have sound : ∀ stdout f, run twoScripts ["--limit".toList, "1".toList] ≠ .failed twoScripts.terminal stdout f := by
    intro stdout f failed
    rw [failed] at exit
    exact absurd exit (show (-1 : Int) ≠ 2 by decide)
  obtain ⟨p, ls, earlier, walked, texts, issues, lines, _⟩ := totals_of_run understood walks sound
  refine ⟨p, ls, earlier, walked, texts, issues, ?_, exit⟩
  simp only [walked, Option.map_some, Option.some.injEq, Prod.mk.injEq] at counts
  rw [lines, counts.1, counts.2]
  have words : Report.totals 2 2 = "found 2 errors in 2 files.".toList := by decide +kernel
  rw [words]

end Run

end CMakeLint
