import CMakeLint.Run.Report

/-!
A whole run: from the command line and what is around it to what it prints and the code it ends with.
-/
namespace CMakeLint

/-- What a run prints and the code it ends with. -/
structure Outcome where
  exit : Int
  stdout : Text
  stderr : Text
  deriving DecidableEq, Repr

/-- How a run ends when all it has to say before can be printed. -/
inductive Ending where
  /-- With a code. -/
  | exit (code : Int)
  /-- With a root that is not a directory. -/
  | badRoot (root : Path)
  /-- With a command line that is not understood. -/
  | misuse (error : UsageError)
  /-- With a failure. -/
  | failure (f : Failure)
  deriving DecidableEq, Repr

/-- What a run has to print, and how it ends. -/
structure Transcript where
  texts : List Text
  ending : Ending
  deriving DecidableEq, Repr

namespace Outcome

/-- A run that cannot go on, after what it has printed. -/
def failed (isTerminal : Bool) (stdout : Text) (f : Failure) : Outcome :=
  ⟨-1, stdout, (Terminal.print isTerminal (Report.failure f)).text⟩

/-- Prints a transcript. -/
def ofTranscript (isTerminal : Bool) (t : Transcript) : Outcome :=
  let output := Terminal.print isTerminal t.texts
  if !output.isComplete then failed isTerminal output.text .titleRefused
  else match t.ending with
    | .exit code => ⟨code, output.text, []⟩
    | .badRoot root =>
      let complaint := Terminal.print isTerminal (Report.badRoot root)
      if complaint.isComplete then ⟨-1, output.text, complaint.text⟩
      else failed isTerminal output.text .titleRefused
    | .misuse error => ⟨2, output.text, Terminal.printPossible isTerminal (Report.misuse error)⟩
    | .failure f => failed isTerminal output.text f

end Outcome

namespace Run

/-- The root as it is printed and walked, or the reason why it cannot be. -/
def resolvedRoot (w : World) (root : Path) : Except Failure Path :=
  match w.resolve (w.levels + 1) root with
  | .path p => .ok p
  | .loop p => .error (.loop p)
  | .tooDeep => .error .tooDeep

/-- What is said about git before the walk. -/
def gitNotes (w : World) (verbose isRepository : Bool) : List Text :=
  if !isRepository then []
  else (if verbose then Report.line "detected git repository".toList else []) ++
    match w.ignored, verbose with
    | none, _ => Report.line (Report.warningWord ++
        " could not detect git; .gitignore rules will not be respected".toList)
    | some _, true => Report.line "detected git".toList
    | some _, false => []

/-- Walks through a project and reports what happened. -/
def walkAndReport (plan : Walk.Plan) (before : List Text) : Transcript :=
  match Walk.walk plan plan.world.levels plan.options.root Progress.start with
  | .ok () p => ⟨before ++ Report.events plan.options.verbose p.log.reverse ++ Report.summary p, .exit p.issues⟩
  | .error f p => ⟨before ++ Report.events plan.options.verbose p.log.reverse, .failure f⟩

/-- Checks a project whose root is a directory. -/
def checkProject (w : World) (options : Options) : Transcript :=
  match resolvedRoot w options.root with
  | .error f => ⟨Report.banner, .failure f⟩
  | .ok root =>
    let before := Report.banner ++ Report.line ("root: ".toList ++ root.toText)
    let git := options.root.child ".git".toList
    match Walk.probe w git fun _ => true with
    | .error obstacle => ⟨before, .failure (.blocked obstacle git)⟩
    | .ok isRepository =>
      walkAndReport ⟨w, options, root, isRepository⟩ (before ++ gitNotes w options.verbose isRepository)

/-- Does what the options ask for. -/
def withOptions (w : World) (options : Options) : Transcript :=
  if options.showVersion then ⟨Report.line versionText, .exit 0⟩
  else if options.showLocation then ⟨Report.line w.location, .exit 0⟩
  else match Walk.probe w options.root Walk.isDirectory with
    | .error obstacle => ⟨Report.banner, .failure (.blocked obstacle options.root)⟩
    | .ok true => checkProject w options
    | .ok false => ⟨Report.banner, .badRoot options.root⟩

/-- What a run has to print, and how it ends. -/
def transcript (w : World) (arguments : List Text) : Transcript :=
  match Options.ofArguments arguments with
  | .ok options => withOptions w options
  | .error .help => ⟨Report.help, .exit 0⟩
  | .error (.misuse error) => ⟨[], .misuse error⟩

/-- A run. -/
def run (w : World) (arguments : List Text) : Outcome :=
  .ofTranscript w.terminal (transcript w arguments)

end Run

end CMakeLint
