import CMakeLint.Run.Walk
import CMakeLint.Version

/-!
What a run prints: the events of a walk, the totals, and messages for a command line or a run that went wrong. All of it is a
list of texts that are printed one by one.
-/
namespace CMakeLint

/-- Why an entry was skipped, as a report says it. -/
def Skip.text : Skip → String
  | permissions => "insufficient permissions"
  | submodule => "git submodule"
  | mesonBuild => "meson build folder"
  | cmakeBuild => "CMake build folder"
  | ninjaBuild => "ninja build folder"
  | build => "build folder"
  | conan => "conan database"
  | ignored => ".gitignore"

/-- What prevents looking at a path, by its kind, its number and its name. -/
def Obstacle.text : Obstacle → String
  | missing => "FileNotFoundError: [Errno 2] No such file or directory"
  | notDirectory => "NotADirectoryError: [Errno 20] Not a directory"
  | denied => "PermissionError: [Errno 13] Permission denied"
  | loop => "OSError: [Errno 40] Too many levels of symbolic links"
  | tooLong => "OSError: [Errno 36] File name too long"

/-- The kind of a failure and what is said about it. -/
def Failure.text : Failure → Text
  | undecodable => "UnicodeDecodeError".toList
  | blocked obstacle path => obstacle.text.toList ++ ": ".toList ++ Text.quoted path.toText
  | loop path => "RuntimeError: Symlink loop from ".toList ++ Text.quoted path.toText
  | outside path root =>
    "ValueError: ".toList ++ Text.quoted path.toText ++ " is not in the subpath of ".toList ++ Text.quoted root.toText ++
      " OR one path is relative and the other is absolute.".toList
  | refused _ => "AssertionError".toList
  | tooDeep => "RecursionError: maximum recursion depth exceeded while calling a Python object".toList
  | limitMissing => "TypeError: '>' not supported between instances of 'list' and 'int'".toList
  | titleRefused => "AttributeError: 'NoneType' object has no attribute 'set_title'".toList

namespace Report

/-- A line of output, which is printed before the newline after it. -/
def line (t : Text) : List Text :=
  [t, ['\n']]

/-- Lines as one text. -/
def block (lines : List Text) : Text :=
  lines.flatMap (· ++ ['\n'])

/-- The word that starts an error. -/
def errorWord : Text :=
  Terminal.paint .bright .red "error:".toList

/-- The word that starts a warning. -/
def warningWord : Text :=
  Terminal.paint .bright .yellow "warning:".toList

/-- The name of the program and its home. -/
def banner : List Text :=
  line (Terminal.paint .bright .cyan "check_cmake".toList ++ " v".toList ++ versionText ++
    " - github.com/marzer/check-cmake".toList)

/-- The path of a place below the root. -/
def relativeText (place : Place) : Text :=
  (Path.mk 0 place).toText

/-- Whether an event is printed: all are if the run is verbose, except that reading a script is never. -/
def isShown (verbose : Bool) : Event → Bool
  | .skipped _ _ => verbose
  | .read _ => false
  | .found _ => true
  | .clean _ => verbose
  | .limitReached => true

/-- Whether an event is an issue. -/
def isIssue : Event → Bool
  | .found _ => true
  | _ => false

/-- An issue as it is printed. -/
def issueText (issue : Issue) : Text :=
  errorWord ++ [' '] ++ issue.render ++ ['\n']

/-- What is printed for an event; the first of several issues has a blank line before it. -/
def event (afterIssue : Bool) : Event → List Text
  | .skipped place reason =>
    line ("[--] ".toList ++ relativeText place ++ " skipped (".toList ++ reason.text.toList ++ [')'])
  | .read _ => []
  | .found issue => (if afterIssue then [] else line []) ++ line (issueText issue)
  | .clean place => line ("[OK] ".toList ++ relativeText place)
  | .limitReached => line "reached error limit, stopping.".toList

/-- What is printed for events in order. -/
def shown : (afterIssue : Bool) → List Event → List Text
  | _, [] => []
  | afterIssue, e :: rest => event afterIssue e ++ shown (isIssue e) rest

/-- What is printed for the events of a walk. -/
def events (verbose : Bool) (es : List Event) : List Text :=
  shown false (es.filter (isShown verbose))

/-- A number of things. -/
def count (n : Nat) (thing : String) : Text :=
  Text.ofNat n ++ ' ' :: thing.toList ++ if n = 1 then [] else ['s']

/-- The totals of a walk as they are printed. -/
def totals (issues files : Nat) : Text :=
  "found ".toList ++ count issues "error" ++ " in ".toList ++ count files "file" ++ ['.']

/-- What is printed at the end of a walk. -/
def summary (p : Progress) : List Text :=
  line (totals p.issues p.files)

/-- What is printed when the root is not a directory. -/
def badRoot (root : Path) : List Text :=
  line (errorWord ++ " root '".toList ++ Terminal.paint .bright .white root.toText ++
    "' did not exist or was not a directory".toList)

/-- What is printed when a run cannot go on. -/
def failure (f : Failure) : List Text :=
  let stars := Terminal.paint .dim .red "*************".toList
  line (block [[], stars, [], "You appear to have triggered an internal bug!".toList,
    Terminal.paint .normal .white "Please file an issue at github.com/marzer/check-cmake/issues".toList,
    "Many thanks!".toList, [], stars, [], f.text, [], stars])

/-- How the program is called. -/
def usage : Text :=
  block ["usage: check-cmake [-h] [-v] [--version] [--recurse | --no-recurse]".toList,
    "                   [--limit LIMIT]".toList,
    "                   [root]".toList]

/-- What is printed when the command line is not understood. -/
def misuse (error : UsageError) : List Text :=
  [usage, block ["check-cmake: error: ".toList ++ error.message]]

/-- What is printed when help is asked for. -/
def help : List Text :=
  [usage ++ block (["", "CMake checker for C and C++ projects.", "", "positional arguments:",
    "  root                  path to the project root (default: .)", "", "options:",
    "  -h, --help            show this help message and exit",
    "  -v, --verbose         enable verbose output",
    "  --version             print the version and exit",
    "  --recurse, --no-recurse",
    "                        recurse into subfolders (default: True)",
    "  --limit LIMIT         maximum errors to emit (default: 0)", ""].map String.toList) ++
    block ["v".toList ++ versionText ++ " - github.com/marzer/check-cmake".toList]]

end Report

end CMakeLint
