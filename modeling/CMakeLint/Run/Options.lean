import CMakeLint.Path
import CMakeLint.Pattern.Match
import CMakeLint.Text.Decimal
import CMakeLint.Text.Quoted

/-!
The command line: options in long and short form, the unique start of a long option in place of the whole, a value for the
limit, and at most one directory. What cannot be understood is told apart by its cause.
-/
namespace CMakeLint

/-- What a run is asked to do. -/
structure Options where
  verbose : Bool
  recurse : Bool
  /-- Asks for the version only. -/
  showVersion : Bool
  /-- Asks for the place of this program only. -/
  showLocation : Bool
  /-- The number of issues after which to stop; not positive if there is no limit. It is missing if the mark that ends options
      was given in place of a number. -/
  limit : Option Int
  root : Path
  deriving DecidableEq, Repr

/-- The options that can be given. -/
inductive Flag where
  | help
  | verbose
  | version
  | recurse
  | noRecurse
  | limit
  | location
  deriving DecidableEq, Repr

/-- Why a command line is not understood. -/
inductive UsageError where
  /-- Arguments that are left over. -/
  | unrecognized (arguments : List Text)
  /-- The limit was given without a value. -/
  | valueMissing
  /-- The value of the limit is not a number. -/
  | valueInvalid (value : Text)
  /-- A start of more than one option. -/
  | ambiguous (argument : Text) (spellings : List Text)
  /-- A value for an option that takes none. -/
  | valueIgnored (flag : Flag) (value : Text)
  deriving DecidableEq, Repr

namespace Flag

/-- The spellings of options. -/
def spellings : List (String × Flag) :=
  [("-h", help), ("--help", help), ("-v", verbose), ("--verbose", verbose), ("--version", version),
    ("--recurse", recurse), ("--no-recurse", noRecurse), ("--limit", limit), ("--where", location)]

/-- The option of a spelling. -/
def ofSpelling? (t : Text) : Option Flag :=
  (spellings.find? fun entry => entry.1.toList = t).map (·.2)

/-- The spellings of an option as messages show them. -/
def title : Flag → String
  | help => "-h/--help"
  | verbose => "-v/--verbose"
  | version => "--version"
  | recurse => "--recurse/--no-recurse"
  | noRecurse => "--recurse/--no-recurse"
  | limit => "--limit"
  | location => "--where"

end Flag

namespace UsageError

/-- An error as messages show it. -/
def message : UsageError → Text
  | unrecognized arguments => "unrecognized arguments: ".toList ++ Text.join [' '] arguments
  | valueMissing => "argument --limit: expected one argument".toList
  | valueInvalid value => "argument --limit: invalid int value: ".toList ++ Text.quoted value
  | ambiguous argument spellings =>
    "ambiguous option: ".toList ++ argument ++ " could match ".toList ++ Text.join [',', ' '] spellings
  | valueIgnored flag value =>
    "argument ".toList ++ flag.title.toList ++ ": ignored explicit argument ".toList ++ Text.quoted value

end UsageError

namespace Options

/-- What a run does by default. -/
def default : Options :=
  ⟨false, true, false, false, some 0, Path.ofText []⟩

/-! ### Kinds of arguments -/

/-- The mark after which nothing is an option. -/
def markText : Text := ['-', '-']

/-- An argument by its kind. -/
inductive Argument where
  /-- An option, whether it was given in short form, and the value that was given with it. -/
  | option (flag : Flag) (isShort : Bool) (value : Option Text)
  /-- What looks like an option and is none. -/
  | unknown (t : Text)
  /-- What is no option. -/
  | value (t : Text)
  /-- The mark after which nothing is an option. -/
  | mark
  deriving DecidableEq, Repr

/-- The text before the first equals sign and the text after it, if there is one. -/
def splitValue (t : Text) : Text × Option Text :=
  match t.dropWhile (· ≠ '=') with
  | [] => (t, none)
  | _ :: value => (t.takeWhile (· ≠ '='), some value)

/-- The options that an argument may stand for by its start, with their spellings. -/
def candidates (t : Text) : List (Text × Argument) :=
  match t with
  | '-' :: '-' :: _ =>
    let (start, value) := splitValue t
    Flag.spellings.filterMap fun (spelling, flag) =>
      if start.isPrefixOf spelling.toList then some (spelling.toList, .option flag false value) else none
  | _ =>
    Flag.spellings.filterMap fun (spelling, flag) =>
      if spelling.toList = t.take 2 then some (spelling.toList, .option flag true (some (t.drop 2)))
      else if t.isPrefixOf spelling.toList then some (spelling.toList, .option flag false none)
      else none

/-- Negative numbers: a minus sign and digits, perhaps with a point before the last of them. -/
def negativeNumber : Pattern :=
  let digit : Pattern.CharClass := ⟨false, [.kind .digit]⟩
  .alt
    (.sequence [.one (.char '-'), .many digit .plus, .anchor .textEnd])
    (.sequence [.one (.char '-'), .many digit .star, .one (.char '.'), .many digit .plus, .anchor .textEnd])

/-- Whether an argument looks like a negative number. -/
def isNegativeNumber (t : Text) : Bool :=
  (negativeNumber.matchAt false (.atStart t) fun _ => true).isSome

/-- Whether a spelling is a short one. -/
def isShortSpelling (t : Text) : Bool :=
  t[1]? ≠ some '-'

/-- An argument that is not the spelling of an option. -/
def classifyOther (t : Text) : Except UsageError Argument :=
  match candidates t with
  | [(_, argument)] => .ok argument
  | [] => .ok (if isNegativeNumber t || t.contains ' ' then .value t else .unknown t)
  | several => .error (.ambiguous t (several.map (·.1)))

/-- The kind of an argument before the mark. -/
def classify (t : Text) : Except UsageError Argument :=
  if t.head? ≠ some '-' then .ok (.value t)
  else match Flag.ofSpelling? t with
    | some flag => .ok (.option flag (isShortSpelling t) none)
    | none =>
      if t.length = 1 then .ok (.value t)
      else match splitValue t with
        | (spelling, some value) =>
          match Flag.ofSpelling? spelling with
          | some flag => .ok (.option flag (isShortSpelling spelling) (some value))
          | none => classifyOther t
        | _ => classifyOther t

/-- The kinds of all arguments. -/
def classifyAll : List Text → Except UsageError (List Argument)
  | [] => .ok []
  | t :: rest =>
    if t = markText then .ok (.mark :: rest.map .value)
    else do
      let argument ← classify t
      let arguments ← classifyAll rest
      return argument :: arguments

/-! ### Reading arguments -/

/-- Why options are not all there is to know: help was asked for, or the command line is not understood. -/
inductive Stop where
  | help
  | misuse (error : UsageError)
  deriving DecidableEq, Repr

/-- What has been read: the options, whether a directory was among them, and what is left over. -/
structure Reading where
  options : Options
  hasRoot : Bool
  extra : List Text
  deriving Repr

namespace Reading

/-- Takes an option without a value. -/
def take (r : Reading) : Flag → Except Stop Reading
  | .help => .error .help
  | .verbose => .ok { r with options.verbose := true }
  | .version => .ok { r with options.showVersion := true }
  | .recurse => .ok { r with options.recurse := true }
  | .noRecurse => .ok { r with options.recurse := false }
  | .limit => .error (.misuse .valueMissing)
  | .location => .ok { r with options.showLocation := true }

/-- Takes a value of the limit. -/
def takeLimit (r : Reading) (value : Text) : Except Stop Reading :=
  match Text.toInt? value with
  | some n => .ok { r with options.limit := some n }
  | none => .error (.misuse (.valueInvalid value))

/-- Takes what is no option: the directory, unless there is one already. -/
def takeValue (r : Reading) (t : Text) : Reading :=
  if r.hasRoot then { r with extra := r.extra ++ [t] }
  else { r with options.root := Path.ofText t, hasRoot := true }

/-- Leaves an argument over. -/
def leave (r : Reading) (t : Text) : Reading :=
  { r with extra := r.extra ++ [t] }

end Reading

/-- The options in letters after a short option, that option first. -/
def cluster (flag : Flag) : Text → Except Stop (List Flag)
  | [] => .error (.misuse (.valueIgnored flag []))
  | c :: rest =>
    match Flag.ofSpelling? ['-', c] with
    | none => .error (.misuse (.valueIgnored flag (c :: rest)))
    | some next => if rest.isEmpty then .ok [flag, next] else do
      let flags ← cluster next rest
      return flag :: flags

/-- Takes an option that was given with a value. -/
def takeWithValue (r : Reading) (flag : Flag) (isShort : Bool) (value : Text) : Except Stop Reading :=
  if flag = .limit then
    if value = markText then .ok { r with options.limit := none } else r.takeLimit value
  else if isShort then do
    let flags ← cluster flag value
    flags.foldlM Reading.take r
  else .error (.misuse (.valueIgnored flag value))

/-- Reads arguments from left to right. The mark is left over if the directory was taken before it, but not right before it. -/
def readAll : Reading → List Argument → Except Stop Reading
  | r, [] => .ok r
  | r, .option flag isShort (some value) :: rest => do
    let r ← takeWithValue r flag isShort value
    readAll r rest
  | r, .option .limit _ none :: .value t :: rest => do
    let r ← r.takeLimit t
    readAll r rest
  | r, .option flag _ none :: rest => do
    let r ← r.take flag
    readAll r rest
  | r, .unknown t :: rest => readAll (r.leave t) rest
  | r, .value t :: .mark :: rest =>
    readAll (if r.hasRoot then (r.leave t).leave markText else r.takeValue t) rest
  | r, .value t :: rest => readAll (r.takeValue t) rest
  | r, .mark :: rest => readAll (if r.hasRoot then r.leave markText else r) rest

/-- Reads a command line. -/
def ofArguments (arguments : List Text) : Except Stop Options :=
  match classifyAll arguments with
  | .error error => .error (.misuse error)
  | .ok kinds => do
    let r ← readAll ⟨default, false, []⟩ kinds
    if r.extra.isEmpty then return r.options else .error (.misuse (.unrecognized r.extra))

end Options

end CMakeLint
