import CMakeLint.Pattern.Basic

/-!
Patterns of command calls in CMake scripts: the name of a command as a whole word, blanks, and arguments in brackets. A call
ends at the first closing bracket.
-/
namespace CMakeLint.Pattern

/-- A given character. -/
def char (c : Char) : Pattern :=
  one (.char c)

/-- A given word. -/
def word (w : String) : Pattern :=
  literal w.toList

/-- One of some words. -/
def words (ws : List String) : Pattern :=
  choice (ws.map word)

/-- The edge of a word. -/
def edge : Pattern :=
  anchor .wordEdge

/-- Any number of blanks. -/
def blanks : Pattern :=
  many .blank .star

/-- At least one blank. -/
def someBlanks : Pattern :=
  many .blank .plus

/-- As few characters as possible, none of which closes a bracket. -/
def arguments : Pattern :=
  many (.except ')') .lazyStar

/-- A call of a command. -/
def call (name args : Pattern) : Pattern :=
  sequence [edge, name, blanks, char '(', args, char ')']

/-- A whole word, remembered as group 1. -/
def wholeWord (ws : List String) : Pattern :=
  sequence [edge, group 1 (words ws), edge]

/-- A call of one of some commands with any arguments; group 1 is the name. -/
def callNamed (names : List String) : Pattern :=
  call (group 1 (words names)) arguments

/-- A call of a command with any arguments; group 1 are the arguments. -/
def callWithArguments (name : String) : Pattern :=
  call (word name) (group 1 arguments)

/-- A call of one of some commands with any arguments; group 1 is the name and group 2 are the arguments. -/
def callNamedWithArguments (names : List String) : Pattern :=
  call (group 1 (words names)) (group 2 arguments)

/-- A call of a command with a whole word among its arguments; group 1 is that word. -/
def callContaining (name : String) (ws : List String) : Pattern :=
  call (word name) (sequence [arguments, wholeWord ws, arguments])

/-- One of some whole words, anywhere. -/
def anyWord (ws : List String) : Pattern :=
  sequence [edge, words ws, edge]

/-- Letters, digits and underscores of ASCII. -/
def nameMembers : List Member :=
  [.range 'a' 'z', .range 'A' 'Z', .range '0' '9', .char '_']

/-- Names of targets and variables. -/
def targetName : Pattern :=
  many ⟨false, nameMembers ++ [.char '-']⟩ .plus

/-- Arguments of which the second one is the SYSTEM keyword. The first is a name, a variable or a string. -/
def systemSecond : Pattern :=
  sequence [anchor .textStart, blanks,
    choice [targetName, sequence [word "$\x7b", targetName, char '\x7d'],
      sequence [char '\x22', many (.except '\x22') .lazyStar, char '\x22']],
    someBlanks, word "SYSTEM", someBlanks, many .any .lazyStar, anchor .textEnd]

/-- A call for include directories with the SYSTEM keyword; group 1 are the arguments and group 2 is the keyword. -/
def includeDirectoriesWithSystem : Pattern :=
  call (word "target_include_directories")
    (group 1 (sequence [arguments, edge, group 2 (word "SYSTEM"), edge, arguments]))

/-- A call of `set` whose first argument is a given variable; group 1 is that variable. -/
def setVariable (name : Pattern) : Pattern :=
  call (word "set") (sequence [blanks, name, edge, arguments])

/-- An external project with a blank inside of a variable definition; group 1 is the start of that definition. -/
def externalProjectDefinition : Pattern :=
  call (word "ExternalProject_Add")
    (sequence [arguments, someBlanks, word "CMAKE_ARGS", someBlanks, arguments,
      group 1 (sequence [word "-D", someBlanks, many ⟨false, nameMembers⟩ .plus, char '=']), arguments])

end CMakeLint.Pattern
