import CMakeLint.Fault
import CMakeLint.Text.Case
import CMakeLint.Text.Decimal

/-!
Colours and styles on a terminal: the escape codes that switch them, texts painted with them, and what is left of texts that
are printed elsewhere than on a terminal. There, escape codes are taken out, and commands to the terminal with them; a command
that sets the title of the window cannot be carried out.
-/
namespace CMakeLint

namespace Terminal

/-- The escape character. -/
def escape : Char := '\x1b'

/-- The escape code that sets a display attribute. -/
def code (n : Nat) : Text :=
  escape :: '[' :: (Text.ofNat n ++ ['m'])

/-- Back to default style and colour. -/
def resetAll : Text := code 0

end Terminal

/-- The colours of text. -/
inductive Colour where
  | black | red | green | yellow | blue | magenta | cyan | white | reset
  | lightBlack | lightRed | lightGreen | lightYellow | lightBlue | lightMagenta | lightCyan | lightWhite
  deriving DecidableEq, Repr

namespace Colour

/-- The colours with their names and the attributes that switch to them. -/
def table : List (Colour × String × Nat) :=
  [(black, "BLACK", 30), (red, "RED", 31), (green, "GREEN", 32), (yellow, "YELLOW", 33), (blue, "BLUE", 34),
    (magenta, "MAGENTA", 35), (cyan, "CYAN", 36), (white, "WHITE", 37), (reset, "RESET", 39),
    (lightBlack, "LIGHTBLACK_EX", 90), (lightRed, "LIGHTRED_EX", 91), (lightGreen, "LIGHTGREEN_EX", 92),
    (lightYellow, "LIGHTYELLOW_EX", 93), (lightBlue, "LIGHTBLUE_EX", 94), (lightMagenta, "LIGHTMAGENTA_EX", 95),
    (lightCyan, "LIGHTCYAN_EX", 96), (lightWhite, "LIGHTWHITE_EX", 97)]

/-- The escape code that switches to a colour. -/
def code (colour : Colour) : Text :=
  match table.lookup colour with
  | some (_, n) => Terminal.code n
  | none => []

/-- The colour of a name in upper or lower case. -/
def ofName (name : Text) : Except Fault Colour :=
  let wanted := Text.uppercase name
  match table.find? fun entry => entry.2.1.toList = wanted with
  | some (colour, _) => .ok colour
  | none => .error (.colourUnknown wanted)

end Colour

/-- How bright text is. -/
inductive Brightness where
  | dim | normal | bright
  deriving DecidableEq, Repr

namespace Brightness

/-- The escape code that switches to a brightness. -/
def code : Brightness → Text
  | dim => Terminal.code 2
  | normal => Terminal.code 22
  | bright => Terminal.code 1

/-- Negative levels are dim, positive ones bright. -/
def ofLevel (level : Int) : Brightness :=
  if level < 0 then dim else if level = 0 then normal else bright

end Brightness

namespace Terminal

/-- A text in a colour and a brightness, with everything back to default after it. -/
def paint (brightness : Brightness) (colour : Colour) (t : Text) : Text :=
  colour.code ++ brightness.code ++ t ++ resetAll

/-- A text in the colour used for emphasis. -/
def emphasis (t : Text) : Text :=
  Colour.yellow.code ++ t ++ resetAll

/-! ### Texts without escape codes -/

/-- The length of an escape code after its bracket: digits and semicolons, then a letter, then perhaps a mark that
    ends invisible text. -/
def codeTailLength (t : Text) : Option Nat :=
  let parameters := t.takeWhile fun c => c = ';' || Text.isDigit c
  match t.drop parameters.length with
  | letter :: rest =>
    if ('a' ≤ letter && letter ≤ 'z') || ('A' ≤ letter && letter ≤ 'Z') then
      some (parameters.length + if rest.head? = some '\x02' then 2 else 1)
    else none
  | [] => none

/-- The length of the escape code at the start of a text. -/
def codeLength? : Text → Option Nat
  | '\x1b' :: '[' :: t => (codeTailLength t).map (· + 2)
  | '\x01' :: '\x1b' :: '[' :: t => (codeTailLength t).map (· + 3)
  | _ => none

/-- `plain` after `skip` more characters of a code. -/
def plainFrom : Nat → Text → Text
  | _, [] => []
  | skip + 1, _ :: t => plainFrom skip t
  | 0, c :: t =>
    match codeLength? (c :: t) with
    | some length => plainFrom (length - 1) t
    | none => c :: plainFrom 0 t

/-- A text with its escape codes taken out. -/
def plain (t : Text) : Text :=
  plainFrom 0 t

/-! ### Commands -/

/-- A command to the terminal: where it stands in a text, and its parameters. -/
structure Command where
  start : Nat
  stop : Nat
  parameters : Text
  deriving DecidableEq, Repr

/-- The character that ends a command. -/
def bell : Char := '\x07'

/-- The parameters of a command after its bracket, and the length of both with the bell and perhaps a mark that ends invisible
    text. -/
def commandTail? (t : Text) : Option (Text × Nat) :=
  let parameters := t.takeWhile (· ≠ bell)
  match t.drop parameters.length with
  | [] => none
  | _ :: rest => some (parameters, parameters.length + if rest.head? = some '\x02' then 2 else 1)

/-- The parameters and the length of the command at the start of a text. -/
def command? : Text → Option (Text × Nat)
  | '\x1b' :: ']' :: t => (commandTail? t).map fun (parameters, length) => (parameters, length + 2)
  | '\x01' :: '\x1b' :: ']' :: t => (commandTail? t).map fun (parameters, length) => (parameters, length + 3)
  | _ => none

/-- The commands in a text that stands at an offset, after `skip` more characters of a command. -/
def commandsFrom : (offset skip : Nat) → Text → List Command
  | _, _, [] => []
  | offset, skip + 1, _ :: t => commandsFrom (offset + 1) skip t
  | offset, 0, c :: t =>
    match command? (c :: t) with
    | some (parameters, length) =>
      ⟨offset, offset + length, parameters⟩ :: commandsFrom (offset + 1) (length - 1) t
    | none => commandsFrom (offset + 1) 0 t

/-- The commands in a text. -/
def commands (t : Text) : List Command :=
  commandsFrom 0 0 t

/-- The numbers of commands that set the title. -/
def titleCommands : List Text :=
  ["".toList, "0".toList, "2".toList, "02".toList]

/-- Whether a command sets the title: it has a number and one parameter. -/
def Command.setsTitle (c : Command) : Bool :=
  match Text.fields ';' c.parameters with
  | [number, _] => titleCommands.contains number
  | _ => false

/-- Cuts a command out of a text by its offsets. -/
def Command.cut (t : Text) (c : Command) : Text :=
  t.take c.start ++ t.drop c.stop

/-- A text with commands cut out one after the other, each at the offsets that it had before any was cut out. It is none if one
    sets the title. -/
def withoutCommands? (t : Text) : Option Text :=
  let cs := commands t
  if cs.any Command.setsTitle then none else some (cs.foldl Command.cut t)

/-! ### Printing -/

/-- What is printed for a text, if it can be. -/
def shown? (isTerminal : Bool) (t : Text) : Option Text :=
  if isTerminal then some t else (withoutCommands? t).map plain

/-- What is printed of some texts, and whether all of them could be. -/
structure Printed where
  text : Text
  isComplete : Bool
  deriving DecidableEq, Repr

/-- Prints texts in order up to the first that cannot be. -/
def print (isTerminal : Bool) : List Text → Printed
  | [] => ⟨[], true⟩
  | t :: rest =>
    match shown? isTerminal t with
    | none => ⟨[], false⟩
    | some shown =>
      let after := print isTerminal rest
      ⟨shown ++ after.text, after.isComplete⟩

/-- Prints those of some texts that can be. -/
def printPossible (isTerminal : Bool) (ts : List Text) : Text :=
  (ts.filterMap (shown? isTerminal)).flatten

end Terminal

end CMakeLint
