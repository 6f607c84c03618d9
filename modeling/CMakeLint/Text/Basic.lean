/-!
Texts as sequences of characters: lines and their newlines, blanks at the ends, replacement of a piece of text.
Every position, length and column in this library counts characters.
-/
namespace CMakeLint

/-- A text as its sequence of characters. -/
abbrev Text := List Char

namespace Text

/-! ### Blanks -/

/-- White space of any script. Zero-width spaces and the byte order mark are not blank. -/
def isBlank (c : Char) : Bool :=
  let code := c.toNat
  (0x09 ≤ code && code ≤ 0x0D) || (0x1C ≤ code && code ≤ 0x20) || code == 0x85 || code == 0xA0 || code == 0x1680 ||
    (0x2000 ≤ code && code ≤ 0x200A) || code == 0x2028 || code == 0x2029 || code == 0x202F || code == 0x205F ||
    code == 0x3000

/-- A text without the blanks at its start. -/
def trimStart (t : Text) : Text :=
  t.dropWhile isBlank

/-- A text without the blanks at its end. -/
def trimEnd (t : Text) : Text :=
  (t.reverse.dropWhile isBlank).reverse

/-- A text without the blanks at both ends. -/
def trim (t : Text) : Text :=
  trimEnd (trimStart t)

/-! ### Fields and lines -/

/-- The pieces of a text between the occurrences of a character; there is always one more piece than occurrences. -/
def fields (separator : Char) (t : Text) : List Text :=
  t.foldr (fun c pieces => if c = separator then [] :: pieces else (c :: pieces.headD []) :: pieces.tail) [[]]

/-- The lines of a text, without their newlines. -/
def lines (t : Text) : List Text :=
  fields '\n' t

/-- Texts put together with a separator between them. -/
def join (separator : Text) (pieces : List Text) : Text :=
  separator.intercalate pieces

/-- Lines put together again into one text. -/
def unlines (ls : List Text) : Text :=
  join ['\n'] ls

/-- A carriage return, or one with a newline after it, becomes a newline. -/
def unifyNewlines : Text → Text
  | [] => []
  | c :: t =>
    if c = '\r' then if t.head? = some '\n' then unifyNewlines t else '\n' :: unifyNewlines t
    else c :: unifyNewlines t

/-- Four blanks in place of each tab. -/
def expandTabs (t : Text) : Text :=
  t.flatMap fun c => if c = '\t' then [' ', ' ', ' ', ' '] else [c]

/-! ### Pieces -/

/-- The text from position `start` up to position `stop`, as far as there is any. -/
def slice (t : Text) (start stop : Nat) : Text :=
  (t.drop start).take (stop - start)

/-- What follows the last occurrence of a character, if there is one. -/
def afterLast? (c : Char) (t : Text) : Option Text :=
  if c ∈ t then some (t.reverse.takeWhile (· ≠ c)).reverse else none

/-- What precedes the last occurrence of a character, if there is one. -/
def beforeLast? (c : Char) (t : Text) : Option Text :=
  if c ∈ t then some ((t.reverse.dropWhile (· ≠ c)).drop 1).reverse else none

/-- `replaceAll` after `skip` more characters that belong to an occurrence already replaced. -/
def replaceFrom (old new : Text) : Nat → Text → Text
  | _, [] => []
  | skip + 1, _ :: t => replaceFrom old new skip t
  | 0, c :: t =>
    if old.isPrefixOf (c :: t) then new ++ replaceFrom old new (old.length - 1) t else c :: replaceFrom old new 0 t

/-- `new` in place of every occurrence of the non-empty text `old`, from left to right without overlap. -/
def replaceAll (old new t : Text) : Text :=
  replaceFrom old new 0 t

end Text

end CMakeLint
