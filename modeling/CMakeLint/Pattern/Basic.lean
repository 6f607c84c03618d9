import CMakeLint.Text.Case
import CMakeLint.Text.Digit
import CMakeLint.Text.Word

/-!
Patterns of text: classes of characters, anchors, sequence, choice, repetition and numbered groups.
-/
namespace CMakeLint

namespace Pattern

/-- The kinds of characters that have a name. -/
inductive Kind where
  | blank
  | word
  | digit
  deriving DecidableEq, Repr

/-- Whether a character is of a kind. -/
def Kind.accepts : Kind → Char → Bool
  | blank, c => Text.isBlank c
  | word, c => Text.isWord c
  | digit, c => Text.isDigit c

/-- A member of a class: one character, the characters from one to another, or those of a kind or of no such kind. -/
inductive Member where
  | char (c : Char)
  | range (first last : Char)
  | kind (k : Kind)
  | otherThan (k : Kind)
  deriving DecidableEq, Repr

/-- A class of characters: those of its members, or all others if it is negated. -/
structure CharClass where
  negated : Bool
  members : List Member
  deriving DecidableEq, Repr

namespace Member

/-- Whether a character belongs to a member. -/
def accepts (c : Char) : Member → Bool
  | char d => c == d
  | range first last => first ≤ c && c ≤ last
  | kind k => k.accepts c
  | otherThan k => !k.accepts c

/-- Whether some upper-case or lower-case form of a lower-case character lies in a range. -/
def rangeHasCaseOf (first last c : Char) : Bool :=
  (first ≤ c && c ≤ last) ||
    (Text.lowerRuns.any fun run =>
      let code := (c.toNat : Int) - run.shift
      0 ≤ code && run.covers code.toNat && first.toNat ≤ code.toNat && code.toNat ≤ last.toNat) ||
    ('a' ≤ c && c ≤ 'z' && first.toNat + 0x20 ≤ c.toNat && c.toNat ≤ last.toNat + 0x20) ||
    (c == 'i' && first.toNat ≤ 0x130 && 0x130 ≤ last.toNat)

/-- The last character of the basic plane. -/
def basicLast : Char := '\uffff'

/-- Whether a lower-case character belongs to a range that goes beyond the basic plane, itself or in upper case. -/
def farRangeAccepts (first last c : Char) : Bool :=
  basicLast < last &&
    ((first ≤ c && c ≤ last) || (first ≤ Text.upperChar c && Text.upperChar c ≤ last))

/-- Whether a character belongs to a member of a class when upper and lower case are the same. The character is taken in lower
    case. A member in the basic plane is compared without regard to case; beyond it, one character is compared as it is
    written, and a range as it is written with both cases of the character. -/
def acceptsAnyCase (c : Char) : Member → Bool
  | char d => if d ≤ basicLast then Text.sameIgnoringCase d c else Text.lowerChar c == d
  | range first last =>
    (Text.caseTwins (Text.lowerChar c)).any (rangeHasCaseOf first (if last ≤ basicLast then last else basicLast)) ||
      farRangeAccepts first last (Text.lowerChar c)
  | kind k => k.accepts c
  | otherThan k => !k.accepts c

end Member

namespace CharClass

/-- The class of one character. -/
def char (c : Char) : CharClass := ⟨false, [.char c]⟩

/-- The class of all characters but one. -/
def except (c : Char) : CharClass := ⟨true, [.char c]⟩

/-- The class of all characters. -/
def any : CharClass := ⟨true, []⟩

/-- The class of blanks. -/
def blank : CharClass := ⟨false, [.kind .blank]⟩

/-- Whether a character is one of the members of a class. A class of one character is that character. -/
def contains (ignoreCase : Bool) (members : List Member) (c : Char) : Bool :=
  match ignoreCase, members with
  | false, members => members.any (Member.accepts c)
  | true, [.char d] => Text.sameIgnoringCase d c
  | true, members => members.any (Member.acceptsAnyCase c)

/-- Whether a character belongs to a class. -/
def accepts (ignoreCase : Bool) (cls : CharClass) (c : Char) : Bool :=
  cls.negated != contains ignoreCase cls.members c

end CharClass

/-- A condition on a place between two characters. -/
inductive Anchor where
  /-- The start of the text. -/
  | textStart
  /-- The end of the text, or the place before a newline that ends it. -/
  | textEnd
  /-- Between a word character and something else. -/
  | wordEdge
  /-- Not between a word character and something else; no such place is in an empty text. -/
  | noWordEdge
  deriving DecidableEq, Repr

/-- How often something repeats, and whether long repetitions are tried first. -/
structure Repetition where
  least : Nat
  most : Option Nat
  greedy : Bool
  deriving DecidableEq, Repr

end Pattern

open Pattern (CharClass Anchor Repetition) in
/-- A pattern of text. -/
inductive Pattern where
  /-- The empty text. -/
  | empty
  /-- One character of a class. -/
  | one (cls : CharClass)
  /-- Repeated characters of a class. -/
  | many (cls : CharClass) (repetition : Repetition)
  /-- A place that meets a condition. -/
  | anchor (condition : Anchor)
  /-- One pattern and then another one. -/
  | seq (first second : Pattern)
  /-- One pattern, or else another one. -/
  | alt (first second : Pattern)
  /-- A pattern whose place in the text is remembered under a number. -/
  | group (number : Nat) (body : Pattern)
  /-- A repeated pattern. -/
  | times (body : Pattern) (repetition : Repetition)
  deriving DecidableEq, Repr

namespace Pattern

/-- Any number of times, long repetitions first. -/
def Repetition.star : Repetition := ⟨0, none, true⟩

/-- At least once, long repetitions first. -/
def Repetition.plus : Repetition := ⟨1, none, true⟩

/-- Any number of times, short repetitions first. -/
def Repetition.lazyStar : Repetition := ⟨0, none, false⟩

/-- Patterns one after the other. -/
def sequence : List Pattern → Pattern
  | [] => empty
  | [p] => p
  | p :: ps => seq p (sequence ps)

/-- The first of some patterns that leads to a match. -/
def choice : List Pattern → Pattern
  | [] => empty
  | [p] => p
  | p :: ps => alt p (choice ps)

/-- The characters of a text, one after the other. -/
def literal (t : Text) : Pattern :=
  sequence (t.map fun c => one (.char c))

/-- The number of groups of a pattern, which is the greatest number of one. -/
def groupCount : Pattern → Nat
  | seq p q => max p.groupCount q.groupCount
  | alt p q => max p.groupCount q.groupCount
  | group n p => max n p.groupCount
  | times p _ => p.groupCount
  | _ => 0

end Pattern

end CMakeLint
