import CMakeLint.Pattern.Basic
import CMakeLint.Position
import CMakeLint.Text.Decimal

/-!
The written form of patterns: literal characters, a dot for any character, classes in square brackets, backslash escapes,
anchors, groups in round brackets, a bar between choices, and repetition counts. A mistake is reported where it is found when
the pattern is read from left to right; a backslash at the very end is found with the character before it. These forms are all
that is read. What else patterns are known to be written with counts as a mistake: letters for the ends of the text after a
backslash, a plus after a repetition count to keep it from giving characters back, looking around, flags inside of a pattern, and
references to groups.
-/
namespace CMakeLint.Pattern

/-- A mistake and how many characters of the pattern are left from it on. -/
structure Complaint where
  mistake : Mistake
  left : Nat
  deriving DecidableEq, Repr

/-- The text after something that was read, unless it is a backslash at the end. -/
def goOn (rest : Text) : Except Complaint Text :=
  if rest = ['\\'] then .error ⟨.escapeAtEnd, 1⟩ else .ok rest

/-! ### Characters and classes -/

/-- A kind of characters by the letter that stands for it after a backslash. -/
def escapedKind? : Char → Option Member
  | 's' => some (.kind .blank)
  | 'S' => some (.otherThan .blank)
  | 'w' => some (.kind .word)
  | 'W' => some (.otherThan .word)
  | 'd' => some (.kind .digit)
  | 'D' => some (.otherThan .digit)
  | _ => none

/-- A character by what stands for it after a backslash. Letters and digits stand for no character but the controls. -/
def escapedChar? : Char → Option Char
  | 'n' => some '\n'
  | 't' => some '\t'
  | 'r' => some '\r'
  | 'f' => some '\x0c'
  | 'v' => some '\x0b'
  | 'a' => some '\x07'
  | c => if Text.isAsciiAlphanumeric c then none else some c

/-- What stands after a backslash outside of a class. -/
def escaped? (c : Char) : Option Pattern :=
  if c = 'b' then some (.anchor .wordEdge)
  else if c = 'B' then some (.anchor .noWordEdge)
  else match escapedKind? c with
    | some member => some (.one ⟨false, [member]⟩)
    | none => (escapedChar? c).map fun c => .one (.char c)

/-- What stands after a backslash in a class. -/
def escapedMember? (c : Char) : Option Member :=
  if c = 'b' then some (.char '\x08')
  else match escapedKind? c with
    | some member => some member
    | none => (escapedChar? c).map .char

/-- A member of a class as it is written, and the text after it. -/
structure Written where
  member : Member
  text : Text
  rest : Text

/-- The first member of a class; `c` and `t` are the text that it starts. -/
def classMember (c : Char) (t : Text) : Except Complaint Written :=
  match c, t with
  | '\\', d :: t => do
    let rest ← goOn t
    match escapedMember? d with
    | some member => return ⟨member, ['\\', d], rest⟩
    | none => .error ⟨.badEscape ['\\', d], t.length + 2⟩
  | c, t => do
    let rest ← goOn t
    return ⟨.char c, [c], rest⟩

/-- The range between two members of a class, if both are characters in order. -/
def range? : Member → Member → Option Member
  | .char first, .char last => if first ≤ last then some (.range first last) else none
  | _, _ => none

/-- The members of a class up to its closing bracket, and the text after that; a bracket right at the start is a member.
    `left` characters are left from the opening bracket on, and `fuel` bounds the number of members. -/
def classMembers (left : Nat) : (fuel : Nat) → (isFirst : Bool) → Text → Except Complaint (List Member × Text)
  | 0, _, _ => .error ⟨.classUnterminated, left⟩
  | _, _, [] => .error ⟨.classUnterminated, left⟩
  | fuel + 1, isFirst, c :: t =>
    if c = ']' ∧ !isFirst then do
      let rest ← goOn t
      return ([], rest)
    else do
      let first ← classMember c t
      match first.rest with
      | '-' :: rest =>
        match ← goOn rest with
        | [] => .error ⟨.classUnterminated, left⟩
        | ']' :: rest => do
          let rest ← goOn rest
          return ([first.member, .char '-'], rest)
        | d :: u => do
          let last ← classMember d u
          match range? first.member last.member with
          | none => .error ⟨.badRange first.text last.text, t.length + 1⟩
          | some range =>
            let (members, rest) ← classMembers left fuel false last.rest
            return (range :: members, rest)
      | rest =>
        let (members, rest) ← classMembers left fuel false rest
        return (first.member :: members, rest)

/-- A class after its opening bracket, and the text after it. -/
def charClass (t : Text) : Except Complaint (CharClass × Text) := do
  let left := t.length + 1
  match t with
  | '^' :: t =>
    let t ← goOn t
    let (members, rest) ← classMembers left (t.length + 1) true t
    return (⟨true, members.eraseDups⟩, rest)
  | t =>
    let (members, rest) ← classMembers left (t.length + 1) true t
    return (⟨false, members.eraseDups⟩, rest)

/-! ### Repetitions -/

/-- The digits at the start of a text, and the text after them. -/
def leadingDigits (t : Text) : Text × Text :=
  let digits := t.takeWhile fun c => '0' ≤ c && c ≤ '9'
  (digits, t.drop digits.length)

/-- The bounds of a repetition after their opening brace, and the text after the closing one. -/
def bounds? (t : Text) : Option (Text × Text × Text) :=
  match leadingDigits t with
  | (least, ',' :: t) =>
    match leadingDigits t with
    | (most, '\x7d' :: t) => some (least, most, t)
    | _ => none
  | ([], _) => none
  | (n, '\x7d' :: t) => some (n, n, t)
  | _ => none

/-- Numbers from here on are too large for a repetition. -/
def boundLimit : Nat := 4294967295

/-- A bound of a repetition; none if it is not given. -/
def bound (digits : Text) : Except Mistake (Option Nat) :=
  if digits.isEmpty then .ok none
  else match Text.toNat? digits with
    | some n => if n < boundLimit then .ok (some n) else .error .boundTooLarge
    | none => .error .boundTooLarge

/-- A repetition by its bounds, long repetitions first. -/
def repetition (least most : Text) : Except Mistake Repetition := do
  let least ← bound least
  let most ← bound most
  if most.any (· < least.getD 0) then .error .boundsReversed else return ⟨least.getD 0, most, true⟩

/-- A repetition, and the text after a question mark that asks for short ones first. -/
def preference (r : Repetition) (t : Text) : Except Complaint (Repetition × Text) :=
  match t with
  | '?' :: t => do
    let rest ← goOn t
    return ({ r with greedy := false }, rest)
  | t => .ok (r, t)

/-! ### Groups -/

/-- What a part of a sequence may be followed by: an anchor cannot be repeated, a repetition not again. -/
inductive Role where
  | whole
  | anchor
  | repeated
  deriving DecidableEq, Repr

/-- The parts of a sequence. -/
def parts : Pattern → List Pattern
  | empty => []
  | seq p q => p.parts ++ q.parts
  | p => [p]

/-- Whether a part is a character or an anchor, so that equal parts match alike. -/
def isPlain : Pattern → Bool
  | one _ => true
  | anchor _ => true
  | _ => false

/-- The members of a class, if a sequence is one character of a class that is not negated. -/
def soleMembers? : List Pattern → Option (List Member)
  | [one ⟨false, members⟩] => some members
  | _ => none

/-- Choices between sequences that have no start in common. Choices between characters are a class. -/
def chooseParts (choices : List (List Pattern)) : List Pattern :=
  match choices.mapM soleMembers? with
  | some members => [one ⟨false, members.flatten.eraseDups⟩]
  | none => [choice (choices.map sequence)]

/-- Choices between sequences: the parts that all of them start with, and then the choice between what follows. -/
def chooseFrom : List Pattern → List (List Pattern) → List Pattern
  | first, [] => first
  | [], others => chooseParts ([] :: others)
  | p :: first, others =>
    if p.isPlain && others.all (·.head? = some p) then p :: chooseFrom first (others.map List.tail)
    else chooseParts ((p :: first) :: others)

/-- An open group: its number if it has one, how many characters are left from its bracket on, the choices before the last bar,
    and the parts after it, the last one first. -/
structure Level where
  number : Option Nat
  left : Nat
  choices : List (List Pattern)
  parts : List (Pattern × Role)
  deriving Repr

namespace Level

/-- A group that has just been opened. -/
def opened (number : Option Nat) (left : Nat) : Level :=
  ⟨number, left, [], []⟩

/-- The parts of the choice after the last bar. -/
def lastChoice (level : Level) : List Pattern :=
  level.parts.reverse.flatMap fun part => part.1.parts

/-- The pattern of a group. -/
def toPattern (level : Level) : Pattern :=
  let body := match (level.lastChoice :: level.choices).reverse with
    | [] => empty
    | first :: others => sequence (chooseFrom first others)
  match level.number with
  | some n => .group n body
  | none => body

/-- A group with one more part. -/
def push (level : Level) (part : Pattern) (role : Role) : Level :=
  { level with parts := (part, role) :: level.parts }

/-- A group with a new choice. -/
def bar (level : Level) : Level :=
  { level with choices := level.lastChoice :: level.choices, parts := [] }

/-- Why the last part of a group cannot be repeated, if so. -/
def repeatMistake? (level : Level) : Option Mistake :=
  match level.parts with
  | [] => some .nothingToRepeat
  | (_, .anchor) :: _ => some .nothingToRepeat
  | (_, .repeated) :: _ => some .multipleRepeat
  | (_, .whole) :: _ => none

/-- A group whose last part is repeated. -/
def repeatLast (level : Level) (r : Repetition) : Level :=
  match level.parts with
  | (.one cls, _) :: parts => { level with parts := (.many cls r, .repeated) :: parts }
  | (part, _) :: parts => { level with parts := (.times part r, .repeated) :: parts }
  | [] => level

/-- Repeats the last part of a group. `left` characters are left from the repetition on, and `rest` after its bounds. -/
def repeated (level : Level) (r : Repetition) (left : Nat) (rest : Text) : Except Complaint (Level × Text) :=
  match level.repeatMistake? with
  | some mistake => .error ⟨mistake, left⟩
  | none => do
    let (r, rest) ← preference r rest
    return (level.repeatLast r, rest)

/-- A group with one more part, which the text after its first character `c` goes on with, and the text after that part. -/
def pushNext (level : Level) (c : Char) (t : Text) : Except Complaint (Level × Text) :=
  match c, t with
  | '\\', d :: t => do
    let rest ← goOn t
    match escaped? d with
    | some (.anchor a) => return (level.push (.anchor a) .anchor, rest)
    | some part => return (level.push part .whole, rest)
    | none => .error ⟨.badEscape ['\\', d], t.length + 2⟩
  | c, t => do
    let rest ← goOn t
    match c with
    | '.' => return (level.push (.one .any) .whole, rest)
    | '^' => return (level.push (.anchor .textStart) .anchor, rest)
    | '$' => return (level.push (.anchor .textEnd) .anchor, rest)
    | '[' =>
      let (cls, rest) ← charClass rest
      return (level.push (.one cls) .whole, rest)
    | '*' => level.repeated .star (t.length + 1) rest
    | '+' => level.repeated .plus (t.length + 1) rest
    | '?' => level.repeated ⟨0, some 1, true⟩ (t.length + 1) rest
    | '\x7b' =>
      match bounds? rest with
      | none => return (level.push (.one (.char c)) .whole, rest)
      | some (least, most, rest) =>
        let rest ← goOn rest
        match repetition least most with
        | .ok r => level.repeated r (t.length + 1) rest
        | .error mistake => .error ⟨mistake, t.length⟩
    | c => return (level.push (.one (.char c)) .whole, rest)

end Level

/-- The kind of a group after its opening bracket: whether it is numbered, and the text after it. -/
def groupKind (t : Text) : Except Complaint (Bool × Text) :=
  match t with
  | '?' :: t => do
    match ← goOn t with
    | [] => .error ⟨.groupCutOff, 0⟩
    | ':' :: t => do
      let rest ← goOn t
      return (false, rest)
    | '\\' :: c :: u => do
      let _ ← goOn u
      .error ⟨.unknownGroup ['\\', c], t.length + 1⟩
    | c :: u => do
      let _ ← goOn u
      .error ⟨.unknownGroup [c], t.length + 1⟩
  | t => .ok (true, t)

/-- Reads a text inside of open groups, the innermost first; `opened` numbered groups were opened before, and `fuel` bounds
    the characters that are read. -/
def assemble : (fuel : Nat) → (opened : Nat) → Level → List Level → Text → Except Complaint Pattern
  | _, _, level, [], [] => .ok level.toPattern
  | _, _, level, _ :: _, [] => .error ⟨.groupUnterminated, level.left⟩
  | 0, _, level, _, _ :: _ => .error ⟨.groupUnterminated, level.left⟩
  | fuel + 1, opened, level, outers, c :: t =>
    match c, outers with
    | '|', _ => do
      let rest ← goOn t
      assemble fuel opened level.bar outers rest
    | ')', [] => .error ⟨.unbalanced, t.length + 1⟩
    | ')', outer :: outers => do
      let rest ← goOn t
      assemble fuel opened (outer.push level.toPattern .whole) outers rest
    | '(', _ => do
      let rest ← goOn t
      match ← groupKind rest with
      | (true, rest) =>
        assemble fuel (opened + 1) (.opened (some (opened + 1)) (t.length + 1)) (level :: outers) rest
      | (false, rest) => assemble fuel opened (.opened none (t.length + 1)) (level :: outers) rest
    | c, _ => do
      let (level, rest) ← level.pushNext c t
      assemble fuel opened level outers rest

/-- Reads a written pattern. -/
def ofText (t : Text) : Except Fault Pattern :=
  match (goOn t).bind (assemble t.length 0 (.opened none 0) []) with
  | .ok p => .ok p
  | .error complaint => .error (.patternMalformed t complaint.mistake (t.length - complaint.left))

/-- What is said about a mistake at a position of a pattern: the position, and its line and column if the pattern has lines. -/
def Mistake.message (mistake : Mistake) (pattern : Text) (position : Nat) : Text :=
  let place := Position.ofOffset pattern position
  mistake.text ++ " at position ".toList ++ Text.ofNat position ++
    if '\n' ∈ pattern then
      " (line ".toList ++ Text.ofNat place.line ++ ", column ".toList ++ Text.ofNat place.column ++ [')']
    else []

end CMakeLint.Pattern
