import CMakeLint.Pattern.Basic

/-!
Matching by backtracking. The ways in which a pattern can match are tried in a fixed order: the first choice before the
second, long repetitions before short ones if the repetition is greedy, and the other way round if it is not. A match is the
first way that also lets the rest of the pattern match.
-/
namespace CMakeLint

namespace Pattern

/-- A place in a text: the character before it, the text after it, and how many characters are before it. -/
structure Cursor where
  before : Option Char
  rest : Text
  position : Nat
  deriving DecidableEq, Repr

/-- A match under way: where it stands, and the groups closed so far with their starts and ends, the last one first. -/
structure Attempt where
  cursor : Cursor
  captures : List (Nat × Nat × Nat)
  deriving DecidableEq, Repr

/-- A match: its start, its end, and its groups. -/
structure Match where
  start : Nat
  stop : Nat
  captures : List (Nat × Nat × Nat)
  deriving DecidableEq, Repr

/-- The start and the end of a group that took part in a match; group 0 is the match itself. -/
def Match.group? (m : Match) (number : Nat) : Option (Nat × Nat) :=
  if number = 0 then some (m.start, m.stop) else m.captures.lookup number

/-- The text of a group that took part in a match. -/
def Match.text? (m : Match) (t : Text) (number : Nat) : Option Text :=
  (m.group? number).map fun (start, stop) => t.slice start stop

namespace Cursor

/-- The start of a text. -/
def atStart (t : Text) : Cursor :=
  ⟨none, t, 0⟩

/-- Whether the character before a place is a word character. -/
def afterWord (c : Cursor) : Bool :=
  c.before.any Text.isWord

/-- Whether the character after a place is a word character. -/
def beforeWord (c : Cursor) : Bool :=
  c.rest.head?.any Text.isWord

end Cursor

/-- Whether a place meets a condition. -/
def Anchor.holds (c : Cursor) : Anchor → Bool
  | textStart => c.before.isNone
  | textEnd => c.rest.isEmpty || c.rest == ['\n']
  | wordEdge => c.afterWord != c.beforeWord
  | noWordEdge => c.afterWord == c.beforeWord && !(c.before.isNone && c.rest.isEmpty)

/-- The places after no, one, two, ... accepted characters, as far as characters are accepted. -/
def stops (accepts : Char → Bool) : Option Char → Nat → Text → List Cursor
  | before, position, [] => [⟨before, [], position⟩]
  | before, position, c :: rest =>
    ⟨before, c :: rest, position⟩ :: if accepts c then stops accepts (some c) (position + 1) rest else []

/-- The places to which repeated characters of a class lead, in the order in which they are tried. -/
def Repetition.select (r : Repetition) (places : List Cursor) : List Cursor :=
  let allowed := (match r.most with
    | some most => places.take (most + 1)
    | none => places).drop r.least
  if r.greedy then allowed.reverse else allowed

/-- A step of a match: it goes on from an attempt by a continuation, which may refuse. -/
abbrev Step (α : Type) := Attempt → (Attempt → Option α) → Option α

/-- A step `n` times. -/
def required {α : Type} (step : Step α) : Nat → Step α
  | 0, s, next => next s
  | n + 1, s, next => step s fun s' => required step n s' next

/-- A step up to `n` times. Once the step has matched the empty text it is not repeated any more. -/
def optional {α : Type} (step : Step α) (greedy : Bool) : Nat → Step α
  | 0, s, next => next s
  | n + 1, s, next =>
    let more := fun (_ : Unit) => step s fun s' =>
      if s'.cursor.position = s.cursor.position then next s' else optional step greedy n s' next
    if greedy then
      match more () with
      | some result => some result
      | none => next s
    else
      match next s with
      | some result => some result
      | none => more ()

/-- How many more repetitions make sense after the least number of them: each but the last takes a character. -/
def Repetition.extra (r : Repetition) (rest : Text) : Nat :=
  match r.most with
  | some most => min (most - r.least) (rest.length + 1)
  | none => rest.length + 1

/-- Matches a pattern, and then what follows it. -/
def run {α : Type} (ignoreCase : Bool) : Pattern → Step α
  | empty, s, next => next s
  | one cls, s, next =>
    match s.cursor.rest with
    | c :: rest =>
      if cls.accepts ignoreCase c then next { s with cursor := ⟨some c, rest, s.cursor.position + 1⟩ } else none
    | [] => none
  | many cls r, s, next =>
    (r.select (stops (cls.accepts ignoreCase) s.cursor.before s.cursor.position s.cursor.rest)).findSome? fun c =>
      next { s with cursor := c }
  | anchor condition, s, next => if condition.holds s.cursor then next s else none
  | seq p q, s, next => run ignoreCase p s fun s' => run ignoreCase q s' next
  | alt p q, s, next =>
    match run ignoreCase p s next with
    | some result => some result
    | none => run ignoreCase q s next
  | group n p, s, next =>
    run ignoreCase p s fun s' =>
      next { s' with captures := (n, s.cursor.position, s'.cursor.position) :: s'.captures }
  | times p r, s, next =>
    required (fun s next => run ignoreCase p s next) r.least s fun s' =>
      optional (fun s next => run ignoreCase p s next) r.greedy (r.extra s'.cursor.rest) s' next

/-- The match of a pattern at a place whose end is acceptable. -/
def matchAt (ignoreCase : Bool) (p : Pattern) (c : Cursor) (acceptable : Cursor → Bool) : Option Match :=
  p.run ignoreCase ⟨c, []⟩ fun s =>
    if acceptable s.cursor then some ⟨c.position, s.cursor.position, s.captures⟩ else none

/-- The match of a pattern with a whole text. -/
def matchWhole (ignoreCase : Bool) (p : Pattern) (t : Text) : Option Match :=
  p.matchAt ignoreCase (.atStart t) (·.rest.isEmpty)

/-- The first match at or after a place. -/
def searchFrom (ignoreCase : Bool) (p : Pattern) (before : Option Char) (position : Nat) (t : Text) : Option Match :=
  match p.matchAt ignoreCase ⟨before, t, position⟩ (fun _ => true) with
  | some m => some m
  | none =>
    match t with
    | [] => none
    | c :: rest => searchFrom ignoreCase p (some c) (position + 1) rest

/-- The first match of a pattern in a text. -/
def search (ignoreCase : Bool) (p : Pattern) (t : Text) : Option Match :=
  p.searchFrom ignoreCase none 0 t

/-- The matches that start at a place: one, or an empty one and then one that is not empty. -/
def matchesAt (ignoreCase : Bool) (p : Pattern) (c : Cursor) : List Match :=
  match p.matchAt ignoreCase c (fun _ => true) with
  | none => []
  | some m =>
    if m.stop = m.start then
      m :: (p.matchAt ignoreCase c (fun s => s.position ≠ c.position)).toList
    else [m]

/-- How many characters the last of some matches takes. -/
def taken (ms : List Match) : Nat :=
  match ms.getLast? with
  | some m => m.stop - m.start
  | none => 0

/-- The matches at or after a place, except for those that start at the next `skip` places. -/
def findAllFrom (ignoreCase : Bool) (p : Pattern) : Nat → Option Char → Nat → Text → List Match
  | skip + 1, _, position, c :: rest => findAllFrom ignoreCase p skip (some c) (position + 1) rest
  | 0, before, position, c :: rest =>
    match p.matchesAt ignoreCase ⟨before, c :: rest, position⟩ with
    | [] => findAllFrom ignoreCase p 0 (some c) (position + 1) rest
    | m :: ms => m :: ms ++ findAllFrom ignoreCase p (taken (m :: ms) - 1) (some c) (position + 1) rest
  | 0, before, position, [] => p.matchesAt ignoreCase ⟨before, [], position⟩
  | _ + 1, _, _, [] => []

/-- All matches of a pattern in a text, from left to right. The next match starts where the last one ended or later; it is not
    the empty match at the place of an empty match. -/
def findAll (ignoreCase : Bool) (p : Pattern) (t : Text) : List Match :=
  p.findAllFrom ignoreCase 0 none 0 t

end Pattern

end CMakeLint
