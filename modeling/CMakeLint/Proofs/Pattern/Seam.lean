import CMakeLint.Proofs.Pattern.Shape
import Mathlib.Data.List.Basic

/-!
Matches in one text that is followed by another one. A pattern that takes a certain character at most as its last one does not
see what comes after that character (`ends_extend`), and a pattern that asks for nothing but edges of words takes a newline for
the start of the text (`ends_afterNewline`). So if the first text ends with that character and a newline, then the matches in
both are those in the first text and then those in the second one (`findAll_append`).
-/
namespace CMakeLint.Pattern

/-! ### Properties of the form -/

/-- No match takes the character `c`. -/
def avoids (ignoreCase : Bool) (c : Char) : Pattern → Bool
  | one cls => !cls.accepts ignoreCase c
  | many cls _ => !cls.accepts ignoreCase c
  | seq p q => p.avoids ignoreCase c && q.avoids ignoreCase c
  | alt p q => p.avoids ignoreCase c && q.avoids ignoreCase c
  | group _ p => p.avoids ignoreCase c
  | times p _ => p.avoids ignoreCase c
  | _ => true

/-- A match that takes the character `c` ends there. -/
def closesAt (ignoreCase : Bool) (c : Char) : Pattern → Bool
  | many cls _ => !cls.accepts ignoreCase c
  | seq p q => p.avoids ignoreCase c && q.closesAt ignoreCase c
  | alt p q => p.closesAt ignoreCase c && q.closesAt ignoreCase c
  | group _ p => p.closesAt ignoreCase c
  | times p _ => p.avoids ignoreCase c
  | _ => true

/-- The only condition on a place is that it is at the edge of a word. Nothing but characters is repeated, since other
    repetitions are tried the more often the longer the text is. -/
def wordEdgesOnly : Pattern → Bool
  | anchor condition => condition == .wordEdge
  | seq p q => p.wordEdgesOnly && q.wordEdgesOnly
  | alt p q => p.wordEdgesOnly && q.wordEdgesOnly
  | group _ p => p.wordEdgesOnly
  | times _ _ => false
  | _ => true

/-- Matches take characters and begin with no newline, and what they depend on ends with the character `c`. -/
def staysWithin (ignoreCase : Bool) (c : Char) (p : Pattern) : Bool :=
  p.consumes && p.neverOpensWith ignoreCase '\n' && p.closesAt ignoreCase c && p.wordEdgesOnly

variable {ignoreCase : Bool} {t : Text} {c : Char} {n : Nat}

theorem avoids_sound {p : Pattern} {s s' : Attempt} (isIn : s.IsIn t) (member : s' ∈ p.ends ignoreCase s)
    (form : p.avoids ignoreCase c = true) (char : t[n]? = some c) (before : s.cursor.position ≤ n) :
    s'.cursor.position ≤ n := by
  induction p generalizing s s' with
  | empty =>
    rw [List.mem_singleton.mp member]
    exact before
  | anchor condition =>
    rw [ends] at member
    split at member
    · rw [List.mem_singleton.mp member]
      exact before
    · cases member
  | one cls =>
    obtain ⟨moved, _, d, char', accepted⟩ := mem_one isIn member
    by_contra beyond
    have here : s.cursor.position = n := by omega
    rw [here, char] at char'
    cases char'
    simp [avoids, accepted] at form
  | many cls r =>
    obtain ⟨k, _, _, accepted, rfl⟩ := mem_many isIn member
    simp only [Cursor.at_position]
    by_contra beyond
    obtain ⟨d, char', accepted⟩ := accepted (n - s.cursor.position) (by omega)
    have here : s.cursor.position + (n - s.cursor.position) = n := by omega
    rw [here, char] at char'
    cases char'
    simp [avoids, accepted] at form
  | seq p q ihp ihq =>
    obtain ⟨middle, first, second⟩ := List.mem_flatMap.mp member
    obtain ⟨left, right⟩ := Bool.and_eq_true_iff.mp form
    exact ihq (ends_extends isIn first).isIn second right (ihp isIn first left before)
  | alt p q ihp ihq =>
    obtain ⟨left, right⟩ := Bool.and_eq_true_iff.mp form
    rcases List.mem_append.mp member with first | second
    · exact ihp isIn first left before
    · exact ihq isIn second right before
  | group k p ih =>
    obtain ⟨inner, first, rfl⟩ := List.mem_map.mp member
    have within := ih isIn first form before
    exact within
  | times p r ih =>
    have chain := (chain_of_times member).1
    clear member
    induction chain with
    | refl => exact before
    | @tail previous s' earlier last again =>
      exact ih (extends_chain (fun _ _ => ends_extends) isIn earlier).isIn last form again

theorem closesAt_of_avoids {p : Pattern} (form : p.avoids ignoreCase c = true) : p.closesAt ignoreCase c = true := by
  induction p with
  | empty => rfl
  | anchor condition => rfl
  | one cls => rfl
  | many cls r => exact form
  | seq p q ihp ihq =>
    obtain ⟨left, right⟩ := Bool.and_eq_true_iff.mp form
    exact Bool.and_eq_true_iff.mpr ⟨left, ihq right⟩
  | alt p q ihp ihq =>
    obtain ⟨left, right⟩ := Bool.and_eq_true_iff.mp form
    exact Bool.and_eq_true_iff.mpr ⟨ihp left, ihq right⟩
  | group k p ih => exact ih form
  | times p r ih => exact form

theorem closesAt_sound {p : Pattern} {s s' : Attempt} (isIn : s.IsIn t) (member : s' ∈ p.ends ignoreCase s)
    (form : p.closesAt ignoreCase c = true) (char : t[n]? = some c) (before : s.cursor.position ≤ n) :
    s'.cursor.position ≤ n + 1 := by
  induction p generalizing s s' with
  | empty => exact Nat.le_succ_of_le (avoids_sound (c := c) isIn member rfl char before)
  | anchor condition => exact Nat.le_succ_of_le (avoids_sound (c := c) isIn member rfl char before)
  | one cls =>
    have moved := (mem_one isIn member).1
    omega
  | many cls r => exact Nat.le_succ_of_le (avoids_sound isIn member form char before)
  | seq p q ihp ihq =>
    obtain ⟨middle, first, second⟩ := List.mem_flatMap.mp member
    obtain ⟨left, right⟩ := Bool.and_eq_true_iff.mp form
    exact ihq (ends_extends isIn first).isIn second right (avoids_sound isIn first left char before)
  | alt p q ihp ihq =>
    obtain ⟨left, right⟩ := Bool.and_eq_true_iff.mp form
    rcases List.mem_append.mp member with first | second
    · exact ihp isIn first left before
    · exact ihq isIn second right before
  | group k p ih =>
    obtain ⟨inner, first, rfl⟩ := List.mem_map.mp member
    have within := ih isIn first form before
    exact within
  | times p r ih => exact Nat.le_succ_of_le (avoids_sound isIn member form char before)

/-! ### More text behind -/

/-- The same place when more text follows. -/
def Cursor.extend (more : Text) (c : Cursor) : Cursor :=
  { c with rest := c.rest ++ more }

/-- The same attempt when more text follows. -/
def Attempt.extend (more : Text) (s : Attempt) : Attempt :=
  { s with cursor := s.cursor.extend more }

theorem stops_extend {accepts : Char → Bool} (refused : accepts c = false) (more : Text) {rest : Text} (member : c ∈ rest)
    (before : Option Char) (position : Nat) :
    stops accepts before position (rest ++ more) = (stops accepts before position rest).map (Cursor.extend more) := by
  induction rest generalizing before position with
  | nil => cases member
  | cons d rest ih =>
    rw [List.cons_append, stops, stops]
    by_cases accepted : accepts d = true
    · have later : c ∈ rest := by
        rcases List.mem_cons.mp member with rfl | later
        · rw [refused] at accepted
          cases accepted
        · exact later
      rw [if_pos accepted, if_pos accepted, ih later]
      rfl
    · rw [if_neg accepted, if_neg accepted]
      rfl

theorem mem_rest {s : Attempt} (isIn : s.IsIn t) (char : t[n]? = some c) (before : s.cursor.position ≤ n) :
    c ∈ s.cursor.rest := by
  have rest : s.cursor.rest = t.drop s.cursor.position := congrArg Cursor.rest isIn.1
  refine List.mem_iff_getElem?.mpr ⟨n - s.cursor.position, ?_⟩
  rw [rest, List.getElem?_drop, Nat.add_sub_cancel' before, char]

/-- What follows the character that closes a match makes no difference to it. -/
theorem ends_extend {p : Pattern} {s : Attempt} (isIn : s.IsIn t) (closes : p.closesAt ignoreCase c = true)
    (edges : p.wordEdgesOnly = true) (char : t[n]? = some c) (before : s.cursor.position ≤ n) (more : Text) :
    p.ends ignoreCase (s.extend more) = (p.ends ignoreCase s).map (Attempt.extend more) := by
  -- the closing character is still ahead, so there is a next character with or without more text
  have member := mem_rest isIn char before
  obtain ⟨d, rest, split⟩ := List.exists_cons_of_ne_nil (List.ne_nil_of_mem member)
  induction p generalizing s d rest with
  | empty => rfl
  | one cls =>
    have split' : (s.extend more).cursor.rest = d :: (rest ++ more) := by
      rw [Attempt.extend, Cursor.extend, split, List.cons_append]
    rw [ends, ends, split, split']
    by_cases accepted : cls.accepts ignoreCase d = true
    · simp only [if_pos accepted]
      rfl
    · simp only [if_neg accepted]
      rfl
  | many cls r =>
    have refused : cls.accepts ignoreCase c = false := by simpa [closesAt] using closes
    have places : stops (cls.accepts ignoreCase) (s.extend more).cursor.before (s.extend more).cursor.position
        (s.extend more).cursor.rest = _ := stops_extend refused more member s.cursor.before s.cursor.position
    rw [ends, ends, places, select_map, List.map_map, List.map_map]
    rfl
  | anchor condition =>
    obtain rfl : condition = .wordEdge := by simpa [wordEdgesOnly] using edges
    have holds : Anchor.holds (s.extend more).cursor .wordEdge = Anchor.holds s.cursor .wordEdge := by
      simp [Anchor.holds, Cursor.afterWord, Cursor.beforeWord, Attempt.extend, Cursor.extend, split]
    rw [ends, ends, holds]
    split <;> rfl
  | seq p q ihp ihq =>
    obtain ⟨left, right⟩ := Bool.and_eq_true_iff.mp closes
    obtain ⟨left', right'⟩ := Bool.and_eq_true_iff.mp edges
    rw [ends, ends, ihp isIn (closesAt_of_avoids left) left' before member d rest split, List.flatMap_map, List.map_flatMap]
    refine List.flatMap_congr fun middle first => ?_
    have isIn' := (ends_extends isIn first).isIn
    have before' := avoids_sound isIn first left char before
    have member' := mem_rest isIn' char before'
    obtain ⟨d', rest', split'⟩ := List.exists_cons_of_ne_nil (List.ne_nil_of_mem member')
    exact ihq isIn' right right' before' member' d' rest' split'
  | alt p q ihp ihq =>
    obtain ⟨left, right⟩ := Bool.and_eq_true_iff.mp closes
    obtain ⟨left', right'⟩ := Bool.and_eq_true_iff.mp edges
    rw [ends, ends, ihp isIn left left' before member d rest split, ihq isIn right right' before member d rest split,
      List.map_append]
  | group k p ih =>
    rw [ends, ends, ih isIn closes edges before member d rest split, List.map_map, List.map_map]
    rfl
  | times p r ih => cases edges

/-! ### A newline before -/

/-- The same place when the text follows a newline. -/
def Cursor.afterNewline (c : Cursor) : Cursor :=
  { c with before := c.before.or (some '\n') }

/-- The same attempt when the text follows a newline. -/
def Attempt.afterNewline (s : Attempt) : Attempt :=
  { s with cursor := s.cursor.afterNewline }

theorem stops_afterNewline (accepts : Char → Bool) (before : Option Char) (position : Nat) (rest : Text) :
    stops accepts (before.or (some '\n')) position rest =
      (stops accepts before position rest).map Cursor.afterNewline := by
  induction rest generalizing before position with
  | nil => rfl
  | cons d rest ih =>
    rw [stops, stops]
    by_cases accepted : accepts d = true
    · have tail := ih (some d) (position + 1)
      rw [if_pos accepted]
      exact congrArg (List.cons _) tail
    · rw [if_neg accepted]
      rfl

theorem wordEdge_afterNewline (c : Cursor) : Anchor.holds c.afterNewline .wordEdge = Anchor.holds c .wordEdge := by
  have newline : Text.isWord '\n' = false := by decide +kernel
  obtain ⟨before, rest, position⟩ := c
  cases before with
  | none => simp [Anchor.holds, Cursor.afterWord, Cursor.beforeWord, Cursor.afterNewline, newline]
  | some d => rfl

/-- A newline before the text is like no character there. -/
theorem ends_afterNewline {p : Pattern} (edges : p.wordEdgesOnly = true) (s : Attempt) :
    p.ends ignoreCase s.afterNewline = (p.ends ignoreCase s).map Attempt.afterNewline := by
  induction p generalizing s with
  | empty => rfl
  | one cls =>
    have rest : s.afterNewline.cursor.rest = s.cursor.rest := rfl
    rw [ends, ends, rest]
    cases s.cursor.rest with
    | nil => rfl
    | cons d rest =>
      by_cases accepted : cls.accepts ignoreCase d = true
      · simp only [if_pos accepted]
        rfl
      · simp only [if_neg accepted]
        rfl
  | many cls r =>
    have places : stops (cls.accepts ignoreCase) s.afterNewline.cursor.before s.afterNewline.cursor.position
        s.afterNewline.cursor.rest = _ :=
      stops_afterNewline (cls.accepts ignoreCase) s.cursor.before s.cursor.position s.cursor.rest
    rw [ends, ends, places, select_map, List.map_map, List.map_map]
    rfl
  | anchor condition =>
    obtain rfl : condition = .wordEdge := by simpa [wordEdgesOnly] using edges
    have holds : Anchor.holds s.afterNewline.cursor .wordEdge = Anchor.holds s.cursor .wordEdge :=
      wordEdge_afterNewline s.cursor
    rw [ends, ends, holds]
    split <;> rfl
  | seq p q ihp ihq =>
    obtain ⟨left, right⟩ := Bool.and_eq_true_iff.mp edges
    rw [ends, ends, ihp left, List.flatMap_map, List.map_flatMap]
    exact congrArg (fun f => (p.ends ignoreCase s).flatMap f) (funext (ihq right))
  | alt p q ihp ihq =>
    obtain ⟨left, right⟩ := Bool.and_eq_true_iff.mp edges
    rw [ends, ends, ihp left, ihq right, List.map_append]
  | group k p ih =>
    rw [ends, ends, ih edges, List.map_map, List.map_map]
    rfl
  | times p r ih => cases edges

/-! ### Matches at a place -/

/-- The match that ends with an attempt. -/
def Attempt.matchFrom (start : Nat) (s : Attempt) : Match :=
  ⟨start, s.cursor.position, s.captures⟩

theorem isIn_append (v rest : Text) : (⟨⟨v.getLast?, rest, v.length⟩, []⟩ : Attempt).IsIn (v ++ rest) := by
  refine ⟨?_, ?_⟩
  · rw [Cursor.at, List.take_left, List.drop_left]
  · rw [List.length_append]
    exact Nat.le_add_right _ _

/-- At a place there is at most one match of a pattern that takes characters: the first one that is tried. -/
theorem matchesAt_eq {p : Pattern} (form : p.consumes = true) (v rest : Text) :
    p.matchesAt ignoreCase ⟨v.getLast?, rest, v.length⟩ =
      ((p.ends ignoreCase ⟨⟨v.getLast?, rest, v.length⟩, []⟩).head?.map (Attempt.matchFrom v.length)).toList := by
  rw [matchesAt, matchAt, run_eq_findSome]
  cases tried : p.ends ignoreCase ⟨⟨v.getLast?, rest, v.length⟩, []⟩ with
  | nil => rfl
  | cons s others =>
    have moved : v.length < s.cursor.position := consumes_sound (isIn_append v rest) (tried ▸ List.mem_cons_self) form
    simp only [List.findSome?_cons, ↓reduceIte, if_neg (Nat.ne_of_gt moved), List.head?_cons, Option.map_some]
    rfl

theorem getElem?_last {u : Text} (closed : u.getLast? = some c) (v rest : Text) :
    (v ++ (u ++ rest))[v.length + (u.length - 1)]? = some c := by
  obtain ⟨w, rfl⟩ := List.getLast?_eq_some_iff.mp closed
  simp

section

variable {p : Pattern} (form : p.staysWithin ignoreCase c = true)
include form

theorem staysWithin_parts : p.consumes = true ∧ p.neverOpensWith ignoreCase '\n' = true ∧
    p.closesAt ignoreCase c = true ∧ p.wordEdgesOnly = true := by
  simpa only [staysWithin, Bool.and_eq_true, and_assoc] using form

/-- No match begins with a newline or at the end of the text. -/
theorem matchesAt_eq_nil (v : Text) {rest : Text} (stop : ∀ d, rest.head? = some d → d = '\n') :
    p.matchesAt ignoreCase ⟨v.getLast?, rest, v.length⟩ = [] := by
  obtain ⟨consumed, opens, _, _⟩ := staysWithin_parts form
  rw [matchesAt_eq consumed]
  cases tried : p.ends ignoreCase ⟨⟨v.getLast?, rest, v.length⟩, []⟩ with
  | nil => rfl
  | cons s others =>
    have member : s ∈ p.ends ignoreCase ⟨⟨v.getLast?, rest, v.length⟩, []⟩ := tried ▸ List.mem_cons_self
    have moved : v.length < s.cursor.position := consumes_sound (isIn_append v rest) member consumed
    have inside := (ends_extends (isIn_append v rest) member).isIn.2
    have first : (v ++ rest)[v.length]? ≠ some '\n' := neverOpensWith_sound (isIn_append v rest) member opens moved
    cases rest with
    | nil =>
      rw [List.append_nil] at inside
      omega
    | cons d rest =>
      obtain rfl := stop d rfl
      simp at first

variable {u : Text} (closed : u.getLast? = some c)
include closed

/-- A match that begins before the closing character is the same if more text follows. -/
theorem matchesAt_extend (v rest more : Text) : p.matchesAt ignoreCase ⟨v.getLast?, u ++ rest ++ more, v.length⟩ =
    p.matchesAt ignoreCase ⟨v.getLast?, u ++ rest, v.length⟩ := by
  obtain ⟨consumed, _, closes, edges⟩ := staysWithin_parts form
  have more' : p.ends ignoreCase ⟨⟨v.getLast?, u ++ rest ++ more, v.length⟩, []⟩ = _ :=
    ends_extend (isIn_append v (u ++ rest)) closes edges (getElem?_last closed v rest) (Nat.le_add_right _ _) more
  rw [matchesAt_eq consumed, matchesAt_eq consumed, more', List.head?_map, Option.map_map]
  rfl

theorem taken_matchesAt_le (v rest : Text) :
    taken (p.matchesAt ignoreCase ⟨v.getLast?, u ++ rest, v.length⟩) ≤ u.length := by
  obtain ⟨consumed, _, closes, _⟩ := staysWithin_parts form
  rw [matchesAt_eq consumed]
  cases tried : p.ends ignoreCase ⟨⟨v.getLast?, u ++ rest, v.length⟩, []⟩ with
  | nil => exact Nat.zero_le _
  | cons s others =>
    have member : s ∈ p.ends ignoreCase ⟨⟨v.getLast?, u ++ rest, v.length⟩, []⟩ := tried ▸ List.mem_cons_self
    have bound := closesAt_sound (isIn_append v (u ++ rest)) member closes (getElem?_last closed v rest)
      (Nat.le_add_right _ _)
    have positive : 0 < u.length := List.length_pos_iff.mpr (by rintro rfl; cases closed)
    simp only [List.head?_cons, Option.map_some, Option.toList_some, taken, List.getLast?_singleton, Attempt.matchFrom]
    omega

end

/-- The same match counted from `k` characters earlier. -/
def Match.shift (k : Nat) (m : Match) : Match :=
  ⟨m.start + k, m.stop + k, m.captures.map fun capture => (capture.1, capture.2.1 + k, capture.2.2 + k)⟩

theorem Match.shift_zero (m : Match) : m.shift 0 = m := by
  simp [Match.shift]

theorem Match.group_shift (k : Nat) (m : Match) (number : Nat) :
    (m.shift k).group? number = (m.group? number).map fun bounds => (bounds.1 + k, bounds.2 + k) := by
  obtain ⟨start, stop, captures⟩ := m
  rw [Match.group?, Match.group?]
  by_cases whole : number = 0
  · rw [if_pos whole, if_pos whole]
    rfl
  · rw [if_neg whole, if_neg whole]
    simp only [Match.shift]
    induction captures with
    | nil => rfl
    | cons capture captures ih =>
      rw [List.map_cons, List.lookup_cons, List.lookup_cons, ih]
      cases number == capture.1 <;> rfl

theorem taken_shift (k : Nat) (ms : List Match) : taken (ms.map (Match.shift k)) = taken ms := by
  rw [taken, taken, List.getLast?_map]
  cases ms.getLast? with
  | none => rfl
  | some m => exact Nat.add_sub_add_right _ _ _

/-- The matches at a place of a text are the same if a text that ends with a newline comes before it. -/
theorem matchesAt_shift {p : Pattern} (consumed : p.consumes = true) (edges : p.wordEdgesOnly = true) {t : Text}
    (newline : t.getLast? = some '\n') (v rest : Text) :
    p.matchesAt ignoreCase ⟨(t ++ v).getLast?, rest, (t ++ v).length⟩ =
      (p.matchesAt ignoreCase ⟨v.getLast?, rest, v.length⟩).map (Match.shift t.length) := by
  have moved : (⟨⟨(t ++ v).getLast?, rest, (t ++ v).length⟩, []⟩ : Attempt) =
      (⟨⟨v.getLast?, rest, v.length⟩, []⟩ : Attempt).afterNewline.shift t.length := by
    rw [List.getLast?_append, newline, List.length_append, Nat.add_comm]
    rfl
  rw [matchesAt_eq consumed, matchesAt_eq consumed, moved, ends_shift, ends_afterNewline edges, List.map_map, List.head?_map,
    List.length_append, Nat.add_comm]
  cases (p.ends ignoreCase ⟨⟨v.getLast?, rest, v.length⟩, []⟩).head? <;> rfl

/-! ### All matches -/

theorem findAllFrom_cons (p : Pattern) (before : Option Char) (position : Nat) (d : Char) (rest : Text) :
    p.findAllFrom ignoreCase 0 before position (d :: rest) = p.matchesAt ignoreCase ⟨before, d :: rest, position⟩ ++
      p.findAllFrom ignoreCase (taken (p.matchesAt ignoreCase ⟨before, d :: rest, position⟩) - 1) (some d) (position + 1)
        rest := by
  rw [findAllFrom]
  cases p.matchesAt ignoreCase ⟨before, d :: rest, position⟩ <;> rfl

/-- After a text that ends with a newline, matches are found as from the start of the text. -/
theorem findAllFrom_shift {p : Pattern} (consumed : p.consumes = true) (edges : p.wordEdgesOnly = true) {t : Text}
    (newline : t.getLast? = some '\n') (skip : Nat) (v rest : Text) :
    p.findAllFrom ignoreCase skip (t ++ v).getLast? (t ++ v).length rest =
      (p.findAllFrom ignoreCase skip v.getLast? v.length rest).map (Match.shift t.length) := by
  induction rest generalizing skip v with
  | nil =>
    cases skip with
    | zero => exact matchesAt_shift consumed edges newline v []
    | succ skip => rfl
  | cons d rest ih =>
    have next := fun skip => ih skip (v ++ [d])
    simp only [← List.append_assoc, List.getLast?_concat, List.length_append, List.length_singleton] at next
    cases skip with
    | zero =>
      rw [findAllFrom_cons, findAllFrom_cons, matchesAt_shift consumed edges newline, taken_shift, List.map_append,
        List.length_append, next]
    | succ skip =>
      rw [findAllFrom, findAllFrom, List.length_append, next]

theorem findAllFrom_newline {p : Pattern} (form : p.staysWithin ignoreCase c = true) (v rest : Text) :
    p.findAllFrom ignoreCase 0 v.getLast? v.length ('\n' :: rest) =
      p.findAllFrom ignoreCase 0 (some '\n') (v.length + 1) rest := by
  rw [findAllFrom_cons, matchesAt_eq_nil form v (by simp)]
  rfl

/-- Up to the newline after a closing character, matches are found in the first text only, and none goes beyond. -/
theorem findAllFrom_append {p : Pattern} (form : p.staysWithin ignoreCase c = true) {u : Text}
    (closed : ∀ d, u.getLast? = some d → d = c) {skip : Nat} (inside : skip ≤ u.length) (v more : Text) :
    p.findAllFrom ignoreCase skip v.getLast? v.length (u ++ '\n' :: more) =
      p.findAllFrom ignoreCase skip v.getLast? v.length (u ++ ['\n']) ++
        p.findAllFrom ignoreCase 0 (some '\n') (v.length + u.length + 1) more := by
  -- on what is left of the first text; a match ends with the closing character at the latest, so `skip` stays within it
  induction u generalizing skip v with
  | nil =>
    obtain rfl : skip = 0 := by simpa using inside
    have last : p.findAllFrom ignoreCase 0 (v ++ ['\n']).getLast? (v ++ ['\n']).length [] = [] :=
      matchesAt_eq_nil form (v ++ ['\n']) (by simp)
    rw [List.getLast?_concat, List.length_append, List.length_singleton] at last
    rw [List.nil_append, List.nil_append, findAllFrom_newline form, findAllFrom_newline form, last]
    rfl
  | cons d u ih =>
    have closed' : ∀ d, u.getLast? = some d → d = c := by
      intro e last
      refine closed e ?_
      rw [List.getLast?_cons, last]
      rfl
    have next := fun {skip : Nat} (inside : skip ≤ u.length) => ih closed' inside (v ++ [d])
    simp only [List.getLast?_concat, List.length_append, List.length_singleton] at next
    have count : v.length + (d :: u).length + 1 = v.length + 1 + u.length + 1 := by
      rw [List.length_cons]
      omega
    rw [count, List.cons_append, List.cons_append]
    cases skip with
    | zero =>
      obtain ⟨e, last⟩ : ∃ e, (d :: u).getLast? = some e := ⟨_, List.getLast?_cons⟩
      obtain rfl := closed e last
      have same := matchesAt_extend form last v ['\n'] more
      have bound := taken_matchesAt_le form last v ['\n']
      rw [List.append_assoc, List.singleton_append, List.cons_append, List.cons_append] at same
      rw [List.cons_append, List.length_cons] at bound
      rw [findAllFrom_cons, findAllFrom_cons, same, List.append_assoc, next (by omega)]
    | succ skip =>
      rw [findAllFrom, findAllFrom, next (by rw [List.length_cons] at inside; omega)]

/-- The matches in a text that ends with a closing character and a newline, followed by another text, are those in the one and
    then those in the other. -/
theorem findAll_append {p : Pattern} (form : p.staysWithin ignoreCase c = true) {t : Text} (closed : [c, '\n'] <:+ t)
    (more : Text) : p.findAll ignoreCase (t ++ more) =
      p.findAll ignoreCase t ++ (p.findAll ignoreCase more).map (Match.shift t.length) := by
  obtain ⟨consumed, _, _, edges⟩ := staysWithin_parts form
  obtain ⟨w, rfl⟩ := closed
  have last : ∀ d, (w ++ [c]).getLast? = some d → d = c := by simp [eq_comm]
  have newline : (w ++ [c, '\n']).getLast? = some '\n' := by simp
  have left := findAllFrom_append form last (Nat.zero_le _) [] more
  have right : p.findAllFrom ignoreCase 0 (w ++ [c, '\n'] ++ []).getLast? (w ++ [c, '\n'] ++ []).length more = _ :=
    findAllFrom_shift consumed edges newline 0 [] more
  rw [List.append_nil, newline] at right
  have length : ([] : Text).length + (w ++ [c]).length + 1 = (w ++ [c, '\n']).length := by simp
  rw [length, right, List.append_assoc, List.append_assoc, List.singleton_append, List.singleton_append] at left
  rw [List.append_assoc]
  exact left

end CMakeLint.Pattern
