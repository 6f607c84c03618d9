import CMakeLint.Pattern.Match
import Mathlib.Data.List.TakeWhile
import Mathlib.Logic.Relation

/-!
The ways in which a pattern can match, as a list in the order in which they are tried. A match under way is the first of these
ways from which the rest can go on (`run_eq_findSome`), so that what is true of matching is read off this list. In a text, all
places that are reached are places of that text, further on than the start, and every group closed on the way lies in between
(`ends_extends`).
-/
namespace CMakeLint.Pattern

/-! ### Ends of a pattern -/

/-- The ends of `n` steps one after the other. -/
def requiredEnds (step : Attempt → List Attempt) : Nat → Attempt → List Attempt
  | 0, s => [s]
  | n + 1, s => (step s).flatMap (requiredEnds step n)

/-- The ends of up to `n` steps. A step that takes no character is the last one. -/
def optionalEnds (step : Attempt → List Attempt) (greedy : Bool) : Nat → Attempt → List Attempt
  | 0, s => [s]
  | n + 1, s =>
    let more := (step s).flatMap fun s' =>
      if s'.cursor.position = s.cursor.position then [s'] else optionalEnds step greedy n s'
    if greedy then more ++ [s] else s :: more

/-- The attempts to which a pattern leads, in the order in which they are tried. -/
def ends (ignoreCase : Bool) : Pattern → Attempt → List Attempt
  | empty, s => [s]
  | one cls, s =>
    match s.cursor.rest with
    | c :: rest =>
      if cls.accepts ignoreCase c then [{ s with cursor := ⟨some c, rest, s.cursor.position + 1⟩ }] else []
    | [] => []
  | many cls r, s =>
    (r.select (stops (cls.accepts ignoreCase) s.cursor.before s.cursor.position s.cursor.rest)).map fun c =>
      { s with cursor := c }
  | anchor condition, s => if condition.holds s.cursor then [s] else []
  | seq p q, s => (ends ignoreCase p s).flatMap (ends ignoreCase q)
  | alt p q, s => ends ignoreCase p s ++ ends ignoreCase q s
  | group n p, s =>
    (ends ignoreCase p s).map fun s' =>
      { s' with captures := (n, s.cursor.position, s'.cursor.position) :: s'.captures }
  | times p r, s =>
    (requiredEnds (ends ignoreCase p) r.least s).flatMap fun s' =>
      optionalEnds (ends ignoreCase p) r.greedy (r.extra s'.cursor.rest) s'

variable {α : Type}

theorem findSome_flatMap {β : Type} (l : List β) (f : β → List Attempt) (next : Attempt → Option α) :
    (l.flatMap f).findSome? next = l.findSome? fun b => (f b).findSome? next := by
  induction l with
  | nil => rfl
  | cons b rest ih =>
    rw [List.flatMap_cons, List.findSome?_append, ih, List.findSome?_cons]
    cases (f b).findSome? next <;> rfl

theorem required_eq_findSome {step : Step α} {stepEnds : Attempt → List Attempt}
    (same : ∀ s next, step s next = (stepEnds s).findSome? next) (n : Nat) (s : Attempt) (next : Attempt → Option α) :
    required step n s next = (requiredEnds stepEnds n s).findSome? next := by
  induction n generalizing s with
  | zero => simp [required, requiredEnds]
  | succ n ih =>
    rw [required, requiredEnds, same, findSome_flatMap]
    exact congrArg (fun f => (stepEnds s).findSome? f) (funext fun s' => ih s')

theorem optional_eq_findSome {step : Step α} {stepEnds : Attempt → List Attempt}
    (same : ∀ s next, step s next = (stepEnds s).findSome? next) (greedy : Bool) (n : Nat) (s : Attempt)
    (next : Attempt → Option α) :
    optional step greedy n s next = (optionalEnds stepEnds greedy n s).findSome? next := by
  induction n generalizing s with
  | zero => simp [optional, optionalEnds]
  | succ n ih =>
    have more : (step s fun s' =>
        if s'.cursor.position = s.cursor.position then next s' else optional step greedy n s' next) =
        ((stepEnds s).flatMap fun s' =>
          if s'.cursor.position = s.cursor.position then [s'] else optionalEnds stepEnds greedy n s').findSome? next := by
      rw [same, findSome_flatMap]
      refine congrArg (fun f => (stepEnds s).findSome? f) (funext fun s' => ?_)
      by_cases still : s'.cursor.position = s.cursor.position
      · simp [still]
      · simp [still, ih]
    rw [optional, optionalEnds]
    simp only [more]
    cases greedy with
    | true =>
      simp only [↓reduceIte, List.findSome?_append]
      cases List.findSome? next _ <;> simp
    | false =>
      simp only [Bool.false_eq_true, ↓reduceIte, List.findSome?_cons]
      cases next s <;> rfl

/-- Matching a pattern and then the rest is to find the first end of the pattern from which the rest matches. -/
theorem run_eq_findSome (ignoreCase : Bool) (p : Pattern) (s : Attempt) (next : Attempt → Option α) :
    p.run ignoreCase s next = (p.ends ignoreCase s).findSome? next := by
  induction p generalizing s next with
  | empty => simp [run, ends]
  | one cls =>
    rw [run, ends]
    cases s.cursor.rest with
    | nil => rfl
    | cons c rest => by_cases accepted : cls.accepts ignoreCase c = true <;> simp [accepted]
  | many cls r =>
    rw [run, ends, List.findSome?_map]
    rfl
  | anchor condition => by_cases holds : condition.holds s.cursor = true <;> simp [run, ends, holds]
  | seq p q ihp ihq =>
    rw [run, ends, ihp, findSome_flatMap]
    exact congrArg (fun f => (p.ends ignoreCase s).findSome? f) (funext fun s' => ihq s' next)
  | alt p q ihp ihq =>
    rw [run, ends, List.findSome?_append, ihp, ihq]
    cases (p.ends ignoreCase s).findSome? next <;> rfl
  | group n p ih =>
    rw [run, ends, ih, List.findSome?_map]
    rfl
  | times p r ih =>
    rw [run, ends, findSome_flatMap, required_eq_findSome ih]
    exact congrArg (fun f => (requiredEnds (p.ends ignoreCase) r.least s).findSome? f)
      (funext fun s' => optional_eq_findSome ih r.greedy _ s' next)

/-! ### Repeated steps -/

/-- One attempt leads to another one by matches of a pattern one after the other. -/
def Chain (ignoreCase : Bool) (p : Pattern) : Attempt → Attempt → Prop :=
  Relation.ReflTransGen fun s s' => s' ∈ p.ends ignoreCase s

theorem chain_of_required {ignoreCase : Bool} {p : Pattern} {n : Nat} {s s' : Attempt}
    (member : s' ∈ requiredEnds (p.ends ignoreCase) n s) : Chain ignoreCase p s s' := by
  induction n generalizing s with
  | zero =>
    rw [List.mem_singleton.mp member]
    exact .refl
  | succ n ih =>
    obtain ⟨middle, first, rest⟩ := List.mem_flatMap.mp member
    exact .head first (ih rest)

theorem chain_of_optional {ignoreCase : Bool} {p : Pattern} {greedy : Bool} {n : Nat} {s s' : Attempt}
    (member : s' ∈ optionalEnds (p.ends ignoreCase) greedy n s) : Chain ignoreCase p s s' := by
  induction n generalizing s with
  | zero =>
    rw [List.mem_singleton.mp member]
    exact .refl
  | succ n ih =>
    have ofMore : s' ∈ (p.ends ignoreCase s).flatMap (fun s' =>
        if s'.cursor.position = s.cursor.position then [s'] else optionalEnds (p.ends ignoreCase) greedy n s') →
        Chain ignoreCase p s s' := by
      intro more
      obtain ⟨middle, first, rest⟩ := List.mem_flatMap.mp more
      split at rest
      · rw [List.mem_singleton.mp rest]
        exact .single first
      · exact .head first (ih rest)
    rw [optionalEnds] at member
    split at member
    · rcases List.mem_append.mp member with more | last
      · exact ofMore more
      · rw [List.mem_singleton.mp last]
        exact .refl
    · rcases List.mem_cons.mp member with same | more
      · rw [same]
        exact .refl
      · exact ofMore more

/-- A repeated pattern leads from an attempt to another one by a chain, which has a first match if one is required. -/
theorem chain_of_times {ignoreCase : Bool} {p : Pattern} {r : Repetition} {s s' : Attempt}
    (member : s' ∈ (times p r).ends ignoreCase s) :
    Chain ignoreCase p s s' ∧ (0 < r.least → ∃ first ∈ p.ends ignoreCase s, Chain ignoreCase p first s') := by
  obtain ⟨middle, needed, more⟩ := List.mem_flatMap.mp member
  refine ⟨(chain_of_required needed).trans (chain_of_optional more), fun positive => ?_⟩
  obtain ⟨n, least⟩ : ∃ n, r.least = n + 1 := ⟨r.least - 1, by omega⟩
  rw [least, requiredEnds] at needed
  obtain ⟨first, taken, rest⟩ := List.mem_flatMap.mp needed
  exact ⟨first, taken, (chain_of_required rest).trans (chain_of_optional more)⟩

/-! ### Places of a text -/

/-- The place after the first `n` characters of a text. -/
def Cursor.at (t : Text) (n : Nat) : Cursor :=
  ⟨(t.take n).getLast?, t.drop n, n⟩

theorem Cursor.atStart_eq (t : Text) : Cursor.atStart t = Cursor.at t 0 := by
  simp [Cursor.atStart, Cursor.at]

@[simp] theorem Cursor.at_position (t : Text) (n : Nat) : (Cursor.at t n).position = n := rfl

@[simp] theorem Cursor.at_rest (t : Text) (n : Nat) : (Cursor.at t n).rest = t.drop n := rfl

theorem Cursor.at_succ {t : Text} {n : Nat} {c : Char} {rest : Text} (here : t.drop n = c :: rest) :
    Cursor.at t (n + 1) = ⟨some c, rest, n + 1⟩ := by
  have char : t[n]? = some c := by
    rw [← List.head?_drop, here]
    rfl
  have after : t.drop (n + 1) = rest := by
    rw [← List.drop_drop, here]
    rfl
  rw [Cursor.at, after, List.take_add_one, char]
  simp

/-- The places after accepted characters are those after the longest run of accepted characters, and all before it. -/
theorem stops_at (accepts : Char → Bool) (t : Text) (n : Nat) :
    stops accepts (Cursor.at t n).before n (t.drop n) =
      (List.range (((t.drop n).takeWhile accepts).length + 1)).map fun k => Cursor.at t (n + k) := by
  generalize rest : t.drop n = text
  induction text generalizing n with
  | nil => simp [stops, Cursor.at, rest]
  | cons c text ih =>
    have here : (⟨(Cursor.at t n).before, c :: text, n⟩ : Cursor) = Cursor.at t n := by
      rw [Cursor.at, rest]
    have next := Cursor.at_succ rest
    rw [stops, here]
    by_cases accepted : accepts c = true
    · have tail := ih (n + 1) (by rw [← List.drop_drop, rest]; rfl)
      rw [next] at tail
      rw [if_pos accepted, List.takeWhile_cons_of_pos accepted, List.length_cons, List.range_succ_eq_map, List.map_cons,
        List.map_map, tail]
      refine congrArg _ (List.map_congr_left fun k _ => ?_)
      simp only [Function.comp_apply, Nat.succ_eq_add_one]
      rw [Nat.add_assoc, Nat.add_comm 1 k]
    · simp [accepted]

theorem mem_select {r : Repetition} {places : List Cursor} {c : Cursor} (member : c ∈ r.select places) :
    ∃ k, r.least ≤ k ∧ places[k]? = some c := by
  have dropped : ∀ l : List Cursor, c ∈ l.drop r.least → ∃ k, r.least ≤ k ∧ l[k]? = some c := by
    intro l inside
    obtain ⟨k, at_k⟩ := List.mem_iff_getElem?.mp inside
    rw [List.getElem?_drop] at at_k
    exact ⟨r.least + k, by omega, at_k⟩
  have allowed : ∀ l : List Cursor, c ∈ (if r.greedy then (l.drop r.least).reverse else l.drop r.least) →
      c ∈ l.drop r.least := by
    intro l selected
    split at selected
    · exact List.mem_reverse.mp selected
    · exact selected
  unfold Repetition.select at member
  cases most : r.most with
  | none =>
    rw [most] at member
    exact dropped places (allowed _ member)
  | some most' =>
    rw [most] at member
    obtain ⟨k, enough, at_k⟩ := dropped _ (allowed _ member)
    refine ⟨k, enough, ?_⟩
    rw [List.getElem?_take] at at_k
    split at at_k
    · exact at_k
    · cases at_k

/-- An attempt stands at a place of a text. -/
def Attempt.IsIn (t : Text) (s : Attempt) : Prop :=
  s.cursor = Cursor.at t s.cursor.position ∧ s.cursor.position ≤ t.length

theorem accepted_of_lt_takeWhile {accepts : Char → Bool} {l : Text} {k : Nat} (lt : k < (l.takeWhile accepts).length) :
    ∃ c, l[k]? = some c ∧ accepts c = true := by
  have leading := List.takeWhile_prefix (l := l) accepts
  refine ⟨(l.takeWhile accepts)[k], ?_, List.mem_takeWhile_imp (List.getElem_mem lt)⟩
  rw [leading.getElem lt]
  exact List.getElem?_eq_getElem (Nat.lt_of_lt_of_le lt leading.length_le)

/-- Repeated characters of a class lead over characters of that class. -/
theorem mem_many {ignoreCase : Bool} {cls : CharClass} {r : Repetition} {t : Text} {s s' : Attempt} (isIn : s.IsIn t)
    (member : s' ∈ (many cls r).ends ignoreCase s) :
    ∃ k, r.least ≤ k ∧ s.cursor.position + k ≤ t.length ∧
      (∀ j < k, ∃ c, t[s.cursor.position + j]? = some c ∧ cls.accepts ignoreCase c = true) ∧
      s' = { s with cursor := Cursor.at t (s.cursor.position + k) } := by
  obtain ⟨place, inside⟩ := isIn
  obtain ⟨c, selected, rfl⟩ := List.mem_map.mp member
  obtain ⟨k, enough, at_k⟩ := mem_select selected
  have rest : s.cursor.rest = t.drop s.cursor.position := congrArg Cursor.rest place
  have before : s.cursor.before = (Cursor.at t s.cursor.position).before := congrArg Cursor.before place
  rw [rest, before, stops_at, List.getElem?_map] at at_k
  obtain ⟨k', at_k', rfl⟩ := Option.map_eq_some_iff.mp at_k
  obtain ⟨bound, same⟩ := List.getElem?_eq_some_iff.mp at_k'
  rw [List.getElem_range] at same
  subst same
  rw [List.length_range] at bound
  have shorter := (List.takeWhile_sublist (cls.accepts ignoreCase) (l := t.drop s.cursor.position)).length_le
  rw [List.length_drop] at shorter
  refine ⟨k, enough, by omega, ?_, rfl⟩
  intro j lt
  have early : j < ((t.drop s.cursor.position).takeWhile (cls.accepts ignoreCase)).length := by omega
  obtain ⟨c, char, accepted⟩ := accepted_of_lt_takeWhile early
  rw [List.getElem?_drop] at char
  exact ⟨c, char, accepted⟩

/-! ### Places that are reached -/

/-- An attempt comes after another one in a text: it stands there or further on, and what was closed since lies between. -/
structure Extends (t : Text) (s s' : Attempt) : Prop where
  isIn : s'.IsIn t
  forward : s.cursor.position ≤ s'.cursor.position
  groups : ∃ new, s'.captures = new ++ s.captures ∧ ∀ capture ∈ new,
    s.cursor.position ≤ capture.2.1 ∧ capture.2.1 ≤ capture.2.2 ∧ capture.2.2 ≤ s'.cursor.position

theorem extends_refl {t : Text} {s : Attempt} (isIn : s.IsIn t) : Extends t s s :=
  ⟨isIn, Nat.le_refl _, [], rfl, by simp⟩

theorem extends_trans {t : Text} {s s' s'' : Attempt} (first : Extends t s s') (second : Extends t s' s'') :
    Extends t s s'' := by
  obtain ⟨new, captures, between⟩ := first.groups
  obtain ⟨newer, captures', between'⟩ := second.groups
  have forward := first.forward
  have forward' := second.forward
  refine ⟨second.isIn, by omega, newer ++ new, by rw [captures', captures, List.append_assoc], ?_⟩
  intro capture member
  rcases List.mem_append.mp member with later | earlier
  · have := between' capture later
    omega
  · have := between capture earlier
    omega

theorem extends_cursor {t : Text} {s : Attempt} {n : Nat} (forward : s.cursor.position ≤ n) (inside : n ≤ t.length) :
    Extends t s { s with cursor := Cursor.at t n } :=
  ⟨⟨rfl, inside⟩, forward, [], rfl, by simp⟩

theorem extends_chain {ignoreCase : Bool} {p : Pattern} {t : Text}
    (step : ∀ s s', s.IsIn t → s' ∈ p.ends ignoreCase s → Extends t s s') {s s' : Attempt} (isIn : s.IsIn t)
    (chain : Chain ignoreCase p s s') : Extends t s s' := by
  induction chain with
  | refl => exact extends_refl isIn
  | tail _ last ih => exact extends_trans ih (step _ _ ih.isIn last)

/-- Wherever a pattern leads from a place of a text comes after that place. -/
theorem ends_extends {ignoreCase : Bool} {p : Pattern} {t : Text} {s s' : Attempt} (isIn : s.IsIn t)
    (member : s' ∈ p.ends ignoreCase s) : Extends t s s' := by
  induction p generalizing s s' with
  | empty =>
    rw [ends, List.mem_singleton] at member
    rw [member]
    exact extends_refl isIn
  | one cls =>
    obtain ⟨place, inside⟩ := isIn
    rw [ends] at member
    cases rest : s.cursor.rest with
    | nil => simp [rest] at member
    | cons c text =>
      rw [place, Cursor.at_rest] at rest
      have room : s.cursor.position < t.length := by
        have := congrArg List.length rest
        simp only [List.length_drop, List.length_cons] at this
        omega
      rw [place, Cursor.at_rest, rest] at member
      simp only at member
      split at member
      · rw [List.mem_singleton.mp member, Cursor.at_position, ← Cursor.at_succ rest]
        exact extends_cursor (by omega) (by omega)
      · cases member
  | many cls r =>
    obtain ⟨k, _, inside, _, rfl⟩ := mem_many isIn member
    exact extends_cursor (by omega) inside
  | anchor condition =>
    rw [ends] at member
    split at member
    · rw [List.mem_singleton.mp member]
      exact extends_refl isIn
    · cases member
  | seq p q ihp ihq =>
    obtain ⟨middle, first, second⟩ := List.mem_flatMap.mp member
    have before := ihp isIn first
    exact extends_trans before (ihq before.isIn second)
  | alt p q ihp ihq =>
    rcases List.mem_append.mp member with first | second
    · exact ihp isIn first
    · exact ihq isIn second
  | group n p ih =>
    obtain ⟨inner, first, rfl⟩ := List.mem_map.mp member
    have body := ih isIn first
    obtain ⟨new, captures, between⟩ := body.groups
    refine ⟨body.isIn, body.forward, (n, s.cursor.position, inner.cursor.position) :: new, ?_, ?_⟩
    · rw [captures]
      rfl
    · intro capture closed
      rcases List.mem_cons.mp closed with rfl | earlier
      · exact ⟨Nat.le_refl _, body.forward, Nat.le_refl _⟩
      · exact between capture earlier
  | times p r ih => exact extends_chain (fun _ _ => ih) isIn (chain_of_times member).1

/-! ### Counting from elsewhere -/

/-- The same place counted from `k` characters earlier. -/
def Cursor.shift (k : Nat) (c : Cursor) : Cursor :=
  { c with position := c.position + k }

/-- The same attempt counted from `k` characters earlier. -/
def Attempt.shift (k : Nat) (s : Attempt) : Attempt :=
  ⟨s.cursor.shift k, s.captures.map fun capture => (capture.1, capture.2.1 + k, capture.2.2 + k)⟩

theorem stops_shift (accepts : Char → Bool) (k : Nat) (before : Option Char) (n : Nat) (t : Text) :
    stops accepts before (n + k) t = (stops accepts before n t).map (Cursor.shift k) := by
  induction t generalizing before n with
  | nil => rfl
  | cons c t ih =>
    rw [stops, stops]
    by_cases accepted : accepts c = true
    · have tail := ih (some c) (n + 1)
      rw [Nat.add_right_comm] at tail
      rw [if_pos accepted, if_pos accepted, tail]
      rfl
    · rw [if_neg accepted, if_neg accepted]
      rfl

theorem select_map (r : Repetition) (f : Cursor → Cursor) (places : List Cursor) :
    r.select (places.map f) = (r.select places).map f := by
  unfold Repetition.select
  cases r.most with
  | none => cases r.greedy <;> simp [List.map_drop]
  | some most => cases r.greedy <;> simp [List.map_drop, List.map_take]

theorem requiredEnds_shift {step : Attempt → List Attempt} {k : Nat}
    (same : ∀ s, step (s.shift k) = (step s).map (Attempt.shift k)) (n : Nat) (s : Attempt) :
    requiredEnds step n (s.shift k) = (requiredEnds step n s).map (Attempt.shift k) := by
  induction n generalizing s with
  | zero => rfl
  | succ n ih =>
    rw [requiredEnds, requiredEnds, same, List.flatMap_map, List.map_flatMap]
    exact congrArg (fun f => (step s).flatMap f) (funext ih)

theorem optionalEnds_shift {step : Attempt → List Attempt} {k : Nat}
    (same : ∀ s, step (s.shift k) = (step s).map (Attempt.shift k)) (greedy : Bool) (n : Nat) (s : Attempt) :
    optionalEnds step greedy n (s.shift k) = (optionalEnds step greedy n s).map (Attempt.shift k) := by
  induction n generalizing s with
  | zero => rfl
  | succ n ih =>
    have more : ((step (s.shift k)).flatMap fun s' =>
        if s'.cursor.position = (s.shift k).cursor.position then [s'] else optionalEnds step greedy n s') =
        ((step s).flatMap fun s' =>
          if s'.cursor.position = s.cursor.position then [s'] else optionalEnds step greedy n s').map (Attempt.shift k) := by
      rw [same, List.flatMap_map, List.map_flatMap]
      refine congrArg (fun f => (step s).flatMap f) (funext fun s' => ?_)
      by_cases still : s'.cursor.position = s.cursor.position
      · simp [Attempt.shift, Cursor.shift, still]
      · simp [Attempt.shift, Cursor.shift, still, ← ih]
    rw [optionalEnds, optionalEnds]
    simp only [more]
    cases greedy <;> simp

/-- A pattern does not depend on where positions are counted from. -/
theorem ends_shift (ignoreCase : Bool) (p : Pattern) (k : Nat) (s : Attempt) :
    p.ends ignoreCase (s.shift k) = (p.ends ignoreCase s).map (Attempt.shift k) := by
  induction p generalizing s with
  | empty => rfl
  | one cls =>
    have rest : (s.shift k).cursor.rest = s.cursor.rest := rfl
    rw [ends, ends, rest]
    cases s.cursor.rest with
    | nil => rfl
    | cons c text =>
      by_cases accepted : cls.accepts ignoreCase c = true
      · simp [accepted, Attempt.shift, Cursor.shift, Nat.add_right_comm]
      · simp [accepted]
  | many cls r =>
    have places : stops (cls.accepts ignoreCase) (s.shift k).cursor.before (s.shift k).cursor.position
        (s.shift k).cursor.rest = _ := stops_shift (cls.accepts ignoreCase) k s.cursor.before s.cursor.position s.cursor.rest
    rw [ends, ends, places, select_map, List.map_map, List.map_map]
    rfl
  | anchor condition =>
    have holds : condition.holds (s.shift k).cursor = condition.holds s.cursor := by cases condition <;> rfl
    rw [ends, ends, holds]
    split <;> rfl
  | seq p q ihp ihq =>
    rw [ends, ends, ihp, List.flatMap_map, List.map_flatMap]
    exact congrArg (fun f => (p.ends ignoreCase s).flatMap f) (funext ihq)
  | alt p q ihp ihq => rw [ends, ends, ihp, ihq, List.map_append]
  | group n p ih =>
    rw [ends, ends, ih, List.map_map, List.map_map]
    rfl
  | times p r ih =>
    rw [ends, ends, requiredEnds_shift ih, List.flatMap_map, List.map_flatMap]
    exact congrArg (fun f => (requiredEnds (p.ends ignoreCase) r.least s).flatMap f)
      (funext fun s' => optionalEnds_shift ih r.greedy _ s')

/-! ### Matches in a text -/

/-- A way in which a pattern matches in a text. -/
def IsMatch (ignoreCase : Bool) (p : Pattern) (t : Text) (m : Match) : Prop :=
  m.start ≤ t.length ∧ ∃ s ∈ p.ends ignoreCase ⟨Cursor.at t m.start, []⟩,
    m.stop = s.cursor.position ∧ m.captures = s.captures

theorem matchAt_isMatch {ignoreCase : Bool} {p : Pattern} {t : Text} {n : Nat} {acceptable : Cursor → Bool} {m : Match}
    (inside : n ≤ t.length) (found : p.matchAt ignoreCase (Cursor.at t n) acceptable = some m) :
    IsMatch ignoreCase p t m ∧ m.start = n := by
  rw [matchAt, run_eq_findSome] at found
  obtain ⟨s, member, taken⟩ := List.exists_of_findSome?_eq_some found
  split at taken
  · cases taken
    exact ⟨⟨inside, s, member, rfl, rfl⟩, rfl⟩
  · cases taken

theorem cursor_at_cons {t rest : Text} {c : Char} {n : Nat} (text : t.drop n = c :: rest) :
    n + 1 ≤ t.length ∧ t.drop (n + 1) = rest ∧ some c = (Cursor.at t (n + 1)).before := by
  have after := Cursor.at_succ text
  refine ⟨?_, congrArg Cursor.rest after, (congrArg Cursor.before after).symm⟩
  have := congrArg List.length text
  simp only [List.length_drop, List.length_cons] at this
  omega

theorem searchFrom_isMatch {ignoreCase : Bool} {p : Pattern} {t rest : Text} {n : Nat} {m : Match} (inside : n ≤ t.length)
    (text : t.drop n = rest) (found : p.searchFrom ignoreCase (Cursor.at t n).before n rest = some m) :
    IsMatch ignoreCase p t m := by
  induction rest generalizing n with
  | nil =>
    have here : (⟨(Cursor.at t n).before, [], n⟩ : Cursor) = Cursor.at t n := by rw [Cursor.at, text]
    rw [searchFrom, here] at found
    cases first : p.matchAt ignoreCase (Cursor.at t n) (fun _ => true) with
    | none => simp [first] at found
    | some m' =>
      rw [first] at found
      cases found
      exact (matchAt_isMatch inside first).1
  | cons c rest ih =>
    have here : (⟨(Cursor.at t n).before, c :: rest, n⟩ : Cursor) = Cursor.at t n := by rw [Cursor.at, text]
    obtain ⟨inside', text', before⟩ := cursor_at_cons text
    rw [searchFrom, here] at found
    cases first : p.matchAt ignoreCase (Cursor.at t n) (fun _ => true) with
    | none =>
      rw [first, before] at found
      exact ih inside' text' found
    | some m' =>
      rw [first] at found
      cases found
      exact (matchAt_isMatch inside first).1

/-- What a search finds is a match. -/
theorem search_isMatch {ignoreCase : Bool} {p : Pattern} {t : Text} {m : Match} (found : p.search ignoreCase t = some m) :
    IsMatch ignoreCase p t m := by
  have start : (Cursor.at t 0).before = none := by simp [Cursor.at]
  rw [search, ← start] at found
  exact searchFrom_isMatch (Nat.zero_le _) rfl found

theorem matchesAt_isMatch {ignoreCase : Bool} {p : Pattern} {t : Text} {n : Nat} {m : Match} (inside : n ≤ t.length)
    (member : m ∈ p.matchesAt ignoreCase (Cursor.at t n)) : IsMatch ignoreCase p t m := by
  rw [matchesAt] at member
  split at member
  · cases member
  · rename_i m' first
    have match' := (matchAt_isMatch inside first).1
    split at member
    · rcases List.mem_cons.mp member with rfl | second
      · exact match'
      · exact (matchAt_isMatch inside (Option.mem_toList.mp second)).1
    · rw [List.mem_singleton.mp member]
      exact match'

theorem findAllFrom_isMatch {ignoreCase : Bool} {p : Pattern} {t rest : Text} {skip n : Nat} {m : Match}
    (inside : n ≤ t.length) (text : t.drop n = rest)
    (member : m ∈ p.findAllFrom ignoreCase skip (Cursor.at t n).before n rest) : IsMatch ignoreCase p t m := by
  induction rest generalizing skip n with
  | nil =>
    have here : (⟨(Cursor.at t n).before, [], n⟩ : Cursor) = Cursor.at t n := by rw [Cursor.at, text]
    cases skip with
    | zero =>
      rw [findAllFrom, here] at member
      exact matchesAt_isMatch inside member
    | succ skip => simp [findAllFrom] at member
  | cons c rest ih =>
    have here : (⟨(Cursor.at t n).before, c :: rest, n⟩ : Cursor) = Cursor.at t n := by rw [Cursor.at, text]
    obtain ⟨inside', text', before⟩ := cursor_at_cons text
    cases skip with
    | zero =>
      rw [findAllFrom, here, before] at member
      split at member
      · exact ih inside' text' member
      · rename_i m' ms matches'
        rcases List.mem_append.mp member with here' | later
        · exact matchesAt_isMatch inside (matches' ▸ here')
        · exact ih inside' text' later
    | succ skip =>
      rw [findAllFrom, before] at member
      exact ih inside' text' member

/-- All matches that are found are matches. -/
theorem findAll_isMatch {ignoreCase : Bool} {p : Pattern} {t : Text} {m : Match} (member : m ∈ p.findAll ignoreCase t) :
    IsMatch ignoreCase p t m := by
  have start : (Cursor.at t 0).before = none := by simp [Cursor.at]
  rw [findAll, ← start] at member
  exact findAllFrom_isMatch (Nat.zero_le _) rfl member

end CMakeLint.Pattern
