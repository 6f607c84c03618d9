import CMakeLint.Proofs.Pattern.Pieces
import CMakeLint.Proofs.Pattern.Seam

/-!
Matching as a scan from left to right. A scan takes the first thing that starts at or after a position and goes on where that
thing ends, so it is settled by what there is at each position (`Scan.unique`). The matches of a pattern that takes characters
are the scan of what it matches at each place (`findAll_scan`), and a search gives the first of these (`search_cases`).
-/
namespace CMakeLint

/-- All that is found from a position on: the first thing that starts there or later, and then all that is found from its end
    on. -/
inductive Scan {α : Type} (start stop : α → Nat) (Found : α → Prop) : Nat → List α → Prop
  | done {i : Nat} (none : ∀ a, Found a → start a < i) : Scan start stop Found i []
  | next {i : Nat} {a : α} {rest : List α} (found : Found a) (after : i ≤ start a)
      (first : ∀ b, Found b → i ≤ start b → start a ≤ start b) (later : Scan start stop Found (stop a) rest) :
      Scan start stop Found i (a :: rest)

namespace Scan

variable {α β : Type} {start stop : α → Nat} {Found : α → Prop} {i : Nat}

/-- A scan has one result if no two things start at the same place. -/
theorem unique (single : ∀ a b, Found a → Found b → start a = start b → a = b) {l m : List α}
    (scan : Scan start stop Found i l) (scan' : Scan start stop Found i m) : l = m := by
  induction scan generalizing m with
  | done none =>
    cases scan' with
    | done _ => rfl
    | next found after _ _ => exact absurd (none _ found) (Nat.not_lt.mpr after)
  | @next i a rest found after first later ih =>
    cases scan' with
    | done none => exact absurd (none _ found) (Nat.not_lt.mpr after)
    | @next _ b rest' found' after' first' later' =>
      obtain rfl : a = b := single a b found found' (Nat.le_antisymm (first b found' after') (first' a found after))
      rw [ih later']

theorem found {l : List α} (scan : Scan start stop Found i l) : ∀ a ∈ l, Found a := by
  induction scan with
  | done _ => simp
  | next found _ _ _ ih =>
    intro b member
    rcases List.mem_cons.mp member with rfl | later
    · exact found
    · exact ih b later

/-- A scan finds nothing before the position from which it starts. -/
theorem le_start (forward : ∀ a, Found a → start a ≤ stop a) {l : List α} (scan : Scan start stop Found i l) :
    ∀ a ∈ l, i ≤ start a := by
  induction scan with
  | done _ => simp
  | @next i a rest found after _ _ ih =>
    intro b member
    rcases List.mem_cons.mp member with rfl | later
    · exact after
    · exact Nat.le_trans after (Nat.le_trans (forward a found) (ih b later))

/-- Each thing that a scan finds starts where the ones before it have ended, or later. -/
theorem pairwise (forward : ∀ a, Found a → start a ≤ stop a) {l : List α} (scan : Scan start stop Found i l) :
    l.Pairwise fun a b => stop a ≤ start b := by
  induction scan with
  | done _ => exact .nil
  | next _ _ _ later ih => exact .cons (later.le_start forward) ih

/-- Positions at which nothing starts may be left out. -/
theorem earlier {j : Nat} {l : List α} (scan : Scan start stop Found i l) (le : j ≤ i)
    (none : ∀ a, Found a → j ≤ start a → i ≤ start a) : Scan start stop Found j l := by
  cases scan with
  | done none' =>
    refine .done fun a found => ?_
    by_contra from_j
    have := none a found (by omega)
    have := none' a found
    omega
  | next found after first later =>
    exact .next found (by omega) (fun b found' from_j => first b found' (none b found' from_j)) later

/-- A scan for other things that start and end at the same places. -/
theorem transport {start' stop' : β → Nat} {Found' : β → Prop} {R : β → α → Prop}
    (starts : ∀ b a, R b a → start' b = start a) (stops : ∀ b a, R b a → stop' b = stop a)
    (found_iff : ∀ a, Found a ↔ ∃ b, Found' b ∧ R b a) (covers : ∀ b, Found' b → ∃ a, R b a) {l : List α}
    (scan : Scan start stop Found i l) : ∃ m, Scan start' stop' Found' i m ∧ List.Forall₂ R m l := by
  induction scan with
  | done none =>
    refine ⟨[], .done fun b found => ?_, .nil⟩
    obtain ⟨a, related⟩ := covers b found
    rw [starts b a related]
    exact none a ((found_iff a).mpr ⟨b, found, related⟩)
  | @next i a rest found after first later ih =>
    obtain ⟨b, found', related⟩ := (found_iff a).mp found
    obtain ⟨m, scan, all⟩ := ih
    rw [← stops b a related] at scan
    refine ⟨b :: m, .next found' (by rw [starts b a related]; exact after) ?_ scan, .cons related all⟩
    intro b' found'' from_i
    obtain ⟨a', related'⟩ := covers b' found''
    rw [starts b a related, starts b' a' related']
    exact first a' ((found_iff a').mpr ⟨b', found'', related'⟩) (by rw [← starts b' a' related']; exact from_i)

end Scan

/-- The first of some things in a text. -/
def IsFirst {α : Type} (start : α → Nat) (Found : α → Prop) (a : α) : Prop :=
  Found a ∧ ∀ b, Found b → start a ≤ start b

theorem IsFirst.exists {α : Type} (start : α → Nat) {Found : α → Prop} {a : α} (found : Found a) :
    ∃ b, IsFirst start Found b := by
  induction place : start a using Nat.strongRecOn generalizing a with
  | ind n ih =>
    by_cases earlier : ∃ b, Found b ∧ start b < start a
    · obtain ⟨b, found', less⟩ := earlier
      exact ih (start b) (place ▸ less) found' rfl
    · exact ⟨a, found, fun b found' => Nat.not_lt.mp fun less => earlier ⟨b, found', less⟩⟩

theorem IsFirst.start_eq {α : Type} {start : α → Nat} {Found : α → Prop} {a b : α} (first : IsFirst start Found a)
    (first' : IsFirst start Found b) : start a = start b :=
  Nat.le_antisymm (first.2 b first'.1) (first'.2 a first.1)

namespace Pattern

/-- The match that is tried first among those that start at its place. -/
def FirstAt (p : Pattern) (t : Text) (m : Match) : Prop :=
  ∃ u v s, t = u ++ v ∧ (p.ends false (.between u v [])).head? = some s ∧ m = s.matchFrom u.length

variable {p : Pattern} {u v : Text}

theorem matchAt_eq_head (p : Pattern) (u v : Text) :
    p.matchAt false ⟨u.getLast?, v, u.length⟩ (fun _ => true) =
      (p.ends false (.between u v [])).head?.map (Attempt.matchFrom u.length) := by
  rw [matchAt, run_eq_findSome]
  change ((p.ends false (.between u v [])).findSome? _) = _
  cases p.ends false (.between u v []) with
  | nil => rfl
  | cons s others => rfl

theorem FirstAt.start_le {t : Text} {m : Match} (found : FirstAt p t m) : m.start ≤ t.length := by
  obtain ⟨u, v, s, rfl, _, rfl⟩ := found
  simp [Attempt.matchFrom]

/-- The match at a place is the one that is tried first from there. -/
theorem firstAt_iff {m : Match} (here : m.start = u.length) :
    FirstAt p (u ++ v) m ↔ (p.ends false (.between u v [])).head?.map (Attempt.matchFrom u.length) = some m := by
  constructor
  · rintro ⟨u', v', s, text, head, rfl⟩
    obtain ⟨rfl, rfl⟩ := List.append_inj text here.symm
    rw [head]
    rfl
  · intro made
    obtain ⟨s, head, rfl⟩ := Option.map_eq_some_iff.mp made
    exact ⟨u, v, s, rfl, head, rfl⟩

/-- No match starts where nothing can be taken. -/
theorem FirstAt.start_ne {m : Match} (head : (p.ends false (.between u v [])).head? = none) (found : FirstAt p (u ++ v) m) :
    m.start ≠ u.length := by
  intro here
  rw [firstAt_iff here, head] at found
  cases found

theorem FirstAt.moved {t : Text} {m : Match} (form : p.consumes = true) (found : FirstAt p t m) :
    m.start < m.stop ∧ m.stop ≤ t.length := by
  obtain ⟨u, v, s, rfl, head, rfl⟩ := found
  have member := List.mem_of_head? head
  exact ⟨consumes_sound (isIn_append u v) member form, (ends_extends (isIn_append u v) member).isIn.2⟩

/-- At the end of a text there is no match of a pattern that takes characters. -/
theorem FirstAt.start_lt {t : Text} {m : Match} (form : p.consumes = true) (found : FirstAt p t m) : m.start < t.length :=
  Nat.lt_of_lt_of_le (found.moved form).1 (found.moved form).2

theorem findAllFrom_scan (form : p.consumes = true) (skip : Nat) (u v : Text) :
    Scan Match.start Match.stop (FirstAt p (u ++ v)) (u.length + skip)
      (p.findAllFrom false skip u.getLast? u.length v) := by
  -- on what is ahead; the next `skip` places belong to the match before, so the scan starts behind them
  induction v generalizing u skip with
  | nil =>
    have none : ∀ m, FirstAt p (u ++ []) m → m.start < u.length := by
      intro m found
      simpa using found.start_lt form
    have empty : p.findAllFrom false skip u.getLast? u.length [] = [] := by
      cases skip with
      | succ skip => rfl
      | zero =>
        rw [findAllFrom, matchesAt_eq form]
        cases head : (p.ends false ⟨⟨u.getLast?, [], u.length⟩, []⟩).head? with
        | none => rfl
        | some s => exact absurd (none _ ⟨u, [], s, rfl, head, rfl⟩) (Nat.lt_irrefl _)
    rw [empty]
    exact .done fun m found => Nat.lt_of_lt_of_le (none m found) (Nat.le_add_right _ _)
  | cons c v ih =>
    have next := fun skip => ih skip (u ++ [c])
    simp only [List.append_assoc, List.singleton_append, List.getLast?_concat, List.length_append,
      List.length_singleton] at next
    cases skip with
    | succ skip =>
      rw [findAllFrom]
      have later := next skip
      rwa [Nat.add_assoc, Nat.add_comm 1 skip] at later
    | zero =>
      rw [findAllFrom_cons, matchesAt_eq form, Nat.add_zero]
      change Scan _ _ _ _ (((p.ends false (.between u (c :: v) [])).head?.map _).toList ++ p.findAllFrom false
        (taken ((p.ends false (.between u (c :: v) [])).head?.map _).toList - 1) _ _ _)
      cases head : (p.ends false (.between u (c :: v) [])).head? with
      | none =>
        refine (next 0).earlier (Nat.le_succ _) ?_
        intro m found from_here
        exact Nat.lt_of_le_of_ne from_here (found.start_ne head).symm
      | some s =>
        have found : FirstAt p (u ++ c :: v) (s.matchFrom u.length) := ⟨u, c :: v, s, rfl, head, rfl⟩
        have moved : u.length < s.cursor.position := (found.moved form).1
        refine .next found (Nat.le_refl _) (fun m _ from_here => from_here) ?_
        have rest := next (s.cursor.position - u.length - 1)
        rw [show u.length + 1 + (s.cursor.position - u.length - 1) = s.cursor.position by omega] at rest
        exact rest

/-- The matches of a pattern that takes characters, from left to right. -/
theorem findAll_scan (form : p.consumes = true) (t : Text) :
    Scan Match.start Match.stop (FirstAt p t) 0 (p.findAll false t) :=
  findAllFrom_scan form 0 [] t

theorem searchFrom_cases (p : Pattern) (u v : Text) :
    (∃ m, p.searchFrom false u.getLast? u.length v = some m ∧ FirstAt p (u ++ v) m ∧
        ∀ m', FirstAt p (u ++ v) m' → u.length ≤ m'.start → m.start ≤ m'.start) ∨
      (p.searchFrom false u.getLast? u.length v = none ∧ ∀ m, FirstAt p (u ++ v) m → m.start < u.length) := by
  induction v generalizing u with
  | nil =>
    rw [searchFrom, matchAt_eq_head]
    cases head : (p.ends false (.between u [] [])).head? with
    | some s => exact .inl ⟨_, rfl, ⟨u, [], s, rfl, head, rfl⟩, fun m _ from_here => from_here⟩
    | none =>
      refine .inr ⟨rfl, fun m found => ?_⟩
      have inside := found.start_le
      rw [List.append_nil] at inside
      exact Nat.lt_of_le_of_ne inside (found.start_ne head)
  | cons c v ih =>
    have next := ih (u ++ [c])
    simp only [List.append_assoc, List.singleton_append, List.getLast?_concat, List.length_append,
      List.length_singleton] at next
    rw [searchFrom, matchAt_eq_head]
    cases head : (p.ends false (.between u (c :: v) [])).head? with
    | some s => exact .inl ⟨_, rfl, ⟨u, c :: v, s, rfl, head, rfl⟩, fun m _ from_here => from_here⟩
    | none =>
      have elsewhere : ∀ m, FirstAt p (u ++ c :: v) m → m.start ≠ u.length := fun m found => found.start_ne head
      simp only [Option.map_none]
      rcases next with ⟨m, searched, found, first⟩ | ⟨searched, none⟩
      · refine .inl ⟨m, searched, found, fun m' found' from_here => first m' found' ?_⟩
        have := elsewhere m' found'
        omega
      · refine .inr ⟨searched, fun m found => ?_⟩
        have := elsewhere m found
        have := none m found
        omega

/-- A search gives the first of all matches, and nothing if there are none. -/
theorem search_cases (p : Pattern) (t : Text) :
    (∃ m, p.search false t = some m ∧ IsFirst Match.start (FirstAt p t) m) ∨
      (p.search false t = none ∧ ∀ m, ¬ FirstAt p t m) := by
  rcases searchFrom_cases p [] t with ⟨m, searched, found, first⟩ | ⟨searched, none⟩
  · exact .inl ⟨m, searched, found, fun m' found' => first m' found' (Nat.zero_le _)⟩
  · exact .inr ⟨searched, fun m found => absurd (none m found) (Nat.not_lt_zero _)⟩

/-! ### Matches of any pattern -/

/-- The matches that start at a place follow each other, and all of them end where the last one ends or before. -/
theorem matchesAt_follow (ignoreCase : Bool) {t : Text} {n : Nat} (inside : n ≤ t.length) :
    (∀ m ∈ p.matchesAt ignoreCase (Cursor.at t n),
      m.start = n ∧ m.stop ≤ n + taken (p.matchesAt ignoreCase (Cursor.at t n))) ∧
    (p.matchesAt ignoreCase (Cursor.at t n)).Pairwise fun m m' => m.stop ≤ m'.start := by
  rw [matchesAt]
  cases first : p.matchAt ignoreCase (Cursor.at t n) (fun _ => true) with
  | none => simp
  | some m =>
    obtain ⟨isMatch, start⟩ := matchAt_isMatch inside first
    have forward := isMatch.within.1
    by_cases empty : m.stop = m.start
    · simp only [if_pos empty]
      cases second : p.matchAt ignoreCase (Cursor.at t n) (fun s => s.position ≠ (Cursor.at t n).position) with
      | none => simp [taken, start, empty]
      | some m' =>
        obtain ⟨isMatch', start'⟩ := matchAt_isMatch inside second
        have forward' := isMatch'.within.1
        have last : taken [m, m'] = m'.stop - m'.start := rfl
        refine ⟨?_, List.pairwise_pair.mpr (by omega)⟩
        intro found member
        rw [Option.toList_some, last]
        rcases List.mem_pair.mp member with rfl | rfl
        · exact ⟨start, by omega⟩
        · exact ⟨start', by omega⟩
    · simp only [if_neg empty]
      have last : taken [m] = m.stop - m.start := rfl
      refine ⟨?_, List.pairwise_singleton ..⟩
      intro found member
      obtain rfl := List.mem_singleton.mp member
      rw [last]
      exact ⟨start, by omega⟩

/-- What is found from a place on starts there or later, behind the places that are skipped, and follows each other. -/
theorem findAllFrom_follow {ignoreCase : Bool} {t rest : Text} {n : Nat} (inside : n ≤ t.length) (text : t.drop n = rest)
    (skip : Nat) :
    (∀ m ∈ p.findAllFrom ignoreCase skip (Cursor.at t n).before n rest, n + skip ≤ m.start) ∧
    (p.findAllFrom ignoreCase skip (Cursor.at t n).before n rest).Pairwise fun m m' => m.stop ≤ m'.start := by
  induction rest generalizing skip n with
  | nil =>
    have here : (⟨(Cursor.at t n).before, [], n⟩ : Cursor) = Cursor.at t n := by rw [Cursor.at, text]
    cases skip with
    | zero =>
      rw [findAllFrom, here]
      obtain ⟨places, follow⟩ := matchesAt_follow (p := p) ignoreCase inside
      exact ⟨fun m member => Nat.le_of_eq (places m member).1.symm, follow⟩
    | succ skip => simp [findAllFrom]
  | cons c rest ih =>
    have here : (⟨(Cursor.at t n).before, c :: rest, n⟩ : Cursor) = Cursor.at t n := by rw [Cursor.at, text]
    obtain ⟨inside', text', before⟩ := cursor_at_cons text
    cases skip with
    | zero =>
      rw [findAllFrom_cons, here, before]
      obtain ⟨places, follow⟩ := matchesAt_follow (p := p) ignoreCase inside
      obtain ⟨later, follow'⟩ := ih inside' text' (taken (p.matchesAt ignoreCase (Cursor.at t n)) - 1)
      constructor
      · intro m member
        rcases List.mem_append.mp member with first | last
        · exact Nat.le_of_eq (places m first).1.symm
        · have := later m last
          omega
      · refine List.pairwise_append.mpr ⟨follow, follow', ?_⟩
        intro m first m' last
        have := (places m first).2
        have := later m' last
        omega
    | succ skip =>
      rw [findAllFrom, before]
      obtain ⟨later, follow⟩ := ih inside' text' skip
      refine ⟨fun m member => ?_, follow⟩
      have := later m member
      omega

/-- The matches of a pattern follow each other, whether or not it takes characters. -/
theorem findAll_follow (ignoreCase : Bool) (p : Pattern) (t : Text) :
    (p.findAll ignoreCase t).Pairwise fun m m' => m.stop ≤ m'.start := by
  have start : (Cursor.at t 0).before = none := by simp [Cursor.at]
  rw [findAll, ← start]
  exact (findAllFrom_follow (Nat.zero_le _) rfl 0).2

end Pattern

end CMakeLint
