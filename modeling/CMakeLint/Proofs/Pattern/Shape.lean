import CMakeLint.Proofs.Pattern.Ends

/-!
What the form of a pattern alone says about all of its matches: that they take characters, which character they never begin
or end with, which group they always have and that it starts before the match ends. Each property is computed from the
pattern and holds of every match (`IsMatch.placed`).
-/
namespace CMakeLint.Pattern

/-! ### Properties of the form -/

/-- Every match takes at least one character. -/
def consumes : Pattern → Bool
  | one _ => true
  | many _ r => 0 < r.least
  | seq p q => p.consumes || q.consumes
  | alt p q => p.consumes && q.consumes
  | group _ p => p.consumes
  | times p r => 0 < r.least && p.consumes
  | _ => false

/-- The first character of a match is never `c`. -/
def neverOpensWith (ignoreCase : Bool) (c : Char) : Pattern → Bool
  | one cls => !cls.accepts ignoreCase c
  | many cls _ => !cls.accepts ignoreCase c
  | seq p q => p.neverOpensWith ignoreCase c && (p.consumes || q.neverOpensWith ignoreCase c)
  | alt p q => p.neverOpensWith ignoreCase c && q.neverOpensWith ignoreCase c
  | group _ p => p.neverOpensWith ignoreCase c
  | times p _ => p.neverOpensWith ignoreCase c
  | _ => true

/-- The last character of a match is never `c`. -/
def neverClosesWith (ignoreCase : Bool) (c : Char) : Pattern → Bool
  | one cls => !cls.accepts ignoreCase c
  | many cls _ => !cls.accepts ignoreCase c
  | seq p q => q.neverClosesWith ignoreCase c && (q.consumes || p.neverClosesWith ignoreCase c)
  | alt p q => p.neverClosesWith ignoreCase c && q.neverClosesWith ignoreCase c
  | group _ p => p.neverClosesWith ignoreCase c
  | times p _ => p.neverClosesWith ignoreCase c
  | _ => true

/-- Every match has the group `n`. -/
def binds (n : Nat) : Pattern → Bool
  | seq p q => p.binds n || q.binds n
  | alt p q => p.binds n && q.binds n
  | group k p => k == n || p.binds n
  | times p r => 0 < r.least && p.binds n
  | _ => false

/-- The group `n` starts before the match ends. -/
def opensInside (n : Nat) : Pattern → Bool
  | seq p q => (p.opensInside n || q.consumes) && q.opensInside n
  | alt p q => p.opensInside n && q.opensInside n
  | group k p => (k != n || p.consumes) && p.opensInside n
  | times p _ => p.opensInside n
  | _ => true

/-- The group `n` is never empty. -/
def fills (n : Nat) : Pattern → Bool
  | seq p q => p.fills n && q.fills n
  | alt p q => p.fills n && q.fills n
  | group k p => (k != n || p.consumes) && p.fills n
  | times p _ => p.fills n
  | _ => true

variable {ignoreCase : Bool} {t : Text}

/-! ### Characters that are taken -/

theorem mem_one {cls : CharClass} {s s' : Attempt} (isIn : s.IsIn t) (member : s' ∈ (one cls).ends ignoreCase s) :
    s'.cursor.position = s.cursor.position + 1 ∧ s'.captures = s.captures ∧
      ∃ c, t[s.cursor.position]? = some c ∧ cls.accepts ignoreCase c = true := by
  have text : s.cursor.rest = t.drop s.cursor.position := congrArg Cursor.rest isIn.1
  rw [ends, text] at member
  cases rest : t.drop s.cursor.position with
  | nil => simp [rest] at member
  | cons c text =>
    have char : t[s.cursor.position]? = some c := by
      rw [← List.head?_drop, rest]
      rfl
    rw [rest] at member
    simp only at member
    split at member
    · rename_i accepted
      rw [List.mem_singleton.mp member]
      exact ⟨rfl, rfl, c, char, accepted⟩
    · cases member

theorem consumes_sound {p : Pattern} {s s' : Attempt} (isIn : s.IsIn t) (member : s' ∈ p.ends ignoreCase s)
    (form : p.consumes = true) : s.cursor.position < s'.cursor.position := by
  induction p generalizing s s' with
  | empty => cases form
  | anchor condition => cases form
  | one cls =>
    have moved := (mem_one isIn member).1
    omega
  | many cls r =>
    obtain ⟨k, least, _, _, rfl⟩ := mem_many isIn member
    have positive : 0 < r.least := by simpa [consumes] using form
    simp only [Cursor.at_position]
    omega
  | seq p q ihp ihq =>
    obtain ⟨middle, first, second⟩ := List.mem_flatMap.mp member
    have before := ends_extends isIn first
    have forward := before.forward
    have forward' := (ends_extends before.isIn second).forward
    rcases Bool.or_eq_true_iff.mp form with left | right
    · have := ihp isIn first left
      omega
    · have := ihq before.isIn second right
      omega
  | alt p q ihp ihq =>
    obtain ⟨left, right⟩ := Bool.and_eq_true_iff.mp form
    rcases List.mem_append.mp member with first | second
    · exact ihp isIn first left
    · exact ihq isIn second right
  | group n p ih =>
    obtain ⟨inner, first, rfl⟩ := List.mem_map.mp member
    have moved := ih isIn first form
    exact moved
  | times p r ih =>
    obtain ⟨positive, body⟩ := Bool.and_eq_true_iff.mp form
    obtain ⟨first, taken, rest⟩ := (chain_of_times member).2 (of_decide_eq_true positive)
    have moved := ih isIn taken body
    have forward := (extends_chain (fun _ _ => ends_extends) (ends_extends isIn taken).isIn rest).forward
    omega

theorem chain_first {c : Char} {p : Pattern}
    (step : ∀ s s', s.IsIn t → s' ∈ p.ends ignoreCase s → s.cursor.position < s'.cursor.position →
      t[s.cursor.position]? ≠ some c)
    {s s' : Attempt} (isIn : s.IsIn t) (chain : Chain ignoreCase p s s')
    (taken : s.cursor.position < s'.cursor.position) : t[s.cursor.position]? ≠ some c := by
  induction chain using Relation.ReflTransGen.head_induction_on with
  | refl => omega
  | @head s next first rest ih =>
    have before := ends_extends isIn first
    by_cases moved : s.cursor.position < next.cursor.position
    · exact step s next isIn first moved
    · have still : next.cursor.position = s.cursor.position := by
        have := before.forward
        omega
      rw [← still]
      exact ih before.isIn (by omega)

theorem chain_last {c : Char} {p : Pattern}
    (step : ∀ s s', s.IsIn t → s' ∈ p.ends ignoreCase s → s.cursor.position < s'.cursor.position →
      t[s'.cursor.position - 1]? ≠ some c)
    {s s' : Attempt} (isIn : s.IsIn t) (chain : Chain ignoreCase p s s')
    (taken : s.cursor.position < s'.cursor.position) : t[s'.cursor.position - 1]? ≠ some c := by
  induction chain with
  | refl => omega
  | @tail previous s' before last ih =>
    have earlier := extends_chain (fun _ _ => ends_extends) isIn before
    by_cases moved : previous.cursor.position < s'.cursor.position
    · exact step previous s' earlier.isIn last moved
    · have still : s'.cursor.position = previous.cursor.position := by
        have := (ends_extends earlier.isIn last).forward
        omega
      rw [still]
      exact ih (by omega)

theorem neverOpensWith_sound {c : Char} {p : Pattern} {s s' : Attempt} (isIn : s.IsIn t)
    (member : s' ∈ p.ends ignoreCase s) (form : p.neverOpensWith ignoreCase c = true)
    (taken : s.cursor.position < s'.cursor.position) : t[s.cursor.position]? ≠ some c := by
  induction p generalizing s s' with
  | empty =>
    rw [List.mem_singleton.mp member] at taken
    omega
  | anchor condition =>
    rw [ends] at member
    split at member
    · rw [List.mem_singleton.mp member] at taken
      omega
    · cases member
  | one cls =>
    obtain ⟨_, _, d, char, accepted⟩ := mem_one isIn member
    rw [char]
    rintro ⟨rfl⟩
    simp [neverOpensWith, accepted] at form
  | many cls r =>
    obtain ⟨k, _, _, accepted, rfl⟩ := mem_many isIn member
    simp only [Cursor.at_position] at taken
    obtain ⟨d, char, accepted⟩ := accepted 0 (by omega)
    rw [Nat.add_zero] at char
    rw [char]
    rintro ⟨rfl⟩
    simp [neverOpensWith, accepted] at form
  | seq p q ihp ihq =>
    obtain ⟨middle, first, second⟩ := List.mem_flatMap.mp member
    obtain ⟨left, right⟩ := Bool.and_eq_true_iff.mp form
    have before := ends_extends isIn first
    by_cases moved : s.cursor.position < middle.cursor.position
    · exact ihp isIn first left moved
    · have still : middle.cursor.position = s.cursor.position := by
        have := before.forward
        omega
      rcases Bool.or_eq_true_iff.mp right with consumed | later
      · exact absurd (consumes_sound isIn first consumed) moved
      · rw [← still]
        exact ihq before.isIn second later (by omega)
  | alt p q ihp ihq =>
    obtain ⟨left, right⟩ := Bool.and_eq_true_iff.mp form
    rcases List.mem_append.mp member with first | second
    · exact ihp isIn first left taken
    · exact ihq isIn second right taken
  | group n p ih =>
    obtain ⟨inner, first, rfl⟩ := List.mem_map.mp member
    exact ih isIn first form taken
  | times p r ih => exact chain_first (fun _ _ isIn first => ih isIn first form) isIn (chain_of_times member).1 taken

theorem neverClosesWith_sound {c : Char} {p : Pattern} {s s' : Attempt} (isIn : s.IsIn t)
    (member : s' ∈ p.ends ignoreCase s) (form : p.neverClosesWith ignoreCase c = true)
    (taken : s.cursor.position < s'.cursor.position) : t[s'.cursor.position - 1]? ≠ some c := by
  induction p generalizing s s' with
  | empty =>
    rw [List.mem_singleton.mp member] at taken
    omega
  | anchor condition =>
    rw [ends] at member
    split at member
    · rw [List.mem_singleton.mp member] at taken
      omega
    · cases member
  | one cls =>
    obtain ⟨moved, _, d, char, accepted⟩ := mem_one isIn member
    rw [moved, Nat.add_sub_cancel, char]
    rintro ⟨rfl⟩
    simp [neverClosesWith, accepted] at form
  | many cls r =>
    obtain ⟨k, _, _, accepted, rfl⟩ := mem_many isIn member
    simp only [Cursor.at_position] at taken ⊢
    obtain ⟨d, char, accepted⟩ := accepted (k - 1) (by omega)
    have same : s.cursor.position + k - 1 = s.cursor.position + (k - 1) := by omega
    rw [same, char]
    rintro ⟨rfl⟩
    simp [neverClosesWith, accepted] at form
  | seq p q ihp ihq =>
    obtain ⟨middle, first, second⟩ := List.mem_flatMap.mp member
    obtain ⟨right, left⟩ := Bool.and_eq_true_iff.mp form
    have before := ends_extends isIn first
    by_cases moved : middle.cursor.position < s'.cursor.position
    · exact ihq before.isIn second right moved
    · have still : s'.cursor.position = middle.cursor.position := by
        have := (ends_extends before.isIn second).forward
        omega
      rcases Bool.or_eq_true_iff.mp left with consumed | earlier
      · exact absurd (consumes_sound before.isIn second consumed) moved
      · rw [still]
        exact ihp isIn first earlier (by omega)
  | alt p q ihp ihq =>
    obtain ⟨left, right⟩ := Bool.and_eq_true_iff.mp form
    rcases List.mem_append.mp member with first | second
    · exact ihp isIn first left taken
    · exact ihq isIn second right taken
  | group n p ih =>
    obtain ⟨inner, first, rfl⟩ := List.mem_map.mp member
    have last := ih isIn first form taken
    exact last
  | times p r ih => exact chain_last (fun _ _ isIn first => ih isIn first form) isIn (chain_of_times member).1 taken

/-! ### Groups that are closed -/

theorem binds_sound {n : Nat} {p : Pattern} {s s' : Attempt} (isIn : s.IsIn t) (member : s' ∈ p.ends ignoreCase s)
    (form : p.binds n = true) : ∃ new, s'.captures = new ++ s.captures ∧ ∃ capture ∈ new, capture.1 = n := by
  induction p generalizing s s' with
  | empty => cases form
  | anchor condition => cases form
  | one cls => cases form
  | many cls r => cases form
  | seq p q ihp ihq =>
    obtain ⟨middle, first, second⟩ := List.mem_flatMap.mp member
    have before := ends_extends isIn first
    rcases Bool.or_eq_true_iff.mp form with left | right
    · obtain ⟨new, captures, capture, closed, number⟩ := ihp isIn first left
      obtain ⟨newer, captures', _⟩ := (ends_extends before.isIn second).groups
      exact ⟨newer ++ new, by rw [captures', captures, List.append_assoc], capture, List.mem_append_right _ closed, number⟩
    · obtain ⟨newer, captures', capture, closed, number⟩ := ihq before.isIn second right
      obtain ⟨new, captures, _⟩ := before.groups
      exact ⟨newer ++ new, by rw [captures', captures, List.append_assoc], capture, List.mem_append_left _ closed, number⟩
  | alt p q ihp ihq =>
    obtain ⟨left, right⟩ := Bool.and_eq_true_iff.mp form
    rcases List.mem_append.mp member with first | second
    · exact ihp isIn first left
    · exact ihq isIn second right
  | group k p ih =>
    obtain ⟨inner, first, rfl⟩ := List.mem_map.mp member
    obtain ⟨new, captures, _⟩ := (ends_extends isIn first).groups
    rcases Bool.or_eq_true_iff.mp form with this | nested
    · exact ⟨(k, s.cursor.position, inner.cursor.position) :: new, by rw [captures]; rfl, _, List.mem_cons_self,
        eq_of_beq this⟩
    · obtain ⟨new', captures', capture, closed, number⟩ := ih isIn first nested
      exact ⟨(k, s.cursor.position, inner.cursor.position) :: new', by rw [captures']; rfl, capture,
        List.mem_cons_of_mem _ closed, number⟩
  | times p r ih =>
    obtain ⟨positive, body⟩ := Bool.and_eq_true_iff.mp form
    obtain ⟨first, taken, rest⟩ := (chain_of_times member).2 (of_decide_eq_true positive)
    obtain ⟨new, captures, capture, closed, number⟩ := ih isIn taken body
    obtain ⟨newer, captures', _⟩ := (extends_chain (fun _ _ => ends_extends) (ends_extends isIn taken).isIn rest).groups
    exact ⟨newer ++ new, by rw [captures', captures, List.append_assoc], capture, List.mem_append_right _ closed, number⟩

/-- Every group `n` that is closed on the way starts before the end. -/
def StartsBefore (n : Nat) (s s' : Attempt) : Prop :=
  ∃ new, s'.captures = new ++ s.captures ∧ ∀ capture ∈ new, capture.1 = n → capture.2.1 < s'.cursor.position

theorem startsBefore_refl (n : Nat) (s : Attempt) : StartsBefore n s s :=
  ⟨[], rfl, by simp⟩

theorem startsBefore_trans {n : Nat} {s s' s'' : Attempt} (forward : s'.cursor.position ≤ s''.cursor.position)
    (first : StartsBefore n s s') (second : StartsBefore n s' s'') : StartsBefore n s s'' := by
  obtain ⟨new, captures, early⟩ := first
  obtain ⟨newer, captures', early'⟩ := second
  refine ⟨newer ++ new, by rw [captures', captures, List.append_assoc], fun capture closed number => ?_⟩
  rcases List.mem_append.mp closed with later | earlier
  · exact early' capture later number
  · exact Nat.lt_of_lt_of_le (early capture earlier number) forward

/-- If characters are taken after all groups are closed, then all of them start before the end. -/
theorem startsBefore_of_moved {n : Nat} {s s' s'' : Attempt} (first : Extends t s s')
    (moved : s'.cursor.position < s''.cursor.position) (second : StartsBefore n s' s'') : StartsBefore n s s'' := by
  obtain ⟨new, captures, between⟩ := first.groups
  obtain ⟨newer, captures', early'⟩ := second
  refine ⟨newer ++ new, by rw [captures', captures, List.append_assoc], fun capture closed number => ?_⟩
  rcases List.mem_append.mp closed with later | earlier
  · exact early' capture later number
  · have := between capture earlier
    omega

theorem opensInside_sound {n : Nat} {p : Pattern} {s s' : Attempt} (isIn : s.IsIn t) (member : s' ∈ p.ends ignoreCase s)
    (form : p.opensInside n = true) : StartsBefore n s s' := by
  induction p generalizing s s' with
  | empty =>
    rw [List.mem_singleton.mp member]
    exact startsBefore_refl n s
  | anchor condition =>
    rw [ends] at member
    split at member
    · rw [List.mem_singleton.mp member]
      exact startsBefore_refl n s
    · cases member
  | one cls => exact ⟨[], (mem_one isIn member).2.1, by simp⟩
  | many cls r =>
    obtain ⟨k, _, _, _, rfl⟩ := mem_many isIn member
    exact ⟨[], rfl, by simp⟩
  | seq p q ihp ihq =>
    obtain ⟨middle, first, second⟩ := List.mem_flatMap.mp member
    obtain ⟨left, right⟩ := Bool.and_eq_true_iff.mp form
    have before := ends_extends isIn first
    have later := ihq before.isIn second right
    rcases Bool.or_eq_true_iff.mp left with inside | consumed
    · exact startsBefore_trans (ends_extends before.isIn second).forward (ihp isIn first inside) later
    · exact startsBefore_of_moved before (consumes_sound before.isIn second consumed) later
  | alt p q ihp ihq =>
    obtain ⟨left, right⟩ := Bool.and_eq_true_iff.mp form
    rcases List.mem_append.mp member with first | second
    · exact ihp isIn first left
    · exact ihq isIn second right
  | group k p ih =>
    obtain ⟨inner, first, rfl⟩ := List.mem_map.mp member
    obtain ⟨this, nested⟩ := Bool.and_eq_true_iff.mp form
    obtain ⟨new, captures, early⟩ := ih isIn first nested
    refine ⟨(k, s.cursor.position, inner.cursor.position) :: new, by rw [captures]; rfl, fun capture closed number => ?_⟩
    rcases List.mem_cons.mp closed with rfl | earlier
    · rcases Bool.or_eq_true_iff.mp this with other | consumed
      · exact absurd number (bne_iff_ne.mp other)
      · have moved := consumes_sound isIn first consumed
        exact moved
    · exact early capture earlier number
  | times p r ih =>
    have chain := (chain_of_times member).1
    clear member
    induction chain with
    | refl => exact startsBefore_refl n s
    | @tail previous s' before last again =>
      have earlier := extends_chain (fun _ _ => ends_extends) isIn before
      exact startsBefore_trans (ends_extends earlier.isIn last).forward again (ih earlier.isIn last form)

/-- No group `n` that is closed so far is empty. -/
def Filled (n : Nat) (s : Attempt) : Prop :=
  ∀ capture ∈ s.captures, capture.1 = n → capture.2.1 < capture.2.2

theorem fills_sound {n : Nat} {p : Pattern} {s s' : Attempt} (isIn : s.IsIn t) (member : s' ∈ p.ends ignoreCase s)
    (form : p.fills n = true) (filled : Filled n s) : Filled n s' := by
  induction p generalizing s s' with
  | empty =>
    rw [List.mem_singleton.mp member]
    exact filled
  | anchor condition =>
    rw [ends] at member
    split at member
    · rw [List.mem_singleton.mp member]
      exact filled
    · cases member
  | one cls =>
    rw [Filled, (mem_one isIn member).2.1]
    exact filled
  | many cls r =>
    obtain ⟨k, _, _, _, rfl⟩ := mem_many isIn member
    exact filled
  | seq p q ihp ihq =>
    obtain ⟨middle, first, second⟩ := List.mem_flatMap.mp member
    obtain ⟨left, right⟩ := Bool.and_eq_true_iff.mp form
    exact ihq (ends_extends isIn first).isIn second right (ihp isIn first left filled)
  | alt p q ihp ihq =>
    obtain ⟨left, right⟩ := Bool.and_eq_true_iff.mp form
    rcases List.mem_append.mp member with first | second
    · exact ihp isIn first left filled
    · exact ihq isIn second right filled
  | group k p ih =>
    obtain ⟨inner, first, rfl⟩ := List.mem_map.mp member
    obtain ⟨this, nested⟩ := Bool.and_eq_true_iff.mp form
    intro capture closed number
    rcases List.mem_cons.mp closed with rfl | earlier
    · rcases Bool.or_eq_true_iff.mp this with other | consumed
      · exact absurd number (bne_iff_ne.mp other)
      · have moved := consumes_sound isIn first consumed
        exact moved
    · exact ih isIn first nested filled capture earlier number
  | times p r ih =>
    have chain := (chain_of_times member).1
    clear member
    induction chain with
    | refl => exact filled
    | @tail previous s' before last again =>
      exact ih (extends_chain (fun _ _ => ends_extends) isIn before).isIn last form again

/-! ### Matches by their form -/

theorem mem_of_lookup {n : Nat} {bounds : Nat × Nat} {captures : List (Nat × Nat × Nat)}
    (found : captures.lookup n = some bounds) : (n, bounds) ∈ captures := by
  obtain ⟨l₁, l₂, split, _⟩ := List.lookup_eq_some_iff.mp found
  rw [split]
  simp

/-- Matches of a pattern begin and end on a line, and have a group `n` that starts before the match ends. -/
def reportsOnLines (ignoreCase : Bool) (n : Nat) (p : Pattern) : Bool :=
  p.consumes && p.neverOpensWith ignoreCase '\n' && p.neverClosesWith ignoreCase '\n' && p.binds n && p.opensInside n

theorem consumes_of_reportsOnLines {n : Nat} {p : Pattern} (form : p.reportsOnLines ignoreCase n = true) : p.consumes = true := by
  simp only [reportsOnLines, Bool.and_eq_true] at form
  exact form.1.1.1.1

/-- Where a match and its group `n` stand in a text: neither the first nor the last character of the match is a newline, and
    the group lies in the match and starts before its end. -/
structure Placed (t : Text) (n : Nat) (m : Match) : Prop where
  nonempty : m.start < m.stop
  inside : m.stop ≤ t.length
  first : t[m.start]? ≠ some '\n'
  last : t[m.stop - 1]? ≠ some '\n'
  group : ∃ start stop, m.group? n = some (start, stop) ∧ m.start ≤ start ∧ start ≤ stop ∧ stop ≤ m.stop ∧ start < m.stop

theorem IsMatch.placed {p : Pattern} {n : Nat} {m : Match} (found : IsMatch ignoreCase p t m) (positive : 0 < n)
    (form : p.reportsOnLines ignoreCase n = true) : Placed t n m := by
  obtain ⟨inside, s, member, stop, captures⟩ := found
  obtain ⟨⟨⟨⟨consumed, opens⟩, closes⟩, bound⟩, early⟩ : (((p.consumes = true ∧
      p.neverOpensWith ignoreCase '\n' = true) ∧ p.neverClosesWith ignoreCase '\n' = true) ∧ p.binds n = true) ∧
      p.opensInside n = true := by
    simpa only [reportsOnLines, Bool.and_eq_true] using form
  have isIn : (⟨Cursor.at t m.start, []⟩ : Attempt).IsIn t := ⟨rfl, inside⟩
  have after := ends_extends isIn member
  have moved : m.start < s.cursor.position := consumes_sound isIn member consumed
  obtain ⟨new, captures', between⟩ := after.groups
  obtain ⟨new₁, captures₁, capture, closed, number⟩ := binds_sound isIn member bound
  obtain ⟨new₂, captures₂, starts⟩ := opensInside_sound isIn member early
  rw [List.append_nil] at captures' captures₁ captures₂
  rw [← captures'] at between
  rw [← captures₁] at closed
  rw [← captures₂] at starts
  obtain ⟨bounds, looked⟩ : ∃ bounds, m.captures.lookup n = some bounds := by
    rw [captures]
    refine Option.isSome_iff_exists.mp (List.lookup_isSome_iff.mpr ⟨capture, closed, ?_⟩)
    rw [number]
    exact beq_self_eq_true n
  have taken : (n, bounds) ∈ s.captures := captures ▸ mem_of_lookup looked
  have place := between _ taken
  have start := starts _ taken rfl
  refine ⟨stop ▸ moved, stop ▸ after.isIn.2, neverOpensWith_sound isIn member opens moved, ?_, bounds.1, bounds.2, ?_, ?_⟩
  · rw [stop]
    exact neverClosesWith_sound isIn member closes moved
  · rw [Match.group?, if_neg (by omega), looked]
  · simp only [Cursor.at_position] at place
    rw [stop]
    exact ⟨place.1, place.2.1, place.2.2, start⟩

/-- A group that is never empty is none in any match. -/
theorem IsMatch.filled {p : Pattern} {n start stop : Nat} {m : Match} (found : IsMatch ignoreCase p t m) (positive : 0 < n)
    (form : p.fills n = true) (group : m.group? n = some (start, stop)) : start < stop := by
  obtain ⟨inside, s, member, _, captures⟩ := found
  have isIn : (⟨Cursor.at t m.start, []⟩ : Attempt).IsIn t := ⟨rfl, inside⟩
  have filled : Filled n s := fills_sound isIn member form (by simp [Filled])
  rw [Match.group?, if_neg (by omega), captures] at group
  exact filled _ (mem_of_lookup group) rfl

/-- A match does not end before it starts, and ends in the text. -/
theorem IsMatch.within {p : Pattern} {m : Match} (found : IsMatch ignoreCase p t m) : m.start ≤ m.stop ∧ m.stop ≤ t.length := by
  obtain ⟨inside, s, member, stop, _⟩ := found
  have after := ends_extends (show (⟨Cursor.at t m.start, []⟩ : Attempt).IsIn t from ⟨rfl, inside⟩) member
  rw [stop]
  exact ⟨after.forward, after.isIn.2⟩

/-- Every group of a match lies in the match. -/
theorem IsMatch.group_within {p : Pattern} {m : Match} (found : IsMatch ignoreCase p t m) {number start stop : Nat}
    (group : m.group? number = some (start, stop)) : m.start ≤ start ∧ start ≤ stop ∧ stop ≤ m.stop := by
  have forward := found.within.1
  obtain ⟨inside, s, member, stopEq, captures⟩ := found
  have after := ends_extends (show (⟨Cursor.at t m.start, []⟩ : Attempt).IsIn t from ⟨rfl, inside⟩) member
  obtain ⟨new, captures', between⟩ := after.groups
  rw [List.append_nil] at captures'
  rw [Match.group?] at group
  split at group
  · cases group
    omega
  · rw [captures, captures'] at group
    rw [stopEq]
    exact between _ (mem_of_lookup group)

/-- Every group of a match lies in the text. -/
theorem IsMatch.group_inside {p : Pattern} {m : Match} (found : IsMatch ignoreCase p t m) {number start stop : Nat}
    (group : m.group? number = some (start, stop)) :
    start ≤ stop ∧ stop ≤ t.length := by
  have within := found.group_within group
  exact ⟨within.2.1, Nat.le_trans within.2.2 found.within.2⟩

end CMakeLint.Pattern
