import CMakeLint.Text.Basic
import Mathlib.Data.List.Infix

/-!
Placeholders in a text: a backslash and a character. `substitute` puts other texts in place of all placeholders at once, and
`replaceAll` is the case of a single placeholder (`replaceAll_placeholder`). One substitution after another is both of them at once if
the second is inert on what the first inserts (`substitute_substitute`), and that condition cannot be weakened
(`inert_of_substitute`).
-/
namespace CMakeLint.Text

/-- A backslash and the character that says what is to stand in place of both. -/
def placeholder (c : Char) : Text :=
  ['\\', c]

/-- A text with other texts in place of its placeholders, all of them at once. -/
def substitute (insert? : Char → Option Text) : Text → Text
  | [] => []
  | [c] => [c]
  | c :: d :: t =>
    match (if c = '\\' then insert? d else none) with
    | some w => w ++ substitute insert? t
    | none => c :: substitute insert? (d :: t)

variable {insert? : Char → Option Text} {c : Char} {t u w : Text}

/-! ### Steps of a substitution -/

theorem substitute_placeholder (given : insert? c = some w) (t : Text) :
    substitute insert? ('\\' :: c :: t) = w ++ substitute insert? t := by
  simp [substitute, given]

theorem substitute_cons (free : c = '\\' → ∀ d, t.head? = some d → insert? d = none) :
    substitute insert? (c :: t) = c :: substitute insert? t := by
  cases t with
  | nil => rfl
  | cons d t =>
    by_cases backslash : c = '\\'
    · simp [substitute, free backslash d rfl]
    · simp [substitute, backslash]

theorem substitute_cons_of_ne (other : c ≠ '\\') (t : Text) : substitute insert? (c :: t) = c :: substitute insert? t :=
  substitute_cons fun backslash => absurd backslash other

theorem substitute_backslash_cons (missing : insert? c = none) (t : Text) :
    substitute insert? ('\\' :: c :: t) = '\\' :: substitute insert? (c :: t) :=
  substitute_cons fun _ _ head => Option.some_inj.mp head ▸ missing

/-- A text is empty, starts with a placeholder that is given a text, or starts with a character that stays. -/
@[elab_as_elim]
theorem placeholder_induction (insert? : Char → Option Text) {motive : Text → Prop} (nil : motive [])
    (placed : ∀ c w t, insert? c = some w → motive t → motive ('\\' :: c :: t))
    (cons : ∀ c t, (c = '\\' → ∀ d, t.head? = some d → insert? d = none) → motive t → motive (c :: t)) (t : Text) : motive t := by
  fun_induction substitute insert? t with
  | case1 => exact nil
  | case2 c => exact cons c [] (by simp) nil
  | case3 c d t w given ih =>
    split at given
    · rename_i backslash
      exact backslash ▸ placed d w t given ih
    · cases given
  | case4 c d t given ih =>
    refine cons c (d :: t) ?_ ih
    rintro rfl e head
    rw [List.head?_cons, Option.some_inj] at head
    rwa [if_pos rfl, head] at given

/-- A substitution is about the placeholders that occur in the text. -/
theorem substitute_congr {other? : Char → Option Text} (same : ∀ c, placeholder c <:+: t → insert? c = other? c) :
    substitute insert? t = substitute other? t := by
  induction t using placeholder_induction insert? with
  | nil => rfl
  | placed c w t given ih =>
    have given' : other? c = some w := by rw [← same c (List.prefix_append [_, _] t).isInfix, given]
    rw [substitute_placeholder given, substitute_placeholder given', ih]
    intro d within
    exact same d (within.trans (List.suffix_append ['\\', c] t).isInfix)
  | cons c t free ih =>
    rw [substitute_cons free, substitute_cons, ih]
    · intro d within
      exact same d (within.trans (List.suffix_cons c t).isInfix)
    · rintro rfl d head
      obtain ⟨t, rfl⟩ := List.head?_eq_some_iff.mp head
      rw [← same d (List.prefix_append [_, _] t).isInfix, free rfl d head]

theorem substitute_none (t : Text) : substitute (fun _ => none) t = t := by
  induction t using placeholder_induction fun _ => none with
  | nil => rfl
  | placed c w t given ih => cases given
  | cons c t free ih => rw [substitute_cons free, ih]

/-- A text without placeholders stays as it is. -/
theorem substitute_of_not_asked (unasked : ∀ c, placeholder c <:+: t → insert? c = none) : substitute insert? t = t :=
  (substitute_congr unasked).trans (substitute_none t)

/-- To replace one placeholder is to substitute for it alone. -/
theorem replaceAll_placeholder (c : Char) (w t : Text) :
    replaceAll (placeholder c) w t = substitute (fun d => if d = c then some w else none) t := by
  rw [replaceAll]
  induction t using placeholder_induction fun d => if d = c then some w else none with
  | nil => rfl
  | placed d v t given ih =>
    obtain ⟨rfl, rfl⟩ : d = c ∧ w = v := by simpa using given
    rw [substitute_placeholder given, ← ih]
    simp [replaceFrom, placeholder]
  | cons d t free ih =>
    have other : (placeholder c).isPrefixOf (d :: t) = false := by
      rw [← Bool.not_eq_true, List.isPrefixOf_iff_prefix, placeholder, List.cons_prefix_cons]
      rintro ⟨rfl, rest, rfl⟩
      simpa using free rfl c rfl
    rw [substitute_cons free, ← ih, replaceFrom, other]
    rfl

/-! ### Two texts beside each other -/

theorem ne_backslash (plain : insert? '\\' = none) (given : insert? c = some w) : c ≠ '\\' := by
  rintro rfl
  rw [plain] at given
  cases given

/-- A backslash stays if no placeholder starts with it, or only one that stands for itself. -/
theorem substitute_backslash (plain : insert? '\\' = none)
    (apart : ∀ c w, t.head? = some c → insert? c = some w → w = placeholder c) :
    substitute insert? ('\\' :: t) = '\\' :: substitute insert? t := by
  cases t with
  | nil => rfl
  | cons c t =>
    cases given : insert? c with
    | none => exact substitute_cons fun _ d head => Option.some_inj.mp head ▸ given
    | some w =>
      have other := ne_backslash plain given
      rw [substitute_placeholder given, apart c w rfl given, substitute_cons_of_ne other]
      rfl

/-- Texts are substituted in apart from each other if no placeholder begins in the first and ends in the second. -/
theorem substitute_append (plain : insert? '\\' = none)
    (apart : u.getLast? = some '\\' → ∀ c w, t.head? = some c → insert? c = some w → w = placeholder c) :
    substitute insert? (u ++ t) = substitute insert? u ++ substitute insert? t := by
  induction u using placeholder_induction insert? with
  | nil => rfl
  | placed c w u given ih =>
    have last : u.getLast? = some '\\' → ('\\' :: c :: u).getLast? = some '\\' := by
      intro ends
      simp [List.getLast?_cons, ends]
    rw [List.cons_append, List.cons_append, substitute_placeholder given, substitute_placeholder given,
      ih fun ends => apart (last ends), List.append_assoc]
  | cons c u free ih =>
    cases u with
    | nil =>
      by_cases backslash : c = '\\'
      · subst backslash
        exact substitute_backslash plain (apart rfl)
      · exact substitute_cons_of_ne backslash t
    | cons d u =>
      have last : (d :: u).getLast? = some '\\' → (c :: d :: u).getLast? = some '\\' := by
        intro ends
        rw [List.getLast?_cons_cons, ends]
      rw [substitute_cons free, List.cons_append, substitute_cons, ih fun ends => apart (last ends), List.cons_append]
      exact free

/-! ### One substitution after another -/

/-- A substitution leaves a text as it is wherever the text stands: it has no placeholders of its own, and what stands beside it makes
    none together with it. A placeholder that stands for itself does no harm. -/
structure Inert (insert? : Char → Option Text) (w : Text) : Prop where
  kept : substitute insert? w = w
  edges : ∀ c v, insert? c = some v → v ≠ placeholder c → w ≠ [] ∧ w.head? ≠ some c ∧ w.getLast? ≠ some '\\'

variable {first? later? : Char → Option Text}

theorem Inert.substitute_append (inert : Inert insert? w) (plain : insert? '\\' = none) (t : Text) :
    substitute insert? (w ++ t) = w ++ substitute insert? t := by
  have apart : w.getLast? = some '\\' → ∀ c v, t.head? = some c → insert? c = some v → v = placeholder c := by
    intro ends c v _ given
    by_contra other
    exact (inert.edges c v given other).2.2 ends
  rw [Text.substitute_append plain apart, inert.kept]

theorem Inert.substitute_backslash (inert : Inert insert? w) (plain : insert? '\\' = none) (t : Text) :
    substitute insert? ('\\' :: (w ++ t)) = '\\' :: substitute insert? (w ++ t) := by
  refine Text.substitute_backslash plain ?_
  intro c v head given
  by_contra other
  obtain ⟨filled, start, _⟩ := inert.edges c v given other
  rw [List.head?_append_of_ne_nil _ filled] at head
  exact start head

/-- A backslash that the first of two substitutions leaves: what the first makes of the text behind it decides about the second. -/
theorem substitute_substitute_backslash (plain : later? '\\' = none)
    (inert : ∀ c w, first? c = some w → placeholder c <:+: t → Inert later? w)
    (free : ∀ c, t.head? = some c → first? c = none)
    (same : substitute later? (substitute first? t) = substitute (fun c => (first? c).or (later? c)) t) :
    substitute later? ('\\' :: substitute first? t) = substitute (fun c => (first? c).or (later? c)) ('\\' :: t) := by
  induction t using placeholder_induction first? with
  | nil => rfl
  | placed c w t given _ =>
    have missing : (first? '\\').or (later? '\\') = none := by rw [free '\\' rfl, plain, Option.none_or]
    have inertW : Inert later? w := inert c w given (List.prefix_append ['\\', c] t).isInfix
    rw [substitute_placeholder given] at same ⊢
    rw [inertW.substitute_backslash plain, same]
    exact (substitute_backslash_cons missing (c :: t)).symm
  | cons c t stays _ =>
    have missing : first? c = none := free c rfl
    rw [substitute_cons stays] at same ⊢
    cases given : later? c with
    | none =>
      have both : (first? c).or (later? c) = none := by rw [missing, given, Option.none_or]
      rw [substitute_backslash_cons given, same]
      exact (substitute_backslash_cons both t).symm
    | some v =>
      have both : (first? c).or (later? c) = some v := by rw [missing, given, Option.none_or]
      have other := ne_backslash plain given
      rw [substitute_cons_of_ne other, substitute_cons_of_ne other, List.cons_inj_right] at same
      rw [substitute_placeholder given, same]
      exact (substitute_placeholder both t).symm

/-- One substitution after another is both of them at once, if the second is inert on what the first inserts. -/
theorem substitute_substitute (plain : later? '\\' = none)
    (inert : ∀ c w, first? c = some w → placeholder c <:+: t → Inert later? w) :
    substitute later? (substitute first? t) = substitute (fun c => (first? c).or (later? c)) t := by
  induction t using placeholder_induction first? with
  | nil => rfl
  | placed c w t given ih =>
    have both : (first? c).or (later? c) = some w := by rw [given, Option.some_or]
    have inertW : Inert later? w := inert c w given (List.prefix_append ['\\', c] t).isInfix
    rw [substitute_placeholder given, inertW.substitute_append plain,
      ih fun d v given' within => inert d v given' (within.trans (List.suffix_append ['\\', c] t).isInfix)]
    exact (substitute_placeholder both t).symm
  | cons c t free ih =>
    have inertT : ∀ d v, first? d = some v → placeholder d <:+: t → Inert later? v :=
      fun d v given within => inert d v given (within.trans (List.suffix_cons c t).isInfix)
    rw [substitute_cons free]
    by_cases backslash : c = '\\'
    · subst backslash
      exact substitute_substitute_backslash plain inertT (free rfl) (ih inertT)
    · rw [substitute_cons_of_ne backslash, substitute_cons_of_ne backslash, ih inertT]

/-- A substitution is inert on a text that it leaves as it is alone, behind a backslash, before one more character and between
    both. -/
theorem inert_of_kept (plain : insert? '\\' = none)
    (after : ∀ r : Text, r.length ≤ 1 → substitute insert? (w ++ r) = w ++ r)
    (between : ∀ r : Text, r.length ≤ 1 → substitute insert? ('\\' :: (w ++ r)) = '\\' :: (w ++ r)) : Inert insert? w := by
  have kept : substitute insert? w = w := by simpa using after [] (Nat.zero_le 1)
  refine ⟨kept, ?_⟩
  intro c v given other
  have letter := ne_backslash plain given
  refine ⟨?_, ?_, ?_⟩
  · rintro rfl
    have pair := between [c] (Nat.le_refl 1)
    rw [List.nil_append, substitute_placeholder given] at pair
    exact other (by simpa [substitute, placeholder] using pair)
  · intro head
    obtain ⟨u, rfl⟩ := List.head?_eq_some_iff.mp head
    have behind := between [] (Nat.zero_le 1)
    rw [substitute_cons_of_ne letter, List.cons_inj_right] at kept
    rw [List.append_nil, substitute_placeholder given, kept] at behind
    exact other (List.append_cancel_right (show v ++ u = placeholder c ++ u from behind))
  · intro last
    obtain ⟨u, rfl⟩ := List.getLast?_eq_some_iff.mp last
    -- A backslash ends no placeholder, so the part before it is substituted in on its own.
    have split : ∀ r, substitute insert? (u ++ '\\' :: r) = substitute insert? u ++ substitute insert? ('\\' :: r) := by
      intro r
      refine substitute_append plain ?_
      intro _ d x head given'
      rw [← Option.some_inj.mp head, plain] at given'
      cases given'
    have before := after [c] (Nat.le_refl 1)
    have same : substitute insert? u = u := by
      rw [split] at kept
      exact List.append_cancel_right kept
    rw [List.append_assoc, List.singleton_append, split, same, substitute_placeholder given] at before
    exact other (by simpa [substitute, placeholder] using before)

theorem substitute_short (insert? : Char → Option Text) {r : Text} (short : r.length ≤ 1) : substitute insert? r = r := by
  refine substitute_of_not_asked ?_
  intro c within
  exact absurd (Nat.le_trans within.length_le short) (by simp [placeholder])

theorem eq_of_asked {r : Text} (letter : c ≠ '\\') (short : r.length ≤ 1) {d : Char}
    (within : placeholder d <:+: '\\' :: c :: r) : d = c := by
  rcases List.infix_cons_iff.mp within with start | later
  · rw [placeholder, List.cons_prefix_cons, List.cons_prefix_cons] at start
    exact start.2.1
  rcases List.infix_cons_iff.mp later with start | last
  · rw [placeholder, List.cons_prefix_cons] at start
    exact absurd start.1.symm letter
  · exact absurd (Nat.le_trans last.length_le short) (by simp [placeholder])

/-- If two substitutions in turn do what one does, in all texts that ask for nothing but `c`, then the second is inert on what the
    first inserts for `c`. -/
theorem inert_of_substitute {both? : Char → Option Text} (plain : later? '\\' = none) (plainFirst : first? '\\' = none)
    (plainBoth : both? '\\' = none) (given : first? c = some w) (givenBoth : both? c = some w)
    (agree : ∀ t, (∀ d, placeholder d <:+: t → d = c ∨ d = '\\') →
      substitute later? (substitute first? t) = substitute both? t) : Inert later? w := by
  have letter := ne_backslash plainFirst given
  refine inert_of_kept plain ?_ ?_
  · intro r short
    have same := agree ('\\' :: c :: r) fun d within => .inl (eq_of_asked letter short within)
    rwa [substitute_placeholder given, substitute_placeholder givenBoth, substitute_short _ short,
      substitute_short _ short] at same
  · intro r short
    have same := agree ('\\' :: '\\' :: c :: r) ?_
    · rwa [substitute_backslash_cons plainFirst, substitute_backslash_cons plainBoth, substitute_placeholder given,
        substitute_placeholder givenBoth, substitute_short _ short, substitute_short _ short] at same
    · intro d within
      rcases List.infix_cons_iff.mp within with start | later
      · rw [placeholder, List.cons_prefix_cons, List.cons_prefix_cons] at start
        exact .inr start.2.1
      · exact .inl (eq_of_asked letter short later)

end CMakeLint.Text
