import Mathlib.Data.List.Forall2
import Mathlib.Data.List.Perm.Basic

/-!
Facts about lists and results of which several modules make use: what a list of results is made of (`mapM_ok`, `mapM_error`),
lists whose members belong together one by one, lists put together of parts, and lists that are short.
-/
namespace CMakeLint

/-! ### Results -/

section Results

variable {ε α β γ : Type} {f : α → Except ε β}

theorem bind_eq_ok {x : Except ε α} {b : β} : (x >>= f) = .ok b ↔ ∃ a, x = .ok a ∧ f a = .ok b := by
  cases x with
  | error e => simp [bind, Except.bind]
  | ok a => simp [bind, Except.bind]

theorem map_eq_ok {x : Except ε α} {g : α → β} {b : β} (made : x.map g = .ok b) : ∃ a, x = .ok a ∧ g a = b := by
  cases x with
  | error e => cases made
  | ok a =>
    cases made
    exact ⟨a, rfl, rfl⟩

theorem mapM_ok {l : List α} {bs : List β} (made : l.mapM f = .ok bs) : List.Forall₂ (fun a b => f a = .ok b) l bs := by
  induction l generalizing bs with
  | nil =>
    cases made
    exact .nil
  | cons a rest ih =>
    rw [List.mapM_cons] at made
    obtain ⟨b, first, made⟩ := bind_eq_ok.mp made
    obtain ⟨bs, later, made⟩ := bind_eq_ok.mp made
    cases made
    exact .cons first (ih later)

theorem mapM_of_forall₂ {l : List α} {m : List β} (related : List.Forall₂ (fun a b => f a = .ok b) l m) : l.mapM f = .ok m := by
  induction related with
  | nil => rfl
  | cons here rest ih =>
    rw [List.mapM_cons, here, ih]
    rfl

theorem mapM_error {l : List α} {e : ε} (failed : l.mapM f = .error e) : ∃ a ∈ l, f a = .error e := by
  induction l with
  | nil => cases failed
  | cons a rest ih =>
    rw [List.mapM_cons] at failed
    cases first : f a with
    | error e' =>
      rw [first] at failed
      cases failed
      exact ⟨a, List.mem_cons_self, first⟩
    | ok b =>
      rw [first] at failed
      cases later : rest.mapM f with
      | error e' =>
        rw [later] at failed
        cases failed
        obtain ⟨a', member, error⟩ := ih later
        exact ⟨a', List.mem_cons_of_mem _ member, error⟩
      | ok bs =>
        rw [later] at failed
        cases failed

theorem forall₂_of_map_ok {f' : α → Except ε γ} {g : β → γ} {l : List α} {m : List γ}
    (related : List.Forall₂ (fun a c => f' a = .ok c) l m) (same : ∀ a ∈ l, f' a = (f a).map g) :
    ∃ bs, List.Forall₂ (fun a b => f a = .ok b) l bs ∧ m = bs.map g := by
  induction related with
  | nil => exact ⟨[], .nil, rfl⟩
  | @cons a c l m here rest ih =>
    obtain ⟨bs, tail, rfl⟩ := ih fun a member => same a (List.mem_cons_of_mem _ member)
    rw [same a List.mem_cons_self] at here
    obtain ⟨b, made, rfl⟩ := map_eq_ok here
    exact ⟨b :: bs, .cons made tail, rfl⟩

end Results

/-! ### Lists that belong together -/

section Related

variable {α β γ : Type} {R : α → β → Prop} {l : List α} {m : List β}

theorem forall₂_mem_left (related : List.Forall₂ R l m) {a : α} (member : a ∈ l) : ∃ b ∈ m, R a b := by
  induction related with
  | nil => cases member
  | cons first _ ih =>
    rcases List.mem_cons.mp member with rfl | later
    · exact ⟨_, List.mem_cons_self, first⟩
    · obtain ⟨b, member', relates⟩ := ih later
      exact ⟨b, List.mem_cons_of_mem _ member', relates⟩

theorem forall₂_mem_right (related : List.Forall₂ R l m) {b : β} (member : b ∈ m) : ∃ a ∈ l, R a b :=
  forall₂_mem_left related.flip member

theorem forall₂_filter {keep : α → Bool} {keep' : β → Bool} (related : List.Forall₂ R l m)
    (same : ∀ a ∈ l, ∀ b, R a b → keep a = keep' b) : List.Forall₂ R (l.filter keep) (m.filter keep') := by
  induction related with
  | nil => exact .nil
  | @cons a b l m here rest ih =>
    have tail := ih fun a member => same a (List.mem_cons_of_mem _ member)
    have head := same a List.mem_cons_self b here
    cases kept : keep a with
    | true => simpa [kept, ← head] using ⟨here, tail⟩
    | false => simpa [kept, ← head] using tail

theorem exists_append_of_forall₂ {l' : List α} (related : List.Forall₂ R (l ++ l') m) :
    ∃ n n', m = n ++ n' ∧ List.Forall₂ R l n ∧ List.Forall₂ R l' n' := by
  have early := List.forall₂_take l.length related
  have late := List.forall₂_drop l.length related
  rw [List.take_left] at early
  rw [List.drop_left] at late
  exact ⟨_, _, (List.take_append_drop _ _).symm, early, late⟩

/-- What belongs to the members of several lists, list by list. -/
theorem exists_flatten_of_forall₂ {k : List γ} {f : γ → List α} (related : List.Forall₂ R (k.flatMap f) m) :
    ∃ parts, m = parts.flatten ∧ List.Forall₂ (fun c part => List.Forall₂ R (f c) part) k parts := by
  induction k generalizing m with
  | nil =>
    cases related
    exact ⟨[], rfl, .nil⟩
  | cons c k ih =>
    rw [List.flatMap_cons] at related
    obtain ⟨part, rest, rfl, first, later⟩ := exists_append_of_forall₂ related
    obtain ⟨parts, rfl, all⟩ := ih later
    exact ⟨part :: parts, rfl, .cons first all⟩

theorem pairwise_of_forall₂ {S : α → α → Prop} {T : β → β → Prop} (related : List.Forall₂ R l m) (pairwise : l.Pairwise S)
    (step : ∀ a b i j, R a i → R b j → S a b → T i j) : m.Pairwise T := by
  induction related with
  | nil => exact .nil
  | cons first rest ih =>
    obtain ⟨early, late⟩ := List.pairwise_cons.mp pairwise
    refine .cons (fun j member => ?_) (ih late)
    obtain ⟨b, member', reports⟩ := forall₂_mem_right rest member
    exact step _ b _ j first reports (early b member')

end Related

/-! ### Lists of parts -/

section Parts

variable {α β : Type}

theorem filter_flatMap_append {l : List α} {f g : α → List β} {keep : β → Bool} (kept : ∀ b ∈ l.flatMap f, keep b = true)
    (dropped : ∀ b ∈ l.flatMap g, keep b = false) :
    (l.flatMap fun a => f a ++ g a).filter keep = l.flatMap f ∧
      (l.flatMap fun a => f a ++ g a).filter (fun b => !keep b) = l.flatMap g := by
  induction l with
  | nil => exact ⟨rfl, rfl⟩
  | cons a l ih =>
    simp only [List.flatMap_cons, List.mem_append] at kept dropped
    obtain ⟨first, second⟩ := ih (fun b member => kept b (.inr member)) (fun b member => dropped b (.inr member))
    have all : ∀ b ∈ f a, keep b = true := fun b member => kept b (.inl member)
    have none : ∀ b ∈ g a, keep b = false := fun b member => dropped b (.inl member)
    constructor
    · rw [List.flatMap_cons, List.filter_append, List.filter_append, List.filter_eq_self.mpr all,
        List.filter_eq_nil_iff.mpr (by simpa using none), first, List.append_nil, List.flatMap_cons]
    · rw [List.flatMap_cons, List.filter_append, List.filter_append, List.filter_eq_nil_iff.mpr (by simpa using all),
        List.filter_eq_self.mpr (by simpa using none), second, List.nil_append, List.flatMap_cons]

/-- The first member of parts is that of the first part that has one. -/
theorem head_flatMap_range {f : Nat → List β} {n : Nat} {b : β} :
    ((List.range n).flatMap f).head? = some b ↔ ∃ k < n, (f k).head? = some b ∧ ∀ j < k, f j = [] := by
  induction n with
  | zero => simp
  | succ n ih =>
    rw [List.range_succ, List.flatMap_append, List.flatMap_singleton, List.head?_append, Option.or_eq_some_iff, ih,
      List.head?_eq_none_iff, List.flatMap_eq_nil_iff]
    constructor
    · rintro (⟨k, inside, head, none⟩ | ⟨none, head⟩)
      · exact ⟨k, by omega, head, none⟩
      · exact ⟨n, by omega, head, fun j less => none j (List.mem_range.mpr less)⟩
    · rintro ⟨k, inside, head, none⟩
      by_cases last : k = n
      · subst last
        exact .inr ⟨fun j less => none j (List.mem_range.mp less), head⟩
      · exact .inl ⟨k, by omega, head, none⟩

/-- What commutes can be put together in any order. -/
theorem flatMap_eq_of_perm {l l' : List α} (perm : l.Perm l') {f : α → List β} (commute : ∀ a b, f a ++ f b = f b ++ f a) :
    l.flatMap f = l'.flatMap f := by
  induction perm with
  | nil => rfl
  | cons a _ ih => rw [List.flatMap_cons, List.flatMap_cons, ih]
  | swap a b l =>
    simp only [List.flatMap_cons]
    rw [← List.append_assoc, ← List.append_assoc, commute]
  | trans _ _ first second => exact first.trans second

theorem split_of_getElem? {l : List α} {n : Nat} {a : α} (here : l[n]? = some a) :
    ∃ before after, l = before ++ a :: after ∧ before.length = n := by
  obtain ⟨inside, rfl⟩ := List.getElem?_eq_some_iff.mp here
  refine ⟨l.take n, l.drop (n + 1), ?_, ?_⟩
  · rw [← List.drop_eq_getElem_cons inside, List.take_append_drop]
  · rw [List.length_take]
    omega

theorem mapIdx_eq_self {l : List α} {f : Nat → α → α} (same : ∀ i < l.length, ∀ a, f i a = a) : l.mapIdx f = l := by
  refine List.mapIdx_eq_iff.mpr ?_
  intro i
  by_cases inside : i < l.length
  · rw [List.getElem?_eq_getElem inside, Option.map_some, same i inside]
  · rw [List.getElem?_eq_none (by omega)]
    rfl

end Parts

/-! ### Short lists -/

section Short

variable {α : Type} {l : List α} (short : l.length ≤ 1)
include short

theorem pairwise_of_length_le_one {R : α → α → Prop} : l.Pairwise R := by
  rcases l with _ | ⟨a, _ | ⟨b, l⟩⟩
  · exact .nil
  · exact List.pairwise_singleton _ _
  · simp at short

theorem toList_head_of_length_le_one : l.head?.toList = l := by
  rcases l with _ | ⟨a, _ | ⟨b, l⟩⟩
  · rfl
  · rfl
  · simp at short

end Short

end CMakeLint
