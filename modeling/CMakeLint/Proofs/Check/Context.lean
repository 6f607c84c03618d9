import CMakeLint.Proofs.Check.Report

/-!
Issues without a context. A draft that says which part of the text is to be shown may name its span for it, and becomes an issue
whenever the span starts in the text (`issue_of_span`); nothing in it is highlighted, since the span ends what is shown. A draft that
says nothing has its span for context as well while its parts are checked, but is refused after that, so that the two differ
exactly where the first one is an issue (`issue_without_context`).
-/
namespace CMakeLint

/-- No text is found in its own grid, which ends with it. -/
theorem Grid.find_self (t indent : Text) (lineNumber : Option Int) : (Grid.ofText t indent lineNumber).find? t = none := by
  rw [Option.eq_none_iff_forall_ne_some]
  intro region found
  obtain ⟨_, k, _, _, first, _⟩ := Grid.find_eq_some_iff.mp found
  have more := first.more
  rw [Grid.characters_ofText, Grid.placed_chars] at more
  omega

namespace Draft

variable {check : Check} {path : Path} {t : Text} {span : Span} {description : Option Text}

theorem issue_of_span (nonempty : t ≠ []) (starts : span.start ≤ t.length) :
    Draft.issue ⟨some check, some path, some t, some span, description, some span⟩ =
      .ok ⟨check, some path, t, span, span, description, .ofOffset t span.start,
        .ofText (span.of t) (reportIndent ++ reportIndent) (some (Position.ofOffset t span.start).line)⟩ := by
  rw [issue_eq description nonempty starts (Nat.le_refl _) (Nat.le_refl _), Issue.highlight, Grid.find_self]
  rfl

theorem issue_of_no_context (nonempty : t ≠ []) (starts : span.start ≤ t.length) :
    Draft.issue ⟨some check, some path, some t, some span, description, none⟩ = .error .contextMissing := by
  have nonempty : t.isEmpty = false := List.isEmpty_eq_false_iff.mpr nonempty
  simp only [Draft.issue, Draft.part, bind, Except.bind, Option.filter, nonempty, Bool.not_false, ↓reduceIte,
    Option.getD_none, Nat.lt_irrefl, Text.positionAt_ok starts]

/-- A span that starts after the end of the text is refused before its context is asked for. -/
theorem issue_of_late_span {context : Option Span} (same : context.getD span = span) (nonempty : t ≠ [])
    (late : t.length < span.start) :
    Draft.issue ⟨some check, some path, some t, some span, description, context⟩ = .error .positionOutOfText := by
  have nonempty : t.isEmpty = false := List.isEmpty_eq_false_iff.mpr nonempty
  simp only [Draft.issue, Draft.part, bind, Except.bind, Option.filter, nonempty, Bool.not_false, ↓reduceIte, same,
    Nat.lt_irrefl, Text.positionAt_late late]

/-- A draft with all parts but a context is never an issue, whereas its span may stand for the context: that is an issue as soon as
    the span starts in the text, with the characters of the span for its grid and no highlight. So saying nothing and naming the
    span are the same only where both are refused. -/
theorem issue_without_context (check : Check) (path : Path) (t : Text) (span : Span) (description : Option Text) :
    (t ≠ [] → span.start ≤ t.length →
      Draft.issue ⟨some check, some path, some t, some span, description, none⟩ = .error .contextMissing ∧
      Draft.issue ⟨some check, some path, some t, some span, description, some span⟩ =
        .ok ⟨check, some path, t, span, span, description, .ofOffset t span.start,
          .ofText (span.of t) (reportIndent ++ reportIndent) (some (Position.ofOffset t span.start).line)⟩) ∧
    (Draft.issue ⟨some check, some path, some t, some span, description, none⟩ =
        Draft.issue ⟨some check, some path, some t, some span, description, some span⟩ ↔
      t = [] ∨ t.length < span.start) := by
  refine ⟨fun nonempty starts => ⟨issue_of_no_context nonempty starts, issue_of_span nonempty starts⟩, ?_⟩
  by_cases nonempty : t ≠ []
  · by_cases starts : span.start ≤ t.length
    · rw [issue_of_no_context nonempty starts, issue_of_span nonempty starts]
      constructor
      · intro same
        cases same
      · rintro (empty | late)
        · exact absurd empty nonempty
        · exact absurd starts (Nat.not_le_of_lt late)
    · have late := Nat.lt_of_not_le starts
      rw [issue_of_late_span rfl nonempty late, issue_of_late_span rfl nonempty late]
      exact iff_of_true rfl (.inr late)
  · obtain rfl := not_not.mp nonempty
    exact iff_of_true rfl (.inl rfl)

/-- The name of a library is no issue without a context, and with itself for context it is one. -/
theorem name_without_context :
    Draft.issue ⟨some .libraryType, some (.ofText "a.cmake".toList), some "add_library(foo)\n".toList, some ⟨12, 3⟩, none, none⟩ =
      .error .contextMissing ∧
    ∃ i, Draft.issue ⟨some .libraryType, some (.ofText "a.cmake".toList), some "add_library(foo)\n".toList, some ⟨12, 3⟩, none,
        some ⟨12, 3⟩⟩ = .ok i ∧ i.position = ⟨1, 13⟩ ∧ i.grid.texts = ["foo".toList] := by
  obtain ⟨refused, made⟩ := (issue_without_context .libraryType (.ofText "a.cmake".toList) "add_library(foo)\n".toList ⟨12, 3⟩
    none).1 (by decide) (by decide)
  exact ⟨refused, _, made, by decide +kernel, by decide +kernel⟩

end Draft

end CMakeLint
