import CMakeLint.Proofs.Pattern.Languages
import CMakeLint.Proofs.Pragma

/-!
The grammar of pragmas. Apart from the blanks around it, a pragma is the word for no check, or the name of a tool and the word that
turns it off (`IsDirective`), each letter in upper or lower case. A line has a pragma exactly if one is all that follows its first
number sign (`isOn_iff_directive`).
-/
namespace CMakeLint.Pragma

open Pattern (After Repetition CharClass Member)

/-! ### What a pragma says -/

/-- A word, each letter of it in upper or lower case. -/
def Spells (w : String) (t : Text) : Prop :=
  List.Forall₂ (fun d c => c ∈ Text.caseForms d) w.toList t

/-- What a tool does. -/
def IsVerb (t : Text) : Prop :=
  Spells "lint" t ∨ Spells "check" t

/-- What turns a tool off. -/
def IsAction (t : Text) : Prop :=
  Spells "disable" t ∨ Spells "ignore" t

/-- Spaces, underscores and hyphens, at least one of them. -/
def IsSeparator (t : Text) : Prop :=
  (∀ c ∈ t, c = ' ' ∨ c = '_' ∨ c = '-') ∧ t ≠ []

/-- Colons and blanks, at least one of them. -/
def IsColon (t : Text) : Prop :=
  (∀ c ∈ t, c = ':' ∨ Text.isBlank c = true) ∧ t ≠ []

/-- The name of a tool for CMake, in either order. -/
inductive IsTool : Text → Prop
  | named {cmake separator verb : Text} (isCMake : Spells "cmake" cmake) (separates : IsSeparator separator)
    (isVerb : IsVerb verb) : IsTool (cmake ++ (separator ++ verb))
  | turned {verb separator cmake : Text} (isVerb : IsVerb verb) (separates : IsSeparator separator)
    (isCMake : Spells "cmake" cmake) : IsTool (verb ++ (separator ++ cmake))

/-- What a pragma says, without the blanks around it. -/
inductive IsDirective : Text → Prop
  | off {tool colon action : Text} (isTool : IsTool tool) (isColon : IsColon colon) (isAction : IsAction action) :
    IsDirective (tool ++ (colon ++ action))
  | no {no verb : Text} (isNo : Spells "no" no) (isVerb : IsVerb verb) : IsDirective (no ++ verb)

/-! ### What the pattern takes -/

theorem takes_word_anyCase {w : String} (plain : (w.toList.all Text.plainChars.contains) = true) :
    (Pattern.word w).Takes true (Spells w) := by
  refine (Pattern.takes_literal _).congr fun t => ?_
  rw [Spells, List.forall₂_iff_zip, List.forall₂_iff_zip]
  refine and_congr_right fun _ => forall_congr' fun d => forall_congr' fun c => ?_
  refine imp_congr_right fun paired => ?_
  have listed : d ∈ Text.plainChars := by simpa using List.all_eq_true.mp plain d (List.of_mem_zip paired).1
  rw [← Text.sameIgnoringCase_iff listed]
  simp [CharClass.char, CharClass.accepts, CharClass.contains]

theorem takes_verb : verb.Takes true IsVerb :=
  (takes_word_anyCase (by decide)).alt (takes_word_anyCase (by decide))

theorem takes_action : (Pattern.words ["disable", "ignore"]).Takes true IsAction :=
  (takes_word_anyCase (by decide)).alt (takes_word_anyCase (by decide))

/-- A member of a class that is a sign without case is that sign. -/
theorem acceptsAnyCase_sign {d : Char} (plain : d ∈ Text.plainChars) (single : Text.caseForms d = [d, d])
    (basic : d ≤ Member.basicLast) (c : Char) : Member.acceptsAnyCase c (.char d) = true ↔ c = d := by
  rw [Member.acceptsAnyCase, if_pos basic, Text.sameIgnoringCase_of_single plain single]

theorem takes_separators : separators.Takes true IsSeparator := by
  refine (Pattern.takes_plus _).congr fun w => and_congr_left fun _ => forall_congr' fun c => imp_congr_right fun _ => ?_
  rw [← acceptsAnyCase_sign (d := ' ') (by decide) (by decide) (by decide),
    ← acceptsAnyCase_sign (d := '_') (by decide) (by decide) (by decide),
    ← acceptsAnyCase_sign (d := '-') (by decide) (by decide) (by decide)]
  simp [CharClass.accepts, CharClass.contains]

theorem takes_colon : (Pattern.many ⟨false, [.char ':', .kind .blank]⟩ .plus).Takes true IsColon := by
  refine (Pattern.takes_plus _).congr fun w => and_congr_left fun _ => forall_congr' fun c => imp_congr_right fun _ => ?_
  rw [← acceptsAnyCase_sign (d := ':') (by decide) (by decide) (by decide)]
  simp [CharClass.accepts, CharClass.contains, Member.acceptsAnyCase, Pattern.Kind.accepts]

theorem takes_tool : tool.Takes true IsTool := by
  have cmake : (Pattern.word "cmake").Takes true (Spells "cmake") := takes_word_anyCase (by decide)
  refine ((cmake.seq (takes_separators.seq takes_verb)).alt (takes_verb.seq (takes_separators.seq cmake))).congr fun w => ?_
  constructor
  · rintro (⟨_, _, rfl, isCMake, _, _, rfl, separates, isVerb⟩ | ⟨_, _, rfl, isVerb, _, _, rfl, separates, isCMake⟩)
    · exact .named isCMake separates isVerb
    · exact .turned isVerb separates isCMake
  · rintro (⟨isCMake, separates, isVerb⟩ | ⟨isVerb, separates, isCMake⟩)
    · exact .inl ⟨_, _, rfl, isCMake, _, _, rfl, separates, isVerb⟩
    · exact .inr ⟨_, _, rfl, isVerb, _, _, rfl, separates, isCMake⟩

/-- The part of the pattern between the blanks. -/
def directive : Pattern :=
  .alt (.sequence [tool, .many ⟨false, [.char ':', .kind .blank]⟩ .plus, .words ["disable", "ignore"]])
    (.sequence [.word "no", verb])

theorem takes_directive : directive.Takes true IsDirective := by
  have no : (Pattern.word "no").Takes true (Spells "no") := takes_word_anyCase (by decide)
  refine ((takes_tool.seq (takes_colon.seq takes_action)).alt (no.seq takes_verb)).congr fun w => ?_
  constructor
  · rintro (⟨_, _, rfl, isTool, _, _, rfl, isColon, isAction⟩ | ⟨_, _, rfl, isNo, isVerb⟩)
    · exact .off isTool isColon isAction
    · exact .no isNo isVerb
  · rintro (⟨isTool, isColon, isAction⟩ | ⟨isNo, isVerb⟩)
    · exact .inl ⟨_, _, rfl, isTool, _, _, rfl, isColon, isAction⟩
    · exact .inr ⟨_, _, rfl, isNo, isVerb⟩

theorem body_eq : body = .seq .blanks (.seq directive (.seq .blanks (.anchor .textEnd))) := rfl

/-- The text after a number sign makes a pragma of it if it is what a pragma says, with blanks around. -/
theorem suppresses_iff_directive (after : Text) : suppresses after = true ↔
    ∃ lead content trail, after = lead ++ (content ++ trail) ∧ AreBlanks lead ∧ IsDirective content ∧ AreBlanks trail := by
  have takes : body.TakesAll true (After AreBlanks (After IsDirective (After AreBlanks (· = [])))) := by
    rw [body_eq]
    exact Pattern.takes_blanks.seqAll (takes_directive.seqAll (Pattern.takes_blanks.seqAll Pattern.takesAll_textEnd))
  have place : (⟨⟨some '#', after, ([] : Text).length + 1⟩, []⟩ : Pattern.Attempt) = .between ['#'] after [] := rfl
  rw [suppresses_iff [] after, place]
  simp only [List.isEmpty_iff]
  rw [takes.exists_iff]
  constructor
  · rintro ⟨lead, _, rfl, blank, content, _, rfl, isDirective, trail, _, rfl, blank', rfl⟩
    exact ⟨lead, content, trail, by simp, blank, isDirective, blank'⟩
  · rintro ⟨lead, content, trail, rfl, blank, isDirective, blank'⟩
    exact ⟨lead, _, rfl, blank, content, _, rfl, isDirective, trail, [], by simp, blank', rfl⟩

/-- A line has a pragma exactly if what follows its first number sign is the text of one, with blanks around. -/
theorem isOn_iff_directive (l : Text) : isOn l = true ↔
    ∃ before lead content trail, l = before ++ '#' :: (lead ++ (content ++ trail)) ∧ '#' ∉ before ∧
      AreBlanks lead ∧ IsDirective content ∧ AreBlanks trail := by
  rw [isOn_iff]
  constructor
  · rintro ⟨before, after, rfl, plain, suppressing⟩
    obtain ⟨lead, content, trail, rfl, others⟩ := (suppresses_iff_directive after).mp suppressing
    exact ⟨before, lead, content, trail, rfl, plain, others⟩
  · rintro ⟨before, lead, content, trail, rfl, plain, others⟩
    exact ⟨before, _, rfl, plain, (suppresses_iff_directive _).mpr ⟨lead, content, trail, rfl, others⟩⟩

/-- A pragma after a second number sign is none. -/
example : isOn "a # NoLint".toList = true ∧ isOn "a # b # nolint".toList = false := by
  decide +kernel

end CMakeLint.Pragma
