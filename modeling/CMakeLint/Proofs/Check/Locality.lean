import CMakeLint.Proofs.Check.Report
import CMakeLint.Proofs.Pattern.Seam
import CMakeLint.Proofs.Suppression

/-!
What a check that looks for patterns finds in a script is found there in a longer script as well. Whole lines within a text are
reported as they are reported alone, further down (`report_within`), and the patterns of the checks see no further than to the
bracket that closes a call (`catalog_staysWithin`). So the issues of two scripts one after the other are those of the first one
and those of the second one (`run_append`).
-/
namespace CMakeLint

/-! ### Whole lines within a text -/

/-- A text is made of whole lines when it stands between two others: it starts a line, and so does what follows it. -/
structure Text.WholeBetween (t before after : Text) : Prop where
  opens : before = [] ∨ before.getLast? = some '\n'
  closes : after = [] ∨ t.getLast? = some '\n'

/-- The same place `k` lines further down. -/
def Position.down (k : Nat) (p : Position) : Position :=
  ⟨p.line + k, p.column⟩

theorem Position.foldl_next_down (k : Nat) (p : Position) (t : Text) :
    t.foldl next (p.down k) = (t.foldl next p).down k := by
  induction t generalizing p with
  | nil => rfl
  | cons c t ih =>
    have step : (p.down k).next c = (p.next c).down k := by
      by_cases newline : c = '\n' <;> simp [next, down, newline, Nat.add_right_comm]
    rw [List.foldl_cons, List.foldl_cons, step, ih]

/-- The same span counted from `k` characters earlier. -/
def Span.shift (k : Nat) (s : Span) : Span :=
  ⟨s.start + k, s.length⟩

theorem Span.shift_stop (k : Nat) (s : Span) : (s.shift k).stop = s.stop + k :=
  Nat.add_right_comm _ _ _

namespace Text

theorem takeWhile_append_of_mem {p : Char → Bool} {a : Text} {c : Char} (member : c ∈ a) (refused : p c = false) (b : Text) :
    (a ++ b).takeWhile p = a.takeWhile p := by
  rw [List.takeWhile_append, if_neg]
  intro all
  have taken : a.takeWhile p = a := (List.takeWhile_prefix p).eq_of_length all
  rw [← taken] at member
  rw [List.mem_takeWhile_imp member] at refused
  cases refused

theorem takeWhile_append_of_head {p : Char → Bool} (a : Text) {b : Text} (refused : ∀ c, b.head? = some c → p c = false) :
    (a ++ b).takeWhile p = a.takeWhile p := by
  cases b with
  | nil => rw [List.append_nil]
  | cons c b =>
    rw [List.takeWhile_append, List.takeWhile_cons_of_neg (by simp [refused c rfl]), List.append_nil]
    split
    · rename_i all
      exact ((List.takeWhile_prefix p).eq_of_length all).symm
    · rfl

variable {t before after : Text} {n : Nat}

theorem getElem?_between (inside : n < t.length) : (before ++ t ++ after)[n + before.length]? = t[n]? := by
  rw [List.append_assoc, Nat.add_comm, List.getElem?_append_right (Nat.le_add_right _ _), Nat.add_sub_cancel_left,
    List.getElem?_append_left inside]

theorem take_between (inside : n ≤ t.length) : (before ++ t ++ after).take (n + before.length) = before ++ t.take n := by
  rw [List.append_assoc, Nat.add_comm, List.take_length_add_append, List.take_append_of_le_length inside]

theorem drop_between (inside : n ≤ t.length) : (before ++ t ++ after).drop (n + before.length) = t.drop n ++ after := by
  rw [List.append_assoc, Nat.add_comm, List.drop_length_add_append, List.drop_append_of_le_length inside]

theorem slice_between {start stop : Nat} (ordered : start ≤ stop) (inside : stop ≤ t.length) :
    (before ++ t ++ after).slice (start + before.length) (stop + before.length) = t.slice start stop := by
  have room : stop - start ≤ (t.drop start).length := by
    rw [List.length_drop]
    omega
  rw [slice, slice, drop_between (Nat.le_trans ordered inside), Nat.add_sub_add_right, List.take_append_of_le_length room]

theorem ofOffset_between (whole : t.WholeBetween before after) (inside : n ≤ t.length) :
    Position.ofOffset (before ++ t ++ after) (n + before.length) = (Position.ofOffset t n).down (before.count '\n') := by
  have start : before.foldl Position.next .first = Position.first.down (before.count '\n') := by
    rcases whole.opens with rfl | newline
    · rfl
    · obtain ⟨lines, rfl⟩ := List.getLast?_eq_some_iff.mp newline
      have count : (lines ++ ['\n']).count '\n' = lines.count '\n' + 1 := by rw [List.count_append, List.count_singleton_self]
      rw [Position.foldl_next_newline, count, Nat.add_assoc]
      rfl
  rw [Position.ofOffset, take_between inside, List.foldl_append, start, Position.foldl_next_down]
  rfl

theorem length_between (before t after : Text) :
    (before ++ t ++ after).length = before.length + t.length + after.length := by
  rw [List.length_append, List.length_append]

/-- The line of a character starts at the same character. -/
theorem lineStart_between (whole : t.WholeBetween before after) (inside : n < t.length) (char : t[n]? ≠ some '\n') :
    ∃ first, t.lineStart n = .ok first ∧
      (before ++ t ++ after).lineStart ((n + before.length : Nat) : Int) = .ok (first + before.length) := by
  have stop : ∀ c, before.reverse.head? = some c → decide (c ≠ '\n') = false := by
    intro c last
    rw [List.head?_reverse] at last
    rcases whole.opens with rfl | newline
    · cases last
    · rw [newline] at last
      cases last
      rfl
  have bound := (List.takeWhile_sublist (l := (t.take n).reverse) (· ≠ '\n')).length_le
  rw [List.length_reverse, List.length_take] at bound
  have length := length_between before t after
  refine ⟨_, lineStart_eq inside char, ?_⟩
  rw [lineStart_eq (by omega) (by rwa [getElem?_between inside]), take_between (Nat.le_of_lt inside), List.reverse_append,
    takeWhile_append_of_head _ stop]
  exact congrArg Except.ok (by omega)

/-- The line of a character ends at the same character. -/
theorem lineEnd_between (whole : t.WholeBetween before after) (inside : n < t.length) (char : t[n]? ≠ some '\n') :
    ∃ last, t.lineEnd n = .ok last ∧
      (before ++ t ++ after).lineEnd ((n + before.length : Nat) : Int) = .ok (last + before.length) := by
  have same : (t.drop n ++ after).takeWhile (· ≠ '\n') = (t.drop n).takeWhile (· ≠ '\n') := by
    rcases whole.closes with rfl | newline
    · rw [List.append_nil]
    · have last : (t.drop n).getLast? = some '\n' := by rw [List.getLast?_drop, if_neg (by omega), newline]
      exact takeWhile_append_of_mem (List.mem_of_getLast? last) rfl after
  have positive := length_line_pos inside char
  have length := length_between before t after
  refine ⟨_, lineEnd_eq inside char, ?_⟩
  rw [lineEnd_eq (by omega) (by rwa [getElem?_between inside]), drop_between (Nat.le_of_lt inside), same]
  exact congrArg Except.ok (by omega)

end Text

theorem Span.of_between {t before after : Text} {s : Span} (inside : s.stop ≤ t.length) :
    (s.shift before.length).of (before ++ t ++ after) = s.of t := by
  rw [Span.of, Span.shift_stop]
  exact Text.slice_between (Nat.le_add_right _ _) inside

theorem Check.wholeLines_between {t before after : Text} (whole : t.WholeBetween before after) {first last : Nat}
    {context : Span} (lines : wholeLines t first last = .ok context) (firstChar : t[first]? ≠ some '\n')
    (lastChar : t[last]? ≠ some '\n') (inside : first < t.length) (inside' : last < t.length) :
    wholeLines (before ++ t ++ after) ((first + before.length : Nat) : Int) ((last + before.length : Nat) : Int) =
      .ok (context.shift before.length) := by
  obtain ⟨start, started, started'⟩ := Text.lineStart_between whole inside firstChar
  obtain ⟨stop, stopped, stopped'⟩ := Text.lineEnd_between whole inside' lastChar
  obtain ⟨stop', opened, closed, upto⟩ := wholeLines_eq_ok lines
  rw [started] at opened
  rw [stopped] at closed
  cases opened
  cases closed
  rw [Span.stop] at upto
  have bounds := Span.ofBounds_ok (show context.start + before.length ≤ stop + before.length + 1 by omega)
  have length : stop + before.length + 1 - (context.start + before.length) = context.length := by omega
  rw [length] at bounds
  rw [wholeLines, started', stopped']
  exact bounds

/-! ### Issues within a text -/

/-- The same match counted from `k` characters earlier. -/
def Spot.shift (k : Nat) (s : Spot) : Spot :=
  { s with found := s.found.shift k, start := s.start + k, last := s.last + k }

/-- The same grid with numbers that are greater by `k`. -/
def Grid.renumber (k : Nat) (g : Grid) : Grid :=
  { g with lineNumber := g.lineNumber.map (· + (k : Int)) }

/-- The same issue when its text stands between two others: it is further down, and all else that it says and shows is the
    same. -/
def Issue.within (before after : Text) (i : Issue) : Issue :=
  { i with
    text := before ++ i.text ++ after
    span := i.span.shift before.length
    context := i.context.shift before.length
    position := i.position.down (before.count '\n')
    grid := i.grid.renumber (before.count '\n') }

theorem Spot.Grounded.between {t : Text} {s : Spot} {first last start stop : Nat}
    (grounded : s.Grounded t first last start stop) (before after : Text) :
    (s.shift before.length).Grounded (before ++ t ++ after) (first + before.length) (last + before.length)
      (start + before.length) (stop + before.length) := by
  obtain ⟨startEq, lastEq, groupEq, firstChar, lastChar, inside, after', ordered, before', starts⟩ := grounded
  have length := Text.length_between before t after
  refine ⟨?_, ?_, ?_, ?_, ?_, by omega, by omega, by omega, by omega, by omega⟩
  · simp only [Spot.shift, startEq, Int.natCast_add]
  · simp only [Spot.shift, lastEq, Int.natCast_add]
  · simp only [Spot.shift, Pattern.Match.group_shift, groupEq, Option.map_some]
  · rw [Text.getElem?_between (by omega)]
    exact firstChar
  · rw [Text.getElem?_between inside]
    exact lastChar

theorem Issue.highlight_renumber (k : Nat) (g : Grid) (t : Text) :
    highlight (g.renumber k) t = (highlight g t).map (Grid.renumber k) := by
  have same : (g.renumber k).find? t = g.find? t := rfl
  rw [highlight_eq, highlight_eq, same]
  cases g.find? t with
  | none => rfl
  | some region =>
    rw [Option.elim_some, Option.elim_some]
    cases (remainder region).fault? <;> rfl

/-- Whole lines within a text are reported as they are reported alone, further down. -/
theorem Check.report_within (check : Check) (path : Path) {t before after : Text} (whole : t.WholeBetween before after)
    {s : Spot} {first last start stop : Nat} (grounded : s.Grounded t first last start stop) :
    check.report path (before ++ t ++ after) (s.shift before.length) =
      (check.report path t s).map (Issue.within before after) := by
  have shifted := grounded.between before after
  have spot := grounded
  obtain ⟨_, _, _, firstChar, lastChar, inside, started, ordered, stopped, starts⟩ := grounded
  obtain ⟨context, lines, opens, closes, contextInside, _, _⟩ :=
    wholeLines_spec firstChar lastChar (by omega) (by omega) inside
  have lines' := wholeLines_between whole lines firstChar lastChar (by omega) inside
  have opens' : (context.shift before.length).start ≤ first + before.length := Nat.add_le_add_right opens _
  have closes' : last + before.length + 1 ≤ (context.shift before.length).stop := by
    rw [Span.shift_stop]
    omega
  have span : (⟨start + before.length, stop + before.length - (start + before.length)⟩ : Span) =
      (⟨start, stop - start⟩ : Span).shift before.length := by
    rw [Span.shift, Nat.add_sub_add_right]
  have spanInside : (⟨start, stop - start⟩ : Span).stop ≤ t.length := by
    simp only [Span.stop]
    omega
  have contextOrdered : context.start ≤ context.stop := Nat.le_add_right _ _
  have place := Text.ofOffset_between whole (Nat.le_of_lt starts)
  have place' : Position.ofOffset (before ++ t ++ after) (context.shift before.length).start = _ :=
    Text.ofOffset_between whole (Nat.le_trans contextOrdered contextInside)
  have numbered : ∀ (shown indent : Text) (p : Position),
      Grid.ofText shown indent (some ((p.down (before.count '\n')).line : Int)) =
        (Grid.ofText shown indent (some (p.line : Int))).renumber (before.count '\n') := fun _ _ _ => rfl
  rw [report_eq check path spot lines opens closes, report_eq check path shifted lines' opens' closes', span,
    Span.of_between contextInside, Span.of_between spanInside, place, place', numbered, Issue.highlight_renumber]
  cases Issue.highlight _ _ <;> rfl

/-! ### Spots within a text -/

theorem Spot.ofMatch_shift (k : Nat) (m : Pattern.Match) (group : Nat) (description : Option Text) :
    Spot.ofMatch (m.shift k) group description = (Spot.ofMatch m group description).shift k := by
  have last : ((m.stop + k : Nat) : Int) - 1 = (m.stop : Int) - 1 + k := by omega
  rw [Spot.ofMatch, Pattern.Match.shift, last]
  rfl

theorem Spot.shift_zero : Spot.shift 0 = id := by
  funext s
  simp [Spot.shift, Pattern.Match.shift_zero]

namespace Check

variable {rule : Matching} {t : Text} {p : Pattern}

theorem groupText_between (before after : Text) {ignoreCase : Bool} {m : Pattern.Match}
    (found : Pattern.IsMatch ignoreCase p t m) (number : Nat) :
    groupText (before ++ t ++ after) (m.shift before.length) number = groupText t m number := by
  rw [groupText, groupText, Pattern.Match.text?, Pattern.Match.text?, Pattern.Match.group_shift]
  cases group : m.group? number with
  | none => rfl
  | some bounds =>
    obtain ⟨ordered, inside⟩ := found.group_inside group
    simp only [Option.map_some, Text.slice_between ordered inside]

/-- A match within a text is reported as it is reported alone, further down. -/
theorem matchSpot_between (check : Check) (before after : Text) {m : Pattern.Match}
    (found : Pattern.IsMatch rule.ignoreCase p t m) :
    matchSpot? check rule (before ++ t ++ after) p (m.shift before.length) =
      (matchSpot? check rule t p m).map (Spot.shift before.length) := by
  have texts : groupText (before ++ t ++ after) (m.shift before.length) = groupText t m :=
    funext (groupText_between before after found)
  simp only [matchSpot?, texts]
  split
  · rfl
  · rw [Spot.ofMatch_shift]
    rfl

/-- The patterns of a rule do not look beyond a closing bracket and a newline. -/
def staysWithin : Rule → Bool
  | .matching rule => rule.patterns.all (·.staysWithin rule.ignoreCase ')')
  | _ => true

theorem catalog_staysWithin : ∀ check ∈ catalog, staysWithin check.rule = true := by
  decide +kernel

/-- What is reported of the matches of one pattern. -/
def patternSpots (check : Check) (rule : Matching) (t : Text) (p : Pattern) : List Spot :=
  (p.findAll rule.ignoreCase t).filterMap (matchSpot? check rule t p)

theorem patternSpots_append (check : Check) (form : p.staysWithin rule.ignoreCase ')' = true) {t : Text}
    (closed : [')', '\n'] <:+ t) (more : Text) : patternSpots check rule (t ++ more) p =
      patternSpots check rule t p ++ (patternSpots check rule more p).map (Spot.shift t.length) := by
  have first : ∀ m ∈ p.findAll rule.ignoreCase t, matchSpot? check rule (t ++ more) p m = matchSpot? check rule t p m := by
    intro m found
    have same := matchSpot_between check [] more (Pattern.findAll_isMatch found)
    rwa [List.nil_append, List.length_nil, Pattern.Match.shift_zero, Spot.shift_zero, Option.map_id] at same
  have second : ∀ m ∈ p.findAll rule.ignoreCase more, matchSpot? check rule (t ++ more) p (m.shift t.length) =
      (matchSpot? check rule more p m).map (Spot.shift t.length) := by
    intro m found
    have same := matchSpot_between check t [] (Pattern.findAll_isMatch found)
    rwa [List.append_nil] at same
  rw [patternSpots, Pattern.findAll_append form closed, List.filterMap_append, List.filterMap_congr first, List.filterMap_map,
    patternSpots, patternSpots, List.map_filterMap]
  exact congrArg _ (List.filterMap_congr second)

/-- The spots of two texts one after the other, told apart by where they start, are the spots of both texts. -/
theorem spots_append {check : Check} (listed : check ∈ catalog) (matching : check.rule = .matching rule)
    (closed : [')', '\n'] <:+ t) (path : Path) (more : Text) :
    (check.spots path (t ++ more)).filter (fun s => decide (s.start < (t.length : Int))) = check.spots path t ∧
      (check.spots path (t ++ more)).filter (fun s => !decide (s.start < (t.length : Int))) =
        (check.spots path more).map (Spot.shift t.length) := by
  have forms := catalog_staysWithin check listed
  have grounded := fun {t : Text} {s : Spot} (member : s ∈ check.spots path t) =>
    spots_grounded (catalog_placesSpots check listed) member
  have spotsEq : ∀ t, check.spots path t = rule.patterns.flatMap (patternSpots check rule t) := by
    intro t
    rw [spots, matching]
    rfl
  rw [matching] at forms
  -- each pattern is looked for in both texts before the next one, so the spots of the two texts alternate
  have each : check.spots path (t ++ more) = rule.patterns.flatMap fun p =>
      patternSpots check rule t p ++ (patternSpots check rule more p).map (Spot.shift t.length) := by
    rw [spotsEq]
    exact List.flatMap_congr fun p member => patternSpots_append check (List.all_eq_true.mp forms p member) closed more
  rw [each, spotsEq t, spotsEq more, List.map_flatMap]
  refine filter_flatMap_append ?_ ?_
  · intro s member
    rw [← spotsEq] at member
    obtain ⟨first, last, start, stop, place⟩ := grounded member
    have := place.start_eq
    have := place.after
    have := place.starts
    exact decide_eq_true (by omega)
  · intro s member
    rw [← List.map_flatMap, ← spotsEq] at member
    obtain ⟨s', member', rfl⟩ := List.mem_map.mp member
    obtain ⟨first, last, start, stop, place⟩ := grounded member'
    have := place.start_eq
    refine decide_eq_false ?_
    simp only [Spot.shift]
    omega

section

variable {check : Check} (listed : check ∈ catalog) {path : Path} (closed : [')', '\n'] <:+ t)
include listed closed

theorem report_append_left (more : Text) {s : Spot} (member : s ∈ check.spots path t) :
    check.report path (t ++ more) s = (check.report path t s).map (Issue.within [] more) := by
  obtain ⟨first, last, start, stop, grounded⟩ := spots_grounded (catalog_placesSpots check listed) member
  have whole : t.WholeBetween [] more := by
    obtain ⟨w, rfl⟩ := closed
    exact ⟨.inl rfl, .inr (by simp)⟩
  have same := report_within check path whole grounded
  rwa [List.nil_append, List.length_nil, Spot.shift_zero] at same

theorem report_append_right {more : Text} {s : Spot} (member : s ∈ check.spots path more) :
    check.report path (t ++ more) (s.shift t.length) = (check.report path more s).map (Issue.within t []) := by
  obtain ⟨first, last, start, stop, grounded⟩ := spots_grounded (catalog_placesSpots check listed) member
  have whole : more.WholeBetween t [] := by
    obtain ⟨w, rfl⟩ := closed
    exact ⟨.inr (by simp), .inl rfl⟩
  have same := report_within check path whole grounded
  rwa [List.append_nil] at same

end

end Check

/-! ### Reading order of two texts -/

namespace Lint

theorem eq_filter_append {l : List Issue} (sorted : l.Pairwise StartsFirst) (n : Nat) :
    l = l.filter (fun i => decide (i.span.start < n)) ++ l.filter (fun i => !decide (i.span.start < n)) := by
  induction l with
  | nil => rfl
  | cons i l ih =>
    obtain ⟨first, sorted⟩ := List.pairwise_cons.mp sorted
    by_cases early : i.span.start < n
    · simpa [early] using ih sorted
    · have late : ∀ j ∈ l, ¬ j.span.start < n := fun j member => by
        have : i.span.start ≤ j.span.start := first j member
        omega
      have none : l.filter (fun i => decide (i.span.start < n)) = [] := List.filter_eq_nil_iff.mpr (by simpa using late)
      rw [none] at ih
      simpa [early, none] using ih sorted

/-- Issues in reading order are those that start before a place and then the others. -/
theorem inReadingOrder_split (l : List Issue) (n : Nat) :
    inReadingOrder l = inReadingOrder (l.filter fun i => decide (i.span.start < n)) ++
      inReadingOrder (l.filter fun i => !decide (i.span.start < n)) := by
  rw [inReadingOrder_filter, inReadingOrder_filter]
  refine eq_filter_append ?_ n
  rw [inReadingOrder_eq]
  exact List.pairwise_insertionSort StartsFirst l

theorem inReadingOrder_within (before after : Text) (l : List Issue) :
    inReadingOrder (l.map (Issue.within before after)) = (inReadingOrder l).map (Issue.within before after) := by
  rw [inReadingOrder_eq, inReadingOrder_eq]
  refine (List.map_insertionSort StartsFirst StartsFirst _ l fun i _ j _ => ?_).symm
  exact Nat.add_le_add_iff_right.symm

end Lint

/-! ### Issues of two texts -/

namespace Check

section

variable {rule : Matching} {t : Text} {check : Check}

theorem run_of_forall₂ (matching : check.rule = .matching rule) {path : Path} {issues : List Issue}
    (made : List.Forall₂ (fun s i => check.report path t s = .ok i) (check.spots path t) issues) :
    check.run path t = .ok (.all issues) := by
  rw [run, if_neg (by rw [matching]; simp), mapM_of_forall₂ made, matching]
  rfl

variable (listed : check ∈ catalog) (matching : check.rule = .matching rule) {path : Path} (closed : [')', '\n'] <:+ t)
include listed matching closed

theorem mem_spots_append {more : Text} {s : Spot} (member : s ∈ check.spots path (t ++ more)) :
    (s.start < (t.length : Int) ∧ s ∈ check.spots path t) ∨
      (¬ s.start < (t.length : Int) ∧ ∃ s' ∈ check.spots path more, s = s'.shift t.length) := by
  obtain ⟨first, second⟩ := spots_append listed matching closed path more
  by_cases early : s.start < (t.length : Int)
  · refine .inl ⟨early, ?_⟩
    rw [← first]
    exact List.mem_filter.mpr ⟨member, decide_eq_true early⟩
  · refine .inr ⟨early, ?_⟩
    have late : s ∈ (check.spots path more).map (Spot.shift t.length) := by
      rw [← second]
      exact List.mem_filter.mpr ⟨member, by simpa using early⟩
    obtain ⟨s', member', same⟩ := List.mem_map.mp late
    exact ⟨s', member', same.symm⟩

/-- An issue of two texts starts in the first one exactly if its match does. -/
theorem start_lt_iff {more : Text} {s : Spot} (member : s ∈ check.spots path (t ++ more)) {i : Issue}
    (made : check.report path (t ++ more) s = .ok i) : s.start < (t.length : Int) ↔ i.span.start < t.length := by
  rcases mem_spots_append listed matching closed member with ⟨early, spot⟩ | ⟨late, s', spot, rfl⟩
  · rw [report_append_left listed closed more spot] at made
    obtain ⟨i', made', rfl⟩ := map_eq_ok made
    obtain ⟨first, last, start, stop, grounded⟩ := spots_grounded (catalog_placesSpots check listed) spot
    exact iff_of_true early (reports_of_ok grounded made').placed.starts
  · rw [report_append_right listed closed spot] at made
    obtain ⟨i', _, rfl⟩ := map_eq_ok made
    exact iff_of_false late (Nat.not_lt.mpr (Nat.le_add_left _ _))

/-- What is found in two texts, told apart by where it starts, is found in both texts. -/
theorem parts_of_run_append {more : Text} {both : Findings} (made : check.run path (t ++ more) = .ok both) :
    ∃ first second, check.run path t = .ok (.all first) ∧ check.run path more = .ok (.all second) ∧
      both.toList.filter (fun i => decide (i.span.start < t.length)) = first.map (Issue.within [] more) ∧
      both.toList.filter (fun i => !decide (i.span.start < t.length)) = second.map (Issue.within t []) := by
  have all := run_ok (catalog_placesSpots check listed) made
  have starts : ∀ s ∈ check.spots path (t ++ more), ∀ i, check.report path (t ++ more) s = .ok i →
      decide (s.start < (t.length : Int)) = decide (i.span.start < t.length) := by
    intro s member i made
    exact decide_eq_decide.mpr (start_lt_iff listed matching closed member made)
  have starts' : ∀ s ∈ check.spots path (t ++ more), ∀ i, check.report path (t ++ more) s = .ok i →
      (!decide (s.start < (t.length : Int))) = !decide (i.span.start < t.length) := by
    intro s member i made
    rw [starts s member i made]
  have early := forall₂_filter all starts
  have late := forall₂_filter all starts'
  obtain ⟨left, right⟩ := spots_append listed matching closed path more
  rw [left] at early
  rw [right, List.forall₂_map_left_iff] at late
  obtain ⟨first, made₁, same₁⟩ := forall₂_of_map_ok early fun s member => report_append_left listed closed more member
  obtain ⟨second, made₂, same₂⟩ := forall₂_of_map_ok late fun s member => report_append_right listed closed member
  exact ⟨first, second, run_of_forall₂ matching made₁, run_of_forall₂ matching made₂, same₁, same₂⟩

theorem run_append_of_parts {more : Text} {first second : Findings} (made : check.run path t = .ok first)
    (made' : check.run path more = .ok second) : ∃ both, check.run path (t ++ more) = .ok both := by
  have form := catalog_placesSpots check listed
  cases ran : check.run path (t ++ more) with
  | ok both => exact ⟨both, rfl⟩
  | error fault =>
    obtain ⟨s, member, refused⟩ := run_error form ran
    rcases mem_spots_append listed matching closed member with ⟨_, spot⟩ | ⟨_, s', spot, rfl⟩
    · obtain ⟨i, _, reported⟩ := forall₂_mem_left (run_ok form made) spot
      rw [report_append_left listed closed more spot, reported] at refused
      cases refused
    · obtain ⟨i, _, reported⟩ := forall₂_mem_left (run_ok form made') spot
      rw [report_append_right listed closed spot, reported] at refused
      cases refused

end

/-- What a check that looks for patterns finds in a script that ends with a closed call, followed by another script, is what it
    finds in both: first, as it stands, what is found in the one, and then, further down, what is found in the other. -/
theorem run_append {check : Check} (listed : check ∈ catalog) {rule : Matching} (matching : check.rule = .matching rule)
    {t : Text} (closed : [')', '\n'] <:+ t) (path : Path) (more : Text) :
    ((∃ both, check.run path (t ++ more) = .ok both) ↔
      (∃ first, check.run path t = .ok first) ∧ ∃ second, check.run path more = .ok second) ∧
    ∀ first second both, check.run path t = .ok first → check.run path more = .ok second →
      check.run path (t ++ more) = .ok both →
      Lint.inReadingOrder both.toList = (Lint.inReadingOrder first.toList).map (Issue.within [] more) ++
        (Lint.inReadingOrder second.toList).map (Issue.within t []) := by
  refine ⟨⟨?_, ?_⟩, ?_⟩
  · rintro ⟨both, made⟩
    obtain ⟨first, second, made₁, made₂, _⟩ := parts_of_run_append listed matching closed made
    exact ⟨⟨_, made₁⟩, _, made₂⟩
  · rintro ⟨⟨first, made₁⟩, second, made₂⟩
    exact run_append_of_parts listed matching closed made₁ made₂
  · intro first second both made₁ made₂ made
    obtain ⟨first', second', made₁', made₂', early, late⟩ := parts_of_run_append listed matching closed made
    rw [made₁] at made₁'
    rw [made₂] at made₂'
    cases made₁'
    cases made₂'
    rw [Lint.inReadingOrder_split both.toList t.length, early, late, Lint.inReadingOrder_within, Lint.inReadingOrder_within]
    rfl

/-- Options are looked for before flags, so that those of the second script are found before those of the first one. -/
theorem options_after_flags : compileOptions ∈ catalog ∧ [')', '\n'] <:+ "set(CMAKE_CXX_FLAGS x)\n".toList ∧
    ∃ first second both, compileOptions.run (.ofText "a.cmake".toList) "set(CMAKE_CXX_FLAGS x)\n".toList = .ok first ∧
      compileOptions.run (.ofText "a.cmake".toList) "add_compile_options(\ny)".toList = .ok second ∧
      compileOptions.run (.ofText "a.cmake".toList)
        ("set(CMAKE_CXX_FLAGS x)\n".toList ++ "add_compile_options(\ny)".toList) = .ok both ∧
      both.toList.map (·.position) = [⟨2, 1⟩, ⟨1, 5⟩] ∧
      Lint.inReadingOrder both.toList =
        (Lint.inReadingOrder first.toList).map (Issue.within [] "add_compile_options(\ny)".toList) ++
          (Lint.inReadingOrder second.toList).map (Issue.within "set(CMAKE_CXX_FLAGS x)\n".toList []) := by
  have listed : compileOptions ∈ catalog := by simp [catalog]
  have closed : [')', '\n'] <:+ "set(CMAKE_CXX_FLAGS x)\n".toList := by decide +kernel
  have flags : ((compileOptions.run (.ofText "a.cmake".toList) "set(CMAKE_CXX_FLAGS x)\n".toList).toOption.map fun findings =>
      findings.toList.map fun i => i.position) = some [⟨1, 5⟩] := by decide +kernel
  have options : ((compileOptions.run (.ofText "a.cmake".toList) "add_compile_options(\ny)".toList).toOption.map
      fun findings => findings.toList.map fun i => i.position) = some [⟨1, 1⟩] := by decide +kernel
  have places : ((compileOptions.run (.ofText "a.cmake".toList)
      ("set(CMAKE_CXX_FLAGS x)\n".toList ++ "add_compile_options(\ny)".toList)).toOption.map fun findings =>
        findings.toList.map (·.position)) = some [⟨2, 1⟩, ⟨1, 5⟩] := by decide +kernel
  obtain ⟨first, made₁, _⟩ := run_of_evaluated flags
  obtain ⟨second, made₂, _⟩ := run_of_evaluated options
  obtain ⟨returns, order⟩ := run_append listed rfl closed (.ofText "a.cmake".toList) "add_compile_options(\ny)".toList
  obtain ⟨both, made⟩ := returns.mpr ⟨⟨first, made₁⟩, second, made₂⟩
  rw [made] at places
  exact ⟨listed, closed, first, second, both, made₁, made₂, made, Option.some.inj places,
    order first second both made₁ made₂ made⟩

end Check

end CMakeLint
