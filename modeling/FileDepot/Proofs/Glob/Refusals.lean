import FileDepot.Proofs.Glob.Compiled

/-!
# Patterns that are refused

Whatever a pattern holds besides, only a range that runs downwards in one of its bracket classes can keep its
expression from being read: every other character is written so that it stands for itself. The report names
the first such range as the expression writes it, and its place there.

Contents:

* `ClassOf` — a bracket class of a segment, in the text of the segment, with `members_mem_tokens_iff`;
* `segmentRanges` — the ranges in the classes of a segment, with `ends_ranges_eq` for the whole pattern;
* `refused_iff_reversed` — when a pattern is refused, and for which range.
-/

namespace FileDepot.Glob

open Regex

/-! ## Classes in the text of a segment -/

/-- The text of a segment, read from the left, has a bracket class with this body. The text of a class is
    passed over as a whole, any other character alone. -/
inductive ClassOf : List Char → Bool → List Char → Prop
  | here {cs body rest : List Char} {negated : Bool} (h : Closes cs negated body rest) :
    ClassOf ('[' :: cs) negated body
  | behind {cs body rest body' : List Char} {negated negated' : Bool} (hclass : Closes cs negated' body' rest)
    (h : ClassOf rest negated body) : ClassOf ('[' :: cs) negated body
  | skip {c : Char} {cs body : List Char} {negated : Bool}
    (hopen : c = '[' → ∀ negated body rest, ¬ Closes cs negated body rest)
    (h : ClassOf cs negated body) : ClassOf (c :: cs) negated body

section

variable {cs body : List Char} {negated : Bool}

theorem classOf_class {body' rest : List Char} {negated' : Bool} (hclass : Closes cs negated' body' rest) :
    ClassOf ('[' :: cs) negated body ↔ (negated = negated' ∧ body = body') ∨ ClassOf rest negated body := by
  constructor
  · intro h
    cases h with
    | here h =>
      obtain ⟨hnegated, hbody, -⟩ := h.unique hclass
      exact Or.inl ⟨hnegated, hbody⟩
    | behind hclass' h =>
      obtain ⟨-, -, rfl⟩ := hclass'.unique hclass
      exact Or.inr h
    | skip hopen _ => exact absurd hclass (hopen rfl _ _ _)
  · rintro (⟨rfl, rfl⟩ | h)
    · exact .here hclass
    · exact .behind hclass h

theorem classOf_skip {c : Char} (hopen : c = '[' → ∀ negated body rest, ¬ Closes cs negated body rest) :
    ClassOf (c :: cs) negated body ↔ ClassOf cs negated body := by
  constructor
  · intro h
    cases h with
    | here h => exact absurd h (hopen rfl _ _ _)
    | behind hclass _ => exact absurd hclass (hopen rfl _ _ _)
    | skip _ h => exact h
  · exact .skip hopen

/-- **The classes among the parts of a segment are those of its text.** -/
theorem members_mem_tokensFrom_iff (afterRun : Bool) :
    .members negated body ∈ tokensFrom afterRun cs ↔ ClassOf cs negated body := by
  induction afterRun, cs using tokensFrom.induct with
  | case1 =>
    simp only [tokensFrom_nil, List.not_mem_nil, false_iff]
    rintro ⟨⟩
  | case2 cs ih =>
    rw [classOf_skip (by simp), ← ih]
    simp [tokensFrom_run]
  | case3 afterRun cs hrun ih =>
    rw [classOf_skip (by simp), ← ih]
    simp [tokensFrom_run, hrun]
  | case4 afterRun cs _ ih =>
    rw [classOf_skip (by simp), ← ih]
    simp [tokensFrom_single]
  | case5 afterRun cs cls hcls _ _ ih =>
    have hclosed := closeClass?_eq_some.mp hcls
    rw [classOf_class hclosed, ← ih, tokensFrom_class afterRun hclosed]
    simp
  | case6 afterRun cs hnone _ _ ih =>
    have hopen := closeClass?_eq_none.mp hnone
    rw [classOf_skip fun _ => hopen, ← ih, tokensFrom_bracket afterRun hopen]
    simp
  | case7 afterRun c cs hrun hsingle hbracket ih =>
    rw [classOf_skip fun h => absurd h hbracket, ← ih,
      tokensFrom_literal afterRun ⟨hrun, hsingle, hbracket⟩]
    simp

end

/-! ## Ranges of a pattern -/

/-- The ranges in the classes of a segment, read from the left, by the characters at their ends. -/
def segmentRanges (segment : List Char) : List (Char × Char) :=
  (tokens segment).flatMap Token.ends

theorem mem_segmentRanges {segment : List Char} {range : Char × Char} :
    range ∈ segmentRanges segment ↔ ∃ negated body, ClassOf segment negated body ∧ range ∈ bodyRanges body := by
  rw [segmentRanges, List.mem_flatMap]
  constructor
  · rintro ⟨t, ht, hrange⟩
    cases t with
    | members negated body => exact ⟨negated, body, (members_mem_tokensFrom_iff false).mp ht, hrange⟩
    | run => cases hrange
    | single => cases hrange
    | literal c => cases hrange
  · rintro ⟨negated, body, hclass, hrange⟩
    exact ⟨_, (members_mem_tokensFrom_iff false).mpr hclass, hrange⟩

theorem ends_ofText (segment : List Char) : (Segment.ofText segment).ends = segmentRanges segment := by
  unfold Segment.ofText
  split
  · next h =>
    subst h
    simp [Segment.ends, segmentRanges, tokens, tokensFrom_run, Token.ends]
  · rfl

/-- Merging loses no range. -/
theorem flatMap_mergeAnyDepth (segments : List Segment) :
    (mergeAnyDepth segments).flatMap Segment.ends = segments.flatMap Segment.ends := by
  induction segments with
  | nil => rfl
  | cons s rest ih =>
    unfold mergeAnyDepth
    split
    · next rest' hrest =>
      -- of two neighbouring `**` one is left out, which has no class
      show rest'.flatMap Segment.ends = rest.flatMap Segment.ends
      rw [← ih, hrest]
      rfl
    · rw [List.flatMap_cons, List.flatMap_cons, ih]

theorem ends_segments (g : Glob) :
    g.segments.flatMap Segment.ends = (Text.splitOn '/' g.slashed).flatMap segmentRanges := by
  rw [segments, flatMap_mergeAnyDepth, List.flatMap_map]
  simp only [ends_ofText]

/-! ## Refusals -/

theorem exists_error_iff (g : Glob) :
    (∃ e, Regex.read g.expressionChars = .error e) ↔ ¬ g.Upright := by
  constructor
  · rintro ⟨e, he⟩ hup
    rw [Regex.read, readWith_expressionChars hup] at he
    cases he
  · intro hdown
    obtain ⟨r, -, hread⟩ := read_of_not_upright hdown
    exact ⟨r.error, hread⟩

theorem not_upright_iff (g : Glob) :
    ¬ g.Upright ↔ ∃ segment ∈ Text.splitOn '/' g.slashed, ∃ negated body, ClassOf segment negated body ∧
      ∃ range ∈ bodyRanges body, range.2.toNat < range.1.toNat := by
  rw [upright_iff_ends, ends_segments, List.forall_mem_flatMap]
  constructor
  · intro hdown
    simp only [not_forall, Nat.not_le] at hdown
    obtain ⟨segment, hsegment, range, hrange, hreversed⟩ := hdown
    obtain ⟨negated, body, hclass, hrange⟩ := mem_segmentRanges.mp hrange
    exact ⟨segment, hsegment, negated, body, hclass, range, hrange, hreversed⟩
  · rintro ⟨segment, hsegment, negated, body, hclass, range, hrange, hreversed⟩ hup
    have hle := hup segment hsegment range (mem_segmentRanges.mpr ⟨negated, body, hclass, hrange⟩)
    omega

/-- **A pattern is refused exactly if a range in one of its classes runs downwards.** The ranges in its
    expression are those of its classes, in their order; the first that runs downwards is reported as it is
    written, at the place where it stands. Where the expression has a line feed, the line and the column of this
    place, both counted from one, stand behind that. -/
theorem refused_iff_reversed (g : Glob) :
    ((∃ e, Regex.read g.expressionChars = .error e) ↔
      ∃ segment ∈ Text.splitOn '/' g.slashed, ∃ negated body, ClassOf segment negated body ∧
        ∃ range ∈ bodyRanges body, range.2.toNat < range.1.toNat) ∧
    (g.ranges 0).map WrittenRange.ends = (Text.splitOn '/' g.slashed).flatMap segmentRanges ∧
    Placed g.expressionChars 0 (g.ranges 0) ∧
    ∀ e, Regex.read g.expressionChars = .error e →
      ∃ r, (g.ranges 0).find? (·.reversed) = some r ∧ e = r.error ∧
        let low := String.ofList r.low.written
        let high := String.ofList r.high.written
        let reason := s!"bad character range {low}-{high} at position {r.position}"
        let before := g.expressionChars.take r.position
        let line := before.count '\n' + 1
        let column := (before.reverse.takeWhile (· != '\n')).length + 1
        e.message g.expression =
          if '\n' ∈ g.expressionChars then s!"{reason} (line {line}, column {column})" else reason := by
  refine ⟨(exists_error_iff g).trans (not_upright_iff g), ?_, (scanned_expressionChars g).placed 0, ?_⟩
  · rw [ends_ranges, ends_segments]
  · -- the reader has one answer only, and it is this range's
    intro e he
    obtain ⟨r, hr, rfl⟩ := error_of_read he
    exact ⟨r, hr, rfl, r.message_error g.expressionChars⟩

/-- The second of two classes runs from a backslash down to a bracket, both of which are escaped. -/
theorem refused_escaped_ends :
    ∃ e, Regex.read (withSeparator "x[a-c]/[!\\-[]" (some "/")).expressionChars = .error e ∧
      e.message (withSeparator "x[a-c]/[!\\-[]" (some "/")).expression =
        "bad character range \\\\-\\[ at position 10" := by
  obtain ⟨hiff, -, -, hreport⟩ := refused_iff_reversed (withSeparator "x[a-c]/[!\\-[]" (some "/"))
  have hcloses : Closes "!\\-[]".toList true ['\\', '-', '['] [] := closeClass?_eq_some.mp (by decide)
  obtain ⟨e, he⟩ := hiff.mpr ⟨"[!\\-[]".toList, by decide, true, ['\\', '-', '['], .here hcloses,
    ('\\', '['), by decide, by decide⟩
  obtain ⟨r, hr, -, hmessage⟩ := hreport e he
  -- the range stands behind `^x[a-c]/[^`
  have hfirst : ((withSeparator "x[a-c]/[!\\-[]" (some "/")).ranges 0).find? (·.reversed) =
      some ⟨10, ⟨['\\', '\\'], '\\'⟩, ⟨['\\', '['], '['⟩⟩ := by
    decide +kernel
  rw [hfirst] at hr
  obtain rfl := Option.some.inj hr
  refine ⟨e, he, hmessage.trans ?_⟩
  rw [if_neg (by decide +kernel)]
  decide +kernel

/-- Behind a line feed a reversed range is reported with its line and column, and not by its offset alone. -/
theorem refused_on_second_line :
    let g := withSeparator "\n[z-a]" none
    ∃ e r, Regex.read g.expressionChars = .error e ∧ (g.ranges 0).find? (·.reversed) = some r ∧
      (String.ofList r.low.written, String.ofList r.high.written, r.position) = ("z", "a", 4) ∧
      e.message g.expression = "bad character range z-a at position 4 (line 2, column 2)" ∧
      e.message g.expression ≠ "bad character range z-a at position 4" := by
  intro g
  have hread : Regex.read g.expressionChars = .error ⟨.badRange "z" "a", 4⟩ := by decide +kernel
  have hfirst : (g.ranges 0).find? (·.reversed) = some ⟨4, ⟨['z'], 'z'⟩, ⟨['a'], 'a'⟩⟩ := by
    decide +kernel
  have hmessage : (⟨.badRange "z" "a", 4⟩ : Regex.Error).message g.expression =
      "bad character range z-a at position 4 (line 2, column 2)" := by
    decide +kernel
  refine ⟨_, _, hread, hfirst, by decide +kernel, hmessage, ?_⟩
  rw [hmessage]
  decide

end FileDepot.Glob
