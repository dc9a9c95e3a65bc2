import FileDepot.Proofs.Glob.ClassBody
import FileDepot.Proofs.Glob.Tokens
import FileDepot.Proofs.Regex.Words

/-!
# What the expression of a pattern reads as

The expression of a pattern is written as text and read again. Here the two steps are taken together: each
part of a pattern has an expression, and the text of the pattern reads as the sequence of these between the
two anchors.

Contents:

* `HasClass`, `Upright` — the classes of a pattern, and that no range in them runs downwards;
* `Token.regex`, `partsFrom`, `parts` — the expressions of the parts of a pattern;
* `rangesFrom`, `ranges` — the ranges of its classes as the expression writes them, with `ends_ranges`;
* `readWith_expressionChars`, `readWith_of_reversed` — the expression of a pattern, read or refused;
* `matches_eq` — what a pattern accepts.
-/

namespace FileDepot.Glob

open Regex

/-- The pattern has a bracket class with this body. -/
def HasClass (g : Glob) (negated : Bool) (body : List Char) : Prop :=
  ∃ tokens, .name tokens ∈ g.segments ∧ .members negated body ∈ tokens

/-- No range in the class runs downwards. -/
def Token.Upright : Token → Prop
  | .members _ body => hasReversed body = false
  | _ => True

/-- No range in the classes of the segment runs downwards. -/
def Segment.Upright : Segment → Prop
  | .anyDepth => True
  | .name tokens => ∀ t ∈ tokens, t.Upright

/-- No range in the classes of the pattern runs downwards. -/
def Upright (g : Glob) : Prop :=
  ∀ s ∈ g.segments, s.Upright

/-- The classes of the segment are those of a text. -/
def Segment.Closed : Segment → Prop
  | .anyDepth => True
  | .name tokens => ∀ t ∈ tokens, t.Closed

theorem upright_iff {g : Glob} :
    g.Upright ↔ ∀ negated body, g.HasClass negated body → hasReversed body = false := by
  constructor
  · rintro h negated body ⟨tokens, hname, hmem⟩
    exact h _ hname _ hmem
  · intro h s hs
    cases s with
    | anyDepth => exact trivial
    | name tokens =>
      intro t ht
      cases t with
      | members negated body => exact h negated body ⟨tokens, hs, ht⟩
      | run => exact trivial
      | single => exact trivial
      | literal c => exact trivial

/-! ## Merging -/

/-- Merging leaves out segments `**` only. -/
theorem mem_of_mem_mergeAnyDepth {s : Segment} {segments : List Segment}
    (h : s ∈ mergeAnyDepth segments) : s ∈ segments := by
  induction segments with
  | nil => exact h
  | cons t rest ih =>
    unfold mergeAnyDepth at h
    split at h
    · next rest' hrest =>
      rcases List.mem_cons.mp h with rfl | h
      · simp
      · exact List.mem_cons_of_mem _ (ih (hrest ▸ List.mem_cons_of_mem _ h))
    · rcases List.mem_cons.mp h with rfl | h
      · simp
      · exact List.mem_cons_of_mem _ (ih h)

theorem segments_closed (g : Glob) : ∀ s ∈ g.segments, s.Closed := by
  intro s hs
  obtain ⟨text, -, rfl⟩ := List.mem_map.mp (mem_of_mem_mergeAnyDepth hs)
  rw [Segment.ofText]
  split
  · exact trivial
  · exact tokensFrom_closed false text

/-! ## Expressions of the parts -/

section

variable (extra : List Char)

/-- The test of one separator. -/
def separatorTest : CharTest :=
  if extra.isEmpty then .literal '/' else .member ⟨false, ('/' :: extra).map .char⟩

/-- The test of one character that is no separator. -/
def otherTest : CharTest :=
  .member ⟨true, ('/' :: extra).map .char⟩

/-- The expression of a part of a segment. -/
def Token.regex : Token → Regex
  | .run => .star (.one (otherTest extra))
  | .single => .one (otherTest extra)
  | .members negated body => .one (.member ⟨negated, bodyItems body⟩)
  | .literal c => char c

/-- A segment that is not empty, with the separator behind it. -/
def wholeSegment : Regex :=
  sequence [plus (.one (otherTest extra)), .one (separatorTest extra)]

/-- The expressions of segments, one after another. -/
def partsFrom (first separate : Bool) : List Segment → List Regex
  | [] => []
  | [.anyDepth] =>
    if first then [.star (.one .any)]
    else [Regex.optional (sequence [.one (separatorTest extra), .star (.one .any)])]
  | .anyDepth :: rest =>
    (if first then [] else [.one (separatorTest extra)]) ++ [.star (wholeSegment extra)] ++
      partsFrom false false rest
  | .name tokens :: rest =>
    (if separate then [.one (separatorTest extra)] else []) ++ tokens.map (Token.regex extra) ++
      partsFrom false true rest

/-! ## Reading the parts -/

/-- A member that is written as outside of classes. -/
def escapedMember (c : Char) : Spelled :=
  ⟨escapeChar c, c⟩

theorem escapedMember_fits (c : Char) : (escapedMember c).Fits := by
  by_cases h : isSpecial c = true
  · exact Or.inr ⟨by simp [escapedMember, escapeChar, h], List.contains_iff_mem.mp h⟩
  · refine Or.inl ⟨by simp [escapedMember, escapeChar, h], ?_, ?_⟩
    · rintro rfl
      exact h (by decide)
    · rintro rfl
      exact h (by decide)

/-- A dash is written with a backslash. -/
theorem escapedMember_isDash (c : Char) : (escapedMember c).isDash = false := by
  by_cases h : isSpecial c = true
  · simp [Spelled.isDash, escapedMember, escapeChar, h]
  · have hc : c ≠ '-' := by
      rintro rfl
      exact h (by decide)
    simp [Spelled.isDash, escapedMember, escapeChar, h, hc]

theorem writtenMembers_escaped (cs : List Char) : writtenMembers (cs.map escapedMember) = escape cs := by
  simp [writtenMembers, escape, List.flatMap_map, escapedMember]

theorem readMembers_escaped (cs : List Char) (position : Nat) :
    readMembers position (cs.map escapedMember) = .ok (cs.map .char) := by
  have hcons (a : Spelled) (rest : List Char) (position : Nat) :
      readMembers position (a :: rest.map escapedMember) =
        (readMembers (position + a.written.length) (rest.map escapedMember)).map (.char a.char :: ·) := by
    match rest with
    | [] => rfl
    | [_] => rfl
    | dash :: high :: rest => simp [readMembers, escapedMember_isDash]
  induction cs generalizing position with
  | nil => rfl
  | cons c cs ih =>
    rw [List.map_cons, hcons, ih]
    rfl

theorem readsItem_escaped (negated : Bool) (cs : List Char) :
    ReadsItem ('[' :: negation negated ++ (escape ('/' :: cs) ++ [']']))
      (.one (.member ⟨negated, ('/' :: cs).map .char⟩)) := by
  rw [← writtenMembers_escaped]
  refine readsItem_class ?_ (by simp) ?_ fun position => readMembers_escaped ('/' :: cs) position
  · intro a ha
    obtain ⟨c, -, rfl⟩ := List.mem_map.mp ha
    exact escapedMember_fits c
  · intro _
    simp [writtenMembers, escapedMember, escapeChar, isSpecial, specials]

theorem readsItem_separator :
    ReadsItem (Spelling.ofSeparator extra).separator (.one (separatorTest extra)) := by
  cases extra with
  | nil => exact readsItem_escapeChar '/'
  | cons c cs => exact readsItem_escaped false (c :: cs)

theorem readsItem_other : ReadsItem (Spelling.ofSeparator extra).other (.one (otherTest extra)) :=
  readsItem_escaped true extra

theorem reads_wholeSegments :
    Reads (wholeSegments (.ofSeparator extra)) [.star (wholeSegment extra)] := by
  have hinner := ((readsItem_other extra).plus).append (readsItem_separator extra).reads
  have hgroup := hinner.group.star
  simpa [wholeSegments, repeatedGroup, wholeSegment] using hgroup

theorem reads_lastAnyDepth :
    Reads (['(', '?', ':'] ++ (Spelling.ofSeparator extra).separator ++ ['.', '*', ')', '?'])
      [Regex.optional (sequence [.one (separatorTest extra), .star (.one .any)])] := by
  have hinner := (readsItem_separator extra).reads.append readsItem_dot.star
  have hgroup := hinner.group.optional
  simpa using hgroup

/-- The separator in front of a segment that needs one. -/
theorem reads_lead (needed : Bool) :
    Reads (if needed then (Spelling.ofSeparator extra).separator else [])
      (if needed then [.one (separatorTest extra)] else []) := by
  cases needed with
  | false => exact reads_nil
  | true => exact (readsItem_separator extra).reads

theorem reads_lead_not (first : Bool) :
    Reads (if first then [] else (Spelling.ofSeparator extra).separator)
      (if first then [] else [.one (separatorTest extra)]) := by
  cases first with
  | false => exact reads_lead extra true
  | true => exact reads_lead extra false

end

/-! ## Ranges -/

/-- The ranges in the expression of a part of a segment that starts at an offset. -/
def Token.ranges (position : Nat) : Token → List WrittenRange
  | .members negated body => classRanges negated body position
  | _ => []

/-- The ranges in the expressions of parts, the first of which starts at an offset. -/
def tokenRanges (sp : Spelling) (position : Nat) : List Token → List WrittenRange
  | [] => []
  | t :: tokens => t.ranges position ++ tokenRanges sp (position + (t.expression sp).length) tokens

/-- The ranges in the expressions of segments, the first of which starts at an offset. -/
def rangesFrom (sp : Spelling) (position : Nat) (first separate : Bool) : List Segment → List WrittenRange
  | [] => []
  | [.anyDepth] => []
  | .anyDepth :: rest =>
    rangesFrom sp (position + ((if first then [] else sp.separator) ++ wholeSegments sp).length)
      false false rest
  | .name tokens :: rest =>
    let lead := if separate then sp.separator else []
    tokenRanges sp (position + lead.length) tokens ++
      rangesFrom sp (position + (lead ++ tokens.flatMap (Token.expression sp)).length) false true rest

theorem rangesFrom_anyDepth (sp : Spelling) (position : Nat) (first separate : Bool)
    {rest : List Segment} (hrest : rest ≠ []) :
    rangesFrom sp position first separate (.anyDepth :: rest) =
      rangesFrom sp (position + ((if first then [] else sp.separator) ++ wholeSegments sp).length)
        false false rest := by
  rw [rangesFrom]
  exact hrest

/-- The ranges of a part of a segment, by the characters at their ends. -/
def Token.ends : Token → List (Char × Char)
  | .members _ body => bodyRanges body
  | _ => []

/-- The ranges of a segment, by the characters at their ends. -/
def Segment.ends : Segment → List (Char × Char)
  | .anyDepth => []
  | .name tokens => tokens.flatMap Token.ends

theorem Token.ends_ranges (t : Token) (position : Nat) :
    (t.ranges position).map WrittenRange.ends = t.ends := by
  cases t with
  | members negated body => exact ends_classRanges negated body position
  | run => rfl
  | single => rfl
  | literal c => rfl

theorem ends_tokenRanges (sp : Spelling) (position : Nat) (tokens : List Token) :
    (tokenRanges sp position tokens).map WrittenRange.ends = tokens.flatMap Token.ends := by
  induction tokens generalizing position with
  | nil => rfl
  | cons t tokens ih => rw [tokenRanges, List.map_append, t.ends_ranges, ih, List.flatMap_cons]

/-- **The expressions of segments write the ranges of the segments.** -/
theorem ends_rangesFrom (sp : Spelling) (position : Nat) (first separate : Bool)
    (segments : List Segment) :
    (rangesFrom sp position first separate segments).map WrittenRange.ends =
      segments.flatMap Segment.ends := by
  induction position, first, separate, segments using rangesFrom.induct sp with
  | case1 => rfl
  | case2 => rfl
  | case3 position first separate rest hrest ih =>
    rw [rangesFrom_anyDepth sp position first separate hrest, ih]
    rfl
  | case4 position first separate tokens rest lead ih =>
    rw [rangesFrom, List.map_append, ends_tokenRanges, ih]
    rfl

theorem Segment.upright_iff (s : Segment) : s.Upright ↔ ∀ e ∈ s.ends, e.1.toNat ≤ e.2.toNat := by
  cases s with
  | anyDepth => simp [Segment.Upright, Segment.ends]
  | name tokens =>
    simp only [Segment.Upright, Segment.ends, List.forall_mem_flatMap]
    refine forall₂_congr fun t _ => ?_
    cases t with
    | members negated body => exact hasReversed_eq_false body
    | run => simp [Token.Upright, Token.ends]
    | single => simp [Token.Upright, Token.ends]
    | literal c => simp [Token.Upright, Token.ends]

/-! ## Expressions with their ranges -/

section

variable (extra : List Char)

/-- The text of a part of a segment has its ranges, and reads as its expression. -/
theorem scanned_token {t : Token} (hclosed : t.Closed) :
    Scanned (t.expression (.ofSeparator extra)) (fun position => t.ranges position) [t.regex extra] := by
  cases t with
  | run => exact ((readsItem_other extra).star).scanned
  | single => exact ((readsItem_other extra).reads).scanned
  | members negated body => exact scanned_members hclosed.1 hclosed.2 _
  | literal c => exact ((readsItem_escapeChar c).reads).scanned

theorem scanned_tokens {tokens : List Token} (hclosed : ∀ t ∈ tokens, t.Closed) :
    Scanned (tokens.flatMap (Token.expression (.ofSeparator extra)))
      (fun position => tokenRanges (.ofSeparator extra) position tokens)
      (tokens.map (Token.regex extra)) := by
  induction tokens with
  | nil => exact reads_nil.scanned
  | cons t tokens ih =>
    obtain ⟨ht, htokens⟩ := List.forall_mem_cons.mp hclosed
    exact (scanned_token extra ht).append (ih htokens)

/-- **Segments have their ranges, and read as their expressions.** -/
theorem scanned_expressionFrom (first separate : Bool) {segments : List Segment}
    (hclosed : ∀ s ∈ segments, s.Closed) :
    Scanned (expressionFrom (.ofSeparator extra) first separate segments)
      (fun position => rangesFrom (.ofSeparator extra) position first separate segments)
      (partsFrom extra first separate segments) := by
  induction first, separate, segments using partsFrom.induct with
  | case1 => exact reads_nil.scanned
  | case2 separate => exact readsItem_dot.star.scanned
  | case3 separate first hfirst =>
    have hlast := (reads_lastAnyDepth extra).scanned
    simpa [expressionFrom, partsFrom, rangesFrom, hfirst] using hlast
  | case4 first separate rest hrest ih =>
    have hlead := ((reads_lead_not extra first).append (reads_wholeSegments extra)).scanned
    have ih := ih fun s hs => hclosed s (List.mem_cons_of_mem _ hs)
    simp only [rangesFrom_anyDepth _ _ _ _ hrest]
    rw [expressionFrom, partsFrom]
    · exact hlead.append ih
    all_goals exact hrest
  | case5 first separate tokens rest ih =>
    obtain ⟨htokens, hrest⟩ := List.forall_mem_cons.mp hclosed
    -- only the parts of a segment have ranges, the separator in front of them has none
    rw [expressionFrom, partsFrom]
    exact ((reads_lead extra separate).scanned.append (scanned_tokens extra htokens)).append (ih hrest)

end

/-! ## Whole patterns -/

/-- The expressions of the parts of a pattern, between its anchors. -/
def parts (g : Glob) : List Regex :=
  partsFrom g.separator.toList true false g.segments

/-- The expression of a pattern. -/
def compiled (g : Glob) : Regex :=
  sequence (.anchor .lineStart :: (g.parts ++ [.anchor .lineStop]))

/-- The ranges in the expression of a pattern that starts at an offset. -/
def ranges (g : Glob) (position : Nat) : List WrittenRange :=
  rangesFrom (.ofSeparator g.separator.toList) (position + 1) true false g.segments

theorem ends_ranges (g : Glob) (position : Nat) :
    (g.ranges position).map WrittenRange.ends = g.segments.flatMap Segment.ends :=
  ends_rangesFrom _ _ _ _ _

theorem upright_iff_ends {g : Glob} :
    g.Upright ↔ ∀ e ∈ g.segments.flatMap Segment.ends, e.1.toNat ≤ e.2.toNat := by
  rw [List.forall_mem_flatMap]
  exact forall₂_congr fun s _ => s.upright_iff

theorem upright_iff_ranges {g : Glob} (position : Nat) :
    g.Upright ↔ ∀ r ∈ g.ranges position, r.reversed = false := by
  rw [upright_iff_ends, ← ends_ranges g position, List.forall_mem_map]
  simp [WrittenRange.reversed, WrittenRange.ends]

/-- **The expression of a pattern has the ranges of its classes, and reads as its parts.** -/
theorem scanned_expressionChars (g : Glob) :
    Scanned g.expressionChars g.ranges (.anchor .lineStart :: (g.parts ++ [.anchor .lineStop])) := by
  have hparts := scanned_expressionFrom g.separator.toList true false (segments_closed g)
  have hwhole := reads_caret.scanned.append (hparts.append reads_dollar.scanned)
  simp only [List.nil_append, List.append_nil] at hwhole
  exact hwhole

/-- **The expression of a pattern without reversed ranges is read, and sets no option.** -/
theorem readWith_expressionChars {g : Glob} (hup : g.Upright) :
    readWith {} g.expressionChars = .ok (g.compiled, {}) :=
  (scanned_expressionChars g).readWith_ok ((upright_iff_ranges 0).mp hup)

theorem getLast?_expressionChars (g : Glob) : g.expressionChars.getLast? = some '$' := by
  rw [expressionChars, List.getLast?_append]
  rfl

/-- **A pattern is refused for the first range in its expression that runs downwards.** -/
theorem readWith_of_reversed {g : Glob} {r : WrittenRange}
    (hr : (g.ranges 0).find? (·.reversed) = some r) : readWith {} g.expressionChars = .error r.error := by
  refine (scanned_expressionChars g).readWith_error ?_ hr
  rw [getLast?_expressionChars]
  decide

/-- A pattern in which some range runs downwards is refused for the first such range. -/
theorem read_of_not_upright {g : Glob} (hdown : ¬ g.Upright) :
    ∃ r, (g.ranges 0).find? (·.reversed) = some r ∧ Regex.read g.expressionChars = .error r.error := by
  obtain ⟨r, hr⟩ : ∃ r, (g.ranges 0).find? (·.reversed) = some r := by
    refine Option.isSome_iff_exists.mp (List.find?_isSome.mpr ?_)
    simpa [upright_iff_ranges 0] using hdown
  refine ⟨r, hr, ?_⟩
  rw [Regex.read, readWith_of_reversed hr]
  rfl

theorem upright_of_read {g : Glob} {r : Regex} (h : Regex.read g.expressionChars = .ok r) :
    g.Upright := by
  by_contra hdown
  obtain ⟨r, -, hread⟩ := read_of_not_upright hdown
  rw [hread] at h
  cases h

/-- Nothing but a range that runs downwards is wrong with the expression of a pattern. -/
theorem error_of_read {g : Glob} {e : Regex.Error} (h : Regex.read g.expressionChars = .error e) :
    ∃ r, (g.ranges 0).find? (·.reversed) = some r ∧ e = r.error := by
  have hdown : ¬ g.Upright := by
    intro hup
    rw [Regex.read, readWith_expressionChars hup] at h
    cases h
  obtain ⟨r, hr, hread⟩ := read_of_not_upright hdown
  exact ⟨r, hr, Except.error.inj (h.symm.trans hread)⟩

theorem partsFrom_plain (extra : List Char) (first separate : Bool) (segments : List Segment) :
    ∀ r ∈ partsFrom extra first separate segments, r.IsPlain := by
  induction first, separate, segments using partsFrom.induct with
  | case1 => simp [partsFrom]
  | case2 => simp [partsFrom, IsPlain]
  | case3 separate first hfirst =>
    simp [partsFrom, hfirst, IsPlain, Regex.optional, Regex.sequence]
  | case4 first separate rest hrest ih =>
    rw [partsFrom]
    · cases first <;> simpa [IsPlain, wholeSegment, Regex.sequence, plus] using ih
    · exact hrest
  | case5 first separate tokens rest ih =>
    have htoken : ∀ t ∈ tokens, (t.regex extra).IsPlain := by
      intro t _
      cases t <;> exact trivial
    rw [partsFrom]
    cases separate <;> simpa [IsPlain, or_imp, forall_and] using ⟨htoken, ih⟩

/-- **What a pattern accepts.** A pattern without reversed ranges accepts the words of its parts, with or
    without a line feed behind them. -/
theorem matches_eq {g : Glob} (hup : g.Upright) (name : String) :
    ∃ accepted, g.matches name = .ok accepted ∧
      (accepted = true ↔
        ∃ w ∈ (sequence g.parts).words {}, name.toList = w ∨ name.toList = w ++ ['\n']) := by
  refine ⟨g.compiled.matchesStart {} name.toList, ?_, ?_⟩
  · rw [Glob.matches, Regex.read, readWith_expressionChars hup]
    rfl
  · exact matchesStart_anchored rfl (partsFrom_plain _ _ _ _)

end FileDepot.Glob
