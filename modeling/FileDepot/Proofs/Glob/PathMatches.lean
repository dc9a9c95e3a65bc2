import FileDepot.Proofs.Glob.SegmentWords

/-!
# Matching segment by segment

A pattern whose only separator is the slash matches a name segment by segment: the segments of the pattern
match those of the name, where `**` takes any number of them.

Contents:

* `PathMatches` — the segments of a pattern match the segments of a name;
* `mergeAny` — neighbouring segments `**` merged;
* `pathWords` — the words of the segments of a pattern, by what stands in front of them;
* `matches_iff_pathMatches` — a pattern accepts the names that the direct matcher accepts.
-/

namespace FileDepot.Glob

open Regex

/-! ## The direct matcher -/

/-- The segment of a pattern that stands for any number of segments of a name. -/
def anySegments : List Char :=
  ['*', '*']

/-- The segments of a pattern match the segments of a name. In last place `**` takes any segments, elsewhere
    any that are not empty. -/
inductive PathMatches : List (List Char) → List (List Char) → Prop
  | nil : PathMatches [] []
  | segment {p n : List Char} {ps ns : List (List Char)} (hp : p ≠ anySegments)
    (hsegment : SegmentMatches p n) (h : PathMatches ps ns) : PathMatches (p :: ps) (n :: ns)
  | anyLast (ns : List (List Char)) : PathMatches [anySegments] ns
  | anyNone {ps ns : List (List Char)} (hps : ps ≠ []) (h : PathMatches ps ns) :
    PathMatches (anySegments :: ps) ns
  | anyMore {n : List Char} {ps ns : List (List Char)} (hps : ps ≠ []) (hn : n ≠ [])
    (h : PathMatches (anySegments :: ps) ns) : PathMatches (anySegments :: ps) (n :: ns)

/-- Of neighbouring segments `**` only the last is kept. -/
def mergeAny : List (List Char) → List (List Char)
  | p :: q :: rest =>
    if p = anySegments ∧ q = anySegments then mergeAny (q :: rest) else p :: mergeAny (q :: rest)
  | ps => ps

/-! ## The words of segments -/

/-- The words of the segments of a pattern, in front of which the expression stands as told. -/
def pathWords (first separate : Bool) (ps : List (List Char)) : Language Char :=
  (sequence (partsFrom [] first separate (ps.map Segment.ofText))).words {}

theorem ofText_anySegments : Segment.ofText anySegments = .anyDepth := rfl

theorem ofText_of_ne {p : List Char} (hp : p ≠ anySegments) : Segment.ofText p = .name (tokens p) :=
  if_neg hp

theorem mem_pathWords_nil {first separate : Bool} {w : List Char} :
    w ∈ pathWords first separate [] ↔ w = [] := Iff.rfl

/-- Where nothing is in front, a name segment takes a piece of the name. -/
theorem mem_pathWords_name {first : Bool} {p : List Char} {ps : List (List Char)} (hp : p ≠ anySegments)
    {w : List Char} :
    w ∈ pathWords first false (p :: ps) ↔
      ∃ u v, u ++ v = w ∧ u ∈ wordsOf (tokens p) ∧ v ∈ pathWords false true ps := by
  rw [pathWords, List.map_cons, ofText_of_ne hp, partsFrom, if_neg (by decide), List.nil_append,
    mem_words_sequence_append]
  constructor
  · rintro ⟨u, hu, v, hv, rfl⟩
    exact ⟨u, v, rfl, hu, hv⟩
  · rintro ⟨u, v, rfl, hu, hv⟩
    exact ⟨u, hu, v, hv, rfl⟩

/-- The test of a separator matches a slash. -/
theorem mem_words_separator {w : List Char} :
    w ∈ (Regex.one (separatorTest [])).words {} ↔ w = ['/'] := by
  rw [mem_words_one]
  constructor
  · rintro ⟨c, rfl, hc⟩
    rw [(equates_default '/' c).mp hc]
  · rintro rfl
    exact ⟨'/', rfl, (equates_default '/' '/').mpr rfl⟩

/-- Behind a name segment the others stand behind a slash, unless there are none that need one. -/
theorem mem_pathWords_behind {ps : List (List Char)} (hne : ps ≠ []) (hany : ps ≠ [anySegments])
    {w : List Char} :
    w ∈ pathWords false true ps ↔ ∃ v, '/' :: v = w ∧ v ∈ pathWords true false ps := by
  have hparts : partsFrom [] false true (ps.map Segment.ofText) =
      .one (separatorTest []) :: partsFrom [] true false (ps.map Segment.ofText) := by
    match ps, hne, hany with
    | p :: q :: rest, _, _ =>
      by_cases hp : p = anySegments
      · simp [hp, ofText_anySegments, partsFrom]
      · simp [ofText_of_ne hp, partsFrom]
    | [p], _, hany =>
      have hp : p ≠ anySegments := fun h => hany (by rw [h])
      simp [ofText_of_ne hp, partsFrom]
  rw [pathWords, hparts, sequence_cons, mem_words_seq]
  simp only [mem_words_separator]
  constructor
  · rintro ⟨_, rfl, v, hv, rfl⟩
    exact ⟨v, rfl, hv⟩
  · rintro ⟨v, rfl, hv⟩
    exact ⟨['/'], rfl, v, hv, rfl⟩

/-- A whole segment is a piece that is not empty, with a slash behind it. -/
theorem mem_words_wholeSegment {w : List Char} :
    w ∈ (wholeSegment []).words {} ↔ ∃ n, n ++ ['/'] = w ∧ n ≠ [] ∧ '/' ∉ n := by
  simp only [wholeSegment, sequence_cons, mem_words_seq, mem_words_plus_one, forall_otherTest_accepts,
    mem_words_separator, mem_words_sequence_nil]
  constructor
  · rintro ⟨n, hn, _, ⟨_, rfl, _, rfl, rfl⟩, rfl⟩
    exact ⟨n, rfl, hn⟩
  · rintro ⟨n, rfl, hn⟩
    exact ⟨n, hn, ['/'], ⟨['/'], rfl, [], rfl, rfl⟩, rfl⟩

/-- In front of other segments `**` takes pieces that are not empty. -/
theorem mem_pathWords_any {ps : List (List Char)} (hps : ps ≠ []) {w : List Char} :
    w ∈ pathWords true false (anySegments :: ps) ↔
      ∃ (ns : List (List Char)) (v : List Char), ns.flatMap (· ++ ['/']) ++ v = w ∧
        (∀ n ∈ ns, n ≠ [] ∧ '/' ∉ n) ∧ v ∈ pathWords false false ps := by
  have hps' : ps.map Segment.ofText ≠ [] := by simpa using hps
  rw [pathWords, List.map_cons, ofText_anySegments, partsFrom, if_pos rfl, List.nil_append,
    List.singleton_append, sequence_cons, mem_words_seq]
  · simp only [mem_words_star_of fun u => mem_words_wholeSegment]
    constructor
    · rintro ⟨_, ⟨ns, rfl, hns⟩, v, hv, rfl⟩
      exact ⟨ns, v, rfl, hns, hv⟩
    · rintro ⟨ns, v, rfl, hns, hv⟩
      exact ⟨_, ⟨ns, rfl, hns⟩, v, hv, rfl⟩
  · exact hps'

/-- Behind `**` a name segment stands as at the start. -/
theorem pathWords_afterAny {p : List Char} (hp : p ≠ anySegments) (ps : List (List Char)) :
    pathWords false false (p :: ps) = pathWords true false (p :: ps) := by
  simp [pathWords, ofText_of_ne hp, partsFrom]

theorem any_accepts (c : Char) : CharTest.any.accepts {} c = true ↔ c ≠ '\n' := by
  simp [CharTest.accepts]

/-- A last `**` at the start takes anything within a line. -/
theorem mem_pathWords_last {w : List Char} :
    w ∈ pathWords true false [anySegments] ↔ '\n' ∉ w := by
  rw [pathWords, List.map_singleton, ofText_anySegments, partsFrom, if_pos rfl, sequence_cons,
    mem_words_seq]
  simp only [mem_words_star_one, any_accepts, mem_words_sequence_nil]
  constructor
  · rintro ⟨u, hu, _, rfl, rfl⟩ hmem
    exact hu _ (by simpa using hmem) rfl
  · intro hw
    exact ⟨w, fun c hc heq => hw (heq ▸ hc), [], rfl, by simp⟩

/-- Behind a name segment a last `**` may be missing, or takes anything within a line behind a slash. -/
theorem mem_pathWords_lastBehind {w : List Char} :
    w ∈ pathWords false true [anySegments] ↔ w = [] ∨ ∃ v, '/' :: v = w ∧ '\n' ∉ v := by
  rw [pathWords, List.map_singleton, ofText_anySegments, partsFrom, if_neg (by decide), sequence_cons,
    mem_words_seq]
  simp only [Regex.optional, mem_words_alt, sequence_cons, mem_words_seq, mem_words_separator,
    mem_words_star_one, any_accepts, mem_words_sequence_nil]
  constructor
  · rintro ⟨u, hu | hu, _, rfl, rfl⟩
    · obtain ⟨_, rfl, _, ⟨v, hv, _, rfl, rfl⟩, rfl⟩ := hu
      exact Or.inr ⟨v, by simp, fun hmem => hv _ hmem rfl⟩
    · obtain rfl : u = [] := hu
      exact Or.inl rfl
  · rintro (rfl | ⟨v, rfl, hv⟩)
    · exact ⟨[], Or.inr rfl, [], rfl, rfl⟩
    · refine ⟨'/' :: v, Or.inl ⟨['/'], rfl, v, ⟨v, ?_, [], rfl, by simp⟩, rfl⟩, [], rfl, by simp⟩
      exact fun c hc heq => hv (heq ▸ hc)

/-! ## Paths and their segments -/

/-- No segment `**` stands directly in front of another. -/
def Merged (ps : List (List Char)) : Prop :=
  ps.IsChain fun p q => ¬ (p = anySegments ∧ q = anySegments)

theorem pathMatches_name {p : List Char} (hp : p ≠ anySegments) {ps ms : List (List Char)} :
    PathMatches (p :: ps) ms ↔ ∃ n ns, n :: ns = ms ∧ SegmentMatches p n ∧ PathMatches ps ns := by
  constructor
  · intro h
    cases h with
    | segment _ hsegment h => exact ⟨_, _, rfl, hsegment, h⟩
    | anyLast => exact absurd rfl hp
    | anyNone => exact absurd rfl hp
    | anyMore => exact absurd rfl hp
  · rintro ⟨n, ns, rfl, hsegment, h⟩
    exact .segment hp hsegment h

/-- In front of other segments `**` takes the first of the name's, none of which is empty. -/
theorem pathMatches_any {ps ms : List (List Char)} (hps : ps ≠ []) :
    PathMatches (anySegments :: ps) ms ↔
      ∃ ns ns', ns ++ ns' = ms ∧ (∀ n ∈ ns, n ≠ []) ∧ PathMatches ps ns' := by
  constructor
  · intro h
    generalize hq : anySegments :: ps = qs at h
    induction h with
    | nil => cases hq
    | segment hp _ _ _ => exact absurd (List.cons.inj hq).1.symm hp
    | anyLast => exact absurd (List.cons.inj hq).2 hps
    | anyNone _ h _ =>
      obtain ⟨-, rfl⟩ := List.cons.inj hq
      exact ⟨[], _, rfl, by simp, h⟩
    | @anyMore n _ _ _ hn _ ih =>
      obtain ⟨ns, ns', rfl, hns, h⟩ := ih hq
      exact ⟨n :: ns, ns', rfl, List.forall_mem_cons.mpr ⟨hn, hns⟩, h⟩
  · rintro ⟨ns, ns', rfl, hns, h⟩
    induction ns with
    | nil => exact .anyNone hps h
    | cons n ns ih =>
      obtain ⟨hn, hrest⟩ := List.forall_mem_cons.mp hns
      exact .anyMore hps hn (ih hrest)

theorem Merged.head_ne {p : List Char} {ps : List (List Char)} (h : Merged (anySegments :: p :: ps)) :
    p ≠ anySegments := by
  rintro rfl
  exact (List.isChain_cons_cons.mp h).1 ⟨rfl, rfl⟩

theorem Merged.tail {p : List Char} {ps : List (List Char)} (h : Merged (p :: ps)) : Merged ps := by
  cases ps with
  | nil => exact .nil
  | cons q ps => exact (List.isChain_cons_cons.mp h).2

/-- Only a last `**` matches without any segment of a name. -/
theorem not_pathMatches_nil {ps : List (List Char)} (hmerged : Merged ps) (hne : ps ≠ [])
    (hany : ps ≠ [anySegments]) : ¬ PathMatches ps [] := by
  intro h
  match ps, hne, hany with
  | p :: rest, _, hany =>
    by_cases hp : p = anySegments
    · subst hp
      match rest, hany with
      | q :: rest, _ =>
        obtain ⟨ns, ns', heq, -, h⟩ := (pathMatches_any (by simp)).mp h
        obtain ⟨rfl, rfl⟩ := List.append_eq_nil_iff.mp heq
        obtain ⟨_, _, hcons, -⟩ := (pathMatches_name hmerged.head_ne).mp h
        cases hcons
    · obtain ⟨_, _, hcons, -⟩ := (pathMatches_name hp).mp h
      cases hcons

/-! ## Words of paths are paths that match -/

/-- Behind a name segment the words are the pieces that match, each with a slash in front, if at the start
    they are the texts whose pieces match. -/
theorem mem_pathWords_behind_iff {ps : List (List Char)} (hmerged : Merged ps)
    (hstart : ps ≠ [] → ∀ v, '\n' ∉ v →
      (v ∈ pathWords true false ps ↔ PathMatches ps (Text.splitOn '/' v)))
    {w : List Char} (hw : '\n' ∉ w) :
    w ∈ pathWords false true ps ↔
      ∃ ns : List (List Char), ns.flatMap ('/' :: ·) = w ∧ (∀ n ∈ ns, '/' ∉ n) ∧ PathMatches ps ns := by
  -- pieces of which there is at least one are a slash and a text that has these pieces
  have pieces (v : List Char) : ∃ n ns, Text.splitOn '/' v = n :: ns ∧
      (n :: ns).flatMap ('/' :: ·) = '/' :: v ∧ ∀ m ∈ n :: ns, '/' ∉ m := by
    obtain ⟨n, ns, hsplit⟩ := List.exists_cons_of_ne_nil (Text.splitOn_ne_nil '/' v)
    obtain ⟨hv, hfree⟩ := Text.splitOn_eq_cons.mp hsplit
    exact ⟨n, ns, hsplit, by simp [hv], hfree⟩
  by_cases hne : ps = []
  · subst hne
    rw [mem_pathWords_nil]
    constructor
    · rintro rfl
      exact ⟨[], rfl, by simp, .nil⟩
    · rintro ⟨ns, rfl, -, h⟩
      cases h
      rfl
  by_cases hany : ps = [anySegments]
  · subst hany
    rw [mem_pathWords_lastBehind]
    constructor
    · rintro (rfl | ⟨v, rfl, -⟩)
      · exact ⟨[], rfl, by simp, .anyLast []⟩
      · obtain ⟨n, ns, -, hjoin, hfree⟩ := pieces v
        exact ⟨n :: ns, hjoin, hfree, .anyLast _⟩
    · rintro ⟨ns, rfl, -, -⟩
      cases ns with
      | nil => exact Or.inl rfl
      | cons n ns => exact Or.inr ⟨_, rfl, fun h => hw (List.mem_cons_of_mem _ h)⟩
  · rw [mem_pathWords_behind hne hany]
    constructor
    · rintro ⟨v, rfl, hv⟩
      obtain ⟨n, ns, hsplit, hjoin, hfree⟩ := pieces v
      have hmatch := (hstart hne v fun h => hw (List.mem_cons_of_mem _ h)).mp hv
      exact ⟨n :: ns, hjoin, hfree, hsplit ▸ hmatch⟩
    · rintro ⟨ns, rfl, hfree, h⟩
      cases ns with
      | nil => exact absurd h (not_pathMatches_nil hmerged hne hany)
      | cons n ns =>
        have hsplit : Text.splitOn '/' (n ++ ns.flatMap ('/' :: ·)) = n :: ns :=
          Text.splitOn_eq_cons.mpr ⟨rfl, hfree⟩
        refine ⟨n ++ ns.flatMap ('/' :: ·), rfl, (hstart hne _ fun h => hw ?_).mpr (hsplit ▸ h)⟩
        exact List.mem_cons_of_mem _ h

/-- **The words of a path are the texts whose pieces it matches.** No word of a segment may have a slash. -/
theorem mem_pathWords {ps : List (List Char)} (hmerged : Merged ps)
    (hfree : ∀ p ∈ ps, ∀ u ∈ wordsOf (tokens p), '/' ∉ u) (hne : ps ≠ []) :
    ∀ w, '\n' ∉ w → (w ∈ pathWords true false ps ↔ PathMatches ps (Text.splitOn '/' w)) := by
  induction ps with
  | nil => exact absurd rfl hne
  | cons p ps ih =>
    have ih := ih hmerged.tail fun q hq => hfree q (List.mem_cons_of_mem _ hq)
    intro w hw
    -- behind a name segment a slash is due, behind `**` it has been taken with the pieces
    by_cases hp : p = anySegments
    · subst hp
      by_cases hps : ps = []
      · subst hps
        simp [mem_pathWords_last, hw, PathMatches.anyLast]
      · obtain ⟨q, qs, rfl⟩ := List.exists_cons_of_ne_nil hps
        rw [mem_pathWords_any hps, pathMatches_any hps, pathWords_afterAny hmerged.head_ne]
        constructor
        · rintro ⟨ns, v, rfl, hns, hv⟩
          refine ⟨ns, Text.splitOn '/' v, ?_, fun n hn => (hns n hn).1, (ih hps v ?_).mp hv⟩
          · exact (Text.splitOn_flatMap_append (fun n hn => (hns n hn).2) v).symm
          · exact fun h => hw (List.mem_append_right _ h)
        · rintro ⟨ns, ms, hsplit, hns, h⟩
          obtain ⟨n, ms, rfl, -⟩ := (pathMatches_name hmerged.head_ne).mp h
          have hpieces (m : List Char) (hm : m ∈ ns ++ n :: ms) : '/' ∉ m :=
            Text.notMem_of_mem_splitOn (hsplit ▸ hm)
          have hv : Text.splitOn '/' (n ++ ms.flatMap ('/' :: ·)) = n :: ms :=
            Text.splitOn_eq_cons.mpr ⟨rfl, fun m hm => hpieces m (List.mem_append_right _ hm)⟩
          -- the text that a match of the pieces stands for is the name, as both have these pieces
          have hjoin : ns.flatMap (· ++ ['/']) ++ (n ++ ms.flatMap ('/' :: ·)) = w := by
            refine Text.splitOn_injective (?_ : Text.splitOn '/' _ = Text.splitOn '/' w)
            rw [Text.splitOn_flatMap_append fun m hm => hpieces m (List.mem_append_left _ hm), hv, hsplit]
          refine ⟨ns, _, hjoin, fun m hm => ⟨hns m hm, hpieces m (List.mem_append_left _ hm)⟩, ?_⟩
          refine (ih hps _ fun hmem => hw ?_).mpr (hv ▸ h)
          exact hjoin ▸ List.mem_append_right _ hmem
    · rw [mem_pathWords_name hp]
      constructor
      · rintro ⟨u, v, rfl, hu, hv⟩
        have huv := hfree p (by simp) u hu
        have hv' := (mem_pathWords_behind_iff hmerged.tail ih
          fun h => hw (List.mem_append_right _ h)).mp hv
        obtain ⟨ns, rfl, hns, h⟩ := hv'
        have hsplit : Text.splitOn '/' (u ++ ns.flatMap ('/' :: ·)) = u :: ns :=
          Text.splitOn_eq_cons.mpr ⟨rfl, List.forall_mem_cons.mpr ⟨huv, hns⟩⟩
        rw [hsplit]
        exact .segment hp ((mem_wordsOf_tokens p u huv).mp hu) h
      · intro hmatch
        obtain ⟨n, ns, heq, hsegment, h⟩ := (pathMatches_name hp).mp hmatch
        obtain ⟨rfl, hpieces⟩ := Text.splitOn_eq_cons.mp heq.symm
        obtain ⟨hn, hns⟩ := List.forall_mem_cons.mp hpieces
        refine ⟨n, _, rfl, (mem_wordsOf_tokens p n hn).mpr hsegment, ?_⟩
        exact (mem_pathWords_behind_iff hmerged.tail ih
          fun hmem => hw (List.mem_append_right _ hmem)).mpr ⟨ns, rfl, hns, h⟩

/-! ## Whole patterns -/

/-- Merging keeps the first segment. -/
theorem head?_mergeAny (ps : List (List Char)) : (mergeAny ps).head? = ps.head? := by
  induction ps using mergeAny.induct with
  | case1 p q rest h ih =>
    rw [mergeAny, if_pos h, ih, h.1, h.2]
    rfl
  | case2 p q rest h ih =>
    rw [mergeAny, if_neg h]
    rfl
  | case3 ps h => rw [mergeAny]; exact h

theorem mergeAny_cons (q : List Char) (rest : List (List Char)) :
    ∃ qs, mergeAny (q :: rest) = q :: qs :=
  List.head?_eq_some_iff.mp (head?_mergeAny (q :: rest))

theorem merged_mergeAny (ps : List (List Char)) : Merged (mergeAny ps) := by
  induction ps using mergeAny.induct with
  | case1 p q rest h ih => rwa [mergeAny, if_pos h]
  | case2 p q rest h ih =>
    obtain ⟨qs, hqs⟩ := mergeAny_cons q rest
    rw [hqs] at ih
    rw [mergeAny, if_neg h, hqs]
    exact List.isChain_cons_cons.mpr ⟨h, ih⟩
  | case3 ps h =>
    rw [mergeAny]
    · match ps, h with
      | [], _ => exact .nil
      | [p], _ => exact .singleton p
      | p :: q :: rest, h => exact (h p q rest rfl).elim
    · exact h

/-- Where no `**` stands directly in front of another, there is nothing to merge. -/
theorem mergeAny_of_merged {ps : List (List Char)} (h : Merged ps) : mergeAny ps = ps := by
  induction ps using mergeAny.induct with
  | case1 p q rest hany _ => exact absurd hany (List.isChain_cons_cons.mp h).1
  | case2 p q rest hany ih => rw [mergeAny, if_neg hany, ih h.tail]
  | case3 ps hps =>
    rw [mergeAny]
    exact hps

theorem mem_of_mem_mergeAny {ps : List (List Char)} {p : List Char} (h : p ∈ mergeAny ps) : p ∈ ps := by
  induction ps using mergeAny.induct with
  | case1 q r rest hqr ih =>
    rw [mergeAny, if_pos hqr] at h
    exact List.mem_cons_of_mem _ (ih h)
  | case2 q r rest hqr ih =>
    rw [mergeAny, if_neg hqr] at h
    rcases List.mem_cons.mp h with rfl | h
    · simp
    · exact List.mem_cons_of_mem _ (ih h)
  | case3 ps hps =>
    rw [mergeAny] at h
    · exact h
    · exact hps

theorem ofText_eq_anyDepth {p : List Char} : Segment.ofText p = .anyDepth ↔ p = anySegments := by
  constructor
  · intro h
    by_contra hp
    rw [ofText_of_ne hp] at h
    cases h
  · rintro rfl
    rfl

theorem mergeAnyDepth_any {rest rest' : List Segment} (h : mergeAnyDepth rest = .anyDepth :: rest') :
    mergeAnyDepth (.anyDepth :: rest) = .anyDepth :: rest' := by
  simp only [mergeAnyDepth, h]

/-- Merging is the same before and after the segments are read. -/
theorem map_mergeAny (ps : List (List Char)) :
    (mergeAny ps).map Segment.ofText = mergeAnyDepth (ps.map Segment.ofText) := by
  induction ps using mergeAny.induct with
  | case1 p q rest h ih =>
    obtain ⟨rfl, rfl⟩ := h
    obtain ⟨qs, hqs⟩ := mergeAny_cons anySegments rest
    rw [hqs, List.map_cons, ofText_anySegments] at ih
    rw [mergeAny, if_pos ⟨rfl, rfl⟩, hqs, List.map_cons, List.map_cons, ofText_anySegments]
    exact (mergeAnyDepth_any ih.symm).symm
  | case2 p q rest h ih =>
    obtain ⟨qs, hqs⟩ := mergeAny_cons q rest
    rw [mergeAny, if_neg h, List.map_cons, List.map_cons, mergeAnyDepth, ih]
    intro rest' hp hrest
    rw [← ih, hqs, List.map_cons] at hrest
    exact h ⟨ofText_eq_anyDepth.mp hp, ofText_eq_anyDepth.mp (List.cons.inj hrest).1⟩
  | case3 ps h =>
    rw [mergeAny]
    · rcases ps with _ | ⟨p, _ | ⟨q, rest⟩⟩
      · rfl
      · simp [mergeAnyDepth]
      · exact (h p q rest rfl).elim
    · exact h

theorem segments_withSlash (path : String) :
    (withSeparator path (some "/")).segments =
      (mergeAny (Text.splitOn '/' path.toList)).map Segment.ofText := by
  rw [map_mergeAny]
  rfl

/-- The parts of a segment take no slash if no class of the pattern does. -/
theorem notMem_of_mem_wordsOf_segment {path : String}
    (hslash : ∀ negated body, (withSeparator path (some "/")).HasClass negated body →
      ¬ Accepts negated body '/') :
    ∀ p ∈ mergeAny (Text.splitOn '/' path.toList), ∀ u ∈ wordsOf (tokens p), '/' ∉ u := by
  intro p hp
  have hfree : '/' ∉ p := Text.notMem_of_mem_splitOn (mem_of_mem_mergeAny hp)
  refine notMem_of_mem_wordsOf (slashFree_of_mem_tokens hfree fun negated body hmem => ?_)
  by_cases hany : p = anySegments
  · subst hany
    simp [tokens, anySegments, tokensFrom_run] at hmem
  · refine hslash negated body ⟨tokens p, ?_, hmem⟩
    rw [segments_withSlash, ← ofText_of_ne hany]
    exact List.mem_map_of_mem hp

/-- **Patterns match segment by segment.** If no range in a class of a pattern runs downwards and no class
    accepts the slash, then the pattern accepts those names of one line whose segments its own segments,
    with neighbouring `**` merged, match. -/
theorem matches_iff_pathMatches {path name : String}
    (hup : ∀ negated body, (withSeparator path (some "/")).HasClass negated body →
      hasReversed body = false)
    (hslash : ∀ negated body, (withSeparator path (some "/")).HasClass negated body →
      ¬ Accepts negated body '/')
    (hname : '\n' ∉ name.toList) :
    ∃ accepted, (withSeparator path (some "/")).matches name = .ok accepted ∧
      (accepted = true ↔
        PathMatches (mergeAny (Text.splitOn '/' path.toList)) (Text.splitOn '/' name.toList)) := by
  obtain ⟨accepted, hmatch, hiff⟩ := matches_eq (upright_iff.mpr hup) name
  have hwords : (sequence (withSeparator path (some "/")).parts).words {} =
      pathWords true false (mergeAny (Text.splitOn '/' path.toList)) := by
    rw [parts, segments_withSlash]
    rfl
  have hne : mergeAny (Text.splitOn '/' path.toList) ≠ [] := by
    obtain ⟨p, ps, hsplit⟩ := List.exists_cons_of_ne_nil (Text.splitOn_ne_nil '/' path.toList)
    obtain ⟨qs, hqs⟩ := mergeAny_cons p ps
    simp [hsplit, hqs]
  refine ⟨accepted, hmatch, ?_⟩
  rw [hiff, hwords,
    ← mem_pathWords (merged_mergeAny _) (notMem_of_mem_wordsOf_segment hslash) hne _ hname]
  constructor
  · rintro ⟨w, hw, heq | heq⟩
    · exact heq ▸ hw
    · -- a line feed behind the words would stand in the name
      exact absurd (heq ▸ List.mem_append_right w List.mem_cons_self) hname
  · intro hw
    exact ⟨_, hw, Or.inl rfl⟩

/-- A class with a range around the slash takes none where it is negated. -/
theorem matches_docs :
    (withSeparator "docs/**/[!.-0]?.txt" (some "/")).matches "docs/a/b/c1.txt" = .ok true := by
  have hsegments : (withSeparator "docs/**/[!.-0]?.txt" (some "/")).segments =
      [.name ("docs".toList.map .literal), .anyDepth,
        .name (.members true ['.', '-', '0'] :: .single :: ".txt".toList.map .literal)] := by
    decide +kernel
  have hclass (negated : Bool) (body : List Char)
      (h : (withSeparator "docs/**/[!.-0]?.txt" (some "/")).HasClass negated body) :
      negated = true ∧ body = ['.', '-', '0'] := by
    obtain ⟨tokens, hname, hmem⟩ := h
    rw [hsegments] at hname
    rcases hname with _ | ⟨_, _ | ⟨_, _ | ⟨_, hname⟩⟩⟩
    · simp at hmem
    · simpa using hmem
    · cases hname
  obtain ⟨accepted, hmatch, hiff⟩ :=
    @matches_iff_pathMatches "docs/**/[!.-0]?.txt" "docs/a/b/c1.txt"
      (fun negated body h => by obtain ⟨-, rfl⟩ := hclass negated body h; decide)
      (fun negated body h => by obtain ⟨rfl, rfl⟩ := hclass negated body h; decide)
      (by decide)
  have hpattern : mergeAny (Text.splitOn '/' "docs/**/[!.-0]?.txt".toList) =
      ["docs".toList, anySegments, "[!.-0]?.txt".toList] := by decide
  have hname : Text.splitOn '/' "docs/a/b/c1.txt".toList =
      ["docs".toList, "a".toList, "b".toList, "c1.txt".toList] := by decide
  have hdocs : SegmentMatches "docs".toList "docs".toList :=
    .literal (by decide) (.literal (by decide) (.literal (by decide) (.literal (by decide) .nil)))
  have htext : SegmentMatches ".txt".toList ".txt".toList :=
    .literal (by decide) (.literal (by decide) (.literal (by decide) (.literal (by decide) .nil)))
  have hcloses : Closes "!.-0]?.txt".toList true ['.', '-', '0'] "?.txt".toList :=
    closeClass?_eq_some.mp (by decide)
  have hfile : SegmentMatches "[!.-0]?.txt".toList "c1.txt".toList :=
    .member hcloses (by decide) (.single htext)
  have hmatches : accepted = true := by
    rw [hiff, hpattern, hname]
    exact .segment (by decide) hdocs
      (.anyMore (by decide) (by decide) (.anyMore (by decide) (by decide)
        (.anyNone (by decide) (.segment (by decide) hfile .nil))))
  rw [hmatch, hmatches]

end FileDepot.Glob
