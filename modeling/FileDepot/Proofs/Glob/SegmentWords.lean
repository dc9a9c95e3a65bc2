import FileDepot.Proofs.Glob.Compiled

/-!
# Matching one segment

An ordinary segment of a pattern matches a segment of a name character by character. The matcher below reads
the text of the segment itself, with no expression in between; the expression of the segment has the same
words.

Contents:

* `SegmentMatches` — a segment of a pattern matches a segment of a name;
* `wordsOf` — the words of the parts of a segment, when the slash is the only separator;
* `mem_wordsOf_tokens` — a segment matches the words of its parts;
* `Token.crosses`, `count_of_mem_wordsOf` — each slash in a word of a segment is taken by a class;
* `notMem_of_mem_wordsOf` — where no class accepts a slash, no word of a segment has one.
-/

namespace FileDepot.Glob

open Regex

/-! ## The direct matcher -/

/-- An ordinary segment of a pattern matches a segment of a name completely, character by character. -/
inductive SegmentMatches : List Char → List Char → Prop
  | nil : SegmentMatches [] []
  | runEnd {p w : List Char} (h : SegmentMatches p w) : SegmentMatches ('*' :: p) w
  | runNext {p w : List Char} {c : Char} (h : SegmentMatches ('*' :: p) w) :
    SegmentMatches ('*' :: p) (c :: w)
  | single {p w : List Char} {c : Char} (h : SegmentMatches p w) : SegmentMatches ('?' :: p) (c :: w)
  | member {p body rest w : List Char} {negated : Bool} {c : Char} (hclass : Closes p negated body rest)
    (hc : Accepts negated body c) (h : SegmentMatches rest w) : SegmentMatches ('[' :: p) (c :: w)
  | bracket {p w : List Char} (hopen : ∀ negated body rest, ¬ Closes p negated body rest)
    (h : SegmentMatches p w) : SegmentMatches ('[' :: p) ('[' :: w)
  | literal {c : Char} {p w : List Char} (hc : c ≠ '*' ∧ c ≠ '?' ∧ c ≠ '[') (h : SegmentMatches p w) :
    SegmentMatches (c :: p) (c :: w)

/-- Behind a run any end of the word may match the rest of the segment. -/
theorem segmentMatches_run {p w : List Char} :
    SegmentMatches ('*' :: p) w ↔ ∃ u v, u ++ v = w ∧ SegmentMatches p v := by
  constructor
  · intro h
    generalize hq : '*' :: p = q at h
    induction h with
    | runEnd h _ =>
      obtain ⟨-, rfl⟩ := List.cons.inj hq
      exact ⟨[], _, rfl, h⟩
    | @runNext p' w c _ ih =>
      obtain ⟨u, v, rfl, hv⟩ := ih hq
      exact ⟨c :: u, v, rfl, hv⟩
    | literal hc _ _ => exact absurd (List.cons.inj hq).1.symm hc.1
    | nil => cases hq
    | single => cases hq
    | member => cases hq
    | bracket => cases hq
  · rintro ⟨u, v, rfl, hv⟩
    induction u with
    | nil => exact .runEnd hv
    | cons c u ih => exact .runNext ih

theorem segmentMatches_nil {w : List Char} : SegmentMatches [] w ↔ w = [] := by
  constructor
  · intro h
    cases h
    rfl
  · rintro rfl
    exact .nil

theorem segmentMatches_single {p w : List Char} :
    SegmentMatches ('?' :: p) w ↔ ∃ c v, c :: v = w ∧ SegmentMatches p v := by
  constructor
  · intro h
    cases h with
    | single h => exact ⟨_, _, rfl, h⟩
    | literal hc _ => exact absurd rfl hc.2.1
  · rintro ⟨c, v, rfl, h⟩
    exact .single h

theorem segmentMatches_class {p body rest w : List Char} {negated : Bool}
    (hclass : Closes p negated body rest) :
    SegmentMatches ('[' :: p) w ↔ ∃ c v, c :: v = w ∧ Accepts negated body c ∧ SegmentMatches rest v := by
  constructor
  · intro h
    cases h with
    | member hclass' hc h =>
      obtain ⟨rfl, rfl, rfl⟩ := hclass.unique hclass'
      exact ⟨_, _, rfl, hc, h⟩
    | bracket hopen _ => exact absurd hclass (hopen _ _ _)
    | literal hc _ => exact absurd rfl hc.2.2
  · rintro ⟨c, v, rfl, hc, h⟩
    exact .member hclass hc h

theorem segmentMatches_bracket {p w : List Char}
    (hopen : ∀ negated body rest, ¬ Closes p negated body rest) :
    SegmentMatches ('[' :: p) w ↔ ∃ v, '[' :: v = w ∧ SegmentMatches p v := by
  constructor
  · intro h
    cases h with
    | member hclass _ _ => exact absurd hclass (hopen _ _ _)
    | bracket _ h => exact ⟨_, rfl, h⟩
    | literal hc _ => exact absurd rfl hc.2.2
  · rintro ⟨v, rfl, h⟩
    exact .bracket hopen h

theorem segmentMatches_literal {c : Char} {p w : List Char} (hc : c ≠ '*' ∧ c ≠ '?' ∧ c ≠ '[') :
    SegmentMatches (c :: p) w ↔ ∃ v, c :: v = w ∧ SegmentMatches p v := by
  constructor
  · intro h
    cases h with
    | literal _ h => exact ⟨_, rfl, h⟩
    | runEnd => exact absurd rfl hc.1
    | runNext => exact absurd rfl hc.1
    | single => exact absurd rfl hc.2.1
    | member => exact absurd rfl hc.2.2
    | bracket => exact absurd rfl hc.2.2
  · rintro ⟨v, rfl, h⟩
    exact .literal hc h

/-! ## The words of one segment -/

/-- The expression of a pattern sets no option, so a character equals itself only. -/
@[simp] theorem equates_default (x c : Char) : Options.equates {} x c = true ↔ x = c := by
  simp only [Options.equates, Options.alike, Options.fold]
  simpa using eq_comm

@[simp] theorem otherTest_accepts (c : Char) : (otherTest []).accepts {} c = true ↔ c ≠ '/' := by
  simpa [otherTest, CharTest.accepts, CharClass.accepts, CharClass.lists, ClassItem.holds] using
    not_congr eq_comm

theorem forall_otherTest_accepts {w : List Char} :
    (∀ c ∈ w, (otherTest []).accepts {} c = true) ↔ '/' ∉ w := by
  simp only [otherTest_accepts]
  exact ⟨fun h hmem => h _ hmem rfl, fun h c hc heq => h (heq ▸ hc)⟩

@[simp] theorem bodyItems_accepts (negated : Bool) (body : List Char) (c : Char) :
    (CharTest.member ⟨negated, bodyItems body⟩).accepts {} c = true ↔ Accepts negated body c := by
  simp [CharTest.accepts, CharClass.accepts, CharClass.lists, any_bodyItems, Accepts]

/-- The words of the parts of a segment. -/
def wordsOf (tokens : List Token) : Language Char :=
  (sequence (tokens.map (Token.regex []))).words {}

section

variable {tokens : List Token} {w : List Char}

theorem mem_wordsOf_nil : w ∈ wordsOf [] ↔ w = [] := Iff.rfl

theorem mem_wordsOf_run :
    w ∈ wordsOf (.run :: tokens) ↔ ∃ u v, u ++ v = w ∧ '/' ∉ u ∧ v ∈ wordsOf tokens := by
  simp only [wordsOf, List.map_cons, sequence_cons, mem_words_seq, Token.regex, mem_words_star_one,
    forall_otherTest_accepts]
  constructor
  · rintro ⟨u, hu, v, hv, rfl⟩
    exact ⟨u, v, rfl, hu, hv⟩
  · rintro ⟨u, v, rfl, hu, hv⟩
    exact ⟨u, hu, v, hv, rfl⟩

/-- A part that is a test takes one character. -/
theorem mem_wordsOf_test {t : Token} {test : CharTest} (ht : t.regex [] = .one test) :
    w ∈ wordsOf (t :: tokens) ↔ ∃ c v, c :: v = w ∧ test.accepts {} c = true ∧ v ∈ wordsOf tokens := by
  simp only [wordsOf, List.map_cons, sequence_cons, ht, mem_words_seq, mem_words_one]
  constructor
  · rintro ⟨_, ⟨c, rfl, hc⟩, v, hv, rfl⟩
    exact ⟨c, v, rfl, hc, hv⟩
  · rintro ⟨c, v, rfl, hc, hv⟩
    exact ⟨[c], ⟨c, rfl, hc⟩, v, hv, rfl⟩

theorem mem_wordsOf_literal {c : Char} :
    w ∈ wordsOf (.literal c :: tokens) ↔ ∃ v, c :: v = w ∧ v ∈ wordsOf tokens := by
  rw [mem_wordsOf_test rfl]
  constructor
  · rintro ⟨d, v, rfl, hd, hv⟩
    obtain rfl := (equates_default c d).mp hd
    exact ⟨v, rfl, hv⟩
  · rintro ⟨v, rfl, hv⟩
    exact ⟨c, v, rfl, (equates_default c c).mpr rfl, hv⟩

end

/-- Behind a run a further one changes nothing. -/
theorem mem_wordsOf_afterRun {p w : List Char} :
    w ∈ wordsOf (.run :: tokensFrom true p) ↔ w ∈ wordsOf (.run :: tokensFrom false p) := by
  by_cases hp : p.head? = some '*'
  · obtain ⟨q, rfl⟩ := List.head?_eq_some_iff.mp hp
    simp only [tokensFrom_run, if_true, Bool.false_eq_true, if_false, List.nil_append,
      List.singleton_append, mem_wordsOf_run]
    constructor
    · rintro ⟨u, v, rfl, hu, hv⟩
      exact ⟨u, v, rfl, hu, [], v, rfl, by simp, hv⟩
    · rintro ⟨u, _, rfl, hu, u', v, rfl, hu', hv⟩
      exact ⟨u ++ u', v, by simp, by simp [hu, hu'], hv⟩
  · have hsame : tokensFrom true p = tokensFrom false p := by
      cases p with
      | nil => simp
      | cons c q =>
        have hc : c ≠ '*' := by simpa using hp
        rw [tokensFrom, tokensFrom, if_neg hc, if_neg hc]
    rw [hsame]

/-- **The words of a segment are those that it matches.** -/
theorem mem_wordsOf_tokens (p : List Char) :
    ∀ w, '/' ∉ w → (w ∈ wordsOf (tokens p) ↔ SegmentMatches p w) := by
  -- the parts are read with a flag for the run in front, which the words do not depend on
  have key (afterRun : Bool) (p : List Char) :
      ∀ w, '/' ∉ w → (w ∈ wordsOf (tokensFrom false p) ↔ SegmentMatches p w) := by
    have run {cs : List Char}
        (ih : ∀ w, '/' ∉ w → (w ∈ wordsOf (tokensFrom false cs) ↔ SegmentMatches cs w))
        (w : List Char) (hw : '/' ∉ w) :
        w ∈ wordsOf (tokensFrom false ('*' :: cs)) ↔ SegmentMatches ('*' :: cs) w := by
      rw [tokensFrom_run, if_neg (by decide), List.singleton_append, mem_wordsOf_afterRun, mem_wordsOf_run,
        segmentMatches_run]
      refine exists_congr fun u => exists_congr fun v => and_congr_right fun huv => ?_
      obtain ⟨hu, hv⟩ : '/' ∉ u ∧ '/' ∉ v := by simpa [← huv] using hw
      simp [hu, ih v hv]
    -- in a piece without a slash a part takes any character where its expression takes any but a slash
    induction afterRun, p using tokensFrom.induct with
    | case1 => simpa [segmentMatches_nil] using fun w _ => mem_wordsOf_nil
    | case2 cs ih => exact run ih
    | case3 afterRun cs _ ih => exact run ih
    | case4 afterRun cs _ ih =>
      intro w hw
      rw [tokensFrom_single, mem_wordsOf_test rfl, segmentMatches_single]
      refine exists_congr fun c => exists_congr fun v => and_congr_right fun hcv => ?_
      obtain ⟨hc, hv⟩ : '/' ≠ c ∧ '/' ∉ v := by simpa [← hcv] using hw
      simp [Ne.symm hc, ih v hv]
    | case5 afterRun cs cls hcls _ _ ih =>
      intro w hw
      have hclosed := closeClass?_eq_some.mp hcls
      rw [tokensFrom_class false hclosed, mem_wordsOf_test rfl, segmentMatches_class hclosed]
      refine exists_congr fun c => exists_congr fun v => and_congr_right fun hcv => ?_
      obtain ⟨hc, hv⟩ : '/' ≠ c ∧ '/' ∉ v := by simpa [← hcv] using hw
      simp [ih v hv]
    | case6 afterRun cs hnone _ _ ih =>
      intro w hw
      have hopen := closeClass?_eq_none.mp hnone
      rw [tokensFrom_bracket false hopen, mem_wordsOf_literal, segmentMatches_bracket hopen]
      refine exists_congr fun v => and_congr_right fun hv => ih v fun hmem => hw ?_
      exact hv ▸ List.mem_cons_of_mem _ hmem
    | case7 afterRun c cs hrun hsingle hbracket ih =>
      intro w hw
      have hc : c ≠ '*' ∧ c ≠ '?' ∧ c ≠ '[' := ⟨hrun, hsingle, hbracket⟩
      rw [tokensFrom_literal false hc, mem_wordsOf_literal, segmentMatches_literal hc]
      refine exists_congr fun v => and_congr_right fun hv => ih v fun hmem => hw ?_
      exact hv ▸ List.mem_cons_of_mem _ hmem
  exact key false p

/-! ## Slashes in the words of a segment -/

/-- The part is a class that accepts the slash. -/
def Token.crosses : Token → Bool
  | .members negated body => decide (Accepts negated body '/')
  | _ => false

/-- Each slash in a word of a segment is taken by a class of its own. -/
theorem count_of_mem_wordsOf {tokens : List Token} (hliteral : .literal '/' ∉ tokens) :
    ∀ w ∈ wordsOf tokens, w.count '/' ≤ tokens.countP Token.crosses := by
  induction tokens with
  | nil =>
    rintro w rfl
    simp
  | cons t tokens ih =>
    have ih := ih fun h => hliteral (List.mem_cons_of_mem _ h)
    intro w hw
    rw [List.countP_cons]
    cases t with
    | run =>
      obtain ⟨u, v, rfl, hu, hv⟩ := mem_wordsOf_run.mp hw
      have := ih v hv
      rw [List.count_append, List.count_eq_zero.mpr hu]
      omega
    | single =>
      obtain ⟨c, v, rfl, hc, hv⟩ := (mem_wordsOf_test rfl).mp hw
      have hslash : c ≠ '/' := (otherTest_accepts c).mp hc
      have := ih v hv
      rw [List.count_cons_of_ne hslash]
      omega
    | members negated body =>
      obtain ⟨c, v, rfl, hc, hv⟩ := (mem_wordsOf_test rfl).mp hw
      have := ih v hv
      by_cases hslash : c = '/'
      · subst hslash
        have hcrosses : Token.crosses (.members negated body) = true :=
          decide_eq_true ((bodyItems_accepts negated body '/').mp hc)
        rw [List.count_cons_self, if_pos hcrosses]
        omega
      · rw [List.count_cons_of_ne hslash]
        omega
    | literal c =>
      obtain ⟨v, rfl, hv⟩ := mem_wordsOf_literal.mp hw
      have hslash : c ≠ '/' := by
        rintro rfl
        exact hliteral List.mem_cons_self
      have := ih v hv
      rw [List.count_cons_of_ne hslash]
      omega

theorem countP_crosses {tokens : List Token}
    (hclass : ∀ negated body, .members negated body ∈ tokens → ¬ Accepts negated body '/') :
    tokens.countP Token.crosses = 0 := by
  refine List.countP_eq_zero.mpr fun t ht => ?_
  cases t with
  | members negated body => simpa [Token.crosses] using hclass negated body ht
  | run => simp [Token.crosses]
  | single => simp [Token.crosses]
  | literal c => simp [Token.crosses]

/-- The part of a segment takes no slash. -/
def Token.SlashFree : Token → Prop
  | .members negated body => ¬ Accepts negated body '/'
  | .literal c => c ≠ '/'
  | _ => True

theorem slashFree_of_mem_tokens {p : List Char} (hp : '/' ∉ p)
    (hclass : ∀ negated body, .members negated body ∈ tokens p → ¬ Accepts negated body '/') :
    ∀ t ∈ tokens p, t.SlashFree := by
  intro t ht
  cases t with
  | members negated body => exact hclass negated body ht
  | literal c =>
    rintro rfl
    exact hp (mem_of_literal_mem_tokensFrom ht)
  | run => exact trivial
  | single => exact trivial

/-- Words of a segment stay within one segment of a name. -/
theorem notMem_of_mem_wordsOf {tokens : List Token} (h : ∀ t ∈ tokens, t.SlashFree) :
    ∀ w ∈ wordsOf tokens, '/' ∉ w := by
  intro w hw
  have hliteral : .literal '/' ∉ tokens := fun hmem => h _ hmem rfl
  have hcount := count_of_mem_wordsOf hliteral w hw
  rw [countP_crosses fun negated body hmem => h _ hmem] at hcount
  exact List.count_eq_zero.mp (Nat.le_zero.mp hcount)

end FileDepot.Glob
