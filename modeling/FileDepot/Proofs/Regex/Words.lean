import FileDepot.Proofs.Regex.Spans
import Mathlib.Computability.Language

/-!
# Words of an expression

Without conditions on places, what an expression matches does not depend on where in a text it stands. Such
an expression has a language: the words that it matches.

Contents:

* `IsPlain` — the expression has no condition on places and no commitment to a first way;
* `words` — the language of an expression;
* `mem_words_map` — a change of characters that no test tells changes no word;
* `spans_iff_words` — the matches of a plain expression are its words, wherever they stand;
* `matchesStart_anchored`, `searches_anchored` — an expression between the two anchors accepts its words,
  with or without a line feed behind them, and searching for it is matching it from the start.
-/

open scoped Computability

namespace FileDepot.Regex

variable {o : Options} {text : List Char}

/-- The expression has no condition on places and no commitment to a first way of matching. -/
def IsPlain : Regex → Prop
  | .empty => True
  | .one _ => True
  | .anchor _ => False
  | .seq r s => r.IsPlain ∧ s.IsPlain
  | .alt r s => r.IsPlain ∧ s.IsPlain
  | .star r => r.IsPlain
  | .once _ => False

/-- The words that a plain expression matches. -/
def words (o : Options) : Regex → Language Char
  | .empty => 1
  | .one t => {w | ∃ c, w = [c] ∧ t.accepts o c = true}
  | .anchor _ => 0
  | .seq r s => r.words o * s.words o
  | .alt r s => r.words o + s.words o
  | .star r => (r.words o)∗
  | .once _ => 0

/-! ## Membership, constructor by constructor -/

theorem mem_words_one {t : CharTest} {w : List Char} :
    w ∈ (Regex.one t).words o ↔ ∃ c, w = [c] ∧ t.accepts o c = true := Iff.rfl

theorem mem_words_seq {r s : Regex} {w : List Char} :
    w ∈ (Regex.seq r s).words o ↔ ∃ u ∈ r.words o, ∃ v ∈ s.words o, u ++ v = w :=
  Language.mem_mul

theorem mem_words_alt {r s : Regex} {w : List Char} :
    w ∈ (Regex.alt r s).words o ↔ w ∈ r.words o ∨ w ∈ s.words o := Iff.rfl

theorem mem_words_star {r : Regex} {w : List Char} :
    w ∈ (Regex.star r).words o ↔
      ∃ ws : List (List Char), w = ws.flatten ∧ ∀ u ∈ ws, u ∈ r.words o :=
  Language.mem_kstar

/-- A repetition of one test matches the words whose characters all pass it. -/
theorem mem_words_star_one {t : CharTest} {w : List Char} :
    w ∈ (Regex.star (.one t)).words o ↔ ∀ c ∈ w, t.accepts o c = true := by
  rw [mem_words_star]
  constructor
  · rintro ⟨ws, rfl, hws⟩ c hc
    obtain ⟨u, hu, hcu⟩ := List.mem_flatten.mp hc
    obtain ⟨d, rfl, hd⟩ := mem_words_one.mp (hws u hu)
    exact List.mem_singleton.mp hcu ▸ hd
  · intro h
    refine ⟨w.map fun c => [c], (List.flatMap_singleton' w).symm, ?_⟩
    intro u hu
    obtain ⟨c, hc, rfl⟩ := List.mem_map.mp hu
    exact ⟨c, rfl, h c hc⟩

/-- At least one of one test matches the words that have characters, all of which pass it. -/
theorem mem_words_plus_one {t : CharTest} {w : List Char} :
    w ∈ (plus (.one t)).words o ↔ w ≠ [] ∧ ∀ c ∈ w, t.accepts o c = true := by
  simp only [plus, mem_words_seq, mem_words_one, mem_words_star_one]
  constructor
  · rintro ⟨_, ⟨c, rfl, hc⟩, v, hv, rfl⟩
    exact ⟨by simp, List.forall_mem_cons.mpr ⟨hc, hv⟩⟩
  · rintro ⟨hne, h⟩
    cases w with
    | nil => exact absurd rfl hne
    | cons c v =>
      obtain ⟨hc, hv⟩ := List.forall_mem_cons.mp h
      exact ⟨[c], ⟨c, rfl, hc⟩, v, hv, rfl⟩

/-- A repetition matches one word after another, each of them given in some form. -/
theorem mem_words_star_of {r : Regex} {α : Type} {f : α → List Char} {P : α → Prop}
    (hr : ∀ u, u ∈ r.words o ↔ ∃ x, f x = u ∧ P x) {w : List Char} :
    w ∈ (Regex.star r).words o ↔ ∃ xs : List α, xs.flatMap f = w ∧ ∀ x ∈ xs, P x := by
  rw [mem_words_star]
  constructor
  · rintro ⟨ws, rfl, hws⟩
    induction ws with
    | nil => exact ⟨[], by simp, by simp⟩
    | cons u ws ih =>
      obtain ⟨hu, hrest⟩ := List.forall_mem_cons.mp hws
      obtain ⟨x, rfl, hx⟩ := (hr u).mp hu
      obtain ⟨xs, hxs, hall⟩ := ih hrest
      exact ⟨x :: xs, by simp [hxs], List.forall_mem_cons.mpr ⟨hx, hall⟩⟩
  · rintro ⟨xs, rfl, hxs⟩
    refine ⟨xs.map f, List.flatMap_def .., fun u hu => ?_⟩
    obtain ⟨x, hx, rfl⟩ := List.mem_map.mp hu
    exact (hr (f x)).mpr ⟨x, rfl, hxs x hx⟩

/-! ## Sequences -/

@[simp] theorem sequence_cons (r : Regex) (rs : List Regex) :
    sequence (r :: rs) = .seq r (sequence rs) := rfl

@[simp] theorem mem_words_sequence_nil {w : List Char} :
    w ∈ (sequence []).words o ↔ w = [] := Iff.rfl

theorem words_sequence_append (rs ss : List Regex) :
    (sequence (rs ++ ss)).words o = (sequence rs).words o * (sequence ss).words o := by
  induction rs with
  | nil => exact (one_mul _).symm
  | cons r rs ih =>
    show r.words o * (sequence (rs ++ ss)).words o = _
    rw [ih, ← mul_assoc]
    rfl

theorem mem_words_sequence_append {rs ss : List Regex} {w : List Char} :
    w ∈ (sequence (rs ++ ss)).words o ↔
      ∃ u ∈ (sequence rs).words o, ∃ v ∈ (sequence ss).words o, u ++ v = w := by
  rw [words_sequence_append]
  exact Language.mem_mul

theorem isPlain_sequence {rs : List Regex} (h : ∀ r ∈ rs, r.IsPlain) : (sequence rs).IsPlain := by
  induction rs with
  | nil => exact trivial
  | cons r rs ih =>
    exact ⟨h r (by simp), ih fun s hs => h s (by simp [hs])⟩

theorem spans_sequence_append {rs ss : List Regex} {i k : Nat} :
    Spans o text (sequence (rs ++ ss)) i k ↔
      ∃ j, Spans o text (sequence rs) i j ∧ Spans o text (sequence ss) j k := by
  induction rs generalizing i with
  | nil => simp [sequence, Spans]
  | cons r rs ih =>
    simp only [List.cons_append, sequence_cons, Spans, ih]
    constructor
    · rintro ⟨m, hm, j, hj, hk⟩
      exact ⟨j, ⟨m, hm, hj⟩, hk⟩
    · rintro ⟨j, ⟨m, hm, hj⟩, hk⟩
      exact ⟨m, hm, j, hj, hk⟩

/-! ## Characters that are not told apart -/

/-- Every test in the expression has the property. -/
def AllTests (P : CharTest → Prop) : Regex → Prop
  | .empty => True
  | .one t => P t
  | .anchor _ => True
  | .seq r s => r.AllTests P ∧ s.AllTests P
  | .alt r s => r.AllTests P ∧ s.AllTests P
  | .star r => r.AllTests P
  | .once r => r.AllTests P

theorem allTests_sequence {P : CharTest → Prop} {rs : List Regex} (h : ∀ r ∈ rs, r.AllTests P) :
    (sequence rs).AllTests P := by
  induction rs with
  | nil => exact trivial
  | cons r rs ih => exact ⟨h r (by simp), ih fun s hs => h s (by simp [hs])⟩

/-- **A change of characters that no test tells changes no word.** -/
theorem mem_words_map {f : Char → Char} {r : Regex}
    (h : r.AllTests fun t => ∀ c, t.accepts o (f c) = t.accepts o c) :
    ∀ w : List Char, w.map f ∈ r.words o ↔ w ∈ r.words o := by
  induction r with
  | empty => exact fun w => List.map_eq_nil_iff
  | one t =>
    intro w
    rw [mem_words_one, mem_words_one]
    constructor
    · rintro ⟨c, hw, hc⟩
      obtain ⟨d, rfl, rfl⟩ := List.map_eq_singleton_iff.mp hw
      exact ⟨d, rfl, h d ▸ hc⟩
    · rintro ⟨c, rfl, hc⟩
      exact ⟨f c, rfl, (h c).trans hc⟩
  | anchor a => exact fun w => Iff.rfl
  | seq r s ihr ihs =>
    intro w
    rw [mem_words_seq, mem_words_seq]
    constructor
    · rintro ⟨u, hu, v, hv, heq⟩
      obtain ⟨u, v, rfl, rfl, rfl⟩ := List.map_eq_append_iff.mp heq.symm
      exact ⟨u, (ihr h.1 u).mp hu, v, (ihs h.2 v).mp hv, rfl⟩
    · rintro ⟨u, hu, v, hv, rfl⟩
      exact ⟨u.map f, (ihr h.1 u).mpr hu, v.map f, (ihs h.2 v).mpr hv, List.map_append.symm⟩
  | alt r s ihr ihs => exact fun w => or_congr (ihr h.1 w) (ihs h.2 w)
  | star r ih =>
    intro w
    rw [mem_words_star, mem_words_star]
    constructor
    · rintro ⟨ws, hw, hws⟩
      -- the changed word falls into rounds, and the word itself into rounds at the same places
      induction ws generalizing w with
      | nil => exact ⟨[], List.map_eq_nil_iff.mp hw, by simp⟩
      | cons u ws ihws =>
        obtain ⟨hu, hrest⟩ := List.forall_mem_cons.mp hws
        obtain ⟨u, v, rfl, rfl, hv⟩ := List.map_eq_append_iff.mp hw
        obtain ⟨vs, rfl, hvs⟩ := ihws v hv hrest
        exact ⟨u :: vs, rfl, List.forall_mem_cons.mpr ⟨(ih h u).mp hu, hvs⟩⟩
    · rintro ⟨ws, rfl, hws⟩
      refine ⟨ws.map (List.map f), List.map_flatten, fun u hu => ?_⟩
      obtain ⟨v, hv, rfl⟩ := List.mem_map.mp hu
      exact (ih h v).mpr (hws v hv)
  | once r ih => exact fun w => Iff.rfl

/-! ## Matches are words -/

/-- **A plain expression matches its words.** From a place in a text it leads to the places behind those of
    its words that stand there. -/
theorem spans_iff_words (o : Options) {r : Regex} (hr : r.IsPlain) :
    ∀ (front rest : List Char) (j : Nat), Spans o (front ++ rest) r front.length j ↔
      ∃ w behind, rest = w ++ behind ∧ j = (front ++ w).length ∧ w ∈ r.words o := by
  induction r with
  | empty =>
    intro front rest j
    constructor
    · rintro rfl
      exact ⟨[], rest, rfl, by simp, rfl⟩
    · rintro ⟨w, behind, -, rfl, hw⟩
      obtain rfl : w = [] := hw
      simp [Spans]
  | one t =>
    intro front rest j
    simp only [Spans, List.getElem?_append_right (Nat.le_refl front.length), Nat.sub_self,
      mem_words_one]
    constructor
    · rintro ⟨rfl, ht⟩
      cases rest with
      | nil => simp at ht
      | cons c rest => exact ⟨[c], rest, rfl, by simp, c, rfl, by simpa using ht⟩
    · rintro ⟨w, behind, rfl, rfl, c, rfl, ht⟩
      exact ⟨by simp, by simpa using ht⟩
  | anchor a => exact hr.elim
  | seq r s ihr ihs =>
    intro front rest k
    simp only [Spans, mem_words_seq]
    -- behind the first word the text in front has grown by it, which is why `front` varies
    constructor
    · rintro ⟨j, hj, hk⟩
      obtain ⟨u, behind, rfl, rfl, hu⟩ := (ihr hr.1 front rest j).mp hj
      rw [← List.append_assoc] at hk
      obtain ⟨v, behind, rfl, rfl, hv⟩ := (ihs hr.2 (front ++ u) behind k).mp hk
      exact ⟨u ++ v, behind, by simp, by simp, u, hu, v, hv, rfl⟩
    · rintro ⟨w, behind, rfl, rfl, u, hu, v, hv, rfl⟩
      refine ⟨(front ++ u).length, (ihr hr.1 front _ _).mpr ⟨u, v ++ behind, by simp, rfl, hu⟩, ?_⟩
      have := (ihs hr.2 (front ++ u) (v ++ behind) (front ++ u ++ v).length).mpr
        ⟨v, behind, rfl, rfl, hv⟩
      simpa using this
  | alt r s ihr ihs =>
    intro front rest j
    simp only [Spans, ihr hr.1, ihs hr.2, mem_words_alt, and_or_left, exists_or]
  | star r ih =>
    intro front rest j
    simp only [Spans, mem_words_star]
    constructor
    · intro h
      -- the text stays, while the place in front of which the rounds still to come stand moves on
      generalize hi : front.length = i at h
      generalize htext : front ++ rest = whole at h
      induction h using Relation.ReflTransGen.head_induction_on generalizing front rest with
      | refl => exact ⟨[], rest, rfl, by simp [hi], [], rfl, by simp⟩
      | head hstep _ ihstar =>
        subst hi htext
        obtain ⟨u, behind, rfl, rfl, hu⟩ := (ih hr front rest _).mp hstep
        obtain ⟨w, behind, rfl, hj, ws, rfl, hws⟩ := ihstar (front ++ u) behind rfl (by simp)
        refine ⟨u ++ ws.flatten, behind, by simp, by simpa using hj, u :: ws, by simp, ?_⟩
        exact List.forall_mem_cons.mpr ⟨hu, hws⟩
    · rintro ⟨w, behind, rfl, rfl, ws, rfl, hws⟩
      induction ws generalizing front with
      | nil => simpa using Relation.ReflTransGen.refl
      | cons u ws ihws =>
        have hu := (ih hr front ((u ++ ws.flatten) ++ behind) (front ++ u).length).mpr
          ⟨u, ws.flatten ++ behind, by simp, rfl, hws u (by simp)⟩
        have hrest := ihws (front ++ u) fun v hv => hws v (by simp [hv])
        refine Relation.ReflTransGen.head hu ?_
        simpa using hrest
  | once r ih => exact hr.elim

/-! ## Expressions between the two anchors -/

theorem has_lineStart (ho : o.multiLine = false) {i : Nat} (hi : i ≤ text.length) :
    Marks.Has (anchorMarks o .lineStart none text) i ↔ i = 0 := by
  rw [has_anchorMarks hi]
  cases i with
  | zero => simp [Anchor.holds, before?]
  | succ i => simp [Anchor.holds, before?, ho, List.getElem?_eq_getElem (show i < text.length by omega)]

theorem has_lineStop (ho : o.multiLine = false) (front rest : List Char) :
    Marks.Has (anchorMarks o .lineStop none (front ++ rest)) front.length ↔
      rest = [] ∨ rest = ['\n'] := by
  rw [has_anchorMarks (by simp)]
  simp [Anchor.holds, ho]

/-- A search for an expression that starts with the line start finds it at the first place or nowhere. -/
theorem searches_anchored (ho : o.multiLine = false) (rs : List Regex) :
    (sequence (.anchor .lineStart :: rs)).searches o text =
      (sequence (.anchor .lineStart :: rs)).matchesStart o text := by
  rw [Bool.eq_iff_iff, searches_iff, matchesStart_iff]
  constructor
  · rintro ⟨i, hi, j, k, ⟨rfl, hstart⟩, hj⟩
    obtain rfl := (has_lineStart ho hi).mp hstart
    exact ⟨j, 0, ⟨rfl, hstart⟩, hj⟩
  · rintro ⟨j, hj⟩
    exact ⟨0, Nat.zero_le _, j, hj⟩

/-- **Between the anchors stand the words.** An expression between the line start and the line stop accepts
    its words, also with a line feed behind them. -/
theorem matchesStart_anchored (ho : o.multiLine = false) {rs : List Regex}
    (hrs : ∀ r ∈ rs, r.IsPlain) :
    (sequence (.anchor .lineStart :: (rs ++ [.anchor .lineStop]))).matchesStart o text = true ↔
      ∃ w ∈ (sequence rs).words o, text = w ∨ text = w ++ ['\n'] := by
  have hwords := spans_iff_words o (isPlain_sequence hrs) []
  rw [matchesStart_iff]
  simp only [sequence_cons, Spans, spans_sequence_append]
  constructor
  · rintro ⟨_, _, ⟨rfl, -⟩, k, hk, _, ⟨rfl, hstop⟩, -⟩
    obtain ⟨w, behind, rfl, rfl, hw⟩ := (hwords text k).mp hk
    rcases (has_lineStop ho w behind).mp hstop with rfl | rfl
    · exact ⟨w, hw, Or.inl (by simp)⟩
    · exact ⟨w, hw, Or.inr rfl⟩
  · rintro ⟨w, hw, htext⟩
    obtain ⟨behind, rfl, hbehind⟩ :
        ∃ behind, text = w ++ behind ∧ (behind = [] ∨ behind = ['\n']) := by
      rcases htext with rfl | rfl
      · exact ⟨[], by simp, Or.inl rfl⟩
      · exact ⟨['\n'], rfl, Or.inr rfl⟩
    have hspan := (hwords (w ++ behind) w.length).mpr ⟨w, behind, rfl, rfl, hw⟩
    have hstart : Marks.Has (anchorMarks o .lineStart none (w ++ behind)) 0 :=
      (has_lineStart ho (Nat.zero_le _)).mpr rfl
    exact ⟨w.length, 0, ⟨rfl, hstart⟩, w.length, hspan, w.length,
      ⟨rfl, (has_lineStop ho w behind).mpr hbehind⟩, rfl⟩

end FileDepot.Regex
