import FileDepot.Regex.Basic
import Mathlib.Logic.Relation

/-!
# Matches as pairs of places

The matcher moves sets of marked places. `Spans` says the same thing about single places: where a match
that starts at one place may end.

Contents:

* `Spans` — a match may lead from one place to another;
* `Marks.has_saturate` — iterated advancing is the reflexive and transitive closure of one advance;
* `has_advance` — the marks after advancing are the ends of the matches that start at marked places;
* `matchesStart_iff`, `searches_iff` — a match from the first place, and from any.
-/

namespace FileDepot.Regex

variable {o : Options} {text : List Char}

/-- A match of the expression may start at the first place and end at the second. -/
def Spans (o : Options) (text : List Char) : Regex → Nat → Nat → Prop
  | .empty, i, j => i = j
  | .one t, i, j => j = i + 1 ∧ (text[i]?).any (t.accepts o) = true
  | .anchor a, i, j => i = j ∧ Marks.Has (anchorMarks o a none text) i
  | .seq r s, i, k => ∃ j, Spans o text r i j ∧ Spans o text s j k
  | .alt r s, i, j => Spans o text r i j ∨ Spans o text s i j
  | .star r, i, j => Relation.ReflTransGen (Spans o text r) i j
  | .once r, i, j => (ends o text r i).head? = some j

/-! ## Marked places -/

namespace Marks

theorem Has.lt_length {marks : Marks} {i : Nat} (h : Has marks i) : i < marks.length :=
  (List.getElem?_eq_some_iff.mp h).1

theorem any_id_iff (marks : Marks) : marks.any id = true ↔ ∃ i, Has marks i := by
  rw [List.any_eq_true]
  constructor
  · rintro ⟨m, hm, hid⟩
    obtain ⟨i, hi⟩ := List.mem_iff_getElem?.mp hm
    exact ⟨i, by rw [Has, hi]; exact congrArg some hid⟩
  · rintro ⟨i, hi⟩
    exact ⟨true, List.mem_of_getElem? hi, rfl⟩

/-- Marks are added by a union unless it changes nothing. -/
theorem count_lt_count_union {a b : Marks} (hl : a.length = b.length) (h : a.union b ≠ a) :
    a.count true < (a.union b).count true := by
  -- in front of the place that is added, and behind it, no mark is lost
  have hle : ∀ (a b : Marks), a.length = b.length → a.count true ≤ (a.union b).count true := by
    intro a
    induction a with
    | nil => simp
    | cons x xs ih =>
      intro b hb
      cases b with
      | nil => simp at hb
      | cons y ys =>
        have := ih ys (by simpa using hb)
        cases x <;> cases y <;> simp [union] at this ⊢ <;> omega
  induction a generalizing b with
  | nil => cases b <;> simp_all [union]
  | cons x xs ih =>
    cases b with
    | nil => simp at hl
    | cons y ys =>
      have hl' : xs.length = ys.length := by simpa using hl
      have hxs := hle xs ys hl'
      by_cases heq : union xs ys = xs
      · have hne : (x || y) ≠ x := fun hxy => h (by simpa [union, hxy] using heq)
        cases x <;> cases y <;> simp_all [union]
      · have := ih hl' heq
        cases x <;> cases y <;> simp [union] at this ⊢ <;> omega

/-- A set with as many marks as places holds every place. -/
theorem has_of_count_eq_length {marks : Marks} (h : marks.length ≤ marks.count true) {i : Nat}
    (hi : i < marks.length) : Has marks i := by
  have hall : ∀ m ∈ marks, true = m :=
    List.count_eq_length.mp (Nat.le_antisymm List.count_le_length h)
  rw [Has, List.getElem?_eq_getElem hi, ← hall _ (List.getElem_mem hi)]

/-- **Saturation reaches exactly the closure.** If one advance leads along `R`, then saturating leads along
    any number of steps of `R`: every round but the last adds a mark, so as many rounds as places suffice. -/
theorem has_saturate {n : Nat} {f : Marks → Marks} {R : Nat → Nat → Prop}
    (hlen : ∀ marks : Marks, marks.length = n → (f marks).length = n)
    (hf : ∀ marks : Marks, marks.length = n → ∀ j, Has (f marks) j ↔ ∃ i, Has marks i ∧ R i j)
    {marks : Marks} (hm : marks.length = n) (j : Nat) :
    Has (saturate f n marks) j ↔ ∃ i, Has marks i ∧ Relation.ReflTransGen R i j := by
  -- a set that holds `marks` and is closed under `R` holds all that `marks` lead to
  have closed : ∀ now : Marks, (∀ i, Has marks i → Has now i) →
      (∀ i j, Has now i → R i j → Has now j) →
      ∀ i j, Has marks i → Relation.ReflTransGen R i j → Has now j := by
    intro now hsub hstep i j hi hij
    induction hij with
    | refl => exact hsub i hi
    | tail _ hR ih => exact hstep _ _ ih hR
  have inside : ∀ (now : Marks), now.length = n → ∀ i j, Has now i → R i j → j < n := by
    intro now hn i j hi hR
    exact hlen now hn ▸ ((hf now hn j).mpr ⟨i, hi, hR⟩).lt_length
  -- with `k` rounds left, no more than `k` places are still without a mark
  have main : ∀ (k : Nat) (now : Marks), now.length = n → n ≤ now.count true + k →
      (∀ i, Has marks i → Has now i) →
      (∀ j, Has now j → ∃ i, Has marks i ∧ Relation.ReflTransGen R i j) →
      (Has (saturate f k now) j ↔ ∃ i, Has marks i ∧ Relation.ReflTransGen R i j) := by
    intro k
    induction k with
    | zero =>
      intro now hn hcount hsub hin
      refine ⟨hin j, fun ⟨i, hi, hij⟩ => closed now hsub ?_ i j hi hij⟩
      intro i j hi hR
      exact has_of_count_eq_length (by omega) (hn ▸ inside now hn i j hi hR)
    | succ k ih =>
      intro now hn hcount hsub hin
      have hl : now.length = (f now).length := by rw [hn, hlen now hn]
      have hu := has_union hl
      simp only [saturate]
      split
      · -- a round that adds nothing has reached a closed set
        rename_i hnext
        rw [hnext] at hu
        refine ⟨hin j, fun ⟨i, hi, hij⟩ => closed now hsub ?_ i j hi hij⟩
        intro i j hi hR
        exact (hu j).mpr (Or.inr ((hf now hn j).mpr ⟨i, hi, hR⟩))
      · rename_i hnext
        have hgrow := count_lt_count_union hl hnext
        refine ih _ (by simp [union, hn, hlen now hn]) (by omega)
          (fun i hi => (hu i).mpr (Or.inl (hsub i hi))) ?_
        intro j hj
        rcases (hu j).mp hj with hj | hj
        · exact hin j hj
        · obtain ⟨i, hi, hR⟩ := (hf now hn j).mp hj
          obtain ⟨i', hi', hpath⟩ := hin i hi
          exact ⟨i', hi', hpath.tail hR⟩
  exact main n marks hm (by omega) (fun _ h => h) fun j hj => ⟨j, hj, .refl⟩

end Marks

/-! ## Conditions on places -/

theorem length_anchorMarks (o : Options) (a : Anchor) (before : Option Char) (text : List Char) :
    (anchorMarks o a before text).length = text.length + 1 := by
  induction text generalizing before with
  | nil => rfl
  | cons c cs ih => simp [anchorMarks, ih]

/-- The character in front of a place. -/
def before? (text : List Char) : Nat → Option Char
  | 0 => none
  | i + 1 => text[i]?

/-- A condition is looked at behind the character in front of a place, and in front of the rest. -/
theorem has_anchorMarks {a : Anchor} {i : Nat} (hi : i ≤ text.length) :
    Marks.Has (anchorMarks o a none text) i ↔
      a.holds o (before? text i) (text.drop i) = true := by
  -- along the text the character in front changes, so it stands for any character here
  have main : ∀ (before : Option Char) (cs : List Char) (i : Nat), i ≤ cs.length →
      (Marks.Has (anchorMarks o a before cs) i ↔
        a.holds o (if i = 0 then before else cs[i - 1]?) (cs.drop i) = true) := by
    intro before cs
    induction cs generalizing before with
    | nil =>
      intro i hi
      obtain rfl : i = 0 := by simpa using hi
      simp [anchorMarks, Marks.Has]
    | cons c cs ih =>
      intro i hi
      cases i with
      | zero => simp [anchorMarks, Marks.Has]
      | succ i =>
        have := ih (some c) i (by simpa using hi)
        cases i with
        | zero => simpa [anchorMarks, Marks.Has] using this
        | succ i => simpa [anchorMarks, Marks.Has] using this
  have := main none text i hi
  cases i with
  | zero => simpa [before?] using this
  | succ i => simpa [before?] using this

/-! ## Ends of matches -/

theorem roundEnds_le {f : Nat → List Nat} {n : Nat} (hf : ∀ i ≤ n, ∀ j ∈ f i, j ≤ n) :
    ∀ k, ∀ i ≤ n, ∀ j ∈ roundEnds f k i, j ≤ n := by
  intro k
  induction k with
  | zero =>
    intro i hi j hj
    obtain rfl : j = i := by simpa [roundEnds] using hj
    exact hi
  | succ k ih =>
    intro i hi j hj
    simp only [roundEnds, List.mem_eraseDups, List.mem_append, List.mem_flatMap,
      List.mem_singleton] at hj
    rcases hj with ⟨m, hm, hj⟩ | rfl
    · split at hj
      · exact ih m (hf i hi m hm) j hj
      · obtain rfl : j = i := by simpa using hj
        exact hi
    · exact hi

/-- A match ends inside the text. -/
theorem ends_le (o : Options) (text : List Char) (r : Regex) :
    ∀ i ≤ text.length, ∀ j ∈ ends o text r i, j ≤ text.length := by
  induction r with
  | empty => simp [ends]
  | one t =>
    intro i hi j hj
    simp only [ends] at hj
    split at hj
    · obtain rfl : j = i + 1 := by simpa using hj
      rename_i hany
      rcases Nat.lt_or_ge i text.length with hlt | hge
      · exact hlt
      · simp [List.getElem?_eq_none hge] at hany
    · simp at hj
  | anchor a =>
    intro i hi j hj
    simp only [ends] at hj
    split at hj
    · obtain rfl : j = i := by simpa using hj
      exact hi
    · simp at hj
  | seq r s ihr ihs =>
    intro i hi j hj
    obtain ⟨m, hm, hj⟩ := List.mem_flatMap.mp hj
    exact ihs m (ihr i hi m hm) j hj
  | alt r s ihr ihs =>
    intro i hi j hj
    rcases List.mem_append.mp hj with hj | hj
    · exact ihr i hi j hj
    · exact ihs i hi j hj
  | star r ih => exact roundEnds_le ih _
  | once r ih => exact fun i hi j hj => ih i hi j (List.mem_of_mem_take hj)

/-- The first ends that marked places lead to. -/
theorem has_firstMarks {f : Nat → List Nat} {marks : Marks} {j : Nat} :
    Marks.Has (firstMarks f marks) j ↔
      j < marks.length ∧ ∃ i, Marks.Has marks i ∧ (f i).head? = some j := by
  have htargets : j ∈ (marks.zipIdx.filterMap fun p => if p.1 then (f p.2).head? else none) ↔
      ∃ i, Marks.Has marks i ∧ (f i).head? = some j := by
    simp only [List.mem_filterMap, Prod.exists, List.mem_zipIdx_iff_getElem?, Marks.Has]
    constructor
    · rintro ⟨m, i, hm, hj⟩
      cases m with
      | true => exact ⟨i, hm, by simpa using hj⟩
      | false => simp at hj
    · rintro ⟨i, hi, hj⟩
      exact ⟨true, i, hi, by simpa using hj⟩
  have hplace : (firstMarks f marks)[j]? = (marks[j]?).map fun _ =>
      (marks.zipIdx.filterMap fun p => if p.1 then (f p.2).head? else none).contains j := by
    rw [firstMarks, List.getElem?_map, List.getElem?_zipIdx, Option.map_map]
    simp only [Function.comp_def, Nat.zero_add]
  rw [Marks.Has, hplace]
  by_cases hj : j < marks.length
  · simp only [List.getElem?_eq_getElem hj, Option.map_some, Option.some.injEq, hj, true_and,
      List.contains_iff_mem, htargets]
  · simp [hj]

/-! ## Advancing -/

theorem length_advance (o : Options) {text : List Char} (r : Regex) :
    ∀ marks : Marks, marks.length = text.length + 1 →
      (advance o text r marks).length = text.length + 1 := by
  have hsat : ∀ (f : Marks → Marks), (∀ marks : Marks, marks.length = text.length + 1 →
      (f marks).length = text.length + 1) → ∀ (k : Nat) (marks : Marks),
      marks.length = text.length + 1 → (marks.saturate f k).length = text.length + 1 := by
    intro f hf k
    induction k with
    | zero => exact fun _ h => h
    | succ k ih =>
      intro marks hm
      simp only [Marks.saturate]
      split
      · exact hm
      · exact ih _ (by simp [Marks.union, hm, hf marks hm])
  induction r with
  | empty => exact fun _ h => h
  | one t => intro marks hm; simp [advance, Marks.step, hm]
  | anchor a => intro marks hm; simp [advance, hm, length_anchorMarks]
  | seq r s ihr ihs => exact fun marks hm => ihs _ (ihr marks hm)
  | alt r s ihr ihs => intro marks hm; simp [advance, Marks.union, ihr marks hm, ihs marks hm]
  | star r ih => intro marks hm; rw [advance_star o r hm]; exact hsat _ ih _ marks hm
  | once r ih => intro marks hm; simp [advance, firstMarks, hm]

/-- **Advancing follows the matches.** The marks after advancing are the places where matches end that
    start at marked places. -/
theorem has_advance (o : Options) {text : List Char} (r : Regex) :
    ∀ marks : Marks, marks.length = text.length + 1 → ∀ j,
      (Marks.Has (advance o text r marks) j ↔ ∃ i, Marks.Has marks i ∧ Spans o text r i j) := by
  induction r with
  | empty => intro marks hm j; simp [advance, Spans]
  | one t =>
    intro marks hm j
    simp only [advance, Spans]
    cases j with
    | zero => simpa using Marks.not_has_step_zero (t.accepts o) text marks
    | succ j =>
      rw [Marks.has_step_succ]
      constructor
      · exact fun ⟨hj, ht⟩ => ⟨j, hj, rfl, ht⟩
      · rintro ⟨i, hi, hij, ht⟩
        obtain rfl : j = i := by omega
        exact ⟨hi, ht⟩
  | anchor a =>
    intro marks hm j
    simp only [advance, Spans, Marks.Has, List.getElem?_zipWith]
    constructor
    · intro h
      refine ⟨j, ?_, rfl, ?_⟩ <;>
        cases hmj : marks[j]? <;> cases haj : (anchorMarks o a none text)[j]? <;> simp_all
    · rintro ⟨i, hi, rfl, ha⟩
      simp [hi, ha]
  | seq r s ihr ihs =>
    intro marks hm k
    simp only [advance, Spans, ihs _ (length_advance o r marks hm), ihr marks hm]
    constructor
    · rintro ⟨j, ⟨i, hi, hij⟩, hjk⟩
      exact ⟨i, hi, j, hij, hjk⟩
    · rintro ⟨i, hi, j, hij, hjk⟩
      exact ⟨j, ⟨i, hi, hij⟩, hjk⟩
  | alt r s ihr ihs =>
    intro marks hm j
    have hl : (advance o text r marks).length = (advance o text s marks).length := by
      rw [length_advance o r marks hm, length_advance o s marks hm]
    simp only [advance, Marks.has_union hl, ihr marks hm, ihs marks hm, Spans, and_or_left, exists_or]
  | star r ih =>
    intro marks hm j
    rw [advance_star o r hm]
    exact Marks.has_saturate (length_advance o r) ih hm j
  | once r ih =>
    intro marks hm j
    simp only [advance, has_firstMarks, Spans, and_iff_right_iff_imp]
    rintro ⟨i, hi, hj⟩
    have hile : i ≤ text.length := by have := hi.lt_length; omega
    have := ends_le o text r i hile j (List.mem_of_mem_head? hj)
    omega

/-! ## Whole texts -/

theorem has_firstPlace (text : List Char) (i : Nat) : Marks.Has (firstPlace text) i ↔ i = 0 := by
  cases i with
  | zero => simp [firstPlace, Marks.Has]
  | succ i =>
    have hnone : (text.map fun _ => false)[i]? ≠ some true := by
      rw [List.getElem?_map]
      cases text[i]? <;> simp
    rw [Marks.Has, firstPlace, List.getElem?_cons_succ]
    exact iff_of_false hnone (Nat.succ_ne_zero i)

theorem has_everyPlace (text : List Char) (i : Nat) :
    Marks.Has (everyPlace text) i ↔ i ≤ text.length := by
  cases i with
  | zero => simp [everyPlace, Marks.Has]
  | succ i =>
    rw [Marks.Has, everyPlace, List.getElem?_cons_succ, List.getElem?_map]
    rcases Nat.lt_or_ge i text.length with hlt | hge
    · rw [List.getElem?_eq_getElem hlt]
      exact iff_of_true rfl hlt
    · rw [List.getElem?_eq_none hge]
      exact iff_of_false (by simp) (Nat.not_le_of_lt (Nat.lt_succ_of_le hge))

/-- A match starts at the first place. -/
theorem matchesStart_iff (r : Regex) :
    r.matchesStart o text = true ↔ ∃ j, Spans o text r 0 j := by
  have hl : (firstPlace text).length = text.length + 1 := by simp [firstPlace]
  rw [matchesStart, Marks.any_id_iff]
  simp only [has_advance o r _ hl, has_firstPlace, exists_eq_left]

/-- A match starts somewhere. -/
theorem searches_iff (r : Regex) :
    r.searches o text = true ↔ ∃ i ≤ text.length, ∃ j, Spans o text r i j := by
  have hl : (everyPlace text).length = text.length + 1 := by simp [everyPlace]
  rw [searches, Marks.any_id_iff]
  simp only [has_advance o r _ hl, has_everyPlace]
  exact ⟨fun ⟨j, i, hi, h⟩ => ⟨i, hi, j, h⟩, fun ⟨i, hi, j, h⟩ => ⟨j, i, hi, h⟩⟩

end FileDepot.Regex
