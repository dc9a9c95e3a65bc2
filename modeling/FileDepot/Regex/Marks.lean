/-!
# Marks

Sets of places in a text, and how they grow.

Contents:

* `Marks` — one mark for each place before, between and after the characters;
* `Marks.union`, `Marks.step`, `Marks.spread`, `Marks.saturate` — sets made from sets;
* `Marks.spread_eq_saturate` — stepping over and over again is one pass through the text.
-/

namespace FileDepot.Regex

/-- A set of places in a text: one mark before each character and one at the end. -/
abbrev Marks := List Bool

namespace Marks

/-- The place is marked. -/
def Has (marks : Marks) (i : Nat) : Prop :=
  marks[i]? = some true

/-- The places of either set. -/
def union (a b : Marks) : Marks :=
  List.zipWith (· || ·) a b

/-- The places one accepted character behind a marked one. -/
def step (accepts : Char → Bool) (text : List Char) (marks : Marks) : Marks :=
  false :: List.zipWith (fun m c => m && accepts c) marks text

/-- The marked places and those that follow one with nothing but accepted characters in between. -/
def spread (accepts : Char → Bool) : List Char → Marks → Marks
  | c :: cs, m :: next :: rest => m :: spread accepts cs ((next || (m && accepts c)) :: rest)
  | _, marks => marks

/-- The smallest set that holds `marks` and, with at most `n` rounds, everything `f` reaches. -/
def saturate (f : Marks → Marks) : Nat → Marks → Marks
  | 0, marks => marks
  | n + 1, marks =>
    let next := marks.union (f marks)
    if next = marks then marks else saturate f n next

/-! ## What the sets hold -/

theorem ext_has {a b : Marks} (hl : a.length = b.length) (h : ∀ i, Has a i ↔ Has b i) : a = b := by
  apply List.ext_getElem hl
  intro i ha hb
  have hi := h i
  simp only [Has, List.getElem?_eq_getElem ha, List.getElem?_eq_getElem hb, Option.some.injEq] at hi
  exact Bool.eq_iff_iff.mpr hi

theorem has_union {a b : Marks} (hl : a.length = b.length) (i : Nat) :
    Has (union a b) i ↔ Has a i ∨ Has b i := by
  by_cases hi : i < a.length
  · simp [Has, union, List.getElem?_zipWith, List.getElem?_eq_getElem hi,
      List.getElem?_eq_getElem (hl ▸ hi)]
  · simp [Has, union, List.getElem?_zipWith, List.getElem?_eq_none (Nat.le_of_not_lt hi),
      List.getElem?_eq_none (hl ▸ Nat.le_of_not_lt hi)]

theorem not_has_step_zero (accepts : Char → Bool) (text : List Char) (marks : Marks) :
    ¬ Has (step accepts text marks) 0 := by
  simp [Has, step]

theorem has_step_succ (accepts : Char → Bool) (text : List Char) (marks : Marks) (i : Nat) :
    Has (step accepts text marks) (i + 1) ↔ Has marks i ∧ (text[i]?).any accepts = true := by
  cases hm : marks[i]? <;> cases ht : text[i]? <;>
    simp [Has, step, List.getElem?_zipWith, hm, ht]

theorem has_spread_zero (accepts : Char → Bool) (text : List Char) (marks : Marks) :
    Has (spread accepts text marks) 0 ↔ Has marks 0 := by
  fun_cases spread accepts text marks <;> simp [Has]

theorem has_spread_succ {accepts : Char → Bool} {text : List Char} {marks : Marks}
    (hl : marks.length = text.length + 1) (i : Nat) :
    Has (spread accepts text marks) (i + 1) ↔
      Has marks (i + 1) ∨
        (Has (spread accepts text marks) i ∧ (text[i]?).any accepts = true) := by
  induction text generalizing marks i with
  | nil => simp [spread]
  | cons c cs ih =>
    match marks, hl with
    | m :: next :: rest, hl =>
      have hl' : ((next || (m && accepts c)) :: rest).length = cs.length + 1 := by simpa using hl
      cases i with
      | zero =>
        have := has_spread_zero accepts cs ((next || (m && accepts c)) :: rest)
        simp_all [Has, spread]
      | succ i => simpa [Has, spread] using ih hl' i

theorem length_spread (accepts : Char → Bool) (text : List Char) (marks : Marks) :
    (spread accepts text marks).length = marks.length := by
  fun_induction spread accepts text marks <;> simp_all

/-! ## One pass -/

/-- A set between `marks` and what they spread to, which is complete in front of place `j`, saturates to
the latter. -/
theorem saturate_step_eq {accepts : Char → Bool} {text : List Char} {marks : Marks}
    (hl : marks.length = text.length + 1) (k : Nat) :
    ∀ (j : Nat) (now : Marks), now.length = text.length + 1 → text.length + 1 ≤ j + k →
      (∀ i, Has marks i → Has now i) → (∀ i, Has now i → Has (spread accepts text marks) i) →
      (∀ i, i < j → Has (spread accepts text marks) i → Has now i) →
      saturate (step accepts text) k now = spread accepts text marks := by
  have zero := has_spread_zero accepts text marks
  have succ := @has_spread_succ accepts text marks hl
  induction k with
  | zero =>
    intro j now hn hj _ hi ho
    refine ext_has (by rw [saturate, hn, length_spread, hl]) fun i => ⟨hi i, fun h => ho i ?_ h⟩
    have : i < (spread accepts text marks).length := by
      by_cases hlt : i < (spread accepts text marks).length
      · exact hlt
      · simp [Has, List.getElem?_eq_none (Nat.le_of_not_lt hlt)] at h
    rw [length_spread, hl] at this
    omega
  | succ k ih =>
    intro j now hn hj hm hi ho
    have hs : now.length = (step accepts text now).length := by simp [step, hn]
    have hu := has_union hs
    simp only [saturate]
    split
    · rename_i hnext
      rw [hnext] at hu
      refine ext_has (by rw [hn, length_spread, hl]) fun i => ⟨hi i, fun h => ?_⟩
      induction i with
      | zero => exact hm 0 (zero.mp h)
      | succ i ihi =>
        rcases (succ i).mp h with h | ⟨h, ha⟩
        · exact hm _ h
        · exact (hu _).mpr (Or.inr ((has_step_succ ..).mpr ⟨ihi h, ha⟩))
    · refine ih (j + 1) _ (by simp [union, step, hn]) (by omega)
        (fun i h => (hu i).mpr (Or.inl (hm i h))) ?_ ?_
      · intro i h
        rcases (hu i).mp h with h | h
        · exact hi i h
        · cases i with
          | zero => exact absurd h (not_has_step_zero accepts text now)
          | succ i =>
            obtain ⟨h, ha⟩ := (has_step_succ ..).mp h
            exact (succ i).mpr (Or.inr ⟨hi i h, ha⟩)
      · intro i hlt h
        cases i with
        | zero => exact (hu 0).mpr (Or.inl (hm 0 (zero.mp h)))
        | succ i =>
          rcases (succ i).mp h with h | ⟨h, ha⟩
          · exact (hu _).mpr (Or.inl (hm _ h))
          · exact (hu _).mpr (Or.inr ((has_step_succ ..).mpr ⟨ho i (by omega) h, ha⟩))

/-- Stepping over and over again is one pass through the text. -/
theorem spread_eq_saturate {accepts : Char → Bool} {text : List Char} {marks : Marks}
    (hl : marks.length = text.length + 1) :
    spread accepts text marks = saturate (step accepts text) (text.length + 1) marks :=
  (saturate_step_eq hl (text.length + 1) 0 marks hl (by omega) (fun _ h => h)
    (fun i h => by
      cases i with
      | zero => exact (has_spread_zero ..).mpr h
      | succ i => exact (has_spread_succ hl i).mpr (Or.inl h))
    (fun i h => absurd h (Nat.not_lt_zero i))).symm

end Marks

end FileDepot.Regex
