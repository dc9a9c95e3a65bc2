import Mathlib.Data.List.Forall2

/-!
# Answers of several steps

Steps that may fail one after another, each with an answer or a failure.

Contents:

* `bind_eq_ok` — a step behind another gives an answer only if both do;
* `map_eq_ok` — what is made of an answer;
* `mapM_eq_ok` — a step for every item of a list gives an answer only if each does;
* `filterM_cons` — a test of every item of a list, one item after another;
* `toOption_bind`, `toOption_mapM` — the answer alone, where it does not matter how a step fails;
* `FailsOnly` — which failures a step can have.
-/

namespace FileDepot

variable {ε α β γ : Type}

/-- A step behind another gives an answer only if both do. -/
theorem bind_eq_ok {x : Except ε α} {f : α → Except ε β} {b : β} :
    x >>= f = .ok b ↔ ∃ a, x = .ok a ∧ f a = .ok b := by
  cases x with
  | ok a => simp [bind, Except.bind]
  | error e => simp [bind, Except.bind]

theorem map_eq_ok {x : Except ε α} {f : α → β} {b : β} :
    x.map f = .ok b ↔ ∃ a, x = .ok a ∧ f a = b := by
  cases x with
  | ok a => simp [Except.map]
  | error e => simp [Except.map]

/-- A step for every item gives the answers of all of them. -/
theorem mapM_eq_ok {f : α → Except ε β} {xs : List α} {ys : List β} :
    xs.mapM f = .ok ys ↔ List.Forall₂ (fun x y => f x = .ok y) xs ys := by
  induction xs generalizing ys with
  | nil => simp [pure, Except.pure, eq_comm]
  | cons x xs ih =>
    rw [List.mapM_cons, List.forall₂_cons_left_iff, bind_eq_ok]
    constructor
    · rintro ⟨y, hy, h⟩
      obtain ⟨ys', hys, h⟩ := bind_eq_ok.mp h
      obtain rfl := Except.ok.inj h
      exact ⟨y, ys', hy, ih.mp hys, rfl⟩
    · rintro ⟨y, ys', hy, hys, rfl⟩
      refine ⟨y, hy, bind_eq_ok.mpr ⟨ys', ih.mpr hys, rfl⟩⟩

/-- Where items are related one by one, each on the right has one on the left. -/
theorem exists_related_left {R : α → β → Prop} {xs : List α} {ys : List β} (h : List.Forall₂ R xs ys)
    {y : β} (hy : y ∈ ys) : ∃ x ∈ xs, R x y := by
  obtain ⟨i, hi, rfl⟩ := List.getElem_of_mem hy
  have hlength : i < xs.length := h.length_eq ▸ hi
  exact ⟨xs[i], List.getElem_mem hlength, h.get hlength hi⟩

/-- Where items are related one by one by what is said of them, it is said of some on the left if of some on the
right. -/
theorem exists_iff_of_related {P : α → Prop} {Q : β → Prop} {xs : List α} {ys : List β}
    (h : List.Forall₂ (fun x y => Q y ↔ P x) xs ys) : (∃ y ∈ ys, Q y) ↔ ∃ x ∈ xs, P x := by
  induction h with
  | nil => simp
  | cons hxy _ ih => simp only [List.exists_mem_cons_iff, hxy, ih]

/-- An answer of a step for every item is the answer for one of them. -/
theorem exists_of_mem_mapM {f : α → Except ε β} {xs : List α} {ys : List β} (h : xs.mapM f = .ok ys)
    {y : β} (hy : y ∈ ys) : ∃ x ∈ xs, f x = .ok y :=
  exists_related_left (mapM_eq_ok.mp h) hy

/-- Each item has an answer among those of the list. -/
theorem exists_answer_of_mapM {f : α → Except ε β} {xs : List α} {ys : List β} (h : xs.mapM f = .ok ys)
    {x : α} (hx : x ∈ xs) : ∃ y ∈ ys, f x = .ok y :=
  exists_related_left (mapM_eq_ok.mp h).flip hx

/-- How each answer is related to its item, the answers are related to the list. -/
theorem related_of_mapM {f : α → Except ε β} {R : α → β → Prop} {xs : List α} {ys : List β}
    (hR : ∀ x ∈ xs, ∀ y, f x = .ok y → R x y) (h : xs.mapM f = .ok ys) : List.Forall₂ R xs ys := by
  have hall := (List.forall₂_and_left _ _).mpr ⟨hR, mapM_eq_ok.mp h⟩
  exact hall.imp fun {x y} hxy => hxy.1 y hxy.2

/-- What every answer shows of its item, the answers show of the list. -/
theorem map_of_mapM {f : α → Except ε β} {shown : β → γ} {shows : α → γ}
    (hf : ∀ x y, f x = .ok y → shown y = shows x) {xs : List α} {ys : List β}
    (h : xs.mapM f = .ok ys) : ys.map shown = xs.map shows := by
  have hall := (mapM_eq_ok.mp h).imp fun {x y} hxy => (hf x y hxy).symm
  exact (List.forall₂_eq_eq_eq ▸ List.forall₂_map_left_iff.mpr (List.forall₂_map_right_iff.mpr hall)).symm

/-- The same step for every item answers, or fails, the same. -/
theorem mapM_congr {f g : α → Except ε β} {xs : List α} (h : ∀ x ∈ xs, f x = g x) : xs.mapM f = xs.mapM g := by
  induction xs with
  | nil => rfl
  | cons x xs ih =>
    obtain ⟨hx, hxs⟩ := List.forall_mem_cons.mp h
    rw [List.mapM_cons, List.mapM_cons, hx, ih hxs]

/-- A step that keeps every item keeps the list. -/
theorem mapM_eq_self {f : α → Except ε α} {xs : List α} (h : ∀ x ∈ xs, f x = .ok x) :
    xs.mapM f = .ok xs :=
  mapM_eq_ok.mpr (List.forall₂_same.mpr h)

/-! ## Tests -/

theorem filterAuxM_eq (p : α → Except ε Bool) (xs seen : List α) :
    xs.filterAuxM p seen = (xs.filterAuxM p []).map (· ++ seen) := by
  induction xs generalizing seen with
  | nil => rfl
  | cons x xs ih =>
    rw [List.filterAuxM, List.filterAuxM]
    cases p x with
    | error e => rfl
    | ok answer =>
      show xs.filterAuxM p (cond answer (x :: seen) seen) = (xs.filterAuxM p (cond answer [x] [])).map (· ++ seen)
      rw [ih (cond answer (x :: seen) seen), ih (cond answer [x] [])]
      cases xs.filterAuxM p [] with
      | error e => rfl
      | ok kept => cases answer <;> simp [Except.map]

/-- Items are tested one after another, and those that pass are kept. -/
theorem filterM_cons (p : α → Except ε Bool) (x : α) (xs : List α) :
    (x :: xs).filterM p =
      p x >>= fun answer => xs.filterM p >>= fun rest => .ok (if answer then x :: rest else rest) := by
  rw [List.filterM, List.filterM, List.filterAuxM]
  cases p x with
  | error e => rfl
  | ok answer =>
    show (xs.filterAuxM p (cond answer [x] []) >>= _) = _
    rw [filterAuxM_eq]
    show _ = ((xs.filterAuxM p [] >>= _) >>= _)
    cases xs.filterAuxM p [] with
    | error e => rfl
    | ok kept => cases answer <;> simp [Except.map, bind, Except.bind, pure, Except.pure]

/-! ## The answer alone -/

theorem toOption_map (x : Except ε α) (f : α → β) : (x.map f).toOption = x.toOption.map f := by
  cases x <;> rfl

theorem toOption_bind (x : Except ε α) (f : α → Except ε β) :
    (x >>= f).toOption = x.toOption.bind fun a => (f a).toOption := by
  cases x <;> rfl

/-- Steps that give the same answers for every item give the same answers for the list. -/
theorem toOption_mapM {f g : α → Except ε β} {xs : List α}
    (h : ∀ x ∈ xs, (f x).toOption = (g x).toOption) :
    (xs.mapM f).toOption = (xs.mapM g).toOption := by
  induction xs with
  | nil => rfl
  | cons x xs ih =>
    obtain ⟨hx, hxs⟩ := List.forall_mem_cons.mp h
    simp only [List.mapM_cons, toOption_bind, hx, ih hxs]

/-! ## Which failures there are -/

/-- All failures of the step are such ones. -/
def FailsOnly (p : ε → Prop) (x : Except ε α) : Prop :=
  ∀ e, x = .error e → p e

namespace FailsOnly

variable {p q : ε → Prop}

theorem ok (a : α) : FailsOnly p (.ok a : Except ε α) := by
  intro e he
  cases he

theorem error {e : ε} (h : p e) : FailsOnly p (.error e : Except ε α) := by
  intro e' he'
  cases he'
  exact h

theorem mono {x : Except ε α} (h : FailsOnly p x) (hpq : ∀ e, p e → q e) : FailsOnly q x :=
  fun e he => hpq e (h e he)

/-- A step behind another fails as one of the two does. -/
theorem bind {x : Except ε α} {f : α → Except ε β} (hx : FailsOnly p x)
    (hf : ∀ a, x = .ok a → FailsOnly p (f a)) : FailsOnly p (x >>= f) := by
  intro e he
  cases hanswer : x with
  | ok a =>
    rw [hanswer] at he
    exact hf a hanswer e he
  | error e' =>
    rw [hanswer] at he
    cases he
    exact hx e hanswer

end FailsOnly

end FileDepot
