import FileDepot.Proofs.Value.Sorting
import Mathlib.Data.List.Nodup
import Mathlib.Order.Lattice

/-!
# Sorting puts items in order

Where any two of the items can be compared and the comparisons agree with each other, sorting gives an answer. The
items then stand in order, and those of which neither comes before the other stand as they did.

Contents:

* `Sorting.Orders` — a comparison that orders the items of a list;
* `Sorting.rank` — the number of items before an item, by which comparisons become comparisons of numbers;
* `Sorting.Follows` — the order of a stable sort;
* `insertSorted_split`, `leadingRun_follows`, `foldlM_insertSorted_follows` — the parts of the sort;
* `Sorting.sortWith_inFront` — sorting puts the items in order;
* `Sorting.Orders.of_key` — comparisons by something of a linear order.
-/

namespace FileDepot.Sorting

variable {α ε : Type}

/-! ## Comparisons -/

/-- The comparison orders the items: it answers for any two of them, at most one of the two comes before the other,
    and what does not come before an item does not come before a later one either. -/
structure Orders (before : α → α → Except ε Bool) (xs : List α) : Prop where
  answers : ∀ x ∈ xs, ∀ y ∈ xs, x ≠ y → ∃ answer, before x y = .ok answer
  asymm : ∀ x ∈ xs, ∀ y ∈ xs, x ≠ y → before x y = .ok true → before y x = .ok false
  trans : ∀ x ∈ xs, ∀ y ∈ xs, ∀ z ∈ xs, x ≠ y → y ≠ z → x ≠ z →
    before y x = .ok false → before z y = .ok false → before z x = .ok false

theorem Orders.mono {before : α → α → Except ε Bool} {xs ys : List α} (h : Orders before xs) (hys : ys ⊆ xs) :
    Orders before ys where
  answers x hx y hy := h.answers x (hys hx) y (hys hy)
  asymm x hx y hy := h.asymm x (hys hx) y (hys hy)
  trans x hx y hy z hz := h.trans x (hys hx) y (hys hy) z (hys hz)

open Classical in
/-- The number of items that come before an item. -/
noncomputable def rank (before : α → α → Except ε Bool) (xs : List α) (x : α) : Nat :=
  xs.countP fun z => z ≠ x ∧ before z x = .ok true

/-- Items that a test accepts are fewer than those that a weaker one accepts, if it leaves one of these out. -/
theorem countP_lt_countP {p q : α → Bool} {xs : List α} (h : ∀ x ∈ xs, p x = true → q x = true) {x : α}
    (hx : x ∈ xs) (hq : q x = true) (hp : p x = false) : xs.countP p < xs.countP q := by
  obtain ⟨front, behind, rfl⟩ := List.append_of_mem hx
  have hfront : front.countP p ≤ front.countP q :=
    List.countP_mono_left fun y hy => h y (List.mem_append_left _ hy)
  have hbehind : behind.countP p ≤ behind.countP q :=
    List.countP_mono_left fun y hy => h y (List.mem_append_right _ (List.mem_cons_of_mem _ hy))
  simp only [List.countP_append, List.countP_cons, hp, hq, if_true, Bool.false_eq_true, if_false]
  omega

section

variable {before : α → α → Except ε Bool} {xs : List α} (h : Orders before xs) {x y : α} (hx : x ∈ xs)
  (hy : y ∈ xs) (hne : x ≠ y)

include h hx hy hne

theorem rank_lt_of_before (hxy : before x y = .ok true) : rank before xs x < rank before xs y := by
  have hyx := h.asymm x hx y hy hne hxy
  refine countP_lt_countP (fun z hz hzx => ?_) hx (by simpa using ⟨hne, hxy⟩) (by simp)
  obtain ⟨hzne, hzx⟩ : z ≠ x ∧ before z x = .ok true := by simpa using hzx
  have hzy : z ≠ y := by
    rintro rfl
    rw [hyx] at hzx
    simp at hzx
  obtain ⟨answer, hanswer⟩ := h.answers z hz y hy hzy
  cases answer with
  | true => simpa using ⟨hzy, hanswer⟩
  | false =>
    -- what is not before `y` is not before `x`, which `y` does not precede
    have hnot := h.trans x hx y hy z hz hne hzy.symm hzne.symm hyx hanswer
    rw [hnot] at hzx
    simp at hzx

theorem rank_le_of_not_before (hxy : before x y = .ok false) : rank before xs y ≤ rank before xs x := by
  refine List.countP_mono_left fun z hz hzy => ?_
  obtain ⟨hzne, hzy⟩ : z ≠ y ∧ before z y = .ok true := by simpa using hzy
  have hzx : z ≠ x := by
    rintro rfl
    rw [hxy] at hzy
    simp at hzy
  obtain ⟨answer, hanswer⟩ := h.answers z hz x hx hzx
  cases answer with
  | true => simpa using ⟨hzx, hanswer⟩
  | false =>
    have hnot := h.trans y hy x hx z hz hne.symm hzx.symm hzne.symm hxy hanswer
    rw [hnot] at hzy
    simp at hzy

/-- A comparison that orders the items compares their ranks. -/
theorem before_eq_rank : before x y = .ok (decide (rank before xs x < rank before xs y)) := by
  obtain ⟨answer, hanswer⟩ := h.answers x hx y hy hne
  cases answer with
  | true => simp [hanswer, rank_lt_of_before h hx hy hne hanswer]
  | false => simp [hanswer, rank_le_of_not_before h hx hy hne hanswer]

end

/-! ## The order of a stable sort -/

/-- An item follows another one in order: it has a greater rank, or the same one and follows it already. -/
def Follows (rank : α → Nat) (R : α → α → Prop) (x y : α) : Prop :=
  rank x < rank y ∨ rank x = rank y ∧ R x y

section

variable {before : α → α → Except ε Bool} {rank : α → Nat} {R : α → α → Prop}

theorem Follows.le {x y : α} (h : Follows rank R x y) : rank x ≤ rank y := by
  rcases h with h | ⟨h, -⟩ <;> omega

theorem Follows.of_le {x y : α} (h : rank x ≤ rank y) (hR : R x y) : Follows rank R x y := by
  rcases Nat.lt_or_eq_of_le h with h | h
  · exact .inl h
  · exact .inr ⟨h, hR⟩

/-- The comparison of different items is that of their ranks. -/
def ComparesRanks (before : α → α → Except ε Bool) (rank : α → Nat) (xs : List α) : Prop :=
  ∀ x ∈ xs, ∀ y ∈ xs, x ≠ y → before x y = .ok (decide (rank x < rank y))

theorem ComparesRanks.mono {xs ys : List α} (h : ComparesRanks before rank xs) (hys : ys ⊆ xs) :
    ComparesRanks before rank ys :=
  fun x hx y hy => h x (hys hx) y (hys hy)

/-- A step that compares two items goes on by their ranks. -/
theorem step_compares {β : Type} {x y : α} (h : before x y = .ok (decide (rank x < rank y)))
    (ifBefore otherwise : Except ε β) :
    (before x y >>= fun answer => if answer = true then ifBefore else otherwise) =
      if rank x < rank y then ifBefore else otherwise := by
  rw [h]
  by_cases hxy : rank x < rank y
  · rw [decide_eq_true hxy, if_pos hxy]
    rfl
  · rw [decide_eq_false hxy, if_neg hxy]
    rfl

/-- The middle one of some items, and fewer items than there are on either side of it. -/
theorem halves {fuel : Nat} {y : α} {ys behind : List α} (hfuel : ys.length ≤ fuel + 1)
    (hdrop : ys.drop (ys.length / 2) = y :: behind) :
    ∃ front, ys.take (ys.length / 2) = front ∧ ys = front ++ y :: behind ∧ front.length ≤ fuel ∧
      behind.length ≤ fuel := by
  have hsplit : ys = ys.take (ys.length / 2) ++ y :: behind := by
    rw [← hdrop, List.take_append_drop]
  have hhalf : (ys.take (ys.length / 2)).length = ys.length / 2 := by
    rw [List.length_take]
    omega
  have hlength := congrArg List.length hsplit
  rw [List.length_append, List.length_cons] at hlength
  exact ⟨_, rfl, hsplit, by omega, by omega⟩

/-- An item is put behind all that have at most its rank. -/
theorem insertSorted_split {x : α} {fuel : Nat} {ys : List α} (hfuel : ys.length ≤ fuel)
    (hbefore : ∀ y ∈ ys, before x y = .ok (decide (rank x < rank y)))
    (hys : ys.Pairwise fun y z => rank y ≤ rank z) :
    ∃ front behind, ys = front ++ behind ∧ insertSorted before x fuel ys = .ok (front ++ x :: behind) ∧
      (∀ y ∈ front, rank y ≤ rank x) ∧ ∀ y ∈ behind, rank x < rank y := by
  induction fuel generalizing ys with
  | zero =>
    obtain rfl : ys = [] := List.length_eq_zero_iff.mp (by omega)
    exact ⟨[], [], rfl, rfl, by simp, by simp⟩
  | succ fuel ih =>
    rw [insertSorted]
    cases hdrop : ys.drop (ys.length / 2) with
    | nil =>
      have hlength : ys.length ≤ ys.length / 2 := List.drop_eq_nil_iff.mp hdrop
      obtain rfl : ys = [] := List.length_eq_zero_iff.mp (by omega)
      exact ⟨[], [], rfl, rfl, by simp, by simp⟩
    | cons y behind =>
      obtain ⟨front, htake, rfl, hfrontFuel, hbehindFuel⟩ := halves hfuel hdrop
      obtain ⟨hfront, hmiddle, hcross⟩ := List.pairwise_append.mp hys
      obtain ⟨hyLeast, hbehind⟩ := List.pairwise_cons.mp hmiddle
      simp only [htake]
      rw [step_compares (hbefore y (by simp))]
      by_cases hxy : rank x < rank y
      · obtain ⟨front₁, front₂, rfl, hinsert, hless, hmore⟩ :=
          ih hfrontFuel (fun z hz => hbefore z (by simp [hz])) hfront
        refine ⟨front₁, front₂ ++ y :: behind, by simp, ?_, hless, List.forall_mem_append.mpr ⟨hmore, ?_⟩⟩
        · rw [if_pos hxy, hinsert]
          simp [bind, Except.bind]
        · exact List.forall_mem_cons.mpr ⟨hxy, fun z hz => Nat.lt_of_lt_of_le hxy (hyLeast z hz)⟩
      · have hyx : rank y ≤ rank x := Nat.le_of_not_lt hxy
        obtain ⟨behind₁, behind₂, rfl, hinsert, hless, hmore⟩ :=
          ih hbehindFuel (fun z hz => hbefore z (by simp [hz])) hbehind
        refine ⟨front ++ y :: behind₁, behind₂, by simp, ?_, List.forall_mem_append.mpr ⟨?_, ?_⟩, hmore⟩
        · rw [if_neg hxy, hinsert]
          simp [bind, Except.bind]
        · exact fun z hz => Nat.le_trans (hcross z hz y (by simp)) hyx
        · exact List.forall_mem_cons.mpr ⟨hyx, hless⟩

/-- Items put one by one into items in order, all of which they follow, come to stand in order. -/
theorem foldlM_insertSorted_follows {sorted rest : List α} (hcompares : ComparesRanks before rank (sorted ++ rest))
    (hnodup : (sorted ++ rest).Nodup) (hsorted : sorted.Pairwise (Follows rank R)) (hrest : rest.Pairwise R)
    (hbetween : ∀ x ∈ sorted, ∀ y ∈ rest, R x y) :
    ∃ zs, rest.foldlM (fun sorted x => insertSorted before x sorted.length sorted) sorted = .ok zs ∧
      zs.Pairwise (Follows rank R) := by
  induction rest generalizing sorted with
  | nil => exact ⟨sorted, rfl, hsorted⟩
  | cons x rest ih =>
    obtain ⟨hx, hrest⟩ := List.pairwise_cons.mp hrest
    obtain ⟨-, -, hdisjoint⟩ := List.nodup_append.mp hnodup
    obtain ⟨front, behind, hsplit, hinsert, hless, hmore⟩ :=
      insertSorted_split (x := x) (Nat.le_refl sorted.length)
        (fun y hy => hcompares x (by simp) y (by simp [hy]) (Ne.symm (hdisjoint y hy x (by simp))))
        (hsorted.imp Follows.le)
    subst hsplit
    have hperm : (front ++ x :: behind ++ rest).Perm (front ++ behind ++ x :: rest) := by
      have hmiddle : (front ++ x :: behind).Perm (front ++ behind ++ [x]) :=
        List.perm_middle.trans (List.perm_append_singleton x (front ++ behind)).symm
      simpa using hmiddle.append_right rest
    obtain ⟨hfront, hbehind, hcross⟩ := List.pairwise_append.mp hsorted
    have hinserted : (front ++ x :: behind).Pairwise (Follows rank R) := by
      refine List.pairwise_append.mpr ⟨hfront, List.pairwise_cons.mpr ⟨fun z hz => .inl (hmore z hz), hbehind⟩, ?_⟩
      intro y hy z hz
      rcases List.mem_cons.mp hz with rfl | hz
      · exact .of_le (hless y hy) (hbetween y (by simp [hy]) z (by simp))
      · exact hcross y hy z hz
    rw [List.foldlM_cons, hinsert]
    refine ih (hcompares.mono hperm.subset) (hperm.nodup_iff.mpr hnodup) hinserted hrest ?_
    intro y hy z hz
    rcases List.mem_append.mp hy with hy | hy
    · exact hbetween y (by simp [hy]) z (by simp [hz])
    · rcases List.mem_cons.mp hy with rfl | hy
      · exact hx z hz
      · exact hbetween y (by simp [hy]) z (by simp [hz])

/-- The items behind one in order, up to the first that comes before its neighbour. -/
theorem ascending_split {last : α} {xs : List α} (hcompares : ComparesRanks before rank (last :: xs))
    (hnodup : (last :: xs).Nodup) :
    ∃ run rest, ascending before last xs = .ok (run, rest) ∧ xs = run ++ rest ∧
      (last :: run).Pairwise fun x y => rank x ≤ rank y := by
  induction xs generalizing last with
  | nil => exact ⟨[], [], rfl, rfl, List.pairwise_singleton _ _⟩
  | cons x xs ih =>
    have hne : x ≠ last := fun h => (List.nodup_cons.mp hnodup).1 (by simp [h])
    rw [ascending, step_compares (hcompares x (by simp) last (by simp) hne)]
    by_cases hlast : rank x < rank last
    · exact ⟨[], x :: xs, if_pos hlast, rfl, List.pairwise_singleton _ _⟩
    · obtain ⟨run, rest, hrun, rfl, hordered⟩ :=
        ih (hcompares.mono (List.subset_cons_self _ _)) (List.nodup_cons.mp hnodup).2
      refine ⟨x :: run, rest, ?_, rfl, List.pairwise_cons.mpr ⟨fun z hz => ?_, hordered⟩⟩
      · rw [if_neg hlast, hrun]
        rfl
      · have hx : rank last ≤ rank x := Nat.le_of_not_lt hlast
        rcases List.mem_cons.mp hz with rfl | hz
        · exact hx
        · exact Nat.le_trans hx (List.rel_of_pairwise_cons hordered hz)

/-- The items each of which comes before its neighbour, turned round in front of those that are done. -/
theorem descending_split {last : α} {done xs : List α} (hcompares : ComparesRanks before rank (last :: xs))
    (hnodup : (last :: xs).Nodup) (hdone : (last :: done).Pairwise fun x y => rank x < rank y) :
    ∃ run rest, xs = run ++ rest ∧
      descending before last (last :: done) xs = .ok (run.reverse ++ last :: done, rest) ∧
      (run.reverse ++ last :: done).Pairwise fun x y => rank x < rank y := by
  induction xs generalizing last done with
  | nil => exact ⟨[], [], rfl, rfl, hdone⟩
  | cons x xs ih =>
    have hne : x ≠ last := fun h => (List.nodup_cons.mp hnodup).1 (by simp [h])
    rw [descending, step_compares (hcompares x (by simp) last (by simp) hne)]
    by_cases hlast : rank x < rank last
    · have hfirst : (x :: last :: done).Pairwise fun x y => rank x < rank y := by
        refine List.pairwise_cons.mpr ⟨fun z hz => ?_, hdone⟩
        rcases List.mem_cons.mp hz with rfl | hz
        · exact hlast
        · exact Nat.lt_trans hlast (List.rel_of_pairwise_cons hdone hz)
      obtain ⟨run, rest, rfl, hrun, hordered⟩ :=
        ih (hcompares.mono (List.subset_cons_self _ _)) (List.nodup_cons.mp hnodup).2 hfirst
      refine ⟨x :: run, rest, rfl, ?_, by simpa using hordered⟩
      rw [if_pos hlast, hrun]
      simp
    · exact ⟨[], x :: xs, rfl, if_neg hlast, hdone⟩

/-- The items with which a list starts are put in order, and the others follow them as they do in the list. -/
theorem leadingRun_follows {xs : List α} (hcompares : ComparesRanks before rank xs) (hnodup : xs.Nodup)
    (hxs : xs.Pairwise R) :
    ∃ run rest, leadingRun before xs = .ok (run, rest) ∧ run.Pairwise (Follows rank R) ∧ rest.Pairwise R ∧
      ∀ x ∈ run, ∀ y ∈ rest, R x y := by
  match xs with
  | [] => exact ⟨[], [], rfl, .nil, .nil, by simp⟩
  | [x] => exact ⟨[x], [], rfl, List.pairwise_singleton _ _, .nil, by simp⟩
  | x :: y :: xs =>
    have hne : y ≠ x := fun h => (List.nodup_cons.mp hnodup).1 (by simp [h])
    have htail := hcompares.mono (List.subset_cons_self x _)
    rw [leadingRun, step_compares (hcompares y (by simp) x (by simp) hne)]
    by_cases hyx : rank y < rank x
    · have hpair : [y, x].Pairwise fun x y => rank x < rank y := by simpa using hyx
      obtain ⟨run, rest, rfl, hrun, hordered⟩ := descending_split htail (List.nodup_cons.mp hnodup).2 hpair
      have hsplit : ((x :: y :: run) ++ rest).Pairwise R := hxs
      obtain ⟨-, hrest, hbetween⟩ := List.pairwise_append.mp hsplit
      refine ⟨run.reverse ++ [y, x], rest, ?_, hordered.imp .inl, hrest, fun z hz => hbetween z ?_⟩
      · rw [if_pos hyx, hrun]
      · simp only [List.mem_append, List.mem_reverse, List.mem_cons, List.not_mem_nil, or_false] at hz ⊢
        tauto
    · obtain ⟨run, rest, hrun, rfl, hordered⟩ := ascending_split htail (List.nodup_cons.mp hnodup).2
      have hsplit : ((x :: y :: run) ++ rest).Pairwise R := hxs
      obtain ⟨hfirst, hrest, hbetween⟩ := List.pairwise_append.mp hsplit
      have hall : (x :: y :: run).Pairwise fun x y => rank x ≤ rank y := by
        refine List.pairwise_cons.mpr ⟨fun z hz => ?_, hordered⟩
        have hxy : rank x ≤ rank y := Nat.le_of_not_lt hyx
        rcases List.mem_cons.mp hz with rfl | hz
        · exact hxy
        · exact Nat.le_trans hxy (List.rel_of_pairwise_cons hordered hz)
      refine ⟨x :: y :: run, rest, ?_, hall.imp₂ (fun _ _ => .of_le) hfirst, hrest, hbetween⟩
      rw [if_neg hyx, hrun]
      rfl

end

/-- One item stands in front of another: it comes before it, or neither comes before the other and it stands there
    already. -/
def InFront (before : α → α → Except ε Bool) (R : α → α → Prop) (x y : α) : Prop :=
  before x y = .ok true ∨ before x y = .ok false ∧ before y x = .ok false ∧ R x y

/-- What follows by its rank is not in front. -/
theorem Follows.inFront {before : α → α → Except ε Bool} {xs : List α} (h : Orders before xs) {R : α → α → Prop}
    {x y : α} (hx : x ∈ xs) (hy : y ∈ xs) (hne : x ≠ y) (hfollows : Follows (rank before xs) R x y) :
    InFront before R x y := by
  rcases hfollows with hlt | ⟨heq, hR⟩
  · exact .inl (by rw [before_eq_rank h hx hy hne, decide_eq_true hlt])
  · refine .inr ⟨?_, ?_, hR⟩
    · rw [before_eq_rank h hx hy hne, decide_eq_false (by omega)]
    · rw [before_eq_rank h hy hx hne.symm, decide_eq_false (by omega)]

/-- **Sorting puts the items in order.** Items of which neither comes before the other stand as they did. -/
theorem sortWith_inFront {before : α → α → Except ε Bool} {xs : List α} (h : Orders before xs) (hnodup : xs.Nodup)
    {R : α → α → Prop} (hxs : xs.Pairwise R) :
    ∃ zs, sortWith before xs = .ok zs ∧ zs.Pairwise (InFront before R) := by
  have hcompares : ComparesRanks before (rank before xs) xs := fun x hx y hy => before_eq_rank h hx hy
  obtain ⟨run, rest, hrun, hordered, hrest, hbetween⟩ := leadingRun_follows hcompares hnodup hxs
  have hperm := leadingRun_perm hrun
  obtain ⟨zs, hzs, hfollows⟩ := foldlM_insertSorted_follows (hcompares.mono hperm.subset)
    (hperm.nodup_iff.mpr hnodup) hordered hrest hbetween
  have hsorted : sortWith before xs = .ok zs := by
    rw [sortWith, hrun]
    exact hzs
  have hsame := sortWith_perm hsorted
  refine ⟨zs, hsorted, ((hsame.nodup_iff.mpr hnodup).and hfollows).imp_of_mem fun hx hy hxy => ?_⟩
  exact hxy.2.inFront h (hsame.subset hx) (hsame.subset hy) hxy.1

/-- Items that are compared by something of a linear order are ordered. -/
theorem Orders.of_key {β : Type} [LinearOrder β] {before : α → α → Except ε Bool} {xs : List α} (key : α → β)
    (h : ∀ x ∈ xs, ∀ y ∈ xs, before x y = .ok (decide (key x < key y))) : Orders before xs where
  answers x hx y hy _ := ⟨_, h x hx y hy⟩
  asymm x hx y hy _ hxy := by
    rw [h x hx y hy, Except.ok.injEq, decide_eq_true_eq] at hxy
    rw [h y hy x hx, decide_eq_false (not_lt_of_gt hxy)]
  trans x hx y hy z hz _ _ _ hyx hzy := by
    rw [h y hy x hx, Except.ok.injEq, decide_eq_false_iff_not, not_lt] at hyx
    rw [h z hz y hy, Except.ok.injEq, decide_eq_false_iff_not, not_lt] at hzy
    rw [h z hz x hx, decide_eq_false (not_lt_of_ge (le_trans hyx hzy))]

end FileDepot.Sorting
