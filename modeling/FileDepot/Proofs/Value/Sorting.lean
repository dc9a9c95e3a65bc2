import FileDepot.Proofs.Answers
import FileDepot.Value.Sorting

/-!
# Sorting keeps the items

A sort that gives an answer gives the same items in another order, whatever the comparison says. One that fails does
so as some comparison of two of the items does.

The main statements are `sortWith_perm` and `sortWith_failsOnly`; one lemma for each part of the sort leads to each
of them.
-/

namespace FileDepot

namespace Sorting

variable {α ε : Type} {before : α → α → Except ε Bool}

theorem insertSorted_perm {x : α} {fuel : Nat} {ys zs : List α}
    (h : insertSorted before x fuel ys = .ok zs) : zs.Perm (x :: ys) := by
  induction fuel generalizing ys zs with
  | zero =>
    obtain rfl := Except.ok.inj h
    exact .refl _
  | succ fuel ih =>
    rw [insertSorted] at h
    split at h
    · next hdrop =>
      -- only of an empty list half of the items are all of them
      have hys : ys = [] := by
        have hlen : ys.length ≤ ys.length / 2 := List.drop_eq_nil_iff.mp hdrop
        exact List.length_eq_zero_iff.mp (by omega)
      obtain rfl := Except.ok.inj h
      rw [hys]
    · next y behind hdrop =>
      have hys : ys.take (ys.length / 2) ++ y :: behind = ys := by
        rw [← hdrop, List.take_append_drop]
      obtain ⟨first, -, h⟩ := bind_eq_ok.mp h
      rw [← hys]
      cases first with
      | true =>
        obtain ⟨front, hfront, h⟩ := bind_eq_ok.mp h
        obtain rfl := Except.ok.inj h
        simpa using (ih hfront).append_right (y :: behind)
      | false =>
        obtain ⟨behind', hbehind, h⟩ := bind_eq_ok.mp h
        obtain rfl := Except.ok.inj h
        have hcons : (y :: behind').Perm (x :: y :: behind) :=
          ((ih hbehind).cons y).trans (.swap x y behind)
        exact (hcons.append_left _).trans List.perm_middle

theorem ascending_append {last : α} {xs run rest : List α}
    (h : ascending before last xs = .ok (run, rest)) : run ++ rest = xs := by
  induction xs generalizing last run rest with
  | nil =>
    obtain ⟨rfl, rfl⟩ := Prod.mk.inj (Except.ok.inj h)
    rfl
  | cons x xs ih =>
    rw [ascending] at h
    obtain ⟨less, -, h⟩ := bind_eq_ok.mp h
    cases less with
    | true =>
      obtain ⟨rfl, rfl⟩ := Prod.mk.inj (Except.ok.inj h)
      rfl
    | false =>
      obtain ⟨⟨run', rest'⟩, hrun, h⟩ := bind_eq_ok.mp h
      obtain ⟨rfl, rfl⟩ := Prod.mk.inj (Except.ok.inj h)
      rw [List.cons_append, ih hrun]

theorem descending_perm {last : α} {done xs run rest : List α}
    (h : descending before last done xs = .ok (run, rest)) : (run ++ rest).Perm (done ++ xs) := by
  induction xs generalizing last done with
  | nil =>
    obtain ⟨rfl, rfl⟩ := Prod.mk.inj (Except.ok.inj h)
    exact .refl _
  | cons x xs ih =>
    rw [descending] at h
    obtain ⟨less, -, h⟩ := bind_eq_ok.mp h
    cases less with
    | true => exact (ih h).trans List.perm_middle.symm
    | false =>
      obtain ⟨rfl, rfl⟩ := Prod.mk.inj (Except.ok.inj h)
      exact .refl _

theorem leadingRun_perm {xs run rest : List α} (h : leadingRun before xs = .ok (run, rest)) :
    (run ++ rest).Perm xs := by
  match xs with
  | [] =>
    obtain ⟨rfl, rfl⟩ := Prod.mk.inj (Except.ok.inj h)
    exact .refl _
  | [x] =>
    obtain ⟨rfl, rfl⟩ := Prod.mk.inj (Except.ok.inj h)
    exact .refl _
  | x :: y :: xs =>
    rw [leadingRun] at h
    obtain ⟨less, -, h⟩ := bind_eq_ok.mp h
    cases less with
    | true => exact (descending_perm h).trans (.swap x y xs)
    | false =>
      obtain ⟨⟨run', rest'⟩, hrun, h⟩ := bind_eq_ok.mp h
      obtain ⟨rfl, rfl⟩ := Prod.mk.inj (Except.ok.inj h)
      rw [List.cons_append, List.cons_append, ascending_append hrun]

theorem foldlM_insertSorted_perm {sorted rest zs : List α}
    (h : rest.foldlM (fun sorted x => insertSorted before x sorted.length sorted) sorted = .ok zs) :
    zs.Perm (sorted ++ rest) := by
  induction rest generalizing sorted with
  | nil =>
    obtain rfl := Except.ok.inj h
    simp
  | cons x rest ih =>
    rw [List.foldlM_cons] at h
    obtain ⟨sorted', hsorted, h⟩ := bind_eq_ok.mp h
    have hfront : (sorted' ++ rest).Perm (x :: sorted ++ rest) :=
      (insertSorted_perm hsorted).append_right rest
    exact (ih h).trans (hfront.trans List.perm_middle.symm)

/-- **Sorting keeps the items.** -/
theorem sortWith_perm {xs zs : List α} (h : sortWith before xs = .ok zs) : zs.Perm xs := by
  rw [sortWith] at h
  obtain ⟨⟨run, rest⟩, hrun, h⟩ := bind_eq_ok.mp h
  exact (foldlM_insertSorted_perm h).trans (leadingRun_perm hrun)

/-! ## Failures -/

section

variable {P : α → Prop} {E : ε → Prop} (hbefore : ∀ x y, P x → P y → FailsOnly E (before x y))
include hbefore

theorem insertSorted_failsOnly {x : α} (hx : P x) {fuel : Nat} {ys : List α} (hys : ∀ y ∈ ys, P y) :
    FailsOnly E (insertSorted before x fuel ys) := by
  induction fuel generalizing ys with
  | zero => exact .ok _
  | succ fuel ih =>
    rw [insertSorted]
    split
    · exact .ok _
    · next y behind hdrop =>
      have hbehind : ∀ z ∈ y :: behind, P z := fun z hz => hys z (List.mem_of_mem_drop (hdrop ▸ hz))
      obtain ⟨hy, hbehind⟩ := List.forall_mem_cons.mp hbehind
      refine (hbefore x y hx hy).bind fun first _ => ?_
      split
      · exact (ih fun z hz => hys z (List.mem_of_mem_take hz)).bind fun _ _ => .ok _
      · exact (ih hbehind).bind fun _ _ => .ok _

theorem ascending_failsOnly {last : α} (hlast : P last) {xs : List α} (hxs : ∀ x ∈ xs, P x) :
    FailsOnly E (ascending before last xs) := by
  induction xs generalizing last with
  | nil => exact .ok _
  | cons x xs ih =>
    obtain ⟨hx, hxs⟩ := List.forall_mem_cons.mp hxs
    rw [ascending]
    refine (hbefore x last hx hlast).bind fun less _ => ?_
    split
    · exact .ok _
    · exact (ih hx hxs).bind fun _ _ => .ok _

theorem descending_failsOnly {last : α} (hlast : P last) {done xs : List α} (hxs : ∀ x ∈ xs, P x) :
    FailsOnly E (descending before last done xs) := by
  induction xs generalizing last done with
  | nil => exact .ok _
  | cons x xs ih =>
    obtain ⟨hx, hxs⟩ := List.forall_mem_cons.mp hxs
    rw [descending]
    refine (hbefore x last hx hlast).bind fun less _ => ?_
    split
    · exact ih hx hxs
    · exact .ok _

theorem leadingRun_failsOnly {xs : List α} (hxs : ∀ x ∈ xs, P x) : FailsOnly E (leadingRun before xs) := by
  match xs with
  | [] => exact .ok _
  | [x] => exact .ok _
  | x :: y :: xs =>
    obtain ⟨hx, hxs⟩ := List.forall_mem_cons.mp hxs
    obtain ⟨hy, hxs⟩ := List.forall_mem_cons.mp hxs
    rw [leadingRun]
    refine (hbefore y x hy hx).bind fun less _ => ?_
    split
    · exact descending_failsOnly hbefore hy hxs
    · exact (ascending_failsOnly hbefore hy hxs).bind fun _ _ => .ok _

theorem foldlM_insertSorted_failsOnly {sorted rest : List α} (hsorted : ∀ x ∈ sorted, P x)
    (hrest : ∀ x ∈ rest, P x) :
    FailsOnly E (rest.foldlM (fun sorted x => insertSorted before x sorted.length sorted) sorted) := by
  induction rest generalizing sorted with
  | nil => exact .ok _
  | cons x rest ih =>
    obtain ⟨hx, hrest⟩ := List.forall_mem_cons.mp hrest
    rw [List.foldlM_cons]
    refine (insertSorted_failsOnly hbefore hx hsorted).bind fun sorted' hsorted' => ih ?_ hrest
    intro z hz
    rcases List.mem_cons.mp ((insertSorted_perm hsorted').mem_iff.mp hz) with rfl | hz
    · exact hx
    · exact hsorted z hz

/-- **Sorting fails as a comparison of two items does.** -/
theorem sortWith_failsOnly {xs : List α} (hxs : ∀ x ∈ xs, P x) : FailsOnly E (sortWith before xs) := by
  rw [sortWith]
  refine (leadingRun_failsOnly hbefore hxs).bind fun parts hparts => ?_
  obtain ⟨run, rest⟩ := parts
  have hmem : ∀ x ∈ run ++ rest, P x := fun x hx => hxs x ((leadingRun_perm hparts).mem_iff.mp hx)
  obtain ⟨hrun, hrest⟩ := List.forall_mem_append.mp hmem
  exact foldlM_insertSorted_failsOnly hbefore hrun hrest

end

end Sorting

end FileDepot
