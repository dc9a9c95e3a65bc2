import FileDepot.Value.Access
import Mathlib.Data.Int.Order.Basic

/-!
# Values that are numbers

Contents:

* `Binary64.ratio_pos`, `Decimal.ratio_pos`, `Number.tdiv_of_equal` — quotients and their whole parts;
* `Value.toWhole_of_same` — a value that equals a whole number is read as this number;
* `Value.precedes_of_whole`, `Value.isNegative_of_whole` — whole numbers in order.
-/

namespace FileDepot

theorem Binary64.ratio_pos {x : Binary64} {ratio : Int × Nat} (h : x.ratio? = some ratio) : 0 < ratio.2 := by
  cases x with
  | nan | infinite negative => simp [ratio?] at h
  | finite negative m e =>
    rw [ratio?] at h
    split at h <;> obtain rfl := Option.some.inj h
    · exact Nat.one_pos
    · exact Nat.pow_pos Nat.two_pos

theorem Decimal.ratio_pos {x : Decimal} {ratio : Int × Nat} (h : x.ratio? = some ratio) : 0 < ratio.2 := by
  cases x with
  | nan negative signaling payload | infinite negative => simp [ratio?] at h
  | finite negative c e =>
    rw [ratio?] at h
    split at h <;> obtain rfl := Option.some.inj h
    · exact Nat.one_pos
    · exact Nat.pow_pos (by omega)

/-- A quotient that equals a whole number has it as its whole part. -/
theorem Number.tdiv_of_equal {n a : Int} {d : Nat} (hd : 0 < d)
    (h : (Number.exact n 1).compare? (.exact a d) = some .eq) : a.tdiv d = n := by
  have ha : n * d = a := by simpa [compare?] using h
  rw [← ha]
  exact Int.mul_tdiv_cancel n (by omega)

namespace Value

/-- A value that equals a whole number is read as this number. -/
theorem toWhole_of_same {n : Int} {v : Value} (h : (Value.int n).same v = true) : v.toWhole = .ok n := by
  rw [same, sameNumber] at h
  cases v with
  | bool b =>
    have hn : n = if b then 1 else 0 := by simpa [number?, Number.compare?] using h
    rw [toWhole, hn]
  | int m | intMember m =>
    have hn : n = m := by simpa [number?, Number.compare?] using h
    rw [toWhole, hn]
  | float x =>
    cases x with
    | nan => simp [number?, Number.ofFloat, Number.compare?] at h
    | infinite negative => cases negative <;> simp [number?, Number.ofFloat, Number.compare?] at h
    | finite negative m e =>
      cases hratio : (Binary64.finite negative m e).ratio? with
      | none => simp [number?, Number.ofFloat, Number.compare?, hratio] at h
      | some ratio =>
        have hn := Number.tdiv_of_equal (Binary64.ratio_pos hratio)
          (by simpa only [number?, Number.ofFloat, hratio, beq_iff_eq] using h)
        simp [toWhole, Binary64.truncated?, hratio, hn]
  | decimal x =>
    cases x with
    | nan negative signaling payload => simp [number?, Number.ofDecimal, Number.compare?] at h
    | infinite negative => cases negative <;> simp [number?, Number.ofDecimal, Number.compare?] at h
    | finite negative c e =>
      cases hratio : (Decimal.finite negative c e).ratio? with
      | none => simp [number?, Number.ofDecimal, Number.compare?, hratio] at h
      | some ratio =>
        have hn := Number.tdiv_of_equal (Decimal.ratio_pos hratio)
          (by simpa only [number?, Number.ofDecimal, hratio, beq_iff_eq] using h)
        simp [toWhole, hratio, hn]
  | _ => simp [number?] at h

theorem precedes_of_whole {a b : Value} {m n : Int} (ha : a.whole? = some m) (hb : b.whole? = some n) :
    a.precedes b = .ok (decide (m < n)) := by
  have hnumber {v : Value} {k : Int} (h : v.whole? = some k) : v.number? = some (.exact k 1) := by
    cases v <;> simp_all [whole?, number?]
  have hprecedes : a.precedes b = numberPrecedes a b := by
    cases a <;> first | rfl | simp [whole?] at ha
  rw [hprecedes, numberPrecedes, hnumber ha, hnumber hb]
  show Except.ok (Ord.compare (m * 1) (n * 1) == Ordering.lt) = _
  rw [Int.mul_one, Int.mul_one]
  rcases lt_trichotomy m n with hlt | rfl | hgt
  · rw [compare_lt_iff_lt.mpr hlt, decide_eq_true hlt]
    rfl
  · rw [compare_eq_iff_eq.mpr rfl, decide_eq_false (lt_irrefl m)]
    rfl
  · rw [compare_gt_iff_gt.mpr hgt, decide_eq_false (not_lt_of_gt hgt)]
    rfl

/-- Whether a whole number is below zero can be told. -/
theorem isNegative_of_whole {v : Value} {n : Int} (h : v.whole? = some n) :
    v.isNegative = .ok (decide (n < 0)) := by
  have hprecedes : v.precedes (.int 0) = .ok (decide (n < 0)) := precedes_of_whole h rfl
  rw [isNegative, hprecedes]
  rfl

end Value

end FileDepot
