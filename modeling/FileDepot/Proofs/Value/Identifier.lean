import FileDepot.Value.Basic
import Mathlib.Algebra.Group.Nat.Defs

/-!
# Identifiers written down

An identifier is written as itself or as its 24 hexadecimal digits, in which letters may be small or capital.
Reading the digits gives the identifier back.

Contents:

* `Text.hexNumber?_hexFixed`, `Text.hexNumber?_toLower` — digits are read back, whatever their case;
* `ObjectId.Spells`, `ObjectId.Written` — the ways of writing an identifier;
* `ObjectId.ofText?_of_spells` — the digits of an identifier are read as this identifier.
-/

namespace FileDepot

/-! ## Digits -/

namespace Text

theorem hexValue?_hexDigit {n : Nat} (h : n < 16) : hexValue? (hexDigit n) = some n := by
  have hall : ∀ n < 16, hexValue? (hexDigit n) = some n := by decide +kernel
  exact hall n h

/-- The case of a digit does not count. -/
theorem hexValue?_toLower (c : Char) : hexValue? c.toLower = hexValue? c := by
  by_cases hc : 'A' ≤ c ∧ c ≤ 'Z'
  · -- a capital letter is one of 26
    have hall : ∀ n < 26, hexValue? (Char.ofNat (65 + n)).toLower = hexValue? (Char.ofNat (65 + n)) := by
      decide +kernel
    obtain ⟨hlow, hhigh⟩ : 65 ≤ c.toNat ∧ c.toNat ≤ 90 := hc
    have hnumber : 65 + (c.toNat - 65) = c.toNat := by omega
    have hletter := hall (c.toNat - 65) (by omega)
    rwa [hnumber, Char.ofNat_toNat] at hletter
  · have hsame : c.toLower = c := by
      unfold Char.toLower
      exact dif_neg hc
    rw [hsame]

theorem hexNumber?_concat (cs : List Char) (c : Char) :
    hexNumber? (cs ++ [c]) =
      (hexNumber? cs).bind fun n => (hexValue? c).map fun d => 16 * n + d := by
  simp [hexNumber?, List.foldlM_append]

/-- Digits are read back as the number of which they are the last ones. -/
theorem hexNumber?_hexFixed (width n : Nat) : hexNumber? (hexFixed width n) = some (n % 16 ^ width) := by
  induction width generalizing n with
  | zero => simp [hexFixed, hexNumber?, Nat.mod_one]
  | succ width ih =>
    have hdigit : n % 16 < 16 := Nat.mod_lt n (by omega)
    have hsplit : 16 * (n / 16 % 16 ^ width) + n % 16 = n % 16 ^ (width + 1) := by
      rw [Nat.pow_succ', Nat.mod_mul]
      omega
    rw [hexFixed, hexNumber?_concat, ih, hexValue?_hexDigit hdigit]
    simp [hsplit]

theorem length_hexFixed (width n : Nat) : (hexFixed width n).length = width := by
  induction width generalizing n with
  | zero => rfl
  | succ width ih => rw [hexFixed, List.length_append, ih, List.length_singleton]

theorem hexNumber?_toLower (cs : List Char) : hexNumber? (cs.map Char.toLower) = hexNumber? cs := by
  simp only [hexNumber?, List.foldlM_map, hexValue?_toLower]

end Text

/-! ## Spellings -/

namespace ObjectId

/-- The text is the 24 digits of the identifier, each letter of them small or capital. -/
structure Spells (i : ObjectId) (s : String) : Prop where
  fits : i.value < 16 ^ 24
  digits : s.toList.map Char.toLower = i.render.toList

/-- The ways of writing an identifier: as itself, and as its digits. -/
inductive Written (i : ObjectId) : Value → Prop
  | itself : Written i (.objectId i)
  | digits {s : String} (h : i.Spells s) : Written i (.text s)

/-- The digits of an identifier are read as this identifier. -/
theorem ofText?_of_spells {i : ObjectId} {s : String} (h : i.Spells s) : ofText? s = some i := by
  have hrender : i.render.toList = Text.hexFixed 24 i.value := String.toList_ofList
  have hlength : s.toList.length = 24 := by
    rw [← List.length_map (f := Char.toLower), h.digits, hrender, Text.length_hexFixed]
  have hnumber : Text.hexNumber? s.toList = some i.value := by
    rw [← Text.hexNumber?_toLower, h.digits, hrender, Text.hexNumber?_hexFixed,
      Nat.mod_eq_of_lt h.fits]
  unfold ofText?
  simp only [hlength, if_true, hnumber, Option.map_some]

end ObjectId

end FileDepot
