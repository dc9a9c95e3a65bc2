import FileDepot.Number.Binary64
import FileDepot.Text.Blank

/-!
# Decimal numbers

Decimal numbers of any precision, and those that fit the 34 digits of a stored decimal.

Contents:

* `Decimal` — the numbers;
* `Decimal.render`, `Decimal.ofText?` — writing and reading;
* `Decimal.toStored` — the form of a decimal with 34 digits, or why there is none.
-/

namespace FileDepot

/-- A decimal number; a finite one is its coefficient times a power of ten, and its number of digits
counts. -/
inductive Decimal
  | finite (negative : Bool) (coefficient : Nat) (exponent : Int)
  | infinite (negative : Bool)
  | nan (negative signaling : Bool) (payload : Nat)
  deriving Repr, DecidableEq, Inhabited

namespace Decimal

/-- The number of decimal digits; zero has one. -/
def digitCount (n : Nat) : Nat :=
  (toString n).length

/-! ## Writing -/

/-- Coefficient and exponent in digits: positional for a small number of zeros, otherwise scientific. -/
def renderFinite (coefficient : Nat) (exponent : Int) : String :=
  let digits := (toString coefficient).toList
  let adjusted := exponent + digits.length - 1
  if exponent ≤ 0 && -6 ≤ adjusted then
    if exponent = 0 then String.ofList digits
    else
      let point := (digits.length : Int) + exponent
      if 0 < point then
        String.ofList (digits.take point.toNat ++ '.' :: digits.drop point.toNat)
      else String.ofList (['0', '.'] ++ List.replicate (-point).toNat '0' ++ digits)
  else
    let fraction := digits.drop 1
    let sign := if adjusted < 0 then "-" else "+"
    String.ofList (digits.take 1 ++ if fraction.isEmpty then [] else '.' :: fraction) ++
      s!"E{sign}{adjusted.natAbs}"

/-- The text of a decimal. -/
def render : Decimal → String
  | .finite negative c e => (if negative then "-" else "") ++ renderFinite c e
  | .infinite negative => if negative then "-Infinity" else "Infinity"
  | .nan negative signaling payload =>
    (if negative then "-" else "") ++ (if signaling then "sNaN" else "NaN") ++
      (if payload = 0 then "" else toString payload)

/-! ## Reading -/

/-- A word for a number that is not finite, in small letters and without its sign. -/
def special? (negative : Bool) (cs : List Char) : Option Decimal :=
  let payload (digits : List Char) (signaling : Bool) : Option Decimal :=
    if digits.all Char.isDigit then some (.nan negative signaling (Binary64.digitsValue digits))
    else none
  match cs with
  | ['i', 'n', 'f'] => some (.infinite negative)
  | ['i', 'n', 'f', 'i', 'n', 'i', 't', 'y'] => some (.infinite negative)
  | 'n' :: 'a' :: 'n' :: digits => payload digits false
  | 's' :: 'n' :: 'a' :: 'n' :: digits => payload digits true
  | _ => none

/-- Reads a decimal; blanks around it and underscores in it do not count. -/
def ofText? (s : String) : Option Decimal :=
  let cs := (Text.strip s.toList).filter (· != '_')
  match Binary64.Numeral.ofChars? cs with
  | some n => some (.finite n.negative n.coefficient n.exponent)
  | none =>
    let (negative, word) := Binary64.takeSign cs
    special? negative (word.map Char.toLower)

/-! ## Values -/

/-- The value of a finite decimal as a quotient with a positive denominator. -/
def ratio? : Decimal → Option (Int × Nat)
  | .finite negative c e =>
    let signed : Int := if negative then -(c : Int) else c
    if 0 ≤ e then some (signed * Nat.pow 10 e.toNat, 1) else some (signed, Nat.pow 10 (-e).toNat)
  | _ => none

/-- The decimal is a zero. -/
def isZero : Decimal → Bool
  | .finite _ c _ => c == 0
  | _ => false

/-! ## Stored decimals -/

/-- Why a decimal has no stored form. -/
inductive StoreError
  /-- More digits than fit. -/
  | inexact
  /-- Beyond the greatest number. -/
  | overflow
  /-- A number that is none, with digits of its own. -/
  | payload
  deriving Repr, DecidableEq

/-- The stored form of `coefficient * 10 ^ exponent`. Zeros move between the two parts to keep the
exponent from -6176 to 6111 and the coefficient below 35 digits; no other digit may be lost. -/
def storedParts (coefficient : Nat) (exponent : Int) : Except StoreError (Nat × Int) :=
  if coefficient = 0 then .ok (0, min (max exponent (-6176)) 6111)
  else
    let digits := digitCount coefficient
    let adjusted := exponent + digits - 1
    if 6144 < adjusted then .error .overflow
    else if 6111 < exponent then .ok (coefficient * Nat.pow 10 (exponent - 6111).toNat, 6111)
    else
      let surplus := max ((digits : Int) - 34) (-6176 - exponent)
      if surplus ≤ 0 then .ok (coefficient, exponent)
      else
        let unit := Nat.pow 10 (min surplus.toNat (digits + 1))
        if coefficient % unit = 0 then .ok (coefficient / unit, exponent + surplus)
        else if adjusted = 6144 && Binary64.roundDiv coefficient unit = Nat.pow 10 34 then
          .error .overflow
        else .error .inexact

/-- The stored form of a decimal. -/
def toStored : Decimal → Except StoreError Decimal
  | .finite negative c e => (storedParts c e).map fun (c, e) => .finite negative c e
  | .infinite negative => .ok (.infinite negative)
  | .nan negative signaling payload =>
    if payload = 0 then .ok (.nan negative signaling 0) else .error .payload

/-- The text of a stored decimal, which shows no sign and no signal on what is no number. -/
def renderStored : Decimal → String
  | .nan _ _ _ => "NaN"
  | d => d.render

end Decimal

end FileDepot
