import FileDepot.Text.Digits

/-!
# Binary floating point

Numbers of 53 significant bits, held exactly.

Contents:

* `Binary64` — not a number, an infinity, or a sign with `mantissa * 2 ^ exponent`;
* `Binary64.ofRatio`, `Binary64.ofDecimal` — the nearest number to a quotient or a decimal, a tie going
  to the even mantissa;
* `Binary64.ofText?` — reading;
* `Binary64.sum`, `Binary64.product` — arithmetic, rounded to the nearest number;
* `Binary64.truncated?` — the whole part.
-/

namespace FileDepot

/-- A floating-point number. The mantissa is below `2 ^ 53` and as large as the least exponent, -1074,
allows, so that equal numbers but for the two zeros have one form. -/
inductive Binary64
  | nan
  | infinite (negative : Bool)
  | finite (negative : Bool) (mantissa : Nat) (exponent : Int)
  deriving Repr, DecidableEq, Inhabited

namespace Binary64

/-- The zero without a sign. -/
def zero : Binary64 := .finite false 0 (-1074)

/-- A quotient rounded to a whole number, a half going to the even neighbour. -/
def roundDiv (num den : Nat) : Nat :=
  let q := num / den
  let twice := 2 * (num % den)
  if twice < den then q
  else if den < twice then q + 1
  else if q % 2 = 0 then q else q + 1

/-- `num / den` in units of `2 ^ e`, rounded. -/
def scaled (num den : Nat) (e : Int) : Nat :=
  if 0 ≤ e then roundDiv num (den * Nat.pow 2 e.toNat) else roundDiv (num * Nat.pow 2 (-e).toNat) den

/-- `num / den` is at least `2 ^ e`. -/
def reaches (num den : Nat) (e : Int) : Bool :=
  if 0 ≤ e then den * Nat.pow 2 e.toNat ≤ num else den ≤ num * Nat.pow 2 (-e).toNat

/-- The exponent of the greatest power of two not above `num / den`, for a positive quotient. -/
def floorLog2 (num den : Nat) : Int :=
  let guess : Int := (num.log2 : Int) - den.log2
  if reaches num den guess then guess else guess - 1

/-- The number nearest to `num / den`. -/
def ofRatio (negative : Bool) (num den : Nat) : Binary64 :=
  if num = 0 then .finite negative 0 (-1074)
  else
    let e := max (floorLog2 num den - 52) (-1074)
    let m := scaled num den e
    let (m, e) := if m = Nat.pow 2 53 then (Nat.pow 2 52, e + 1) else (m, e)
    if 971 < e then .infinite negative else .finite negative m e

/-- The number nearest to `coefficient * 10 ^ exponent`. Exponents far beyond the range of the type are
not multiplied out. -/
def ofDecimal (negative : Bool) (coefficient : Nat) (exponent : Int) : Binary64 :=
  let magnitude := exponent + (toString coefficient).length
  if coefficient = 0 || magnitude < -330 then .finite negative 0 (-1074)
  else if 330 < magnitude then .infinite negative
  else if 0 ≤ exponent then ofRatio negative (coefficient * Nat.pow 10 exponent.toNat) 1
  else ofRatio negative coefficient (Nat.pow 10 (-exponent).toNat)

/-! ## Reading -/

/-- A decimal number as written: sign, digits as one whole number, and the power of ten it is
multiplied with. -/
structure Numeral where
  negative : Bool
  coefficient : Nat
  exponent : Int
  deriving Repr, DecidableEq

/-- The value of decimal digits. -/
def digitsValue (cs : List Char) : Nat :=
  cs.foldl (fun n c => 10 * n + (c.toNat - 48)) 0

/-- A sign in front of a text, and the text behind it. -/
def takeSign : List Char → Bool × List Char
  | '-' :: cs => (true, cs)
  | '+' :: cs => (false, cs)
  | cs => (false, cs)

/-- A whole number with an optional sign and nothing else. -/
def exponentOf? (cs : List Char) : Option Int :=
  let (negative, digits) := takeSign cs
  if digits.isEmpty || !digits.all Char.isDigit then none
  else
    let n : Int := digitsValue digits
    some (if negative then -n else n)

/-- Reads digits with an optional point and an optional exponent; one digit at least in front of the
exponent. -/
def Numeral.ofChars? (cs : List Char) : Option Numeral := do
  let (negative, cs) := takeSign cs
  let whole := cs.takeWhile Char.isDigit
  let rest := cs.dropWhile Char.isDigit
  let (fraction, rest) :=
    match rest with
    | '.' :: rest => (rest.takeWhile Char.isDigit, rest.dropWhile Char.isDigit)
    | rest => ([], rest)
  if whole.isEmpty && fraction.isEmpty then none
  let exponent ←
    match rest with
    | [] => some 0
    | c :: rest => if c = 'e' || c = 'E' then exponentOf? rest else none
  pure ⟨negative, digitsValue (whole ++ fraction), exponent - fraction.length⟩

/-- The number nearest to a numeral. -/
def ofNumeral (n : Numeral) : Binary64 :=
  ofDecimal n.negative n.coefficient n.exponent

/-- Reads a number in decimal or exponent form, or one of the words for what is no finite number. -/
def ofText? (s : String) : Option Binary64 :=
  match s with
  | "nan" => some .nan
  | "inf" => some (.infinite false)
  | "-inf" => some (.infinite true)
  | s => (Numeral.ofChars? s.toList).map ofNumeral

/-! ## Parts -/

/-- The number is a zero. -/
def isZero : Binary64 → Bool
  | .finite _ m _ => m == 0
  | _ => false

/-- The value of a finite number as a quotient with a positive denominator. -/
def ratio? : Binary64 → Option (Int × Nat)
  | .finite negative m e =>
    let signed : Int := if negative then -(m : Int) else m
    if 0 ≤ e then some (signed * Nat.pow 2 e.toNat, 1) else some (signed, Nat.pow 2 (-e).toNat)
  | _ => none

/-- The whole part of a finite number, toward zero. -/
def truncated? (x : Binary64) : Option Int :=
  x.ratio?.map fun (n, d) => n.tdiv d

/-! ## Arithmetic -/

/-- The number has a minus sign. -/
def isNegative : Binary64 → Bool
  | .nan => false
  | .infinite negative => negative
  | .finite negative _ _ => negative

/-- The number with the other sign. -/
def negate : Binary64 → Binary64
  | .nan => .nan
  | .infinite negative => .infinite (!negative)
  | .finite negative m e => .finite (!negative) m e

/-- The number nearest to a whole number. -/
def ofWhole (n : Nat) : Binary64 :=
  ofRatio false n 1

/-- The number nearest to the sum of two. Where the sum is zero, it has a minus sign only if both numbers
have one. -/
def sum (x y : Binary64) : Binary64 :=
  match x, y with
  | .nan, _ => .nan
  | _, .nan => .nan
  | .infinite a, .infinite b => if a = b then .infinite a else .nan
  | .infinite a, .finite _ _ _ => .infinite a
  | .finite _ _ _, .infinite b => .infinite b
  | x, y =>
    match x.ratio?, y.ratio? with
    | some (n, d), some (n', d') =>
      let total := n * d' + n' * d
      let negative := if total = 0 then x.isNegative && y.isNegative else total < 0
      ofRatio negative total.natAbs (d * d')
    | _, _ => .nan

/-- The number nearest to the product of two. -/
def product (x y : Binary64) : Binary64 :=
  let negative := x.isNegative != y.isNegative
  match x, y with
  | .nan, _ => .nan
  | _, .nan => .nan
  | .infinite _, y => if y.isZero then .nan else .infinite negative
  | x, .infinite _ => if x.isZero then .nan else .infinite negative
  | x, y =>
    match x.ratio?, y.ratio? with
    | some (n, d), some (n', d') => ofRatio negative (n.natAbs * n'.natAbs) (d * d')
    | _, _ => .nan

end Binary64

end FileDepot
