import FileDepot.Number.Binary64

/-!
# The shortest decimal of a floating-point number

Contents:

* `Binary64.candidate?` — a decimal of a given number of digits that reads back;
* `Binary64.shortest` — the fewest digits that read back, the nearest of those;
* `Binary64.render` — the text of a number.
-/

namespace FileDepot.Binary64

/-- `num / den` is at least `10 ^ k`. -/
def reachesTen (num den : Nat) (k : Int) : Bool :=
  if 0 ≤ k then den * Nat.pow 10 k.toNat ≤ num else den ≤ num * Nat.pow 10 (-k).toNat

/-- Corrects a guess for the decimal exponent of a positive quotient, with at most `fuel` steps. -/
def settleLog10 (num den : Nat) : Nat → Int → Int
  | 0, k => k
  | fuel + 1, k =>
    if !reachesTen num den k then settleLog10 num den fuel (k - 1)
    else if reachesTen num den (k + 1) then settleLog10 num den fuel (k + 1)
    else k

/-- The exponent of the greatest power of ten not above a positive quotient. -/
def floorLog10 (num den : Nat) : Int :=
  settleLog10 num den 8 ((floorLog2 num den * 30103).fdiv 100000)

/-- The quotient in units of `10 ^ k`: its whole part, and the rest as a quotient below one. -/
def floorAt (num den : Nat) (k : Int) : Nat × Nat × Nat :=
  let (n, d) := if 0 ≤ k then (num, den * Nat.pow 10 k.toNat) else (num * Nat.pow 10 (-k).toNat, den)
  (n / d, n % d, d)

/-- The decimal `c * 10 ^ k` reads back as the positive number `x`. -/
def readsBack (x : Binary64) (c : Nat) (k : Int) : Bool :=
  ofDecimal false c k == x

/-- A multiple of `10 ^ k` next to the positive number that reads back; of two the nearer, a tie going
to the even one. -/
def candidate? (x : Binary64) (num den : Nat) (k : Int) : Option Nat :=
  let (low, rest, unit) := floorAt num den k
  match readsBack x low k, readsBack x (low + 1) k with
  | true, true =>
    if 2 * rest < unit then some low
    else if unit < 2 * rest then some (low + 1)
    else if low % 2 = 0 then some low else some (low + 1)
  | true, false => some low
  | false, true => some (low + 1)
  | false, false => none

/-- Tries one digit more until a decimal reads back; `top` is the decimal exponent of the number and
`digits` the number of digits to try first. -/
def shortestFrom (x : Binary64) (num den : Nat) (top : Int) : Nat → Nat → Nat × Int
  | 0, _ => (0, 0)
  | fuel + 1, digits =>
    let k := top - digits + 1
    match candidate? x num den k with
    | some c => (c, k)
    | none => shortestFrom x num den top fuel (digits + 1)

/-- The shortest decimal `c * 10 ^ k` of a positive number with the given value. -/
def shortest (x : Binary64) (num den : Nat) : Nat × Int :=
  shortestFrom x num den (floorLog10 num den) 18 1

/-- Digits without the zeros at their end, and how many those were. -/
def dropTrailingZeros (digits : List Char) : List Char × Nat :=
  let kept := (digits.reverse.dropWhile (· == '0')).reverse
  (kept, digits.length - kept.length)

/-- Positive digits with the point behind the first `point` of them: positional for a point from -3 to
16, otherwise with an exponent of two digits at least. -/
def layout (digits : List Char) (point : Int) : List Char :=
  let count : Int := digits.length
  if point ≤ -4 || 16 < point then
    let e := point - 1
    let fraction := digits.drop 1
    digits.take 1 ++ (if fraction.isEmpty then [] else '.' :: fraction) ++
      ['e', if e < 0 then '-' else '+'] ++ (Text.decimalPadded 2 e.natAbs).toList
  else if point ≤ 0 then ['0', '.'] ++ List.replicate (-point).toNat '0' ++ digits
  else if count ≤ point then digits ++ List.replicate (point - count).toNat '0' ++ ['.', '0']
  else digits.take point.toNat ++ '.' :: digits.drop point.toNat

/-- The text of a number: the fewest digits that read back. -/
def render : Binary64 → String
  | .nan => "nan"
  | .infinite negative => if negative then "-inf" else "inf"
  | .finite negative m e =>
    let sign := if negative then "-" else ""
    if m = 0 then sign ++ "0.0"
    else
      let x : Binary64 := .finite false m e
      let (num, den) := if 0 ≤ e then (m * Nat.pow 2 e.toNat, 1) else (m, Nat.pow 2 (-e).toNat)
      let (c, k) := shortest x num den
      let (digits, zeros) := dropTrailingZeros (toString c).toList
      sign ++ String.ofList (layout digits (k + zeros + digits.length))

end FileDepot.Binary64
