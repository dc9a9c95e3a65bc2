/-!
# Numbers in digits

Contents:

* `hexDigit`, `hexFixed` — a number in hexadecimal digits, padded to a width;
* `hexValue?` — the value of one hexadecimal digit;
* `decimalPadded` — a number in decimal digits, padded to a width;
* `Bytes` — the content of a file, and its spelling in hexadecimal digits.
-/

namespace FileDepot

/-- The content of a file or a binary value. -/
abbrev Bytes := List UInt8

namespace Text

/-- The small hexadecimal digit of a number below sixteen. -/
def hexDigit (n : Nat) : Char :=
  if n < 10 then Char.ofNat (48 + n) else Char.ofNat (87 + n)

/-- The last `width` hexadecimal digits of a number. -/
def hexFixed : Nat → Nat → List Char
  | 0, _ => []
  | width + 1, n => hexFixed width (n / 16) ++ [hexDigit (n % 16)]

/-- The value of a hexadecimal digit of either case. -/
def hexValue? (c : Char) : Option Nat :=
  if '0' ≤ c ∧ c ≤ '9' then some (c.toNat - 48)
  else if 'a' ≤ c ∧ c ≤ 'f' then some (c.toNat - 87)
  else if 'A' ≤ c ∧ c ≤ 'F' then some (c.toNat - 55)
  else none

/-- A number in decimal digits, with zeros in front up to the given width. -/
def decimalPadded (width n : Nat) : String :=
  let digits := toString n
  String.ofList (List.replicate (width - digits.length) '0') ++ digits

/-- Bytes in hexadecimal digits. -/
def hexOfBytes (bs : Bytes) : String :=
  String.ofList (bs.flatMap fun b => hexFixed 2 b.toNat)

/-- The bytes spelled by pairs of hexadecimal digits. -/
def bytesOfHex? : List Char → Option Bytes
  | [] => some []
  | [_] => none
  | a :: b :: rest => do
    let high ← hexValue? a
    let low ← hexValue? b
    let bytes ← bytesOfHex? rest
    pure (UInt8.ofNat (16 * high + low) :: bytes)

/-- The bytes of a string. -/
def bytesOfString (s : String) : Bytes :=
  s.toUTF8.data.toList

/-- The string that bytes spell, if they spell one. -/
def stringOfBytes? (bs : Bytes) : Option String :=
  String.fromUTF8? ⟨bs.toArray⟩

end Text

end FileDepot
