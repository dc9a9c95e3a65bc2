import FileDepot.Text.Blank
import FileDepot.Text.Digits

/-!
# Whole numbers in text

Contents:

* `zeros`, `decimalDigit?` — the decimal digits of every script;
* `wholeNumber` — a whole number with blanks around it, a sign, and single underscores between digits;
* `wholeNumberIn` — a whole number in a base that is a power of two.
-/

namespace FileDepot.Text

/-- The digit zero of every script; the digits up to nine follow each. -/
def zeros : List Nat := [
  0x30, 0x660, 0x6F0, 0x7C0, 0x966, 0x9E6, 0xA66, 0xAE6, 0xB66, 0xBE6, 0xC66, 0xCE6, 0xD66,
  0xDE6, 0xE50, 0xED0, 0xF20, 0x1040, 0x1090, 0x17E0, 0x1810, 0x1946, 0x19D0, 0x1A80, 0x1A90,
  0x1B50, 0x1BB0, 0x1C40, 0x1C50, 0xA620, 0xA8D0, 0xA900, 0xA9D0, 0xA9F0, 0xAA50, 0xABF0, 0xFF10,
  0x104A0, 0x10D30, 0x11066, 0x110F0, 0x11136, 0x111D0, 0x112F0, 0x11450, 0x114D0, 0x11650,
  0x116C0, 0x11730, 0x118E0, 0x11950, 0x11C50, 0x11D50, 0x11DA0, 0x16A60, 0x16AC0, 0x16B50,
  0x1D7CE, 0x1D7D8, 0x1D7E2, 0x1D7EC, 0x1D7F6, 0x1E140, 0x1E2F0, 0x1E950, 0x1FBF0]

/-- The value of a decimal digit of any script. -/
def decimalDigit? (c : Char) : Option Nat :=
  if c.isDigit then some (c.toNat - 48)
  else (zeros.find? fun z => z ≤ c.toNat && c.toNat ≤ z + 9).map fun z => c.toNat - z

/-- Reads digits, with at most one underscore between each two; `n` is the number read so far. -/
def digitsFrom (n : Nat) : List Char → Option Nat
  | [] => some n
  | '_' :: c :: cs =>
    match decimalDigit? c with
    | some d => digitsFrom (10 * n + d) cs
    | none => none
  | c :: cs =>
    match decimalDigit? c with
    | some d => digitsFrom (10 * n + d) cs
    | none => none

/-- Reads at least one digit. -/
def digits? : List Char → Option Nat
  | [] => none
  | c :: cs => (decimalDigit? c).bind fun d => digitsFrom d cs

/-! ## Whole numbers -/

/-- The blanks that may stand around a number: among the ASCII characters, the information separators are
none. -/
def isNumberBlank (c : Char) : Bool :=
  if c.toNat < 128 then c == ' ' || (9 ≤ c.toNat && c.toNat ≤ 13) else isBlank c

/-- A text without the blanks that may stand around a number. -/
def withoutNumberBlanks (cs : List Char) : List Char :=
  ((cs.dropWhile isNumberBlank).reverse.dropWhile isNumberBlank).reverse

/-- A decimal digit of any script as the ASCII digit, and any other character as it is. -/
def plainDigit (c : Char) : Char :=
  match decimalDigit? c with
  | some d => Char.ofNat (48 + d)
  | none => c

/-- Why a text spells no whole number. -/
inductive WholeFault
  | spelling
  /-- It has more digits than are read. -/
  | length (digits : Nat)
  deriving Repr, DecidableEq

/-- The greatest number of digits that are read, and that are written. -/
def digitLimit : Nat := 4300

/-- The character may be a part of a number behind its sign. -/
def isNumberChar (c : Char) : Bool :=
  (decimalDigit? c).isSome || c == '_'

/-- Reads digits without a sign. Their number is looked at before what follows them. -/
def unsigned (cs : List Char) : Except WholeFault Nat :=
  let run := cs.takeWhile isNumberChar
  match digits? run with
  | none => .error .spelling
  | some n =>
    let count := (run.filter (· != '_')).length
    if count > digitLimit then .error (.length count)
    else if cs.all isNumberChar then .ok n
    else .error .spelling

/-- Reads a whole number with an optional sign; blanks around it do not count. -/
def wholeNumber (cs : List Char) : Except WholeFault Int :=
  match withoutNumberBlanks cs with
  | '-' :: cs => (unsigned cs).map fun n => -(n : Int)
  | '+' :: cs => (unsigned cs).map fun n => (n : Int)
  | cs => (unsigned cs).map fun n => (n : Int)

/-- The letter that may stand behind a zero in front of the digits of a base. -/
def baseLetter? (base : Nat) : Option Char :=
  if base = 2 then some 'b' else if base = 8 then some 'o' else if base = 16 then some 'x' else none

/-- Digits without the sign of their base. -/
def withoutBaseSign (base : Nat) : List Char → List Char
  | '0' :: c :: cs => if some c.toLower = baseLetter? base then cs else '0' :: c :: cs
  | cs => cs

/-- Reads at least one digit of a base. -/
def unsignedIn? (base : Nat) (cs : List Char) : Option Nat := do
  let ds ← cs.mapM fun c => (hexValue? c).bind fun d => if d < base then some d else none
  if ds.isEmpty then none else some (ds.foldl (fun n d => base * n + d) 0)

/-- Reads a whole number in a base that is a power of two, with an optional sign and the sign of the base
in front; blanks around it do not count. -/
def wholeNumberIn (base : Nat) (cs : List Char) : Option Int :=
  match (withoutNumberBlanks cs).map plainDigit with
  | '-' :: cs => (unsignedIn? base (withoutBaseSign base cs)).map fun n => -(n : Int)
  | '+' :: cs => (unsignedIn? base (withoutBaseSign base cs)).map fun n => (n : Int)
  | cs => (unsignedIn? base (withoutBaseSign base cs)).map fun n => (n : Int)

end FileDepot.Text
