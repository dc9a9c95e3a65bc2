import FileDepot.Number.Written
import FileDepot.Text.Case
import FileDepot.Text.Pieces
import FileDepot.Value.Access
import FileDepot.Yaml.Kind

/-!
# YAML scalars that are no texts

Contents:

* `Yaml.truthValue`, `Yaml.wholeNumber`, `Yaml.fraction` — truth values and numbers;
* `Yaml.timestamp` — dates and times;
* `Yaml.binary` — bytes;
* `Yaml.scalarValue` — the value of a text of a kind.

A tag may call any text a number or a time, so that each of these can fail.
-/

namespace FileDepot.Yaml

/-- The answer that a text of its form stands for no value. -/
def impossible {α : Type} (f : Failure) : Result α :=
  .error (.impossible f)

/-! ## Truth values -/

/-- The truth value of a word. -/
def truthValue (text : String) : Result Bool :=
  match Text.lowered text with
  | "yes" | "true" | "on" => .ok true
  | "no" | "false" | "off" => .ok false
  | _ => impossible .unknownWord

/-! ## Numbers -/

/-- The text without underscores. -/
def withoutUnderscores (text : String) : List Char :=
  text.toList.filter (· != '_')

/-- Decimal digits as a number. -/
def decimalWhole (cs : List Char) : Result Int :=
  (Value.wholeOfChars (Text.quoted (String.ofList cs)) cs).mapError .impossible

/-- Digits of a base, a power of two, as a number. -/
def wholeIn (base : Nat) (cs : List Char) : Result Int :=
  match Text.wholeNumberIn base cs with
  | some n => .ok n
  | none => impossible (Value.notWhole base (Text.quoted (String.ofList cs)))

/-- Numbers between colons as one number in base sixty. -/
def wholeInSixties (cs : List Char) : Result Int := do
  let parts ← (Text.splitOn ':' cs).mapM decimalWhole
  .ok (parts.foldl (fun n d => 60 * n + d) 0)

/-- A whole number of any of the forms. -/
def wholeNumber (text : String) : Result Int := do
  let cs := withoutUnderscores text
  if cs.isEmpty then impossible .nothingWritten
  else
    let (negative, cs) := Binary64.takeSign cs
    let n ←
      match cs with
      | [] => impossible .nothingWritten
      | '0' :: 'b' :: ds => wholeIn 2 ds
      | '0' :: 'x' :: ds => wholeIn 16 ds
      | '0' :: _ => wholeIn 8 cs
      | cs => if cs.contains ':' then wholeInSixties cs else decimalWhole cs
    .ok (if negative then -n else n)

/-- A number as people write it. -/
def decimalFraction (cs : List Char) : Result Binary64 :=
  match Binary64.ofWritten? cs with
  | some x => .ok x
  | none =>
    impossible (.invalid s!"could not convert string to float: {Text.quoted (String.ofList cs)}")

/-- The sum of numbers, the first of which counts `unit` and each further one sixty times what the one in
front of it counts. -/
def sumOfSixties : Nat → Binary64 → List Binary64 → Result Binary64
  | _, total, [] => .ok total
  | unit, total, x :: xs =>
    match Binary64.ofWhole unit with
    | .infinite _ => impossible .outOfRange
    | factor => sumOfSixties (60 * unit) (total.sum (x.product factor)) xs

/-- Numbers between colons as one number in base sixty, added up from the last one on. -/
def fractionInSixties (cs : List Char) : Result Binary64 := do
  let parts ← (Text.splitOn ':' cs).mapM decimalFraction
  sumOfSixties 1 .zero parts.reverse

/-- A fraction of any of the forms. -/
def fraction (text : String) : Result Binary64 := do
  let cs := (Text.lowered (String.ofList (withoutUnderscores text))).toList
  if cs.isEmpty then impossible .nothingWritten
  else
    let (negative, cs) := Binary64.takeSign cs
    let x ←
      match cs with
      | ['.', 'i', 'n', 'f'] => pure (.infinite false)
      | ['.', 'n', 'a', 'n'] => pure .nan
      | cs => if cs.contains ':' then fractionInSixties cs else decimalFraction cs
    .ok (if negative then x.negate else x)

/-! ## Times -/

/-- The texts that are read as dates and times. -/
def timeForm : Regex :=
  form ("^[0-9][0-9][0-9][0-9]-[0-9][0-9]?-[0-9][0-9]?(?:" ++ dayTimeForm ++ ")?$")

/-- At most `n` digits in front, as a number, and what follows. -/
def leadingNumber? (n : Nat) (cs : List Char) : Option (Nat × List Char) :=
  let digits := (cs.take n).takeWhile Char.isDigit
  if digits.isEmpty then none
  else some (Binary64.digitsValue digits, cs.drop digits.length)

/-- What follows a character in front. -/
def behind? (c : Char) : List Char → Option (List Char)
  | d :: ds => if c = d then some ds else none
  | [] => none

/-- The offset at the end of a time, in seconds. -/
def offset? (cs : List Char) : Option (Option Int) :=
  match cs.dropWhile fun c => c == ' ' || c == '\t' with
  | [] => some none
  | ['Z'] => some (some 0)
  | sign :: rest => do
    let (hours, rest) ← leadingNumber? 2 rest
    let minutes := ((behind? ':' rest).bind (leadingNumber? 2)).elim 0 (·.1)
    let n : Int := (hours * 60 + minutes) * 60
    some (some (if sign = '-' then -n else n))

/-- A date, or a date with a time of day. -/
def timestamp? (cs : List Char) : Option (Date × Option DateTime) := do
  let (year, cs) ← leadingNumber? 4 cs
  let (month, cs) ← leadingNumber? 2 (← behind? '-' cs)
  let (day, cs) ← leadingNumber? 2 (← behind? '-' cs)
  let date : Date := ⟨year, month, day⟩
  match cs with
  | [] => some (date, none)
  | _ :: rest =>
    let (hour, cs) ← leadingNumber? 2 (rest.dropWhile fun c => c == ' ' || c == '\t')
    let (minute, cs) ← leadingNumber? 2 (← behind? ':' cs)
    let (second, cs) ← leadingNumber? 2 (← behind? ':' cs)
    let (digits, cs) :=
      match behind? '.' cs with
      | some cs => (cs.takeWhile Char.isDigit, cs.dropWhile Char.isDigit)
      | none => ([], cs)
    let offset ← offset? cs
    let microsecond := DateTime.microsecondsOf digits
    some (date, some { date, hour, minute, second, microsecond, offset })

/-- A text without the line break at its end. -/
def withoutLastBreak (cs : List Char) : List Char :=
  if cs.getLast? = some '\n' then cs.dropLast else cs

/-- A date or a time, which must exist. -/
def timestamp (text : String) : Result Value :=
  let cs := text.toList
  if !timeForm.matchesStart {} cs then impossible .lacksOperation
  else
    match timestamp? (withoutLastBreak cs) with
    | none => impossible .lacksOperation
    | some (date, none) =>
      match date.fault? with
      | some reason => impossible (.invalid reason)
      | none => .ok (.date date)
    | some (_, some time) =>
      match (time.offset.bind DateTime.offsetFault?) <|> time.fault? with
      | some reason => impossible (.invalid reason)
      | none => .ok (.dateTime time)

/-! ## Binary values -/

/-- The number of a character of the alphabet for binary values. -/
def sixBits? (c : Char) : Option Nat :=
  if 'A' ≤ c ∧ c ≤ 'Z' then some (c.toNat - 65)
  else if 'a' ≤ c ∧ c ≤ 'z' then some (c.toNat - 71)
  else if '0' ≤ c ∧ c ≤ '9' then some (c.toNat + 4)
  else if c = '+' then some 62
  else if c = '/' then some 63
  else none

/-- The numbers up to the padding that completes a group of four; `place` counts the numbers since the
last whole group, and `pads` the signs of padding since the last number. Signs that come too early and
characters outside of the alphabet do not count. A last group must be completed. -/
def sixBitRun : Nat → Nat → List Char → Option (List Nat)
  | place, _, [] => if place = 0 then some [] else none
  | place, pads, c :: cs =>
    if c = '=' then
      if place < 2 then sixBitRun place pads cs
      else if 4 ≤ place + pads + 1 then some []
      else sixBitRun place (pads + 1) cs
    else
      match sixBits? c with
      | some n => (sixBitRun ((place + 1) % 4) 0 cs).map (n :: ·)
      | none => sixBitRun place pads cs

/-- Four numbers as three bytes, fewer at the end. -/
def fromSixBits : List Nat → Bytes
  | a :: b :: c :: d :: rest =>
    let n := ((a * 64 + b) * 64 + c) * 64 + d
    UInt8.ofNat (n / 65536) :: UInt8.ofNat (n / 256) :: UInt8.ofNat n :: fromSixBits rest
  | [a, b, c] =>
    let n := (a * 64 + b) * 64 + c
    [UInt8.ofNat (n / 1024), UInt8.ofNat (n / 4)]
  | [a, b] => [UInt8.ofNat ((a * 64 + b) / 16)]
  | _ => []

/-- A binary value, which is written in ASCII. -/
def binary (text : String) : Result Value :=
  let cs := text.toList
  if cs.any fun c => 127 < c.toNat then malformed "a binary value is written in ASCII"
  else
    match sixBitRun 0 0 cs with
    | some ns => .ok (.bytes (fromSixBits ns))
    | none => malformed "incorrect padding"

/-! ## Scalars -/

/-- The value of a text of a kind. -/
def scalarValue (kind : Kind) (text : String) : Result Value :=
  match kind with
  | .null => .ok .null
  | .truth => (truthValue text).map .bool
  | .whole => (wholeNumber text).map .int
  | .fraction => (fraction text).map .float
  | .timestamp => timestamp text
  | .text => .ok (.text text)
  | .binary => binary text
  | .merge => malformed "a merge key stands for no value"
  | .default => malformed "a default key stands for no value"
  | .sequence | .mapping | .set | .pairs => malformed "expected a collection"
  | .other => malformed "could not determine a constructor for the tag"

end FileDepot.Yaml
