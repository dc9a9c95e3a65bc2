import FileDepot.Failure
import FileDepot.Number.Word
import FileDepot.Text.Blank
import FileDepot.Value.Show
import FileDepot.Value.Compare

/-!
# Fields of settings

How a value is taken as a text, as a whole number, as an answer or as a mapping, and which rule it
breaks where it cannot be.

Contents:

* `Checked` — a value or the issues that stand in its way; issues of several parts add up;
* `Setting.text`, `Setting.whole`, `Setting.flag`, `Setting.mapping` — the kinds of fields;
* `Setting.field` — a field with its default.
-/

namespace FileDepot

/-- A value, or the issues that stand in its way. -/
inductive Checked (α : Type)
  | accepted (a : α)
  | refused (issues : List Issue)
  deriving Repr, Inhabited

namespace Checked

/-- The issues that stand in the way of a value. -/
def issues {α : Type} : Checked α → List Issue
  | .accepted _ => []
  | .refused is => is

/-- A function applied to a value; the issues of both add up. -/
def apply {α β : Type} : Checked (α → β) → Checked α → Checked β
  | .accepted f, .accepted a => .accepted (f a)
  | .accepted _, .refused is => .refused is
  | .refused is, .accepted _ => .refused is
  | .refused is, .refused js => .refused (is ++ js)

instance : Functor Checked where
  map f
    | .accepted a => .accepted (f a)
    | .refused is => .refused is

instance : Seq Checked where
  seq f x := f.apply (x ())

end Checked

namespace Setting

/-! ## Texts -/

/-- The text that a value gives: a text, bytes that spell one, or the value of an enumeration member. -/
def text : Value → Except Rule String
  | .text s => .ok s
  | .textMember s => .ok s
  | .bytes bs =>
    match Text.stringOfBytes? bs with
    | some s => .ok s
    | none => .error .readableText
  | .binary bs _ =>
    match Text.stringOfBytes? bs with
    | some s => .ok s
    | none => .error .readableText
  | .foreign (.buffer name bs) =>
    if name = changeableBytes then
      match Text.stringOfBytes? bs with
      | some s => .ok s
      | none => .error .readableText
    else .error .text
  | .member v => .ok v.shown
  | .intMember n => .ok (toString n)
  | _ => .error .text

/-! ## Whole numbers -/

/-- A blank around a written number. The four separators of the control characters are none. -/
def isMargin (c : Char) : Bool :=
  Text.isBlank c && !(0x1c ≤ c.toNat && c.toNat ≤ 0x1f)

/-- The characters between the blanks at both ends. -/
def withoutMargins (cs : List Char) : List Char :=
  ((cs.dropWhile isMargin).reverse.dropWhile isMargin).reverse

/-- A digit other than zero. -/
def isCounting (c : Char) : Bool :=
  c.isDigit && c != '0'

/-- A number without the zeros at its start, and without the underscores between them; one character stays
in front of a point and of the end. A minus sign behind the zeros counts as the sign of the number. -/
def withoutLeadingZeros (cs : List Char) : Option (List Char) :=
  match cs with
  | [] => none
  | c :: _ =>
    if c = '0' then
      let zeros := cs.takeWhile fun c => c == '0' || c == '_'
      match cs.drop zeros.length with
      | [] => some [zeros.getLastD '0']
      | d :: rest =>
        if isCounting d || d = '-' then some (d :: rest)
        else if d = '.' then some (zeros.getLastD '0' :: d :: rest)
        else none
    else if isCounting c || c = '-' then some cs
    else none

/-- A number without a fraction that consists of zeros, at least one. -/
def withoutZeroFraction (cs : List Char) : List Char :=
  match Text.cutAt? '.' cs with
  | some (whole, fraction) =>
    if !fraction.isEmpty && fraction.all (· == '0') then whole else cs
  | none => cs

/-- Some underscore stands beside another one, at the start or at the end. -/
def hasLooseUnderscore (cs : List Char) : Bool :=
  (Text.splitOn '_' cs).any (·.isEmpty)

/-- A number without the underscores between its digits. -/
def withoutUnderscores (cs : List Char) : List Char :=
  if hasLooseUnderscore cs then cs else cs.filter (· != '_')

/-- The greatest number of characters of a number in digits. -/
def mostDigits : Nat := 4300

/-- A number in digits without a zero in front. Its length is looked at before what follows it. -/
def plainWhole (cs : List Char) : Except Rule Int :=
  let negative := cs.head? == some '-'
  let unsigned := if negative then cs.drop 1 else cs
  let digits := unsigned.takeWhile Char.isDigit
  if digits.isEmpty || (digits.head? == some '0' && digits != ['0']) then .error .readableWhole
  else if mostDigits < digits.length + (if negative then 1 else 0) then .error .shortWhole
  else if digits.length != unsigned.length then .error .readableWhole
  else
    let n : Int := Binary64.digitsValue digits
    .ok (if negative then -n else n)

/-- A sign in front of a number, which may be a plus sign that no minus sign follows. -/
def signOf : List Char → Option (Bool × List Char)
  | '+' :: '-' :: _ => none
  | '+' :: cs => some (false, cs)
  | '-' :: cs => some (true, cs)
  | cs => some (false, cs)

/-- The whole number that a text spells. -/
def wholeOfText (s : String) : Except Rule Int :=
  let cleaned := do
    let (negative, cs) ← signOf (withoutMargins s.toList)
    let cs := withoutUnderscores (withoutZeroFraction (← withoutLeadingZeros cs))
    some (if negative then '-' :: cs else cs)
  match cleaned with
  | none => .error .readableWhole
  | some cs => plainWhole cs

/-- The whole number that bytes spell. -/
def wholeOfBytes (bs : Bytes) : Except Rule Int :=
  match Text.stringOfBytes? bs with
  | some s => wholeOfText s
  | none => .error .readableWhole

/-- The whole number that a binary number is; it must lie strictly between the bounds of a signed word
of 64 bits. -/
def wholeOfFloat (x : Binary64) : Except Rule Int :=
  match x.ratio? with
  | none => .error .finiteWhole
  | some (n, d) =>
    if n % (d : Int) != 0 then .error .unbrokenWhole
    else
      let q := n / (d : Int)
      if Word.holds q && q != -Word.limit then .ok q else .error .shortWhole

/-- The whole number that a decimal is. -/
def wholeOfDecimal (d : Decimal) : Except Rule Int :=
  match d.ratio? with
  | none => .error .finiteWhole
  | some (n, d) => if n % (d : Int) != 0 then .error .unbrokenWhole else .ok (n / (d : Int))

/-- The whole number that a value gives. -/
def whole : Value → Except Rule Int
  | .bool b => .ok (if b then 1 else 0)
  | .int n => .ok n
  | .intMember n => .ok n
  | .text s => wholeOfText s
  | .textMember s => wholeOfText s
  | .bytes bs => wholeOfBytes bs
  | .binary bs _ => wholeOfBytes bs
  | .float x => wholeOfFloat x
  | .decimal d => wholeOfDecimal d
  | .member v =>
    match v.whole? with
    | some n => .ok n
    | none => .error .whole
  | _ => .error .whole

/-- A whole number that must not be less than `least`. -/
def wholeFrom (least : Int) (v : Value) : Except Rule Int := do
  let n ← whole v
  if n < least then .error .atLeast else .ok n

/-- A whole number between two bounds. -/
def wholeBetween (least most : Int) (v : Value) : Except Rule Int := do
  let n ← wholeFrom least v
  if most < n then .error .atMost else .ok n

/-! ## Answers -/

/-- The words that mean no. -/
def refusals : List String := ["0", "off", "f", "false", "n", "no"]

/-- The words that mean yes. -/
def consents : List String := ["1", "on", "t", "true", "y", "yes"]

/-- A text with its ASCII letters in lower case. -/
def plainLowered (s : String) : String :=
  String.ofList (s.toList.map Char.toLower)

/-- The answer that a word gives. -/
def flagOfText (s : String) : Except Rule Bool :=
  let s := plainLowered s
  if refusals.contains s then .ok false
  else if consents.contains s then .ok true
  else .error .readableFlag

/-- The answer that bytes give. -/
def flagOfBytes (bs : Bytes) : Except Rule Bool :=
  match Text.stringOfBytes? bs with
  | some s => flagOfText s
  | none => .error .readableFlag

/-- The answer that a number gives. -/
def flagOfWhole (n : Int) : Except Rule Bool :=
  if n = 0 then .ok false
  else if n = 1 then .ok true
  else if Word.holds n then .error .readableFlag
  else .error .flag

/-- The answer that a value gives. -/
def flag : Value → Except Rule Bool
  | .bool b => .ok b
  | .int n => flagOfWhole n
  | .intMember n => flagOfWhole n
  | .text s => flagOfText s
  | .textMember s => flagOfText s
  | .bytes bs => flagOfBytes bs
  | .binary bs _ => flagOfBytes bs
  | .float x =>
    match wholeOfFloat x with
    | .ok n => flagOfWhole n
    | .error _ => .error .flag
  | .decimal d =>
    match wholeOfDecimal d with
    | .ok n => flagOfWhole n
    | .error _ => .error .flag
  | _ => .error .flag

/-! ## Mappings -/

/-- How a key shows in the location of an issue. -/
def keyLocation : Value → String
  | .text s => s
  | .textMember s => s
  | .bool b => if b then "1" else "0"
  | .int n => toString n
  | .intMember n => toString n
  | v => v.written

/-- The entry of a mapping whose key is taken as a text. -/
def textEntry (place : List String) (e : Value × Value) : Checked (Value × Value) :=
  match text e.1 with
  | .ok key => .accepted (.text key, e.2)
  | .error r => .refused [⟨place ++ [keyLocation e.1, "[key]"], r⟩]

/-- The entries of a mapping, with keys that are texts. -/
def textEntries (place : List String) : List (Value × Value) → Checked (List (Value × Value))
  | [] => .accepted []
  | e :: es => List.cons <$> textEntry place e <*> textEntries place es

/-- The mapping that a value is; its keys must be texts. -/
def mapping (place : List String) : Value → Checked Entries
  | .map _ es => Entries.ofPairs <$> textEntries place es
  | _ => .refused [⟨place, .mapping⟩]

/-! ## Fields with a default -/

/-- The value of a field, or its default where the section has none. -/
def fieldWith {α : Type} (place : List String) (es : Entries) (name : String) (absent : α)
    (take : List String → Value → Checked α) : Checked α :=
  match es.get? name with
  | none => .accepted absent
  | some v => take (place ++ [name]) v

/-- What a reading gives, as an issue where it breaks a rule. -/
def checked {α : Type} (place : List String) : Except Rule α → Checked α
  | .ok a => .accepted a
  | .error r => .refused [⟨place, r⟩]

/-- The value of a field that is read without looking at its place. -/
def field {α : Type} (place : List String) (es : Entries) (name : String) (absent : α)
    (take : Value → Except Rule α) : Checked α :=
  fieldWith place es name absent fun place v => checked place (take v)

/-- A field that may be null. -/
def orNull {α : Type} (take : Value → Except Rule α) : Value → Except Rule (Option α)
  | .null => .ok none
  | v => (take v).map some

end Setting

end FileDepot
