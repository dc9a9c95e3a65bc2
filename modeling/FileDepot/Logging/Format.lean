import FileDepot.Regex.Basic
import FileDepot.Text.Pieces
import FileDepot.Value.Compare

/-!
# Formats of log messages

A format is a text with fields, written in one of three styles: `%(name)s`, `{name}` or `${name}`. A
format is usable when its style reads it and finds a field in it.

Contents:

* `LogFormat.percentUsable`, `LogFormat.braceUsable`, `LogFormat.dollarUsable` — the three styles;
* `LogFormat.Style`, `LogFormat.Style.ofValue?` — the styles by their signs;
* `LogFormat.make` — the format that a configuration asks for.
-/

namespace FileDepot.LogFormat

open Regex (char among butNot ofKind sequence optional plus)

/-- The text behind a character. -/
def behind? (c : Char) (cs : List Char) : Option (List Char) :=
  Text.dropPrefix? [c] cs

/-- The letters of a field count without regard to case. -/
def anyCase : Regex.Options := { ignoreCase := true }

/-! ## Percent signs -/

/-- A width or a precision of the percent style: an asterisk or digits. -/
def percentWidth : Regex :=
  .alt (char '*') (plus (ofKind .digit))

/-- A field of the percent style: its name, its flags, its width, its precision and its conversion. -/
def percentField : Regex :=
  sequence [char '%', char '(', plus (ofKind .word), char ')', .star (among "#0+ -"),
    optional percentWidth, optional (.seq (char '.') percentWidth), among "diouxefgcrsa%"]

/-- The text has a field of the percent style. -/
def percentUsable (cs : List Char) : Bool :=
  percentField.searches anyCase cs

/-! ## Braces -/

/-- A field of the brace style: its name, its conversion and how it is laid out. -/
structure BraceField where
  name : List Char
  conversion : Option Char
  layout : List Char

/-- The name of a field and the text from the sign on that ends it. An index in brackets, `inside` of
which signs do not count, belongs to the name. -/
def braceName? (inside : Bool) : List Char → Option (List Char × List Char)
  | [] => none
  | c :: cs =>
    if inside then (braceName? (c != ']') cs).map fun (name, rest) => (c :: name, rest)
    else if c = '\x7b' then none
    else if c = '\x7d' || c = ':' || c = '!' then some ([], c :: cs)
    else (braceName? (c == '[') cs).map fun (name, rest) => (c :: name, rest)

/-- The text up to the brace that closes a field, and what follows it; `depth` braces are open inside. -/
def braceLayout? (depth : Nat) : List Char → Option (List Char × List Char)
  | [] => none
  | c :: cs =>
    if c = '\x7b' then (braceLayout? (depth + 1) cs).map fun (b, r) => (c :: b, r)
    else if c = '\x7d' then
      match depth with
      | 0 => some ([], cs)
      | d + 1 => (braceLayout? d cs).map fun (b, r) => (c :: b, r)
    else (braceLayout? depth cs).map fun (b, r) => (c :: b, r)

/-- The conversion that stands for none. -/
def noConversion : Char := '\x00'

/-- A field behind the brace that opens it, and what follows the field. -/
def braceField? (cs : List Char) : Option (BraceField × List Char) := do
  let (name, rest) ← braceName? false cs
  match rest with
  | ':' :: rest =>
    let (layout, rest) ← braceLayout? 0 rest
    some (⟨name, none, layout⟩, rest)
  | '!' :: conversion :: rest =>
    let conversion := if conversion = noConversion then none else some conversion
    match rest with
    | '\x7d' :: rest => some (⟨name, conversion, []⟩, rest)
    | ':' :: rest =>
      let (layout, rest) ← braceLayout? 0 rest
      some (⟨name, conversion, layout⟩, rest)
    | _ => none
  | '\x7d' :: rest => some (⟨name, none, []⟩, rest)
  | _ => none

/-- The fields of a text in the brace style, unless a brace stands alone; `fuel` is more than the length of
the text. -/
def braceFieldsWithin? : Nat → List Char → Option (List BraceField)
  | 0, _ => none
  | _ + 1, [] => some []
  | fuel + 1, '\x7b' :: '\x7b' :: cs => braceFieldsWithin? fuel cs
  | fuel + 1, '\x7d' :: '\x7d' :: cs => braceFieldsWithin? fuel cs
  | _ + 1, '\x7d' :: _ => none
  | fuel + 1, '\x7b' :: cs => do
    let (field, rest) ← braceField? cs
    let fields ← braceFieldsWithin? fuel rest
    some (field :: fields)
  | fuel + 1, _ :: cs => braceFieldsWithin? fuel cs

/-- The fields of a text in the brace style, unless a brace stands alone. -/
def braceFields? (cs : List Char) : Option (List BraceField) :=
  braceFieldsWithin? (cs.length + 1) cs

/-- The name of a field: a word with attributes and indices. -/
def nameForm : Regex :=
  sequence [plus (ofKind .word),
    .star (.alt (.seq (char '.') (plus (ofKind .word)))
      (sequence [char '[', plus (butNot ']'), char ']'])),
    .anchor .lineStop]

/-- A width or a precision of the brace style: digits, or a word in braces. -/
def braceWidth : Regex :=
  .alt (plus (ofKind .digit)) (sequence [char '\x7b', plus (ofKind .word), char '\x7d'])

/-- A layout: its alignment, its sign, its width, its groups, its precision and its conversion. -/
def layoutForm : Regex :=
  sequence [optional (.seq (optional (.one .any)) (among "<>=^")), optional (among "+ -"),
    optional (char '#'), optional (char '0'), optional braceWidth, optional (among ",_"),
    optional (.seq (char '.') braceWidth), optional (among "bcdefgnosx%"), .anchor .lineStop]

/-- The letters that name a conversion. -/
def conversions : List Char := ['r', 's', 'a']

/-- A field of the brace style is usable. -/
def BraceField.usable (f : BraceField) : Bool :=
  (f.name.isEmpty || nameForm.matchesStart {} f.name) &&
    f.conversion.all conversions.contains &&
    (f.layout.isEmpty || layoutForm.matchesStart anyCase f.layout)

/-- The text has fields of the brace style, and all of them are usable. -/
def braceUsable (cs : List Char) : Bool :=
  match braceFields? cs with
  | some fields => fields.all BraceField.usable && fields.any fun f => !f.name.isEmpty
  | none => false

/-! ## Dollar signs -/

/-- A character that starts a name behind a dollar sign. -/
def startsName (c : Char) : Bool :=
  c.isAlpha || c == '_'

/-- The text behind a name. -/
def name? (cs : List Char) : Option (List Char) :=
  match cs with
  | c :: rest =>
    if startsName c then some (rest.dropWhile fun c => c.isAlphanum || c == '_') else none
  | [] => none

/-- The text has fields of the dollar style, and no dollar sign stands alone. -/
def dollarUsableFrom : Nat → Bool → List Char → Bool
  | 0, found, _ => found
  | _ + 1, found, [] => found
  | fuel + 1, found, '$' :: cs =>
    match behind? '$' cs with
    | some rest => dollarUsableFrom fuel found rest
    | none =>
      match name? cs with
      | some rest => dollarUsableFrom fuel true rest
      | none =>
        match ((behind? '\x7b' cs).bind name?).bind (behind? '\x7d') with
        | some rest => dollarUsableFrom fuel true rest
        | none => false
  | fuel + 1, found, _ :: cs => dollarUsableFrom fuel found cs

/-- The text has fields of the dollar style, and no dollar sign stands alone. -/
def dollarUsable (cs : List Char) : Bool :=
  dollarUsableFrom (cs.length + 1) false cs

/-! ## Styles -/

/-- The styles in which fields are written. -/
inductive Style
  | percent
  | brace
  | dollar
  deriving Repr, DecidableEq

namespace Style

/-- The style of a sign. -/
def ofValue? (v : Value) : Option Style :=
  match v.text? with
  | some "%" => some .percent
  | some "\x7b" => some .brace
  | some "$" => some .dollar
  | _ => none

/-- The format of a handler for which none is asked. -/
def plainFormat : Style → String
  | .percent => "%(message)s"
  | .brace => "\x7bmessage\x7d"
  | .dollar => "$\x7bmessage\x7d"

/-- A text is usable as a format of a style. -/
def usable (s : Style) (format : String) : Bool :=
  match s with
  | .percent => percentUsable format.toList
  | .brace => braceUsable format.toList
  | .dollar => dollarUsable format.toList

end Style

/-- The format that is asked for by a format, a style and whether it is to be checked. Where the format
counts as false the plain one of the style stands in. -/
def make (format style : Value) (checked : Bool) : Option Value := do
  let style ← Style.ofValue? style
  let format := if format.truthy then format else .text style.plainFormat
  if !checked then some format
  else
    match format.text? with
    | some s => if style.usable s then some format else none
    | none => none

end FileDepot.LogFormat
