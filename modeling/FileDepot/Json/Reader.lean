import FileDepot.Value.Compare

/-!
# Reading JSON

A text that spells one JSON value. Beside the numbers of the format the words `NaN`, `Infinity` and
`-Infinity` are numbers; a key that comes twice keeps its first place and takes the last value.

Contents:

* `Json.skipBlanks`, `Json.word?` — the small parts;
* `Json.stringRest?` — a string behind its opening quote;
* `Json.number?` — a number;
* `Json.value?` — a value, with a number of steps that the length of the text bounds;
* `Json.read?` — a whole text.
-/

namespace FileDepot.Json

/-- A blank between two parts. -/
def isBlank (c : Char) : Bool :=
  c == ' ' || c == '\t' || c == '\n' || c == '\r'

/-- The text behind the blanks at its start. -/
def skipBlanks (cs : List Char) : List Char :=
  cs.dropWhile isBlank

/-- The text behind a word that it starts with. -/
def word? (word : String) (cs : List Char) : Option (List Char) :=
  Text.dropPrefix? word.toList cs

/-! ## Strings -/

/-- What a letter behind a backslash stands for. -/
def escapes : List (Char × Char) :=
  [('"', '"'), ('\\', '\\'), ('/', '/'), ('b', '\x08'), ('f', '\x0c'), ('n', '\n'), ('r', '\r'),
    ('t', '\t')]

/-- The number of four hexadecimal digits, and the text behind them. -/
def unit? : List Char → Option (Nat × List Char)
  | a :: b :: c :: d :: rest => do
    let ds ← [a, b, c, d].mapM Text.hexValue?
    some (ds.foldl (fun n d => 16 * n + d) 0, rest)
  | _ => none

/-- The number is the first half of a pair that stands for one character. -/
def isHighHalf (n : Nat) : Bool :=
  0xD800 ≤ n && n ≤ 0xDBFF

/-- The number is the second half of such a pair. -/
def isLowHalf (n : Nat) : Bool :=
  0xDC00 ≤ n && n ≤ 0xDFFF

/-- The character of a code unit. Half of a pair that stands alone is no character and is replaced. -/
def unitChar (n : Nat) : Char :=
  if 0xD800 ≤ n && n ≤ 0xDFFF then '\ufffd' else Char.ofNat n

/-- The character behind a backslash and the letter `u`, from the digits on. -/
def codePoint? (cs : List Char) : Option (Char × List Char) := do
  let (high, rest) ← unit? cs
  if isHighHalf high then
    match rest with
    | '\\' :: 'u' :: more =>
      match unit? more with
      | some (low, behind) =>
        if isLowHalf low then
          some (Char.ofNat (0x10000 + (high - 0xD800) * 0x400 + (low - 0xDC00)), behind)
        else some (unitChar high, rest)
      | none => some (unitChar high, rest)
    | _ => some (unitChar high, rest)
  else some (unitChar high, rest)

/-- The characters of a string up to its closing quote, and the text behind it. -/
def stringRest? : Nat → List Char → Option (List Char × List Char)
  | 0, _ => none
  | _ + 1, [] => none
  | fuel + 1, c :: rest =>
    if c = '"' then some ([], rest)
    else if c = '\\' then
      match rest with
      | [] => none
      | e :: rest =>
        if e = 'u' then do
          let (ch, rest) ← codePoint? rest
          let (more, rest) ← stringRest? fuel rest
          some (ch :: more, rest)
        else do
          let ch ← escapes.lookup e
          let (more, rest) ← stringRest? fuel rest
          some (ch :: more, rest)
    else if c.toNat < 0x20 then none
    else do
      let (more, rest) ← stringRest? fuel rest
      some (c :: more, rest)

/-- A string behind its opening quote. -/
def string? (cs : List Char) : Option (String × List Char) :=
  (stringRest? (cs.length + 1) cs).map fun (s, rest) => (String.ofList s, rest)

/-! ## Numbers -/

/-- The digits of the whole part: a zero alone, or digits that start with another one. -/
def wholeDigits? (cs : List Char) : Option (List Char × List Char) :=
  match cs with
  | '0' :: rest => some (['0'], rest)
  | _ =>
    let digits := cs.takeWhile Char.isDigit
    if digits.isEmpty then none else some (digits, cs.drop digits.length)

/-- The point and the digits behind it, if there are any. -/
def fractionPart (cs : List Char) : List Char × List Char :=
  match cs with
  | '.' :: rest =>
    let digits := rest.takeWhile Char.isDigit
    if digits.isEmpty then ([], cs) else ('.' :: digits, rest.drop digits.length)
  | _ => ([], cs)

/-- The exponent, if there is one. -/
def exponentPart (cs : List Char) : List Char × List Char :=
  match cs with
  | e :: rest =>
    if e == 'e' || e == 'E' then
      let sign := (rest.take 1).takeWhile fun c => c == '+' || c == '-'
      let rest := rest.drop sign.length
      let digits := rest.takeWhile Char.isDigit
      if digits.isEmpty then ([], cs) else (e :: sign ++ digits, rest.drop digits.length)
    else ([], cs)
  | [] => ([], cs)

/-- The greatest number of digits of a whole number. -/
def mostDigits : Nat := 4300

/-- A number: whole without a fraction and without an exponent. -/
def number? (cs : List Char) : Option (Value × List Char) := do
  let negative := cs.head? == some '-'
  let (whole, rest) ← wholeDigits? (if negative then cs.drop 1 else cs)
  let (fraction, rest) := fractionPart rest
  let (exponent, rest) := exponentPart rest
  if fraction.isEmpty && exponent.isEmpty then
    if mostDigits < whole.length then none
    else
      let n : Int := Binary64.digitsValue whole
      some (.int (if negative then -n else n), rest)
  else do
    let sign := if negative then ['-'] else []
    let x ← Binary64.ofText? (String.ofList (sign ++ whole ++ fraction ++ exponent))
    some (.float x, rest)

/-- The values that are written as words. -/
def words : List (String × Value) :=
  [("null", .null), ("true", .bool true), ("false", .bool false), ("NaN", .float .nan),
    ("Infinity", .float (.infinite false)), ("-Infinity", .float (.infinite true))]

/-- A value that is no string, list or mapping. -/
def simple? (cs : List Char) : Option (Value × List Char) :=
  match words.findSome? fun (w, v) => (word? w cs).map fun rest => (v, rest) with
  | some found => some found
  | none => number? cs

/-! ## Values -/

mutual

/-- A value at the start of a text, and the text behind it. -/
def value? : Nat → List Char → Option (Value × List Char)
  | 0, _ => none
  | fuel + 1, cs =>
    match cs with
    | '"' :: rest => (string? rest).map fun (s, rest) => (.text s, rest)
    | '[' :: rest =>
      match skipBlanks rest with
      | ']' :: rest => some (.list [], rest)
      | rest => (items? fuel rest).map fun (vs, rest) => (.list vs, rest)
    | '\x7b' :: rest =>
      match skipBlanks rest with
      | '\x7d' :: rest => some (.document [], rest)
      | rest => (entries? fuel rest).map fun (es, rest) => (.mapOf .plain es, rest)
    | _ => simple? cs

/-- The items of a list that is not empty, up to its closing bracket. -/
def items? : Nat → List Char → Option (List Value × List Char)
  | 0, _ => none
  | fuel + 1, cs => do
    let (v, rest) ← value? fuel cs
    match skipBlanks rest with
    | ']' :: rest => some ([v], rest)
    | ',' :: rest =>
      let (vs, rest) ← items? fuel (skipBlanks rest)
      some (v :: vs, rest)
    | _ => none

/-- The entries of a mapping that is not empty, up to its closing brace. -/
def entries? : Nat → List Char → Option (List (Value × Value) × List Char)
  | 0, _ => none
  | fuel + 1, cs =>
    match cs with
    | '"' :: rest => do
      let (key, rest) ← string? rest
      match skipBlanks rest with
      | ':' :: rest =>
        let (v, rest) ← value? fuel (skipBlanks rest)
        match skipBlanks rest with
        | '\x7d' :: rest => some ([(.text key, v)], rest)
        | ',' :: rest =>
          let (es, rest) ← entries? fuel (skipBlanks rest)
          some ((.text key, v) :: es, rest)
        | _ => none
      | _ => none
    | _ => none

end

/-- The value that a whole text spells. -/
def read? (text : String) : Option Value := do
  let cs := skipBlanks text.toList
  let (v, rest) ← value? (cs.length + 1) cs
  if (skipBlanks rest).isEmpty then some v else none

end FileDepot.Json
