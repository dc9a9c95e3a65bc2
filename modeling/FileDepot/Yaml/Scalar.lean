import FileDepot.Text.Digits
import FileDepot.Yaml.Cursor

/-!
# YAML scalars

Contents:

* `Yaml.plainScalar` — a scalar without quotes;
* `Yaml.quotedScalar` — a scalar in single or double quotes;
* `Yaml.blockScalar` — a scalar of indented lines.

Each reads from a place in the text and gives the text of the scalar and the place behind it. The
functions that read several lines take a number of steps that the length of the rest bounds.
-/

namespace FileDepot.Yaml

/-- The characters that have been read, and the place behind them. -/
abbrev Scanned := List Char × Cursor

/-! ## Plain scalars -/

/-- The place behind the line breaks and spaces that follow, with the breaks. Nothing is given where a
separator of documents starts a line. -/
def plainBreaks : Nat → Cursor → Option Scanned
  | 0, c => some ([], c)
  | fuel + 1, c =>
    match c.peek with
    | some ' ' => plainBreaks fuel c.next
    | some ch =>
      if isBreak ch then
        let (b, c) := c.lineBreak
        if c.atSeparator then none
        else (plainBreaks fuel c).map fun (bs, c) => (b ++ bs, c)
      else some ([], c)
    | none => some ([], c)

/-- The blanks between two parts of a plain scalar, folded; whether they hold a line break; and the
place behind them. No blanks mean that the scalar ends. -/
def plainGap (c : Cursor) : List Char × Bool × Cursor :=
  let (spaces, c) := c.span (· == ' ')
  match c.peek with
  | some ch =>
    if isBreak ch then
      let (b, c) := c.lineBreak
      if c.atSeparator then ([], true, c)
      else
        match plainBreaks (c.rest.length + 1) c with
        | none => ([], true, c)
        | some (bs, c) =>
          if b != ['\n'] then (b ++ bs, true, c)
          else if bs.isEmpty then ([' '], true, c)
          else (bs, true, c)
    else (spaces, false, c)
  | none => (spaces, false, c)

/-- The characters that end a part of a plain scalar inside a flow collection. -/
def isFlowSign (c : Char) : Bool :=
  c == ',' || c == '?' || c == '[' || c == ']' || c == '\x7b' || c == '\x7d'

/-- The characters of a part of a plain scalar, up to a blank or a sign. -/
def plainPart (inFlow : Bool) : List Char → List Char
  | [] => []
  | ch :: rest =>
    let next := rest.head?
    let endsKey := isGap next ||
      (inFlow && next.any fun n => n == ',' || n == '[' || n == ']' || n == '\x7b' || n == '\x7d')
    if ch == '\t' || ch == ' ' || isBreak ch || (ch == ':' && endsKey) || (inFlow && isFlowSign ch)
    then []
    else ch :: plainPart inFlow rest

/-- The parts of a plain scalar, with the blanks `gap` in front of the next one. Lines behind the first
must be indented by at least `indent`. The flag tells that a line break stands behind the scalar. -/
def plainParts (inFlow : Bool) (indent : Int) :
    Nat → List Char → Bool → Cursor → List Char × Bool × Cursor
  | 0, _, broke, c => ([], broke, c)
  | fuel + 1, gap, broke, c =>
    if c.peek == some '#' then ([], broke, c)
    else
      let part := plainPart inFlow c.rest
      if part.isEmpty then ([], broke, c)
      else
        let (next, broke, c) := plainGap (c.forward part.length)
        if next.isEmpty || c.peek == some '#' || (!inFlow && (c.column : Int) < indent) then
          (gap ++ part, broke, c)
        else
          let (more, broke, c) := plainParts inFlow indent fuel next broke c
          (gap ++ part ++ more, broke, c)

/-- A plain scalar, and whether a line break stands behind it. -/
def plainScalar (inFlow : Bool) (indent : Int) (c : Cursor) : List Char × Bool × Cursor :=
  plainParts inFlow (indent + 1) (c.rest.length + 1) [] false c

/-! ## Quoted scalars -/

/-- The characters that a letter behind a backslash stands for. -/
def escapes : List (Char × Char) :=
  [('0', '\x00'), ('a', '\x07'), ('b', '\x08'), ('t', '\t'), ('\t', '\t'), ('n', '\n'), ('v', '\x0b'),
    ('f', '\x0c'), ('r', '\r'), ('e', '\x1b'), (' ', ' '), ('"', '"'), ('\\', '\\'), ('/', '/'),
    ('N', '\x85'), ('_', '\xa0'), ('L', '\u2028'), ('P', '\u2029')]

/-- The number of hexadecimal digits behind a letter that stands for a code point. -/
def codeLength? (c : Char) : Option Nat :=
  if c = 'x' then some 2 else if c = 'u' then some 4 else if c = 'U' then some 8 else none

/-- The character of a code point in hexadecimal digits. -/
def codePoint (digits : List Char) : Result Char :=
  match digits.mapM Text.hexValue? with
  | none => malformed "expected hexadecimal digits"
  | some ds =>
    let n := ds.foldl (fun n d => 16 * n + d) 0
    if 0x7fffffff < n then .error (.impossible .outOfRange)
    else if 0x10ffff < n then .error (.impossible (.invalid "chr() arg not in range(0x110000)"))
    else .ok (Char.ofNat n)

/-- The empty lines inside a quoted scalar, and the place behind the blanks that follow them. -/
def quotedBreaks : Nat → Cursor → Result Scanned
  | 0, c => .ok ([], c)
  | fuel + 1, c =>
    if c.atSeparator then malformed "found unexpected document separator"
    else
      let c := c.skipBlanks
      match c.lineBreak with
      | ([], c) => .ok ([], c)
      | (b, c) => (quotedBreaks fuel c).map fun (bs, c) => (b ++ bs, c)

/-- The blanks inside a quoted scalar, with line breaks folded. -/
def quotedGap (c : Cursor) : Result Scanned :=
  let (blanks, c) := c.span fun ch => ch == ' ' || ch == '\t'
  match c.peek with
  | none => malformed "found unexpected end of stream"
  | some ch =>
    if isBreak ch then do
      let (b, c) := c.lineBreak
      let (bs, c) ← quotedBreaks (c.rest.length + 1) c
      if b != ['\n'] then .ok (b ++ bs, c)
      else if bs.isEmpty then .ok ([' '], c)
      else .ok (bs, c)
    else .ok (blanks, c)

/-- What a backslash in a double-quoted scalar stands for, from the character behind it. -/
def quotedEscape (c : Cursor) : Result Scanned :=
  match c.peek with
  | none => malformed "found unknown escape character"
  | some ch =>
    match escapes.lookup ch with
    | some e => .ok ([e], c.next)
    | none =>
      match codeLength? ch with
      | some n => do
        let digits := c.next.rest.take n
        if digits.length < n then malformed "expected hexadecimal digits"
        else .ok ([← codePoint digits], c.next.forward n)
      | none =>
        if isBreak ch then
          let c := c.lineBreak.2
          quotedBreaks (c.rest.length + 1) c
        else malformed "found unknown escape character"

/-- The characters of a quoted scalar up to its closing quote. -/
def quotedRest (double : Bool) : Nat → Cursor → Result Scanned
  | 0, _ => malformed "found unexpected end of stream"
  | fuel + 1, c =>
    match c.peek with
    | none => malformed "found unexpected end of stream"
    | some ch =>
      if ch == ' ' || ch == '\t' || isBreak ch then do
        let (gap, c) ← quotedGap c
        let (more, c) ← quotedRest double fuel c
        .ok (gap ++ more, c)
      else if double && ch == '"' then .ok ([], c.next)
      else if double && ch == '\\' then do
        let (e, c) ← quotedEscape c.next
        let (more, c) ← quotedRest double fuel c
        .ok (e ++ more, c)
      else if !double && ch == '\'' then
        if c.peekAt 1 == some '\'' then do
          let (more, c) ← quotedRest double fuel (c.forward 2)
          .ok ('\'' :: more, c)
        else .ok ([], c.next)
      else do
        let (more, c) ← quotedRest double fuel c.next
        .ok (ch :: more, c)

/-- A quoted scalar, from its opening quote. -/
def quotedScalar (double : Bool) (c : Cursor) : Result Scanned :=
  quotedRest double (c.rest.length + 1) c.next

/-! ## Block scalars -/

/-- What becomes of the line breaks at the end of a block scalar. -/
inductive Chomping
  | clip
  | strip
  | keep
  deriving Repr, DecidableEq

/-- The sign for the line breaks at the end. -/
def chomping? (c : Option Char) : Option Chomping :=
  match c with
  | some '+' => some .keep
  | some '-' => some .strip
  | _ => none

/-- The digit for the indentation, which must not be zero. -/
def increment? (c : Option Char) : Result (Option Nat) :=
  match c with
  | some ch =>
    if ch = '0' then malformed "expected indentation indicator in the range 1-9"
    else if ch.isDigit then .ok (some (ch.toNat - 48))
    else .ok none
  | none => .ok none

/-- The signs behind the sign of a block scalar, in either order. -/
def blockHeader (c : Cursor) : Result (Chomping × Option Nat × Cursor) := do
  let (chomping, increment, c) ←
    match chomping? c.peek with
    | some chomping => do
      let c := c.next
      match ← increment? c.peek with
      | some n => pure (chomping, some n, c.next)
      | none => pure (chomping, none, c)
    | none => do
      match ← increment? c.peek with
      | some n =>
        let c := c.next
        match chomping? c.peek with
        | some chomping => pure (chomping, some n, c.next)
        | none => pure (.clip, some n, c)
      | none => pure (.clip, none, c)
  if isSpaceOrEnd c.peek then .ok (chomping, increment, c)
  else malformed "expected chomping or indentation indicators"

/-- The place behind a line that holds nothing but a remark. -/
def ignoredLine (c : Cursor) : Result Cursor :=
  let c := c.skipSpaces
  let c := if c.peek == some '#' then c.skipLine else c
  if isEnd c.peek then .ok c.lineBreak.2 else malformed "expected a comment or a line break"

/-- The empty lines in front of a block scalar, and the greatest column among them and the first line
with text. -/
def blockIndentation : Nat → Nat → Cursor → List Char × Nat × Cursor
  | 0, widest, c => ([], widest, c)
  | fuel + 1, widest, c =>
    match c.peek with
    | some ' ' => blockIndentation fuel (max widest c.next.column) c.next
    | _ =>
      match c.lineBreak with
      | ([], c) => ([], widest, c)
      | (b, c) =>
        let (bs, widest, c) := blockIndentation fuel widest c
        (b ++ bs, widest, c)

/-- The place behind the spaces up to a column. -/
def skipToColumn (column : Nat) : Nat → Cursor → Cursor
  | 0, c => c
  | fuel + 1, c =>
    if c.column < column && c.peek == some ' ' then skipToColumn column fuel c.next else c

/-- The empty lines inside a block scalar, and the place at the indentation behind them. -/
def blockBreaks (indent : Nat) : Nat → Cursor → Scanned
  | 0, c => ([], c)
  | fuel + 1, c =>
    let c := skipToColumn indent indent c
    match c.lineBreak with
    | ([], c) => ([], c)
    | (b, c) =>
      let (bs, c) := blockBreaks indent fuel c
      (b ++ bs, c)

/-- The character starts a line that is not folded. -/
def isBlankChar (c : Option Char) : Bool :=
  c == some ' ' || c == some '\t'

/-- The lines of a block scalar, from the first one on; `breaks` are the empty lines in front. Gives the
text, the last line break and the empty lines at the end as well. -/
def blockLines (folded : Bool) (indent : Nat) :
    Nat → List Char → Cursor → List Char × List Char × List Char × Cursor
  | 0, breaks, c => ([], [], breaks, c)
  | fuel + 1, breaks, c =>
    let solid := !isBlankChar c.peek
    let (line, c) := c.span fun ch => !isBreak ch
    let (b, c) := c.lineBreak
    let (bs, c) := blockBreaks indent (c.rest.length + 1) c
    if c.column = indent && c.peek.isSome then
      let glue :=
        if folded && b == ['\n'] && solid && !isBlankChar c.peek then
          if bs.isEmpty then [' '] else []
        else b
      let (more, last, tail, c) := blockLines folded indent fuel bs c
      (breaks ++ line ++ glue ++ more, last, tail, c)
    else (breaks ++ line, b, bs, c)

/-- A block scalar, from its sign; `parent` is the indentation around it. -/
def blockScalar (folded : Bool) (parent : Int) (c : Cursor) : Result Scanned := do
  let (chomping, increment, c) ← blockHeader c.next
  let c ← ignoredLine c
  let least := (max (parent + 1) 1).toNat
  let (breaks, indent, c) :=
    match increment with
    | some n =>
      let indent := least + n - 1
      let (bs, c) := blockBreaks indent (c.rest.length + 1) c
      (bs, indent, c)
    | none =>
      let (bs, widest, c) := blockIndentation (c.rest.length + 1) 0 c
      (bs, max least widest, c)
  let (text, last, tail, c) :=
    if c.column = indent && c.peek.isSome then
      blockLines folded indent (c.rest.length + 1) breaks c
    else ([], [], breaks, c)
  match chomping with
  | .strip => .ok (text, c)
  | .clip => .ok (text ++ last, c)
  | .keep => .ok (text ++ last ++ tail, c)

end FileDepot.Yaml
