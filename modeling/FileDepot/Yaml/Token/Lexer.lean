import FileDepot.Yaml.Scalar
import FileDepot.Yaml.Token

/-!
# From text to YAML tokens

Contents:

* `Yaml.scanDirective`, `Yaml.scanTag`, `Yaml.scanName` — the small tokens;
* `Yaml.Lexer` — the state of scanning;
* `Yaml.Lexer.fetch` — the next tokens;
* `Yaml.tokens` — all tokens of a text.

A key of a mapping is recognised only at the colon behind it. Each place where a key may have started is
remembered, and the tokens of a key are inserted there when its colon comes.
-/

namespace FileDepot.Yaml

/-! ## Small tokens -/

/-- A character of a name. -/
def isNameChar (c : Char) : Bool :=
  c.isAlphanum || c == '-' || c == '_'

/-- The name of an anchor or of a reference to one, from its sign. -/
def scanName (c : Cursor) : Result (String × Cursor) :=
  let (name, c) := c.next.span isNameChar
  let closes := isGap c.peek || c.peek.any fun ch => "?:,]%@".toList.contains ch || ch == '\x7d' ||
    ch.toNat == 96
  if name.isEmpty || !closes then malformed "expected alphabetic or numeric character"
  else .ok (String.ofList name, c)

/-- A character of a tag. -/
def isTagChar (c : Char) : Bool :=
  c.isAlphanum || "-;/?:@&=+$,_.!~*'()[]".toList.contains c

/-- The bytes that pairs of hexadecimal digits behind percent signs stand for. -/
def percentBytes : Nat → Cursor → Result (Bytes × Cursor)
  | 0, c => .ok ([], c)
  | fuel + 1, c =>
    if c.peek == some '%' then
      match (c.next.rest.take 2).mapM Text.hexValue? with
      | some [a, b] => do
        let (bs, c) ← percentBytes fuel (c.forward 3)
        .ok (UInt8.ofNat (16 * a + b) :: bs, c)
      | _ => malformed "expected URI escape sequence of 2 hexadecimal numbers"
    else .ok ([], c)

/-- The characters of a tag, with percent escapes replaced. -/
def tagChars : Nat → Cursor → Result Scanned
  | 0, c => .ok ([], c)
  | fuel + 1, c =>
    match c.peek with
    | some '%' => do
      let (bs, c) ← percentBytes (c.rest.length + 1) c
      match Text.stringOfBytes? bs with
      | none => malformed "bytes of an escape spell no text"
      | some s => do
        let (more, c) ← tagChars fuel c
        .ok (s.toList ++ more, c)
    | some ch =>
      if isTagChar ch then do
        let (more, c) ← tagChars fuel c.next
        .ok (ch :: more, c)
      else .ok ([], c)
    | none => .ok ([], c)

/-- The characters of a tag, of which there is at least one. -/
def scanTagChars (c : Cursor) : Result (String × Cursor) := do
  let (cs, c) ← tagChars (c.rest.length + 1) c
  if cs.isEmpty then malformed "expected URI" else .ok (String.ofList cs, c)

/-- A handle: an exclamation mark, with a name and a second mark unless a space follows. -/
def scanHandle (c : Cursor) : Result (String × Cursor) :=
  if c.peek != some '!' then malformed "expected an exclamation mark"
  else if c.peekAt 1 == some ' ' then .ok ("!", c.next)
  else
    let (name, after) := c.next.span isNameChar
    if after.peek == some '!' then .ok (String.ofList ('!' :: name ++ ['!']), after.next)
    else malformed "expected an exclamation mark"

/-- A second exclamation mark stands in front of the next space. -/
def hasSecondMark : List Char → Bool
  | [] => false
  | c :: cs => if c == ' ' || isBreak c then false else c == '!' || hasSecondMark cs

/-- A tag, from its sign. -/
def scanTag (c : Cursor) : Result (Token × Cursor) := do
  let (token, c) ←
    if c.peekAt 1 == some '<' then do
      let (suffix, c) ← scanTagChars (c.forward 2)
      if c.peek == some '>' then pure (Token.tag none suffix, c.next)
      else malformed "expected a closing bracket"
    else if isGap (c.peekAt 1) then pure (Token.tag none "!", c.next)
    else if hasSecondMark (c.rest.drop 1) then do
      let (handle, c) ← scanHandle c
      let (suffix, c) ← scanTagChars c
      pure (Token.tag (some handle) suffix, c)
    else do
      let (suffix, c) ← scanTagChars c.next
      pure (Token.tag (some "!") suffix, c)
  if isSpaceOrEnd c.peek then .ok (token, c) else malformed "expected a space behind a tag"

/-- A whole number of a version. -/
def scanVersionNumber (c : Cursor) : Result (Nat × Cursor) :=
  let (digits, c) := c.span Char.isDigit
  if digits.isEmpty then malformed "expected a digit"
  else .ok (digits.foldl (fun n d => 10 * n + (d.toNat - 48)) 0, c)

/-- A directive, from its sign to the end of its line. -/
def scanDirective (c : Cursor) : Result (Token × Cursor) := do
  let (name, c) := c.next.span isNameChar
  if name.isEmpty || !isSpaceOrEnd c.peek then malformed "expected a directive name"
  else
    let (d, c) ←
      if name = "YAML".toList then do
        let (major, c) ← scanVersionNumber c.skipSpaces
        if c.peek != some '.' then malformed "expected a digit or a point"
        else do
          let (minor, c) ← scanVersionNumber c.next
          if isSpaceOrEnd c.peek then pure (Directive.version major minor, c)
          else malformed "expected a digit or a space"
      else if name = "TAG".toList then do
        let (handle, c) ← scanHandle c.skipSpaces
        if c.peek != some ' ' then malformed "expected a space behind a handle"
        else do
          let (expansion, c) ← scanTagChars c.skipSpaces
          if isSpaceOrEnd c.peek then pure (Directive.handle handle expansion, c)
          else malformed "expected a space behind a prefix"
      else pure (Directive.unknown, c.skipLine)
    .ok (.directive d, ← ignoredLine c)

/-! ## The state of scanning -/

/-- A place where the key of a mapping may have started: the number of its token, whether a key must
stand there, and where it is. -/
structure KeyPlace where
  number : Nat
  required : Bool
  index : Nat
  line : Nat
  column : Nat
  deriving Repr, Inhabited

/-- The state of scanning: the place in the text, the indentations around it, the number of open flow
collections, the possible keys by that number, whether a key may start here, and the tokens read. -/
structure Lexer where
  cursor : Cursor
  indent : Int := -1
  indents : List Int := []
  flowLevel : Nat := 0
  keys : List (Nat × KeyPlace) := []
  allowKey : Bool := true
  tokens : List Token := []
  deriving Repr, Inhabited

namespace Lexer

/-- The state with one more token. -/
def push (s : Lexer) (t : Token) : Lexer :=
  { s with tokens := s.tokens ++ [t] }

/-- The state with a token in front of the one of a number. -/
def insert (s : Lexer) (number : Nat) (t : Token) : Lexer :=
  { s with tokens := s.tokens.take number ++ t :: s.tokens.drop number }

/-- The state one character further on, with a token. -/
def sign (s : Lexer) (t : Token) : Lexer :=
  { s with cursor := s.cursor.next, tokens := s.tokens ++ [t] }

/-- Closes the block collections that are indented by more than a column. -/
def unwind (s : Lexer) (column : Int) : Lexer :=
  if s.flowLevel = 0 then loop s.indents s else s
where
  /-- One indentation after another. -/
  loop : List Int → Lexer → Lexer
    | outer :: rest, s =>
      if column < s.indent then
        loop rest { s with indent := outer, indents := rest, tokens := s.tokens ++ [.blockEnd] }
      else s
    | [], s => s

/-- Opens an indentation, if it is deeper than the current one. -/
def indentTo (s : Lexer) (column : Nat) : Lexer × Bool :=
  if s.indent < column then
    ({ s with indent := column, indents := s.indent :: s.indents }, true)
  else (s, false)

/-- Forgets the possible key of the current flow collection. -/
def dropKey (s : Lexer) : Result Lexer :=
  match s.keys.lookup s.flowLevel with
  | some k =>
    if k.required then malformed "could not find expected ':'"
    else .ok { s with keys := s.keys.filter fun e => e.1 != s.flowLevel }
  | none => .ok s

/-- Remembers that a key may start here. -/
def saveKey (s : Lexer) : Result Lexer :=
  if s.allowKey then do
    let required := s.flowLevel = 0 && s.indent == s.cursor.column
    let s ← s.dropKey
    let place : KeyPlace :=
      { number := s.tokens.length
        required
        index := s.cursor.index
        line := s.cursor.line
        column := s.cursor.column }
    .ok { s with keys := (s.flowLevel, place) :: s.keys }
  else .ok s

/-- Forgets the possible keys that are too far back: a key stands on one line and is not long. -/
def dropStale (s : Lexer) : Result Lexer :=
  let isStale (k : KeyPlace) := k.line != s.cursor.line || 1024 < s.cursor.index - k.index
  if s.keys.any fun e => isStale e.2 && e.2.required then malformed "could not find expected ':'"
  else .ok { s with keys := s.keys.filter fun e => !isStale e.2 }

/-- The place of the next token, behind spaces, remarks and line breaks. A key may start on a new line
outside of flow collections. -/
def skipToToken : Nat → Lexer → Lexer
  | 0, s => s
  | fuel + 1, s =>
    let c := s.cursor
    let c := if c.index = 0 && c.peek == some '\ufeff' then c.next else c
    let c := c.skipSpaces
    let c := if c.peek == some '#' then c.skipLine else c
    match c.lineBreak with
    | ([], c) => { s with cursor := c }
    | (_, c) => skipToToken fuel { s with cursor := c, allowKey := s.allowKey || s.flowLevel = 0 }

/-! ## Kinds of tokens -/

/-- The end of the text. -/
def fetchEnd (s : Lexer) : Result Lexer := do
  let s ← (s.unwind (-1)).dropKey
  .ok { s.push .streamEnd with allowKey := false, keys := [] }

/-- A directive. -/
def fetchDirective (s : Lexer) : Result Lexer := do
  let s ← (s.unwind (-1)).dropKey
  let (t, cursor) ← scanDirective s.cursor
  .ok { s.push t with allowKey := false, cursor }

/-- A separator of documents. -/
def fetchSeparator (s : Lexer) (t : Token) : Result Lexer := do
  let s ← (s.unwind (-1)).dropKey
  .ok { s.push t with allowKey := false, cursor := s.cursor.forward 3 }

/-- The start of a flow collection. -/
def fetchFlowStart (s : Lexer) (t : Token) : Result Lexer := do
  let s ← s.saveKey
  .ok { s.sign t with flowLevel := s.flowLevel + 1, allowKey := true }

/-- The end of a flow collection. -/
def fetchFlowEnd (s : Lexer) (t : Token) : Result Lexer := do
  if s.flowLevel = 0 then malformed "no flow collection is open"
  else
    let s ← s.dropKey
    .ok { s.sign t with flowLevel := s.flowLevel - 1, allowKey := false }

/-- A comma of a flow collection. -/
def fetchFlowEntry (s : Lexer) : Result Lexer := do
  let s ← dropKey { s with allowKey := true }
  .ok (s.sign .flowEntry)

/-- The dash of an item of a block sequence. -/
def fetchBlockEntry (s : Lexer) : Result Lexer := do
  if s.flowLevel = 0 && !s.allowKey then malformed "sequence entries are not allowed here"
  else
    let s :=
      if s.flowLevel = 0 then
        match s.indentTo s.cursor.column with
        | (s, true) => s.push .blockSequenceStart
        | (s, false) => s
      else s
    let s ← dropKey { s with allowKey := true }
    .ok (s.sign .blockEntry)

/-- The question mark of a key. -/
def fetchKey (s : Lexer) : Result Lexer := do
  if s.flowLevel = 0 && !s.allowKey then malformed "mapping keys are not allowed here"
  else
    let s :=
      if s.flowLevel = 0 then
        match s.indentTo s.cursor.column with
        | (s, true) => s.push .blockMappingStart
        | (s, false) => s
      else s
    let s ← dropKey { s with allowKey := s.flowLevel = 0 }
    .ok (s.sign .key)

/-- The colon of a value. The tokens of its key go where the key has started. -/
def fetchValue (s : Lexer) : Result Lexer := do
  match s.keys.lookup s.flowLevel with
  | some k =>
    let s := { s with keys := s.keys.filter fun e => e.1 != s.flowLevel }
    let s := s.insert k.number .key
    let s :=
      if s.flowLevel = 0 then
        match s.indentTo k.column with
        | (s, true) => s.insert k.number .blockMappingStart
        | (s, false) => s
      else s
    .ok ({ s with allowKey := false }.sign .value)
  | none =>
    if s.flowLevel = 0 && !s.allowKey then malformed "mapping values are not allowed here"
    else
      let s :=
        if s.flowLevel = 0 then
          match s.indentTo s.cursor.column with
          | (s, true) => s.push .blockMappingStart
          | (s, false) => s
        else s
      let s ← dropKey { s with allowKey := s.flowLevel = 0 }
      .ok (s.sign .value)

/-- A reference or an anchor. -/
def fetchName (s : Lexer) (t : String → Token) : Result Lexer := do
  let s ← s.saveKey
  let (name, cursor) ← scanName s.cursor
  .ok { s.push (t name) with allowKey := false, cursor }

/-- A tag. -/
def fetchTag (s : Lexer) : Result Lexer := do
  let s ← s.saveKey
  let (t, cursor) ← scanTag s.cursor
  .ok { s.push t with allowKey := false, cursor }

/-- A block scalar. -/
def fetchBlockScalar (s : Lexer) (folded : Bool) : Result Lexer := do
  let s ← dropKey { s with allowKey := true }
  let (cs, cursor) ← blockScalar folded s.indent s.cursor
  .ok { s.push (.scalar (String.ofList cs) false) with cursor }

/-- A quoted scalar. -/
def fetchQuoted (s : Lexer) (double : Bool) : Result Lexer := do
  let s ← s.saveKey
  let (cs, cursor) ← quotedScalar double s.cursor
  .ok { s.push (.scalar (String.ofList cs) false) with allowKey := false, cursor }

/-- A plain scalar. -/
def fetchPlain (s : Lexer) : Result Lexer := do
  let s ← s.saveKey
  let (cs, broke, cursor) := plainScalar (s.flowLevel != 0) s.indent s.cursor
  .ok { s.push (.scalar (String.ofList cs) true) with allowKey := broke, cursor }

/-- The characters that do not start a plain scalar on their own. -/
def indicators : List Char :=
  "-?:,[]#&*!|>'\"%@".toList ++ ['\x7b', '\x7d', '\x60']

/-- A plain scalar starts here. -/
def startsPlain (s : Lexer) : Bool :=
  match s.cursor.peek with
  | none => false
  | some ch =>
    (!isGap (some ch) && !indicators.contains ch) ||
      (!isGap (s.cursor.peekAt 1) &&
        (ch == '-' || (s.flowLevel = 0 && (ch == '?' || ch == ':'))))

/-- The next token, and those that it completes. -/
def fetch (s : Lexer) : Result Lexer := do
  let s ← (skipToToken (s.cursor.rest.length + 1) s).dropStale
  let s := s.unwind s.cursor.column
  let c := s.cursor
  let inFlow := s.flowLevel != 0
  let gapFollows := isGap (c.peekAt 1)
  match c.peek with
  | none => s.fetchEnd
  | some ch =>
    if ch = '%' && c.column = 0 then s.fetchDirective
    else if ch = '-' && c.column = 0 && c.atSeparator then s.fetchSeparator .documentStart
    else if ch = '.' && c.column = 0 && c.atSeparator then s.fetchSeparator .documentEnd
    else if ch = '[' then s.fetchFlowStart .flowSequenceStart
    else if ch = '\x7b' then s.fetchFlowStart .flowMappingStart
    else if ch = ']' then s.fetchFlowEnd .flowSequenceEnd
    else if ch = '\x7d' then s.fetchFlowEnd .flowMappingEnd
    else if ch = ',' then s.fetchFlowEntry
    else if ch = '-' && gapFollows then s.fetchBlockEntry
    else if ch = '?' && (inFlow || gapFollows) then s.fetchKey
    else if ch = ':' && (inFlow || gapFollows) then s.fetchValue
    else if ch = '*' then s.fetchName .reference
    else if ch = '&' then s.fetchName .anchor
    else if ch = '!' then s.fetchTag
    else if ch = '|' && !inFlow then s.fetchBlockScalar false
    else if ch = '>' && !inFlow then s.fetchBlockScalar true
    else if ch = '\'' then s.fetchQuoted false
    else if ch = '"' then s.fetchQuoted true
    else if s.startsPlain then s.fetchPlain
    else malformed "found a character that cannot start any token"

/-- The tokens up to the end of the text. Every step but the last one reads a character. -/
def run : Nat → Lexer → Result (List Token)
  | 0, _ => malformed "the text does not end"
  | fuel + 1, s => do
    let s ← s.fetch
    if s.tokens.getLast? == some .streamEnd then .ok s.tokens else run fuel s

end Lexer

/-- The tokens of a text. -/
def tokens (text : List Char) : Result (List Token) :=
  Lexer.run (text.length + 2) { cursor := { rest := text } }

end FileDepot.Yaml
