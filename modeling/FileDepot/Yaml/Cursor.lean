import FileDepot.Failure

/-!
# Places in a YAML text

Contents:

* `Yaml.Error`, `Yaml.Result` — what is wrong with a text;
* `Yaml.isBreak`, `Yaml.isGap` — line breaks and blanks;
* `Yaml.Cursor` — the text that is still to be read, with line and column;
* `Yaml.Cursor.lineBreak` — one line break.
-/

namespace FileDepot.Yaml

/-- What is wrong with a text. -/
inductive Error
  /-- The text is no YAML, or holds a construct that has no value. -/
  | malformed (reason : String)
  /-- A scalar has the form of a value that does not exist, such as a thirteenth month. -/
  | impossible (f : Failure)
  deriving Repr, DecidableEq, Inhabited

/-- An answer about a text. -/
abbrev Result (α : Type) := Except Error α

/-- The answer that a text is malformed. -/
def malformed {α : Type} (reason : String) : Result α :=
  .error (.malformed reason)

/-- The character ends a line. -/
def isBreak (c : Char) : Bool :=
  c == '\n' || c == '\x85' || c == '\u2028' || c == '\u2029'

/-- The end of the text or of a line. -/
def isEnd (c : Option Char) : Bool :=
  c.all isBreak

/-- A space, or the end of the text or of a line. -/
def isSpaceOrEnd (c : Option Char) : Bool :=
  c == some ' ' || isEnd c

/-- A space or a tab, or the end of the text or of a line. -/
def isGap (c : Option Char) : Bool :=
  c == some '\t' || isSpaceOrEnd c

/-- A place in a text: what follows, and where it is. -/
structure Cursor where
  rest : List Char
  index : Nat := 0
  line : Nat := 0
  column : Nat := 0
  deriving Repr, Inhabited

namespace Cursor

/-- The next character. -/
def peek (c : Cursor) : Option Char :=
  c.rest.head?

/-- The character `n` places further on. -/
def peekAt (c : Cursor) (n : Nat) : Option Char :=
  c.rest[n]?

/-- One character further on. A byte order mark takes no column. -/
def next (c : Cursor) : Cursor :=
  match c.rest with
  | [] => c
  | ch :: rest =>
    if isBreak ch then { rest, index := c.index + 1, line := c.line + 1, column := 0 }
    else
      { c with
        rest
        index := c.index + 1
        column := if ch = '\ufeff' then c.column else c.column + 1 }

/-- Some characters further on. -/
def forward (c : Cursor) : Nat → Cursor
  | 0 => c
  | n + 1 => c.next.forward n

/-- The characters that satisfy a test up to the first that does not, and the place behind them. -/
def span (c : Cursor) (p : Char → Bool) : List Char × Cursor :=
  let taken := c.rest.takeWhile p
  (taken, c.forward taken.length)

/-- The place behind the spaces that follow. -/
def skipSpaces (c : Cursor) : Cursor :=
  (c.span (· == ' ')).2

/-- The place behind the spaces and tabs that follow. -/
def skipBlanks (c : Cursor) : Cursor :=
  (c.span fun ch => ch == ' ' || ch == '\t').2

/-- The place behind the rest of the line. -/
def skipLine (c : Cursor) : Cursor :=
  (c.span fun ch => !isBreak ch).2

/-- One line break, with most kinds of them written as a line feed; nothing where there is none. -/
def lineBreak (c : Cursor) : List Char × Cursor :=
  match c.peek with
  | some ch =>
    if ch = '\u2028' || ch = '\u2029' then ([ch], c.next)
    else if isBreak ch then (['\n'], c.next)
    else ([], c)
  | none => ([], c)

/-- A line of three dashes or of three dots starts here. -/
def atSeparator (c : Cursor) : Bool :=
  let mark := c.rest.take 3
  (mark == ['-', '-', '-'] || mark == ['.', '.', '.']) && isGap (c.peekAt 3)

end Cursor

end FileDepot.Yaml
