/-!
# Escaping text in expressions

Text written so that an expression reads it literally.

Contents:

* `isSpecial` — the characters that have a meaning of their own in an expression;
* `escapeChar`, `escape` — the literal spelling.
-/

namespace FileDepot.Regex

/-- The punctuation and blanks that are spelled with a backslash in front. -/
def specials : List Char :=
  ['(', ')', '[', ']', '\x7b', '\x7d', '?', '*', '+', '-', '|', '^', '$', '\\', '.', '&', '~', '#',
    ' ', '\t', '\n', '\r', '\x0b', '\x0c']

/-- The character needs a backslash in front to stand for itself. -/
def isSpecial (c : Char) : Bool :=
  specials.contains c

/-- The literal spelling of one character. -/
def escapeChar (c : Char) : List Char :=
  if isSpecial c then ['\\', c] else [c]

/-- The literal spelling of a text. -/
def escape (cs : List Char) : List Char :=
  cs.flatMap escapeChar

end FileDepot.Regex
