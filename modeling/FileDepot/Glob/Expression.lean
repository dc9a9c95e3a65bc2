import FileDepot.Glob.Basic
import FileDepot.Regex.Escape
import FileDepot.Regex.Reader
import FileDepot.Text.Quoted

/-!
# Patterns as expressions

A pattern is handed to a store as an anchored regular expression, and a name is matched locally by the
same expression.

Contents:

* `Glob.Spelling` — a separator and any other character, as expressions of a pattern;
* `Glob.expression` — the expression of a pattern, as text;
* `Glob.matches` — the expression accepts a name;
* `Glob.describe` — how a pattern is shown.
-/

namespace FileDepot.Glob

/-- The expressions of one separator and of one character that is none. -/
structure Spelling where
  separator : List Char
  other : List Char
  deriving Repr, DecidableEq

/-- The spelling for a second separator, each character of which counts on its own inside a class. -/
def Spelling.ofSeparator (extra : List Char) : Spelling :=
  let escaped := Regex.escape ('/' :: extra)
  { separator := if extra.isEmpty then escaped else '[' :: escaped ++ [']']
    other := '[' :: '^' :: escaped ++ [']'] }

/-- A character of a class as an expression writes it: a backslash and an opening bracket are escaped. -/
def classChar (c : Char) : List Char :=
  if c = '\\' || c = '[' then ['\\', c] else [c]

/-- The body of a class as an expression writes it. In first place a closing bracket, and a caret that
must not negate, are escaped as well. -/
def classBody (negated : Bool) (body : List Char) : List Char :=
  let written := body.flatMap classChar
  match body with
  | ']' :: _ => '\\' :: written
  | '^' :: _ => if negated then written else '\\' :: written
  | _ => written

/-- A part of a segment as an expression. -/
def Token.expression (sp : Spelling) : Token → List Char
  | .run => sp.other ++ ['*']
  | .single => sp.other
  | .members negated body =>
    '[' :: (if negated then ['^'] else []) ++ classBody negated body ++ [']']
  | .literal c => Regex.escapeChar c

/-- Text of a group that repeats: `(?:` … `)*`. -/
def repeatedGroup (inner : List Char) : List Char :=
  ['(', '?', ':'] ++ inner ++ [')', '*']

/-- Any number of non-empty segments, each with the separator behind it. -/
def wholeSegments (sp : Spelling) : List Char :=
  repeatedGroup (sp.other ++ ['+'] ++ sp.separator)

/-- The segments as an expression; `first` tells that nothing stands in front, and `separate` that a
name segment still needs a separator in front of it. -/
def expressionFrom (sp : Spelling) (first separate : Bool) : List Segment → List Char
  | [] => []
  | [.anyDepth] =>
    if first then ['.', '*'] else ['(', '?', ':'] ++ sp.separator ++ ['.', '*', ')', '?']
  | .anyDepth :: rest =>
    (if first then [] else sp.separator) ++ wholeSegments sp ++ expressionFrom sp false false rest
  | .name parts :: rest =>
    (if separate then sp.separator else []) ++ parts.flatMap (Token.expression sp) ++
      expressionFrom sp false true rest

/-- The anchored expression of a pattern. -/
def expressionChars (g : Glob) : List Char :=
  '^' :: expressionFrom (.ofSeparator g.separator.toList) true false g.segments ++ ['$']

/-- The anchored expression of a pattern, as a string. -/
def expression (g : Glob) : String :=
  String.ofList g.expressionChars

/-- The expression of the pattern accepts the name, or cannot be read. -/
def «matches» (g : Glob) (name : String) : Except Regex.Error Bool :=
  (Regex.read g.expressionChars).map fun r => r.matchesStart {} name.toList

/-- How a pattern is shown. -/
def describe (g : Glob) : String :=
  s!"AntPath({Text.quoted g.path})"

end FileDepot.Glob
