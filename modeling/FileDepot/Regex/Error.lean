/-!
# What is wrong with an expression

Contents:

* `Fault` — the faults a reader finds;
* `Error` — a fault at an offset of an expression;
* `Error.message` — its wording, with line and column where the expression has several lines.
-/

namespace FileDepot.Regex

/-- A fault of an expression. -/
inductive Fault
  /-- A range of a class runs downwards, or has a kind of characters at an end; both ends as written. -/
  | badRange (low high : String)
  | unclosedClass
  | unclosedGroup
  | unopenedGroup
  | nothingToRepeat
  | multipleRepeat
  | repeatsReversed
  | danglingEscape
  | badEscape (written : String)
  | unknownExtension (written : String)
  /-- Option letters behind the start of the expression, for which they all stand. -/
  | lateOptions
  /-- Syntax that the reader leaves to others. -/
  | unread
  deriving Repr, DecidableEq

/-- The wording of a fault. -/
def Fault.message : Fault → String
  | .badRange low high => s!"bad character range {low}-{high}"
  | .unclosedClass => "unterminated character set"
  | .unclosedGroup => "missing ), unterminated subpattern"
  | .unopenedGroup => "unbalanced parenthesis"
  | .nothingToRepeat => "nothing to repeat"
  | .multipleRepeat => "multiple repeat"
  | .repeatsReversed => "min repeat greater than max repeat"
  | .danglingEscape => "bad escape (end of pattern)"
  | .badEscape written => s!"bad escape {written}"
  | .unknownExtension written => s!"unknown extension {written}"
  | .lateOptions => "global flags not at the start of the expression"
  | .unread => "syntax that is not read"

/-- A fault with the offset at which it stands. -/
structure Error where
  fault : Fault
  position : Nat
  deriving Repr, DecidableEq

/-- The line of an offset, counted from one. -/
def lineOf (text : List Char) (position : Nat) : Nat :=
  (text.take position).count '\n' + 1

/-- The column of an offset in its line, counted from one. -/
def columnOf (text : List Char) (position : Nat) : Nat :=
  ((text.take position).reverse.takeWhile (· != '\n')).length + 1

/-- The wording of an error in the expression `text`. -/
def Error.message (text : String) (e : Error) : String :=
  let cs := text.toList
  let base := s!"{e.fault.message} at position {e.position}"
  if cs.contains '\n' then
    s!"{base} (line {lineOf cs e.position}, column {columnOf cs e.position})"
  else base

end FileDepot.Regex
