import FileDepot.Regex.Marks
import FileDepot.Text.Case
import FileDepot.Text.Decimal
import FileDepot.Text.WordChar

/-!
# Regular expressions

The expressions themselves and what they accept.

Contents:

* `Options` — how letters, dots and line ends are read;
* `CharClass`, `CharTest`, `Anchor`, `Regex` — the expressions;
* `Options.fold`, `Options.equates` — characters compared without regard to case;
* `Regex.ends` — where a match from one position can end, in the order of trying;
* `Regex.advance` — from a set of positions in a text to the positions one match later, with
  `Regex.advance_star` for repetitions;
* `Regex.matchesStart`, `Regex.searches` — a match from the first position, or from any.

Positions are marked places. Advancing is additive in the marks, so a match from many places at once is
one computation.
-/

namespace FileDepot

/-- How an expression reads letters, dots and line ends. -/
structure Regex.Options where
  ignoreCase : Bool := false
  multiLine : Bool := false
  dotAll : Bool := false
  verbose : Bool := false
  /-- Only ASCII letters have a case, and only ASCII characters are of a kind. -/
  asciiOnly : Bool := false
  deriving Repr, DecidableEq, Inhabited

namespace Regex

/-- A named kind of characters inside an expression: decimal digits, word characters and blanks. -/
inductive CharKind
  | digit
  | word
  | blank
  deriving Repr, DecidableEq

/-- The kind holds the character. Among the ASCII characters, the information separators are no blanks
where only those count. -/
def CharKind.holds (o : Options) (k : CharKind) (c : Char) : Bool :=
  if o.asciiOnly then
    match k with
    | .digit => c.isDigit
    | .word => c.isAlphanum || c == '_'
    | .blank => c == ' ' || (9 ≤ c.toNat && c.toNat ≤ 13)
  else
    match k with
    | .digit => (Text.decimalDigit? c).isSome
    | .word => Text.isWordChar c
    | .blank => Text.isBlank c

/-- A part of a bracket class: a character, a range of code points, or a kind or its complement. -/
inductive ClassItem
  | char (c : Char)
  | range (low high : Char)
  | kind (k : CharKind) (complement : Bool)
  deriving Repr, DecidableEq

/-- The item holds the character exactly as it is written. -/
def ClassItem.holds (o : Options) : ClassItem → Char → Bool
  | .char x, c => x == c
  | .range low high, c => low.toNat ≤ c.toNat && c.toNat ≤ high.toNat
  | .kind k complement, c => k.holds o c != complement

/-! ## Ignoring case -/

/-- The character as it is compared: its small letter where case is ignored. -/
def Options.fold (o : Options) (c : Char) : Char :=
  if !o.ignoreCase then c else if o.asciiOnly then c.toLower else Text.lower c

/-- The small letters that are compared as equal to the small letter `c`. -/
def Options.alike (o : Options) (c : Char) : List Char :=
  if o.ignoreCase && !o.asciiOnly then Text.alike c else [c]

/-- The characters that are compared as equal to the small letter `c`. -/
def Options.variants (o : Options) (c : Char) : List Char :=
  (o.alike c).flatMap fun small =>
    small :: if o.asciiOnly then [small.toUpper] else Text.capitalsOf small

/-- The characters are compared as equal. -/
def Options.equates (o : Options) (x c : Char) : Bool :=
  (o.alike (o.fold x)).contains (o.fold c)

/-- The last character of the basic plane, up to which the items of a class are kept in small letters. -/
def lastBasic : Nat := 0xFFFF

/-- The item holds the small letter `c` of a character. A range that leaves the basic plane is compared
with the capital of `c` too, and a single character beyond that plane as it is written. -/
def ClassItem.holdsSmall (o : Options) : ClassItem → Char → Bool
  | .char x, c => if x.toNat ≤ lastBasic then (o.alike (o.fold x)).contains c else x == c
  | .range low high, c =>
    (o.variants c).any (fun x => x.toNat ≤ lastBasic && (ClassItem.range low high).holds o x) ||
      (high.toNat > lastBasic && [c, Text.upper c].any ((ClassItem.range low high).holds o))
  | .kind k complement, c => k.holds o c != complement

/-- A bracket class: its items, or everything but them. -/
structure CharClass where
  negated : Bool
  items : List ClassItem
  deriving Repr, DecidableEq

/-- Some item holds the character. A class of one character compares as that character does outside of
classes. -/
def CharClass.lists (o : Options) (cls : CharClass) (c : Char) : Bool :=
  if !o.ignoreCase then cls.items.any (·.holds o c)
  else
    match cls.items.eraseDups with
    | [.char x] => o.equates x c
    | items => items.any (·.holdsSmall o (o.fold c))

/-- The class accepts the character. -/
def CharClass.accepts (o : Options) (cls : CharClass) (c : Char) : Bool :=
  cls.lists o c != cls.negated

/-- A test of one character. -/
inductive CharTest
  | literal (c : Char)
  | any
  | member (cls : CharClass)
  deriving Repr, DecidableEq

/-- The test accepts the character. A dot refuses the line feed unless `dotAll` is on. -/
def CharTest.accepts (o : Options) : CharTest → Char → Bool
  | .literal x, c => o.equates x c
  | .any, c => o.dotAll || c != '\n'
  | .member cls, c => cls.accepts o c

/-- A condition on a place in the text. -/
inductive Anchor
  | lineStart
  | lineStop
  | textStart
  | textStop
  | wordEdge (complement : Bool)
  deriving Repr, DecidableEq

/-- The character is a word character. -/
def isWordAt (o : Options) (c : Option Char) : Bool :=
  c.any (CharKind.word.holds o)

/-- The condition holds behind the character `before` and in front of `rest`. The line stop holds at
the end of the text and before a line feed that ends it. In an empty text no place is an edge of a word or
the contrary of one. -/
def Anchor.holds (o : Options) : Anchor → Option Char → List Char → Bool
  | .lineStart, before, _ => before.isNone || (o.multiLine && before == some '\n')
  | .lineStop, _, rest => rest == [] || rest == ['\n'] || (o.multiLine && rest.head? == some '\n')
  | .textStart, before, _ => before.isNone
  | .textStop, _, rest => rest == []
  | .wordEdge complement, before, rest =>
    (before.isSome || rest != []) && (isWordAt o before != isWordAt o rest.head?) != complement

end Regex

/-- A regular expression. -/
inductive Regex
  | empty
  | one (t : Regex.CharTest)
  | anchor (a : Regex.Anchor)
  | seq (r s : Regex)
  | alt (r s : Regex)
  | star (r : Regex)
  /-- The first way in which the expression matches, and no other. -/
  | once (r : Regex)
  deriving Repr, DecidableEq

namespace Regex

/-- The expressions one after another. -/
def sequence (rs : List Regex) : Regex :=
  rs.foldr .seq .empty

/-- One given character. -/
def char (c : Char) : Regex :=
  .one (.literal c)

/-- One of the characters of a text. -/
def among (cs : String) : Regex :=
  .one (.member ⟨false, cs.toList.map .char⟩)

/-- Any character but a given one. -/
def butNot (c : Char) : Regex :=
  .one (.member ⟨true, [.char c]⟩)

/-- One character of a kind. -/
def ofKind (k : CharKind) : Regex :=
  .one (.member ⟨false, [.kind k false]⟩)

/-- The expression once or not at all. -/
def optional (r : Regex) : Regex :=
  .alt r .empty

/-- The expression at least once. -/
def plus (r : Regex) : Regex :=
  .seq r (.star r)

/-- The expression `n` times. -/
def times (r : Regex) : Nat → Regex
  | 0 => .empty
  | n + 1 => .seq r (times r n)

/-- The expression at most `n` times. -/
def atMost (r : Regex) : Nat → Regex
  | 0 => .empty
  | n + 1 => optional (.seq r (atMost r n))

/-- The expression at least `low` and at most `high` times, without an upper limit for `none`. -/
def repeated (r : Regex) (low : Nat) : Option Nat → Regex
  | none => .seq (times r low) (.star r)
  | some high => .seq (times r low) (atMost r (high - low))

/-! ## Matching -/

/-- The places at which the condition holds, from the place behind `before` on. -/
def anchorMarks (o : Options) (a : Anchor) : Option Char → List Char → Marks
  | before, [] => [a.holds o before []]
  | before, c :: cs => a.holds o before (c :: cs) :: anchorMarks o a (some c) cs

/-- The places where rounds of a repetition can end, those of more rounds first; a round that does not
move on is the last one. -/
def roundEnds (f : Nat → List Nat) : Nat → Nat → List Nat
  | 0, i => [i]
  | n + 1, i => ((f i).flatMap (fun j => if i < j then roundEnds f n j else [i]) ++ [i]).eraseDups

/-- The places where a match that starts at place `i` can end, in the order in which they are tried. -/
def ends (o : Options) (text : List Char) : Regex → Nat → List Nat
  | .empty, i => [i]
  | .one t, i => if (text[i]?).any (t.accepts o) then [i + 1] else []
  | .anchor a, i => if (anchorMarks o a none text)[i]? == some true then [i] else []
  | .seq r s, i => (ends o text r i).flatMap (ends o text s)
  | .alt r s, i => ends o text r i ++ ends o text s i
  | .star r, i => roundEnds (ends o text r) (text.length + 1) i
  | .once r, i => (ends o text r i).take 1

/-- The marks of the first places to which `f` leads from the marked ones. -/
def firstMarks (f : Nat → List Nat) (marks : Marks) : Marks :=
  let targets := marks.zipIdx.filterMap fun (m, i) => if m then (f i).head? else none
  marks.zipIdx.map fun (_, i) => targets.contains i

/-- The places where any number of matches in a row can end, if `f` leads to where one can end. Matches
of one character each take a single pass through the text. -/
def rounds (o : Options) (text : List Char) (r : Regex) (f : Marks → Marks) (marks : Marks) : Marks :=
  match r with
  | .one t => marks.spread (t.accepts o) text
  | _ => marks.saturate f (text.length + 1)

/-- From the marked places to the places where a match of the expression that starts there can end. -/
def advance (o : Options) (text : List Char) : Regex → Marks → Marks
  | .empty, marks => marks
  | .one t, marks => marks.step (t.accepts o) text
  | .anchor a, marks => List.zipWith (· && ·) marks (anchorMarks o a none text)
  | .seq r s, marks => advance o text s (advance o text r marks)
  | .alt r s, marks => (advance o text r marks).union (advance o text s marks)
  | .star r, marks => rounds o text r (advance o text r) marks
  | .once r, marks => firstMarks (ends o text r) marks

/-- A repetition leads to whatever rounds of the expression reach. -/
theorem advance_star (o : Options) {text : List Char} (r : Regex) {marks : Marks}
    (hl : marks.length = text.length + 1) :
    advance o text (.star r) marks = marks.saturate (advance o text r) (text.length + 1) := by
  cases r with
  | one t => exact Marks.spread_eq_saturate hl
  | _ => rfl

/-- Only the first place of the text. -/
def firstPlace (text : List Char) : Marks :=
  true :: text.map fun _ => false

/-- Every place of the text. -/
def everyPlace (text : List Char) : Marks :=
  true :: text.map fun _ => true

/-- A match starts at the first place. -/
def matchesStart (o : Options) (r : Regex) (text : List Char) : Bool :=
  (r.advance o text (firstPlace text)).any id

/-- A match starts somewhere. -/
def searches (o : Options) (r : Regex) (text : List Char) : Bool :=
  (r.advance o text (everyPlace text)).any id

end Regex

end FileDepot
