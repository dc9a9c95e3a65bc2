import FileDepot.Regex.Basic
import FileDepot.Regex.Error

/-!
# Reading expressions

An expression is read character by character; the state of the reader is the groups that are still
open, what has been read of the innermost one, and the construct that the next character continues.

Contents:

* `Frame`, `Construct`, `Reader` — the state;
* `Reader.step` — one character;
* `Regex.read` — the whole expression, or the first fault.

The syntax is read that can be matched place by place. What looks around or behind, refers back to a group, names
one or sets options for a part of the expression is left unread, and so are characters that are written by their
numbers or names and repetitions beyond the largest count: those are the fault `Fault.unread`.

Since reading is a fold over the characters, reading a concatenation is reading its parts in turn
(`Reader.run_append`).
-/

namespace FileDepot.Regex

/-- What stands in front of a repetition sign. -/
inductive LastItem
  | nothing
  | condition
  | item
  | repetition
  deriving Repr, DecidableEq

/-- An open group: its finished alternatives, the last one first, and the current one, its last part
first. -/
structure Frame where
  alternatives : List (List Regex) := []
  items : List Regex := []
  last : LastItem := .nothing
  openedAt : Nat := 0
  deriving Repr

/-- One member of a bracket class as written: its spelling, offset, and character unless it is a kind
of characters. -/
structure ClassAtom where
  written : List Char
  start : Nat
  item : ClassItem
  char? : Option Char
  deriving Repr

/-- A bracket class that is being read: whether it is negated, its items with the last one first, and
where it starts. -/
structure OpenClass where
  negated : Bool := false
  items : List ClassItem := []
  start : Nat
  deriving Repr

/-- The construct that the next character belongs to. -/
inductive Construct
  /-- Between two constructs. -/
  | plain
  /-- Behind a backslash. -/
  | escape
  /-- Behind a repetition sign, where a question mark sets its greed and a plus sign commits it. -/
  | repeated
  /-- Behind an opening brace, with the characters read since, last one first. -/
  | brace (read : List Char)
  /-- Behind an opening parenthesis. -/
  | group
  /-- Behind an opening parenthesis and a question mark. -/
  | extension
  /-- Option letters behind an opening parenthesis and a question mark; where the parenthesis stands. -/
  | letters (start : Nat)
  /-- Behind an opening bracket, where a caret negates. -/
  | classStart (start : Nat)
  /-- In front of a member of a class. -/
  | member (cls : OpenClass)
  /-- Behind a backslash in a class. -/
  | memberEscape (cls : OpenClass)
  /-- Behind a member of a class, where a dash may make a range. -/
  | behindMember (cls : OpenClass) (low : ClassAtom)
  /-- Behind a member and a dash. -/
  | range (cls : OpenClass) (low : ClassAtom)
  /-- Behind a member, a dash and a backslash. -/
  | rangeEscape (cls : OpenClass) (low : ClassAtom)
  /-- A remark in a verbose expression, up to the end of the line. -/
  | remark
  deriving Repr

/-- The state of reading: the open groups around the innermost one, that one, the construct in
progress, the offset and the options in force. -/
structure Reader where
  outer : List Frame := []
  inner : Frame := {}
  construct : Construct := .plain
  position : Nat := 0
  options : Options := {}
  deriving Repr

/-! ## Groups -/

/-- The part is one test or one condition. -/
def isSimple : Regex → Bool
  | .one _ => true
  | .anchor _ => true
  | _ => false

/-- The simple parts with which all alternatives begin, and the alternatives behind them. -/
def commonStart : List Regex → List (List Regex) → List Regex × List (List Regex)
  | r :: rs, others =>
    if isSimple r && others.all (·.head? == some r) then
      let (start, alternatives) := commonStart rs (others.map List.tail)
      (r :: start, alternatives)
    else ([], (r :: rs) :: others)
  | [], others => ([], [] :: others)

/-- The items of an alternative that is one character or one class. -/
def classItems? : List Regex → Option (List ClassItem)
  | [.one (.literal c)] => some [.char c]
  | [.one (.member ⟨false, items⟩)] => some items
  | _ => none

/-- One of several alternatives. Alternatives of one character each are a class. -/
def oneOf (alternatives : List (List Regex)) : Regex :=
  match alternatives.mapM classItems? with
  | some classes => .one (.member ⟨false, classes.flatten⟩)
  | none =>
    match alternatives.reverse with
    | [] => .empty
    | last :: others => others.foldl (fun rest a => .alt (sequence a) rest) (sequence last)

/-- The expression of a group that closes here. -/
def Frame.close (f : Frame) : Regex :=
  match (f.items.reverse :: f.alternatives).reverse with
  | [] => .empty
  | [items] => sequence items
  | first :: others =>
    let (start, alternatives) := commonStart first others
    sequence (start ++ [oneOf alternatives])

/-- The group with one more item. -/
def Frame.push (f : Frame) (r : Regex) (last : LastItem) : Frame :=
  { f with items := r :: f.items, last := last }

/-- The group with a new alternative begun. -/
def Frame.nextAlternative (f : Frame) : Frame :=
  { f with alternatives := f.items.reverse :: f.alternatives, items := [], last := .nothing }

/-- The reader with one more part in the innermost group and no construct in progress. -/
def Reader.pushAs (s : Reader) (last : LastItem) (r : Regex) : Reader :=
  { s with inner := s.inner.push r last, construct := .plain }

/-- The reader with one more item in the innermost group and no construct in progress. -/
def Reader.push (s : Reader) (r : Regex) : Reader :=
  s.pushAs .item r

/-- The reader with a new innermost group. -/
def Reader.openGroup (s : Reader) : Reader :=
  { s with
    outer := s.inner :: s.outer
    inner := { openedAt := s.position }
    construct := .plain }

/-- Closes the innermost group. -/
def Reader.closeGroup (s : Reader) : Except Error Reader :=
  match s.outer with
  | [] => .error ⟨.unopenedGroup, s.position⟩
  | f :: outer =>
    .ok { s with
      outer := outer
      inner := f.push s.inner.close .item
      construct := .plain }

/-! ## Repetitions -/

/-- Puts a repetition on the last item, the sign of which starts at `start`. -/
def Reader.repeatLast (s : Reader) (start : Nat) (f : Regex → Regex) : Except Error Reader :=
  match s.inner.last, s.inner.items with
  | .item, r :: items =>
    .ok { s with
      inner := { s.inner with items := f r :: items, last := .repetition }
      construct := .repeated }
  | .repetition, _ => .error ⟨.multipleRepeat, start⟩
  | _, _ => .error ⟨.nothingToRepeat, start⟩

/-- The last item matches in the first way only. -/
def Reader.commitLast (s : Reader) : Reader :=
  match s.inner.items with
  | r :: items => { s with inner := { s.inner with items := .once r :: items }, construct := .plain }
  | [] => { s with construct := .plain }

/-- The limits of a counted repetition, written `m`, `m,`, `,n` or `m,n` between the braces. -/
def repeatLimits (written : List Char) : Option (Nat × Option Nat) :=
  let low := written.takeWhile Char.isDigit
  match written.dropWhile Char.isDigit with
  | [] => if low.isEmpty then none else (String.ofList low).toNat?.map fun n => (n, some n)
  | ',' :: high =>
    if high.all Char.isDigit then
      let lowest := (String.ofList low).toNat?.getD 0
      some (lowest, if high.isEmpty then none else (String.ofList high).toNat?)
    else none
  | _ => none

/-- A brace and what was read behind it, taken as literal characters. -/
def Reader.literalBrace (s : Reader) (read : List Char) : Reader :=
  ('\x7b' :: read.reverse).foldl (fun s c => s.push (.one (.literal c))) s

/-- The count from which on a repetition has no limit to be counted to. -/
def endlessCount : Nat := 4294967295

/-- A limit is a count. -/
def isCount (limits : Nat × Option Nat) : Bool :=
  limits.1 < endlessCount && limits.2.all (· < endlessCount)

/-! ## Escapes -/

/-- A kind of characters named by an escape. -/
def escapedKind : Char → Option (CharKind × Bool)
  | 'd' => some (.digit, false)
  | 'D' => some (.digit, true)
  | 'w' => some (.word, false)
  | 'W' => some (.word, true)
  | 's' => some (.blank, false)
  | 'S' => some (.blank, true)
  | _ => none

/-- The character an escape stands for outside and inside of classes; letters and digits have none. -/
def escapedChar : Char → Option Char
  | 'a' => some '\x07'
  | 'f' => some '\x0c'
  | 'n' => some '\n'
  | 'r' => some '\r'
  | 't' => some '\t'
  | 'v' => some '\x0b'
  | c => if c.isAlphanum then none else some c

/-- What is wrong with an escape that has no meaning: a character by its number or its name, or a group by its
number, is not read. -/
def escapeFault (c : Char) : Fault :=
  if c.isDigit || ['x', 'u', 'U', 'N'].contains c then .unread
  else .badEscape (String.ofList ['\\', c])

/-- The expression of an escape outside of classes. -/
def escapeMeaning (c : Char) : Option (Regex × LastItem) :=
  match escapedKind c with
  | some (k, complement) => some (.one (.member ⟨false, [.kind k complement]⟩), .item)
  | none =>
    match c with
    | 'A' => some (.anchor .textStart, .condition)
    | 'Z' => some (.anchor .textStop, .condition)
    | 'b' => some (.anchor (.wordEdge false), .condition)
    | 'B' => some (.anchor (.wordEdge true), .condition)
    | _ => (escapedChar c).map fun d => (.one (.literal d), .item)

/-! ## Bracket classes -/

/-- The class with one more item. -/
def OpenClass.add (cls : OpenClass) (item : ClassItem) : OpenClass :=
  { cls with items := item :: cls.items }

/-- The class that ends here. -/
def OpenClass.close (cls : OpenClass) : CharClass :=
  ⟨cls.negated, cls.items.reverse⟩

/-- A member written as itself. -/
def ClassAtom.plain (c : Char) (start : Nat) : ClassAtom :=
  ⟨[c], start, .char c, some c⟩

/-- A member written with a backslash. -/
def ClassAtom.escaped? (c : Char) (start : Nat) : Option ClassAtom :=
  match escapedKind c with
  | some (k, complement) => some ⟨['\\', c], start, .kind k complement, none⟩
  | none =>
    let char? := if c = 'b' then some '\x08' else escapedChar c
    char?.map fun d => ⟨['\\', c], start, .char d, some d⟩

/-- The range between two members. -/
def ClassAtom.rangeTo (low high : ClassAtom) : Except Error ClassItem :=
  let fault : Error := ⟨.badRange (String.ofList low.written) (String.ofList high.written), low.start⟩
  match low.char?, high.char? with
  | some l, some h => if l.toNat ≤ h.toNat then .ok (.range l h) else .error fault
  | _, _ => .error fault

/-- Reads a character in front of which a member of a class may start. A closing bracket ends the
class unless the class has no item yet. -/
def Reader.member (s : Reader) (cls : OpenClass) (c : Char) : Reader :=
  if c = ']' ∧ cls.items ≠ [] then s.push (.one (.member cls.close))
  else if c = '\\' then { s with construct := .memberEscape cls }
  else { s with construct := .behindMember cls (.plain c s.position) }

/-- Finishes the range from `low` to `high`. -/
def Reader.finishRange (s : Reader) (cls : OpenClass) (low high : ClassAtom) : Except Error Reader :=
  match low.rangeTo high with
  | .ok item => .ok { s with construct := .member (cls.add item) }
  | .error e => .error e

/-! ## One character -/

/-- The blanks that a verbose expression may hold anywhere. -/
def isVerboseBlank (c : Char) : Bool :=
  [' ', '\t', '\n', '\r', '\x0b', '\x0c'].contains c

/-- Reads a character between two constructs. -/
def Reader.plainStep (s : Reader) (c : Char) : Except Error Reader :=
  if s.options.verbose && isVerboseBlank c then .ok { s with construct := .plain }
  else if s.options.verbose && c == '#' then .ok { s with construct := .remark }
  else
    match c with
    | '\\' => .ok { s with construct := .escape }
    | '.' => .ok (s.push (.one .any))
    | '^' => .ok (s.pushAs .condition (.anchor .lineStart))
    | '$' => .ok (s.pushAs .condition (.anchor .lineStop))
    | '|' => .ok { s with inner := s.inner.nextAlternative, construct := .plain }
    | '(' => .ok { s with construct := .group }
    | ')' => s.closeGroup
    | '[' => .ok { s with construct := .classStart s.position }
    | '*' => s.repeatLast s.position .star
    | '+' => s.repeatLast s.position plus
    | '?' => s.repeatLast s.position optional
    | '\x7b' => .ok { s with construct := .brace [] }
    | c => .ok (s.push (.one (.literal c)))

/-- The options that one letter turns on. -/
def Options.withLetter (o : Options) : Char → Option Options
  | 'i' => some { o with ignoreCase := true }
  | 'm' => some { o with multiLine := true }
  | 's' => some { o with dotAll := true }
  | 'x' => some { o with verbose := true }
  | _ => none

/-- What is wrong with an extension that is not read: it is none at all, or one of those that are left to
others. -/
def extensionFault (c : Char) : Fault :=
  if "P#=!<(>-aLu\\".toList.contains c then .unread
  else .unknownExtension (String.ofList ['?', c])

/-- Nothing of the expression has been read yet. -/
def Reader.atStart (s : Reader) : Bool :=
  s.outer.isEmpty && s.inner.alternatives.isEmpty && s.inner.items.isEmpty

/-- Reads one character in the construct in progress. -/
def Reader.advanceConstruct (s : Reader) (c : Char) : Except Error Reader :=
  match s.construct with
  | .plain => s.plainStep c
  | .escape =>
    match escapeMeaning c with
    | some (r, last) => .ok (s.pushAs last r)
    | none => .error ⟨escapeFault c, s.position - 1⟩
  | .repeated =>
    if c = '?' then .ok { s with construct := .plain }
    else if c = '+' then .ok s.commitLast
    else s.plainStep c
  | .brace read =>
    if c = '\x7d' then
      match repeatLimits read.reverse with
      | some (low, some high) =>
        if !isCount (low, some high) then .error ⟨.unread, s.position⟩
        else if high < low then .error ⟨.repeatsReversed, s.position - read.length⟩
        else s.repeatLast (s.position - read.length - 1) fun r => repeated r low (some high)
      | some (low, none) =>
        if !isCount (low, none) then .error ⟨.unread, s.position⟩
        else s.repeatLast (s.position - read.length - 1) fun r => repeated r low none
      | none => .ok ((s.literalBrace read).push (.one (.literal c)))
    else if c.isDigit || (c = ',' && !read.contains ',') then
      .ok { s with construct := .brace (c :: read) }
    else (s.literalBrace read).plainStep c
  | .group =>
    if c = '?' then .ok { s with construct := .extension } else s.openGroup.plainStep c
  | .extension =>
    if c = ':' then .ok s.openGroup
    else
      match s.options.withLetter c with
      | some o => .ok { s with construct := .letters (s.position - 2), options := o }
      | none => .error ⟨extensionFault c, s.position - 1⟩
  | .letters start =>
    if c = ')' then
      if s.atStart then .ok { s with construct := .plain } else .error ⟨.lateOptions, start⟩
    else
      match s.options.withLetter c with
      | some o => .ok { s with options := o }
      | none => .error ⟨.unread, s.position⟩
  | .classStart start =>
    if c = '^' then .ok { s with construct := .member { negated := true, start := start } }
    else .ok (s.member { start := start } c)
  | .member cls => .ok (s.member cls c)
  | .memberEscape cls =>
    match ClassAtom.escaped? c (s.position - 1) with
    | some low => .ok { s with construct := .behindMember cls low }
    | none => .error ⟨escapeFault c, s.position - 1⟩
  | .behindMember cls low =>
    if c = '-' then .ok { s with construct := .range cls low }
    else .ok (s.member (cls.add low.item) c)
  | .range cls low =>
    if c = ']' then .ok (s.push (.one (.member ((cls.add low.item).add (.char '-')).close)))
    else if c = '\\' then .ok { s with construct := .rangeEscape cls low }
    else s.finishRange cls low (.plain c s.position)
  | .rangeEscape cls low =>
    match ClassAtom.escaped? c (s.position - 1) with
    | some high => s.finishRange cls low high
    | none => .error ⟨escapeFault c, s.position - 1⟩
  | .remark => .ok (if c = '\n' then { s with construct := .plain } else s)

/-- Reads one character. -/
def Reader.step (s : Reader) (c : Char) : Except Error Reader :=
  match s.advanceConstruct c with
  | .ok s => .ok { s with position := s.position + 1 }
  | .error e => .error e

/-! ## Whole expressions -/

/-- Reads the characters one after another. -/
def Reader.run : Reader → List Char → Except Error Reader
  | s, [] => .ok s
  | s, c :: cs =>
    match s.step c with
    | .ok s => s.run cs
    | .error e => .error e

/-- The expression that has been read when the text ends here. -/
def Reader.finish (s : Reader) : Except Error (Regex × Options) :=
  let closed (s : Reader) : Except Error (Regex × Options) :=
    if s.outer.isEmpty then .ok (s.inner.close, s.options)
    else .error ⟨.unclosedGroup, s.inner.openedAt - 1⟩
  match s.construct with
  | .plain | .repeated | .remark => closed s
  | .brace read => closed (s.literalBrace read)
  | .escape => .error ⟨.danglingEscape, s.position - 1⟩
  | .group => .error ⟨.unclosedGroup, s.position - 1⟩
  | .extension | .letters _ => .error ⟨.unread, s.position⟩
  | .classStart start => .error ⟨.unclosedClass, start⟩
  | .member cls | .behindMember cls _ | .range cls _ => .error ⟨.unclosedClass, cls.start⟩
  | .memberEscape _ | .rangeEscape _ _ => .error ⟨.danglingEscape, s.position - 1⟩

/-- The fault of a text that cannot be read to its end. A backslash with nothing behind it is found when what
stands in front of it is taken, and so before a fault there; a closing parenthesis without a group is not
taken. -/
def readingFault (o : Options) (text : List Char) (e : Error) : Error :=
  let start : Reader := { options := o }
  match start.run text.dropLast.dropLast, start.run text.dropLast with
  | .ok _, .error _ =>
    if text.getLast? = some '\\' ∧ e.fault ≠ .unopenedGroup then ⟨.danglingEscape, text.length - 1⟩ else e
  | _, _ => e

/-- Reads an expression under the given options; the options in force at its end come with it. -/
def readWith (o : Options) (text : List Char) : Except Error (Regex × Options) :=
  match (Reader.run { options := o } text) with
  | .ok s => s.finish
  | .error e => .error (readingFault o text e)

/-- Where no backslash ends the text, its first fault counts. -/
theorem readingFault_of_getLast?_ne {o : Options} {text : List Char} (h : text.getLast? ≠ some '\\') (e : Error) :
    readingFault o text e = e := by
  rw [readingFault]
  split <;> simp [h]

/-- Reads an expression with no option set from outside. -/
def read (text : List Char) : Except Error Regex :=
  (readWith {} text).map (·.1)

theorem Reader.run_append (s : Reader) (cs ds : List Char) :
    s.run (cs ++ ds) = (s.run cs).bind fun s => s.run ds := by
  induction cs generalizing s with
  | nil => rfl
  | cons c cs ih =>
    simp only [List.cons_append, Reader.run]
    cases s.step c with
    | ok s => exact ih s
    | error e => rfl

end FileDepot.Regex
