import FileDepot.Failure
import FileDepot.Regex.Reader
import FileDepot.Text.Pieces
import FileDepot.Text.Quoted

/-!
# Pattern values

Regular expressions as values: compiled ones, and the form in which a store keeps them.

Contents:

* `PatternSource` — text or bytes;
* `Pattern`, `StoredRegex` — source and flags;
* `Engine` — what answers for patterns in syntax that is not read;
* `Pattern.compile` — the flags that a source adds;
* `Pattern.searches` — a match anywhere in a text;
* `Pattern.describe` — how a compiled pattern is shown.
-/

namespace FileDepot

/-- What a pattern is written in. -/
inductive PatternSource
  | text (s : String)
  | bytes (bs : Bytes)
  deriving Repr, DecidableEq, Inhabited

/-- A compiled pattern. -/
structure Pattern where
  source : PatternSource
  flags : Nat
  deriving Repr, DecidableEq, Inhabited

/-- A pattern in the form that a store keeps. -/
structure StoredRegex where
  source : PatternSource
  flags : Nat
  deriving Repr, DecidableEq, Inhabited

/-- What answers for the patterns whose syntax is not read: whether such a pattern matches somewhere in a text, or why
it does not answer. -/
abbrev Engine := Pattern → String → Except Failure Bool

namespace Pattern

/-! ## Flags -/

/-- The flag that ignores case. -/
def ignoreCaseFlag : Nat := 2

/-- The flag of full Unicode matching. -/
def unicodeFlag : Nat := 32

/-- The flag of matching by the conventions of a place. -/
def localeFlag : Nat := 4

/-- The flag of ASCII matching. -/
def asciiFlag : Nat := 256

/-- The flags with their names, in the order in which they are shown. -/
def flagNames : List (Nat × String) :=
  [(2, "IGNORECASE"), (8, "MULTILINE"), (16, "DOTALL"), (64, "VERBOSE"), (256, "ASCII")]

/-- The set of flags holds the flag. -/
def hasFlag (flags flag : Nat) : Bool :=
  flags &&& flag != 0

/-- The options that a set of flags turns on. -/
def optionsOf (flags : Nat) : Regex.Options :=
  { ignoreCase := hasFlag flags 2
    multiLine := hasFlag flags 8
    dotAll := hasFlag flags 16
    verbose := hasFlag flags 64
    asciiOnly := hasFlag flags asciiFlag }

/-- The flags of a set of options. -/
def flagsOf (o : Regex.Options) : Nat :=
  (if o.ignoreCase then 2 else 0) + (if o.multiLine then 8 else 0) + (if o.dotAll then 16 else 0) +
    (if o.verbose then 64 else 0) + (if o.asciiOnly then asciiFlag else 0)

/-- The characters of a source; a byte is the character of its number. -/
def PatternSource.chars : PatternSource → List Char
  | .text s => s.toList
  | .bytes bs => bs.map fun b => Char.ofNat b.toNat

/-- The flags of the option letters in front of an expression that can be read. -/
def inlineFlags (source : PatternSource) (flags : Nat) : Nat :=
  match Regex.readWith (optionsOf flags) (PatternSource.chars source) with
  | .ok (_, o) => flagsOf o
  | .error _ => 0

/-- Compiles a source: text is matched as Unicode unless ASCII is asked for, and option letters in
front of the expression count as flags. -/
def compile (source : PatternSource) (flags : Nat) : Pattern :=
  let inline := inlineFlags source flags
  let mode :=
    match source with
    | .text _ => if hasFlag (flags ||| inline) asciiFlag then 0 else unicodeFlag
    | .bytes _ => 0
  ⟨source, flags ||| mode ||| inline⟩

/-! ## Matching -/

/-- Why a pattern answers nothing. -/
inductive Refusal
  /-- The expression cannot be read. -/
  | unreadable (e : Regex.Error) (written : String)
  /-- The flags do not go together, or not with the source. -/
  | flags (reason : String)
  /-- The pattern is written in bytes and the text is none. -/
  | wrongKind
  /-- The pattern is in syntax that is not read, and what answers for it has failed. -/
  | unanswered (failure : Failure)
  deriving Repr, DecidableEq

/-- The pattern matches somewhere in the text. The engine answers where the syntax is not read. -/
def searches (engine : Engine) (p : Pattern) (text : String) : Except Refusal Bool :=
  match Regex.readWith (optionsOf p.flags) (PatternSource.chars p.source), p.source with
  | .error e, source =>
    if e.fault = .unread then (engine p text).mapError .unanswered
    else .error (.unreadable e (String.ofList (PatternSource.chars source)))
  | .ok (r, o), .text _ => .ok (r.searches o text.toList)
  | .ok _, .bytes _ => .error .wrongKind

/-- How a compiled pattern is shown: its quoted source, cut after 200 characters, and its flags. -/
def describe (p : Pattern) : String :=
  let source :=
    match p.source with
    | .text s => Text.quoted s
    | .bytes bs => Text.quotedBytes bs
  let names := flagNames.filterMap fun (flag, name) =>
    if hasFlag p.flags flag then some s!"re.{name}" else none
  let shown := String.ofList (source.toList.take 200)
  let flags := if names.isEmpty then "" else ", " ++ Text.commaJoin "|" names
  s!"re.compile({shown}{flags})"

/-- The stored form, with the same source and flags. -/
def toStored (p : Pattern) : StoredRegex :=
  ⟨p.source, p.flags⟩

end Pattern

namespace StoredRegex

/-- Why the flags of a stored pattern do not go together, or not with its source. -/
def flagFault? (r : StoredRegex) : Option String :=
  let has := Pattern.hasFlag r.flags
  match r.source with
  | .text _ =>
    if has Pattern.localeFlag then some "cannot use LOCALE flag with a str pattern"
    else if has Pattern.asciiFlag && has Pattern.unicodeFlag then
      some "ASCII and UNICODE flags are incompatible"
    else none
  | .bytes _ =>
    if has Pattern.unicodeFlag then some "cannot use UNICODE flag with a bytes pattern"
    else if has Pattern.localeFlag && has Pattern.asciiFlag then
      some "ASCII and LOCALE flags are incompatible"
    else none

/-- The pattern matches somewhere in the text. A fault of the expression is found before one of the
flags. -/
def searches (engine : Engine) (r : StoredRegex) (text : String) : Except Pattern.Refusal Bool :=
  match Pattern.searches engine ⟨r.source, r.flags⟩ text, r.flagFault? with
  | .error (.unreadable e written), _ => .error (.unreadable e written)
  | .error (.unanswered failure), _ => .error (.unanswered failure)
  | _, some reason => .error (.flags reason)
  | answer, none => answer

end StoredRegex

end FileDepot
