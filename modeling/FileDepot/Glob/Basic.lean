import FileDepot.Text.Pieces

/-!
# Location patterns

A location pattern names stored files by their path. Its segments stand between slashes or a second
separator of the pattern's own; a segment `**` stands for any number of segments, and within a segment
`?` stands for one character, `*` for any number of them, and a bracket class for a member character.

Contents:

* `Glob` — a pattern with its second separator;
* `Glob.Token`, `Glob.tokens` — the parts of a segment;
* `Glob.Segment`, `Glob.segments` — the segments, neighbouring `**` merged;
* `Glob.hasWildcard` — the pattern is more than an exact name.

A bracket without a closing one is an ordinary character.
-/

namespace FileDepot

/-- A location pattern; `separator` is its second separator besides the slash, or empty. -/
structure Glob where
  path : String
  separator : String := ""
  deriving Repr, DecidableEq

namespace Glob

/-- A pattern with the second separator that a caller names: none, an empty one and the slash itself
add nothing. -/
def withSeparator (path : String) (separator : Option String) : Glob :=
  match separator with
  | none => ⟨path, ""⟩
  | some s => ⟨path, if s = "/" then "" else s⟩

/-- The characters that make a path a pattern. -/
def wildcards : List Char :=
  ['*', '?', '[', ']']

/-- The path holds a wildcard character. -/
def hasWildcard (g : Glob) : Bool :=
  g.path.toList.any wildcards.contains

/-! ## Segments -/

/-- A part of a segment. -/
inductive Token
  /-- Any number of characters other than separators. -/
  | run
  /-- One character other than a separator. -/
  | single
  /-- One character that is a member of a class, or that is not. -/
  | members (negated : Bool) (body : List Char)
  /-- The character itself. -/
  | literal (c : Char)
  deriving Repr, DecidableEq

/-- A bracket class that has been closed, and the text behind it. -/
structure ClosedClass where
  negated : Bool
  body : List Char
  rest : List Char
  deriving Repr, DecidableEq

/-- The class that is open in front of the text. An exclamation mark in first place negates, and a
closing bracket in the first place after that is a member. -/
def closeClass? (cs : List Char) : Option ClosedClass :=
  let negated := cs.head? == some '!'
  let members := if negated then cs.drop 1 else cs
  let lead := if members.head? == some ']' then [']'] else []
  (Text.cutAt? ']' (members.drop lead.length)).map fun (body, rest) => ⟨negated, lead ++ body, rest⟩

theorem cutAt?_length {sep : Char} {cs a b : List Char} (h : Text.cutAt? sep cs = some (a, b)) :
    b.length < cs.length := by
  induction cs generalizing a with
  | nil => simp [Text.cutAt?] at h
  | cons c cs ih =>
    simp only [Text.cutAt?] at h
    split at h
    · simp only [Option.some.injEq, Prod.mk.injEq] at h
      rw [← h.2]
      simp
    · obtain ⟨⟨a', b'⟩, hcut, heq⟩ := Option.map_eq_some_iff.1 h
      simp only [Prod.mk.injEq] at heq
      have := ih (heq.2 ▸ hcut)
      simp only [List.length_cons]
      omega

theorem closeClass?_rest_length {cs : List Char} {cls : ClosedClass}
    (h : closeClass? cs = some cls) : cls.rest.length < cs.length := by
  simp only [closeClass?] at h
  obtain ⟨⟨body, rest⟩, hcut, rfl⟩ := Option.map_eq_some_iff.1 h
  have := cutAt?_length hcut
  split at this <;> simp only [List.length_drop] at this <;> dsimp only <;> omega

/-- The parts of a segment; `afterRun` tells that a `*` stands directly in front, which further ones
do not change. -/
def tokensFrom (afterRun : Bool) (cs : List Char) : List Token :=
  match cs with
  | [] => []
  | c :: cs =>
    if c = '*' then
      if afterRun then tokensFrom true cs else .run :: tokensFrom true cs
    else if c = '?' then .single :: tokensFrom false cs
    else if c = '[' then
      match _h : closeClass? cs with
      | some cls => .members cls.negated cls.body :: tokensFrom false cls.rest
      | none => .literal c :: tokensFrom false cs
    else .literal c :: tokensFrom false cs
termination_by cs.length
decreasing_by
  all_goals simp only [List.length_cons, Nat.lt_succ_self]
  exact Nat.lt_succ_of_lt (closeClass?_rest_length _h)

/-- The parts of a segment. -/
def tokens (segment : List Char) : List Token :=
  tokensFrom false segment

/-- A segment of a pattern. -/
inductive Segment
  /-- Any number of segments of a name. -/
  | anyDepth
  /-- One segment of a name, made of these parts. -/
  | name (parts : List Token)
  deriving Repr, DecidableEq

/-- The segment that a text spells. -/
def Segment.ofText (segment : List Char) : Segment :=
  if segment = ['*', '*'] then .anyDepth else .name (tokens segment)

/-- The segments with each run of neighbouring `**` merged into one. -/
def mergeAnyDepth : List Segment → List Segment
  | [] => []
  | s :: rest =>
    match s, mergeAnyDepth rest with
    | .anyDepth, .anyDepth :: rest' => .anyDepth :: rest'
    | s, rest' => s :: rest'

/-- The path with its second separator spelled as a slash. -/
def slashed (g : Glob) : List Char :=
  Text.replaceAll g.separator.toList ['/'] g.path.toList

/-- The segments of a pattern. -/
def segments (g : Glob) : List Segment :=
  mergeAnyDepth ((Text.splitOn '/' g.slashed).map Segment.ofText)

end Glob

end FileDepot
