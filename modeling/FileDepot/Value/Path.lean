import FileDepot.Text.Case
import FileDepot.Text.Pieces

/-!
# Path values

A path that occurs inside metadata, in one of two styles. It is kept in parts and never touches a file.

Contents:

* `PathStyle`, `PathValue` — the paths;
* `PathValue.ofText` — the parts of a path;
* `PathValue.render` — the path with single separators;
* `PathValue.compared` — the parts by which two paths are compared.
-/

namespace FileDepot

/-- How a path is written: with slashes, or with backslashes and drives. -/
inductive PathStyle
  | slash
  | drive
  deriving Repr, DecidableEq, Inhabited

/-- A path in parts, without empty parts and parts that are a single dot. -/
structure PathValue where
  style : PathStyle
  drive : List Char
  root : List Char
  parts : List (List Char)
  deriving Repr, DecidableEq, Inhabited

namespace PathValue

/-- The parts of a relative path that count. -/
def properParts (separator : Char) (cs : List Char) : List (List Char) :=
  (Text.splitOn separator cs).filter fun part => part != [] && part != ['.']

/-- A path with slashes. Exactly two slashes in front are kept; otherwise one stands for all. -/
def ofSlashed (cs : List Char) : PathValue :=
  let slashes := (cs.takeWhile (· == '/')).length
  let root := if slashes = 0 then [] else if slashes = 2 then ['/', '/'] else ['/']
  ⟨.slash, [], root, properParts '/' cs⟩

/-- The prefix that opens the extended names of a path with backslashes, and what follows it; a path to a
server keeps the two separators in front of the server. -/
def splitExtended (cs : List Char) : List Char × List Char :=
  match Text.dropPrefix? "\\\\?\\".toList cs with
  | none => ([], cs)
  | some rest =>
    match Text.dropPrefix? "UNC\\".toList rest with
    | none => (cs.take 4, rest)
    | some server => (cs.take 7, '\\' :: '\\' :: server)

/-- The server with its share, and the rest of what follows two separators. There is none without a
share, or with an empty one that another separator follows. -/
def splitServer? (cs : List Char) : Option (List Char × List Char) :=
  match Text.cutAt? '\\' cs with
  | none | some ([], _) => none
  | some (server, rest) =>
    match Text.cutAt? '\\' rest with
    | none => some (server ++ '\\' :: rest, [])
    | some ([], _) => none
    | some (share, rest) => some (server ++ '\\' :: share, rest)

/-- The root of a path, and the rest: any number of separators in front is one root. -/
def splitRoot (cs : List Char) : List Char × List Char :=
  if cs.head? = some '\\' then (['\\'], cs.dropWhile (· == '\\')) else ([], cs)

/-- The letter and colon in front of a path, and the rest. -/
def splitLetter : List Char → List Char × List Char
  | letter :: ':' :: rest => if letter.isAlpha then ([letter, ':'], rest) else ([], letter :: ':' :: rest)
  | rest => ([], rest)

/-- The drive, root and rest of a path with backslashes. -/
def splitDrive (cs : List Char) : List Char × List Char × List Char :=
  let (opening, cs) := splitExtended cs
  let server :=
    match cs with
    | '\\' :: '\\' :: rest => splitServer? rest
    | _ => none
  match server with
  | some (server, rest) =>
    let separators := if opening.isEmpty then ['\\', '\\'] else ['\\']
    (opening ++ separators ++ server, ['\\'], rest)
  | none =>
    let (letter, rest) := splitLetter cs
    let (root, rest) := splitRoot rest
    (opening ++ letter, root, rest)

/-- A path with drives; slashes count as backslashes. -/
def ofDriven (cs : List Char) : PathValue :=
  let (drive, root, rest) := splitDrive (cs.map fun c => if c = '/' then '\\' else c)
  ⟨.drive, drive, root, properParts '\\' rest⟩

/-- The parts of a path. -/
def ofText (style : PathStyle) (s : String) : PathValue :=
  match style with
  | .slash => ofSlashed s.toList
  | .drive => ofDriven s.toList

/-- The separator of a style. -/
def separator : PathStyle → Char
  | .slash => '/'
  | .drive => '\\'

/-- The path as text; the empty path is a dot. -/
def render (p : PathValue) : String :=
  let cs := p.drive ++ p.root ++ Text.joinWith (separator p.style) p.parts
  if cs.isEmpty then "." else String.ofList cs

/-- The path with slashes between its parts. -/
def slashed (p : PathValue) : String :=
  String.ofList (p.render.toList.map fun c => if c = separator p.style then '/' else c)

/-- The drive with the root, if there is any of them, and the parts, as they are compared: letter case
does not count where there are drives. -/
def compared (p : PathValue) : List String :=
  let anchor := if p.drive.isEmpty && p.root.isEmpty then [] else [p.drive ++ p.root]
  let texts := (anchor ++ p.parts).map String.ofList
  match p.style with
  | .slash => texts
  | .drive => texts.map Text.lowered

/-- The same path. -/
def same (p q : PathValue) : Bool :=
  p.style == q.style && p.compared == q.compared

/-- The first path comes before the second: the first parts that differ decide. -/
def precedes (p q : PathValue) : Bool :=
  p.compared < q.compared

/-- The name of the kind of path. -/
def typeName (p : PathValue) : String :=
  match p.style with
  | .slash => "PurePosixPath"
  | .drive => "PureWindowsPath"

end PathValue

end FileDepot
