import FileDepot.Files.Tree
import FileDepot.Text.Encoding
import FileDepot.Value.Access

/-!
# Files of logs

Contents:

* `Value.filePath?` — the path that a value gives;
* `LogFile.Mode`, `LogFile.Mode.ofValue?` — the ways to open a file;
* `LogFile.mentionsBytes?` — a mode speaks of bytes;
* `LogFile.opened` — a tree after a file has been opened, and whether it could be.

Opening may change a tree although it fails: the file is made before the name of an encoding is looked up.
-/

namespace FileDepot

/-- A character for a byte that is a part of no text. -/
def strayCharacter (b : UInt8) : Char :=
  Char.ofNat (0xF0000 + b.toNat)

/-- The path that bytes spell. Where they spell no text each stands for itself. -/
def pathOfBytes (bs : Bytes) : String :=
  (Text.stringOfBytes? bs).getD (String.ofList (bs.map strayCharacter))

/-- The path that a value gives. -/
def Value.filePath? : Value → Option String
  | .text s => some s
  | .textMember s => some s
  | .bytes bs => some (pathOfBytes bs)
  | .binary bs _ => some (pathOfBytes bs)
  | .path p => some p.render
  | _ => none

namespace LogFile

/-! ## Modes -/

/-- What becomes of a file that is opened. -/
inductive Way
  /-- It is added to, and made if it is missing. -/
  | append
  /-- It starts anew. -/
  | renew
  /-- It is made; it must be missing. -/
  | create
  /-- It stays; it must be there. -/
  | keep
  deriving Repr, DecidableEq

/-- The letter of a way. -/
def wayOf? : Char → Option Way
  | 'a' => some .append
  | 'w' => some .renew
  | 'x' => some .create
  | 'r' => some .keep
  | _ => none

/-- A way to open a file, as text or as bytes. -/
structure Mode where
  way : Way
  bytes : Bool
  deriving Repr, DecidableEq

/-- The mode that a text names: the letter of one way, and at most once each the letter for text or for
bytes and the sign for reading as well. -/
def Mode.ofText? (s : String) : Option Mode :=
  let cs := s.toList
  if !(cs.all fun c => "awxrtb+".toList.contains c) then none
  else if cs.eraseDups.length != cs.length then none
  else if cs.contains 't' && cs.contains 'b' then none
  else
    match cs.filterMap wayOf? with
    | [way] => some ⟨way, cs.contains 'b'⟩
    | _ => none

/-- The mode that a value names. -/
def Mode.ofValue? (v : Value) : Option Mode :=
  v.text?.bind Mode.ofText?

/-- The letter for bytes. -/
def bytesLetter : Char := 'b'

/-- Whether a value that stands for a mode mentions the letter for bytes; a value in which nothing can be
looked for gives no answer. -/
def mentionsBytes? (v : Value) : Option Bool :=
  match v with
  | .bytes _ | .binary _ _ | .foreign (.buffer _ _) => none
  | v => v.elements?.map fun vs => Value.among (.text (String.singleton bytesLetter)) vs

/-! ## Opening -/

/-- The value is a text without nulls, or null. -/
def isOptionalText (v : Value) : Bool :=
  v.isNull || v.text?.any fun s => !s.toList.contains '\x00'

/-- The tree after a file has been opened in one of the ways, if it can be. -/
def Way.enter? (t : FileTree) (path : String) : Way → Option FileTree
  | .append => (t.touch path).toOption
  | .renew => (t.write path []).toOption
  | .create => if (t.find? path).isSome then none else (t.write path []).toOption
  | .keep => if t.isFile path then some t else none

/-- The tree after a file has been opened, and whether it could be. Bytes have no encoding. -/
def opened (t : FileTree) (path : String) (mode encoding errors : Value) : FileTree × Bool :=
  match Mode.ofValue? mode with
  | none => (t, false)
  | some m =>
    if !(isOptionalText encoding && isOptionalText errors) then (t, false)
    else if m.bytes && !(encoding.isNull && errors.isNull) then (t, false)
    else
      match m.way.enter? t path with
      | none => (t, false)
      | some t => (t, encoding.isNull || encoding.text?.any Text.isEncodingName)

end LogFile

end FileDepot
