import FileDepot.Text.Digits
import FileDepot.Text.Pieces

/-!
# Identifiers

Contents:

* `ObjectId` — the identifier of a stored file, 24 hexadecimal digits;
* `Uuid` — an identifier of 32 hexadecimal digits in five groups.
-/

namespace FileDepot

/-- The value of hexadecimal digits of either case. -/
def Text.hexNumber? (cs : List Char) : Option Nat :=
  cs.foldlM (fun n c => (Text.hexValue? c).map fun d => 16 * n + d) 0

/-- An identifier of 24 hexadecimal digits. -/
structure ObjectId where
  value : Nat
  deriving Repr, DecidableEq, Inhabited

namespace ObjectId

/-- The identifier as digits. -/
def render (i : ObjectId) : String :=
  String.ofList (Text.hexFixed 24 i.value)

/-- Reads 24 hexadecimal digits of either case, and nothing else. -/
def ofText? (s : String) : Option ObjectId :=
  let cs := s.toList
  if cs.length = 24 then (Text.hexNumber? cs).map ObjectId.mk else none

end ObjectId

/-- An identifier of 32 hexadecimal digits. -/
structure Uuid where
  value : Nat
  deriving Repr, DecidableEq, Inhabited

namespace Uuid

/-- The identifier as digits in groups of 8, 4, 4, 4 and 12. -/
def render (u : Uuid) : String :=
  let digits := Text.hexFixed 32 u.value
  let group (start count : Nat) := (digits.drop start).take count
  String.ofList (Text.joinWith '-' [group 0 8, group 8 4, group 12 4, group 16 4, group 20 12])

/-- Reads 32 hexadecimal digits; dashes between and braces around them do not count. -/
def ofText? (s : String) : Option Uuid :=
  let digits := s.toList.filter fun c => c != '-' && c != '\x7b' && c != '\x7d'
  if digits.length = 32 then (Text.hexNumber? digits).map Uuid.mk else none

end Uuid

end FileDepot
