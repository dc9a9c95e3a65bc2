import FileDepot.Text.Digits
import FileDepot.Text.Printable

/-!
# Quoted text

Text and bytes between quotation marks, with escapes for what does not print.

Contents:

* `quoteMark` — an apostrophe, unless the text has an apostrophe and no double quote;
* `quotedChars`, `quoted` — text;
* `quotedBytes` — bytes.
-/

namespace FileDepot.Text

/-- The mark around a text: an apostrophe, unless the text has one and no double quote. -/
def quoteMark (cs : List Char) : Char :=
  if cs.contains '\'' && !cs.contains '"' then '"' else '\''

/-- One character between the marks `mark`. -/
def quotedChar (mark c : Char) : List Char :=
  if c = mark || c = '\\' then ['\\', c]
  else if c = '\n' then ['\\', 'n']
  else if c = '\r' then ['\\', 'r']
  else if c = '\t' then ['\\', 't']
  else if isPrinting c then [c]
  else
    let n := c.toNat
    if n < 0x100 then '\\' :: 'x' :: hexFixed 2 n
    else if n < 0x10000 then '\\' :: 'u' :: hexFixed 4 n
    else '\\' :: 'U' :: hexFixed 8 n

/-- A text between marks. -/
def quotedChars (cs : List Char) : List Char :=
  let mark := quoteMark cs
  mark :: cs.flatMap (quotedChar mark) ++ [mark]

/-- A string between marks. -/
def quoted (s : String) : String :=
  String.ofList (quotedChars s.toList)

/-- One byte between the marks `mark`. -/
def quotedByte (mark : Char) (b : UInt8) : List Char :=
  let c := Char.ofNat b.toNat
  if c = mark || c = '\\' then ['\\', c]
  else if c = '\n' then ['\\', 'n']
  else if c = '\r' then ['\\', 'r']
  else if c = '\t' then ['\\', 't']
  else if 32 ≤ b.toNat && b.toNat < 127 then [c]
  else '\\' :: 'x' :: hexFixed 2 b.toNat

/-- Bytes between marks, behind the letter that tells them from text. -/
def quotedBytes (bs : Bytes) : String :=
  let mark := quoteMark (bs.map fun b => Char.ofNat b.toNat)
  String.ofList ('b' :: mark :: bs.flatMap (quotedByte mark) ++ [mark])

end FileDepot.Text
