import FileDepot.Number.Binary64
import FileDepot.Text.Decimal

/-!
# Floating-point numbers as people write them

Contents:

* `Binary64.ofWritten?` — a number with blanks around it, in digits of any script, or a word for what is
  no finite number.
-/

namespace FileDepot.Binary64

/-- The words for infinity. -/
def infinityWords : List String := ["inf", "infinity"]

/-- The word for what is no number. -/
def nanWord : String := "nan"

/-- Reads a number as people write it; letters of either case count the same. -/
def ofWritten? (cs : List Char) : Option Binary64 :=
  let cs := (Text.withoutNumberBlanks cs).map Text.plainDigit
  let (negative, unsigned) := takeSign cs
  let word := String.ofList (unsigned.map Char.toLower)
  if infinityWords.contains word then some (.infinite negative)
  else if word = nanWord then some .nan
  else (Numeral.ofChars? cs).map ofNumeral

end FileDepot.Binary64
