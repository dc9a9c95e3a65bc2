/-!
# Signed words

The whole numbers that a signed word of 64 bits holds.

Contents:

* `Word.limit` — the first number above them;
* `Word.holds` — the number is one of them.
-/

namespace FileDepot.Word

/-- The first whole number above those of a signed word, the 63rd power of two. -/
def limit : Int := 9223372036854775808

/-- A signed word holds the number. -/
def holds (n : Int) : Bool :=
  -limit ≤ n && n < limit

end FileDepot.Word
