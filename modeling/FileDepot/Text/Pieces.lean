/-!
# Taking text apart

Splitting, searching and replacing over lists of characters.

Contents:

* `dropPrefix?` — the text behind a given beginning;
* `splitOn` — the pieces between the occurrences of one character;
* `cutAt?` — the text before and after the first occurrence of a character;
* `replaceAll` — every occurrence of one text replaced by another, left to right.

Main statement: `joinWith_splitOn` — joining the pieces with the same character gives the text back.
-/

namespace FileDepot.Text

/-- What follows a given beginning, if the text has that beginning. -/
def dropPrefix? : List Char → List Char → Option (List Char)
  | [], cs => some cs
  | _ :: _, [] => none
  | p :: ps, c :: cs => if p = c then dropPrefix? ps cs else none

/-- The pieces of the text between the occurrences of `sep`; never an empty list. -/
def splitOn (sep : Char) : List Char → List (List Char)
  | [] => [[]]
  | c :: cs =>
    if c = sep then [] :: splitOn sep cs
    else
      match splitOn sep cs with
      | [] => [[c]]
      | piece :: rest => (c :: piece) :: rest

/-- The pieces with `sep` between each two of them. -/
def joinWith (sep : Char) : List (List Char) → List Char
  | [] => []
  | [piece] => piece
  | piece :: rest => piece ++ sep :: joinWith sep rest

/-- The text before and the text after the first `sep`. -/
def cutAt? (sep : Char) : List Char → Option (List Char × List Char)
  | [] => none
  | c :: cs => if c = sep then some ([], cs) else (cutAt? sep cs).map fun (a, b) => (c :: a, b)

/-- Occurrences of `old`, found from the left and without overlap, replaced by `new`; `skip` counts
the characters of an occurrence that are still to be passed over. -/
def replaceFrom (old new : List Char) : Nat → List Char → List Char
  | _, [] => []
  | skip + 1, _ :: cs => replaceFrom old new skip cs
  | 0, c :: cs =>
    match dropPrefix? old (c :: cs) with
    | some _ => new ++ replaceFrom old new (old.length - 1) cs
    | none => c :: replaceFrom old new 0 cs

/-- Every occurrence of the non-empty text `old` replaced by `new`. -/
def replaceAll (old new : List Char) (cs : List Char) : List Char :=
  if old.isEmpty then cs else replaceFrom old new 0 cs

/-- Strings joined with a separator between each two of them. -/
def commaJoin (sep : String) (parts : List String) : String :=
  String.intercalate sep parts

/-! ## Splitting and joining -/

theorem splitOn_ne_nil (sep : Char) (cs : List Char) : splitOn sep cs ≠ [] := by
  cases cs with
  | nil => simp [splitOn]
  | cons c cs =>
    simp only [splitOn]
    split
    · simp
    · split <;> simp

theorem joinWith_cons_cons (sep : Char) (piece : List Char) {rest : List (List Char)}
    (h : rest ≠ []) : joinWith sep (piece :: rest) = piece ++ sep :: joinWith sep rest := by
  cases rest with
  | nil => exact absurd rfl h
  | cons => rfl

theorem joinWith_cons_head (sep c : Char) (piece : List Char) (rest : List (List Char)) :
    joinWith sep ((c :: piece) :: rest) = c :: joinWith sep (piece :: rest) := by
  cases rest <;> rfl

theorem joinWith_splitOn (sep : Char) (cs : List Char) : joinWith sep (splitOn sep cs) = cs := by
  induction cs with
  | nil => rfl
  | cons c cs ih =>
    by_cases h : c = sep
    · simp [splitOn, h, joinWith_cons_cons sep [] (splitOn_ne_nil sep cs), ih]
    · simp only [splitOn, h, if_false]
      split
      · next heq => exact absurd heq (splitOn_ne_nil sep cs)
      · next piece rest heq => rw [joinWith_cons_head, ← heq, ih]

end FileDepot.Text
