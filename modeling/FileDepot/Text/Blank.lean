/-!
# Blank characters

The characters that count as blank when text is stripped or tested for content.

Contents:

* `isBlank` — membership in the class;
* `strip` — text without the blanks at both ends;
* `hasContent` — some character is not blank.

Main statements: `strip_eq_nil_iff` (nothing is left exactly when every character is blank) and
`hasContent_iff_strip_ne_nil`.
-/

namespace FileDepot.Text

/-- The Unicode white-space characters together with the four information separators. -/
def isBlank (c : Char) : Bool :=
  let n := c.toNat
  (9 ≤ n && n ≤ 13) || (28 ≤ n && n ≤ 32) || n == 0x85 || n == 0xA0 || n == 0x1680 ||
    (0x2000 ≤ n && n ≤ 0x200A) || n == 0x2028 || n == 0x2029 || n == 0x202F || n == 0x205F ||
    n == 0x3000

/-- Text without the blanks at its end. -/
def stripEnd (cs : List Char) : List Char :=
  (cs.reverse.dropWhile isBlank).reverse

/-- Text without the blanks at its start and its end. -/
def strip (cs : List Char) : List Char :=
  stripEnd (cs.dropWhile isBlank)

/-- Some character of the text is not blank. -/
def hasContent (cs : List Char) : Bool :=
  cs.any fun c => !isBlank c

/-- A string without the blanks at its start and its end. -/
def stripped (s : String) : String :=
  String.ofList (strip s.toList)

/-- A string has no character or blank ones only. -/
def isBlankText (s : String) : Bool :=
  !hasContent s.toList

/-- The blanks of bytes: the space and the controls that move the place of writing. -/
def isBlankByte (b : UInt8) : Bool :=
  b == 32 || (9 ≤ b && b ≤ 13)

/-! ## What stripping leaves -/

theorem dropWhile_isBlank_eq_nil_iff {cs : List Char} :
    cs.dropWhile isBlank = [] ↔ ∀ c ∈ cs, isBlank c = true := by
  induction cs with
  | nil => simp
  | cons c cs ih => by_cases h : isBlank c <;> simp [h, ih]

theorem stripEnd_eq_nil_iff {cs : List Char} :
    stripEnd cs = [] ↔ ∀ c ∈ cs, isBlank c = true := by
  rw [stripEnd, List.reverse_eq_nil_iff, dropWhile_isBlank_eq_nil_iff]
  simp only [List.mem_reverse]

theorem dropWhile_isBlank_all {cs : List Char} (h : ∀ c ∈ cs.dropWhile isBlank, isBlank c = true) :
    ∀ c ∈ cs, isBlank c = true := by
  induction cs with
  | nil => simp
  | cons c cs ih =>
    by_cases hc : isBlank c
    · simp only [List.dropWhile_cons, hc, if_true] at h
      intro d hd
      rcases List.mem_cons.1 hd with rfl | hd
      · exact hc
      · exact ih h d hd
    · simp only [List.dropWhile_cons, hc, Bool.false_eq_true, if_false] at h
      exact h

theorem strip_eq_nil_iff {cs : List Char} : strip cs = [] ↔ ∀ c ∈ cs, isBlank c = true := by
  rw [strip, stripEnd_eq_nil_iff]
  exact ⟨dropWhile_isBlank_all, fun h c hc => h c ((List.dropWhile_sublist _).subset hc)⟩

theorem hasContent_iff_strip_ne_nil {cs : List Char} : hasContent cs = true ↔ strip cs ≠ [] := by
  rw [Ne, strip_eq_nil_iff]
  simp [hasContent]

end FileDepot.Text
