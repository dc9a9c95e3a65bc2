import FileDepot.Text.Pieces

/-!
# Splitting characterised

A text is split into the only pieces without separator that make it up.

Contents:

* `cutAt?_eq_some` — the cut is at the first separator;
* `splitOn_append_cons` — the pieces of a text on both sides of one of its separators;
* `splitOn_eq_cons` — the pieces of a text, the first of them and those with a separator in front;
* `splitOn_joinWith`, `length_splitOn` — the pieces of a join, and how many pieces a text has;
* `append_sep_inj` — one place to cut a text behind a given number of separators;
* `replaceAll_singleton` — one character replaced by another wherever it stands.
-/

namespace FileDepot.Text

/-- The cut is at the first separator. -/
theorem cutAt?_eq_some {sep : Char} {cs a b : List Char} :
    cutAt? sep cs = some (a, b) ↔ cs = a ++ sep :: b ∧ sep ∉ a := by
  induction cs generalizing a b with
  | nil => simp [cutAt?]
  | cons c cs ih =>
    by_cases hc : c = sep
    · cases a with
      | nil => simp [cutAt?, hc]
      | cons d a =>
        simp only [cutAt?, hc, if_true, Option.some.injEq, Prod.mk.injEq, reduceCtorEq, false_and,
          List.cons_append, List.cons.injEq, List.mem_cons, not_or, false_iff]
        rintro ⟨⟨rfl, -⟩, h, -⟩
        exact h rfl
    · cases a with
      | nil => simp [cutAt?, hc]
      | cons d a =>
        simp only [cutAt?, if_neg hc, Option.map_eq_some_iff, Prod.exists, Prod.mk.injEq, ih,
          List.cons.injEq, List.cons_append, List.mem_cons, not_or]
        constructor
        · rintro ⟨a', b', ⟨rfl, ha⟩, ⟨rfl, rfl⟩, rfl⟩
          exact ⟨⟨rfl, rfl⟩, Ne.symm hc, ha⟩
        · rintro ⟨⟨rfl, rfl⟩, -, ha⟩
          exact ⟨a, b, ⟨rfl, ha⟩, ⟨rfl, rfl⟩, rfl⟩

theorem splitOn_cons_of_ne {sep c : Char} (hc : c ≠ sep) {cs piece : List Char}
    {rest : List (List Char)} (h : splitOn sep cs = piece :: rest) :
    splitOn sep (c :: cs) = (c :: piece) :: rest := by
  rw [splitOn, if_neg hc, h]

/-- The pieces in front of a separator and those behind it are split apart. -/
theorem splitOn_append_cons (sep : Char) (cs ds : List Char) :
    splitOn sep (cs ++ sep :: ds) = splitOn sep cs ++ splitOn sep ds := by
  induction cs with
  | nil => simp [splitOn]
  | cons c cs ih =>
    by_cases hc : c = sep
    · simp [splitOn, hc, ih]
    · obtain ⟨piece, rest, hsplit⟩ := List.exists_cons_of_ne_nil (splitOn_ne_nil sep cs)
      rw [hsplit, List.cons_append] at ih
      rw [List.cons_append, splitOn_cons_of_ne hc ih, splitOn_cons_of_ne hc hsplit, List.cons_append]

theorem splitOn_of_notMem {sep : Char} {piece : List Char} (hpiece : sep ∉ piece) :
    splitOn sep piece = [piece] := by
  induction piece with
  | nil => rfl
  | cons c piece ih =>
    obtain ⟨hc, hpiece⟩ : sep ≠ c ∧ sep ∉ piece := by simpa using hpiece
    exact splitOn_cons_of_ne (Ne.symm hc) (ih hpiece)

/-- A piece and a separator come off in front. -/
theorem splitOn_append_sep {sep : Char} {piece : List Char} (hpiece : sep ∉ piece) (cs : List Char) :
    splitOn sep (piece ++ sep :: cs) = piece :: splitOn sep cs := by
  rw [splitOn_append_cons, splitOn_of_notMem hpiece, List.singleton_append]

theorem notMem_of_mem_splitOn {sep : Char} {cs piece : List Char} (h : piece ∈ splitOn sep cs) :
    sep ∉ piece := by
  induction cs generalizing piece with
  | nil => simp_all [splitOn]
  | cons c cs ih =>
    by_cases hc : c = sep
    · rw [splitOn, if_pos hc] at h
      rcases List.mem_cons.mp h with rfl | h
      · simp
      · exact ih h
    · obtain ⟨first, rest, hsplit⟩ := List.exists_cons_of_ne_nil (splitOn_ne_nil sep cs)
      rw [splitOn_cons_of_ne hc hsplit] at h
      rcases List.mem_cons.mp h with rfl | h
      · simp [Ne.symm hc, ih (hsplit ▸ List.mem_cons_self)]
      · exact ih (hsplit ▸ List.mem_cons_of_mem _ h)

/-- Behind the first piece each of the others stands behind a separator. -/
theorem joinWith_cons (sep : Char) (piece : List Char) (rest : List (List Char)) :
    joinWith sep (piece :: rest) = piece ++ rest.flatMap (sep :: ·) := by
  induction rest generalizing piece with
  | nil => simp [joinWith]
  | cons p rest ih =>
    rw [joinWith_cons_cons sep piece (List.cons_ne_nil p rest), ih, List.flatMap_cons]
    rfl

/-- **The pieces of a text** are those without separator that make it up with separators in between. -/
theorem splitOn_eq_cons {sep : Char} {cs piece : List Char} {rest : List (List Char)} :
    splitOn sep cs = piece :: rest ↔
      cs = piece ++ rest.flatMap (sep :: ·) ∧ ∀ p ∈ piece :: rest, sep ∉ p := by
  constructor
  · intro h
    refine ⟨?_, fun p hp => notMem_of_mem_splitOn (h ▸ hp)⟩
    rw [← joinWith_splitOn sep cs, h, joinWith_cons]
  · rintro ⟨rfl, hfree⟩
    induction rest generalizing piece with
    | nil => simpa using splitOn_of_notMem (hfree piece (by simp))
    | cons p rest ih =>
      rw [List.flatMap_cons, List.cons_append, splitOn_append_sep (hfree piece (by simp)),
        ih fun q hq => hfree q (List.mem_cons_of_mem _ hq)]

theorem subset_of_mem_splitOn {sep : Char} {cs piece : List Char} (h : piece ∈ splitOn sep cs) :
    piece ⊆ cs := by
  obtain ⟨first, rest, hsplit⟩ := List.exists_cons_of_ne_nil (splitOn_ne_nil sep cs)
  obtain ⟨rfl, -⟩ := splitOn_eq_cons.mp hsplit
  rw [hsplit] at h
  intro c hc
  rcases List.mem_cons.mp h with rfl | h
  · exact List.mem_append_left _ hc
  · exact List.mem_append_right _ (List.mem_flatMap.mpr ⟨piece, h, List.mem_cons_of_mem _ hc⟩)

/-- Pieces with a separator behind each come off in front. -/
theorem splitOn_flatMap_append {sep : Char} {pieces : List (List Char)} (h : ∀ p ∈ pieces, sep ∉ p)
    (cs : List Char) :
    splitOn sep (pieces.flatMap (· ++ [sep]) ++ cs) = pieces ++ splitOn sep cs := by
  induction pieces with
  | nil => rfl
  | cons p pieces ih =>
    obtain ⟨hp, hpieces⟩ := List.forall_mem_cons.mp h
    rw [List.flatMap_cons, List.append_assoc, List.append_assoc, List.singleton_append,
      splitOn_append_sep hp, ih hpieces, List.cons_append]

/-- Pieces without separator are the pieces of what they are joined to. -/
theorem splitOn_joinWith {sep : Char} {pieces : List (List Char)} (hne : pieces ≠ [])
    (hfree : ∀ p ∈ pieces, sep ∉ p) : splitOn sep (joinWith sep pieces) = pieces := by
  obtain ⟨piece, rest, rfl⟩ := List.exists_cons_of_ne_nil hne
  exact splitOn_eq_cons.mpr ⟨joinWith_cons sep piece rest, hfree⟩

/-- A text has one piece more than separators. -/
theorem length_splitOn (sep : Char) (cs : List Char) : (splitOn sep cs).length = cs.count sep + 1 := by
  induction cs with
  | nil => rfl
  | cons c cs ih =>
    by_cases hc : c = sep
    · rw [splitOn, if_pos hc, List.length_cons, ih, hc, List.count_cons_self]
    · obtain ⟨piece, rest, hsplit⟩ := List.exists_cons_of_ne_nil (splitOn_ne_nil sep cs)
      rw [splitOn_cons_of_ne hc hsplit, List.count_cons_of_ne hc, ← ih, hsplit]
      rfl

/-- Texts with the same pieces are the same. -/
theorem splitOn_injective {sep : Char} {cs ds : List Char} (h : splitOn sep cs = splitOn sep ds) :
    cs = ds := by
  rw [← joinWith_splitOn sep cs, h, joinWith_splitOn]

/-- Behind a given number of separators there is one place to cut a text. -/
theorem append_sep_inj {sep : Char} {cs ds cs' ds' : List Char} (h : cs ++ sep :: ds = cs' ++ sep :: ds')
    (hcount : cs.count sep = cs'.count sep) : cs = cs' ∧ ds = ds' := by
  have hpieces := congrArg (splitOn sep) h
  rw [splitOn_append_cons, splitOn_append_cons] at hpieces
  have hlength : (splitOn sep cs).length = (splitOn sep cs').length := by
    rw [length_splitOn, length_splitOn, hcount]
  obtain ⟨hfront, hbehind⟩ := List.append_inj hpieces hlength
  exact ⟨splitOn_injective hfront, splitOn_injective hbehind⟩

/-! ## One character for another -/

/-- One character is replaced wherever it stands. -/
theorem replaceAll_singleton (old new : Char) (cs : List Char) :
    replaceAll [old] [new] cs = cs.map fun c => if c = old then new else c := by
  show replaceFrom [old] [new] 0 cs = _
  induction cs with
  | nil => rfl
  | cons c cs ih =>
    by_cases hc : c = old
    · subst hc
      simp [replaceFrom, dropPrefix?, ih]
    · simp [replaceFrom, dropPrefix?, Ne.symm hc, hc, ih]

end FileDepot.Text
