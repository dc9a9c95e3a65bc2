import FileDepot.Proofs.Glob.Levels

/-!
# Patterns that are names

A pattern without a wildcard is a name. Its expression spells each character of the name literally and puts it
together again at the slashes, so that it has the name as its only word. It accepts that word with a line feed
behind it, too, as every expression does that ends with a line stop.

Contents:

* `Plain` — text without a wildcard, with `Plain.tokens` for a segment of such text;
* `mem_wordsOf_literals`, `forall₂_words_plain` — the words of one segment and of several;
* `mem_words_plain` — the only word of a name;
* `matches_of_name` — what a name accepts as a pattern.
-/

namespace FileDepot.Glob

open Regex

/-! ## Text without wildcards -/

/-- The text has no wildcard. -/
def Plain (cs : List Char) : Prop :=
  ∀ c ∈ cs, c ∉ wildcards

theorem plain_of_hasWildcard {path : String} (h : (withSeparator path none).hasWildcard = false) :
    Plain path.toList := by
  rw [hasWildcard, List.any_eq_false] at h
  intro c hc hmem
  exact h c hc (List.contains_iff_mem.mpr hmem)

theorem Plain.ne {cs : List Char} (h : Plain cs) {c : Char} (hc : c ∈ cs) :
    c ≠ '*' ∧ c ≠ '?' ∧ c ≠ '[' := by
  refine ⟨?_, ?_, ?_⟩ <;>
  · rintro rfl
    exact h _ hc (by decide)

/-- A segment without a wildcard is made of its characters. -/
theorem Plain.tokens {cs : List Char} (h : Plain cs) : tokens cs = cs.map .literal := by
  show tokensFrom false cs = _
  induction cs with
  | nil => exact tokensFrom_nil false
  | cons c cs ih =>
    rw [tokensFrom_literal false (h.ne List.mem_cons_self),
      ih fun d hd => h d (List.mem_cons_of_mem _ hd), List.map_cons]

theorem mem_wordsOf_literals {cs w : List Char} : w ∈ wordsOf (cs.map .literal) ↔ w = cs := by
  induction cs generalizing w with
  | nil => exact mem_wordsOf_nil
  | cons c cs ih =>
    rw [List.map_cons, mem_wordsOf_literal]
    constructor
    · rintro ⟨v, rfl, hv⟩
      rw [ih.mp hv]
    · rintro rfl
      exact ⟨cs, rfl, ih.mpr rfl⟩

/-- Segments without wildcards have their own texts as words, and no others. -/
theorem forall₂_words_plain {ps pieces : List (List Char)} (h : ∀ p ∈ ps, Plain p) :
    List.Forall₂ (fun p u => u ∈ wordsOf (tokens p)) ps pieces ↔ pieces = ps := by
  induction ps generalizing pieces with
  | nil => exact List.forall₂_nil_left_iff
  | cons p ps ih =>
    obtain ⟨hp, hps⟩ := List.forall_mem_cons.mp h
    rw [List.forall₂_cons_left_iff]
    simp only [hp.tokens, mem_wordsOf_literals, ih hps]
    constructor
    · rintro ⟨_, _, rfl, rfl, rfl⟩
      rfl
    · rintro rfl
      exact ⟨p, ps, rfl, rfl, rfl⟩

/-! ## Names as patterns -/

section

variable {path : String} (h : Plain path.toList)

include h

theorem plain_of_mem_splitOn : ∀ p ∈ Text.splitOn '/' path.toList, Plain p :=
  fun _ hp _ hc => h _ (Text.subset_of_mem_splitOn hp hc)

theorem anySegments_notMem_of_plain : anySegments ∉ Text.splitOn '/' path.toList := by
  intro hany
  exact ((plain_of_mem_splitOn h _ hany).ne List.mem_cons_self).1 rfl

/-- A name has no classes, and so no range that runs downwards. -/
theorem upright_of_plain : (withSeparator path (some "/")).Upright := by
  have hany := anySegments_notMem_of_plain h
  unfold Upright
  rw [segments_withSlash, mergeAny_of_notMem hany]
  intro s hs
  obtain ⟨p, hp, rfl⟩ := List.mem_map.mp hs
  have hne : p ≠ anySegments := fun heq => hany (heq ▸ hp)
  rw [ofText_of_ne hne, (plain_of_mem_splitOn h p hp).tokens]
  intro t ht
  obtain ⟨c, -, rfl⟩ := List.mem_map.mp ht
  exact trivial

/-- **A name has one word**, its own text. -/
theorem mem_words_plain {w : List Char} :
    w ∈ (sequence (withSeparator path (some "/")).parts).words {} ↔ w = path.toList := by
  have hany := anySegments_notMem_of_plain h
  rw [parts, segments_withSlash, mergeAny_of_notMem hany]
  refine (mem_pathWords_names (Text.splitOn_ne_nil '/' path.toList) hany).trans ?_
  simp only [forall₂_words_plain (plain_of_mem_splitOn h), exists_eq_right, Text.joinWith_splitOn]

end

/-- **As a pattern a name accepts itself**, with or without a line feed behind it. -/
theorem matches_of_name {path : String} (h : (withSeparator path none).hasWildcard = false) (name : String) :
    (withSeparator path none).matches name = .ok (name == path || name == path ++ "\n") := by
  have hplain := plain_of_hasWildcard h
  obtain ⟨accepted, hmatch, hiff⟩ := matches_eq (upright_of_plain hplain) name
  have hsame : accepted = (name == path || name == path ++ "\n") := by
    rw [Bool.eq_iff_iff, hiff, Bool.or_eq_true, beq_iff_eq, beq_iff_eq, ← String.toList_inj,
      ← String.toList_inj, String.toList_append]
    simp only [mem_words_plain hplain, exists_eq_left]
    exact Iff.rfl
  rw [← hsame]
  exact hmatch

end FileDepot.Glob
