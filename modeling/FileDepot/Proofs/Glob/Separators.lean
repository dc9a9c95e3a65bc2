import FileDepot.Proofs.Glob.SegmentWords

/-!
# Two separators for one

A pattern may have a second separator besides the slash. Each of the two stands for both: a pattern reads its
own text with every separator spelled as a slash, and its expression tells neither from the other, unless a
bracket class lists one of them only.

Contents:

* `Exchanged` — a text in which separators have been exchanged;
* `slash` — the spelling with slashes only, with `exchanged_iff` for texts that have the same one;
* `Alike` — a test that does not tell the separators apart;
* `partsFrom_allTests` — what holds of every test in the expressions of segments;
* `mem_words_slash` — a name is a word exactly if its spelling with slashes is one;
* `matches_exchanged` — separators exchanged in a pattern or a name change no answer.
-/

namespace FileDepot.Glob

open Regex

/-- Some of the slashes and of the characters `c` of the text have been exchanged for one another. -/
def Exchanged (c : Char) : List Char → List Char → Prop :=
  List.Forall₂ fun x y => x = y ∨ (x = '/' ∧ y = c) ∨ (x = c ∧ y = '/')

/-- The character with the separator `c` spelled as a slash. -/
def slash (c x : Char) : Char :=
  if x = c then '/' else x

section

variable {c : Char}

/-! ## The spelling with slashes -/

theorem slash_eq_slash_iff {x y : Char} :
    slash c x = slash c y ↔ x = y ∨ (x = '/' ∧ y = c) ∨ (x = c ∧ y = '/') := by
  unfold slash
  by_cases hx : x = c <;> by_cases hy : y = c <;> grind

/-- **Texts are the same up to separators if they are spelled alike with slashes.** -/
theorem exchanged_iff {cs ds : List Char} :
    Exchanged c cs ds ↔ cs.map (slash c) = ds.map (slash c) := by
  rw [← List.forall₂_eq_eq_eq, List.forall₂_map_left_iff, List.forall₂_map_right_iff]
  simp only [slash_eq_slash_iff]
  exact Iff.rfl

theorem slash_self : slash c c = '/' :=
  if_pos rfl

theorem slash_of_ne {x : Char} (h : x ≠ c) : slash c x = x :=
  if_neg h

theorem slash_ne (hslash : c ≠ '/') (x : Char) : slash c x ≠ c := by
  by_cases h : x = c
  · rw [h, slash_self]
    exact Ne.symm hslash
  · rwa [slash_of_ne h]

/-- A character that is no separator is the spelling of itself alone. -/
theorem slash_eq_iff {x d : Char} (hd : d ≠ '/' ∧ d ≠ c) : slash c x = d ↔ x = d := by
  by_cases h : x = c
  · rw [h, slash_self]
    exact iff_of_false (Ne.symm hd.1) (Ne.symm hd.2)
  · rw [slash_of_ne h]

/-- Words that are told by their spelling with slashes are so with a line feed behind them, too. -/
theorem ended_slash (hline : c ≠ '\n') {language : Language Char}
    (hwords : ∀ w, w.map (slash c) ∈ language ↔ w ∈ language) (cs : List Char) :
    (∃ w ∈ language, cs.map (slash c) = w ∨ cs.map (slash c) = w ++ ['\n']) ↔
      ∃ w ∈ language, cs = w ∨ cs = w ++ ['\n'] := by
  constructor
  · rintro ⟨w, hw, hcs | hcs⟩
    · subst hcs
      exact ⟨cs, (hwords cs).mp hw, Or.inl rfl⟩
    · -- only a line feed is spelled as one
      obtain ⟨u, v, rfl, rfl, hv⟩ := List.map_eq_append_iff.mp hcs
      obtain ⟨x, rfl, hx⟩ := List.map_eq_singleton_iff.mp hv
      obtain rfl := (slash_eq_iff ⟨by decide, hline.symm⟩).mp hx
      exact ⟨u, (hwords u).mp hw, Or.inr rfl⟩
  · rintro ⟨w, hw, hcs | hcs⟩
    · subst hcs
      exact ⟨_, (hwords cs).mpr hw, Or.inl rfl⟩
    · subst hcs
      refine ⟨_, (hwords w).mpr hw, Or.inr ?_⟩
      rw [List.map_append, List.map_singleton, slash_of_ne hline.symm]

/-! ## Tests that do not tell separators apart -/

/-- The test takes a character and its spelling with a slash alike. -/
def Alike (c : Char) (t : CharTest) : Prop :=
  ∀ x, t.accepts {} (slash c x) = t.accepts {} x

theorem lists_separators (negated : Bool) (x : Char) :
    CharClass.lists {} ⟨negated, [.char '/', .char c]⟩ x = true ↔ x = '/' ∨ x = c := by
  simp [CharClass.lists, ClassItem.holds, eq_comm (b := x)]

/-- The class of the two separators accepts both or neither, whether it is negated or not. -/
theorem members_alike (negated : Bool) : Alike c (.member ⟨negated, [.char '/', .char c]⟩) := by
  intro x
  have hlists : CharClass.lists {} ⟨negated, [.char '/', .char c]⟩ (slash c x) =
      CharClass.lists {} ⟨negated, [.char '/', .char c]⟩ x := by
    rw [Bool.eq_iff_iff, lists_separators, lists_separators]
    by_cases h : x = c
    · rw [h, slash_self]
      exact iff_of_true (Or.inl rfl) (Or.inr rfl)
    · rw [slash_of_ne h]
  show (CharClass.lists {} _ (slash c x) != negated) = (CharClass.lists {} _ x != negated)
  rw [hlists]

/-- A dot refuses the line feed only, which is no separator. -/
theorem any_alike (hline : c ≠ '\n') : Alike c .any := by
  intro x
  show (slash c x != '\n') = (x != '\n')
  rw [Bool.eq_iff_iff, bne_iff_ne, bne_iff_ne]
  exact not_congr (slash_eq_iff ⟨by decide, hline.symm⟩)

theorem literal_alike {d : Char} (hd : d ≠ '/' ∧ d ≠ c) : Alike c (.literal d) := by
  intro x
  show Options.equates {} d (slash c x) = Options.equates {} d x
  rw [Bool.eq_iff_iff, equates_default, equates_default, eq_comm, slash_eq_iff hd, eq_comm]

/-- What holds of the tests for separators, for other characters and for any, and of those of the parts of
    each segment, holds of every test in the expressions of segments. -/
theorem partsFrom_allTests {P : CharTest → Prop} {extra : List Char} (hseparator : P (separatorTest extra))
    (hother : P (otherTest extra)) (hany : P .any) (first separate : Bool) {segments : List Segment}
    (htokens : ∀ tokens, .name tokens ∈ segments → ∀ t ∈ tokens, (t.regex extra).AllTests P) :
    ∀ r ∈ partsFrom extra first separate segments, r.AllTests P := by
  induction first, separate, segments using partsFrom.induct with
  | case1 => simp [partsFrom]
  | case2 separate => simpa [partsFrom, AllTests] using hany
  | case3 separate first hfirst =>
    simpa [partsFrom, hfirst, AllTests, Regex.optional, Regex.sequence] using ⟨hseparator, hany⟩
  | case4 first separate rest hrest ih =>
    have ih := ih fun tokens h => htokens tokens (List.mem_cons_of_mem _ h)
    rw [partsFrom]
    · cases first <;>
        simpa [AllTests, wholeSegment, Regex.sequence, plus, hseparator, hother] using ih
    · exact hrest
  | case5 first separate tokens rest ih =>
    have ih := ih fun tokens' h => htokens tokens' (List.mem_cons_of_mem _ h)
    have hhere := htokens tokens List.mem_cons_self
    rw [partsFrom]
    cases separate <;> simpa [AllTests, hseparator, or_imp, forall_and] using ⟨hhere, ih⟩

end

/-! ## Patterns with a second separator -/

section

variable {c : Char} (hslash : c ≠ '/')

include hslash

/-- A pattern with a second separator is read in the spelling with slashes. -/
theorem slashed_withSeparator (path : String) :
    (withSeparator path (some (String.singleton c))).slashed = path.toList.map (slash c) := by
  have hne : String.singleton c ≠ "/" := fun h => hslash (String.singleton_inj.mp h)
  rw [withSeparator, slashed, if_neg hne, String.toList_singleton, Text.replaceAll_singleton]
  rfl

theorem separator_withSeparator (path : String) :
    (withSeparator path (some (String.singleton c))).separator = String.singleton c :=
  if_neg fun h => hslash (String.singleton_inj.mp h)

/-- Patterns of the same spelling have the same expression. -/
theorem matches_of_exchanged {path path' : String} (hpath : Exchanged c path.toList path'.toList)
    (name : String) :
    (withSeparator path' (some (String.singleton c))).matches name =
      (withSeparator path (some (String.singleton c))).matches name := by
  have hsegments : (withSeparator path' (some (String.singleton c))).segments =
      (withSeparator path (some (String.singleton c))).segments := by
    rw [segments, segments, slashed_withSeparator hslash, slashed_withSeparator hslash,
      exchanged_iff.mp hpath]
  have hexpression : (withSeparator path' (some (String.singleton c))).expressionChars =
      (withSeparator path (some (String.singleton c))).expressionChars := by
    rw [expressionChars, expressionChars, hsegments, separator_withSeparator hslash,
      separator_withSeparator hslash]
  rw [Glob.matches, Glob.matches, hexpression]

/-- The characters that a pattern means literally are no separators. -/
theorem ne_of_literal {path : String} {tokens : List Token} {d : Char}
    (htokens : .name tokens ∈ (withSeparator path (some (String.singleton c))).segments)
    (hd : .literal d ∈ tokens) : d ≠ '/' ∧ d ≠ c := by
  obtain ⟨text, htext, hname⟩ := List.mem_map.mp (mem_of_mem_mergeAnyDepth htokens)
  have hmem : d ∈ text := by
    unfold Segment.ofText at hname
    split at hname
    · cases hname
    · cases hname
      exact mem_of_literal_mem_tokensFrom hd
  constructor
  · rintro rfl
    exact Text.notMem_of_mem_splitOn htext hmem
  · have hspelled := Text.subset_of_mem_splitOn htext hmem
    rw [slashed_withSeparator hslash] at hspelled
    obtain ⟨x, -, rfl⟩ := List.mem_map.mp hspelled
    exact slash_ne hslash x

/-- **A name is a word of a pattern exactly if its spelling with slashes is one.** No bracket class may tell
    one separator from the other. -/
theorem mem_words_slash (hline : c ≠ '\n') {path : String}
    (hclass : ∀ negated body, ¬ (withSeparator path (some (String.singleton c))).HasClass negated body)
    (w : List Char) :
    w.map (slash c) ∈ (sequence (withSeparator path (some (String.singleton c))).parts).words {} ↔
      w ∈ (sequence (withSeparator path (some (String.singleton c))).parts).words {} := by
  refine mem_words_map (allTests_sequence ?_) w
  rw [parts, separator_withSeparator hslash, String.toList_singleton]
  refine partsFrom_allTests (members_alike false) (members_alike true) (any_alike hline) true false ?_
  intro tokens htokens t ht
  cases t with
  | run => exact members_alike true
  | single => exact members_alike true
  | members negated body =>
    -- a class could list the slash and not the other separator, as a range does that runs past it
    exact absurd ⟨tokens, htokens, ht⟩ (hclass negated body)
  | literal d => exact literal_alike (ne_of_literal hslash htokens ht)

/-- **The two separators are interchangeable.** Where separators are exchanged in a pattern without bracket
    classes and in a name, the pattern accepts the name as before. -/
theorem matches_exchanged (hline : c ≠ '\n') {path path' name name' : String}
    (hclass : ∀ negated body, ¬ (withSeparator path (some (String.singleton c))).HasClass negated body)
    (hpath : Exchanged c path.toList path'.toList) (hname : Exchanged c name.toList name'.toList) :
    ∃ accepted, (withSeparator path (some (String.singleton c))).matches name = .ok accepted ∧
      (withSeparator path' (some (String.singleton c))).matches name' = .ok accepted := by
  have hup : (withSeparator path (some (String.singleton c))).Upright :=
    upright_iff.mpr fun negated body h => absurd h (hclass negated body)
  have hwords := ended_slash hline (mem_words_slash hslash hline hclass)
  obtain ⟨accepted, hmatch, hiff⟩ := matches_eq hup name
  obtain ⟨accepted', hmatch', hiff'⟩ := matches_eq hup name'
  refine ⟨accepted, hmatch, ?_⟩
  rw [matches_of_exchanged hslash hpath, hmatch']
  -- either name is accepted if the spelling that the two have in common is
  have hsame : accepted' = accepted := by
    rw [Bool.eq_iff_iff, hiff, hiff', ← hwords name.toList, ← hwords name'.toList,
      exchanged_iff.mp hname]
  rw [hsame]

end

/-- Backslashes for some of the slashes in a pattern and in a name. -/
theorem matches_exchanged_backslash :
    (withSeparator "docs/**/*.txt" (some (String.singleton '\\'))).matches "docs/sub/c.txt" = .ok true ∧
      (withSeparator "docs\\**/*.txt" (some (String.singleton '\\'))).matches "docs/sub\\c.txt" =
        .ok true := by
  have hsegments : (withSeparator "docs/**/*.txt" (some (String.singleton '\\'))).segments =
      [.name ("docs".toList.map .literal), .anyDepth, .name (.run :: ".txt".toList.map .literal)] := by
    decide +kernel
  have hclass (negated : Bool) (body : List Char) :
      ¬ (withSeparator "docs/**/*.txt" (some (String.singleton '\\'))).HasClass negated body := by
    rintro ⟨tokens, hname, hmem⟩
    rw [hsegments] at hname
    rcases hname with _ | ⟨_, _ | ⟨_, _ | ⟨_, hname⟩⟩⟩
    · simp at hmem
    · simp at hmem
    · cases hname
  have hpath : Exchanged '\\' "docs/**/*.txt".toList "docs\\**/*.txt".toList :=
    exchanged_iff.mpr (by decide)
  have hname : Exchanged '\\' "docs/sub/c.txt".toList "docs/sub\\c.txt".toList :=
    exchanged_iff.mpr (by decide)
  obtain ⟨accepted, hmatch, hexchanged⟩ :=
    matches_exchanged (by decide) (by decide) hclass hpath hname
  have haccepted : (withSeparator "docs/**/*.txt" (some (String.singleton '\\'))).matches
      "docs/sub/c.txt" = .ok true := by
    decide +kernel
  obtain rfl := Except.ok.inj (hmatch.symm.trans haccepted)
  exact ⟨hmatch, hexchanged⟩

end FileDepot.Glob
