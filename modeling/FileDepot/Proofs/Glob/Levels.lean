import FileDepot.Proofs.Answers
import FileDepot.Proofs.Glob.PathMatches

/-!
# Levels of a name

A pattern without `**` takes a name level by level: to each of its segments belongs one piece of the name,
which the segment accepts when it is a pattern of its own. The wildcards `?` and `*` keep a piece within one
level. A bracket class takes whatever it lists, so one that accepts the slash takes a name a level further
down.

Contents:

* `Takes` — a segment of a pattern takes a piece of a name;
* `mem_pathWords_names`, `pieces_of_mem_pathWords` — the words of several segments, taken apart into words of
  each;
* `levels_of_matches` — a name that a pattern without `**` accepts, level by level;
* `matches_across_levels` — a negated class that takes a slash.
-/

namespace FileDepot.Glob

open Regex

/-- A segment of a pattern takes a piece of a name: as a pattern of its own it accepts the piece, and the
    piece has no more slashes than the segment has classes that accept one. -/
structure Takes (segment piece : List Char) : Prop where
  accepts : (withSeparator (String.ofList segment) (some "/")).matches (String.ofList piece) = .ok true
  slashes : piece.count '/' ≤ (tokens segment).countP Token.crosses

/-! ## One segment -/

section

variable {segment : List Char} (hslash : '/' ∉ segment) (hany : segment ≠ anySegments)

include hslash hany

/-- A segment that is a pattern of its own has the parts that it has in a pattern. -/
theorem segments_alone :
    (withSeparator (String.ofList segment) (some "/")).segments = [.name (tokens segment)] := by
  rw [segments_withSlash, String.toList_ofList, Text.splitOn_of_notMem hslash, mergeAny]
  · rw [List.map_singleton, ofText_of_ne hany]
  · rintro p q rest ⟨⟩

/-- A segment takes its words, also with a line feed behind them. -/
theorem takes_of_mem_wordsOf (hup : ∀ t ∈ tokens segment, t.Upright) {u behind : List Char}
    (hu : u ∈ wordsOf (tokens segment)) (hbehind : behind = [] ∨ behind = ['\n']) :
    Takes segment (u ++ behind) := by
  constructor
  · have hup' : (withSeparator (String.ofList segment) (some "/")).Upright := by
      unfold Upright
      rw [segments_alone hslash hany]
      simpa [Segment.Upright] using hup
    have hword : u ∈ (sequence (withSeparator (String.ofList segment) (some "/")).parts).words {} := by
      rw [parts, segments_alone hslash hany, ← ofText_of_ne hany]
      exact (mem_pathWords_name hany).mpr ⟨u, [], List.append_nil u, hu, mem_pathWords_nil.mpr rfl⟩
    obtain ⟨accepted, hmatch, hiff⟩ := matches_eq hup' (String.ofList (u ++ behind))
    have haccepted : accepted = true := by
      refine hiff.mpr ⟨u, hword, ?_⟩
      rcases hbehind with rfl | rfl <;> simp
    rw [hmatch, haccepted]
  · have hliteral : Token.literal '/' ∉ tokens segment := fun h => hslash (mem_of_literal_mem_tokensFrom h)
    have hcount : behind.count '/' = 0 := by
      rcases hbehind with rfl | rfl <;> rfl
    rw [List.count_append, hcount]
    exact count_of_mem_wordsOf hliteral u hu

end

/-! ## All segments -/

/-- **The words of segments without `**`** are words of each, with slashes in between. -/
theorem mem_pathWords_names {ps : List (List Char)} (hne : ps ≠ []) (hany : anySegments ∉ ps) {w : List Char} :
    w ∈ pathWords true false ps ↔
      ∃ pieces, w = Text.joinWith '/' pieces ∧ List.Forall₂ (fun p u => u ∈ wordsOf (tokens p)) ps pieces := by
  induction ps generalizing w with
  | nil => exact absurd rfl hne
  | cons p ps ih =>
    obtain ⟨hp, hps⟩ := not_or.mp (mt List.mem_cons.mpr hany)
    rw [mem_pathWords_name (Ne.symm hp)]
    by_cases hlast : ps = []
    · subst hlast
      simp only [mem_pathWords_nil]
      constructor
      · rintro ⟨u, _, rfl, hu, rfl⟩
        exact ⟨[u], by simp [Text.joinWith], .cons hu .nil⟩
      · rintro ⟨_, rfl, hall⟩
        obtain ⟨u, _, hu, hrest, rfl⟩ := List.forall₂_cons_left_iff.mp hall
        cases hrest
        exact ⟨u, [], by simp [Text.joinWith], hu, rfl⟩
    · have hbehind : ps ≠ [anySegments] := by
        rintro rfl
        exact hps List.mem_cons_self
      have hpieces {pieces : List (List Char)}
          (hall : List.Forall₂ (fun p u => u ∈ wordsOf (tokens p)) ps pieces) : pieces ≠ [] := by
        rintro rfl
        exact hlast (List.forall₂_nil_right_iff.mp hall)
      simp only [mem_pathWords_behind hlast hbehind]
      constructor
      · rintro ⟨u, _, rfl, hu, v, rfl, hv⟩
        obtain ⟨pieces, rfl, hall⟩ := (ih hlast hps).mp hv
        exact ⟨u :: pieces, (Text.joinWith_cons_cons '/' u (hpieces hall)).symm, .cons hu hall⟩
      · rintro ⟨_, rfl, hall⟩
        obtain ⟨u, pieces, hu, hrest, rfl⟩ := List.forall₂_cons_left_iff.mp hall
        refine ⟨u, _, (Text.joinWith_cons_cons '/' u (hpieces hrest)).symm, hu, _, rfl, ?_⟩
        exact (ih hlast hps).mpr ⟨pieces, rfl, hrest⟩

/-- The words of segments without `**` fall into words of each. What stands behind the whole word stands
    behind the last of them. -/
theorem pieces_of_mem_pathWords {R : List Char → List Char → Prop} {ps : List (List Char)}
    (hne : ps ≠ []) (hany : anySegments ∉ ps) {behind : List Char}
    (hR : ∀ p ∈ ps, ∀ u ∈ wordsOf (tokens p), R p u ∧ R p (u ++ behind)) :
    ∀ w ∈ pathWords true false ps,
      ∃ pieces, w ++ behind = Text.joinWith '/' pieces ∧ List.Forall₂ R ps pieces := by
  intro w hw
  obtain ⟨pieces, rfl, hall⟩ := (mem_pathWords_names hne hany).mp hw
  clear hw hany
  induction hall with
  | nil => exact absurd rfl hne
  | @cons p u ps pieces hu hrest ih =>
    obtain ⟨halone, hlonger⟩ := hR p List.mem_cons_self u hu
    -- the last piece takes what stands behind the word, any other is followed by a slash
    cases hrest with
    | nil => exact ⟨[u ++ behind], by simp [Text.joinWith], .cons hlonger .nil⟩
    | cons _ _ =>
      obtain ⟨longer, hjoin, htakes⟩ :=
        ih (List.cons_ne_nil _ _) fun q hq => hR q (List.mem_cons_of_mem _ hq)
      have hlongerNe : longer ≠ [] := by
        rintro rfl
        cases htakes
      refine ⟨u :: longer, ?_, .cons halone htakes⟩
      rw [Text.joinWith_cons_cons '/' u hlongerNe, ← hjoin,
        Text.joinWith_cons_cons '/' u (List.cons_ne_nil _ _)]
      simp

theorem mergeAny_of_notMem {ps : List (List Char)} (hany : anySegments ∉ ps) : mergeAny ps = ps := by
  refine mergeAny_of_merged (List.pairwise_of_forall_mem_list fun p hp q _ => ?_).isChain
  rintro ⟨rfl, -⟩
  exact hany hp

/-- The segments of a pattern without `**` are those of its text, one by one. -/
theorem name_mem_segments {path : String} (hany : anySegments ∉ Text.splitOn '/' path.toList)
    {segment : List Char} (hsegment : segment ∈ Text.splitOn '/' path.toList) :
    .name (tokens segment) ∈ (withSeparator path (some "/")).segments := by
  have hname : segment ≠ anySegments := fun h => hany (h ▸ hsegment)
  rw [segments_withSlash, mergeAny_of_notMem hany, ← ofText_of_ne hname]
  exact List.mem_map_of_mem hsegment

/-- A name that a pattern accepts is a word of its parts, perhaps with a line feed behind it. -/
theorem word_of_matches {g : Glob} {name : String} (hmatch : g.matches name = .ok true) :
    g.Upright ∧ ∃ w ∈ (sequence g.parts).words {}, ∃ behind,
      (behind = [] ∨ behind = ['\n']) ∧ name.toList = w ++ behind := by
  obtain ⟨r, hread, -⟩ := map_eq_ok.mp hmatch
  have hup := upright_of_read hread
  obtain ⟨accepted, haccepted, hiff⟩ := matches_eq hup name
  obtain rfl : accepted = true := Except.ok.inj (haccepted.symm.trans hmatch)
  obtain ⟨w, hw, hname⟩ := hiff.mp rfl
  refine ⟨hup, w, hw, ?_⟩
  rcases hname with h | h
  · exact ⟨[], Or.inl rfl, by rw [h, List.append_nil]⟩
  · exact ⟨['\n'], Or.inr rfl, h⟩

/-- Pieces that segments take stay within one level if no class of the segments accepts the slash. -/
theorem notMem_of_takes {segments pieces : List (List Char)} (h : List.Forall₂ Takes segments pieces)
    (hclass : ∀ p ∈ segments, ∀ negated body, .members negated body ∈ tokens p →
      ¬ Accepts negated body '/') : ∀ n ∈ pieces, '/' ∉ n := by
  intro n hn
  obtain ⟨p, hp, htakes⟩ := exists_related_left h hn
  have hcount := htakes.slashes
  rw [countP_crosses (hclass p hp)] at hcount
  exact List.count_eq_zero.mp (Nat.le_zero.mp hcount)

/-- **A pattern without `**` takes a name level by level.** To each segment of the pattern belongs a piece of
    a name that it accepts, which the segment accepts as a pattern of its own. Where no class accepts the
    slash, the pieces are the segments of the name. -/
theorem levels_of_matches {path name : String} (hany : anySegments ∉ Text.splitOn '/' path.toList)
    (hmatch : (withSeparator path (some "/")).matches name = .ok true) :
    ∃ pieces, name.toList = Text.joinWith '/' pieces ∧
      List.Forall₂ Takes (Text.splitOn '/' path.toList) pieces ∧
      ((∀ negated body, (withSeparator path (some "/")).HasClass negated body →
          ¬ Accepts negated body '/') →
        pieces = Text.splitOn '/' name.toList ∧ name.toList.count '/' = path.toList.count '/') := by
  obtain ⟨hup, w, hw, behind, hbehind, hname⟩ := word_of_matches hmatch
  -- a line feed behind the name goes to its last piece, which the segment accepts with it as well
  have htakes : ∀ p ∈ Text.splitOn '/' path.toList, ∀ u ∈ wordsOf (tokens p),
      Takes p u ∧ Takes p (u ++ behind) := by
    intro p hp u hu
    have hslash : '/' ∉ p := Text.notMem_of_mem_splitOn hp
    have hne : p ≠ anySegments := fun h => hany (h ▸ hp)
    have htokens : ∀ t ∈ tokens p, t.Upright := hup _ (name_mem_segments hany hp)
    have halone := takes_of_mem_wordsOf hslash hne htokens hu (Or.inl rfl)
    rw [List.append_nil] at halone
    exact ⟨halone, takes_of_mem_wordsOf hslash hne htokens hu hbehind⟩
  rw [parts, segments_withSlash, mergeAny_of_notMem hany] at hw
  obtain ⟨pieces, hjoin, hall⟩ :=
    pieces_of_mem_pathWords (Text.splitOn_ne_nil '/' path.toList) hany htakes w hw
  refine ⟨pieces, hname.trans hjoin, hall, fun hclass => ?_⟩
  have hfree := notMem_of_takes hall fun p hp negated body h =>
    hclass negated body ⟨tokens p, name_mem_segments hany hp, h⟩
  have hpieces : pieces ≠ [] := by
    rintro rfl
    exact Text.splitOn_ne_nil '/' path.toList (List.forall₂_nil_right_iff.mp hall)
  have hsplit : Text.splitOn '/' name.toList = pieces := by
    rw [hname, hjoin, Text.splitOn_joinWith hpieces hfree]
  refine ⟨hsplit.symm, ?_⟩
  -- as many pieces as segments make as many slashes between them
  have hlengths := hall.length_eq
  rw [← hsplit, Text.length_splitOn, Text.length_splitOn] at hlengths
  omega

/-- Two levels, with a class of digits in the second of them. -/
theorem levels_of_matches_digits :
    (withSeparator "docs/[0-9]?.txt" (some "/")).matches "docs/7a.txt" = .ok true ∧
      List.Forall₂ Takes ["docs".toList, "[0-9]?.txt".toList] ["docs".toList, "7a.txt".toList] := by
  have hmatch : (withSeparator "docs/[0-9]?.txt" (some "/")).matches "docs/7a.txt" = .ok true := by
    decide +kernel
  have hsegments : (withSeparator "docs/[0-9]?.txt" (some "/")).segments =
      [.name ("docs".toList.map .literal),
        .name (.members false ['0', '-', '9'] :: .single :: ".txt".toList.map .literal)] := by
    decide +kernel
  have hclass (negated : Bool) (body : List Char)
      (h : (withSeparator "docs/[0-9]?.txt" (some "/")).HasClass negated body) :
      ¬ Accepts negated body '/' := by
    obtain ⟨tokens, hname, hmem⟩ := h
    rw [hsegments] at hname
    rcases hname with _ | ⟨_, _ | ⟨_, hname⟩⟩
    · simp at hmem
    · obtain ⟨rfl, rfl⟩ : negated = false ∧ body = ['0', '-', '9'] := by simpa using hmem
      decide
    · cases hname
  obtain ⟨pieces, -, hall, hlevels⟩ :=
    @levels_of_matches "docs/[0-9]?.txt" "docs/7a.txt" (by decide) hmatch
  obtain ⟨rfl, -⟩ := hlevels hclass
  exact ⟨hmatch, hall⟩

/-- A negated class takes every character that it does not list, the slash as well. -/
theorem matches_across_levels :
    anySegments ∉ Text.splitOn '/' "a[!x]b".toList ∧
      (withSeparator "a[!x]b" (some "/")).matches "a/b" = .ok true ∧
      "a/b".toList.count '/' ≠ "a[!x]b".toList.count '/' :=
  ⟨by decide, by decide +kernel, by decide⟩

end FileDepot.Glob
