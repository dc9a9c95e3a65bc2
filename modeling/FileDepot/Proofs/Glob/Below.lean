import FileDepot.Proofs.Glob.Levels

/-!
# What a closing `**` covers

With `/**` behind it a pattern accepts the names that it accepts anyway and what stands below them. The rest of a
name that a last `**` takes is written as a run of dots, and a dot refuses the line feed, which every other
wildcard takes. So only one line below a name is covered.

Contents:

* `segments_closing`, `mem_words_closing` — the segments and the words of a pattern with `/**` behind it;
* `count_of_mem_words` — without `**` the words of a pattern have as many slashes as the pattern;
* `notMem_dropLast_iff`, `matches_any` — texts of one line, which `**` accepts by itself;
* `closing_covers` — the names and the lines below them that a closing `**` covers.
-/

namespace FileDepot.Glob

open Regex

/-! ## One segment more -/

/-- A last `**` follows no other one. -/
theorem merged_concat {ps : List (List Char)} (hany : anySegments ∉ ps) : Merged (ps ++ [anySegments]) := by
  have hname {p : List Char} (hp : p ∈ ps) (q : List Char) : ¬ (p = anySegments ∧ q = anySegments) := by
    rintro ⟨rfl, -⟩
    exact hany hp
  refine (List.pairwise_append.mpr ⟨?_, List.pairwise_singleton _ _, ?_⟩).isChain
  · exact List.pairwise_of_forall_mem_list fun p hp q _ => hname hp q
  · exact fun p hp q _ => hname hp q

/-- Behind name segments any others stand as they stand behind a single one. -/
theorem partsFrom_names_append (extra : List Char) (first separate : Bool) {names : List Segment}
    (hne : names ≠ []) (hnames : .anyDepth ∉ names) (rest : List Segment) :
    partsFrom extra first separate (names ++ rest) =
      partsFrom extra first separate names ++ partsFrom extra false true rest := by
  induction names generalizing first separate with
  | nil => exact absurd rfl hne
  | cons s names ih =>
    obtain ⟨hs, hothers⟩ := not_or.mp (mt List.mem_cons.mpr hnames)
    cases s with
    | anyDepth => exact absurd rfl hs
    | name tokens =>
      rw [List.cons_append, partsFrom, partsFrom]
      cases names with
      | nil => simp [partsFrom]
      | cons t names => rw [ih _ _ (List.cons_ne_nil t names) hothers, ← List.append_assoc]

theorem segments_ne_nil (path : String) : (withSeparator path (some "/")).segments ≠ [] := by
  obtain ⟨p, ps, hsplit⟩ := List.exists_cons_of_ne_nil (Text.splitOn_ne_nil '/' path.toList)
  obtain ⟨qs, hqs⟩ := mergeAny_cons p ps
  simp [segments_withSlash, hsplit, hqs]

section

variable {path : String} (hany : anySegments ∉ Text.splitOn '/' path.toList)

include hany

theorem segments_closing :
    (withSeparator (path ++ "/**") (some "/")).segments =
      (withSeparator path (some "/")).segments ++ [.anyDepth] := by
  have hsplit : Text.splitOn '/' (path ++ "/**").toList = Text.splitOn '/' path.toList ++ [anySegments] := by
    rw [String.toList_append]
    exact Text.splitOn_append_cons '/' path.toList anySegments
  rw [segments_withSlash, segments_withSlash, hsplit, mergeAny_of_merged (merged_concat hany),
    mergeAny_of_notMem hany, List.map_append]
  rfl

theorem anyDepth_notMem_segments : .anyDepth ∉ (withSeparator path (some "/")).segments := by
  rw [segments_withSlash, mergeAny_of_notMem hany]
  intro h
  obtain ⟨p, hp, hdepth⟩ := List.mem_map.mp h
  exact hany (ofText_eq_anyDepth.mp hdepth ▸ hp)

theorem upright_closing (hup : (withSeparator path (some "/")).Upright) :
    (withSeparator (path ++ "/**") (some "/")).Upright := by
  unfold Upright
  rw [segments_closing hany]
  intro s hs
  rcases List.mem_append.mp hs with hs | hs
  · exact hup s hs
  · obtain rfl := List.mem_singleton.mp hs
    exact trivial

/-- **The words of a closed pattern** are those of the pattern, by themselves or with a slash and text without a
line feed behind them. -/
theorem mem_words_closing {w : List Char} :
    w ∈ (sequence (withSeparator (path ++ "/**") (some "/")).parts).words {} ↔
      ∃ u v, u ++ v = w ∧ u ∈ (sequence (withSeparator path (some "/")).parts).words {} ∧
        (v = [] ∨ ∃ line, '/' :: line = v ∧ '\n' ∉ line) := by
  have hparts : (withSeparator (path ++ "/**") (some "/")).parts =
      (withSeparator path (some "/")).parts ++ partsFrom [] false true [.anyDepth] := by
    rw [parts, segments_closing hany]
    exact partsFrom_names_append [] true false (segments_ne_nil path) (anyDepth_notMem_segments hany) _
  rw [hparts, mem_words_sequence_append]
  constructor
  · rintro ⟨u, hu, v, hv, rfl⟩
    exact ⟨u, v, rfl, hu, mem_pathWords_lastBehind.mp hv⟩
  · rintro ⟨u, v, rfl, hu, hv⟩
    exact ⟨u, hu, v, mem_pathWords_lastBehind.mpr hv, rfl⟩

/-- Where no class accepts the slash, a word of a pattern without `**` has the slashes of the pattern. -/
theorem count_of_mem_words
    (hclass : ∀ negated body, (withSeparator path (some "/")).HasClass negated body →
      ¬ Accepts negated body '/')
    {w : List Char} (hw : w ∈ (sequence (withSeparator path (some "/")).parts).words {}) :
    w.count '/' = path.toList.count '/' := by
  have hfree := notMem_of_mem_wordsOf_segment hclass
  rw [mergeAny_of_notMem hany] at hfree
  rw [parts, segments_withSlash, mergeAny_of_notMem hany] at hw
  obtain ⟨pieces, rfl, hall⟩ := (mem_pathWords_names (Text.splitOn_ne_nil '/' path.toList) hany).mp hw
  have hpieces : pieces ≠ [] := by
    rintro rfl
    exact Text.splitOn_ne_nil '/' path.toList (List.forall₂_nil_right_iff.mp hall)
  have hslash : ∀ u ∈ pieces, '/' ∉ u := by
    intro u hu
    obtain ⟨p, hp, hword⟩ := exists_related_left hall hu
    exact hfree p hp u hword
  -- as many pieces as segments make as many slashes between them
  have hlengths := hall.length_eq
  rw [← Text.splitOn_joinWith hpieces hslash, Text.length_splitOn, Text.length_splitOn] at hlengths
  omega

end

/-! ## One line -/

/-- Only its last character may be a line feed if a text is one line, with or without its end. -/
theorem notMem_dropLast_iff {cs : List Char} :
    '\n' ∉ cs.dropLast ↔ ∃ line, '\n' ∉ line ∧ (cs = line ∨ cs = line ++ ['\n']) := by
  constructor
  · intro h
    rcases List.eq_nil_or_concat cs with rfl | ⟨line, last, rfl⟩
    · exact ⟨[], by simp, Or.inl rfl⟩
    · rw [List.concat_eq_append, List.dropLast_concat] at h
      rw [List.concat_eq_append]
      by_cases hlast : last = '\n'
      · exact ⟨line, h, Or.inr (by rw [hlast])⟩
      · exact ⟨line ++ [last], by simp [h, Ne.symm hlast], Or.inl rfl⟩
  · rintro ⟨line, hline, rfl | rfl⟩
    · exact fun h => hline (List.mem_of_mem_dropLast h)
    · rwa [List.dropLast_concat]

/-- By itself `**` accepts a text of one line. -/
theorem matches_any (name : String) :
    ∃ accepted, (withSeparator "**" (some "/")).matches name = .ok accepted ∧
      (accepted = true ↔ '\n' ∉ name.toList.dropLast) := by
  have hsegments : (withSeparator "**" (some "/")).segments = [.anyDepth] := by decide +kernel
  have hup : (withSeparator "**" (some "/")).Upright := by
    unfold Upright
    rw [hsegments]
    intro s hs
    obtain rfl := List.mem_singleton.mp hs
    exact trivial
  obtain ⟨accepted, hmatch, hiff⟩ := matches_eq hup name
  refine ⟨accepted, hmatch, ?_⟩
  rw [hiff, parts, hsegments, notMem_dropLast_iff]
  exact exists_congr fun line => and_congr_left' mem_pathWords_last

/-! ## Names and what is below them -/

/-- **A closing `**` covers a name and each line below it.** What a pattern without `**` accepts it accepts with
`/**` behind it, too, and below that it accepts what `**` accepts by itself: a text without a line feed in front
of its last character. -/
theorem closing_covers {path name : String} (hany : anySegments ∉ Text.splitOn '/' path.toList)
    (hclass : ∀ negated body, (withSeparator path (some "/")).HasClass negated body →
      ¬ Accepts negated body '/')
    (hmatch : (withSeparator path (some "/")).matches name = .ok true)
    (hline : name.toList.getLast? ≠ some '\n') (below : String) :
    (withSeparator (path ++ "/**") (some "/")).matches name = .ok true ∧
      ∃ covered, (withSeparator "**" (some "/")).matches below = .ok covered ∧
        (withSeparator (path ++ "/**") (some "/")).matches (name ++ "/" ++ below) = .ok covered ∧
        (covered = true ↔ '\n' ∉ below.toList.dropLast) := by
  obtain ⟨hup, word, hword, behind, hbehind, hname⟩ := word_of_matches hmatch
  obtain rfl : behind = [] := by
    rcases hbehind with h | rfl
    · exact h
    · exact absurd (by rw [hname, List.getLast?_concat]) hline
  rw [List.append_nil] at hname
  subst hname
  have hclosed := upright_closing hany hup
  constructor
  · obtain ⟨accepted, haccepted, hiff⟩ := matches_eq hclosed name
    rw [haccepted, hiff.mpr ⟨name.toList, ?_, Or.inl rfl⟩]
    exact (mem_words_closing hany).mpr ⟨_, [], List.append_nil _, hword, Or.inl rfl⟩
  obtain ⟨covered, hcovered, hcoverediff⟩ := matches_any below
  obtain ⟨accepted, haccepted, hiff⟩ := matches_eq hclosed (name ++ "/" ++ below)
  refine ⟨covered, hcovered, ?_, hcoverediff⟩
  have hlower : (name ++ "/" ++ below).toList = name.toList ++ '/' :: below.toList := by simp
  have hsame : accepted = covered := by
    rw [Bool.eq_iff_iff, hiff, hcoverediff, notMem_dropLast_iff, hlower]
    constructor
    · rintro ⟨_, hw, h⟩
      obtain ⟨u, v, rfl, hu, hv⟩ := (mem_words_closing hany).mp hw
      have hslashes : name.toList.count '/' = u.count '/' :=
        (count_of_mem_words hany hclass hword).trans (count_of_mem_words hany hclass hu).symm
      rcases hv with rfl | ⟨line, rfl, hline⟩
      · -- a word of the pattern alone has no slash left for what is below
        have hcount : (name.toList ++ '/' :: below.toList).count '/' = u.count '/' := by
          rcases h with h | h <;> simp [h]
        rw [List.count_append, List.count_cons_self] at hcount
        omega
      · refine ⟨line, hline, h.imp (fun h => (Text.append_sep_inj h hslashes).2) fun h => ?_⟩
        rw [List.append_assoc, List.cons_append] at h
        exact (Text.append_sep_inj h hslashes).2
    · rintro ⟨line, hline, h⟩
      refine ⟨name.toList ++ '/' :: line, ?_, ?_⟩
      · exact (mem_words_closing hany).mpr ⟨_, _, rfl, hword, Or.inr ⟨line, rfl, hline⟩⟩
      · rcases h with h | h <;> simp [h]
  rw [haccepted, hsame]

/-- Below a name empty segments and a last line feed are covered, but no second line. -/
theorem closing_covers_one_line :
    (withSeparator ("docs/*" ++ "/**") (some "/")).matches "docs/a" = .ok true ∧
      (withSeparator ("docs/*" ++ "/**") (some "/")).matches ("docs/a" ++ "/" ++ "b//c\n") = .ok true ∧
      (withSeparator ("docs/*" ++ "/**") (some "/")).matches ("docs/a" ++ "/" ++ "b\nc") = .ok false := by
  have hmatch : (withSeparator "docs/*" (some "/")).matches "docs/a" = .ok true := by decide +kernel
  have hsegments : (withSeparator "docs/*" (some "/")).segments =
      [.name ("docs".toList.map .literal), .name [.run]] := by decide +kernel
  have hclass (negated : Bool) (body : List Char)
      (h : (withSeparator "docs/*" (some "/")).HasClass negated body) : ¬ Accepts negated body '/' := by
    obtain ⟨tokens, hname, hmem⟩ := h
    rw [hsegments] at hname
    rcases hname with _ | ⟨_, _ | ⟨_, hname⟩⟩
    · simp at hmem
    · simp at hmem
    · cases hname
  have hcovers := @closing_covers "docs/*" "docs/a" (by decide) hclass hmatch (by decide)
  obtain ⟨hself, covered, -, hbelow, hiff⟩ := hcovers "b//c\n"
  obtain rfl : covered = true := hiff.mpr (by decide)
  obtain ⟨-, covered, -, hlines, hiff⟩ := hcovers "b\nc"
  obtain rfl : covered = false := by
    rw [← Bool.not_eq_true, hiff]
    decide
  exact ⟨hself, hbelow, hlines⟩

end FileDepot.Glob
