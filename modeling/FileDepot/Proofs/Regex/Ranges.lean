import FileDepot.Proofs.Regex.ClassReading

/-!
# Ranges and where they stand

Only a range that runs downwards stops the reader in a text that is otherwise well written. Beside what a text
reads as, its ranges are listed with the offsets at which they stand; the first of them that runs downwards is
what the reader reports.

Contents:

* `WrittenRange` — a range of a bracket class as it is written, with its offset;
* `Placed` — the ranges stand in a text, in this order;
* `memberRanges` — the ranges among the members of a class;
* `Scanned` — a text with these ranges reads as items, or is refused for the first that runs downwards;
* `Scanned.append`, `Reads.scanned`, `scanned_class` — how such texts are put together;
* `WrittenRange.message_error` — the wording of what the reader says of a range.
-/

namespace FileDepot.Regex

/-- A range of a bracket class as an expression writes it, and the offset of its first end. -/
structure WrittenRange where
  position : Nat
  low : Spelled
  high : Spelled
  deriving DecidableEq

namespace WrittenRange

/-- The text of the range. -/
def written (r : WrittenRange) : List Char :=
  r.low.written ++ '-' :: r.high.written

/-- The characters at its two ends. -/
def ends (r : WrittenRange) : Char × Char :=
  (r.low.char, r.high.char)

/-- The range runs downwards. -/
def reversed (r : WrittenRange) : Bool :=
  r.high.char.toNat < r.low.char.toNat

/-- What the reader reports for a range that runs downwards. -/
def error (r : WrittenRange) : Error :=
  ⟨.badRange (String.ofList r.low.written) (String.ofList r.high.written), r.position⟩

end WrittenRange

/-! ## Places -/

/-- The ranges stand in a text that starts at an offset, each of them further on than those before it. -/
structure Placed (cs : List Char) (position : Nat) (ranges : List WrittenRange) : Prop where
  stands : ∀ r ∈ ranges, ∃ front back,
    cs = front ++ r.written ++ back ∧ r.position = position + front.length
  ascending : ranges.Pairwise fun r r' => r.position < r'.position

theorem Placed.nil (cs : List Char) (position : Nat) : Placed cs position [] :=
  ⟨by simp, .nil⟩

/-- A range stands at the start of its own text. -/
theorem Placed.single (r : WrittenRange) : Placed r.written r.position [r] where
  stands r' hr' := by
    obtain rfl := List.mem_singleton.mp hr'
    exact ⟨[], [], by simp, rfl⟩
  ascending := List.pairwise_singleton _ _

/-- The ranges of two texts stand in the two together. -/
theorem Placed.append {cs ds : List Char} {position : Nat} {ranges ranges' : List WrittenRange}
    (h : Placed cs position ranges) (h' : Placed ds (position + cs.length) ranges') :
    Placed (cs ++ ds) position (ranges ++ ranges') where
  stands := by
    intro r hr
    rcases List.mem_append.mp hr with hr | hr
    · obtain ⟨front, back, rfl, hposition⟩ := h.stands r hr
      exact ⟨front, back ++ ds, by simp, hposition⟩
    · obtain ⟨front, back, rfl, hposition⟩ := h'.stands r hr
      refine ⟨cs ++ front, back, by simp, ?_⟩
      rw [hposition, List.length_append, Nat.add_assoc]
  ascending := by
    refine List.pairwise_append.mpr ⟨h.ascending, h'.ascending, fun r hr r' hr' => ?_⟩
    obtain ⟨front, back, hcs, hposition⟩ := h.stands r hr
    obtain ⟨front', -, -, hposition'⟩ := h'.stands r' hr'
    -- the first range takes at least the dash of the first text
    have hlength := congrArg List.length hcs
    simp only [WrittenRange.written, List.length_append, List.length_cons] at hlength
    omega

/-! ## Ranges of members -/

/-- The ranges among members that start at an offset. -/
def memberRanges : Nat → List Spelled → List WrittenRange
  | position, low :: dash :: high :: rest =>
    if dash.isDash then
      ⟨position, low, high⟩ ::
        memberRanges (position + low.written.length + 1 + high.written.length) rest
    else memberRanges (position + low.written.length) (dash :: high :: rest)
  | position, a :: rest => memberRanges (position + a.written.length) rest
  | _, [] => []

theorem memberRanges_short {a : Spelled} {rest : List Spelled}
    (h : ∀ dash high rest', rest ≠ dash :: high :: rest') (position : Nat) :
    memberRanges position (a :: rest) = memberRanges (position + a.written.length) rest := by
  rw [memberRanges]
  exact h

theorem placed_memberRanges (position : Nat) (members : List Spelled) :
    Placed (writtenMembers members) position (memberRanges position members) := by
  have cons (a : Spelled) (rest : List Spelled) :
      writtenMembers (a :: rest) = a.written ++ writtenMembers rest := rfl
  induction position, members using memberRanges.induct with
  | case1 position low dash high rest hdash ih =>
    -- three members make one range, whose text theirs is
    have hd : dash.written = ['-'] := by simpa [Spelled.isDash] using hdash
    let range : WrittenRange := ⟨position, low, high⟩
    have htext : writtenMembers (low :: dash :: high :: rest) = range.written ++ writtenMembers rest := by
      simp [cons, hd, range, WrittenRange.written]
    have hlength : position + low.written.length + 1 + high.written.length =
        position + range.written.length := by
      simp [range, WrittenRange.written]
      omega
    rw [memberRanges, if_pos hdash, htext, hlength]
    rw [hlength] at ih
    exact (Placed.single range).append ih
  | case2 position low dash high rest hdash ih =>
    rw [memberRanges, if_neg hdash, cons]
    exact (Placed.nil low.written position).append ih
  | case3 position a rest hshort ih =>
    rw [memberRanges_short hshort, cons]
    exact (Placed.nil a.written position).append ih
  | case4 position => exact Placed.nil [] position

/-- **Members are refused for the first range that runs downwards.** -/
theorem readMembers_of_reversed (position : Nat) (members : List Spelled) {r : WrittenRange}
    (h : (memberRanges position members).find? (·.reversed) = some r) :
    readMembers position members = .error r.error := by
  induction position, members using readMembers.induct with
  | case1 position low dash high rest hdash hle ih =>
    have hup : (⟨position, low, high⟩ : WrittenRange).reversed = false :=
      decide_eq_false (Nat.not_lt.mpr hle)
    rw [memberRanges, if_pos hdash, List.find?_cons_of_neg (by simp [hup])] at h
    rw [readMembers, if_pos hdash, if_pos hle, ih h]
    rfl
  | case2 position low dash high rest hdash hle =>
    have hdown : (⟨position, low, high⟩ : WrittenRange).reversed = true :=
      decide_eq_true (Nat.not_le.mp hle)
    rw [memberRanges, if_pos hdash, List.find?_cons_of_pos hdown] at h
    obtain rfl := Option.some.inj h
    rw [readMembers, if_pos hdash, if_neg hle]
    rfl
  | case3 position low dash high rest hdash ih =>
    rw [memberRanges, if_neg hdash] at h
    rw [readMembers, if_neg hdash, ih h]
    rfl
  | case4 position a rest hshort ih =>
    rw [memberRanges_short hshort] at h
    rw [readMembers, ih h]
    · rfl
    · exact hshort
  | case5 => simp [memberRanges] at h

/-! ## Texts with ranges -/

/-- Between two constructs, at any offset, the text has these ranges. It reads as the items if none of them
    runs downwards, and is refused for the first one that does. -/
structure Scanned (cs : List Char) (ranges : Nat → List WrittenRange) (rs : List Regex) : Prop where
  placed : ∀ position, Placed cs position (ranges position)
  reads : ∀ s : Reader, s.Between → s.options = {} → (∀ r ∈ ranges s.position, r.reversed = false) →
    ∃ s', s.run cs = .ok s' ∧ s.After cs.length rs s'
  fails : ∀ s : Reader, s.Between → s.options = {} → ∀ r,
    (ranges s.position).find? (·.reversed) = some r → s.run cs = .error r.error

/-- A text that reads as items whatever stands around it has no ranges. -/
theorem Reads.scanned {cs : List Char} {rs : List Regex} (h : Reads cs rs) :
    Scanned cs (fun _ => []) rs where
  placed := Placed.nil cs
  reads s hs ho _ := h.run s hs ho
  fails s _ _ r hr := by simp at hr

theorem Scanned.append {cs ds : List Char} {ranges ranges' : Nat → List WrittenRange} {rs ss : List Regex}
    (h : Scanned cs ranges rs) (h' : Scanned ds ranges' ss) :
    Scanned (cs ++ ds) (fun position => ranges position ++ ranges' (position + cs.length)) (rs ++ ss) where
  placed position := (h.placed position).append (h'.placed (position + cs.length))
  reads s hs ho hup := by
    obtain ⟨hup, hup'⟩ := List.forall_mem_append.mp hup
    obtain ⟨s', hrun, hafter⟩ := h.reads s hs ho hup
    rw [← hafter.position] at hup'
    obtain ⟨s'', hrun', hafter'⟩ := h'.reads s' hafter.between (hafter.options.trans ho) hup'
    refine ⟨s'', ?_, ?_⟩
    · rw [Reader.run_append_of_ok hrun, hrun']
    · rw [List.length_append]
      exact hafter.trans hafter'
  fails s hs ho r hr := by
    rw [List.find?_append] at hr
    -- the reader gets to the second text only if it has taken the first
    cases hfirst : (ranges s.position).find? (·.reversed) with
    | some q =>
      rw [hfirst, Option.some_or] at hr
      obtain rfl := Option.some.inj hr
      exact Reader.run_append_of_error (h.fails s hs ho q hfirst) ds
    | none =>
      rw [hfirst, Option.none_or] at hr
      have hup : ∀ q ∈ ranges s.position, q.reversed = false := by
        simpa using List.find?_eq_none.mp hfirst
      obtain ⟨s', hrun, hafter⟩ := h.reads s hs ho hup
      rw [← hafter.position] at hr
      rw [Reader.run_append_of_ok hrun]
      exact h'.fails s' hafter.between (hafter.options.trans ho) r hr

/-- A class has the ranges among its members. -/
theorem scanned_class {negated : Bool} {members : List Spelled} {items : List ClassItem}
    (hfit : ∀ a ∈ members, a.Fits) (hne : members ≠ [])
    (hcaret : negated = false → (writtenMembers members ++ [']']).head? ≠ some '^')
    (hread : ∀ position, (∀ r ∈ memberRanges position members, r.reversed = false) →
      readMembers position members = .ok items) :
    Scanned ('[' :: negation negated ++ (writtenMembers members ++ [']']))
      (fun position => memberRanges (position + 1 + (negation negated).length) members)
      [.one (.member ⟨negated, items⟩)] where
  placed position := by
    -- neither the opening of the class nor its closing bracket has a range
    have hlength : position + 1 + (negation negated).length =
        position + ('[' :: negation negated).length := by
      rw [List.length_cons]
      omega
    have hmembers := (placed_memberRanges (position + ('[' :: negation negated).length) members).append
      (Placed.nil [']'] _)
    rw [List.append_nil, ← hlength] at hmembers
    exact (Placed.nil ('[' :: negation negated) position).append (hlength ▸ hmembers)
  reads s hs ho hup := by
    have hrun := run_class hs ho negated hfit hne hcaret
    rw [hread _ hup, Except.map] at hrun
    exact ⟨_, hrun, Or.inl rfl, rfl, rfl, rfl, rfl, rfl⟩
  fails s hs ho r hr := by
    rw [run_class hs ho negated hfit hne hcaret, readMembers_of_reversed _ members hr]
    rfl

/-! ## Whole texts -/

section

variable {cs : List Char} {ranges : Nat → List WrittenRange} {rs : List Regex} (h : Scanned cs ranges rs)

include h

/-- **A text without a range that runs downwards is the expression of its items.** -/
theorem Scanned.readWith_ok (hup : ∀ r ∈ ranges 0, r.reversed = false) :
    readWith {} cs = .ok (sequence rs, {}) := by
  obtain ⟨s', hrun, hafter⟩ := h.reads {} (Or.inl rfl) rfl hup
  exact hafter.readWith_eq hrun

/-- **A text is refused for the first range that runs downwards**, unless a backslash ends it. -/
theorem Scanned.readWith_error {r : WrittenRange} (hlast : cs.getLast? ≠ some '\\')
    (hr : (ranges 0).find? (·.reversed) = some r) : readWith {} cs = .error r.error := by
  rw [readWith, h.fails {} (Or.inl rfl) rfl r hr]
  simp only [readingFault_of_getLast?_ne hlast]

end

/-! ## Reports -/

/-- What is said of a range of the expression: the range as it is written and its offset, and where the expression
has several lines the line and the column besides. -/
theorem WrittenRange.message_error (cs : List Char) (r : WrittenRange) :
    let reason :=
      s!"bad character range {String.ofList r.low.written}-{String.ofList r.high.written} at position {r.position}"
    r.error.message (String.ofList cs) =
      if '\n' ∈ cs then s!"{reason} (line {lineOf cs r.position}, column {columnOf cs r.position})"
      else reason := by
  intro reason
  have hreason : s!"{r.error.fault.message} at position {r.error.position}" = reason := by
    have hfault : r.error.fault.message =
        s!"bad character range {String.ofList r.low.written}-{String.ofList r.high.written}" := rfl
    rw [hfault]
    simp only [reason, toString, String.append_assoc]
    rfl
  rw [Error.message, String.toList_ofList, hreason]
  simp only [List.contains_iff_mem]
  rfl

end FileDepot.Regex
