import FileDepot.Files.Tree

/-!
# What has been written can be read

A path leads through directories. Writing puts a file where no directory stands, so every path leads after it
to the place to which it led before.

Contents:

* `node?_put_of_ne` — what stands at the other places;
* `walk_put`, `locate_put` — the ways through a tree with one more file;
* `read_write` — a file reads as it was written.
-/

namespace FileDepot.FileTree

theorem lookup_replaced_of_ne {p q : Place} (n : FileNode) (h : q ≠ p) (es : List (Place × FileNode)) :
    (es.map fun e => if e.1 == p then (p, n) else e).lookup q = es.lookup q := by
  have hq : (q == p) = false := by simpa using h
  induction es with
  | nil => rfl
  | cons e es ih =>
    obtain ⟨place, node⟩ := e
    rw [List.map_cons]
    by_cases he : place = p
    · subst he
      rw [if_pos (by simp), List.lookup_cons, List.lookup_cons, hq, ih]
    · rw [if_neg (by simpa using he), List.lookup_cons, List.lookup_cons, ih]

/-- The other places stay as they are. -/
theorem node?_put_of_ne (t : FileTree) {p q : Place} (n : FileNode) (h : q ≠ p) :
    (t.put p n).node? q = t.node? q := by
  have hq : (q == p) = false := by simpa using h
  rw [node?, node?, put]
  split
  · rfl
  · split
    · exact lookup_replaced_of_ne n h t.nodes
    · rw [List.lookup_append]
      simp [List.lookup_cons, hq]

theorem here_put (t : FileTree) (p : Place) (n : FileNode) : (t.put p n).here = t.here := by
  rw [put]
  split <;> rfl

section

variable {t : FileTree} {p : Place} (hp : t.node? p ≠ some .directory) (n : FileNode)

include hp

/-- Every place that a path passes is a directory, so that it does not pass the one that is put. -/
theorem walk_put {names : List String} {q reached : Place} (h : t.walk q names = .ok reached) :
    (t.put p n).walk q names = .ok reached := by
  induction names generalizing q with
  | nil => exact h
  | cons name names ih =>
    rw [walk] at h ⊢
    split at h
    · cases h
    · cases h
    next hdirectory =>
      have hq : q ≠ p := by
        rintro rfl
        exact hp hdirectory
      rw [node?_put_of_ne t n hq, hdirectory]
      simp only
      split at h
      next hstay =>
        rw [if_pos hstay]
        exact ih h
      next hstay =>
        rw [if_neg hstay]
        split at h
        next hback =>
          rw [if_pos hback]
          exact ih h
        next hback =>
          rw [if_neg hback]
          split at h
          · cases h
          next hfits =>
            rw [if_neg hfits]
            exact ih h

theorem locate_put {path : String} {reached : Place} (h : t.locate path = .ok reached) :
    (t.put p n).locate path = .ok reached := by
  rw [locate, here_put]
  rw [locate] at h
  split at h
  · cases h
  next hempty =>
    rw [if_neg hempty]
    split at h
    · cases h
    next hlong =>
      rw [if_neg hlong]
      exact walk_put hp n h

end

/-- A place at which a file may be written is no directory, and a path leads there. -/
theorem writable_eq_ok {t : FileTree} {path : String} {p : Place} (h : t.writable path = .ok p) :
    pathFault? path = none ∧ t.locate path = .ok p ∧ t.node? p ≠ some .directory := by
  unfold writable at h
  cases hfault : pathFault? path with
  | some f => simp [hfault] at h
  | none =>
    cases hlocate : t.locate path with
    | error o =>
      simp only [hfault, hlocate] at h
      split at h
      · split at h <;> cases h
      · cases h
    | ok q =>
      simp only [hfault, hlocate] at h
      cases hnode : t.node? q with
      | none =>
        simp only [hnode] at h
        split at h
        · cases h
        · obtain rfl := Except.ok.inj h
          simp [hnode]
      | some node =>
        cases node with
        | directory => simp [hnode] at h
        | file content =>
          simp only [hnode] at h
          obtain rfl := Except.ok.inj h
          simp [hnode]

/-- **A file reads as it was written.** -/
theorem read_write {t t' : FileTree} {path : String} {content : Bytes}
    (h : t.write path content = .ok t') : t'.read path = .ok content := by
  unfold write at h
  cases hwritable : t.writable path with
  | error f => simp [hwritable, Except.map] at h
  | ok p =>
    simp only [hwritable, Except.map, Except.ok.injEq] at h
    subst h
    obtain ⟨hfault, hlocate, hnode⟩ := writable_eq_ok hwritable
    have hp : p ≠ [] := by
      rintro rfl
      exact hnode rfl
    simp [read, hfault, locate_put hnode (.file content) hlocate, node?_put t (.file content) hp]

end FileDepot.FileTree
