import FileDepot.Proofs.Answers
import FileDepot.Store.Matching

/-!
# Filters entry by entry

Contents:

* `Filter.entryAccepts`, `Filter.accepts_cons` — a record is tested for one entry after another;
* `Filter.accepts_eq_true_iff` — it satisfies a filter exactly if it satisfies every entry.
-/

namespace FileDepot.Filter

variable (engine : Engine) {record : Value}

/-- The record satisfies one entry of a filter. -/
def entryAccepts (record : Value) (e : Value × Value) : Except Failure Bool :=
  if e.1.text? == some "$or" then anyAccepts engine record e.2
  else if e.1.text? == some "$and" then allAccept engine record e.2
  else do conditionAccepts engine (← fieldOf record e.1) e.2

/-- Later entries are tested only if the first is satisfied. -/
theorem accepts_cons (record : Value) (e : Value × Value) (es : Entries) :
    accepts engine record (e :: es) =
      (entryAccepts engine record e >>= fun answer => if answer then accepts engine record es else .ok false) := by
  obtain ⟨k, condition⟩ := e
  rw [accepts, entryAccepts]
  split
  · rfl
  · split
    · rfl
    · cases fieldOf record k <;> rfl

/-- **A record satisfies a filter exactly if it satisfies every entry.** -/
theorem accepts_eq_true_iff {es : Entries} :
    accepts engine record es = .ok true ↔ ∀ e ∈ es, entryAccepts engine record e = .ok true := by
  induction es with
  | nil => simp [accepts]
  | cons e es ih =>
    rw [accepts_cons, List.forall_mem_cons, ← ih]
    cases entryAccepts engine record e with
    | error failure => simp [bind, Except.bind]
    | ok answer => cases answer <;> simp [bind, Except.bind]

end FileDepot.Filter
