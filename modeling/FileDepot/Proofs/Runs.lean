import Mathlib.Data.List.Induction

/-!
# Runs of steps

A run makes steps one after another, each in the state that the ones before it have left. Of a run that starts
afresh now and then, only what has happened since the last fresh start counts.

Contents:

* `Run.trace` — the steps of a run, each with the state in which it is made;
* `Run.select` — those of the steps that count in the state in which they are made;
* `Run.since` — those behind the last fresh start;
* `Run.since_concat` — one more step.
-/

namespace FileDepot.Run

variable {σ α : Type} (after : σ → α → σ) (fresh : α → Bool)

/-- The steps of a run, each with the state in which it is made. -/
def trace (s : σ) : List α → List (σ × α)
  | [] => []
  | x :: xs => (s, x) :: trace (after s x) xs

/-- The steps that count in the state in which they are made. -/
def select (counts : σ → α → Bool) (s : σ) (xs : List α) : List α :=
  ((trace after s xs).filter fun e => counts e.1 e.2).map (·.2)

/-- The steps behind the last fresh start, each with the state in which it is made. -/
def since (s : σ) (xs : List α) : List (σ × α) :=
  ((trace after s xs).reverse.takeWhile fun e => !fresh e.2).reverse

theorem trace_concat (s : σ) (xs : List α) (x : α) :
    trace after s (xs ++ [x]) = trace after s xs ++ [(xs.foldl after s, x)] := by
  induction xs generalizing s with
  | nil => rfl
  | cons y xs ih =>
    show (s, y) :: trace after (after s y) (xs ++ [x]) = _
    rw [ih]
    rfl

theorem map_snd_trace (s : σ) (xs : List α) : (trace after s xs).map (·.2) = xs := by
  induction xs generalizing s with
  | nil => rfl
  | cons x xs ih => exact congrArg (x :: ·) (ih (after s x))

/-- Steps that are made in another form. -/
theorem select_map {β : Type} (f : β → α) (counts : σ → α → Bool) (s : σ) (ys : List β) :
    select after counts s (ys.map f) =
      (select (fun s y => after s (f y)) (fun s y => counts s (f y)) s ys).map f := by
  have htrace : trace after s (ys.map f) =
      (trace (fun s y => after s (f y)) s ys).map fun e => (e.1, f e.2) := by
    induction ys generalizing s with
    | nil => rfl
    | cons y ys ih => exact congrArg ((s, f y) :: ·) (ih (after s (f y)))
  unfold select
  rw [htrace, List.filter_map, List.map_map, List.map_map]
  rfl

/-- The steps that count are steps of the run. -/
theorem mem_of_mem_select {counts : σ → α → Bool} {s : σ} {xs : List α} {x : α}
    (h : x ∈ select after counts s xs) : x ∈ xs := by
  obtain ⟨e, he, rfl⟩ := List.mem_map.mp h
  have hstep : e.2 ∈ (trace after s xs).map (·.2) := List.mem_map_of_mem (List.mem_filter.mp he).1
  rwa [map_snd_trace] at hstep

/-- One more step counts in the state that the run has led to, or it does not. -/
theorem select_concat (counts : σ → α → Bool) (s : σ) (xs : List α) (x : α) :
    select after counts s (xs ++ [x]) =
      if counts (xs.foldl after s) x then select after counts s xs ++ [x] else select after counts s xs := by
  unfold select
  rw [trace_concat, List.filter_append, List.map_append, List.filter_cons, List.filter_nil]
  cases counts (xs.foldl after s) x with
  | true => rfl
  | false => exact List.append_nil _

/-- A fresh start leaves nothing behind it, and any other step comes last. -/
theorem since_concat (s : σ) (xs : List α) (x : α) :
    since after fresh s (xs ++ [x]) =
      if fresh x then [] else since after fresh s xs ++ [(xs.foldl after s, x)] := by
  unfold since
  rw [trace_concat, List.reverse_append, List.reverse_singleton, List.singleton_append, List.takeWhile_cons]
  cases fresh x <;> simp

end FileDepot.Run
