import Mathlib.Data.List.Basic

/-!
# Bounded first-in first-out queues

`Fifo α n` is a queue that never holds more than `n` items: the bound is a field, so a longer
queue cannot be built.  A push to a full queue drops the new item and reports failure.

* `push_items_of_lt`, `push_of_full` — the two cases of a push;
* `pop_eq_some` — a pop takes the oldest item and keeps the order of the others.
-/

set_option autoImplicit false

/-- A queue of at most `capacity` items, oldest first. -/
structure Fifo (α : Type) (capacity : Nat) where
  items : List α
  bounded : items.length ≤ capacity

namespace Fifo

variable {α : Type} {n : Nat}

def empty : Fifo α n := ⟨[], Nat.zero_le n⟩

theorem length_concat_le {xs : List α} (h : xs.length < n) (x : α) : (xs ++ [x]).length ≤ n := by
  rw [List.length_append, List.length_singleton]
  omega

/-- Append an item, or drop it and report `false` when the queue is full. -/
def push (q : Fifo α n) (x : α) : Fifo α n × Bool :=
  if h : q.items.length < n then (⟨q.items ++ [x], length_concat_le h x⟩, true) else (q, false)

/-- Take the oldest item. -/
def pop (q : Fifo α n) : Option (α × Fifo α n) :=
  match q with
  | ⟨[], _⟩ => none
  | ⟨x :: xs, h⟩ => some (x, ⟨xs, Nat.le_of_succ_le h⟩)

theorem push_items_of_lt {q : Fifo α n} (h : q.items.length < n) (x : α) :
    (q.push x).1.items = q.items ++ [x] := by
  simp [push, h]

theorem push_of_full {q : Fifo α n} (h : ¬ q.items.length < n) (x : α) : q.push x = (q, false) := by
  simp [push, h]

/-- A push appends the item or changes nothing. -/
theorem push_items (q : Fifo α n) (x : α) :
    (q.push x).1.items = q.items ++ [x] ∨ (q.push x).1.items = q.items := by
  by_cases h : q.items.length < n
  · exact Or.inl (push_items_of_lt h x)
  · exact Or.inr (by rw [push_of_full h])

theorem mem_push_of_mem {q : Fifo α n} {x y : α} (h : y ∈ q.items) : y ∈ (q.push x).1.items := by
  rcases q.push_items x with hx | hx <;> simp [hx, h]

theorem pop_eq_some {q q' : Fifo α n} {x : α} : q.pop = some (x, q') ↔ q.items = x :: q'.items := by
  obtain ⟨items, hb⟩ := q
  obtain ⟨items', hb'⟩ := q'
  cases items with
  | nil => simp [pop]
  | cons y ys => simp [pop, eq_comm]

end Fifo
