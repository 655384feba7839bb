import Mathlib.Data.List.Basic

/-!
# Bounded queues

A queue of items that never holds more than its capacity. Pushing appends what there is room for, popping
removes from the front, and the capacity can be changed as long as the items fit.

## Main definitions

* `BoundedQueue` with `push`, `pop` and `resize`
* `BecomesReadable`, `BecomesWritable` — the changes that somebody may wait for
-/

/-- Items in order of arrival, no more of them than the capacity. -/
@[ext]
structure BoundedQueue (α : Type*) where
  items : List α
  capacity : ℕ
  bound : items.length ≤ capacity

namespace BoundedQueue

variable {α : Type*} (q q' : BoundedQueue α)

/-- The room that is left. -/
def free : ℕ := q.capacity - q.items.length

/-- The queue without items. -/
def empty (capacity : ℕ) : BoundedQueue α := ⟨[], capacity, Nat.zero_le _⟩

variable (data : List α)

/-- Append what there is room for. -/
def push : BoundedQueue α where
  items := q.items ++ data.take q.free
  capacity := q.capacity
  bound := by
    have := q.bound
    rw [List.length_append, List.length_take, free]
    omega

variable (n : ℕ)

/-- Remove from the front. -/
def pop : BoundedQueue α where
  items := q.items.drop n
  capacity := q.capacity
  bound := by
    rw [List.length_drop]
    exact Nat.le_trans (Nat.sub_le _ _) q.bound

/-- Look at `n` items from position `offset` on. -/
def peek (n offset : ℕ) : List α := (q.items.drop offset).take n

variable (size : ℕ)

/-- Change the capacity, unless the items do not fit. -/
def resize : BoundedQueue α :=
  if h : q.items.length ≤ size then ⟨q.items, size, h⟩ else q

/-- There is something to read now. -/
def BecomesReadable : Prop := q.items = [] ∧ q'.items ≠ []

/-- There is room to write now. -/
def BecomesWritable : Prop := q.free = 0 ∧ q'.free ≠ 0

instance : Decidable (q.BecomesReadable q') :=
  decidable_of_iff (q.items.length = 0 ∧ q'.items.length ≠ 0)
    (by rw [BecomesReadable, List.length_eq_zero_iff, Ne, List.length_eq_zero_iff])

instance : Decidable (q.BecomesWritable q') := inferInstanceAs (Decidable (_ ∧ _))

variable {q q'}

@[simp] theorem push_items : (q.push data).items = q.items ++ data.take q.free :=
  rfl

@[simp] theorem push_capacity : (q.push data).capacity = q.capacity := rfl

@[simp] theorem pop_items : (q.pop n).items = q.items.drop n := rfl

@[simp] theorem pop_capacity : (q.pop n).capacity = q.capacity := rfl

@[simp] theorem resize_items : (q.resize size).items = q.items := by
  rw [resize]
  split <;> rfl

theorem resize_capacity :
    (q.resize size).capacity = if q.items.length ≤ size then size else q.capacity := by
  rw [resize]
  split <;> rfl

theorem free_push : (q.push data).free = q.free - data.length := by
  rw [free, push_items, push_capacity, List.length_append, List.length_take, free]
  omega

theorem free_pop : (q.pop n).free = q.free + min n q.items.length := by
  have := q.bound
  rw [free, pop_items, pop_capacity, List.length_drop, free]
  omega

theorem not_becomes_self : ¬ q.BecomesReadable q ∧ ¬ q.BecomesWritable q :=
  ⟨fun h => h.2 h.1, fun h => h.2 h.1⟩

theorem becomesReadable_push :
    q.BecomesReadable (q.push data) ↔ q.items = [] ∧ 0 < min data.length q.free := by
  refine and_congr_right fun hnil => ?_
  rw [push_items, hnil, List.nil_append, ← List.length_pos_iff, List.length_take, Nat.min_comm]

theorem not_becomesWritable_push : ¬ q.BecomesWritable (q.push data) := by
  rintro ⟨hfull, hroom⟩
  rw [free_push] at hroom
  omega

theorem becomesWritable_pop : q.BecomesWritable (q.pop n) ↔ q.free = 0 ∧ 0 < min n q.items.length := by
  refine and_congr_right fun hfull => ?_
  rw [free_pop, hfull]
  omega

theorem not_becomesReadable_pop : ¬ q.BecomesReadable (q.pop n) := by
  rintro ⟨hnil, hne⟩
  rw [pop_items, hnil, List.drop_nil] at hne
  exact hne rfl

theorem not_becomesReadable_resize : ¬ q.BecomesReadable (q.resize size) := by
  rintro ⟨hnil, hne⟩
  rw [resize_items] at hne
  exact hne hnil

theorem becomesWritable_resize : q.BecomesWritable (q.resize size) ↔ q.free = 0 ∧ q.capacity < size := by
  refine and_congr_right fun hfull => ?_
  have hbound := q.bound
  rw [free] at hfull
  rw [free, resize_items, resize_capacity]
  split <;> omega

end BoundedQueue
