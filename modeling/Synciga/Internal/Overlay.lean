import Mathlib.Data.List.Basic

/-!
# Overlapping writes

A sequence is put together from pieces, each at an offset. Where they overlap, the later one wins.

## Main definitions

* `Assembles` — a sequence is the overlay of pieces

## Main results

* `assembles_of_covers` — pieces that leave no gap have one
-/

namespace Overlay

variable {α : Type*}

/-- What the writes, earliest first, leave at index `i`: the latest of those that cover it decides. -/
def latest : List (ℕ × List α) → ℕ → Option α
  | [], _ => none
  | (offset, data) :: ws, i => (latest ws i).or (if offset ≤ i then data[i - offset]? else none)

/-- The write covers index `i`. -/
def Covers (w : ℕ × List α) (i : ℕ) : Prop := w.1 ≤ i ∧ i < w.1 + w.2.length

/-- The writes leave `data` from the beginning on. -/
def Assembles (ws : List (ℕ × List α)) (data : List α) : Prop :=
  ∀ i < data.length, latest ws i = data[i]?

variable {ws : List (ℕ × List α)}

theorem piece_isSome_iff (w : ℕ × List α) (i : ℕ) :
    (if w.1 ≤ i then w.2[i - w.1]? else none).isSome = true ↔ Covers w i := by
  rw [Covers]
  split
  · next hle =>
    rw [isSome_getElem?]
    omega
  · next hlt => exact ⟨nofun, fun h => absurd h.1 hlt⟩

theorem latest_isSome_iff (ws : List (ℕ × List α)) (i : ℕ) :
    (latest ws i).isSome = true ↔ ∃ w ∈ ws, Covers w i := by
  induction ws with
  | nil => exact ⟨nofun, nofun⟩
  | cons w ws ih =>
    rw [latest, Option.isSome_or, Bool.or_eq_true, ih, piece_isSome_iff, List.exists_mem_cons_iff]
    exact or_comm

theorem assembles_of_covers {n : ℕ} (h : ∀ i < n, ∃ w ∈ ws, Covers w i) :
    ∃ data : List α, data.length = n ∧ Assembles ws data := by
  have hsome (i : Fin n) : (latest ws i).isSome = true := (latest_isSome_iff ws i).mpr (h i i.2)
  refine ⟨List.ofFn fun i => (latest ws i).get (hsome i), List.length_ofFn, fun i hi => ?_⟩
  rw [List.length_ofFn] at hi
  rw [List.getElem?_ofFn, dif_pos hi, Option.some_get]

end Overlay
