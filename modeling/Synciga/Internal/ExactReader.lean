import Mathlib.Data.List.Basic

/-!
# Readers that take an exact number of items

A reader takes a value off the front of a list.

## Main definitions

* `Exact` — it succeeds only by taking a fixed number of items, whatever stands behind them

## Main results

* `Exact.pure`, `Exact.bind`, `Exact.map`
-/

namespace ListReader

variable {α β γ : Type*}

/-- The reader succeeds only by taking `n` items off the front, whatever stands behind them. -/
def Exact (n : ℕ) (read : List α → Option (β × List α)) : Prop :=
  ∀ l x rest, read l = some (x, rest) →
    ∃ front, front.length = n ∧ l = front ++ rest ∧ ∀ rest', read (front ++ rest') = some (x, rest')

theorem Exact.pure (x : β) : Exact 0 fun l : List α => some (x, l) := by
  rintro l x rest ⟨⟩
  exact ⟨[], rfl, rfl, fun rest' => rfl⟩

theorem Exact.bind {n m : ℕ} {read : List α → Option (β × List α)}
    {next : β → List α → Option (γ × List α)} (h : Exact n read) (hnext : ∀ x, Exact m (next x)) :
    Exact (n + m) fun l => (read l).bind fun r => next r.1 r.2 := by
  intro l y rest hread
  obtain ⟨⟨x, middle⟩, hx, hy⟩ := Option.bind_eq_some_iff.mp hread
  obtain ⟨front, hfront, rfl, hbehind⟩ := h l x middle hx
  obtain ⟨front', hfront', rfl, hbehind'⟩ := hnext x middle y rest hy
  refine ⟨front ++ front', by rw [List.length_append, hfront, hfront'],
    (List.append_assoc _ _ _).symm, fun rest' => ?_⟩
  rw [List.append_assoc]
  exact Option.bind_eq_some_iff.mpr ⟨_, hbehind _, hbehind' rest'⟩

theorem Exact.map {n : ℕ} {read : List α → Option (β × List α)} (h : Exact n read) (f : β → γ) :
    Exact n fun l => (read l).map fun r => (f r.1, r.2) := by
  intro l y rest hread
  obtain ⟨⟨x, middle⟩, hx, hy⟩ := Option.map_eq_some_iff.mp hread
  cases hy
  obtain ⟨front, hfront, rfl, hbehind⟩ := h l x middle hx
  refine ⟨front, hfront, rfl, fun rest' => ?_⟩
  exact Option.map_eq_some_iff.mpr ⟨_, hbehind rest', rfl⟩

end ListReader
