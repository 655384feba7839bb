import Mathlib.Data.List.Basic

/-!
# Loops

A loop is a function that takes a state to a value, where it is left, or to the next state. Its rounds are
counted, and there is no value where they are used up.

## Main definitions

* `run` — the loop

## Main results

* `run_spec` — what rounds keep holds of its value, for all numbers of rounds
-/

namespace Loop

variable {σ α : Type*}

/-- The value of a loop after at most so many rounds. -/
def run (round : σ → Option (α ⊕ σ)) : ℕ → σ → Option α
  | 0, _ => none
  | rounds + 1, s => (round s).bind fun
    | .inl a => some a
    | .inr s' => run round rounds s'

variable {round : σ → Option (α ⊕ σ)} {s : σ} {rounds : ℕ}

theorem run_succ_of_inl {a : α} (h : round s = some (.inl a)) : run round (rounds + 1) s = some a := by
  rw [run, h]
  rfl

theorem run_succ_of_inr {s' : σ} (h : round s = some (.inr s')) :
    run round (rounds + 1) s = run round rounds s' := by
  rw [run, h]
  rfl

theorem run_spec (inv : σ → Prop) (post : α → Prop)
    (hkeep : ∀ s s', inv s → round s = some (.inr s') → inv s')
    (hend : ∀ s a, inv s → round s = some (.inl a) → post a) (hs : inv s) {a : α}
    (h : run round rounds s = some a) : post a := by
  induction rounds generalizing s with
  | zero => cases h
  | succ rounds ih =>
    rcases hround : round s with _ | b | s'
    · rw [run, hround] at h
      cases h
    · rw [run_succ_of_inl hround] at h
      obtain rfl := Option.some.inj h
      exact hend s b hs hround
    · rw [run_succ_of_inr hround] at h
      exact ih (hkeep s s' hs hround) h

theorem run_eq_none (inv : σ → Prop) (hkeep : ∀ s s', inv s → round s = some (.inr s') → inv s')
    (hend : ∀ s a, inv s → round s ≠ some (.inl a)) (hs : inv s) (rounds : ℕ) :
    run round rounds s = none := by
  by_contra h
  obtain ⟨a, ha⟩ := Option.ne_none_iff_exists'.mp h
  exact run_spec inv (fun _ => False) hkeep hend hs ha

end Loop
