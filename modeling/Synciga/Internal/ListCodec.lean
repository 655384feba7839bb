import Mathlib.Data.List.Forall2

/-!
# Writing and reading a list

A list is written and read one element after the other, and any of them may fail.

## Main results

* `mapM_of_written` — what is read of each element that was written decides what is read of the list
-/

namespace ListCodec

variable {ε ε' α β γ : Type}

theorem bind_eq_ok_iff {x : Except ε α} {f : α → Except ε β} {b : β} :
    x >>= f = .ok b ↔ ∃ a, x = .ok a ∧ f a = .ok b := by
  rcases x with e | a
  · constructor
    · intro h
      cases h
    · rintro ⟨a, ha, -⟩
      cases ha
  constructor
  · intro h
    exact ⟨a, rfl, h⟩
  · rintro ⟨a', ha, hf⟩
    cases ha
    exact hf

variable {write : α → Except ε β} {xs : List α} {ys : List β}

theorem mapM_eq_ok_iff : xs.mapM write = .ok ys ↔ List.Forall₂ (fun x y => write x = .ok y) xs ys := by
  induction xs generalizing ys with
  | nil =>
    rw [List.mapM_nil, List.forall₂_nil_left_iff]
    constructor
    · intro h
      cases h
      rfl
    · intro h
      rw [h]
      rfl
  | cons x xs ih =>
    rw [List.mapM_cons, List.forall₂_cons_left_iff]
    constructor
    · intro h
      rcases hx : write x with e | y
      · rw [hx] at h
        cases h
      rw [hx] at h
      rcases hxs : xs.mapM write with e | ys'
      · simp only [hxs] at h
        cases h
      · simp only [hxs] at h
        cases h
        exact ⟨y, ys', rfl, ih.mp hxs, rfl⟩
    · rintro ⟨y, ys', hy, hys, rfl⟩
      rw [hy, ih.mpr hys]
      rfl

variable {R : α → β → Prop}

theorem mapM_filterMap_of_forall₂ {read : β → Except ε γ} {back : α → Option γ}
    (hread : ∀ x ∈ xs, ∀ y, R x y → ∃ z, back x = some z ∧ read y = .ok z)
    (h : List.Forall₂ R xs ys) : ys.mapM read = .ok (xs.filterMap back) := by
  rw [mapM_eq_ok_iff]
  induction h with
  | nil => exact List.Forall₂.nil
  | cons hx hxs ih =>
    obtain ⟨z, hback, hz⟩ := hread _ (List.mem_cons_self ..) _ hx
    rw [List.filterMap_cons_some hback]
    refine List.Forall₂.cons hz (ih ?_)
    intro x hx
    exact hread x (List.mem_cons_of_mem _ hx)

theorem mapM_of_forall₂ {read : β → Except ε γ} {back : α → γ}
    (hread : ∀ x ∈ xs, ∀ y, R x y → read y = .ok (back x)) (h : List.Forall₂ R xs ys) :
    ys.mapM read = .ok (xs.map back) := by
  rw [← List.filterMap_eq_map]
  refine mapM_filterMap_of_forall₂ ?_ h
  intro x hx y hR
  exact ⟨back x, rfl, hread x hx y hR⟩

theorem mapM_of_written {read : β → Except ε' γ} {back : α → γ}
    (hread : ∀ x ∈ xs, ∀ y, write x = .ok y → read y = .ok (back x))
    (h : xs.mapM write = .ok ys) : ys.mapM read = .ok (xs.map back) :=
  mapM_of_forall₂ hread (mapM_eq_ok_iff.mp h)

theorem exists_of_forall₂ (h : List.Forall₂ R xs ys) :
    ∀ x ∈ xs, ∃ y, R x y := by
  induction h with
  | nil =>
    intro x hx
    cases hx
  | cons hx hxs ih =>
    intro x' hx'
    rcases List.mem_cons.mp hx' with rfl | hx'
    · exact ⟨_, hx⟩
    · exact ih x' hx'

theorem forall_of_forall₂ {P : β → Prop}
    (hR : ∀ x ∈ xs, ∀ y, R x y → P y) (h : List.Forall₂ R xs ys) : ∀ y ∈ ys, P y := by
  induction h with
  | nil =>
    intro y hy
    cases hy
  | cons hx hxs ih =>
    intro y hy
    rcases List.mem_cons.mp hy with rfl | hy
    · exact hR _ (List.mem_cons_self ..) _ hx
    · refine ih ?_ y hy
      intro x hx
      exact hR x (List.mem_cons_of_mem _ hx)

theorem forall_of_written {P : β → Prop}
    (hwrite : ∀ x ∈ xs, ∀ y, write x = .ok y → P y) (h : xs.mapM write = .ok ys) : ∀ y ∈ ys, P y :=
  forall_of_forall₂ hwrite (mapM_eq_ok_iff.mp h)

end ListCodec
