import Mathlib.Data.List.Sort

/-!
# Sorting by an order that refines a key

* `Refines` — a comparison is finer than a key of its arguments
* `pairwise_insertionSort` — what is sorted by it is sorted by the key
-/

namespace KeyedSort

variable {α β : Type*} [LinearOrder β] {r : α → α → Prop} [DecidableRel r] {key : α → β}

/-- The comparison decides for a smaller key. -/
def Refines (r : α → α → Prop) (key : α → β) : Prop :=
  ∀ a b, (r a b → key a ≤ key b) ∧ (¬r a b → key b ≤ key a)

theorem pairwise_orderedInsert (h : Refines r key) (a : α) {l : List α}
    (hl : l.Pairwise (key · ≤ key ·)) : (l.orderedInsert r a).Pairwise (key · ≤ key ·) := by
  induction l with
  | nil => exact List.pairwise_singleton _ a
  | cons b l ih =>
    obtain ⟨hb, hrest⟩ := List.pairwise_cons.mp hl
    rw [List.orderedInsert_cons]
    split_ifs with hab
    · have hle : key a ≤ key b := (h a b).1 hab
      refine List.pairwise_cons.mpr ⟨?_, hl⟩
      intro c hc
      rcases List.mem_cons.mp hc with rfl | hc
      · exact hle
      · exact hle.trans (hb c hc)
    · refine List.pairwise_cons.mpr ⟨?_, ih hrest⟩
      intro c hc
      rcases (List.mem_orderedInsert r).mp hc with rfl | hc
      · exact (h c b).2 hab
      · exact hb c hc

theorem pairwise_insertionSort (h : Refines r key) (l : List α) :
    (l.insertionSort r).Pairwise (key · ≤ key ·) := by
  induction l with
  | nil => exact List.Pairwise.nil
  | cons a l ih => exact pairwise_orderedInsert h a ih

theorem key_head_le (h : Refines r key) {l : List α} {top : α} (htop : (l.insertionSort r).head? = some top)
    {a : α} (ha : a ∈ l) : key top ≤ key a := by
  have hmem : a ∈ l.insertionSort r := List.mem_insertionSort r |>.mpr ha
  have hsorted := pairwise_insertionSort h l
  rcases hl : l.insertionSort r with _ | ⟨b, rest⟩
  · rw [hl] at hmem
    cases hmem
  · rw [hl] at htop hmem hsorted
    cases htop
    rcases List.mem_cons.mp hmem with rfl | hrest
    · exact le_rfl
    · exact (List.pairwise_cons.mp hsorted).1 a hrest

end KeyedSort
