import Mathlib.Data.List.Sort

/-!
# Heaps in a sequence

The heap operations of a standard library leave open which heap of the same elements they build, so they are
given by what they promise.

## Main definitions

* `IsHeap` — no element is greater than the first one
* `Ops` — the operations; `sortOps` are some
-/

namespace Heap

variable {α : Type*} (less : α → α → Prop)

/-- `less` is the order of a heap: not being less is transitive and total. -/
structure IsOrder : Prop where
  irrefl : ∀ a, ¬ less a a
  trans : ∀ a b c, ¬ less a b → ¬ less b c → ¬ less a c
  total : ∀ a b, ¬ less a b ∨ ¬ less b a

/-- No element is greater than its parent. -/
def IsHeap (l : List α) : Prop :=
  ∀ (i : ℕ) (a b : α), l[(i - 1) / 2]? = some a → l[i]? = some b → ¬ less a b

variable {less}

theorem IsHeap.not_less (horder : IsOrder less) {x : α} {l : List α} (h : IsHeap less (x :: l)) :
    ∀ b ∈ x :: l, ¬ less x b := by
  have hget : ∀ (i : ℕ) (b : α), (x :: l)[i]? = some b → ¬ less x b := by
    intro i
    induction i using Nat.strongRecOn with
    | _ i ih =>
      intro b hb
      rcases i with _ | i
      · cases hb
        exact horder.irrefl x
      -- The parent stands before the element, and exists if the element does.
      obtain ⟨hi, -⟩ := List.getElem?_eq_some_iff.mp hb
      have hlt : (i + 1 - 1) / 2 < i + 1 := by omega
      have ha := List.getElem?_eq_getElem (hlt.trans hi)
      exact horder.trans x _ b (ih _ hlt _ ha) (h (i + 1) _ b ha hb)
  intro b hb
  obtain ⟨i, hi⟩ := List.mem_iff_getElem?.mp hb
  exact hget i b hi

theorem isHeap_nil : IsHeap less [] := by
  intro i a b ha
  cases ha

variable (less) in
/-- The heap operations. `push` is `push_heap` behind a `push_back`, and `pop` is `pop_heap` in front
of a `pop_back`. -/
structure Ops where
  push : List α → α → List α
  pop : List α → List α
  make : List α → List α
  push_perm : ∀ l x, IsHeap less l → (push l x).Perm (x :: l)
  push_heap : ∀ l x, IsHeap less l → IsHeap less (push l x)
  pop_perm : ∀ x l, IsHeap less (x :: l) → (pop (x :: l)).Perm l
  pop_heap : ∀ x l, IsHeap less (x :: l) → IsHeap less (pop (x :: l))
  make_perm : ∀ l, (make l).Perm l
  make_heap : ∀ l, IsHeap less (make l)

theorem isHeap_of_pairwise (horder : IsOrder less) {l : List α}
    (h : l.Pairwise fun a b => ¬ less a b) : IsHeap less l := by
  intro i a b ha hb
  obtain ⟨hi, rfl⟩ := List.getElem?_eq_some_iff.mp ha
  obtain ⟨hj, rfl⟩ := List.getElem?_eq_some_iff.mp hb
  rcases Nat.lt_or_ge ((i - 1) / 2) i with hlt | hge
  · exact List.pairwise_iff_getElem.mp h _ _ hi hj hlt
  · obtain rfl : i = 0 := by omega
    exact horder.irrefl _

/-- The operations that keep the sequence sorted. -/
def sortOps (horder : IsOrder less) [DecidableRel less] : Ops less :=
  let r : α → α → Prop := fun a b => ¬ less a b
  have : Std.Total r := ⟨horder.total⟩
  have : IsTrans α r := ⟨horder.trans⟩
  { push := fun l x => (x :: l).insertionSort r
    pop := fun l => l.tail.insertionSort r
    make := fun l => l.insertionSort r
    push_perm := fun l x _ => List.perm_insertionSort r (x :: l)
    push_heap := fun l x _ => isHeap_of_pairwise horder (List.pairwise_insertionSort r (x :: l))
    pop_perm := fun _ l _ => List.perm_insertionSort r l
    pop_heap := fun _ l _ => isHeap_of_pairwise horder (List.pairwise_insertionSort r l)
    make_perm := fun l => List.perm_insertionSort r l
    make_heap := fun l => isHeap_of_pairwise horder (List.pairwise_insertionSort r l) }

end Heap
