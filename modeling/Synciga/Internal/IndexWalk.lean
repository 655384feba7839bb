import Mathlib.Data.List.Basic

/-!
# Walking over a list that changes

A loop goes over a list by an index, and the list may change between two rounds.

## Main definitions

* `visited` — the elements that the loop comes across
* `NoSkip` — none slips in front of the index between two rounds

## Main results

* `filter_visited_eq_iff` — then all up to the index are visited, of those that nothing touches
-/

namespace IndexWalk

variable {α : Type*}

/-- The elements that a loop visits from an index on, with the list that it finds first and the lists
after each of its rounds. -/
def visited : Nat → List α → List (List α) → List α
  | _, _, [] => []
  | i, l, l' :: ls => l[i]?.toList ++ visited (i + 1) l' ls

/-- The list at the end. -/
def last (l : List α) (ls : List (List α)) : List α := (l :: ls).getLast (List.cons_ne_nil l ls)

/-- Between two rounds nothing that `p` selects gets behind the index. -/
def Forward (p : α → Bool) : Nat → List α → List (List α) → Prop
  | _, _, [] => True
  | i, l, l' :: ls =>
    (l.take (i + 1)).filter p <+: (l'.take (i + 1)).filter p ∧ Forward p (i + 1) l' ls

/-- Between two rounds nothing that `p` selects gets in front of the index. -/
def NoSkip (p : α → Bool) : Nat → List α → List (List α) → Prop
  | _, _, [] => True
  | i, l, l' :: ls =>
    (l'.take (i + 1)).filter p = (l.take (i + 1)).filter p ∧ NoSkip p (i + 1) l' ls

theorem last_cons (l l' : List α) (ls : List (List α)) : last l (l' :: ls) = last l' ls :=
  List.getLast_cons (List.cons_ne_nil l' ls)

theorem filter_take_append (p : α → Bool) (l : List α) (i : Nat) (v : List α) :
    (l.take i).filter p ++ (l[i]?.toList ++ v).filter p = (l.take (i + 1)).filter p ++ v.filter p := by
  rw [List.take_add_one, List.filter_append, List.filter_append, List.append_assoc]

theorem length_visited_le {p : α → Bool} {i : Nat} {l : List α} {ls : List (List α)}
    (h : Forward p i l ls) :
    ((l.take i).filter p).length + ((visited i l ls).filter p).length ≤
      (((last l ls).take (i + ls.length)).filter p).length := by
  induction ls generalizing i l with
  | nil => exact Nat.le_refl _
  | cons l' ls ih =>
    obtain ⟨hfront, hrest⟩ := h
    have hlength := hfront.length_le
    have hsplit := congrArg List.length (filter_take_append p l i (visited (i + 1) l' ls))
    rw [List.length_append, List.length_append] at hsplit
    rw [visited, last_cons, List.length_cons, Nat.add_comm ls.length, ← Nat.add_assoc]
    have hle := ih hrest
    omega

theorem filter_visited_eq_iff {p : α → Bool} {i : Nat} {l : List α} {ls : List (List α)}
    (h : Forward p i l ls) :
    (l.take i).filter p ++ (visited i l ls).filter p = ((last l ls).take (i + ls.length)).filter p ↔
      NoSkip p i l ls := by
  induction ls generalizing i l with
  | nil =>
    refine iff_of_true ?_ trivial
    exact List.append_nil _
  | cons l' ls ih =>
    obtain ⟨hfront, hrest⟩ := h
    rw [visited, last_cons, List.length_cons, Nat.add_comm ls.length, ← Nat.add_assoc, filter_take_append,
      NoSkip, ← ih hrest]
    constructor
    · intro heq
      -- what slips in front of the index is missing at the end
      have hle := length_visited_le hrest
      have hlength := congrArg List.length heq
      rw [List.length_append] at hlength
      have hsame : (l.take (i + 1)).filter p = (l'.take (i + 1)).filter p :=
        hfront.eq_of_length_le (by omega)
      exact ⟨hsame.symm, by rw [← hsame, heq]⟩
    · rintro ⟨hsame, heq⟩
      rw [← hsame, heq]

end IndexWalk
