import Mathlib.Data.List.Induction

/-!
# Streams that are read in pieces

What a reader has got and not taken is given to it again, with the next piece behind it. Where it asks for more,
no answer comes before. When it does not read any more, the rest of the stream is for others.

## Main definitions

* `StreamReader`, `feedAll` — a reader, and what it makes of the pieces
* `Independent` — how the stream is cut makes no difference

## Main results

* `Resumes.feedAll_eq` — a reader that can go on in the middle is independent
-/

/-- A reader of a stream. -/
structure StreamReader (σ α : Type*) where
  reading : σ → Bool
  /-- The new state, and what is left of the items that are there. -/
  process : σ → List α → σ × List α

namespace StreamReader

/-- How far a reader has come. -/
structure Progress (σ α : Type*) where
  state : σ
  /-- What it has got and not taken. -/
  left : List α := []
  /-- What has come when it did not read any more. -/
  unread : List α := []

variable {σ α β γ : Type*} (r : StreamReader σ α)

/-- One piece. -/
def feed (p : Progress σ α) (piece : List α) : Progress σ α :=
  if r.reading p.state then
    let result := r.process p.state (p.left ++ piece)
    { p with state := result.1, left := result.2 }
  else { p with unread := p.unread ++ piece }

/-- One piece after the other. -/
def feedAll (p : Progress σ α) (pieces : List (List α)) : Progress σ α := pieces.foldl r.feed p

/-- Pieces as they may come: none is empty, each fits in a buffer with what is left there, and
nothing is left when something is asked for. -/
def Delivered (asked : σ → β) (size : ℕ) : Progress σ α → List (List α) → Prop
  | _, [] => True
  | p, piece :: pieces =>
    (piece ≠ [] ∧ (r.reading p.state = true → p.left.length + piece.length ≤ size) ∧
      (asked (r.feed p piece).state ≠ asked p.state → (r.feed p piece).left = [])) ∧
      Delivered asked size (r.feed p piece) pieces

/-- The outcome is the same however the items are cut into pieces. -/
def Independent (asked : σ → β) (size : ℕ) (outcome : Progress σ α → γ) (state : σ)
    (items : List α) : Prop :=
  ∀ pieces pieces' : List (List α), pieces.flatten = items → pieces'.flatten = items →
    r.Delivered asked size { state } pieces → r.Delivered asked size { state } pieces' →
      outcome (r.feedAll { state } pieces) = outcome (r.feedAll { state } pieces')

variable {r} {p : Progress σ α} {state : σ} {piece : List α} {pieces : List (List α)}

theorem feedAll_cons (p : Progress σ α) (piece : List α) (pieces : List (List α)) :
    r.feedAll p (piece :: pieces) = r.feedAll (r.feed p piece) pieces :=
  rfl

theorem feed_of_reading (h : r.reading p.state = true) : r.feed p piece = { p with
        state := (r.process p.state (p.left ++ piece)).1
        left := (r.process p.state (p.left ++ piece)).2 } :=
  if_pos h

theorem feed_of_not_reading (h : r.reading p.state = false) :
    r.feed p piece = { p with unread := p.unread ++ piece } :=
  if_neg (Bool.eq_false_iff.mp h)

theorem feedAll_of_not_reading (h : r.reading p.state = false) (pieces : List (List α)) :
    r.feedAll p pieces = { p with unread := p.unread ++ pieces.flatten } := by
  induction pieces generalizing p with
  | nil => rw [List.flatten_nil, List.append_nil]; rfl
  | cons piece pieces ih =>
    have hrest := ih (p := { p with unread := p.unread ++ piece }) h
    rw [feedAll_cons, feed_of_not_reading h, hrest, List.flatten_cons, List.append_assoc]

variable {asked : σ → β} {size : ℕ}

theorem delivered_of_not_reading (h : r.reading p.state = false)
    (hne : ∀ piece ∈ pieces, piece ≠ []) : r.Delivered asked size p pieces := by
  induction pieces generalizing p with
  | nil => trivial
  | cons piece pieces ih =>
    have hfeed : r.feed p piece = { p with unread := p.unread ++ piece } := feed_of_not_reading h
    refine ⟨⟨hne piece (List.mem_cons_self ..), fun hreading => ?_, fun hasked => ?_⟩, ?_⟩
    · rw [h] at hreading
      cases hreading
    · rw [hfeed] at hasked
      exact absurd rfl hasked
    · rw [hfeed]
      exact ih h fun piece' hmem => hne piece' (List.mem_cons_of_mem _ hmem)

theorem feedAll_append (p : Progress σ α) (pieces pieces' : List (List α)) :
    r.feedAll p (pieces ++ pieces') = r.feedAll (r.feedAll p pieces) pieces' :=
  List.foldl_append

theorem delivered_append {pieces' : List (List α)}
    (h : r.Delivered asked size p pieces) (h' : r.Delivered asked size (r.feedAll p pieces) pieces') :
    r.Delivered asked size p (pieces ++ pieces') := by
  induction pieces generalizing p with
  | nil => exact h'
  | cons piece pieces ih => exact ⟨h.1, ih h.2 h'⟩

/-! ### A reader that goes on -/

/-- A reader that can go on where it was. -/
structure Resumes (r : StreamReader σ α) (state : σ) : Prop where
  nil : r.process state [] = (state, [])
  append : ∀ front back, r.process state (front ++ back) =
    r.process (r.process state front).1 ((r.process state front).2 ++ back)

/-- **A reader that can go on where it was** has read a part of the stream as if it had come at once. -/
theorem Resumes.feedAll_eq (h : r.Resumes state) (pieces : List (List α)) :
    let p := r.feedAll { state } pieces
    ∃ front, front ++ p.unread = pieces.flatten ∧ r.process state front = (p.state, p.left) ∧
      (r.reading p.state = true → p.unread = []) := by
  induction pieces using List.reverseRecOn with
  | nil => exact ⟨[], rfl, h.nil, fun _ => rfl⟩
  | append_singleton pieces piece ih =>
    obtain ⟨front, hfront, hprocess, hunread⟩ := ih
    rw [feedAll_append, List.flatten_append, List.flatten_singleton, ← hfront]
    generalize r.feedAll { state } pieces = p at hprocess hunread
    show ∃ front', front' ++ (r.feed p piece).unread = front ++ p.unread ++ piece ∧
      r.process state front' = ((r.feed p piece).state, (r.feed p piece).left) ∧
        (r.reading (r.feed p piece).state = true → (r.feed p piece).unread = [])
    cases hreading : r.reading p.state with
    | false =>
      rw [feed_of_not_reading hreading]
      refine ⟨front, (List.append_assoc _ _ _).symm, hprocess, fun hstill => ?_⟩
      exact absurd hstill (Bool.eq_false_iff.mp hreading)
    | true =>
      rw [feed_of_reading hreading, hunread hreading]
      refine ⟨front ++ piece, by rw [List.append_nil, List.append_nil], ?_, fun _ => rfl⟩
      rw [h.append, hprocess]

variable {items : List α}

/-- Items that come one by one are delivered, if what waits for more is never too long. -/
theorem Resumes.delivered_singles (h : r.Resumes state)
    (hfits : ∀ front back, front ++ back = items → r.reading (r.process state front).1 = true →
      (r.process state front).2.length < size)
    (hasks : ∀ front item, r.reading (r.process state front).1 = true →
      asked (r.process state (front ++ [item])).1 ≠ asked (r.process state front).1 →
        (r.process state (front ++ [item])).2 = []) :
    r.Delivered asked size { state } (items.map fun item => [item]) := by
  induction items using List.reverseRecOn with
  | nil => trivial
  | append_singleton items item ih =>
    have hbefore := ih fun front back hitems =>
      hfits front (back ++ [item]) (by rw [← List.append_assoc, hitems])
    rw [List.map_append]
    refine delivered_append hbefore ?_
    obtain ⟨front, hfront, hprocess, hunread⟩ := h.feedAll_eq (items.map fun item => [item])
    generalize r.feedAll { state } (items.map fun item => [item]) = p at hfront hprocess hunread
    have hitems : (items.map fun item => [item]).flatten = items := by
      rw [← List.flatMap_def, List.flatMap_singleton']
    rw [hitems] at hfront
    cases hreading : r.reading p.state with
    | false =>
      refine delivered_of_not_reading hreading fun piece hpiece => ?_
      rw [List.map_singleton, List.mem_singleton] at hpiece
      rw [hpiece]
      exact List.cons_ne_nil _ _
    | true =>
      rw [hunread hreading, List.append_nil] at hfront
      subst hfront
      have hfit := hfits front [item] rfl (by rw [hprocess]; exact hreading)
      have hask := hasks front item (by rw [hprocess]; exact hreading)
      rw [hprocess] at hfit
      rw [h.append, hprocess] at hask
      refine ⟨⟨List.cons_ne_nil _ _, fun _ => hfit, ?_⟩, trivial⟩
      rw [feed_of_reading hreading]
      exact hask

theorem exists_first {P : List α → Prop} (hnil : ¬P []) (h : ∃ front, front <+: items ∧ P front) :
    ∃ front item back, items = front ++ item :: back ∧ (∀ front', front' <+: front → ¬P front') ∧
      P (front ++ [item]) := by
  induction items using List.reverseRecOn with
  | nil =>
    obtain ⟨front, hfront, hP⟩ := h
    rw [List.prefix_nil.mp hfront] at hP
    exact absurd hP hnil
  | append_singleton items item ih =>
    by_cases hbefore : ∃ front, front <+: items ∧ P front
    · obtain ⟨front, item', back, rfl, hfirst, hP⟩ := ih hbefore
      exact ⟨front, item', back ++ [item], by rw [List.append_assoc, List.cons_append], hfirst, hP⟩
    obtain ⟨front, hfront, hP⟩ := h
    rcases List.prefix_concat_iff.mp hfront with rfl | hshort
    · have hnone (front : List α) (hshort : front <+: items) : ¬P front :=
        fun hfront => hbefore ⟨front, hshort, hfront⟩
      exact ⟨items, item, [], rfl, hnone, hP⟩
    · exact absurd ⟨front, hshort, hP⟩ hbefore

/-! ### A reader that takes one message at a time -/

/-- What is done with a whole stream, in up to `n` messages. -/
def settle (r : StreamReader σ α) : ℕ → σ → List α → σ × List α
  | 0, state, items => (state, items)
  | n + 1, state, items =>
    if r.reading state then r.settle n (r.process state items).1 (r.process state items).2
    else (state, items)

theorem settle_of_not_reading (h : r.reading state = false) (n : ℕ) (items : List α) :
    r.settle n state items = (state, items) := by
  cases n with
  | zero => rfl
  | succ n => exact if_neg (Bool.eq_false_iff.mp h)

theorem settle_of_waiting (h : r.process state items = (state, items)) (n : ℕ) :
    r.settle n state items = (state, items) := by
  induction n with
  | zero => rfl
  | succ n ih =>
    rw [settle, h]
    split
    · exact ih
    · rfl

/-- A reader that waits for a message, takes it and asks for the next one. -/
structure Messages (r : StreamReader σ α) (asked : σ → β) (rank : σ → ℕ) : Prop where
  nil : ∀ state, r.process state [] = (state, [])
  /-- A message that is not complete is left, and one that is complete is taken whatever stands
  behind it. -/
  step : ∀ state items, r.reading state = true → r.process state items = (state, items) ∨
    (∀ back, r.process state (items ++ back) =
        ((r.process state items).1, (r.process state items).2 ++ back)) ∧
      rank (r.process state items).1 < rank state ∧
      (r.reading (r.process state items).1 = true → asked (r.process state items).1 ≠ asked state)

/-- **A reader that takes one message at a time.** If no message comes before it is asked for, the
pieces make no difference. -/
theorem feedAll_eq_settle {rank : σ → ℕ} (h : r.Messages asked rank) {size n : ℕ}
    (hn : rank p.state ≤ n) (hunread : p.unread = [])
    (hwaiting : r.process p.state p.left = (p.state, p.left))
    (hdelivered : r.Delivered asked size p pieces) :
    let p' := r.feedAll p pieces
    (p'.state, p'.left ++ p'.unread) = r.settle n p.state (p.left ++ pieces.flatten) := by
  induction pieces generalizing p n with
  | nil =>
    rw [List.flatten_nil, List.append_nil, settle_of_waiting hwaiting]
    show (p.state, p.left ++ p.unread) = (p.state, p.left)
    rw [hunread, List.append_nil]
  | cons piece pieces ih =>
    cases hreading : r.reading p.state with
    | false =>
      rw [settle_of_not_reading hreading, feedAll_of_not_reading hreading, hunread, List.nil_append]
    | true =>
      have hfeed : r.feed p piece = _ := feed_of_reading hreading
      rw [List.flatten_cons, ← List.append_assoc]
      rcases h.step p.state (p.left ++ piece) hreading with hwait | ⟨hbehind, hrank, hasks⟩
      · rw [hwait] at hfeed
        have hrest := ih (p := r.feed p piece) (n := n) (by rw [hfeed]; exact hn)
          (by rw [hfeed]; exact hunread)
          (by rw [hfeed]; exact hwait) hdelivered.2
        rw [hfeed] at hrest
        rw [feedAll_cons, hfeed]
        exact hrest
      obtain ⟨n, rfl⟩ : ∃ m, n = m + 1 := ⟨n - 1, by omega⟩
      rw [settle, if_pos hreading, hbehind]
      dsimp only
      cases hnext : r.reading (r.process p.state (p.left ++ piece)).1 with
      | false =>
        have hrest := feedAll_of_not_reading (p := r.feed p piece) (by rw [hfeed]; exact hnext) pieces
        rw [settle_of_not_reading hnext, feedAll_cons, hrest, hfeed, hunread, List.nil_append]
      | true =>
        have hleft : (r.process p.state (p.left ++ piece)).2 = [] := by
          have hnone := hdelivered.1.2.2
          rw [hfeed] at hnone
          exact hnone (hasks hnext)
        have hrest := ih (p := r.feed p piece) (n := n) (by rw [hfeed]; dsimp only; omega)
          (by rw [hfeed]; exact hunread)
          (by rw [hfeed]; dsimp only; rw [hleft]; exact h.nil _) hdelivered.2
        rw [hfeed] at hrest
        rw [feedAll_cons, hfeed]
        exact hrest

end StreamReader
