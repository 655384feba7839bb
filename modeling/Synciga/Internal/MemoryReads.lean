import Synciga.Internal.RingMemory

/-!
# Reads of a memory

A computation keeps the positions that it reads, which may depend on what it has read.

## Main definitions

* `Reading` — such a computation
* `Within` — it does not read behind a size
* `loop` — rounds up to a bound, which a measure shows not to be reached
-/

universe u

/-- A value, and the positions that were read for it. -/
structure Reading (α : Type u) where
  value : α
  reads : List ℕ

namespace Reading

variable {α β σ : Type u} {size : ℕ}

instance : Monad Reading where
  pure a := ⟨a, []⟩
  bind m f := ⟨(f m.value).value, m.reads ++ (f m.value).reads⟩

variable (m : Reading α)

@[simp] theorem value_bind (f : α → Reading β) :
    (m >>= f).value = (f m.value).value := rfl

@[simp] theorem value_ite (c : Prop) [Decidable c] (m m' : Reading α) :
    (if c then m else m').value = if c then m.value else m'.value := by
  split <;> rfl

/-- The positions that were read are all in front of the size. -/
def Within (size : ℕ) : Prop := ∀ i ∈ m.reads, i < size

instance (m : Reading α) (size : ℕ) : Decidable (m.Within size) :=
  inferInstanceAs (Decidable (∀ i ∈ m.reads, i < size))

theorem within_pure (a : α) : (pure a : Reading α).Within size := List.forall_mem_nil _

theorem within_bind (f : α → Reading β) : (m >>= f).Within size ↔ m.Within size ∧ (f m.value).Within size :=
  List.forall_mem_append

/-- The cells of `mem` from `pos` on. -/
def cells (mem : ℕ → α) (pos n : ℕ) : Reading (List α) :=
  ⟨RingMemory.readMem mem pos n, (List.range n).map fun i => pos + i⟩

theorem within_cells (mem : ℕ → α) (pos : ℕ) {n : ℕ} (hn : 0 < n) :
    (cells mem pos n).Within size ↔ pos + n ≤ size := by
  rw [Within, cells, List.forall_mem_map]
  constructor
  · intro h
    have hlast := h (n - 1) (List.mem_range.mpr (by omega))
    omega
  · intro h i hi
    have hi := List.mem_range.mp hi
    omega

/-! ### Loops -/

/-- The rounds of a loop from a state on; `none` where they are used up. -/
def loop (round : σ → Reading (α ⊕ σ)) : ℕ → σ → Reading (Option α)
  | 0, _ => pure none
  | rounds + 1, s => do
    match ← round s with
    | .inl a => pure (some a)
    | .inr s' => loop round rounds s'

variable {round : σ → Reading (α ⊕ σ)} {s : σ} {rounds : ℕ}

variable {a : α}

theorem loop_succ_of_inl (h : (round s).value = .inl a) :
    loop round (rounds + 1) s = ⟨some a, (round s).reads ++ []⟩ := by
  rw [loop]
  simp only [bind, h]
  rfl

theorem loop_succ_of_inr {s' : σ} (h : (round s).value = .inr s') : loop round (rounds + 1) s =
      ⟨(loop round rounds s').value, (round s).reads ++ (loop round rounds s').reads⟩ := by
  rw [loop]
  simp only [bind, h]

theorem loop_of_le {rounds' : ℕ} (hle : rounds ≤ rounds')
    (h : (loop round rounds s).value = some a) : loop round rounds' s = loop round rounds s := by
  induction rounds generalizing s rounds' with
  | zero => cases h
  | succ rounds ih =>
    obtain ⟨n, rfl⟩ := Nat.exists_eq_add_of_le hle
    rw [Nat.succ_add]
    rcases hvalue : (round s).value with b | s'
    · rw [loop_succ_of_inl hvalue, loop_succ_of_inl hvalue]
    · rw [loop_succ_of_inr hvalue] at h ⊢
      rw [loop_succ_of_inr hvalue, ih (Nat.le_add_right rounds n) h]

theorem loop_within {inv : σ → Prop} (hround : ∀ s, inv s → (round s).Within size)
    (hkeep : ∀ s s', inv s → (round s).value = .inr s' → inv s') (hs : inv s) (rounds : ℕ) :
    (loop round rounds s).Within size := by
  induction rounds generalizing s with
  | zero => exact within_pure _
  | succ rounds ih =>
    rcases hvalue : (round s).value with a | s'
    · rw [loop_succ_of_inl hvalue]
      exact List.forall_mem_append.mpr ⟨hround s hs, List.forall_mem_nil _⟩
    · rw [loop_succ_of_inr hvalue]
      exact List.forall_mem_append.mpr ⟨hround s hs, ih (hkeep s s' hs hvalue)⟩

theorem loop_isSome {μ : σ → ℕ} (hround : ∀ s s', (round s).value = .inr s' → μ s' < μ s)
    (hrounds : μ s < rounds) : (loop round rounds s).value.isSome := by
  induction rounds generalizing s with
  | zero => exact absurd hrounds (Nat.not_lt_zero _)
  | succ rounds ih =>
    rcases hvalue : (round s).value with a | s'
    · rw [loop_succ_of_inl hvalue]
      rfl
    · rw [loop_succ_of_inr hvalue]
      exact ih (by have := hround s s' hvalue; omega)

theorem exists_end_of_loop (inv : σ → Prop)
    (hkeep : ∀ s s', inv s → (round s).value = .inr s' → inv s') (hs : inv s)
    (h : (loop round rounds s).value = some a) : ∃ s', inv s' ∧ (round s').value = .inl a := by
  induction rounds generalizing s with
  | zero => cases h
  | succ rounds ih =>
    rcases hvalue : (round s).value with b | s'
    · rw [loop_succ_of_inl hvalue] at h
      obtain rfl := Option.some.inj h
      exact ⟨s, hs, hvalue⟩
    · rw [loop_succ_of_inr hvalue] at h
      exact ih (hkeep s s' hs hvalue) h

theorem loop_spec {f : ℕ → σ → α} (hend : ∀ n s a, (round s).value = .inl a → f (n + 1) s = a)
    (hstep : ∀ n s s', (round s).value = .inr s' → f (n + 1) s = f n s')
    (h : (loop round rounds s).value = some a) : f rounds s = a := by
  induction rounds generalizing s with
  | zero => cases h
  | succ rounds ih =>
    rcases hvalue : (round s).value with b | s'
    · rw [loop_succ_of_inl hvalue] at h
      rw [hend rounds s b hvalue]
      exact Option.some.inj h
    · rw [loop_succ_of_inr hvalue] at h
      rw [hstep rounds s s' hvalue]
      exact ih h

end Reading
