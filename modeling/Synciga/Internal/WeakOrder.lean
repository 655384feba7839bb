import Mathlib.Data.Set.Insert

/-!
# Strict weak orders on a set

A comparison that a sort is called with has to be a strict weak order, but only on what is sorted.

## Main definitions

* `StrictWeakOn` — it is one on a set
* `KeyThen` — a comparison that looks at a key first

## Main results

* `strictWeakOn_key_iff` — it is one if what it looks at then is one on the elements of each key
-/

/-- A comparison is a strict weak order on a set. -/
structure StrictWeakOn {α : Type*} (S : Set α) (lt : α → α → Prop) : Prop where
  irrefl : ∀ a ∈ S, ¬ lt a a
  asymm : ∀ a ∈ S, ∀ b ∈ S, lt a b → ¬ lt b a
  trans : ∀ a ∈ S, ∀ b ∈ S, ∀ c ∈ S, lt a b → lt b c → lt a c
  incomp : ∀ a ∈ S, ∀ b ∈ S, ∀ c ∈ S,
    ¬ lt a b → ¬ lt b a → ¬ lt b c → ¬ lt c b → ¬ lt a c ∧ ¬ lt c a

variable {α β : Type*} {S T : Set α} {lt r : α → α → Prop} {key : α → β}

theorem StrictWeakOn.mono (h : StrictWeakOn T lt) (hST : S ⊆ T) : StrictWeakOn S lt where
  irrefl a ha := h.irrefl a (hST ha)
  asymm a ha b hb := h.asymm a (hST ha) b (hST hb)
  trans a ha b hb c hc := h.trans a (hST ha) b (hST hb) c (hST hc)
  incomp a ha b hb c hc := h.incomp a (hST ha) b (hST hb) c (hST hc)

/-- A comparison of keys, and of something else where the keys are equal. -/
def KeyThen [LT β] (key : α → β) (r : α → α → Prop) (a b : α) : Prop :=
  key a < key b ∨ key a = key b ∧ r a b

section Key

variable [LinearOrder β]

variable {a b : α}

theorem keyThen_of_eq (h : key a = key b) : KeyThen key r a b ↔ r a b := by
  rw [KeyThen, h, or_iff_right (lt_irrefl _), and_iff_right rfl]

theorem key_eq_of_not_keyThen (h : ¬ KeyThen key r a b) (h' : ¬ KeyThen key r b a) : key a = key b :=
  le_antisymm (not_lt.mp fun hlt => h' (.inl hlt)) (not_lt.mp fun hlt => h (.inl hlt))

theorem key_le_of_keyThen (h : KeyThen key r a b) : key a ≤ key b := by
  rcases h with hlt | ⟨heq, -⟩
  · exact hlt.le
  · exact heq.le

theorem StrictWeakOn.of_key (h : ∀ k, StrictWeakOn {a ∈ S | key a = k} r) :
    StrictWeakOn S (KeyThen key r) where
  irrefl a ha := by
    rw [keyThen_of_eq rfl]
    exact (h (key a)).irrefl a ⟨ha, rfl⟩
  asymm a ha b hb hab hba := by
    have heq : key a = key b := le_antisymm (key_le_of_keyThen hab) (key_le_of_keyThen hba)
    rw [keyThen_of_eq heq] at hab
    rw [keyThen_of_eq heq.symm] at hba
    exact (h (key b)).asymm a ⟨ha, heq⟩ b ⟨hb, rfl⟩ hab hba
  trans a ha b hb c hc hab hbc := by
    have hle := key_le_of_keyThen hab
    have hle' := key_le_of_keyThen hbc
    rcases (hle.trans hle').lt_or_eq with hlt | heq
    · exact .inl hlt
    · have hb' : key b = key c := le_antisymm hle' (heq ▸ hle)
      rw [keyThen_of_eq (heq.trans hb'.symm)] at hab
      rw [keyThen_of_eq hb'] at hbc
      rw [keyThen_of_eq heq]
      exact (h (key c)).trans a ⟨ha, heq⟩ b ⟨hb, hb'⟩ c ⟨hc, rfl⟩ hab hbc
  incomp a ha b hb c hc hab hba hbc hcb := by
    have heq := key_eq_of_not_keyThen hab hba
    have heq' := key_eq_of_not_keyThen hbc hcb
    rw [keyThen_of_eq heq] at hab
    rw [keyThen_of_eq heq.symm] at hba
    rw [keyThen_of_eq heq'] at hbc
    rw [keyThen_of_eq heq'.symm] at hcb
    rw [keyThen_of_eq (heq.trans heq'), keyThen_of_eq (heq.trans heq').symm]
    exact (h (key c)).incomp a ⟨ha, heq.trans heq'⟩ b ⟨hb, heq'⟩ c ⟨hc, rfl⟩ hab hba hbc hcb

theorem strictWeakOn_key_iff :
    StrictWeakOn S (KeyThen key r) ↔ ∀ k, StrictWeakOn {a ∈ S | key a = k} r := by
  refine ⟨fun h k => ?_, .of_key⟩
  have hsame : ∀ a ∈ {a ∈ S | key a = k}, ∀ b ∈ {a ∈ S | key a = k}, KeyThen key r a b ↔ r a b :=
    fun a ha b hb => keyThen_of_eq (ha.2.trans hb.2.symm)
  have hk : StrictWeakOn {a ∈ S | key a = k} (KeyThen key r) := h.mono fun a ha => ha.1
  constructor
  · intro a ha
    rw [← hsame a ha a ha]
    exact hk.irrefl a ha
  · intro a ha b hb
    rw [← hsame a ha b hb, ← hsame b hb a ha]
    exact hk.asymm a ha b hb
  · intro a ha b hb c hc
    rw [← hsame a ha b hb, ← hsame b hb c hc, ← hsame a ha c hc]
    exact hk.trans a ha b hb c hc
  · intro a ha b hb c hc
    rw [← hsame a ha b hb, ← hsame b hb a ha, ← hsame b hb c hc, ← hsame c hc b hb, ← hsame a ha c hc,
      ← hsame c hc a ha]
    exact hk.incomp a ha b hb c hc

end Key
