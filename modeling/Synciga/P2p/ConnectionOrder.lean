import Mathlib.Data.Prod.Lex
import Synciga.Base.TimeUtils
import Synciga.Internal.WeakOrder
import Synciga.P2p.Connection

/-!
# The order of connections

`SortConnections` calls `std::stable_sort` with `ConnectionCompare`, which compares write states and priorities
as numbers, and generations by their difference as a signed number. Three generations that do not lie within
half of the range go around in a circle, and two that are half of the range apart are not compared at all, so
that the latency decides.

## Main results

* `order_and_priority_iff` — when it is a strict weak order; the priorities of the two ends are one
-/

namespace Synciga.P2p

/-! ### Priorities -/

/-- The priorities of the candidates: `G` of the controlling side, and `D` of the controlled side. -/
def Pair.ends (p : Pair) : Option (UInt32 × UInt32) :=
  match p.port.role with
  | .unknown => none
  | .controlling => some (p.connection.localPriority, p.connection.remoteCandidate.priority)
  | .controlled => some (p.connection.remoteCandidate.priority, p.connection.localPriority)

variable (g d : UInt32)

/-- The priority of a pair, without a bound. -/
def pairPriority : ℕ :=
  2 ^ 32 * min g.toNat d.toNat + 2 * max g.toNat d.toNat + if d < g then 1 else 0

/-- The same pair of candidates, at its two ends. -/
structure Pair.Mirrored (p q : Pair) : Prop where
  controlling : p.port.role = .controlling
  controlled : q.port.role = .controlled
  localPriority : p.connection.localPriority = q.connection.remoteCandidate.priority
  remotePriority : p.connection.remoteCandidate.priority = q.connection.localPriority

theorem Pair.Mirrored.priority_eq {p q : Pair} (h : p.Mirrored q) : p.priority = q.priority := by
  rw [Pair.priority, Pair.priority, h.controlling, h.controlled, h.localPriority, h.remotePriority]

/-- What `Connection::priority` computes of two priorities. -/
def wrappedPriority : UInt64 :=
  (min g d).toUInt64 <<< 32 + (2 * max g d + if g > d then 1 else 0).toUInt64

theorem Pair.priority_of_ends {p : Pair} {g d : UInt32} (h : p.ends = some (g, d)) :
    p.priority = wrappedPriority g d := by
  rw [Pair.ends] at h
  rw [Pair.priority]
  cases hrole : p.port.role with
  | unknown =>
    rw [hrole] at h
    cases h
  | controlling =>
    rw [hrole] at h
    cases h
    rfl
  | controlled =>
    rw [hrole] at h
    cases h
    rfl

theorem toNat_wrappedPriority : (wrappedPriority g d).toNat =
      2 ^ 32 * min g.toNat d.toNat + (2 * max g.toNat d.toNat + if d < g then 1 else 0) % 2 ^ 32 := by
  have hd := d.toNat_lt
  have hcarry : (if g > d then (1 : UInt32) else 0).toNat = if d < g then 1 else 0 := by
    split <;> rfl
  have hlow : (2 * max g d + if g > d then 1 else 0 : UInt32).toNat =
      (2 * max g.toNat d.toNat + if d < g then 1 else 0) % 2 ^ 32 := by
    rw [UInt32.toNat_add, UInt32.toNat_mul, UInt32.toNat_max, hcarry, Nat.mod_add_mod]
    rfl
  have hhigh : ((min g d).toUInt64 <<< 32).toNat = 2 ^ 32 * min g.toNat d.toNat := by
    rw [UInt64.toNat_shiftLeft, UInt32.toNat_toUInt64, UInt32.toNat_min, Nat.shiftLeft_eq,
      show (32 : UInt64).toNat % 64 = 32 from rfl, Nat.mul_comm]
    exact Nat.mod_eq_of_lt (by omega)
  rw [wrappedPriority, UInt64.toNat_add, hhigh, UInt32.toNat_toUInt64, hlow]
  exact Nat.mod_eq_of_lt (by omega)

theorem Pair.priority_eq_iff {p : Pair} {g d : UInt32} (h : p.ends = some (g, d)) :
    p.priority.toNat = pairPriority g d ↔ max g.toNat d.toNat < 2 ^ 31 := by
  rw [p.priority_of_ends h, toNat_wrappedPriority, pairPriority, Nat.add_assoc, Nat.add_left_cancel_iff]
  constructor
  · intro heq
    split at heq <;> omega
  · intro hlt
    exact Nat.mod_eq_of_lt (by split <;> omega)

/-! ### Generations -/

/-- A generation is ahead of another one if the difference is a positive signed number. -/
def Ahead (x y : UInt32) : Prop := 0 < (x - y).toNat ∧ (x - y).toNat < 2 ^ 31

/-- Half of the range, from one of the three on, has all of them. -/
def WithinHalf (x y z : UInt32) : Prop :=
  ∃ w ∈ [x, y, z], (x - w).toNat < 2 ^ 31 ∧ (y - w).toNat < 2 ^ 31 ∧ (z - w).toNat < 2 ^ 31

instance (x y z : UInt32) : Decidable (WithinHalf x y z) :=
  inferInstanceAs (Decidable (∃ w ∈ [x, y, z], _))

section Generations

variable {x y z : UInt32}

theorem toInt_sub_pos_iff : 0 < (x - y).toInt32.toInt ↔ Ahead x y := by
  have hlt := (x - y).toNat_lt
  rw [toInt_toInt32, Ahead]
  split <;> omega

theorem toInt_sub_eq_zero_iff : (x - y).toInt32.toInt = 0 ↔ x = y := by
  have hx := x.toNat_lt
  have hy := y.toNat_lt
  rw [toInt_toInt32, UInt32.toNat_sub, ← UInt32.toNat_inj]
  split <;> omega

theorem withinHalf_iff : WithinHalf x y z ↔ ((y - x).toNat < 2 ^ 31 ∧ (z - x).toNat < 2 ^ 31) ∨
      ((x - y).toNat < 2 ^ 31 ∧ (z - y).toNat < 2 ^ 31) ∨
      ((x - z).toNat < 2 ^ 31 ∧ (y - z).toNat < 2 ^ 31) := by
  simp [WithinHalf]

theorem ahead_trans (h : WithinHalf x y z) (hxy : Ahead x y) (hyz : Ahead y z) : Ahead x z := by
  have hx := x.toNat_lt
  have hy := y.toNat_lt
  have hz := z.toNat_lt
  rw [withinHalf_iff] at h
  simp only [Ahead, UInt32.toNat_sub] at *
  omega

theorem ahead_cases (x y : UInt32) : x = y ∨ Ahead x y ∨ Ahead y x ∨ x - y = 2 ^ 31 := by
  have hx := x.toNat_lt
  have hy := y.toNat_lt
  rw [← UInt32.toNat_inj, ← UInt32.toNat_inj (a := x - y)]
  simp only [Ahead, UInt32.toNat_sub, show (2 ^ 31 : UInt32).toNat = 2 ^ 31 from rfl]
  omega

theorem not_ahead_of_apart (h : x - y = 2 ^ 31) : ¬ Ahead x y ∧ ¬ Ahead y x ∧ x ≠ y := by
  have hx := x.toNat_lt
  have hy := y.toNat_lt
  rw [← UInt32.toNat_inj] at h
  rw [Ne, ← UInt32.toNat_inj]
  simp only [Ahead, UInt32.toNat_sub, show (2 ^ 31 : UInt32).toNat = 2 ^ 31 from rfl] at *
  omega

theorem between_of_apart (h : x - y = 2 ^ 31) (z : UInt32) :
    z = x ∨ z = y ∨ Ahead x z ∧ Ahead z y ∨ Ahead y z ∧ Ahead z x := by
  have hx := x.toNat_lt
  have hy := y.toNat_lt
  have hz := z.toNat_lt
  rw [← UInt32.toNat_inj] at h
  rw [← UInt32.toNat_inj, ← UInt32.toNat_inj]
  simp only [Ahead, UInt32.toNat_sub, show (2 ^ 31 : UInt32).toNat = 2 ^ 31 from rfl] at *
  omega

/-- Three generations that are not within half of the range go around in a circle, or two of them are half
of the range apart. -/
theorem circle_of_not_withinHalf (h : ¬ WithinHalf x y z) :
    (x - y = 2 ^ 31 ∨ y - z = 2 ^ 31 ∨ x - z = 2 ^ 31) ∨
      Ahead x y ∧ Ahead y z ∧ Ahead z x ∨ Ahead y x ∧ Ahead x z ∧ Ahead z y := by
  have hx := x.toNat_lt
  have hy := y.toNat_lt
  have hz := z.toNat_lt
  rw [withinHalf_iff] at h
  rw [← UInt32.toNat_inj, ← UInt32.toNat_inj (a := y - z), ← UInt32.toNat_inj (a := x - z)]
  simp only [Ahead, UInt32.toNat_sub, show (2 ^ 31 : UInt32).toNat = 2 ^ 31 from rfl] at *
  omega

theorem apart_comm : x - y = 2 ^ 31 ↔ y - x = 2 ^ 31 := by
  have hx := x.toNat_lt
  have hy := y.toNat_lt
  rw [← UInt32.toNat_inj, ← UInt32.toNat_inj]
  simp only [UInt32.toNat_sub, show (2 ^ 31 : UInt32).toNat = 2 ^ 31 from rfl]
  omega

end Generations

/-! ### Connections of one write state and one priority -/

/-- What `ConnectionCompare` looks at last. -/
def Pair.Younger (a b : Pair) : Prop :=
  Ahead a.generation b.generation ∨ a.generation = b.generation ∧ a.connection.rtt < b.connection.rtt

/-- Neither the generations nor the latencies decide. -/
def Pair.Undecided (a b : Pair) : Prop :=
  a.generation - b.generation = 2 ^ 31 ∨ a.generation = b.generation ∧ a.connection.rtt = b.connection.rtt

/-- Three connections that are ordered: the generations are within half of the range, or nothing decides
between any two of them. -/
def Pair.Ordered (a b c : Pair) : Prop :=
  WithinHalf a.generation b.generation c.generation ∨ a.Undecided b ∧ b.Undecided c ∧ a.Undecided c

section Younger

variable {a b c : Pair} {F : Set Pair}

theorem Pair.not_younger_self (a : Pair) : ¬ a.Younger a := by
  rintro (hahead | ⟨-, hlt⟩)
  · rw [Ahead, UInt32.sub_self] at hahead
    exact absurd hahead.1 (by decide)
  · exact UInt32.lt_irrefl _ hlt

theorem Pair.Younger.asymm (h : a.Younger b) : ¬ b.Younger a := by
  have ha := a.generation.toNat_lt
  have hb := b.generation.toNat_lt
  rcases h with hahead | ⟨heq, hlt⟩
  · rintro (hahead' | ⟨heq, -⟩)
    · simp only [Ahead, UInt32.toNat_sub] at hahead hahead'
      omega
    · rw [heq, Ahead, UInt32.sub_self] at hahead
      exact absurd hahead.1 (by decide)
  · rintro (hahead' | ⟨-, hlt'⟩)
    · rw [heq, Ahead, UInt32.sub_self] at hahead'
      exact absurd hahead'.1 (by decide)
    · exact UInt32.lt_asymm hlt hlt'

theorem Pair.undecided_iff : a.Undecided b ↔ ¬ a.Younger b ∧ ¬ b.Younger a := by
  constructor
  · rintro (hapart | ⟨heq, hrtt⟩)
    · obtain ⟨hab, hba, hne⟩ := not_ahead_of_apart hapart
      exact ⟨not_or.mpr ⟨hab, fun h => hne h.1⟩, not_or.mpr ⟨hba, fun h => hne h.1.symm⟩⟩
    have hnone : ∀ x : UInt32, ¬ Ahead x x := by
      intro x hx
      rw [Ahead, UInt32.sub_self] at hx
      exact absurd hx.1 (by decide)
    refine ⟨not_or.mpr ⟨heq ▸ hnone _, fun h => ?_⟩, not_or.mpr ⟨heq ▸ hnone _, fun h => ?_⟩⟩
    · exact UInt32.lt_irrefl _ (hrtt ▸ h.2)
    · exact UInt32.lt_irrefl _ (hrtt ▸ h.2)
  rintro ⟨hab, hba⟩
  obtain ⟨hnotab, hrttab⟩ := not_or.mp hab
  obtain ⟨hnotba, hrttba⟩ := not_or.mp hba
  rcases ahead_cases a.generation b.generation with heq | hahead | hahead | hapart
  · refine .inr ⟨heq, UInt32.le_antisymm ?_ ?_⟩
    · exact UInt32.not_lt.mp fun hlt => hrttba ⟨heq.symm, hlt⟩
    · exact UInt32.not_lt.mp fun hlt => hrttab ⟨heq, hlt⟩
  · exact absurd hahead hnotab
  · exact absurd hahead hnotba
  · exact .inl hapart

theorem Pair.Ordered.trans (h : a.Ordered b c) (hab : a.Younger b) (hbc : b.Younger c) : a.Younger c := by
  rcases h with hhalf | ⟨hund, -, -⟩
  · rcases hab with hab | ⟨heq, hlt⟩
    · rcases hbc with hbc | ⟨heq', -⟩
      · exact .inl (ahead_trans hhalf hab hbc)
      · exact .inl (heq' ▸ hab)
    · rcases hbc with hbc | ⟨heq', hlt'⟩
      · exact .inl (heq ▸ hbc)
      · exact .inr ⟨heq.trans heq', UInt32.lt_trans hlt hlt'⟩
  · exact absurd hab (Pair.undecided_iff.mp hund).1

theorem WithinHalf.not_apart {x y z : UInt32} (h : WithinHalf x y z) : x - y ≠ 2 ^ 31 ∧ y - z ≠ 2 ^ 31 := by
  have hx := x.toNat_lt
  have hy := y.toNat_lt
  have hz := z.toNat_lt
  rw [withinHalf_iff] at h
  rw [Ne, Ne, ← UInt32.toNat_inj, ← UInt32.toNat_inj]
  simp only [UInt32.toNat_sub, show (2 ^ 31 : UInt32).toNat = 2 ^ 31 from rfl] at *
  omega

theorem Pair.Ordered.undecided (h : a.Ordered b c) (hab : a.Undecided b) (hbc : b.Undecided c) :
    a.Undecided c := by
  rcases h with hhalf | ⟨-, -, hac⟩
  · obtain ⟨hnot, hnot'⟩ := hhalf.not_apart
    obtain ⟨heq, hrtt⟩ := hab.resolve_left hnot
    obtain ⟨heq', hrtt'⟩ := hbc.resolve_left hnot'
    exact .inr ⟨heq.trans heq', hrtt.trans hrtt'⟩
  · exact hac

theorem undecided_of_apart (h : StrictWeakOn F Pair.Younger) (ha : a ∈ F) (hb : b ∈ F) (hc : c ∈ F)
    (hapart : a.generation - b.generation = 2 ^ 31) : a.Undecided c ∧ b.Undecided c := by
  have hab : a.Undecided b := .inl hapart
  have hba : b.Undecided a := .inl (apart_comm.mp hapart)
  rcases between_of_apart hapart c.generation with heq | heq | ⟨hac, hcb⟩ | ⟨hbc, hca⟩
  · have hbc : b.Undecided c := .inl (heq ▸ apart_comm.mp hapart)
    obtain ⟨hnab, hnba⟩ := Pair.undecided_iff.mp hab
    obtain ⟨hnbc, hncb⟩ := Pair.undecided_iff.mp hbc
    exact ⟨Pair.undecided_iff.mpr (h.incomp a ha b hb c hc hnab hnba hnbc hncb), hbc⟩
  · have hac : a.Undecided c := .inl (heq ▸ hapart)
    obtain ⟨hnba, hnab⟩ := Pair.undecided_iff.mp hba
    obtain ⟨hnac, hnca⟩ := Pair.undecided_iff.mp hac
    exact ⟨hac, Pair.undecided_iff.mpr (h.incomp b hb a ha c hc hnba hnab hnac hnca)⟩
  · exact absurd (h.trans a ha c hc b hb (.inl hac) (.inl hcb)) (Pair.undecided_iff.mp hab).1
  · exact absurd (h.trans b hb c hc a ha (.inl hbc) (.inl hca)) (Pair.undecided_iff.mp hab).2

theorem Pair.Undecided.symm (h : a.Undecided b) : b.Undecided a :=
  Pair.undecided_iff.mpr (Pair.undecided_iff.mp h).symm

theorem strictWeakOn_younger_iff :
    StrictWeakOn F Pair.Younger ↔ ∀ a ∈ F, ∀ b ∈ F, ∀ c ∈ F, a.Ordered b c := by
  constructor
  · intro h a ha b hb c hc
    by_cases hhalf : WithinHalf a.generation b.generation c.generation
    · exact .inl hhalf
    refine .inr ?_
    rcases circle_of_not_withinHalf hhalf with (hapart | hapart | hapart) | hcircle | hcircle
    · obtain ⟨hac, hbc⟩ := undecided_of_apart h ha hb hc hapart
      exact ⟨.inl hapart, hbc, hac⟩
    · obtain ⟨hba, hca⟩ := undecided_of_apart h hb hc ha hapart
      exact ⟨hba.symm, .inl hapart, hca.symm⟩
    · obtain ⟨hab, hcb⟩ := undecided_of_apart h ha hc hb hapart
      exact ⟨hab, hcb.symm, .inl hapart⟩
    · obtain ⟨hab, hbc, hca⟩ := hcircle
      have hac := h.trans a ha b hb c hc (.inl hab) (.inl hbc)
      exact absurd (.inl hca) (h.asymm a ha c hc hac)
    · obtain ⟨hba, hac, hcb⟩ := hcircle
      have hab := h.trans a ha c hc b hb (.inl hac) (.inl hcb)
      exact absurd (.inl hba) (h.asymm a ha b hb hab)
  · intro h
    constructor
    · exact fun a _ => a.not_younger_self
    · exact fun a _ b _ hab => hab.asymm
    · exact fun a ha b hb c hc => (h a ha b hb c hc).trans
    · intro a ha b hb c hc hab hba hbc hcb
      exact Pair.undecided_iff.mp ((h a ha b hb c hc).undecided (Pair.undecided_iff.mpr ⟨hab, hba⟩)
        (Pair.undecided_iff.mpr ⟨hbc, hcb⟩))

end Younger

/-! ### All connections -/

/-- What `ConnectionCompare` looks at first: the write state, where lower is better, and the priority. -/
def Pair.rank (p : Pair) : ℕ ×ₗ ℕᵒᵈ :=
  toLex (p.connection.writeState.value, OrderDual.toDual p.priority.toNat)

variable {a b : Pair}

theorem Pair.rank_eq_iff :
    a.rank = b.rank ↔ a.connection.writeState = b.connection.writeState ∧ a.priority = b.priority := by
  rw [Pair.rank, Pair.rank, toLex_inj, Prod.mk.injEq, OrderDual.toDual_inj, UInt64.toNat_inj,
    WriteState.value_injective.eq_iff]

theorem Pair.rank_lt_iff : a.rank < b.rank ↔ a.connection.writeState.value < b.connection.writeState.value ∨
      a.connection.writeState.value = b.connection.writeState.value ∧ b.priority < a.priority := by
  rw [Pair.rank, Pair.rank, Prod.Lex.toLex_lt_toLex, OrderDual.toDual_lt_toDual, UInt64.lt_iff_toNat_lt]

theorem connectionCompare_of_rank_eq (h : a.rank = b.rank) :
    connectionCompare a b = true ↔ a.Younger b := by
  obtain ⟨hstate, hpriority⟩ := Pair.rank_eq_iff.mp h
  have hcmp : compareConnections a b = (a.generation - b.generation).toInt32.toInt := by
    rw [compareConnections, hstate, if_neg (Nat.lt_irrefl _), if_neg (Nat.lt_irrefl _),
      compareConnectionCandidates, hpriority, if_neg (UInt64.lt_irrefl _), if_neg (UInt64.lt_irrefl _)]
  rw [connectionCompare, hcmp, Pair.Younger, ← toInt_sub_pos_iff]
  rcases lt_trichotomy (a.generation - b.generation).toInt32.toInt 0 with hneg | hzero | hpos
  · have hne : a.generation ≠ b.generation := fun heq => hneg.ne (toInt_sub_eq_zero_iff.mpr heq)
    rw [if_neg hneg.not_gt, if_pos hneg]
    exact iff_of_false Bool.false_ne_true (not_or.mpr ⟨hneg.not_gt, fun heq => hne heq.1⟩)
  · rw [hzero, if_neg (lt_irrefl 0), if_neg (lt_irrefl 0), decide_eq_true_iff,
      and_iff_right (toInt_sub_eq_zero_iff.mp hzero), or_iff_right (lt_irrefl 0)]
  · rw [if_pos hpos]
    exact iff_of_true rfl (.inl hpos)

theorem connectionCompare_iff : connectionCompare a b = true ↔ KeyThen Pair.rank Pair.Younger a b := by
  rcases lt_trichotomy a.rank b.rank with hlt | heq | hgt
  · refine iff_of_true ?_ (.inl hlt)
    rcases Pair.rank_lt_iff.mp hlt with hstate | ⟨hstate, hpriority⟩
    · rw [connectionCompare, compareConnections, if_pos hstate]
      rfl
    · rw [connectionCompare, compareConnections, hstate, if_neg (Nat.lt_irrefl _),
        if_neg (Nat.lt_irrefl _), compareConnectionCandidates, if_pos hpriority]
      rfl
  · rw [connectionCompare_of_rank_eq heq, keyThen_of_eq heq]
  refine iff_of_false ?_ ?_
  · rcases Pair.rank_lt_iff.mp hgt with hstate | ⟨hstate, hpriority⟩
    · rw [connectionCompare, compareConnections, if_neg (Nat.lt_asymm hstate), if_pos hstate]
      exact Bool.false_ne_true
    · rw [connectionCompare, compareConnections, hstate, if_neg (Nat.lt_irrefl _),
        if_neg (Nat.lt_irrefl _), compareConnectionCandidates, if_neg (UInt64.lt_asymm hpriority),
        if_pos hpriority]
      exact Bool.false_ne_true
  · rintro (hlt | ⟨heq, -⟩)
    · exact lt_asymm hlt hgt
    · exact hgt.ne heq.symm

/-- Three connections of the set that have one write state and one priority are ordered. -/
def OrderedRanks (S : Set Pair) : Prop :=
  ∀ a ∈ S, ∀ b ∈ S, ∀ c ∈ S, a.rank = b.rank → b.rank = c.rank → a.Ordered b c

/-- The comparison is a strict weak order if and only if any three connections are ordered that have the same
write state and the same priority. -/
theorem strictWeakOn_iff {S : Set Pair} :
    StrictWeakOn S (fun a b => connectionCompare a b = true) ↔ OrderedRanks S := by
  have hcompare : (fun a b : Pair => connectionCompare a b = true) = KeyThen Pair.rank Pair.Younger := by
    funext a b
    exact propext connectionCompare_iff
  rw [hcompare, strictWeakOn_key_iff]
  simp only [strictWeakOn_younger_iff]
  constructor
  · intro h a ha b hb c hc hab hbc
    exact h c.rank a ⟨ha, hab.trans hbc⟩ b ⟨hb, hbc⟩ c ⟨hc, rfl⟩
  · intro h k a ha b hb c hc
    exact h a ha.1 b hb.1 c hc.1 (ha.2.trans hb.2.symm) (hb.2.trans hc.2.symm)

/-- The order of connections, their priority, and the agreement of the two sides: this always holds, the rest
where generations and priorities keep away from the ends of 32 bits. -/
theorem order_and_priority_iff (S : Set Pair) : (StrictWeakOn S (fun a b => connectionCompare a b = true) ∧
        (∀ p ∈ S, ∀ g d, p.ends = some (g, d) → p.priority.toNat = pairPriority g d) ∧
        ∀ p ∈ S, ∀ q, p.Mirrored q ∨ q.Mirrored p → p.priority = q.priority) ↔
      OrderedRanks S ∧
        ∀ p ∈ S, ∀ g d, p.ends = some (g, d) → max g.toNat d.toNat < 2 ^ 31 := by
  rw [strictWeakOn_iff]
  constructor
  · rintro ⟨hordered, hformula, -⟩
    exact ⟨hordered, fun p hp g d hends => (p.priority_eq_iff hends).mp (hformula p hp g d hends)⟩
  · rintro ⟨hordered, hfits⟩
    refine ⟨hordered, fun p hp g d hends => (p.priority_eq_iff hends).mpr (hfits p hp g d hends), ?_⟩
    rintro p - q (hpq | hqp)
    · exact hpq.priority_eq
    · exact hqp.priority_eq.symm

/-- A connection of a controlling port, of one generation. -/
def connectionOf (localPriority priority generation : UInt32) : Pair where
  port := ⟨0, "", "local", false, 0, fun _ _ => none, .rfc5245, .controlling, 0, false⟩
  connection :=
    { port := 0, localPriority
      remoteCandidate := ⟨"", 1, "udp", ⟨.ipv4 1, 1⟩, priority, "", "", "local", "", generation, "",
        ⟨.unspec, 0⟩, ""⟩ }

/-- Three generations go around in a circle, and the double of a priority of `2 ^ 31` is zero. -/
theorem not_order_and_priority :
    (¬ StrictWeakOn {connectionOf 1 1 0, connectionOf 1 1 0x60000000, connectionOf 1 1 0xC0000000}
        fun a b => connectionCompare a b = true) ∧
      (connectionOf 0x80000000 1 0).ends = some (0x80000000, 1) ∧
      (connectionOf 0x80000000 1 0).priority.toNat ≠ pairPriority 0x80000000 1 := by
  refine ⟨fun h => ?_, rfl, by decide⟩
  have horder := h.trans (connectionOf 1 1 0xC0000000) (by simp) (connectionOf 1 1 0x60000000) (by simp)
    (connectionOf 1 1 0) (by simp) (by decide) (by decide)
  exact absurd horder (by decide)

end Synciga.P2p
