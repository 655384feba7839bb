import Mathlib.Data.List.Nodup

/-!
# Items that owners hold, and an index of them

Owners hold numbered items, every item has a key, and an index gives for a key the item that is held under it.
When an item is made its key must be free; an owner that leaves withdraws what it holds.

## Main definitions

* `Registry` with `enroll`, `withdraw` and `leave`
* `Exact` — the index has exactly what is held
-/

/-- Items, owners and an index. -/
structure Registry (ω κ : Type*) where
  /-- The owners and the keys of all items that were made. -/
  items : List (ω × κ)
  held : ω → Option (List ℕ)
  index : κ → Option ℕ

namespace Registry

variable {ω κ : Type*} {r r' : Registry ω κ} {owner : ω} {k : κ} {i : ℕ} {l : List ℕ}

/-- Somebody holds an item. -/
def Held (r : Registry ω κ) (i : ℕ) : Prop := ∃ owner l, r.held owner = some l ∧ i ∈ l

/-- The key of an item. -/
def key (r : Registry ω κ) (i : ℕ) : Option κ := r.items[i]?.map Prod.snd

/-- The index has exactly the items that are held, each under its key. -/
def Exact (r : Registry ω κ) : Prop := ∀ k i, r.index k = some i ↔ r.Held i ∧ r.key i = some k

/-- The index is exact, and the lists of the owners are of their own items, each only once. -/
structure Sound (r : Registry ω κ) : Prop where
  exact : r.Exact
  owned : ∀ owner l, r.held owner = some l → ∀ i ∈ l, ∃ k, r.items[i]? = some (owner, k)
  nodup : ∀ owner l, r.held owner = some l → l.Nodup

theorem Exact.unshared (h : r.Exact) {j : ℕ} (hi : r.Held i) (hj : r.Held j) (hki : r.key i = some k)
    (hkj : r.key j = some k) : i = j := by
  have hindex := (h k i).mpr ⟨hi, hki⟩
  rw [(h k j).mpr ⟨hj, hkj⟩] at hindex
  exact (Option.some.inj hindex).symm

theorem key_of_items (h : r.items[i]? = some (owner, k)) : r.key i = some k := by
  rw [key, h]
  rfl

theorem Sound.key (h : r.Sound) (hl : r.held owner = some l) (hi : i ∈ l) : ∃ k, r.key i = some k := by
  obtain ⟨k, hk⟩ := h.owned owner l hl i hi
  exact ⟨k, key_of_items hk⟩

theorem Sound.lt (h : r.Sound) (hi : r.Held i) : i < r.items.length := by
  obtain ⟨owner, l, hl, hi⟩ := hi
  obtain ⟨k, hk⟩ := h.owned owner l hl i hi
  exact (List.getElem?_eq_some_iff.mp hk).1

theorem Sound.owner_eq (h : r.Sound) {other : ω} {l' : List ℕ} (hl : r.held owner = some l)
    (hl' : r.held other = some l') (hi : i ∈ l) (hi' : i ∈ l') : owner = other := by
  obtain ⟨k, hk⟩ := h.owned owner l hl i hi
  obtain ⟨k', hk'⟩ := h.owned other l' hl' i hi'
  rw [hk] at hk'
  exact congrArg Prod.fst (Option.some.inj hk')

theorem sound_empty : (⟨[], fun _ => none, fun _ => none⟩ : Registry ω κ).Sound where
  exact k i := iff_of_false nofun fun h => by
    obtain ⟨⟨_, _, hl, _⟩, _⟩ := h
    cases hl
  owned _ _ hl := by cases hl
  nodup _ _ hl := by cases hl

section Owners

variable [DecidableEq ω]

/-! ### Owners come -/

/-- An owner comes, with nothing. -/
def enroll (owner : ω) (r : Registry ω κ) : Registry ω κ :=
  { r with held := Function.update r.held owner (some []) }

theorem Sound.enroll (h : r.Sound) (hnew : r.held owner = none) : (r.enroll owner).Sound := by
  have hheld (other : ω) (l : List ℕ) (hl : (r.enroll owner).held other = some l) :
      l = [] ∨ r.held other = some l := by
    by_cases hother : other = owner
    · subst hother
      change Function.update r.held other (some []) other = some l at hl
      rw [Function.update_self] at hl
      exact .inl (Option.some.inj hl).symm
    · change Function.update r.held owner (some []) other = some l at hl
      rw [Function.update_of_ne hother] at hl
      exact .inr hl
  have hkeeps (other : ω) (l : List ℕ) (hl : r.held other = some l) :
      (r.enroll owner).held other = some l := by
    change Function.update r.held owner (some []) other = some l
    rw [Function.update_of_ne (by rintro rfl; rw [hnew] at hl; cases hl)]
    exact hl
  refine ⟨fun k i => ?_, ?_, ?_⟩
  · change r.index k = some i ↔ _ ∧ r.key i = some k
    rw [h.exact k i]
    refine and_congr_left fun _ => ⟨?_, ?_⟩
    · rintro ⟨other, l, hl, hi⟩
      exact ⟨other, l, hkeeps other l hl, hi⟩
    · rintro ⟨other, l, hl, hi⟩
      rcases hheld other l hl with rfl | hl
      · exact absurd hi List.not_mem_nil
      · exact ⟨other, l, hl, hi⟩
  · intro other l hl i hi
    rcases hheld other l hl with rfl | hl
    · exact absurd hi List.not_mem_nil
    · exact h.owned other l hl i hi
  · intro other l hl
    rcases hheld other l hl with rfl | hl
    · exact List.nodup_nil
    · exact h.nodup other l hl

end Owners

section Index

variable [DecidableEq κ]

/-! ### Items are taken out -/

/-- The key of an item is taken out of an index. -/
def withdraw (r : Registry ω κ) (index : κ → Option ℕ) (i : ℕ) : κ → Option ℕ :=
  match r.key i with
  | none => index
  | some k => Function.update index k none

theorem withdraw_apply (r : Registry ω κ) (index : κ → Option ℕ) (i : ℕ) (k : κ) :
    r.withdraw index i k = if r.key i = some k then none else index k := by
  rw [withdraw]
  cases hkey : r.key i with
  | none => rfl
  | some k' =>
    by_cases hk : k' = k
    · subst hk
      exact (Function.update_self _ _ _).trans (if_pos rfl).symm
    · exact (Function.update_of_ne (Ne.symm hk) _ _).trans
        (if_neg fun h => hk (Option.some.inj h)).symm

theorem foldl_withdraw_apply (r : Registry ω κ) (l : List ℕ) (index : κ → Option ℕ) (k : κ) :
    l.foldl r.withdraw index k = if ∃ i ∈ l, r.key i = some k then none else index k := by
  induction l generalizing index with
  | nil => exact (if_neg (by rintro ⟨_, hi, _⟩; cases hi)).symm
  | cons i l ih =>
    rw [List.foldl_cons, ih, withdraw_apply]
    by_cases htail : ∃ j ∈ l, r.key j = some k
    · obtain ⟨j, hj, hjk⟩ := htail
      rw [if_pos ⟨j, hj, hjk⟩, if_pos ⟨j, List.mem_cons_of_mem i hj, hjk⟩]
    rw [if_neg htail]
    by_cases hi : r.key i = some k
    · rw [if_pos hi, if_pos ⟨i, List.mem_cons_self, hi⟩]
    · rw [if_neg hi, if_neg]
      rintro ⟨j, hj, hjk⟩
      rcases List.mem_cons.mp hj with rfl | hj
      · exact hi hjk
      · exact htail ⟨j, hj, hjk⟩

theorem Sound.withdraws (h : r.Sound) {front back : List ℕ}
    (hl : r.held owner = some (front ++ i :: back)) (hk : r.key i = some k) :
    front.foldl r.withdraw r.index k = some i := by
  have hi : r.Held i := ⟨owner, _, hl, List.mem_append_right _ List.mem_cons_self⟩
  rw [foldl_withdraw_apply, if_neg]
  · exact (h.exact k i).mpr ⟨hi, hk⟩
  · rintro ⟨j, hj, hjk⟩
    have hji := h.exact.unshared ⟨owner, _, hl, List.mem_append_left _ hj⟩ hi hjk hk
    subst hji
    exact (List.nodup_append.mp (h.nodup owner _ hl)).2.2 j hj j List.mem_cons_self rfl

end Index

section Changes

variable [DecidableEq ω] [DecidableEq κ]

/-! ### Items are made -/

/-- An owner makes an item and puts it into the index. -/
structure Adds (owner : ω) (k : κ) (r r' : Registry ω κ) : Prop where
  items : r'.items = r.items ++ [(owner, k)]
  held : ∃ l l', r.held owner = some l ∧ l'.Perm (r.items.length :: l) ∧
    r'.held = Function.update r.held owner (some l')
  index : r'.index = Function.update r.index k (some r.items.length)

theorem Adds.held_cases (h : Adds owner k r r') {other : ω} {l : List ℕ} (hl : r'.held other = some l) :
    (other = owner ∧ ∃ l₀, r.held owner = some l₀ ∧ l.Perm (r.items.length :: l₀)) ∨
      r.held other = some l := by
  obtain ⟨l₀, l', hl₀, hperm, hheld⟩ := h.held
  rw [hheld] at hl
  by_cases hother : other = owner
  · subst hother
    rw [Function.update_self] at hl
    cases hl
    exact .inl ⟨rfl, l₀, hl₀, hperm⟩
  · rw [Function.update_of_ne hother] at hl
    exact .inr hl

theorem Adds.held_iff (h : Adds owner k r r') (i : ℕ) : r'.Held i ↔ r.Held i ∨ i = r.items.length := by
  constructor
  · rintro ⟨other, l, hl, hi⟩
    rcases h.held_cases hl with ⟨-, l₀, hl₀, hperm⟩ | hl
    · rcases List.mem_cons.mp (hperm.mem_iff.mp hi) with hi | hi
      · exact .inr hi
      · exact .inl ⟨owner, l₀, hl₀, hi⟩
    · exact .inl ⟨other, l, hl, hi⟩
  obtain ⟨l₀, l', hl₀, hperm, hheld⟩ := h.held
  have hown : r'.held owner = some l' := by rw [hheld, Function.update_self]
  rintro (⟨other, l, hl, hi⟩ | rfl)
  · by_cases hother : other = owner
    · subst hother
      rw [hl₀] at hl
      cases hl
      exact ⟨other, l', hown, hperm.mem_iff.mpr (List.mem_cons_of_mem _ hi)⟩
    · exact ⟨other, l, by rw [hheld, Function.update_of_ne hother, hl], hi⟩
  · exact ⟨owner, l', hown, hperm.mem_iff.mpr List.mem_cons_self⟩

theorem Sound.adds (h : r.Sound) (hadds : Adds owner k r r') (hfree : r.index k = none) : r'.Sound := by
  have hold {i : ℕ} (hlt : i < r.items.length) : r'.items[i]? = r.items[i]? := by
    rw [hadds.items, List.getElem?_append_left hlt]
  have hnew : r'.items[r.items.length]? = some (owner, k) := by
    rw [hadds.items, List.getElem?_concat_length]
  refine ⟨fun k' i => ?_, ?_, ?_⟩
  · rw [hadds.held_iff, hadds.index]
    by_cases hi : i = r.items.length
    · subst hi
      rw [key_of_items hnew, Option.some.injEq]
      constructor
      · intro hindex
        refine ⟨.inr rfl, ?_⟩
        by_contra hne
        rw [Function.update_of_ne (Ne.symm hne)] at hindex
        exact absurd (h.lt ((h.exact k' _).mp hindex).1) (Nat.lt_irrefl _)
      · rintro ⟨-, rfl⟩
        exact Function.update_self _ _ _
    have hkey : r.Held i → r'.key i = r.key i := fun hheld => by
      rw [Registry.key, Registry.key, hold (h.lt hheld)]
    by_cases hk : k' = k
    · subst hk
      rw [Function.update_self]
      refine iff_of_false (fun heq => hi (Option.some.inj heq).symm) ?_
      rintro ⟨hheld | hheld, hk'⟩
      · rw [hkey hheld] at hk'
        rw [(h.exact k' i).mpr ⟨hheld, hk'⟩] at hfree
        cases hfree
      · exact hi hheld
    rw [Function.update_of_ne hk, h.exact k' i]
    constructor
    · rintro ⟨hheld, hk'⟩
      exact ⟨.inl hheld, (hkey hheld).trans hk'⟩
    · rintro ⟨hheld | hheld, hk'⟩
      · exact ⟨hheld, (hkey hheld).symm.trans hk'⟩
      · exact absurd hheld hi
  · intro other l hl i hi
    rcases hadds.held_cases hl with ⟨rfl, l₀, hl₀, hperm⟩ | hl
    · rcases List.mem_cons.mp (hperm.mem_iff.mp hi) with rfl | hi
      · exact ⟨k, hnew⟩
      · obtain ⟨k', hk'⟩ := h.owned other l₀ hl₀ i hi
        exact ⟨k', by rw [hold (h.lt ⟨other, l₀, hl₀, hi⟩), hk']⟩
    · obtain ⟨k', hk'⟩ := h.owned other l hl i hi
      exact ⟨k', by rw [hold (h.lt ⟨other, l, hl, hi⟩), hk']⟩
  · intro other l hl
    rcases hadds.held_cases hl with ⟨rfl, l₀, hl₀, hperm⟩ | hl
    · rw [hperm.nodup_iff, List.nodup_cons]
      exact ⟨fun hmem => absurd (h.lt ⟨other, l₀, hl₀, hmem⟩) (Nat.lt_irrefl _), h.nodup other l₀ hl₀⟩
    · exact h.nodup other l hl

/-! ### Owners leave -/

/-- An owner leaves and withdraws its items. -/
def leave (owner : ω) (l : List ℕ) (r : Registry ω κ) : Registry ω κ :=
  { r with
    held := Function.update r.held owner none
    index := l.foldl r.withdraw r.index }

theorem Sound.leave (h : r.Sound) (hl : r.held owner = some l) : (r.leave owner l).Sound := by
  have hheld (other : ω) (l' : List ℕ) :
      (r.leave owner l).held other = some l' ↔ other ≠ owner ∧ r.held other = some l' := by
    change Function.update r.held owner none other = some l' ↔ _
    by_cases hother : other = owner
    · subst hother
      rw [Function.update_self]
      exact iff_of_false nofun fun h => h.1 rfl
    · rw [Function.update_of_ne hother]
      exact (and_iff_right hother).symm
  refine ⟨fun k i => ?_, ?_, ?_⟩
  · change l.foldl r.withdraw r.index k = some i ↔ _ ∧ r.key i = some k
    rw [foldl_withdraw_apply]
    have hrest : (r.leave owner l).Held i ↔ r.Held i ∧ i ∉ l := by
      constructor
      · rintro ⟨other, l', hl', hi⟩
        obtain ⟨hother, hl'⟩ := (hheld other l').mp hl'
        exact ⟨⟨other, l', hl', hi⟩, fun hil => hother (h.owner_eq hl' hl hi hil)⟩
      rintro ⟨⟨other, l', hl', hi⟩, hil⟩
      refine ⟨other, l', (hheld other l').mpr ⟨?_, hl'⟩, hi⟩
      rintro rfl
      rw [hl] at hl'
      cases hl'
      exact hil hi
    rw [hrest]
    by_cases hgone : ∃ j ∈ l, r.key j = some k
    · rw [if_pos hgone]
      refine iff_of_false nofun ?_
      rintro ⟨⟨hi, hil⟩, hk⟩
      obtain ⟨j, hj, hjk⟩ := hgone
      exact hil (h.exact.unshared ⟨owner, l, hl, hj⟩ hi hjk hk ▸ hj)
    · rw [if_neg hgone, h.exact k i]
      exact ⟨fun ⟨hi, hk⟩ => ⟨⟨hi, fun hil => hgone ⟨i, hil, hk⟩⟩, hk⟩, fun ⟨⟨hi, _⟩, hk⟩ => ⟨hi, hk⟩⟩
  · intro other l' hl'
    exact h.owned other l' ((hheld other l').mp hl').2
  · intro other l' hl'
    exact h.nodup other l' ((hheld other l').mp hl').2

end Changes

end Registry
