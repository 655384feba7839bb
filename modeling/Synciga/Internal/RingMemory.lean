import Mathlib.Data.List.Basic
import Mathlib.Tactic.Ring

/-!
# Ring memory

A block of memory is a function from indices to cells, and a ring lays a sequence out in it, wrapping at its
end. Code copies in and out of it in two pieces, up to the end of the block and then from its beginning.

## Main definitions

* `readMem`, `memcpy` — accesses to a block
* `ringAt` — and cyclic ones to a ring
-/

namespace RingMemory

variable {α : Type*}

variable (mem : ℕ → α)

/-- The `n` cells of `mem` from index `pos` on. -/
def readMem (pos n : ℕ) : List α := (List.range n).map fun i => mem (pos + i)

/-- `mem` with the cells of `src` copied to index `dst` and after. -/
def memcpy (dst : ℕ) (src : List α) : ℕ → α :=
  fun i => if dst ≤ i then (src[i - dst]?).getD (mem i) else mem i

/-- The cell at cyclic distance `i` from `start` in a ring of length `cap`. -/
def ringAt (cap start i : ℕ) : α := mem ((start + i) % cap)

@[simp] theorem length_readMem (pos n : ℕ) : (readMem mem pos n).length = n := by
  simp [readMem]

@[simp] theorem getElem?_readMem (pos n i : ℕ) :
    (readMem mem pos n)[i]? = if i < n then some (mem (pos + i)) else none := by
  by_cases h : i < n <;> simp [readMem, h]

variable {dst i : ℕ}

theorem memcpy_of_lt {mem : ℕ → α} (src : List α) (h : i < dst) : memcpy mem dst src i = mem i := by
  simp [memcpy, Nat.not_le.mpr h]

variable {src : List α}

theorem memcpy_of_le {mem : ℕ → α} (h : dst + src.length ≤ i) : memcpy mem dst src i = mem i := by
  unfold memcpy
  split
  · rw [List.getElem?_eq_none (by omega)]
    rfl
  · rfl

theorem memcpy_of_mem {mem : ℕ → α} (h : dst ≤ i)
    (hi : i < dst + src.length) : memcpy mem dst src i = src[i - dst] := by
  simp [memcpy, h, List.getElem?_eq_getElem (show i - dst < src.length by omega)]

theorem readMem_add (pos n k : ℕ) :
    readMem mem pos (n + k) = readMem mem pos n ++ readMem mem (pos + n) k := by
  rw [readMem, readMem, readMem, List.range_add, List.map_append, List.map_map]
  simp only [Function.comp_def, Nat.add_assoc]

theorem readMem_memcpy (dst : ℕ) (src : List α) : readMem (memcpy mem dst src) dst src.length = src := by
  refine List.ext_getElem? fun i => ?_
  rw [getElem?_readMem]
  split
  next hi =>
    rw [memcpy_of_mem (Nat.le_add_right dst i) (Nat.add_lt_add_left hi dst), List.getElem?_eq_getElem hi]
    simp only [Nat.add_sub_cancel_left]
  next hi => rw [List.getElem?_eq_none (Nat.not_lt.mp hi)]

theorem readMem_memcpy_of_le {dst pos n : ℕ} (src : List α) (h : pos + n ≤ dst) :
    readMem (memcpy mem dst src) pos n = readMem mem pos n := by
  refine List.map_congr_left fun i hi => ?_
  have hi := List.mem_range.mp hi
  exact memcpy_of_lt src (by omega)

theorem take_readMem (pos : ℕ) {n k : ℕ} (h : n ≤ k) : (readMem mem pos k).take n = readMem mem pos n := by
  obtain ⟨m, rfl⟩ := Nat.exists_eq_add_of_le h
  rw [readMem_add, List.take_left' (length_readMem _ _ _)]

theorem drop_readMem (pos : ℕ) {n k : ℕ} (h : n ≤ k) :
    (readMem mem pos k).drop n = readMem mem (pos + n) (k - n) := by
  obtain ⟨m, rfl⟩ := Nat.exists_eq_add_of_le h
  rw [readMem_add, List.drop_left' (length_readMem _ _ _), Nat.add_sub_cancel_left]

/-! ### Wrapping -/

theorem add_mod_of_lt {cap p i : ℕ} (hp : p < cap) (hi : i < cap - p) : (p + i) % cap = p + i :=
  Nat.mod_eq_of_lt (by omega)

theorem add_mod_of_ge {cap p i : ℕ} (hp : p < cap) (hi : i < cap) (h : cap - p ≤ i) :
    (p + i) % cap = i - (cap - p) := by
  rw [Nat.mod_eq_sub_mod (by omega), Nat.mod_eq_of_lt (by omega)]
  omega

theorem ringAt_add (cap start n i : ℕ) :
    ringAt mem cap ((start + n) % cap) i = ringAt mem cap start (n + i) := by
  simp [ringAt, Nat.mod_add_mod, Nat.add_assoc]

theorem readMem_wrap {cap p n : ℕ} (hp : p < cap) (hn : n ≤ cap) :
    readMem mem p (min n (cap - p)) ++ readMem mem 0 (n - min n (cap - p)) =
      (List.range n).map (ringAt mem cap p) := by
  refine List.ext_getElem? fun i => ?_
  rcases Nat.lt_or_ge i (min n (cap - p)) with h | h
  · rw [List.getElem?_append_left (by simpa using h), getElem?_readMem, if_pos h,
      List.getElem?_map, List.getElem?_range (by omega)]
    simp [ringAt, add_mod_of_lt hp (show i < cap - p by omega)]
  rw [List.getElem?_append_right (by simpa using h), getElem?_readMem, length_readMem,
    List.getElem?_map]
  rcases Nat.lt_or_ge i n with hi | hi
  · rw [if_pos (by omega), List.getElem?_range hi]
    simp only [Option.map_some, ringAt, Nat.zero_add, Option.some.injEq]
    rw [add_mod_of_ge hp (by omega) (by omega), show min n (cap - p) = cap - p by omega]
  · rw [if_neg (by omega), List.getElem?_eq_none (by simpa using hi)]
    rfl

/-- The two-piece write of `src` is the cyclic write: it sets the cells at distance `0, …, src.length - 1` from
`p` and keeps the others. -/
theorem memcpy_wrap {cap p : ℕ} (src : List α) (hp : p < cap)
    (hn : src.length ≤ cap) {i : ℕ} (hi : i < cap) :
    ringAt (memcpy (memcpy mem p (src.take (min src.length (cap - p)))) 0
        (src.drop (min src.length (cap - p)))) cap p i =
      (src[i]?).getD (ringAt mem cap p i) := by
  unfold ringAt
  rcases Nat.lt_or_ge i (cap - p) with h | h
  · rw [add_mod_of_lt hp h, memcpy_of_le (by simp; omega)]
    rcases Nat.lt_or_ge i src.length with hs | hs
    · rw [memcpy_of_mem (by omega) (by simp; omega)]
      simp [hs]
    · rw [memcpy_of_le (by simp; omega), List.getElem?_eq_none hs]
      rfl
  rw [add_mod_of_ge hp hi h]
  rcases Nat.lt_or_ge i src.length with hs | hs
  · rw [memcpy_of_mem (by omega) (by simp; omega)]
    simp [hs, show min src.length (cap - p) = cap - p by omega,
      show cap - p + (i - (cap - p)) = i by omega]
  · rw [memcpy_of_le (by simp; omega), memcpy_of_lt _ (by omega), List.getElem?_eq_none hs]
    rfl

theorem memcpy_wrap_from {cap d : ℕ} (start : ℕ)
    (hd : d + src.length ≤ cap) (hcap : 0 < cap) {i : ℕ} (hi : i < cap) :
    let p := (start + d) % cap
    let t := min src.length (cap - p)
    ringAt (memcpy (memcpy mem p (src.take t)) 0 (src.drop t)) cap start i =
      if d ≤ i then (src[i - d]?).getD (ringAt mem cap start i) else ringAt mem cap start i := by
  intro p t
  have hp : p < cap := Nat.mod_lt _ hcap
  split
  case isTrue h =>
    have key := memcpy_wrap mem src hp (by omega) (show i - d < cap by omega)
    rw [ringAt_add, ringAt_add, show d + (i - d) = i by omega] at key
    exact key
  case isFalse h =>
    -- The cell lies before the written range: go once round the ring to reach it.
    have key := memcpy_wrap mem src hp (by omega) (show cap - d + i < cap by omega)
    rw [ringAt_add, ringAt_add, show d + (cap - d + i) = i + cap by omega] at key
    rw [List.getElem?_eq_none (by omega)] at key
    simpa [ringAt, ← Nat.add_assoc] using key

end RingMemory
