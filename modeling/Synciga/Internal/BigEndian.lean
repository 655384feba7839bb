import Mathlib.Data.UInt

/-!
# Numbers in network order

* `toBytes`, `ofBytes` — a number in `k` bytes, the most significant first, and back
-/

namespace BigEndian

/-- The last `k` bytes of a number. -/
def toBytes : ℕ → ℕ → List UInt8
  | 0, _ => []
  | k + 1, n => toBytes k (n / 256) ++ [UInt8.ofNat n]

variable (l : List UInt8)

/-- The number that the bytes stand for. -/
def ofBytes : ℕ := l.foldl (fun n b => n * 256 + b.toNat) 0

@[simp] theorem length_toBytes (k n : ℕ) : (toBytes k n).length = k := by
  induction k generalizing n with
  | zero => rfl
  | succ k ih => rw [toBytes, List.length_append, ih, List.length_singleton]

theorem ofBytes_append_singleton (b : UInt8) : ofBytes (l ++ [b]) = ofBytes l * 256 + b.toNat := by
  rw [ofBytes, List.foldl_append]
  rfl

theorem ofBytes_lt : ofBytes l < 256 ^ l.length := by
  induction l using List.reverseRecOn with
  | nil => exact Nat.one_pos
  | append_singleton l b ih =>
    have hb := b.toNat_lt
    rw [ofBytes_append_singleton, List.length_append, List.length_singleton, pow_succ]
    omega

theorem ofBytes_toBytes {k n : ℕ} (h : n < 256 ^ k) : ofBytes (toBytes k n) = n := by
  induction k generalizing n with
  | zero =>
    rw [pow_zero, Nat.lt_one_iff] at h
    rw [h]
    rfl
  | succ k ih =>
    have hdiv : n / 256 < 256 ^ k := by
      rw [Nat.div_lt_iff_lt_mul (by decide)]
      exact h
    rw [toBytes, ofBytes_append_singleton, ih hdiv, UInt8.toNat_ofNat']
    omega

theorem toBytes_ofBytes : toBytes l.length (ofBytes l) = l := by
  induction l using List.reverseRecOn with
  | nil => rfl
  | append_singleton l b ih =>
    have hb := b.toNat_lt
    have hdiv : (ofBytes l * 256 + b.toNat) / 256 = ofBytes l := by omega
    have hmod : UInt8.ofNat (ofBytes l * 256 + b.toNat) = b := by
      apply UInt8.toNat_inj.mp
      rw [UInt8.toNat_ofNat']
      omega
    rw [List.length_append, List.length_singleton, toBytes, ofBytes_append_singleton, hdiv, ih, hmod]

end BigEndian
