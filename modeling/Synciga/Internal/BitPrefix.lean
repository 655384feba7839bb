import Mathlib.Data.Nat.Notation

/-!
# Prefixes of words

* `mask` — the first bits of a word, counted from the most significant one
-/

namespace BitPrefix

variable {w : ℕ}

/-- The word that begins with `n` ones and goes on with zeros. -/
def mask (w n : ℕ) : BitVec w := BitVec.allOnes w <<< (w - n)

theorem getMsbD_mask {i : ℕ} (hi : i < w) (n : ℕ) : (mask w n).getMsbD i = decide (i < n) := by
  rw [mask, BitVec.getMsbD_shiftLeft, BitVec.getMsbD_allOnes, decide_eq_decide]
  omega

theorem getMsbD_and_mask {i : ℕ} (hi : i < w) (x : BitVec w) (n : ℕ) :
    (x &&& mask w n).getMsbD i = (decide (i < n) && x.getMsbD i) := by
  rw [BitVec.getMsbD_and, getMsbD_mask hi, Bool.and_comm]

theorem and_mask_of_le {n : ℕ} (hn : w ≤ n) (x : BitVec w) : x &&& mask w n = x := by
  refine BitVec.eq_of_getMsbD_eq fun i hi => ?_
  rw [getMsbD_and_mask hi, decide_eq_true (Nat.lt_of_lt_of_le hi hn), Bool.true_and]

theorem and_mask_zero (x : BitVec w) : x &&& mask w 0 = 0#w := by
  refine BitVec.eq_of_getMsbD_eq fun i hi => ?_
  rw [getMsbD_and_mask hi, BitVec.getMsbD_zero]
  rfl

end BitPrefix
