import Mathlib.Tactic.Ring

/-!
# Times in milliseconds

Times of 32 bits that wrap around (`talk/base/timeutils.cc`). They are compared by their difference as a signed
number, which orders them as long as they are less than `2 ^ 31` apart.

## Main definitions

* `timeDiff`, `timeIsLater` — comparisons
-/

namespace Synciga

/-- `TimeDiff`: the difference as a signed 32-bit number. -/
def timeDiff (later earlier : UInt32) : ℤ := (later - earlier).toInt32.toInt

/-- `TimeIsLater`. -/
def timeIsLater (earlier later : UInt32) : Bool :=
  let diff := (later - earlier).toInt32
  0 < diff.toInt ∧ diff.toUInt32 < 0x80000000

theorem toInt_toInt32 (x : UInt32) :
    x.toInt32.toInt = if x.toNat < 2 ^ 31 then (x.toNat : ℤ) else x.toNat - 2 ^ 32 := by
  rw [show x.toInt32.toInt = x.toBitVec.toInt from rfl, BitVec.toInt_eq_toNat_cond,
    show x.toBitVec.toNat = x.toNat from rfl]
  split <;> split <;> omega

variable {now d : UInt32}

theorem timeDiff_add_nonpos {t : ℤ} (hpos : 0 ≤ t) (hle : t ≤ timeDiff d now) :
    timeDiff (now + UInt32.ofNat t.toNat) d ≤ 0 := by
  have hnow := now.toNat_lt
  have hd := d.toNat_lt
  simp only [timeDiff, toInt_toInt32, UInt32.toNat_sub, UInt32.toNat_add, UInt32.toNat_ofNat'] at hle ⊢
  split at hle <;> split <;> omega

theorem timeDiff_add {t : ℕ} (hle : (t : ℤ) ≤ timeDiff d now) :
    timeDiff d (now + UInt32.ofNat t) = timeDiff d now - t := by
  have hnow := now.toNat_lt
  simp only [timeDiff, toInt_toInt32, UInt32.toNat_sub, UInt32.toNat_add, UInt32.toNat_ofNat'] at hle ⊢
  split at hle <;> split <;> omega

theorem eq_add_of_timeDiff {t : ℕ} (h : timeDiff d now = t) : d = now + UInt32.ofNat t := by
  have hnow := now.toNat_lt
  have hd := d.toNat_lt
  rw [← UInt32.toNat_inj, UInt32.toNat_add, UInt32.toNat_ofNat']
  rw [timeDiff, toInt_toInt32, UInt32.toNat_sub] at h
  split at h <;> omega

/-- The two times are less than `2 ^ 31` apart, without a wrap between them. -/
def Near (a b : UInt32) : Prop := a.toNat < b.toNat + 2 ^ 31 ∧ b.toNat < a.toNat + 2 ^ 31

instance (a b : UInt32) : Decidable (Near a b) := inferInstanceAs (Decidable (_ ∧ _))

theorem timeIsLater_iff {earlier later : UInt32} (h : Near earlier later) :
    timeIsLater earlier later = true ↔ earlier < later := by
  have hlater := later.toNat_lt
  obtain ⟨h₁, h₂⟩ := h
  have hhalf : (0x80000000 : UInt32).toNat = 2 ^ 31 := rfl
  simp only [timeIsLater, decide_eq_true_iff, UInt32.toUInt32_toInt32, toInt_toInt32,
    UInt32.toNat_sub, UInt32.lt_iff_toNat_lt, hhalf]
  split <;> omega

end Synciga
