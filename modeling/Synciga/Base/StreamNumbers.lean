import Mathlib.Data.List.TakeWhile
import Mathlib.Data.UInt
import Mathlib.Tactic.Ring

/-!
# Numbers in text

Numbers that `ostringstream` prints and `istringstream` extracts (`talk/base/stringencode.h`,
`SocketAddress::PortAsString`, `Candidate::generation_str`). A number that does not fit is the closest that
does, and what is no number is zero.

## Main definitions

* `extractInt`, `extractUInt32` — extraction, behind white space
-/

namespace Synciga

/-- White space, in the classic locale. -/
def isSpace (c : Char) : Bool := c = ' ' || ('\t' ≤ c && c ≤ '\x0d')

/-- The sign, and the digits behind it. -/
def streamSign : List Char → Bool × List Char
  | '-' :: rest => (true, rest)
  | '+' :: rest => (false, rest)
  | rest => (false, rest)

variable (text : String)

/-- The sign and the amount of the number at the begin of a text. -/
def streamInteger : Option (Bool × ℕ) :=
  let (negative, rest) := streamSign (text.toList.dropWhile isSpace)
  let digits := rest.takeWhile Char.isDigit
  if digits = [] then none else some (negative, Nat.ofDigitChars 10 digits 0)

/-- `>>` for an `int`. -/
def extractInt : ℤ :=
  match streamInteger text with
  | none => 0
  | some (true, n) => max (-2 ^ 31) (-n)
  | some (false, n) => min (2 ^ 31 - 1) n

/-- `>>` for a `uint32`. A negative number is one modulo `2 ^ 32`. -/
def extractUInt32 : UInt32 :=
  match streamInteger text with
  | none => 0
  | some (negative, n) =>
    if 2 ^ 32 ≤ n then UInt32.ofNat (2 ^ 32 - 1)
    else if negative then -UInt32.ofNat n else UInt32.ofNat n

/-! ### What was written -/

theorem isSpace_eq_false_of_isDigit {c : Char} (h : c.isDigit) : isSpace c = false := by
  have hlo : 48 ≤ c.val.toNat := by
    simp only [Char.isDigit, ge_iff_le, Bool.and_eq_true, decide_eq_true_eq] at h
    exact h.1
  have hspace : c ≠ ' ' := by
    rintro rfl
    exact absurd hlo (by decide)
  have hctrl : ¬c ≤ '\x0d' := by
    intro hc
    have hle : c.val.toNat ≤ 13 := hc
    omega
  simp [isSpace, hspace, hctrl]

theorem streamSign_of_isDigit {chars : List Char} (h : ∀ c ∈ chars, c.isDigit) :
    streamSign chars = (false, chars) := by
  rcases chars with _ | ⟨c, rest⟩
  · rfl
  have hc : c.isDigit := h c (List.mem_cons_self ..)
  rw [streamSign.eq_def]
  split
  · rename_i heq
    cases heq
    exact absurd hc (by decide)
  · rename_i heq
    cases heq
    exact absurd hc (by decide)
  · rfl

theorem streamInteger_repr (n : ℕ) : streamInteger (Nat.repr n) = some (false, n) := by
  have hdigit : ∀ c ∈ Nat.toDigits 10 n, c.isDigit := fun c hc =>
    Nat.isDigit_of_mem_toDigits (by decide) (by decide) hc
  have hspace : (Nat.toDigits 10 n).dropWhile isSpace = Nat.toDigits 10 n := by
    rcases hd : Nat.toDigits 10 n with _ | ⟨c, rest⟩
    · rfl
    · rw [List.dropWhile_cons, isSpace_eq_false_of_isDigit (hdigit c (hd ▸ List.mem_cons_self ..))]
      rfl
  have htake : (Nat.toDigits 10 n).takeWhile Char.isDigit = Nat.toDigits 10 n :=
    List.takeWhile_eq_self_iff.mpr hdigit
  simp only [streamInteger, Nat.toList_repr, hspace, streamSign_of_isDigit hdigit, htake]
  rw [if_neg Nat.toDigits_ne_nil, Nat.ofDigitChars_ten_toDigits]

theorem extractInt_repr {n : ℕ} (h : n < 2 ^ 31) : extractInt (Nat.repr n) = n := by
  rw [extractInt, streamInteger_repr]
  exact min_eq_right (by omega)

theorem extractUInt32_repr (n : UInt32) : extractUInt32 (Nat.repr n.toNat) = n := by
  have hlt : ¬2 ^ 32 ≤ n.toNat := not_le.mpr n.toNat_lt
  rw [extractUInt32, streamInteger_repr]
  simp only [if_neg hlt, Bool.false_eq_true, if_false, UInt32.ofNat_toNat]

end Synciga
