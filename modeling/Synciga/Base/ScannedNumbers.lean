import Mathlib.Data.Nat.Digits.Defs
import Mathlib.Tactic.IntervalCases

/-!
# Numbers in a text

`strtoul` for texts of bytes: white space, a sign and digits, up to the first byte that is no digit.

## Main definitions

* `strtoulEnd` — the number and what is behind it
* `numeral` — the digits of a number

## Main results

* `strtoulEnd_digits` — a numeral is read as its number
-/

namespace Synciga

/-! ### Scanning -/

/-- `isspace`. -/
def isSpaceByte (b : UInt8) : Bool := b = 32 || (9 ≤ b && b ≤ 13)

variable (base : ℕ)

/-- A digit of a base. -/
def digitOf (b : UInt8) : Option ℕ :=
  let value :=
    if 48 ≤ b && b ≤ 57 then b.toNat - 48
    else if 97 ≤ b && b ≤ 122 then b.toNat - 87
    else if 65 ≤ b && b ≤ 90 then b.toNat - 55
    else base
  if value < base then some value else none

/-- The digits at the begin of a text, and what is behind them. -/
def scanDigits (base : ℕ) : List UInt8 → List ℕ × List UInt8
  | [] => ([], [])
  | b :: text =>
    match digitOf base b with
    | none => ([], b :: text)
    | some digit => (digit :: (scanDigits base text).1, (scanDigits base text).2)

/-- A sign, and what is behind it. -/
def scanSign : List UInt8 → Bool × List UInt8
  | 43 :: text => (false, text)
  | 45 :: text => (true, text)
  | text => (false, text)

/-- An `unsigned long` of digits. -/
def ofScanned (negative : Bool) (base : ℕ) (digits : List ℕ) : ℕ :=
  let value := digits.foldl (fun n digit => n * base + digit) 0
  if 2 ^ 64 ≤ value then 2 ^ 64 - 1 else if negative then (2 ^ 64 - value) % 2 ^ 64 else value

/-- `strtoul(text, 0, 0)`: the base is told by how the number begins. -/
def strtoul (text : List UInt8) : ℕ :=
  let (negative, digits) := scanSign (text.dropWhile isSpaceByte)
  match digits with
  | 48 :: 120 :: digits => ofScanned negative 16 (scanDigits 16 digits).1
  | 48 :: 88 :: digits => ofScanned negative 16 (scanDigits 16 digits).1
  | 48 :: digits => ofScanned negative 8 (scanDigits 8 digits).1
  | digits => ofScanned negative 10 (scanDigits 10 digits).1

/-- What `strtoul` skips before the digits of a base: `0x` for hexadecimal ones, if digits follow. -/
def skipBase (text : List UInt8) : List UInt8 :=
  match text with
  | zero :: x :: digit :: rest =>
    if base = 16 ∧ zero = 48 ∧ (x = 120 ∨ x = 88) ∧ (digitOf 16 digit).isSome then digit :: rest else text
  | _ => text

/-- `strtoul(text, &end, base)`, and what is behind `end`. -/
def strtoulEnd (text : List UInt8) : ℕ × List UInt8 :=
  let (negative, digits) := scanSign (text.dropWhile isSpaceByte)
  let (digits, rest) := scanDigits base (skipBase base digits)
  if digits = [] then (0, text) else (ofScanned negative base digits, rest)

/-! ### Numerals -/

/-- The value of digits. -/
def digitsValue (digits : List ℕ) : ℕ := digits.foldl (fun n digit => n * base + digit) 0

/-- The byte of a digit. -/
def digitByte (d : ℕ) : UInt8 := UInt8.ofNat (if d < 10 then 48 + d else 87 + d)

/-- The digits of a number, the most significant one first. -/
def numeralDigits (base n : ℕ) : List ℕ := if n = 0 then [0] else (Nat.digits base n).reverse

/-- The text of a number. -/
def numeral (base n : ℕ) : List UInt8 := (numeralDigits base n).map digitByte

variable {base n : ℕ} {digits : List ℕ} {rest : List UInt8}

theorem digitOf_digitByte {d : ℕ} (hbase : base ≤ 16) (hd : d < base) : digitOf base (digitByte d) = some d := by
  have hsixteen : d < 16 := by omega
  interval_cases d <;> simp [digitOf, digitByte, hd]

theorem numeralDigits_ne_nil : numeralDigits base n ≠ [] := by
  rw [numeralDigits]
  split
  · exact List.cons_ne_nil _ _
  · rw [Ne, List.reverse_eq_nil_iff, Nat.digits_eq_nil_iff_eq_zero]
    assumption

theorem numeralDigits_lt (hbase : 1 < base) : ∀ d ∈ numeralDigits base n, d < base := by
  intro d hd
  rw [numeralDigits] at hd
  split at hd
  · rw [List.mem_singleton] at hd
    omega
  · exact Nat.digits_lt_base hbase (List.mem_reverse.mp hd)

theorem digitsValue_numeralDigits : digitsValue base (numeralDigits base n) = n := by
  rw [digitsValue, numeralDigits]
  split
  case isTrue hzero => simp [hzero]
  case isFalse =>
    have hvalue := Nat.ofDigits_digits base n
    rw [Nat.ofDigits_eq_foldr] at hvalue
    rw [List.foldl_reverse]
    simpa only [Nat.cast_id, mul_comm, add_comm] using hvalue

theorem scanDigits_map (hbase : base ≤ 16) (hdigits : ∀ d ∈ digits, d < base)
    (hrest : ∀ b ∈ rest.head?, digitOf base b = none) :
    scanDigits base (digits.map digitByte ++ rest) = (digits, rest) := by
  induction digits with
  | nil =>
    rw [List.map_nil, List.nil_append]
    cases rest with
    | nil => rfl
    | cons b rest => rw [scanDigits, hrest b rfl]
  | cons d digits ih =>
    obtain ⟨hd, hdigits⟩ := List.forall_mem_cons.mp hdigits
    rw [List.map_cons, List.cons_append, scanDigits, digitOf_digitByte hbase hd, ih hdigits]

theorem strtoulEnd_digits (hne : digits ≠ []) (hdigits : ∀ d ∈ digits, d < 10)
    (hrest : ∀ b ∈ rest.head?, digitOf 10 b = none) :
    strtoulEnd 10 (digits.map digitByte ++ rest) = (ofScanned false 10 digits, rest) := by
  have hscan := scanDigits_map (by decide) hdigits hrest
  have hskip (text : List UInt8) : skipBase 10 text = text := by
    rw [skipBase.eq_def]
    split
    · exact if_neg fun h => absurd h.1 (by decide)
    · rfl
  have hsign : scanSign ((digits.map digitByte ++ rest).dropWhile isSpaceByte) =
      (false, digits.map digitByte ++ rest) := by
    cases digits with
    | nil => exact absurd rfl hne
    | cons d digits =>
      have hd : d < 10 := hdigits d List.mem_cons_self
      interval_cases d <;> rfl
  rw [strtoulEnd, hsign]
  simp only [hskip, hscan, if_neg hne]

theorem ofScanned_of_lt (h : digitsValue base digits < 2 ^ 64) :
    ofScanned false base digits = digitsValue base digits :=
  if_neg (not_le.mpr h)

end Synciga
