import Synciga.Internal.BitPrefix
import Synciga.Stun.Message

/-!
# Network prefixes

Networks are told apart by the first bits of their addresses. `TruncateIP` goes word by word, and
`CountIPMaskBits` counts the bits of a mask again.

## Main results

* `networkPrefixes` — the first bits stay and the others are zero; two addresses are cut to the same one exactly
  if their first bits agree
-/

namespace Synciga

/-! ### Addresses as words -/

namespace IPAddress

/-- `operator==`: the families, and `memcmp`. -/
def operatorEq : IPAddress → IPAddress → Bool
  | .unspec, .unspec => true
  | .ipv4 a, .ipv4 b => a == b
  | .ipv6 a₀ a₁ a₂ a₃, .ipv6 b₀ b₁ b₂ b₃ => a₀ == b₀ && a₁ == b₁ && a₂ == b₂ && a₃ == b₃
  | _, _ => false

theorem operatorEq_iff (a b : IPAddress) : a.operatorEq b = true ↔ a = b := by
  cases a <;> cases b <;> simp [operatorEq, and_assoc]

/-- The words of an address, in host order each. -/
def words : IPAddress → List UInt32
  | .unspec => []
  | .ipv4 w => [w]
  | .ipv6 w₀ w₁ w₂ w₃ => [w₀, w₁, w₂, w₃]

/-- The number of bits of an address. -/
def size (a : IPAddress) : ℕ := 32 * a.words.length

/-- A bit of an address, the first one being the most significant one. -/
def bit (a : IPAddress) (i : ℕ) : Bool := a.words[i / 32]?.any fun w => w.toBitVec.getMsbD (i % 32)

theorem words_inj {a b : IPAddress} (h : a.words = b.words) : a = b := by
  cases a <;> cases b <;> simp_all [words]

end IPAddress

/-! ### The functions -/

/-- The mask of `TruncateIP` for a word of which this many bits are left, computed with 64 bits. -/
def innerMask (innerLength : ℤ) : UInt32 :=
  ((0xFFFFFFFF : UInt64) <<< UInt64.ofNat innerLength.toNat).toUInt32

/-- A round of the loop of `TruncateIP`. -/
def truncateWord (position : ℤ) (mask : UInt32) (i : ℤ) (word : UInt32) : UInt32 :=
  if i = position then word &&& mask
  else if i > position then 0
  else word

/-- `TruncateIP`. -/
def truncateIP (ip : IPAddress) (length : ℤ) : IPAddress :=
  if length < 0 then .unspec
  else
    match ip with
    | .ipv4 w =>
      if length > 31 then ip
      else if length = 0 then .ipv4 0
      else .ipv4 (w &&& (0xFFFFFFFF <<< UInt32.ofNat (32 - length).toNat))
    | .ipv6 w₀ w₁ w₂ w₃ =>
      if length > 127 then ip
      else if length = 0 then .ipv6 0 0 0 0
      else
        let position := length / 32
        let mask := innerMask (32 - (length - position * 32))
        .ipv6 (truncateWord position mask 0 w₀) (truncateWord position mask 1 w₁)
          (truncateWord position mask 2 w₂) (truncateWord position mask 3 w₃)
    | .unspec => .unspec

/-- The number of zeros at the end of a word. -/
def trailingZeroes (word : UInt32) : UInt32 :=
  let word := word &&& -word
  let zeroes : UInt32 := 32
  let zeroes := if word ≠ 0 then zeroes - 1 else zeroes
  let zeroes := if word &&& 0x0000FFFF ≠ 0 then zeroes - 16 else zeroes
  let zeroes := if word &&& 0x00FF00FF ≠ 0 then zeroes - 8 else zeroes
  let zeroes := if word &&& 0x0F0F0F0F ≠ 0 then zeroes - 4 else zeroes
  let zeroes := if word &&& 0x33333333 ≠ 0 then zeroes - 2 else zeroes
  if word &&& 0x55555555 ≠ 0 then zeroes - 1 else zeroes

/-- `CountIPMaskBits`. -/
def countIPMaskBits (mask : IPAddress) : ℕ :=
  match mask with
  | .unspec => 0
  | .ipv4 w => if w = 0 then 0 else (32 - trailingZeroes w).toNat
  | .ipv6 .. =>
    let i := mask.words.findIdx (· ≠ 0xFFFFFFFF)
    let wordToCount := mask.words[i]?.getD 0
    if wordToCount = 0 then i * 32 else i * 32 + (32 - trailingZeroes wordToCount).toNat

/-! ### Truncation, bit by bit -/

variable (n : ℕ)

/-- The first bits of a word. -/
def prefixWord (w : UInt32) : UInt32 := .ofBitVec (w.toBitVec &&& BitPrefix.mask 32 n)

theorem prefixWord_of_le {n : ℕ} (hn : 32 ≤ n) (w : UInt32) : prefixWord n w = w := by
  rw [prefixWord, BitPrefix.and_mask_of_le hn]

theorem prefixWord_zero (w : UInt32) : prefixWord 0 w = 0 := by
  rw [prefixWord, BitPrefix.and_mask_zero]
  rfl

theorem and_shifted {n : ℕ} (hpos : 0 < n) (hn : n < 32) (w : UInt32) :
    w &&& (0xFFFFFFFF <<< UInt32.ofNat (32 - n)) = prefixWord n w := by
  have hmask : ∀ k < 32, 0 < k →
      ((0xFFFFFFFF : UInt32) <<< UInt32.ofNat (32 - k)).toBitVec = BitPrefix.mask 32 k := by
    decide
  rw [prefixWord, ← hmask n hn hpos]
  rfl

theorem and_innerMask {n : ℕ} (hn : n < 32) (w : UInt32) : w &&& innerMask (32 - n : ℕ) = prefixWord n w := by
  have hmask : ∀ k < 32, (innerMask (32 - k : ℕ)).toBitVec = BitPrefix.mask 32 k := by
    decide
  rw [prefixWord, ← hmask n hn]
  rfl

theorem truncateWord_eq (n i : ℕ) (w : UInt32) :
    truncateWord ((n : ℤ) / 32) (innerMask (32 - ((n : ℤ) - (n : ℤ) / 32 * 32))) i w =
      prefixWord (n - 32 * i) w := by
  have hinner : 32 - ((n : ℤ) - (n : ℤ) / 32 * 32) = (32 - n % 32 : ℕ) := by omega
  have hrest : n % 32 < 32 := Nat.mod_lt _ (by decide)
  rw [truncateWord, hinner, and_innerMask hrest]
  split
  · rename_i hat
    congr 1
    omega
  split
  · rename_i hbehind
    have hzero : n - 32 * i = 0 := by omega
    rw [hzero, prefixWord_zero]
  · have hwhole : 32 ≤ n - 32 * i := by omega
    rw [prefixWord_of_le hwhole]

variable (a : IPAddress)

theorem words_truncateIP (n : ℕ) :
    (truncateIP a n).words = a.words.mapIdx fun i w => prefixWord (n - 32 * i) w := by
  have hnonneg : ¬(n : ℤ) < 0 := by omega
  rw [truncateIP.eq_def, if_neg hnonneg]
  cases a with
  | unspec => rfl
  | ipv4 w =>
    dsimp only
    split
    · have hn : 32 ≤ n := by omega
      exact (congrArg (fun w => [w]) (prefixWord_of_le hn w)).symm
    split
    · obtain rfl : n = 0 := by omega
      exact (congrArg (fun w => [w]) (prefixWord_zero w)).symm
    · have hshift : (32 - (n : ℤ)).toNat = 32 - n := by omega
      rw [hshift, and_shifted (by omega) (by omega)]
      rfl
  | ipv6 w₀ w₁ w₂ w₃ =>
    have hwords (f : ℕ → UInt32 → UInt32) :
        [w₀, w₁, w₂, w₃].mapIdx f = [f 0 w₀, f 1 w₁, f 2 w₂, f 3 w₃] := rfl
    dsimp only
    split
    · have hwhole (i : ℕ) (hi : i < 4) (w : UInt32) : prefixWord (n - 32 * i) w = w :=
        prefixWord_of_le (by omega) w
      rw [IPAddress.words, hwords, hwhole 0 (by decide), hwhole 1 (by decide), hwhole 2 (by decide),
        hwhole 3 (by decide)]
    split
    · obtain rfl : n = 0 := by omega
      rw [IPAddress.words, IPAddress.words, hwords]
      simp only [Nat.zero_sub, prefixWord_zero]
    · rw [IPAddress.words, IPAddress.words, hwords]
      have hword := truncateWord_eq n
      exact congrArg₂ _ (hword 0 w₀) (congrArg₂ _ (hword 1 w₁) (congrArg₂ _ (hword 2 w₂)
        (congrArg₂ _ (hword 3 w₃) rfl)))

theorem size_truncateIP (n : ℕ) : (truncateIP a n).size = a.size := by
  rw [IPAddress.size, words_truncateIP, List.length_mapIdx, IPAddress.size]

theorem bit_truncateIP (n i : ℕ) : (truncateIP a n).bit i = (decide (i < n) && a.bit i) := by
  rw [IPAddress.bit, words_truncateIP, List.getElem?_mapIdx, IPAddress.bit]
  cases a.words[i / 32]? with
  | none => exact (Bool.and_false _).symm
  | some w =>
    have hin : i % 32 < 32 := Nat.mod_lt _ (by decide)
    have hlt : i % 32 < n - 32 * (i / 32) ↔ i < n := by omega
    change (w.toBitVec &&& BitPrefix.mask 32 (n - 32 * (i / 32))).getMsbD (i % 32) = _
    rw [BitPrefix.getMsbD_and_mask hin, decide_eq_decide.mpr hlt]
    rfl

theorem IPAddress.eq_of_bits {a b : IPAddress} (hsize : a.size = b.size) (hbits : ∀ i, a.bit i = b.bit i) :
    a = b := by
  have hlength : a.words.length = b.words.length := Nat.eq_of_mul_eq_mul_left (by decide) hsize
  refine IPAddress.words_inj (List.ext_getElem hlength fun k ha hb => ?_)
  refine UInt32.toBitVec_inj.mp (BitVec.eq_of_getMsbD_eq fun i hi => ?_)
  have hbit := hbits (32 * k + i)
  have hword : (32 * k + i) / 32 = k := by omega
  have hrest : (32 * k + i) % 32 = i := by omega
  rwa [IPAddress.bit, IPAddress.bit, hword, hrest, List.getElem?_eq_getElem ha,
    List.getElem?_eq_getElem hb] at hbit

/-! ### Networks -/

/-- The addresses are of one family, and so are their first bits. -/
def OnSameNetwork (a b : IPAddress) : Prop := a.size = b.size ∧ ∀ i < n, a.bit i = b.bit i

theorem truncateIP_truncateIP (m n : ℕ) : truncateIP (truncateIP a m) n = truncateIP a (min m n : ℕ) := by
  refine IPAddress.eq_of_bits ?_ fun i => ?_
  · rw [size_truncateIP, size_truncateIP, size_truncateIP]
  · have hmin : (i < n ∧ i < m) ↔ i < min m n := by rw [lt_min_iff, and_comm]
    rw [bit_truncateIP, bit_truncateIP, bit_truncateIP, ← Bool.and_assoc, ← Bool.decide_and,
      decide_eq_decide.mpr hmin]

theorem truncateIP_eq_iff (a b : IPAddress) : truncateIP a n = truncateIP b n ↔ OnSameNetwork n a b := by
  constructor
  · intro h
    refine ⟨?_, fun i hi => ?_⟩
    · rw [← size_truncateIP a n, h, size_truncateIP]
    · have hbit := congrArg (fun c => c.bit i) h
      simpa only [bit_truncateIP, hi, decide_true, Bool.true_and] using hbit
  rintro ⟨hsize, hbits⟩
  refine IPAddress.eq_of_bits ?_ fun i => ?_
  · rw [size_truncateIP, size_truncateIP, hsize]
  · rw [bit_truncateIP, bit_truncateIP]
    by_cases hi : i < n
    · rw [hbits i hi]
    · rw [decide_eq_false hi]
      rfl

/-! ### Counting the bits of a mask -/

theorem trailingZeroes_prefixWord : ∀ n < 32, 0 < n →
    prefixWord n 0xFFFFFFFF ≠ 0xFFFFFFFF ∧ prefixWord n 0xFFFFFFFF ≠ 0 ∧
      (32 - trailingZeroes (prefixWord n 0xFFFFFFFF)).toNat = n := by
  decide

theorem countIPMaskBits_ipv4 : countIPMaskBits (truncateIP (.ipv4 0xFFFFFFFF) n) = min n 32 := by
  have hwords : truncateIP (.ipv4 0xFFFFFFFF) n = .ipv4 (prefixWord n 0xFFFFFFFF) :=
    IPAddress.words_inj (words_truncateIP _ n)
  rw [hwords, countIPMaskBits]
  rcases Nat.eq_zero_or_pos n with rfl | hpos
  · rw [prefixWord_zero]
    rfl
  · rcases Nat.lt_or_ge n 32 with hlt | hge
    · obtain ⟨-, hne, hcount⟩ := trailingZeroes_prefixWord n hlt hpos
      rw [if_neg hne, hcount, min_eq_left hlt.le]
    · rw [prefixWord_of_le hge, min_eq_right hge]
      decide

theorem prefixWord_ones (n i : ℕ) : prefixWord (n - 32 * i) 0xFFFFFFFF =
    if i < n / 32 then 0xFFFFFFFF else if i = n / 32 then prefixWord (n % 32) 0xFFFFFFFF else 0 := by
  split
  · exact prefixWord_of_le (by omega) _
  · split
    · have hrest : n - 32 * i = n % 32 := by omega
      rw [hrest]
    · have hrest : n - 32 * i = 0 := by omega
      rw [hrest, prefixWord_zero]

theorem countIPMaskBits_words {w₀ w₁ w₂ w₃ word : UInt32} {ones rest : List UInt32}
    (hwords : [w₀, w₁, w₂, w₃] = ones ++ word :: rest) (hones : ∀ w ∈ ones, w = 0xFFFFFFFF)
    (hword : word ≠ 0xFFFFFFFF) : countIPMaskBits (.ipv6 w₀ w₁ w₂ w₃) =
      if word = 0 then ones.length * 32
      else ones.length * 32 + (32 - trailingZeroes word).toNat := by
  have hidx : (ones ++ word :: rest).findIdx (· ≠ 0xFFFFFFFF) = ones.length := by
    have hnone : ones.findIdx (· ≠ 0xFFFFFFFF) = ones.length :=
      List.findIdx_eq_length.mpr fun w hw => by simpa using hones w hw
    rw [List.findIdx_append, hnone, if_neg (Nat.lt_irrefl _), List.findIdx_cons, decide_eq_true hword]
    exact Nat.zero_add _
  have hget : (ones ++ word :: rest)[ones.length]?.getD 0 = word := by
    rw [List.getElem?_append_right le_rfl, Nat.sub_self]
    rfl
  rw [countIPMaskBits, IPAddress.words, hwords, hidx, hget]

theorem map_range_four (f : ℕ → UInt32) : ∀ p < 4,
    [f 0, f 1, f 2, f 3] = (List.range p).map f ++ f p :: (List.range' (p + 1) (3 - p)).map f := by
  intro p hp
  obtain rfl | rfl | rfl | rfl : p = 0 ∨ p = 1 ∨ p = 2 ∨ p = 3 := by omega
  all_goals rfl

theorem countIPMaskBits_ipv6 :
    countIPMaskBits (truncateIP (.ipv6 0xFFFFFFFF 0xFFFFFFFF 0xFFFFFFFF 0xFFFFFFFF) n) = min n 128 := by
  set f := fun i => prefixWord (n - 32 * i) 0xFFFFFFFF with hf
  have haddress : truncateIP (.ipv6 0xFFFFFFFF 0xFFFFFFFF 0xFFFFFFFF 0xFFFFFFFF) n =
      .ipv6 (f 0) (f 1) (f 2) (f 3) := IPAddress.words_inj (words_truncateIP _ n)
  rw [haddress]
  rcases Nat.lt_or_ge (n / 32) 4 with hlt | hge
  · have hones : ∀ w ∈ (List.range (n / 32)).map f, w = 0xFFFFFFFF := by
      intro w hw
      obtain ⟨i, hi, rfl⟩ := List.mem_map.mp hw
      exact (prefixWord_ones n i).trans (if_pos (List.mem_range.mp hi))
    have hword : f (n / 32) = prefixWord (n % 32) 0xFFFFFFFF :=
      (prefixWord_ones n (n / 32)).trans ((if_neg (Nat.lt_irrefl _)).trans (if_pos rfl))
    have hrest : n % 32 < 32 := Nat.mod_lt _ (by decide)
    have hmin : min n 128 = n := by omega
    rcases Nat.eq_zero_or_pos (n % 32) with hzero | hpos
    · rw [hzero, prefixWord_zero] at hword
      have hne : f (n / 32) ≠ 0xFFFFFFFF := by rw [hword]; decide
      rw [countIPMaskBits_words (map_range_four f _ hlt) hones hne, if_pos hword, List.length_map,
        List.length_range, hmin]
      omega
    · obtain ⟨hne, hnonzero, hcount⟩ := trailingZeroes_prefixWord (n % 32) hrest hpos
      rw [← hword] at hne hnonzero hcount
      rw [countIPMaskBits_words (map_range_four f _ hlt) hones hne, if_neg hnonzero, hcount,
        List.length_map, List.length_range, hmin]
      omega
  · have hwhole (i : ℕ) (hi : i < 4) : f i = 0xFFFFFFFF := prefixWord_of_le (by omega) _
    have hmin : min n 128 = 128 := by omega
    rw [hwhole 0 (by decide), hwhole 1 (by decide), hwhole 2 (by decide), hwhole 3 (by decide), hmin]
    decide

/-- A truncated address has its first bits, followed by zeros; truncated twice, the fewer; the bits of a mask
are counted; and two addresses are on one network if and only if their truncations compare equal. -/
theorem networkPrefixes : (∀ (a : IPAddress) (n : ℕ), (truncateIP a n).size = a.size ∧
      ∀ i < a.size, (truncateIP a n).bit i = if i < n then a.bit i else false) ∧
    (∀ (a : IPAddress) (m n : ℕ), truncateIP (truncateIP a m) n = truncateIP a (min m n : ℕ)) ∧
    (∀ n : ℕ, countIPMaskBits (truncateIP (.ipv4 0xFFFFFFFF) n) = min n 32) ∧
    (∀ n : ℕ, countIPMaskBits (truncateIP (.ipv6 0xFFFFFFFF 0xFFFFFFFF 0xFFFFFFFF 0xFFFFFFFF) n) =
      min n 128) ∧
    ∀ (a b : IPAddress) (n : ℕ),
      (truncateIP a n).operatorEq (truncateIP b n) = true ↔ OnSameNetwork n a b := by
  refine ⟨fun a n => ⟨size_truncateIP a n, fun i _ => ?_⟩, truncateIP_truncateIP, countIPMaskBits_ipv4,
    countIPMaskBits_ipv6, fun a b n => ?_⟩
  · rw [bit_truncateIP]
    by_cases hi : i < n
    · rw [if_pos hi, decide_eq_true hi, Bool.true_and]
    · rw [if_neg hi, decide_eq_false hi, Bool.false_and]
  · rw [IPAddress.operatorEq_iff, truncateIP_eq_iff]

end Synciga
