import Mathlib.Order.Iterate
import Synciga.Internal.MemoryReads
import Synciga.Stun.Integrity
import Synciga.Stun.RequestManager

/-!
# What the validators of a STUN message read

`ValidateMessageIntegrity` and `ValidateFingerprint` with the positions they read. The first one reads the
length from the header of an empty datagram, and counts the twenty bytes of the HMAC from where its record
begins, not its value: for a record that is declared twenty bytes in front of the end it reads four bytes behind
it.

## Main results

* `validators_within_iff` — on which datagrams they stay inside
-/

namespace Synciga

open RingMemory

/-- `GetBE16`. -/
def readBE16 (data : ℕ → UInt8) (pos : ℕ) : Reading UInt16 := do
  let bytes ← Reading.cells data pos 2
  pure (UInt16.ofNat (BigEndian.ofBytes bytes))

/-- `GetBE32`. -/
def readBE32 (data : ℕ → UInt8) (pos : ℕ) : Reading UInt32 := do
  let bytes ← Reading.cells data pos 4
  pure (UInt32.ofNat (BigEndian.ofBytes bytes))

section BigEndian

variable (data : ℕ → UInt8) {size : ℕ} (pos : ℕ)

@[simp] theorem value_readBE16 : (readBE16 data pos).value = getBE16 data pos := rfl

theorem within_readBE16 : (readBE16 data pos).Within size ↔ pos + 2 ≤ size := by
  rw [readBE16, Reading.within_bind, Reading.within_cells _ _ (by decide)]
  exact and_iff_left (Reading.within_pure _)

theorem within_readBE32 : (readBE32 data pos).Within size ↔ pos + 4 ≤ size := by
  rw [readBE32, Reading.within_bind, Reading.within_cells _ _ (by decide)]
  exact and_iff_left (Reading.within_pure _)

end BigEndian

namespace StunMessage

/-! ### The validators -/

/-- A round of the loop of `ValidateMessageIntegrity`: the position of the next record, or where the
`MESSAGE-INTEGRITY` record is, if it is. -/
def scanRound (data : ℕ → UInt8) (size currentPos : ℕ) : Reading (Option ℕ ⊕ ℕ) :=
  if currentPos < size then do
    -- Getting attribute type and length.
    let attrType ← readBE16 data currentPos
    let attrLength ← readBE16 data (currentPos + 2)
    if attrType = STUN_ATTR_MESSAGE_INTEGRITY then
      if attrLength.toNat ≠ kStunMessageIntegritySize ∨ size < currentPos + attrLength.toNat then
        pure (.inl none)
      else pure (.inl (some currentPos))
    else
      let next := currentPos + 2 + 2 + attrLength.toNat
      pure (.inr (if attrLength.toNat % 4 ≠ 0 then next + (4 - attrLength.toNat % 4) else next))
  else pure (.inl none)

/-- The `temp_data` of `ValidateMessageIntegrity`: the bytes in front of the record are copied. -/
def readTempData (data : ℕ → UInt8) (size miPos : ℕ) : Reading (List UInt8) := do
  let _ ← Reading.cells data 0 miPos
  pure (tempData data size miPos)

/-- What `ValidateMessageIntegrity` does after its loop, if that has ended. -/
def readHmac (hmac : Hmac) (data : ℕ → UInt8) (size : ℕ) (password : List UInt8) :
    Option (Option ℕ) → Reading (Option Bool)
  | none => pure none
  | some none => pure (some false)
  | some (some miPos) => do
    let tempData ← readTempData data size miPos
    -- Comparing the calculated HMAC with the one present in the message.
    let value ← Reading.cells data (miPos + kStunAttributeHeaderSize) kStunMessageIntegritySize
    pure (some (decide (value = hmac.compute password tempData)))

/-- `ValidateMessageIntegrity`, with so many rounds of its loop. -/
def readMessageIntegrity (hmac : Hmac) (data : ℕ → UInt8) (size : ℕ) (password : List UInt8)
    (rounds : ℕ) : Reading (Option Bool) :=
  if size % 4 ≠ 0 then pure (some false)
  else do
    let msgLength ← readBE16 data 2
    if size ≠ msgLength.toNat + kStunHeaderSize then pure (some false)
    else do
      let found ← Reading.loop (scanRound data size) rounds kStunHeaderSize
      readHmac hmac data size password found

/-- `ValidateFingerprint`. -/
def readFingerprint (crc : List UInt8 → UInt32) (data : ℕ → UInt8) (size : ℕ) : Reading Bool :=
  let fingerprintAttrSize := kStunAttributeHeaderSize + 4
  -- Check the message length.
  if size % 4 ≠ 0 ∨ size < kStunHeaderSize + fingerprintAttrSize then pure false
  else do
    -- Skip the rest if the magic cookie isn't present.
    let magicCookie ← readBE32 data (kStunTransactionIdOffset - kStunMagicCookieLength)
    if magicCookie ≠ kStunMagicCookie then pure false
    else do
      -- Check the fingerprint type and length.
      let attrType ← readBE16 data (size - fingerprintAttrSize)
      if attrType ≠ STUN_ATTR_FINGERPRINT then pure false
      else do
        let attrLength ← readBE16 data (size - fingerprintAttrSize + 2)
        if attrLength ≠ 4 then pure false
        else do
          -- Check the fingerprint value.
          let fingerprint ← readBE32 data (size - fingerprintAttrSize + kStunAttributeHeaderSize)
          let bytes ← Reading.cells data 0 (size - fingerprintAttrSize)
          pure (decide (fingerprint ^^^ STUN_FINGERPRINT_XOR_VALUE = crc bytes))

/-! ### The fingerprint -/

theorem within_readFingerprint (crc : List UInt8 → UInt32) (data : ℕ → UInt8) (size : ℕ) :
    (readFingerprint crc data size).Within size := by
  rw [readFingerprint]
  split
  · exact Reading.within_pure _
  next hsize =>
  have hsize : 20 + 8 ≤ size := Nat.not_lt.mp (not_or.mp hsize).2
  have hattr : kStunAttributeHeaderSize + 4 = 8 := rfl
  refine (Reading.within_bind _ _).mpr ⟨(within_readBE32 _ _).mpr ?_, ?_⟩
  · exact (show 8 ≤ size by omega)
  split
  · exact Reading.within_pure _
  refine (Reading.within_bind _ _).mpr ⟨(within_readBE16 _ _).mpr (by omega), ?_⟩
  split
  · exact Reading.within_pure _
  refine (Reading.within_bind _ _).mpr ⟨(within_readBE16 _ _).mpr (by omega), ?_⟩
  split
  · exact Reading.within_pure _
  refine (Reading.within_bind _ _).mpr ⟨(within_readBE32 _ _).mpr ?_, ?_⟩
  · exact (show size - 8 + 4 + 4 ≤ size by omega)
  refine (Reading.within_bind _ _).mpr ⟨?_, Reading.within_pure _⟩
  exact (Reading.within_cells _ _ (by omega)).mpr (by omega)

/-! ### The loop -/

section Scan

variable {data : ℕ → UInt8} {size pos : ℕ}

theorem value_scanRound (data : ℕ → UInt8) (size pos : ℕ) : (scanRound data size pos).value =
      if pos < size then
        if getBE16 data pos = STUN_ATTR_MESSAGE_INTEGRITY then
          if (getBE16 data (pos + 2)).toNat ≠ kStunMessageIntegritySize ∨
              size < pos + (getBE16 data (pos + 2)).toNat then .inl none
          else .inl (some pos)
        else .inr (nextRecord data pos)
      else .inl none := by
  rw [scanRound]
  split
  · change (if getBE16 data pos = STUN_ATTR_MESSAGE_INTEGRITY then
        if (getBE16 data (pos + 2)).toNat ≠ kStunMessageIntegritySize ∨
            size < pos + (getBE16 data (pos + 2)).toNat then pure (.inl none)
        else pure (.inl (some pos))
      else pure (.inr _) : Reading (Option ℕ ⊕ ℕ)).value = _
    rw [Reading.value_ite, Reading.value_ite, skip_padded]
    rfl
  · rfl

theorem scanRound_eq_inr {next : ℕ} (h : (scanRound data size pos).value = .inr next) :
    pos < size ∧ getBE16 data pos ≠ STUN_ATTR_MESSAGE_INTEGRITY ∧ next = nextRecord data pos := by
  rw [value_scanRound] at h
  split at h
  next hlt =>
    split at h
    · split at h <;> cases h
    next hother => exact ⟨hlt, hother, (Sum.inr.inj h).symm⟩
  · cases h

theorem scanRound_eq_found {found : ℕ} (hrecord : RecordAt data size pos)
    (h : (scanRound data size pos).value = .inl (some found)) :
    pos = found ∧ FirstIntegrity data size pos ∧
      (getBE16 data (pos + 2)).toNat = kStunMessageIntegritySize ∧
      pos + kStunMessageIntegritySize ≤ size := by
  rw [value_scanRound] at h
  split at h
  next hlt =>
    split at h
    next htype =>
      split at h
      · cases h
      next hchecked =>
        rw [not_or, not_not, Nat.not_lt] at hchecked
        refine ⟨Option.some.inj (Sum.inl.inj h), ⟨hrecord, hlt, htype⟩, hchecked.1, ?_⟩
        rw [← hchecked.1]
        exact hchecked.2
    · cases h
  · cases h

theorem RecordAt.keep {s : ℕ} (h : RecordAt data size s) (s' : ℕ)
    (hround : (scanRound data size s).value = .inr s') : RecordAt data size s' := by
  obtain ⟨hlt, hother, rfl⟩ := scanRound_eq_inr hround
  exact h.next hlt hother

theorem within_scanRound (haligned : size % 4 = 0) (h : RecordAt data size pos) :
    (scanRound data size pos).Within size := by
  obtain ⟨-, hpos⟩ := h.aligned
  rw [scanRound]
  split
  next hlt =>
    refine (Reading.within_bind _ _).mpr ⟨(within_readBE16 _ _).mpr (by omega), ?_⟩
    refine (Reading.within_bind _ _).mpr ⟨(within_readBE16 _ _).mpr (by omega), ?_⟩
    split
    · split <;> exact Reading.within_pure _
    · exact Reading.within_pure _
  · exact Reading.within_pure _

theorem within_scan (haligned : size % 4 = 0) (rounds : ℕ) :
    (Reading.loop (scanRound data size) rounds kStunHeaderSize).Within size :=
  Reading.loop_within (fun _ => within_scanRound haligned) (fun _ s' h => h.keep s') .first rounds

theorem scan_isSome (data : ℕ → UInt8) {size rounds : ℕ} (hrounds : size ≤ rounds)
    (hsize : kStunHeaderSize ≤ size) :
    (Reading.loop (scanRound data size) rounds kStunHeaderSize).value.isSome := by
  have hheader : kStunHeaderSize = 20 := rfl
  refine Reading.loop_isSome (μ := fun pos => size - pos) (fun pos next hround => ?_) (by omega)
  obtain ⟨hlt, -, rfl⟩ := scanRound_eq_inr hround
  rw [nextRecord]
  omega

theorem findIntegrity_of_scan {rounds : ℕ} {found : Option ℕ}
    (h : (Reading.loop (scanRound data size) rounds pos).value = some found) :
    findIntegrity data size rounds pos = found := by
  refine Reading.loop_spec (f := findIntegrity data size) ?_ ?_ h
  · intro n s a hround
    rw [value_scanRound] at hround
    rw [findIntegrity_succ]
    split at hround
    next hlt =>
      rw [if_pos hlt]
      split at hround
      next htype =>
        rw [if_pos htype]
        split at hround
        next hchecked =>
          rw [if_pos hchecked]
          exact Sum.inl.inj hround
        next hchecked =>
          rw [if_neg hchecked]
          exact Sum.inl.inj hround
      · cases hround
    next hend =>
      rw [if_neg hend]
      exact Sum.inl.inj hround
  · intro n s s' hround
    obtain ⟨hlt, hother, rfl⟩ := scanRound_eq_inr hround
    rw [findIntegrity_succ, if_pos hlt, if_neg hother]

theorem scan_of_first {P rounds : ℕ} {found : Option ℕ} (hfirst : FirstIntegrity data size P)
    (hlength : (getBE16 data (P + 2)).toNat = kStunMessageIntegritySize)
    (hle : P + kStunMessageIntegritySize ≤ size)
    (h : (Reading.loop (scanRound data size) rounds kStunHeaderSize).value = some found) :
    found = some P := by
  obtain ⟨n, hP, -⟩ := hfirst.record.iterate
  -- from where the loop is, the record of the HMAC is still to come
  let inv : ℕ → Prop := fun pos => RecordAt data size pos ∧ ∃ k, (nextRecord data)^[k] pos = P
  have hkeep : ∀ s s', inv s → (scanRound data size s).value = .inr s' → inv s' := by
    rintro s s' ⟨hrecord, k, hk⟩ hround
    refine ⟨hrecord.keep s' hround, ?_⟩
    obtain ⟨-, hother, rfl⟩ := scanRound_eq_inr hround
    cases k with
    | zero =>
      rw [Function.iterate_zero_apply] at hk
      exact absurd (hk ▸ hfirst.integrity) hother
    | succ k => exact ⟨k, hk⟩
  obtain ⟨pos, ⟨hrecord, k, hk⟩, hend⟩ := Reading.exists_end_of_loop _ hkeep ⟨.first, n, hP.symm⟩ h
  have hbehind : pos ≤ P := by
    have hnext : id ≤ nextRecord data := fun i => by
      exact (Nat.le_add_right i 4).trans (Nat.le_add_right _ _)
    rw [← hk]
    exact Function.id_le_iterate_of_id_le hnext k pos
  have hlt : pos < size := Nat.lt_of_le_of_lt hbehind hfirst.inside
  rw [value_scanRound, if_pos hlt] at hend
  split at hend
  next htype =>
    obtain rfl := FirstIntegrity.unique ⟨hrecord, hlt, htype⟩ hfirst
    rw [hlength, if_neg (not_or.mpr ⟨not_not.mpr rfl, Nat.not_lt.mpr hle⟩)] at hend
    exact (Sum.inl.inj hend).symm
  · cases hend

end Scan

/-! ### Both validators -/

section Validators

variable {hmac : Hmac} {crc : List UInt8 → UInt32} {data : ℕ → UInt8} {size : ℕ}
  {password : List UInt8} {rounds : ℕ}

theorem exists_scan (data : ℕ → UInt8) {size rounds : ℕ} (hrounds : size ≤ rounds)
    (hsize : kStunHeaderSize ≤ size) :
    (Reading.loop (scanRound data size) rounds kStunHeaderSize).value =
      some (findIntegrity data size size kStunHeaderSize) := by
  obtain ⟨found, hfound⟩ := Option.isSome_iff_exists.mp (scan_isSome data le_rfl hsize)
  rw [Reading.loop_of_le hrounds hfound, hfound, findIntegrity_of_scan hfound]

theorem value_readMessageIntegrity (hrounds : size ≤ rounds) :
    (readMessageIntegrity hmac data size password rounds).value =
      some (validateMessageIntegrity hmac data size password) := by
  rw [readMessageIntegrity, validateMessageIntegrity]
  split
  · rfl
  rw [Reading.value_bind, value_readBE16]
  dsimp only
  split
  · rfl
  next hsize =>
    rw [Reading.value_bind, exists_scan data hrounds (by omega)]
    cases findIntegrity data size size kStunHeaderSize with
    | none => rfl
    | some miPos => rfl

/-- The record of the HMAC is declared right in front of the last twenty bytes, which are to be its
header and its value. -/
structure CutIntegrity (data : ℕ → UInt8) (size : ℕ) : Prop where
  counted : size = (getBE16 data 2).toNat + kStunHeaderSize
  first : FirstIntegrity data size (size - kStunMessageIntegritySize)
  length : (getBE16 data (size - kStunMessageIntegritySize + 2)).toNat = kStunMessageIntegritySize

/-- Sixteen bytes behind the header of the record. -/
example : CutIntegrity (memory shortBytes fun _ => 0) 40 :=
  ⟨by decide, ⟨.first, by decide, by decide⟩, by decide⟩

theorem within_readHmac {miPos : ℕ} (hfront : 0 < miPos) :
    (readHmac hmac data size password (some (some miPos))).Within size ↔ miPos + 24 ≤ size := by
  rw [readHmac, Reading.within_bind, Reading.within_bind, readTempData, Reading.within_bind,
    Reading.within_cells _ _ hfront, Reading.within_cells _ _ (by decide)]
  constructor
  · exact fun h => h.2.1
  · exact fun h => ⟨⟨by omega, Reading.within_pure _⟩, h, Reading.within_pure _⟩

theorem readMessageIntegrity_of_aligned (haligned : size % 4 = 0) :
    readMessageIntegrity hmac data size password rounds = readBE16 data 2 >>= fun msgLength =>
        if size ≠ msgLength.toNat + kStunHeaderSize then pure (some false)
        else Reading.loop (scanRound data size) rounds kStunHeaderSize >>=
          readHmac hmac data size password := by
  rw [readMessageIntegrity, if_neg (not_not.mpr haligned)]

theorem within_readMessageIntegrity (haligned : size % 4 = 0) (hsize : size ≠ 0)
    (hcut : ¬ CutIntegrity data size) (rounds : ℕ) :
    (readMessageIntegrity hmac data size password rounds).Within size := by
  have hvalue : kStunMessageIntegritySize = 20 := rfl
  rw [readMessageIntegrity_of_aligned haligned]
  refine (Reading.within_bind _ _).mpr ⟨(within_readBE16 _ _).mpr (by omega), ?_⟩
  split
  · exact Reading.within_pure _
  next hcounted =>
  have hcounted := not_not.mp hcounted
  refine (Reading.within_bind _ _).mpr ⟨within_scan haligned rounds, ?_⟩
  rcases hfound : (Reading.loop (scanRound data size) rounds kStunHeaderSize).value with _ | _ | miPos
  · exact Reading.within_pure _
  · exact Reading.within_pure _
  obtain ⟨pos, hrecord, hend⟩ :=
    Reading.exists_end_of_loop (RecordAt data size) (fun _ s' h => h.keep s') .first hfound
  obtain ⟨rfl, hfirst, hlength, hle⟩ := scanRound_eq_found hrecord hend
  obtain ⟨hbegin, hpos⟩ := hrecord.aligned
  refine (within_readHmac (by omega)).mpr ?_
  by_contra hlt
  -- between records at multiples of four there is no other place
  have hplace : size - kStunMessageIntegritySize = pos := by omega
  exact hcut ⟨hcounted, hplace ▸ hfirst, hplace ▸ hlength⟩

theorem CutIntegrity.not_within (h : CutIntegrity data size) (haligned : size % 4 = 0)
    (hrounds : size ≤ rounds) :
    ¬ (readMessageIntegrity hmac data size password rounds).Within size := by
  have hvalue : kStunMessageIntegritySize = 20 := rfl
  obtain ⟨hbegin, -⟩ := h.first.record.aligned
  intro hwithin
  rw [readMessageIntegrity_of_aligned haligned] at hwithin
  have hrest := ((Reading.within_bind _ _).mp hwithin).2
  rw [value_readBE16, if_neg (not_not.mpr h.counted)] at hrest
  have hcompare := ((Reading.within_bind _ _).mp hrest).2
  have hscan := exists_scan data hrounds (h.counted ▸ Nat.le_add_left _ _)
  rw [scan_of_first h.first h.length (by omega) hscan] at hscan
  rw [hscan, within_readHmac (by omega)] at hcompare
  omega

/-- The validators stay inside the datagram in all cases but two, and their loop always ends. -/
theorem validators_within_iff (hmac : Hmac) (crc : List UInt8 → UInt32) (data : ℕ → UInt8) (size : ℕ)
    (password : List UInt8) :
    ((∀ rounds, (readMessageIntegrity hmac data size password rounds).Within size) ∧
        (readFingerprint crc data size).Within size ∧
        ∀ rounds ≥ size, (readMessageIntegrity hmac data size password rounds).value =
          some (validateMessageIntegrity hmac data size password)) ↔
      size % 4 ≠ 0 ∨ size ≠ 0 ∧ ¬ CutIntegrity data size := by
  constructor
  · rintro ⟨hwithin, -, -⟩
    by_cases haligned : size % 4 = 0
    · refine .inr ⟨?_, fun hcut => hcut.not_within haligned le_rfl (hwithin size)⟩
      rintro rfl
      have hread := hwithin 0
      exact absurd ((within_readBE16 _ _).mp ((Reading.within_bind _ _).mp hread).1) (by decide)
    · exact .inl haligned
  intro h
  refine ⟨fun rounds => ?_, within_readFingerprint crc data size,
    fun rounds hrounds => value_readMessageIntegrity hrounds⟩
  by_cases haligned : size % 4 = 0
  · obtain ⟨hsize, hcut⟩ := h.resolve_left (not_not.mpr haligned)
    exact within_readMessageIntegrity haligned hsize hcut rounds
  · rw [readMessageIntegrity, if_pos haligned]
    exact Reading.within_pure _

/-- The length of an empty datagram is read from behind it. -/
theorem not_within_empty_datagram :
    ¬ (readMessageIntegrity ⟨fun _ _ => List.replicate 20 0, fun _ _ => rfl⟩ (fun _ => 0) 0 [] 0).Within
      0 := by
  decide

end Validators

end StunMessage

end Synciga
