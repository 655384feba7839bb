import Synciga.Internal.RingMemory
import Synciga.Internal.Runs
import Synciga.Stun.RoundTrip

/-!
# The integrity of a STUN message

`AddMessageIntegrity` writes a message with twenty placeholders in `MESSAGE-INTEGRITY`, and puts in the HMAC of
what stands in front, at which time the header counts the message up to the end of this attribute.
`ValidateMessageIntegrity` looks for the attribute and sets the length back before it computes the HMAC again.

What it reads behind the size that it is given is modelled as a memory that goes on: the check that the
attribute is in the buffer leaves out the four bytes of its header. The HMAC is any function with results of
twenty bytes, and the CRC-32 any function.

## Main results

* `StunMessage.integrity` — what was signed is valid, and what is valid was signed, if the record is there as a
  whole
-/

namespace Synciga

open ByteBuffer RingMemory

/-- A type. -/
def STUN_ATTR_MESSAGE_INTEGRITY : UInt16 := 0x0008

/-- A type. -/
def STUN_ATTR_FINGERPRINT : UInt16 := 0x8028

/-- What the CRC-32 is masked with. -/
def STUN_FINGERPRINT_XOR_VALUE : UInt32 := 0x5354554E

/-- The type and the length. -/
def kStunAttributeHeaderSize : ℕ := 4

/-- The HMAC. -/
def kStunMessageIntegritySize : ℕ := 20

/-- `ComputeHmac` with `DIGEST_SHA_1`, of a key and a text. -/
structure Hmac where
  compute : List UInt8 → List UInt8 → List UInt8
  length_compute : ∀ key text, (compute key text).length = kStunMessageIntegritySize

/-- `GetBE16`. -/
def getBE16 (data : ℕ → UInt8) (pos : ℕ) : UInt16 :=
  UInt16.ofNat (BigEndian.ofBytes (readMem data pos 2))

/-- `SetBE16` in a block of bytes. -/
def setBE16 (block : List UInt8) (pos : ℕ) (val : UInt16) : List UInt8 :=
  block.take pos ++ writeUInt16 val ++ block.drop (pos + 2)

namespace StunMessage

/-! ### Signing -/

section Signing

variable (hmac : Hmac) (crc : List UInt8 → UInt32) (valueType : UInt16 → StunAttributeValueType)

variable (m : StunMessage)

/-- `AddMessageIntegrity`: whether it has written the HMAC, and the message; `none` where `VERIFY`
fails. -/
def addMessageIntegrity (key : List UInt8) : Option (Bool × StunMessage) :=
  -- Add the attribute with a dummy value.
  match m.addAttribute valueType
      (.ofBytes STUN_ATTR_MESSAGE_INTEGRITY (List.replicate kStunMessageIntegritySize 48)) with
  | none => none
  | some m' =>
    match m'.write with
    | none => some (false, m')
    | some buf =>
      let msgLenForHmac := buf.length - kStunAttributeHeaderSize - kStunMessageIntegritySize
      let hmac := hmac.compute key (buf.take msgLenForHmac)
      some (true, { m' with attrs := m.attrs ++ [.ofBytes STUN_ATTR_MESSAGE_INTEGRITY hmac] })

/-- `AddFingerprint`: whether it has written the CRC-32, and the message; `none` where `VERIFY`
fails. -/
def addFingerprint : Option (Bool × StunMessage) :=
  match m.addAttribute valueType (.ofUInt32 STUN_ATTR_FINGERPRINT 0) with
  | none => none
  | some m' =>
    match m'.write with
    | none => some (false, m')
    | some buf =>
      let msgLenForCrc32 := buf.length - kStunAttributeHeaderSize - 4
      let c := crc (buf.take msgLenForCrc32)
      some (true, { m' with
        attrs := m.attrs ++ [.ofUInt32 STUN_ATTR_FINGERPRINT (c ^^^ STUN_FINGERPRINT_XOR_VALUE)] })

/-- What may be added to a message. -/
inductive Addition
  | one (attr : StunAttribute)
  | fingerprint

/-- Add it; `none` where it is refused. -/
def add : Addition → Option StunMessage
  | .one attr => m.addAttribute valueType attr
  | .fingerprint => (m.addFingerprint crc valueType).map Prod.snd

end Signing

/-! ### Validating -/

/-- The loop of `ValidateMessageIntegrity` over the attributes: the position of the
`MESSAGE-INTEGRITY` record. Every round skips a header, which bounds the rounds. -/
def findIntegrity (data : ℕ → UInt8) (size : ℕ) : ℕ → ℕ → Option ℕ
  | 0, _ => none
  | fuel + 1, currentPos =>
    if currentPos < size then
      let attrType := getBE16 data currentPos
      let attrLength := (getBE16 data (currentPos + 2)).toNat
      if attrType = STUN_ATTR_MESSAGE_INTEGRITY then
        if attrLength ≠ kStunMessageIntegritySize ∨ size < currentPos + attrLength then none
        else some currentPos
      else
        let next := currentPos + 2 + 2 + attrLength
        findIntegrity data size fuel
          (if attrLength % 4 ≠ 0 then next + (4 - attrLength % 4) else next)
    else none

/-- The `temp_data` of `ValidateMessageIntegrity`, whose HMAC it computes. -/
def tempData (data : ℕ → UInt8) (size miPos : ℕ) : List UInt8 :=
  let tempData := readMem data 0 miPos
  if miPos + kStunAttributeHeaderSize + kStunMessageIntegritySize < size then
    -- The message has other attributes after message integrity.
    let extraOffset := size - (miPos + kStunAttributeHeaderSize + kStunMessageIntegritySize)
    let newAdjustedLen := size - extraOffset - kStunHeaderSize
    setBE16 tempData 2 (UInt16.ofNat newAdjustedLen)
  else tempData

/-- `ValidateMessageIntegrity`, of the memory from `data` on. -/
def validateMessageIntegrity (hmac : Hmac) (data : ℕ → UInt8) (size : ℕ) (password : List UInt8) :
    Bool :=
  if size % 4 ≠ 0 then false
  else
    let msgLength := (getBE16 data 2).toNat
    if size ≠ msgLength + kStunHeaderSize then false
    else
      match findIntegrity data size size kStunHeaderSize with
      | none => false
      | some miPos =>
        readMem data (miPos + kStunAttributeHeaderSize) kStunMessageIntegritySize =
          hmac.compute password (tempData data size miPos)

/-! ### The first record -/

variable {data : ℕ → UInt8} {size pos : ℕ}

/-- The number of bytes that a value of this length takes. -/
def padded (length : UInt16) : ℕ := (length.toNat + 3) / 4 * 4

/-- Where the next record stands. -/
def nextRecord (data : ℕ → UInt8) (pos : ℕ) : ℕ := pos + 4 + padded (getBE16 data (pos + 2))

/-- A record stands here, and those in front of it are no `MESSAGE-INTEGRITY` records. -/
inductive RecordAt (data : ℕ → UInt8) (size : ℕ) : ℕ → Prop
  | first : RecordAt data size kStunHeaderSize
  | next {pos : ℕ} (h : RecordAt data size pos) (hlt : pos < size)
    (hother : getBE16 data pos ≠ STUN_ATTR_MESSAGE_INTEGRITY) :
    RecordAt data size (nextRecord data pos)

/-- The first `MESSAGE-INTEGRITY` record stands here. -/
structure FirstIntegrity (data : ℕ → UInt8) (size pos : ℕ) : Prop where
  record : RecordAt data size pos
  inside : pos < size
  integrity : getBE16 data pos = STUN_ATTR_MESSAGE_INTEGRITY

theorem RecordAt.aligned (h : RecordAt data size pos) : 20 ≤ pos ∧ pos % 4 = 0 := by
  induction h with
  | first => exact ⟨le_rfl, rfl⟩
  | next h hlt hother ih =>
    rw [nextRecord, padded]
    omega

theorem RecordAt.iterate (h : RecordAt data size pos) :
    ∃ n, pos = (nextRecord data)^[n] kStunHeaderSize ∧
      ∀ i < n, getBE16 data ((nextRecord data)^[i] kStunHeaderSize) ≠
        STUN_ATTR_MESSAGE_INTEGRITY := by
  induction h with
  | first => exact ⟨0, rfl, nofun⟩
  | next h hlt hother ih =>
    obtain ⟨n, rfl, hbefore⟩ := ih
    refine ⟨n + 1, (Function.iterate_succ_apply' _ _ _).symm, fun i hi => ?_⟩
    rcases Nat.lt_succ_iff_lt_or_eq.mp hi with hi | rfl
    · exact hbefore i hi
    · exact hother

theorem FirstIntegrity.unique {pos' : ℕ} (h : FirstIntegrity data size pos)
    (h' : FirstIntegrity data size pos') : pos = pos' := by
  obtain ⟨n, hpos, hbefore⟩ := h.record.iterate
  obtain ⟨n', hpos', hbefore'⟩ := h'.record.iterate
  have hle : n' ≤ n := Nat.not_lt.mp fun hlt => hbefore' n hlt (hpos ▸ h.integrity)
  have hge : n ≤ n' := Nat.not_lt.mp fun hlt => hbefore n' hlt (hpos' ▸ h'.integrity)
  rw [hpos, hpos', Nat.le_antisymm hle hge]

theorem skip_padded (pos n : ℕ) :
    (if n % 4 ≠ 0 then pos + 2 + 2 + n + (4 - n % 4) else pos + 2 + 2 + n) = pos + 4 + (n + 3) / 4 * 4 := by
  split <;> omega

theorem findIntegrity_succ (data : ℕ → UInt8) (size fuel pos : ℕ) : findIntegrity data size (fuel + 1) pos =
      if pos < size then
        if getBE16 data pos = STUN_ATTR_MESSAGE_INTEGRITY then
          if (getBE16 data (pos + 2)).toNat ≠ kStunMessageIntegritySize ∨
              size < pos + (getBE16 data (pos + 2)).toNat then none
          else some pos
        else findIntegrity data size fuel (nextRecord data pos)
      else none := by
  rw [findIntegrity]
  simp only [skip_padded]
  rfl

theorem findIntegrity_eq_some {fuel : ℕ} {found : ℕ} (hrecord : RecordAt data size pos)
    (h : findIntegrity data size fuel pos = some found) :
    FirstIntegrity data size found ∧ found + kStunMessageIntegritySize ≤ size := by
  induction fuel generalizing pos with
  | zero => cases h
  | succ fuel ih =>
    rw [findIntegrity_succ] at h
    split at h
    next hlt =>
      split at h
      next htype =>
        split at h
        · cases h
        next hchecked =>
          obtain rfl := Option.some.inj h
          rw [not_or, not_not, Nat.not_lt] at hchecked
          rw [← hchecked.1]
          exact ⟨⟨hrecord, hlt, htype⟩, hchecked.2⟩
      next htype => exact ih (hrecord.next hlt htype) h
    · cases h

/-- What the HMAC of a record at this position is computed of: the bytes in front of it, with a length
that counts up to its end. -/
def signedBytes (data : ℕ → UInt8) (pos : ℕ) : List UInt8 :=
  setBE16 (readMem data 0 pos) 2 (UInt16.ofNat (pos + 4))

theorem writeUInt16_getBE16 (data : ℕ → UInt8) (pos : ℕ) :
    writeUInt16 (getBE16 data pos) = readMem data pos 2 := by
  have hlt := BigEndian.ofBytes_lt (readMem data pos 2)
  have hbytes := BigEndian.toBytes_ofBytes (readMem data pos 2)
  rw [length_readMem] at hlt hbytes
  rw [getBE16, writeUInt16, UInt16.toNat_ofNat_of_lt' hlt, hbytes]

theorem setBE16_append {l₁ l₂ : List UInt8} (h₁ : l₁.length = pos) (h₂ : l₂.length = 2)
    (l₃ : List UInt8) (val : UInt16) :
    setBE16 (l₁ ++ (l₂ ++ l₃)) pos val = l₁ ++ (writeUInt16 val ++ l₃) := by
  subst h₁
  rw [setBE16, List.take_left, ← List.drop_drop, List.drop_left, List.drop_left' h₂,
    List.append_assoc]

theorem readMem_header (data : ℕ → UInt8) (hpos : 4 ≤ pos) : readMem data 0 pos =
      readMem data 0 2 ++ (writeUInt16 (getBE16 data 2) ++ readMem data 4 (pos - 4)) := by
  obtain ⟨n, rfl⟩ := Nat.exists_eq_add_of_le hpos
  rw [Nat.add_sub_cancel_left, writeUInt16_getBE16, readMem_add, readMem_add data 0 2 2,
    List.append_assoc]

theorem signedBytes_eq (data : ℕ → UInt8) (hpos : 4 ≤ pos) : signedBytes data pos =
      readMem data 0 2 ++ (writeUInt16 (UInt16.ofNat (pos + 4)) ++ readMem data 4 (pos - 4)) := by
  rw [signedBytes, readMem_header data hpos,
    setBE16_append (length_readMem _ _ _) (length_writeUInt16 _)]

theorem tempData_of_le (hpos : 20 ≤ pos) (hsize : size = (getBE16 data 2).toNat + kStunHeaderSize)
    (hle : pos + 24 ≤ size) : tempData data size pos = signedBytes data pos := by
  have hheader : kStunHeaderSize = 20 := rfl
  rw [tempData]
  split
  · have hlen : size - (size - (pos + kStunAttributeHeaderSize + kStunMessageIntegritySize)) -
        kStunHeaderSize = pos + 4 := by
      rw [show pos + kStunAttributeHeaderSize + kStunMessageIntegritySize = pos + 24 from rfl]
      omega
    simp only [hlen]
    rfl
  next hlast =>
    have hlast : ¬ pos + 24 < size := hlast
    have hlen : UInt16.ofNat (pos + 4) = getBE16 data 2 := by
      rw [show pos + 4 = (getBE16 data 2).toNat by omega, UInt16.ofNat_toNat]
    rw [signedBytes_eq data (by omega), hlen, readMem_header data (by omega)]

theorem tempData_of_lt (hpos : 20 ≤ pos) (hsize : size = (getBE16 data 2).toNat + kStunHeaderSize)
    (hlt : size < pos + 24) (hle : pos + 20 ≤ size) : tempData data size pos ≠ signedBytes data pos := by
  have hheader : kStunHeaderSize = 20 := rfl
  have hlast : ¬ pos + kStunAttributeHeaderSize + kStunMessageIntegritySize < size := by
    rw [show pos + kStunAttributeHeaderSize + kStunMessageIntegritySize = pos + 24 from rfl]
    omega
  rw [tempData, if_neg hlast, readMem_header data (by omega), signedBytes_eq data (by omega)]
  intro heq
  have hfield := (writeUInt16_append_inj (List.append_cancel_left heq)).1
  have hcount := congrArg UInt16.toNat hfield
  rw [UInt16.toNat_ofNat'] at hcount
  omega

theorem validate_eq_true {hmac : Hmac} {password : List UInt8}
    (h : validateMessageIntegrity hmac data size password = true) :
    size % 4 = 0 ∧ size = (getBE16 data 2).toNat + kStunHeaderSize ∧
      ∃ pos, FirstIntegrity data size pos ∧ pos + 20 ≤ size ∧
        readMem data (pos + 4) 20 = hmac.compute password (tempData data size pos) := by
  rw [validateMessageIntegrity] at h
  split at h
  · cases h
  next haligned =>
  simp only at h
  split at h
  · cases h
  next hsize =>
  split at h
  · cases h
  next pos hfind =>
  obtain ⟨hfirst, hle⟩ := findIntegrity_eq_some .first hfind
  exact ⟨not_not.mp haligned, not_not.mp hsize, pos, hfirst, hle, of_decide_eq_true h⟩

/-! ### Messages that are put together -/

end StunMessage

/-- The length of an attribute is that of its value, in 16 bits. -/
def StunAttribute.Sized (a : StunAttribute) : Prop := a.length = UInt16.ofNat a.size

/-- An address is set if there is one. -/
def StunAttribute.Addressed (a : StunAttribute) : Prop :=
  match a.value with
  | .address address | .xorAddress address => address.ip ≠ .unspec
  | _ => True

variable {a : StunAttribute}

theorem StunAttribute.Sized.toNat_length (h : a.Sized)
    (hsize : a.size < 2 ^ 16) : a.length.toNat = a.size := by
  rw [h]
  exact UInt16.toNat_ofNat_of_lt' hsize

theorem StunAttribute.length_write (h : a.Sized) (hsize : a.size < 2 ^ 16)
    {transactionId body : List UInt8} (hbody : a.write transactionId = some body) :
    4 + body.length = a.wireSize := by
  have hlength := h.toNat_length hsize
  have hpadded := length_padded a.length
  rw [hlength] at hpadded
  obtain ⟨type, length, value⟩ := a
  congr 1
  cases value with
  | address address =>
    rw [length_writeAddress hbody]
    exact (addressLength_padded _).symm
  | xorAddress address =>
    have hmask : getXoredIP transactionId address.ip ≠ .unspec := by
      intro hunspec
      rw [write] at hbody
      simp only [hunspec, writeAddress] at hbody
      cases hbody
    rw [length_writeAddress hbody, addressLength_getXoredIP hmask]
    exact (addressLength_padded _).symm
  | uint32 bits =>
    cases hbody
    simp [size]
  | uint64 bits =>
    cases hbody
    simp [size]
  | byteString bytes =>
    cases hbody
    rw [List.length_append, List.length_take, length_writePadding, hlength,
      show (⟨type, length, .byteString bytes⟩ : StunAttribute).size = bytes.length from rfl,
      min_self]
    exact hpadded
  | errorCode eclass number reason =>
    cases hbody
    rw [List.length_append, List.length_append, length_writePadding, length_writeUInt32]
    exact hpadded
  | uint16List attrTypes =>
    cases hbody
    rw [List.length_append, length_flatMap_writeUInt16, length_writePadding]
    exact hpadded

theorem StunAttribute.Addressed.exists_write (h : a.Addressed)
    {transactionId : List UInt8} (hid : transactionId.length = kStunTransactionIdLength) :
    ∃ body, a.write transactionId = some body := by
  obtain ⟨type, length, value⟩ := a
  cases value with
  | address address => exact exists_writeAddress h address.port
  | xorAddress address =>
    refine exists_writeAddress ?_ _
    obtain ⟨_ | ip | ⟨w₀, w₁, w₂, w₃⟩, port⟩ := address
    · exact absurd rfl h
    · rintro ⟨⟩
    · rw [getXoredIP, if_pos hid]
      rintro ⟨⟩
  | _ => exact ⟨_, rfl⟩

namespace StunMessage

variable {valueType : UInt16 → StunAttributeValueType} {m m' : StunMessage} {attrs : List StunAttribute}
  {transactionId : List UInt8}

/-- The messages that are put together from attributes whose lengths are up to date. -/
inductive Assembled (valueType : UInt16 → StunAttributeValueType) : StunMessage → Prop
  | new : Assembled valueType new
  | setType {m : StunMessage} (h : Assembled valueType m) (type : UInt16) :
    Assembled valueType (m.setType type)
  | setTransactionID {m m' : StunMessage} (h : Assembled valueType m) {str : List UInt8}
    (hset : m.setTransactionID str = some m') : Assembled valueType m'
  | addAttribute {m m' : StunMessage} (h : Assembled valueType m) {attr : StunAttribute}
    (hsized : attr.Sized) (hadd : m.addAttribute valueType attr = some m') : Assembled valueType m'

theorem Assembled.sized (h : Assembled valueType m) : ∀ a ∈ m.attrs, a.Sized := by
  induction h with
  | new => nofun
  | setType h type ih => exact ih
  | @setTransactionID m m' h str hset ih =>
    rw [setTransactionID_eq_some hset]
    exact ih
  | @addAttribute m m' h attr hsized hadd ih =>
    obtain ⟨-, rfl⟩ := addAttribute_eq_some hadd
    intro a ha
    rcases List.mem_append.mp ha with ha | ha
    · exact ih a ha
    · rw [List.mem_singleton.mp ha]
      exact hsized

theorem Assembled.toNat_length (h : Assembled valueType m) (hsize : m.attrsSize < 2 ^ 16) :
    m.length.toNat = m.attrsSize := by
  induction h with
  | new => rfl
  | setType h type ih => exact ih hsize
  | @setTransactionID m m' h str hset ih =>
    rw [setTransactionID_eq_some hset] at hsize ⊢
    exact ih hsize
  | @addAttribute m m' h attr hsized hadd ih =>
    exact toNat_length_addAttribute hadd hsized.toNat_length ih hsize

/-! ### What is written -/

/-- The header of a message. -/
def header (m : StunMessage) : List UInt8 :=
  writeUInt16 m.type ++ writeUInt16 m.length ++
    (if m.isLegacy then [] else writeUInt32 kStunMagicCookie) ++ m.transactionId

variable {bytes : List UInt8}

theorem write_eq_some : m.write = some bytes ↔
      ∃ body, writeAttributes m.transactionId m.attrs = some body ∧ bytes = m.header ++ body := by
  rw [write]
  simp only [Option.bind_eq_bind, Option.bind_eq_some_iff, Option.some.injEq]
  exact exists_congr fun body => and_congr_right fun _ => eq_comm

theorem length_header (hid : m.transactionId.length = kStunTransactionIdLength) :
    m.header.length = kStunHeaderSize := by
  have hlegacy : m.isLegacy = false := by
    rw [isLegacy, hid]
    rfl
  simp only [header, hlegacy, Bool.false_eq_true, if_false, List.length_append, length_writeUInt16,
    length_writeUInt32, hid]
  rfl

theorem writeAttributes_append (attrs attrs' : List StunAttribute) :
    writeAttributes transactionId (attrs ++ attrs') =
      (writeAttributes transactionId attrs).bind fun body =>
        (writeAttributes transactionId attrs').map fun body' => body ++ body' := by
  induction attrs with
  | nil => simp [writeAttributes]
  | cons a attrs ih =>
    simp only [List.cons_append, writeAttributes, ih, Option.bind_eq_bind]
    rcases a.write transactionId with _ | bytes
    · rfl
    rcases writeAttributes transactionId attrs with _ | body
    · rfl
    rcases writeAttributes transactionId attrs' with _ | body'
    · rfl
    · simp [List.append_assoc]

theorem length_writeAttributes {body : List UInt8} (hsized : ∀ a ∈ attrs, a.Sized)
    (hsize : (attrs.map StunAttribute.wireSize).sum < 2 ^ 16)
    (hbody : writeAttributes transactionId attrs = some body) :
    body.length = (attrs.map StunAttribute.wireSize).sum := by
  induction attrs generalizing body with
  | nil =>
    cases hbody
    rfl
  | cons a attrs ih =>
    rw [List.forall_mem_cons] at hsized
    rw [List.map_cons, List.sum_cons] at hsize ⊢
    simp only [writeAttributes, Option.bind_eq_bind, Option.bind_eq_some_iff,
      Option.some.injEq] at hbody
    obtain ⟨value, hvalue, rest, hrest, rfl⟩ := hbody
    have hfirst := a.length_write hsized.1 (by have := a.size_le_wireSize; omega) hvalue
    have hlater := ih hsized.2 (by omega) hrest
    simp only [List.length_append, length_writeUInt16]
    omega

/-- A record with twenty bytes. -/
def integrityRecord (value : List UInt8) : List UInt8 :=
  writeUInt16 STUN_ATTR_MESSAGE_INTEGRITY ++ (writeUInt16 20 ++ value)

theorem writeAttributes_integrity {value : List UInt8} (hvalue : value.length = 20) :
    writeAttributes transactionId [.ofBytes STUN_ATTR_MESSAGE_INTEGRITY value] =
      some (integrityRecord value) := by
  have htake : value.take (UInt16.ofNat value.length).toNat = value := by
    rw [hvalue]
    exact List.take_of_length_le hvalue.le
  have hpadding : StunAttribute.writePadding (UInt16.ofNat value.length) = [] := by
    rw [hvalue]
    rfl
  simp only [writeAttributes, StunAttribute.write, StunAttribute.ofBytes, htake, hpadding,
    Option.bind_eq_bind, Option.bind_some, List.append_nil, integrityRecord, List.append_assoc]
  rw [hvalue]
  rfl

theorem length_integrityRecord {value : List UInt8} (hvalue : value.length = 20) :
    (integrityRecord value).length = 24 := by
  simp [integrityRecord, hvalue]

theorem addAttribute_replace {attr attr' : StunAttribute}
    (h : m.addAttribute valueType attr = some m') (htype : attr'.type = attr.type)
    (hkind : attr'.valueType = attr.valueType) (hlength : attr'.length = attr.length) :
    m.addAttribute valueType attr' = some { m' with attrs := m.attrs ++ [attr'] } := by
  rw [addAttribute] at h ⊢
  rw [hkind, htype, hlength]
  split at h
  · cases h
  next hvalid =>
    rw [if_neg hvalid]
    cases h
    rfl

/-! ### What is signed -/

variable {hmac : Hmac} {crc : List UInt8 → UInt32} {key : List UInt8} {ok : Bool}

/-- `AddMessageIntegrity` adds the HMAC of what stands in front of it, or the message cannot be
written. -/
theorem addMessageIntegrity_cases (h : m.addMessageIntegrity hmac valueType key = some (ok, m')) :
    (ok = false ∧ m'.write = none ∧ ∃ value, value.length = 20 ∧
        m.addAttribute valueType (.ofBytes STUN_ATTR_MESSAGE_INTEGRITY value) = some m') ∨
      ok = true ∧ ∃ body, writeAttributes m.transactionId m.attrs = some body ∧
        m.addAttribute valueType (.ofBytes STUN_ATTR_MESSAGE_INTEGRITY
          (hmac.compute key (m'.header ++ body))) = some m' := by
  have hdummy : (List.replicate kStunMessageIntegritySize (48 : UInt8)).length = 20 :=
    List.length_replicate
  rw [addMessageIntegrity] at h
  split at h
  · cases h
  next m₁ hadd =>
  split at h
  next hwrite =>
    cases h
    exact .inl ⟨rfl, hwrite, _, hdummy, hadd⟩
  next buf hwrite =>
  obtain ⟨hkind, hm₁⟩ := addAttribute_eq_some hadd
  obtain ⟨all, hall, hbuf⟩ := write_eq_some.mp hwrite
  have hattrs : m₁.attrs = m.attrs ++ [.ofBytes STUN_ATTR_MESSAGE_INTEGRITY
      (List.replicate kStunMessageIntegritySize 48)] := by rw [hm₁]
  have hid : m₁.transactionId = m.transactionId := by rw [hm₁]
  rw [hattrs, hid, writeAttributes_append, writeAttributes_integrity hdummy,
    Option.bind_eq_some_iff] at hall
  obtain ⟨body, hbody, hall⟩ := hall
  obtain rfl := Option.some.inj hall
  -- What is left of the bytes without the record.
  have htext : buf.take (buf.length - kStunAttributeHeaderSize - kStunMessageIntegritySize) =
      m₁.header ++ body := by
    have hlength : buf.length = (m₁.header ++ body).length + 24 := by
      rw [hbuf, ← List.append_assoc, ← length_integrityRecord hdummy]
      exact List.length_append
    rw [hlength, hbuf, ← List.append_assoc]
    exact List.take_left' (Nat.add_sub_cancel _ 24).symm
  simp only [htext] at h
  obtain ⟨rfl, rfl⟩ := Prod.mk.inj (Option.some.inj h)
  refine .inr ⟨rfl, body, hbody, ?_⟩
  have hvalue : (hmac.compute key (m₁.header ++ body)).length = 20 := hmac.length_compute _ _
  have hlength : (StunAttribute.ofBytes STUN_ATTR_MESSAGE_INTEGRITY
      (hmac.compute key (m₁.header ++ body))).length = (StunAttribute.ofBytes
        STUN_ATTR_MESSAGE_INTEGRITY (List.replicate kStunMessageIntegritySize 48)).length := by
    change UInt16.ofNat _ = UInt16.ofNat _
    rw [hvalue, hdummy]
  exact addAttribute_replace hadd rfl rfl hlength

theorem add_cases {a : Addition} (h : add crc valueType m a = some m') :
    ∃ attr, m.addAttribute valueType attr = some m' ∧
      (a = .one attr ∨ ∃ bits, attr = .ofUInt32 STUN_ATTR_FINGERPRINT bits) := by
  cases a with
  | one attr => exact ⟨attr, h, .inl rfl⟩
  | fingerprint =>
    rw [add, addFingerprint] at h
    split at h
    · cases h
    next m₁ hadd =>
    split at h
    · cases h
      exact ⟨_, hadd, .inr ⟨0, rfl⟩⟩
    · cases h
      exact ⟨_, addAttribute_replace hadd rfl rfl rfl, .inr ⟨_, rfl⟩⟩

/-- What is added has a length that is up to date. -/
def Addition.Sized : Addition → Prop
  | .one attr => attr.Sized
  | .fingerprint => True

/-- What is added is an address only if there is one. -/
def Addition.Addressed : Addition → Prop
  | .one attr => attr.Addressed
  | .fingerprint => True

variable {as : List Addition}

theorem add_run (hsized : ∀ a ∈ as, a.Sized) (h : Runs.run (add crc valueType) m as = some m') :
    (Assembled valueType m → Assembled valueType m') ∧ m'.type = m.type ∧
      m'.transactionId = m.transactionId ∧ ∃ more, m'.attrs = m.attrs ++ more ∧
        ((∀ a ∈ as, a.Addressed) → ∀ attr ∈ more, attr.Addressed) := by
  induction as generalizing m with
  | nil =>
    cases h
    exact ⟨id, rfl, rfl, [], (List.append_nil _).symm, fun _ => nofun⟩
  | cons a as ih =>
    rw [List.forall_mem_cons] at hsized
    obtain ⟨m₁, hadd, hrest⟩ := Runs.run_cons h
    obtain ⟨attr, hattr, hcase⟩ := add_cases hadd
    obtain ⟨-, hm₁⟩ := addAttribute_eq_some hattr
    have hattrs : m₁.attrs = m.attrs ++ [attr] := by rw [hm₁]
    obtain ⟨hassembled, htype, hid, more, hmore, haddressed⟩ := ih hsized.2 hrest
    refine ⟨fun hm => hassembled (hm.addAttribute ?_ hattr), htype.trans (by rw [hm₁]),
      hid.trans (by rw [hm₁]), attr :: more, ?_, fun hall => ?_⟩
    · rcases hcase with rfl | ⟨bits, rfl⟩
      · exact hsized.1
      · rfl
    · rw [hmore, hattrs, List.append_assoc, List.singleton_append]
    · rw [List.forall_mem_cons] at hall ⊢
      refine ⟨?_, haddressed hall.2⟩
      rcases hcase with rfl | ⟨bits, rfl⟩
      · exact hall.1
      · trivial

/-! ### Finding the record that was written -/

/-- The memory in which a buffer stands. -/
def memory (bytes : List UInt8) (beyond : ℕ → UInt8) (i : ℕ) : UInt8 := bytes.getD i (beyond i)

theorem readMem_memory (bytes : List UInt8) (beyond : ℕ → UInt8) :
    readMem (memory bytes beyond) 0 bytes.length = bytes := by
  refine List.ext_getElem? fun i => ?_
  rw [getElem?_readMem, Nat.zero_add]
  split
  next hlt => rw [memory, List.getD_eq_getElem?_getD, List.getElem?_eq_getElem hlt]; rfl
  next hge => rw [List.getElem?_eq_none (Nat.not_lt.mp hge)]

theorem readMem_append {l l' : List UInt8} (h : readMem data pos (l ++ l').length = l ++ l') :
    readMem data pos l.length = l ∧ readMem data (pos + l.length) l'.length = l' := by
  rw [List.length_append, readMem_add] at h
  exact List.append_inj h (length_readMem _ _ _)

theorem getBE16_of_readMem {val : UInt16} {rest : List UInt8}
    (h : readMem data pos (writeUInt16 val ++ rest).length = writeUInt16 val ++ rest) :
    getBE16 data pos = val := by
  have hread := (readMem_append h).1
  rw [length_writeUInt16, ← writeUInt16_getBE16] at hread
  have heq : writeUInt16 (getBE16 data pos) ++ [] = writeUInt16 val ++ [] := by rw [hread]
  exact (writeUInt16_append_inj heq).1

theorem findIntegrity_skip (fuel : ℕ) {body : List UInt8} (hsized : ∀ a ∈ attrs, a.Sized)
    (hother : ∀ a ∈ attrs, a.type ≠ STUN_ATTR_MESSAGE_INTEGRITY)
    (hsize : (attrs.map StunAttribute.wireSize).sum < 2 ^ 16)
    (hbody : writeAttributes transactionId attrs = some body)
    (hread : readMem data pos body.length = body) (hin : pos + body.length ≤ size) :
    findIntegrity data size (fuel + attrs.length) pos =
      findIntegrity data size fuel (pos + body.length) := by
  induction attrs generalizing pos body with
  | nil =>
    cases hbody
    rfl
  | cons a attrs ih =>
    rw [List.forall_mem_cons] at hsized hother
    rw [List.map_cons, List.sum_cons] at hsize
    simp only [writeAttributes, Option.bind_eq_bind, Option.bind_eq_some_iff,
      Option.some.injEq] at hbody
    obtain ⟨value, hvalue, rest, hrest, rfl⟩ := hbody
    have hasize : a.size < 2 ^ 16 := by have := a.size_le_wireSize; omega
    have hfirst := a.length_write hsized.1 hasize hvalue
    rw [List.append_assoc, List.append_assoc] at hread
    have htype := getBE16_of_readMem hread
    obtain ⟨-, htail⟩ := readMem_append hread
    rw [length_writeUInt16] at htail
    have hlength := getBE16_of_readMem htail
    obtain ⟨-, htail⟩ := readMem_append htail
    obtain ⟨-, htail⟩ := readMem_append htail
    rw [length_writeUInt16] at htail
    have hnext : nextRecord data pos = pos + 2 + 2 + value.length := by
      have hwire : a.wireSize = 4 + (a.size + 3) / 4 * 4 := rfl
      rw [nextRecord, hlength, padded, hsized.1.toNat_length hasize]
      omega
    simp only [List.length_append, length_writeUInt16] at hin ⊢
    rw [List.length_cons, ← Nat.add_assoc, findIntegrity_succ, if_pos (by omega), htype,
      if_neg hother.1, hnext, ih hsized.2 hother.2 (by omega) hrest htail (by omega)]
    congr 1
    omega

theorem findIntegrity_record (fuel : ℕ) {value rest : List UInt8}
    (hread : readMem data pos (integrityRecord value ++ rest).length = integrityRecord value ++ rest)
    (hin : pos + 24 ≤ size) : findIntegrity data size (fuel + 1) pos = some pos := by
  rw [integrityRecord, List.append_assoc, List.append_assoc] at hread
  have htype := getBE16_of_readMem hread
  obtain ⟨-, htail⟩ := readMem_append hread
  rw [length_writeUInt16] at htail
  have hlength := getBE16_of_readMem htail
  have hchecked : ¬ ((20 : UInt16).toNat ≠ kStunMessageIntegritySize ∨
      size < pos + (20 : UInt16).toNat) := by
    rw [show (20 : UInt16).toNat = 20 from rfl]
    exact not_or.mpr ⟨not_not.mpr rfl, by omega⟩
  rw [findIntegrity_succ, if_pos (by omega), htype, if_pos rfl, hlength, if_neg hchecked]

theorem wireSize_sum (attrs : List StunAttribute) : (attrs.map StunAttribute.wireSize).sum % 4 = 0 ∧
      4 * attrs.length ≤ (attrs.map StunAttribute.wireSize).sum := by
  induction attrs with
  | nil => exact ⟨rfl, le_rfl⟩
  | cons a attrs ih =>
    rw [List.map_cons, List.sum_cons, List.length_cons, StunAttribute.wireSize]
    omega

/-- What the bytes of a message look like that was signed: the header, the attributes that were
there, the record, and those behind it. -/
structure SignedAs (hmac : Hmac) (key : List UInt8) (m m₁ m₂ : StunMessage) (body rest : List UInt8) :
    Prop where
  written : writeAttributes m.transactionId m.attrs = some body
  write : m₂.write = some (m₂.header ++ (body ++
    (integrityRecord (hmac.compute key (m₁.header ++ body)) ++ rest)))
  header : m₂.header.length = 20
  counted₁ : m₁.length.toNat = body.length + 24
  counted₂ : m₂.length.toNat = body.length + 24 + rest.length
  counted : body.length = m.attrsSize
  aligned : m₂.length.toNat % 4 = 0
  same : m₂.type = m₁.type ∧ m₂.transactionId = m₁.transactionId

theorem signedAs_of_signed {m m₁ m₂ : StunMessage}
    (hm : Assembled valueType m) (hid : m.transactionId.length = kStunTransactionIdLength)
    (hsign : m.addMessageIntegrity hmac valueType key = some (ok, m₁))
    (hsized : ∀ a ∈ as, a.Sized) (hadd : Runs.run (add crc valueType) m₁ as = some m₂)
    (hsize : m₂.attrsSize < 2 ^ 16) (hwrite : m₂.write = some bytes) :
    ∃ body rest, SignedAs hmac key m m₁ m₂ body rest := by
  obtain ⟨hassembled, htype₂, hid₂, more, hmore, -⟩ := add_run hsized hadd
  obtain ⟨all, hall, hbytes⟩ := write_eq_some.mp hwrite
  obtain ⟨-, hnone, value, -, hsigned⟩ | ⟨-, body, hbody, hsigned⟩ := addMessageIntegrity_cases hsign
  · -- What could not be written then cannot be written now.
    exfalso
    rw [hmore, hid₂, writeAttributes_append, Option.bind_eq_some_iff] at hall
    obtain ⟨front, hfront, -⟩ := hall
    rw [write_eq_some.mpr ⟨front, hfront, rfl⟩] at hnone
    cases hnone
  have hvalue : (hmac.compute key (m₁.header ++ body)).length = 20 := hmac.length_compute _ _
  refine ⟨body, ?_⟩
  generalize htext : m₁.header ++ body = text at hvalue hsigned
  have hmi : (StunAttribute.ofBytes STUN_ATTR_MESSAGE_INTEGRITY (hmac.compute key text)).Sized := rfl
  have hassembled₁ := hm.addAttribute hmi hsigned
  have hassembled₂ := hassembled hassembled₁
  obtain ⟨-, hm₁⟩ := addAttribute_eq_some hsigned
  have hattrs₁ : m₁.attrs = m.attrs ++ [.ofBytes STUN_ATTR_MESSAGE_INTEGRITY
      (hmac.compute key text)] := by rw [hm₁]
  have hid₁ : m₁.transactionId = m.transactionId := by rw [hm₁]
  rw [hmore, hattrs₁, hid₂, hid₁, writeAttributes_append, writeAttributes_append, hbody,
    writeAttributes_integrity hvalue] at hall
  obtain ⟨rest, hrest, rfl⟩ := Option.map_eq_some_iff.mp hall
  have hsizes : m₂.attrsSize = m₁.attrsSize + (more.map StunAttribute.wireSize).sum := by
    rw [attrsSize, attrsSize, hmore, List.map_append, List.sum_append]
  have hsizes₁ : m₁.attrsSize = m.attrsSize + 24 := by
    rw [attrsSize, attrsSize, hattrs₁, List.map_append, List.sum_append, List.map_singleton,
      List.sum_singleton, StunAttribute.wireSize, StunAttribute.size]
    simp only [StunAttribute.ofBytes, hvalue]
  have hbodylen := length_writeAttributes hm.sized (by rw [← attrsSize]; omega) hbody
  have hrestlen := length_writeAttributes
    (fun a ha => hassembled₂.sized a (by rw [hmore]; exact List.mem_append_right _ ha))
    (by omega) hrest
  rw [← attrsSize] at hbodylen
  have hlength₁ := hassembled₁.toNat_length (by omega)
  have hlength₂ := hassembled₂.toNat_length hsize
  refine ⟨rest, hbody, ?_, length_header (by rw [hid₂, hid₁, hid]), by omega, by omega, hbodylen, ?_,
    htype₂, hid₂⟩
  · rw [hwrite, hbytes, htext, List.append_assoc]
  · rw [hlength₂]
    exact (wireSize_sum m₂.attrs).1

theorem header_eq (m : StunMessage) : m.header = writeUInt16 m.type ++ (writeUInt16 m.length ++
    ((if m.isLegacy then [] else writeUInt32 kStunMagicCookie) ++ m.transactionId)) := by
  rw [header, List.append_assoc, List.append_assoc]

theorem SignedAs.signed {body rest : List UInt8} {m m₁ m₂ : StunMessage}
    (h : SignedAs hmac key m m₁ m₂ body rest) :
    setBE16 (m₂.header ++ body) 2 (UInt16.ofNat (20 + body.length + 4)) = m₁.header ++ body := by
  obtain ⟨htype, hid⟩ := h.same
  have hlength : UInt16.ofNat (20 + body.length + 4) = m₁.length := by
    rw [show 20 + body.length + 4 = m₁.length.toNat by rw [h.counted₁]; omega, UInt16.ofNat_toNat]
  rw [header_eq, header_eq, isLegacy, isLegacy, htype, hid, hlength, List.append_assoc,
    List.append_assoc, setBE16_append (length_writeUInt16 _) (length_writeUInt16 _)]
  simp only [List.append_assoc]

/-- Where the parts of a message stand in memory. -/
structure Placed (data : ℕ → UInt8) (m : StunMessage) (body record : List UInt8) : Prop where
  field : getBE16 data 2 = m.length
  front : readMem data 0 (20 + body.length) = m.header ++ body
  between : readMem data 20 body.length = body
  behind : readMem data (20 + body.length) record.length = record

theorem placed_of_readMem {body record : List UInt8} (hheader : m.header.length = 20)
    (h : readMem data 0 (m.header ++ (body ++ record)).length = m.header ++ (body ++ record)) :
    Placed data m body record := by
  obtain ⟨hhead, htail⟩ := readMem_append h
  rw [← List.append_assoc] at h
  have hfront := (readMem_append h).1
  rw [hheader, Nat.zero_add] at htail
  rw [List.length_append, hheader] at hfront
  obtain ⟨hbody, hrecord⟩ := readMem_append htail
  refine ⟨?_, hfront, hbody, hrecord⟩
  rw [header_eq] at hhead
  have hlength := (readMem_append hhead).2
  exact getBE16_of_readMem hlength

theorem SignedAs.find {body rest value : List UInt8} {m m₁ m₂ : StunMessage}
    (h : SignedAs hmac key m m₁ m₂ body rest) (hm : Assembled valueType m)
    (hother : ∀ a ∈ m.attrs, a.type ≠ STUN_ATTR_MESSAGE_INTEGRITY)
    (hplaced : Placed data m₂ body (integrityRecord value ++ rest))
    (hsize : size = m₂.length.toNat + 20) :
    findIntegrity data size size kStunHeaderSize = some (20 + body.length) := by
  have hcounted := h.counted₂
  have hlt := m₂.length.toNat_lt
  have hbound := (wireSize_sum m.attrs).2
  rw [← attrsSize, ← h.counted] at hbound
  obtain ⟨fuel, hfuel⟩ : ∃ fuel, size = fuel + 1 + m.attrs.length :=
    ⟨size - 1 - m.attrs.length, by omega⟩
  have hin : 20 + body.length ≤ size := by omega
  have hskip := findIntegrity_skip (fuel + 1) hm.sized hother
    (by rw [← attrsSize, ← h.counted]; omega) h.written hplaced.between hin
  rw [← hfuel] at hskip
  exact hskip.trans (findIntegrity_record fuel hplaced.behind (by omega))

/-- **What was signed is valid.** -/
theorem validate_of_signed {m m₁ m₂ : StunMessage}
    (hm : Assembled valueType m) (hid : m.transactionId.length = kStunTransactionIdLength)
    (hother : ∀ a ∈ m.attrs, a.type ≠ STUN_ATTR_MESSAGE_INTEGRITY)
    (hsign : m.addMessageIntegrity hmac valueType key = some (ok, m₁))
    (hsized : ∀ a ∈ as, a.Sized) (hadd : Runs.run (add crc valueType) m₁ as = some m₂)
    (hsize : m₂.attrsSize < 2 ^ 16) (hwrite : m₂.write = some bytes) (beyond : ℕ → UInt8) :
    validateMessageIntegrity hmac (memory bytes beyond) bytes.length key = true := by
  obtain ⟨body, rest, hlayout⟩ := signedAs_of_signed hm hid hsign hsized hadd hsize hwrite
  have hvalue : (hmac.compute key (m₁.header ++ body)).length = 20 := hmac.length_compute _ _
  have hbytes := Option.some.inj (hwrite.symm.trans hlayout.write)
  have htotal : bytes.length = m₂.length.toNat + 20 := by
    rw [hbytes]
    simp only [List.length_append, hlayout.header, length_integrityRecord hvalue, hlayout.counted₂]
    omega
  have hread := readMem_memory bytes beyond
  generalize memory bytes beyond = data at hread ⊢
  rw [htotal]
  rw [hbytes] at hread
  have hplaced := placed_of_readMem hlayout.header hread
  have hfind := hlayout.find hm hother hplaced rfl
  have haligned := hlayout.aligned
  have hcounted := hlayout.counted₂
  have htemp : tempData data (m₂.length.toNat + 20) (20 + body.length) = m₁.header ++ body := by
    rw [tempData_of_le (by omega) (by rw [hplaced.field]; rfl) (by omega), signedBytes,
      hplaced.front, hlayout.signed]
  have hrecord := (readMem_append hplaced.behind).1
  rw [integrityRecord, ← List.append_assoc] at hrecord
  have hcompared := (readMem_append hrecord).2
  rw [hvalue] at hcompared
  have hsame : ¬ (m₂.length.toNat + 20 ≠ m₂.length.toNat + kStunHeaderSize) := not_not.mpr rfl
  rw [validateMessageIntegrity, if_neg (by omega)]
  simp only [hplaced.field]
  rw [if_neg hsame, hfind]
  exact decide_eq_true (hcompared.trans (by rw [htemp]))

theorem exists_write (hid : m.transactionId.length = kStunTransactionIdLength)
    (haddressed : ∀ a ∈ m.attrs, a.Addressed) : ∃ bytes, m.write = some bytes := by
  have hbody : ∃ body, writeAttributes m.transactionId m.attrs = some body := by
    generalize m.attrs = attrs at haddressed
    induction attrs with
    | nil => exact ⟨[], rfl⟩
    | cons a attrs ih =>
      rw [List.forall_mem_cons] at haddressed
      obtain ⟨rest, hrest⟩ := ih haddressed.2
      obtain ⟨value, hvalue⟩ := haddressed.1.exists_write hid
      exact ⟨_, by rw [writeAttributes, hvalue, hrest]; rfl⟩
  obtain ⟨body, hbody⟩ := hbody
  exact ⟨_, write_eq_some.mpr ⟨body, hbody, rfl⟩⟩

/-- **Message integrity.** A message that was signed is valid, whatever is added behind, and can be written, if
all addresses are set. A valid one has a `MESSAGE-INTEGRITY` record, with whose bytes the HMAC is compared; it
is computed of the bytes in front of the first such record, with the length set to its end, if and only if that
record is in the buffer as a whole. -/
theorem integrity (hmac : Hmac) :
    (∀ (crc : List UInt8 → UInt32) (valueType : UInt16 → StunAttributeValueType)
      (m m₁ m₂ : StunMessage) (key : List UInt8) (ok : Bool) (as : List Addition),
      Assembled valueType m → m.transactionId.length = kStunTransactionIdLength →
      (∀ a ∈ m.attrs, a.type ≠ STUN_ATTR_MESSAGE_INTEGRITY) →
      m.addMessageIntegrity hmac valueType key = some (ok, m₁) →
      (∀ a ∈ as, a.Sized) → Runs.run (add crc valueType) m₁ as = some m₂ →
      m₂.attrsSize < 2 ^ 16 →
        (∀ bytes beyond, m₂.write = some bytes →
          validateMessageIntegrity hmac (memory bytes beyond) bytes.length key = true) ∧
        ((∀ a ∈ m.attrs, a.Addressed) → (∀ a ∈ as, a.Addressed) → ∃ bytes, m₂.write = some bytes)) ∧
    ∀ (data : ℕ → UInt8) (size : ℕ) (password : List UInt8),
      validateMessageIntegrity hmac data size password = true →
        (∃ pos, FirstIntegrity data size pos) ∧ ∀ pos, FirstIntegrity data size pos →
          readMem data (pos + 4) 20 = hmac.compute password (tempData data size pos) ∧
          (tempData data size pos = signedBytes data pos ↔ pos + 24 ≤ size) := by
  constructor
  · intro crc valueType m m₁ m₂ key ok as hm hid hother hsign hsized hadd hsize
    refine ⟨fun bytes beyond hwrite =>
      validate_of_signed hm hid hother hsign hsized hadd hsize hwrite beyond, fun hfront hbehind => ?_⟩
    obtain ⟨-, -, hid₂, more, hmore, haddressed⟩ := add_run hsized hadd
    obtain ⟨value, hsigned⟩ : ∃ value, m.addAttribute valueType
        (.ofBytes STUN_ATTR_MESSAGE_INTEGRITY value) = some m₁ := by
      obtain ⟨-, -, value, -, hsigned⟩ | ⟨-, body, -, hsigned⟩ := addMessageIntegrity_cases hsign
      · exact ⟨value, hsigned⟩
      · exact ⟨_, hsigned⟩
    obtain ⟨-, hm₁⟩ := addAttribute_eq_some hsigned
    have hid₁ : m₁.transactionId = m.transactionId := by rw [hm₁]
    have hattrs₁ : m₁.attrs = m.attrs ++ [.ofBytes STUN_ATTR_MESSAGE_INTEGRITY value] := by
      rw [hm₁]
    refine exists_write (by rw [hid₂, hid₁, hid]) fun a ha => ?_
    rw [hmore, hattrs₁, List.mem_append, List.mem_append, List.mem_singleton] at ha
    rcases ha with (ha | rfl) | ha
    · exact hfront a ha
    · trivial
    · exact haddressed hbehind a ha
  · intro data size password hvalid
    obtain ⟨haligned, hsize, pos, hfirst, hle, hcompared⟩ := validate_eq_true hvalid
    refine ⟨⟨pos, hfirst⟩, fun pos' hfirst' => ?_⟩
    obtain rfl := hfirst.unique hfirst'
    obtain ⟨hpos, -⟩ := hfirst.record.aligned
    refine ⟨hcompared, fun htext => ?_, fun hin => tempData_of_le hpos hsize hin⟩
    by_contra hout
    exact tempData_of_lt hpos hsize (Nat.not_le.mp hout) hle htext

/-- A function that takes the first twenty bytes of the text. -/
def firstTwenty : Hmac where
  compute _ text := (text ++ List.replicate 20 0).take 20
  length_compute _ text := by
    rw [List.length_take, List.length_append, List.length_replicate]
    exact Nat.min_eq_left (Nat.le_add_left _ _)

/-- A request with a transaction id and a user name. -/
def namedRequest : StunMessage :=
  ⟨0x0001, 12, List.replicate 12 7, [.ofBytes 0x0006 [1, 2, 3, 4, 5]]⟩

theorem assembled_namedRequest : Assembled getAttributeValueType namedRequest := by
  have hid : Assembled getAttributeValueType ⟨0x0001, 0, List.replicate 12 7, []⟩ :=
    Assembled.setTransactionID (.setType .new 0x0001) (if_pos (.inl rfl))
  exact hid.addAttribute (show (StunAttribute.ofBytes 0x0006 [1, 2, 3, 4, 5]).Sized from rfl) rfl

/-- It is signed, a fingerprint is added, and it is valid. -/
theorem integrity_namedRequest :
    ∃ m₁ m₂ bytes, namedRequest.addMessageIntegrity firstTwenty getAttributeValueType [9] =
        some (true, m₁) ∧
      Runs.run (add (fun _ => 0) getAttributeValueType) m₁ [.fingerprint] = some m₂ ∧
      m₂.write = some bytes ∧ bytes.length = 64 ∧
      validateMessageIntegrity firstTwenty (memory bytes fun _ => 0) bytes.length [9] = true := by
  refine ⟨_, _, _, rfl, rfl, rfl, rfl, ?_⟩
  refine ((integrity firstTwenty).1 (fun _ => 0) getAttributeValueType namedRequest _ _ [9] true
    [.fingerprint] assembled_namedRequest rfl ?_ rfl ?_ rfl ?_).1 _ _ rfl
  · decide
  · intro a ha
    rw [List.mem_singleton.mp ha]
    trivial
  · decide

/-- A header that counts twenty bytes, a `MESSAGE-INTEGRITY` record with sixteen bytes in the buffer. -/
def shortBytes : List UInt8 :=
  [0, 1, 0, 20] ++ List.replicate 16 0 ++ [0, 8, 0, 20] ++ [0, 1, 0, 20] ++ List.replicate 12 0

/-- Four bytes are compared that are not in the buffer, and the length is not set to the end of the
record. -/
theorem not_integrity_of_short_record :
    ¬ ∀ (hmac : Hmac) (data : ℕ → UInt8) (size : ℕ) (password : List UInt8),
      validateMessageIntegrity hmac data size password = true →
        ∀ pos, FirstIntegrity data size pos →
          readMem data (pos + 4) 20 = hmac.compute password (signedBytes data pos) := by
  intro h
  have hfirst : FirstIntegrity (memory shortBytes fun _ => 0) 40 20 :=
    ⟨.first, by decide, by decide⟩
  have hcompared := h firstTwenty (memory shortBytes fun _ => 0) 40 [] (by decide +kernel) 20 hfirst
  exact absurd hcompared (by decide +kernel)

end StunMessage

end Synciga
