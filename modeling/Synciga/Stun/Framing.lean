import Synciga.Stun.Message

/-!
# The records of a STUN message

On the wire a message is a header and a row of records: a type, a length, as many bytes, and padding to a
multiple of four. `Read` takes the bytes that the class of an attribute says, skips padding as far as there is
any, and what is unknown by a length that is rounded up in 16 bits.

## Main definitions

* `WireRecord`, `WireHeader` — records
* `Framed` — the attributes are those of the records

## Main results

* `framed_iff_straight` — they are, when no header makes a difference between these ways
-/

namespace Synciga

open ByteBuffer
open ListReader (Exact)

/-! ### What the classes read -/

theorem exact_readAddress (length : UInt16) : Exact length.toNat (readAddress length) := by
  intro buf address rest h
  simp only [readAddress, Option.bind_eq_bind] at h
  obtain ⟨⟨dummy, buf₁⟩, hdummy, h₁⟩ := Option.bind_eq_some_iff.mp h
  obtain ⟨l₁, hl₁, rfl, hbehind₁⟩ := exact_readUInt8 _ _ _ hdummy
  obtain ⟨⟨family, buf₂⟩, hfamily, h₂⟩ := Option.bind_eq_some_iff.mp h₁
  obtain ⟨l₂, hl₂, rfl, hbehind₂⟩ := exact_readUInt8 _ _ _ hfamily
  obtain ⟨⟨port, buf₃⟩, hport, h₃⟩ := Option.bind_eq_some_iff.mp h₂
  obtain ⟨l₃, hl₃, rfl, hbehind₃⟩ := exact_readUInt16 _ _ _ hport
  by_cases hv4 : family = STUN_ADDRESS_IPV4
  · rw [if_pos hv4] at h₃
    by_cases hlength : length ≠ SIZE_IP4
    · rw [if_pos hlength] at h₃
      cases h₃
    rw [if_neg hlength] at h₃
    obtain ⟨⟨ip, buf₄⟩, hip, h₄⟩ := Option.bind_eq_some_iff.mp h₃
    obtain ⟨l₄, hl₄, rfl, hbehind₄⟩ := exact_readUInt32 _ _ _ hip
    cases h₄
    refine ⟨l₁ ++ (l₂ ++ (l₃ ++ l₄)), ?_, by simp only [List.append_assoc], fun rest' => ?_⟩
    · simp only [List.length_append, hl₁, hl₂, hl₃, hl₄, not_not.mp hlength]
      rfl
    · simp only [readAddress, List.append_assoc, hbehind₁, hbehind₂, hbehind₃, hbehind₄, Option.bind_eq_bind,
        Option.bind_some, if_pos hv4, if_neg hlength]
  · rw [if_neg hv4] at h₃
    by_cases hv6 : family = STUN_ADDRESS_IPV6
    swap
    · rw [if_neg hv6] at h₃
      cases h₃
    rw [if_pos hv6] at h₃
    by_cases hlength : length ≠ SIZE_IP6
    · rw [if_pos hlength] at h₃
      cases h₃
    rw [if_neg hlength] at h₃
    have hwords := exact_readUInt32.bind fun w₀ => exact_readUInt32.bind fun w₁ =>
      exact_readUInt32.bind fun w₂ => exact_readUInt32.bind fun w₃ =>
        Exact.pure (⟨.ipv6 w₀ w₁ w₂ w₃, port⟩ : SocketAddress)
    obtain ⟨l₄, hl₄, rfl, hbehind₄⟩ := hwords _ _ _ h₃
    refine ⟨l₁ ++ (l₂ ++ (l₃ ++ l₄)), ?_, by simp only [List.append_assoc], fun rest' => ?_⟩
    · simp only [List.length_append, hl₁, hl₂, hl₃, hl₄, not_not.mp hlength]
      rfl
    · simp only [readAddress, List.append_assoc, hbehind₁, hbehind₂, hbehind₃, Option.bind_eq_bind,
        Option.bind_some, if_neg hv4, if_pos hv6, if_neg hlength]
      exact hbehind₄ rest'

variable {buf rest : List UInt8}

theorem readAddress_length {length : UInt16} {address : SocketAddress}
    (h : readAddress length buf = some (address, rest)) : length.toNat % 4 = 0 := by
  by_cases hv4 : length = SIZE_IP4
  · rw [hv4]
    rfl
  by_cases hv6 : length = SIZE_IP6
  · rw [hv6]
    rfl
  simp [readAddress, hv4, hv6] at h

namespace StunAttribute

variable {length : UInt16}

theorem consumePadding_of_mod (h : length.toNat % 4 = 0) (buf : List UInt8) :
    consumePadding length buf = buf := by
  rw [consumePadding, if_neg (by omega)]

/-- The reader takes a value of the given length, and then the padding as far as there is any. -/
def Padded {β : Type} (length : UInt16) (read : List UInt8 → Option (β × List UInt8)) : Prop :=
  ∀ buf x rest, read buf = some (x, rest) →
    ∃ value behind, buf = value ++ behind ∧ value.length = length.toNat ∧
      rest = consumePadding length behind ∧
      ∀ behind', read (value ++ behind') = some (x, consumePadding length behind')

theorem Padded.of_exact {β γ : Type} {read : List UInt8 → Option (β × List UInt8)}
    (h : Exact length.toNat read) (f : β → γ) :
    Padded length fun buf => (read buf).bind fun r => some (f r.1, consumePadding length r.2) := by
  intro buf y rest hread
  obtain ⟨⟨x, behind⟩, hx, hy⟩ := Option.bind_eq_some_iff.mp hread
  cases hy
  obtain ⟨value, hvalue, rfl, hbehind⟩ := h buf x behind hx
  refine ⟨value, behind, rfl, hvalue, rfl, fun behind' => ?_⟩
  exact Option.bind_eq_some_iff.mpr ⟨_, hbehind behind', rfl⟩

theorem Padded.of_exact_of_mod {β γ : Type}
    {read : List UInt8 → Option (β × List UInt8)} (h : Exact length.toNat read)
    (hmod : ∀ buf x rest, read buf = some (x, rest) → length.toNat % 4 = 0) (f : β → γ) :
    Padded length fun buf => (read buf).bind fun r => some (f r.1, r.2) := by
  convert Padded.of_exact h f using 2 with buf
  refine Option.bind_congr fun r hr => ?_
  rw [consumePadding_of_mod (hmod buf r.1 r.2 hr)]

theorem exact_readTypes (n : ℕ) : Exact (n * 2) (readTypes n) := by
  induction n with
  | zero => exact Exact.pure []
  | succ n ih =>
    rw [Nat.succ_mul, Nat.add_comm]
    exact exact_readUInt16.bind fun attr => ih.bind fun attrTypes => Exact.pure (attr :: attrTypes)

theorem padded_read (transactionId : List UInt8) (a : StunAttribute) :
    Padded a.length (a.read transactionId) := by
  rcases a with ⟨type, length, address | address | bits | bits | bytes | ⟨eclass, number, reason⟩ |
    attrTypes⟩
  · exact Padded.of_exact_of_mod (exact_readAddress length) (fun _ _ _ => readAddress_length)
      (ofAddress type)
  · exact Padded.of_exact_of_mod (exact_readAddress length) (fun _ _ _ => readAddress_length)
      fun address => ofXorAddress type ⟨getXoredIP transactionId address.ip, xoredPort address.port⟩
  · by_cases hlength : length = 4
    · subst hlength
      have hexact : Exact (UInt16.toNat 4) readUInt32 := exact_readUInt32
      exact Padded.of_exact_of_mod hexact (fun _ _ _ _ => by decide)
        fun bits => (⟨type, 4, .uint32 bits⟩ : StunAttribute)
    · intro buf x rest h
      simp [read, hlength] at h
  · by_cases hlength : length = 8
    · subst hlength
      have hexact : Exact (UInt16.toNat 8) readUInt64 := exact_readUInt64
      exact Padded.of_exact_of_mod hexact (fun _ _ _ _ => by decide)
        fun bits => (⟨type, 8, .uint64 bits⟩ : StunAttribute)
    · intro buf x rest h
      simp [read, hlength] at h
  · exact Padded.of_exact (exact_readBytes length.toNat)
      fun bytes => (⟨type, length, .byteString bytes⟩ : StunAttribute)
  · by_cases hlength : length < 4
    · intro buf x rest h
      simp [read, hlength] at h
    have hfour : 4 + (length.toNat - 4) = length.toNat :=
      Nat.add_sub_cancel' (UInt16.le_iff_toNat_le.mp (UInt16.not_lt.mp hlength))
    have hexact := exact_readUInt32.bind fun val => (exact_readBytes (length.toNat - 4)).bind
      fun more => Exact.pure (val, more)
    rw [Nat.add_zero, hfour] at hexact
    have hpadded := Padded.of_exact hexact fun r => (⟨type, length, .errorCode
      ((r.1 >>> 8) &&& 0x7).toUInt8 (r.1 &&& 0xff).toUInt8 (reason ++ r.2)⟩ : StunAttribute)
    intro buf x rest h
    simp only [read, if_neg hlength, Option.bind_eq_bind] at h ⊢
    simp only [Option.bind_assoc, Option.bind_some] at hpadded
    exact hpadded buf x rest h
  · by_cases hlength : length.toNat % 2 ≠ 0
    · intro buf x rest h
      simp [read, hlength] at h
    have hexact := exact_readTypes (length.toNat / 2)
    rw [Nat.div_mul_cancel (Nat.dvd_of_mod_eq_zero (not_not.mp hlength))] at hexact
    have hpadded := Padded.of_exact hexact fun more =>
      (⟨type, length, .uint16List (attrTypes ++ more)⟩ : StunAttribute)
    intro buf x rest h
    simp only [read, if_neg hlength, Option.bind_eq_bind] at h ⊢
    exact hpadded buf x rest h

theorem consumePadding_nil (length : UInt16) : consumePadding length [] = [] := by
  rw [consumePadding]
  split
  · rw [consume, if_pos (by rw [List.length_nil]; omega)]
    rfl
  · rfl

theorem consumePadding_eq_drop {buf : List UInt8} (h : padding length ≤ buf.length) :
    consumePadding length buf = buf.drop (padding length) := by
  rw [consumePadding]
  rw [padding] at h ⊢
  split
  next hmod =>
    rw [if_pos hmod] at h
    rw [consume, if_neg (by omega)]
    rfl
  · rfl

theorem create_eq_none {kind : StunAttributeValueType} {type length : UInt16}
    (h : create kind type length = none) : kind = .unknown := by
  cases kind
  case unknown => rfl
  all_goals cases h

theorem create_length {kind : StunAttributeValueType} {type length : UInt16} {a₀ : StunAttribute}
    (h : create kind type length = some a₀) : a₀.length = length ∨ a₀.length.toNat % 4 = 0 := by
  cases kind
  case unknown => cases h
  case uint32 =>
    cases h
    exact .inr (show UInt16.toNat 4 % 4 = 0 by decide)
  case uint64 =>
    cases h
    exact .inr (show UInt16.toNat 8 % 4 = 0 by decide)
  all_goals
    cases h
    exact .inl rfl

theorem toNat_skipped (h : length.toNat < 0xFFFD) :
    (if length % 4 ≠ 0 then length + (4 - length % 4) else length).toNat =
      length.toNat + padding length := by
  have hmod : (length % 4).toNat = length.toNat % 4 := rfl
  have hzero : length % 4 ≠ 0 ↔ 0 < length.toNat % 4 := by
    rw [ne_eq, ← UInt16.toNat_inj, hmod]
    exact Nat.pos_iff_ne_zero.symm
  rw [padding]
  by_cases hrem : 0 < length.toNat % 4
  · have hsub : (4 - length % 4).toNat = 4 - length.toNat % 4 := by
      rw [UInt16.toNat_sub_of_le _ _ (UInt16.le_iff_toNat_le.mpr _), hmod]
      · rfl
      · rw [hmod, show (4 : UInt16).toNat = 4 from rfl]
        omega
    rw [if_pos hrem, if_pos (hzero.mpr hrem), UInt16.toNat_add, hsub]
    omega
  · rw [if_neg hrem, if_neg (mt hzero.mp hrem)]
    rfl

end StunAttribute

/-! ### Records -/

open StunAttribute (padding consumePadding)

/-- A record on the wire: the value has a length of 16 bits and is padded to a multiple of four. -/
@[ext]
structure WireRecord where
  type : UInt16
  value : List UInt8
  pad : List UInt8
  value_lt : value.length < 2 ^ 16
  pad_length : pad.length = padding (UInt16.ofNat value.length)

namespace WireRecord

/-- The length that the record declares. -/
def length (r : WireRecord) : UInt16 := UInt16.ofNat r.value.length

/-- The bytes of the record. -/
def bytes (r : WireRecord) : List UInt8 :=
  writeUInt16 r.type ++ (writeUInt16 r.length ++ (r.value ++ r.pad))

theorem toNat_length (r : WireRecord) : r.length.toNat = r.value.length :=
  UInt16.toNat_ofNat_of_lt' r.value_lt

/-- The record at the front of the bytes behind its header. -/
def front (type length : UInt16) (buf : List UInt8)
    (h : length.toNat + padding length ≤ buf.length) : WireRecord where
  type := type
  value := buf.take length.toNat
  pad := (buf.drop length.toNat).take (padding length)
  value_lt := by
    rw [List.length_take_of_le (by omega)]
    exact length.toNat_lt
  pad_length := by
    have hpad : padding length ≤ (buf.drop length.toNat).length := by
      rw [List.length_drop]
      omega
    rw [List.length_take_of_le hpad, List.length_take_of_le (by omega), UInt16.ofNat_toNat]

theorem length_front {type length : UInt16} {buf : List UInt8}
    (h : length.toNat + padding length ≤ buf.length) : (front type length buf h).length = length := by
  rw [WireRecord.length, front, List.length_take_of_le (by omega), UInt16.ofNat_toNat]

theorem bytes_front {type length : UInt16} {buf : List UInt8}
    (h : length.toNat + padding length ≤ buf.length) :
    (front type length buf h).bytes ++ buf.drop (length.toNat + padding length) =
      writeUInt16 type ++ (writeUInt16 length ++ buf) := by
  rw [bytes, length_front h, front, ← List.drop_drop]
  simp only [List.append_assoc, List.take_append_drop]

end WireRecord

variable (valueType : UInt16 → StunAttributeValueType) (transactionId : List UInt8)

/-- The attributes of the records in order: a record of an unknown type is passed over, and every
other one is decoded from its own value. -/
inductive Decodes : List WireRecord → List StunAttribute → Prop
  | nil : Decodes [] []
  | skip {r : WireRecord} {rs : List WireRecord} {attrs : List StunAttribute}
    (hunknown : valueType r.type = .unknown) (h : Decodes rs attrs) : Decodes (r :: rs) attrs
  | keep {r : WireRecord} {rs : List WireRecord} {a₀ a : StunAttribute}
    {attrs : List StunAttribute}
    (hcreate : StunAttribute.create (valueType r.type) r.type r.length = some a₀)
    (hread : a₀.read transactionId r.value = some (a, [])) (h : Decodes rs attrs) :
    Decodes (r :: rs) (a :: attrs)

/-- The bytes are tiled by records, of which the attributes are those that are known. -/
def Framed (body : List UInt8) (attrs : List StunAttribute) : Prop :=
  ∃ rs : List WireRecord, body = rs.flatMap WireRecord.bytes ∧ Decodes valueType transactionId rs attrs

/-! ### Headers -/

/-- A header on the wire, and the number of bytes behind it. -/
structure WireHeader where
  type : UInt16
  length : UInt16
  behind : ℕ
  deriving DecidableEq

/-- The headers that are met when every record is passed over by the length it declares. -/
def wireHeaders : ℕ → List UInt8 → List WireHeader
  | 0, _ => []
  | fuel + 1, buf =>
    match readUInt16 buf with
    | none => []
    | some (type, buf) =>
      match readUInt16 buf with
      | none => []
      | some (length, buf) =>
        ⟨type, length, buf.length⟩ ::
          wireHeaders fuel (buf.drop (length.toNat + padding length))

/-- The declared length is the one that the class or the skipping goes by, and the padding of a value
that is there is there. -/
def WireHeader.Sound (w : WireHeader) : Prop :=
  match valueType w.type with
  | .unknown => w.length.toNat < 0xFFFD
  | .uint32 => w.length = 4
  | .uint64 => w.length = 8
  | _ => w.length.toNat ≤ w.behind → w.length.toNat + padding w.length ≤ w.behind

/-- Every header of the body is sound. -/
def Straight (body : List UInt8) : Prop :=
  ∀ w ∈ wireHeaders body.length body, w.Sound valueType

variable {valueType transactionId}

theorem WireHeader.sound_iff {w : WireHeader} {a₀ : StunAttribute}
    (h : StunAttribute.create (valueType w.type) w.type w.length = some a₀) :
    w.Sound valueType ↔ a₀.length = w.length ∧
      (w.length.toNat ≤ w.behind → w.length.toNat + padding w.length ≤ w.behind) := by
  rw [WireHeader.Sound]
  cases hkind : valueType w.type
  case unknown =>
    rw [hkind] at h
    cases h
  case uint32 =>
    rw [hkind] at h
    cases h
    constructor
    · intro hlength
      refine ⟨hlength.symm, ?_⟩
      rw [hlength]
      exact id
    · exact fun hlength => hlength.1.symm
  case uint64 =>
    rw [hkind] at h
    cases h
    constructor
    · intro hlength
      refine ⟨hlength.symm, ?_⟩
      rw [hlength]
      exact id
    · exact fun hlength => hlength.1.symm
  all_goals
    rw [hkind] at h
    cases h
    exact ⟨fun hpad => ⟨rfl, hpad⟩, fun hpad => hpad.2⟩

variable {a₀ a : StunAttribute}

theorem WireRecord.length_eq {r : WireRecord}
    (hcreate : StunAttribute.create (valueType r.type) r.type r.length = some a₀)
    (hread : a₀.read transactionId r.value = some (a, [])) : a₀.length = r.length := by
  obtain ⟨value, behind, hvalue, hlength, hrest, -⟩ := a₀.padded_read transactionId _ _ _ hread
  rcases StunAttribute.create_length hcreate with hdeclared | hmod
  · exact hdeclared
  · rw [StunAttribute.consumePadding_of_mod hmod] at hrest
    rw [← hrest, List.append_nil] at hvalue
    rw [← UInt16.toNat_inj, r.toNat_length, hvalue, hlength]

/-! ### One record -/

variable {type length : UInt16}

theorem WireHeader.Sound.read {behind tail : List UInt8}
    (hsound : Sound valueType ⟨type, length, behind.length⟩)
    (hcreate : StunAttribute.create (valueType type) type length = some a₀)
    (hread : a₀.read transactionId behind = some (a, tail)) :
    length.toNat + padding length ≤ behind.length ∧
      tail = behind.drop (length.toNat + padding length) ∧
      a₀.read transactionId (behind.take length.toNat) = some (a, []) := by
  have hlength : a₀.length = length := ((sound_iff hcreate).mp hsound).1
  have hpad : length.toNat ≤ behind.length → length.toNat + padding length ≤ behind.length :=
    ((sound_iff hcreate).mp hsound).2
  obtain ⟨value, rest, rfl, hvalue, rfl, hlocal⟩ := a₀.padded_read transactionId _ _ _ hread
  rw [hlength] at hvalue hlocal ⊢
  replace hpad := hpad (by rw [List.length_append]; omega)
  refine ⟨hpad, ?_, ?_⟩
  · rw [List.length_append] at hpad
    rw [StunAttribute.consumePadding_eq_drop (by omega), ← List.drop_drop,
      List.drop_left' hvalue]
  · have hnil := hlocal []
    rw [List.append_nil, StunAttribute.consumePadding_nil] at hnil
    rw [List.take_left' hvalue]
    exact hnil

theorem WireHeader.Sound.consume {behind tail : List UInt8}
    (hsound : Sound valueType ⟨type, length, behind.length⟩) (hunknown : valueType type = .unknown)
    (hconsume : ByteBuffer.consume
      (if length % 4 ≠ 0 then length + (4 - length % 4) else length).toNat behind = some tail) :
    length.toNat + padding length ≤ behind.length ∧
      tail = behind.drop (length.toNat + padding length) := by
  rw [Sound, hunknown] at hsound
  rw [StunAttribute.toNat_skipped hsound, ByteBuffer.consume] at hconsume
  split at hconsume
  · cases hconsume
  next hlen =>
    cases hconsume
    exact ⟨Nat.not_lt.mp hlen, rfl⟩

variable {attrs : List StunAttribute}

theorem WireHeader.sound_of_decodes {r : WireRecord} {rs : List WireRecord}
    (h : Decodes valueType transactionId (r :: rs) attrs) {n : ℕ}
    (hbehind : r.length.toNat + padding r.length ≤ n) (hshort : n + 4 < 2 ^ 16) :
    Sound valueType ⟨r.type, r.length, n⟩ := by
  cases h with
  | skip hunknown h =>
    rw [Sound, hunknown]
    change r.length.toNat < 0xFFFD
    omega
  | keep hcreate hread h =>
    refine (sound_iff hcreate).mpr ⟨WireRecord.length_eq hcreate hread, fun _ => ?_⟩
    exact hbehind

/-! ### The loop -/

theorem wireHeaders_append (type length : UInt16) (behind : List UInt8) (fuel : ℕ) :
    wireHeaders (fuel + 1) (writeUInt16 type ++ (writeUInt16 length ++ behind)) =
      ⟨type, length, behind.length⟩ ::
        wireHeaders fuel (behind.drop (length.toNat + padding length)) := by
  simp only [wireHeaders, readUInt16_write]

/-- What a round of the loop does that succeeds. -/
theorem StunMessage.readAttributes_succ {fuel : ℕ}
    (hne : buf ≠ [])
    (h : readAttributes valueType transactionId (fuel + 1) buf = some (attrs, rest)) :
    ∃ type length behind tail, buf = writeUInt16 type ++ (writeUInt16 length ++ behind) ∧
      ((valueType type = .unknown ∧
          consume (if length % 4 ≠ 0 then length + (4 - length % 4) else length).toNat behind =
            some tail ∧
          readAttributes valueType transactionId fuel tail = some (attrs, rest)) ∨
        ∃ a₀ a attrs', StunAttribute.create (valueType type) type length = some a₀ ∧
          a₀.read transactionId behind = some (a, tail) ∧ attrs = a :: attrs' ∧
          readAttributes valueType transactionId fuel tail = some (attrs', rest)) := by
  rw [readAttributes, if_neg hne] at h
  obtain ⟨⟨type, buf₁⟩, htype, h₁⟩ := Option.bind_eq_some_iff.mp h
  obtain ⟨⟨length, behind⟩, hlength, h₂⟩ := Option.bind_eq_some_iff.mp h₁
  refine ⟨type, length, behind, ?_⟩
  have hbuf : buf = writeUInt16 type ++ (writeUInt16 length ++ behind) := by
    rw [readUInt16_eq_some htype, readUInt16_eq_some hlength]
  cases hcreate : StunAttribute.create (valueType type) type length with
  | none =>
    simp only [hcreate] at h₂
    obtain ⟨tail, hconsume, h₃⟩ := Option.bind_eq_some_iff.mp h₂
    exact ⟨tail, hbuf, .inl ⟨StunAttribute.create_eq_none hcreate, hconsume, h₃⟩⟩
  | some a₀ =>
    simp only [hcreate] at h₂
    obtain ⟨⟨a, tail⟩, hread, h₃⟩ := Option.bind_eq_some_iff.mp h₂
    obtain ⟨⟨attrs', rest'⟩, hrest, h₄⟩ := Option.bind_eq_some_iff.mp h₃
    cases h₄
    exact ⟨tail, hbuf, .inr ⟨a₀, a, attrs', rfl, hread, rfl, hrest⟩⟩

variable {behind : List UInt8}

/-- The first record of bytes that start with a header is the one that the header declares. -/
theorem Framed.front
    (h : Framed valueType transactionId (writeUInt16 type ++ (writeUInt16 length ++ behind)) attrs) :
    ∃ hlen : length.toNat + padding length ≤ behind.length, ∃ rs : List WireRecord,
      behind.drop (length.toNat + padding length) = rs.flatMap WireRecord.bytes ∧
      Decodes valueType transactionId (WireRecord.front type length behind hlen :: rs) attrs := by
  obtain ⟨rs, hbytes, hdecodes⟩ := h
  rcases rs with _ | ⟨r, rs⟩
  · have := congrArg List.length hbytes
    simp only [List.length_append, length_writeUInt16, List.flatMap_nil, List.length_nil] at this
    omega
  rw [List.flatMap_cons, WireRecord.bytes, List.append_assoc, List.append_assoc] at hbytes
  obtain ⟨rfl, hbehind⟩ := writeUInt16_append_inj hbytes
  obtain ⟨rfl, rfl⟩ := writeUInt16_append_inj hbehind
  have hvalue : r.value.length = r.length.toNat := r.toNat_length.symm
  have hpad : r.pad.length = padding r.length := r.pad_length
  have hlen : r.length.toNat + padding r.length ≤
      (r.value ++ r.pad ++ rs.flatMap WireRecord.bytes).length := by
    rw [List.length_append, List.length_append, hvalue, hpad]
    omega
  have hfront : WireRecord.front r.type r.length _ hlen = r := by
    ext1
    · rfl
    · change List.take _ _ = _
      rw [List.append_assoc, List.take_left' hvalue]
    · change List.take _ (List.drop _ _) = _
      rw [List.append_assoc, List.drop_left' hvalue, List.take_left' hpad]
  refine ⟨hlen, rs, ?_, ?_⟩
  · exact List.drop_left' (by rw [List.length_append, hvalue, hpad])
  · rw [hfront]
    exact hdecodes

theorem framed_skip_iff
    (hlen : length.toNat + padding length ≤ behind.length) (hunknown : valueType type = .unknown) :
    Framed valueType transactionId (writeUInt16 type ++ (writeUInt16 length ++ behind)) attrs ↔
      Framed valueType transactionId (behind.drop (length.toNat + padding length)) attrs := by
  constructor
  · intro h
    obtain ⟨_, rs, hrs, hdecodes⟩ := h.front
    cases hdecodes with
    | skip _ hdecodes => exact ⟨rs, hrs, hdecodes⟩
    | keep hcreate =>
      change StunAttribute.create (valueType type) _ _ = _ at hcreate
      rw [hunknown] at hcreate
      cases hcreate
  · rintro ⟨rs, hrs, hdecodes⟩
    refine ⟨WireRecord.front type length behind hlen :: rs, ?_, .skip hunknown hdecodes⟩
    rw [List.flatMap_cons, ← hrs, WireRecord.bytes_front]

theorem framed_keep_iff
    (hlen : length.toNat + padding length ≤ behind.length)
    (hcreate : StunAttribute.create (valueType type) type length = some a₀)
    (hread : a₀.read transactionId (behind.take length.toNat) = some (a, [])) :
    Framed valueType transactionId (writeUInt16 type ++ (writeUInt16 length ++ behind)) (a :: attrs) ↔
      Framed valueType transactionId (behind.drop (length.toNat + padding length)) attrs := by
  constructor
  · intro h
    obtain ⟨_, rs, hrs, hdecodes⟩ := h.front
    cases hdecodes with
    | skip hunknown =>
      change valueType type = _ at hunknown
      rw [hunknown] at hcreate
      cases hcreate
    | keep _ _ hdecodes => exact ⟨rs, hrs, hdecodes⟩
  · rintro ⟨rs, hrs, hdecodes⟩
    refine ⟨WireRecord.front type length behind hlen :: rs, ?_, .keep ?_ hread hdecodes⟩
    · rw [List.flatMap_cons, ← hrs, WireRecord.bytes_front]
    · rw [WireRecord.length_front]
      exact hcreate

theorem StunMessage.framed_iff_of_readAttributes {fuel : ℕ}
    (hread : readAttributes valueType transactionId fuel buf = some (attrs, rest))
    (hfuel : buf.length ≤ fuel) (hshort : buf.length < 2 ^ 16) :
    Framed valueType transactionId buf attrs ↔ ∀ w ∈ wireHeaders fuel buf, w.Sound valueType := by
  induction fuel generalizing buf attrs with
  | zero =>
    rw [List.eq_nil_of_length_eq_zero (Nat.le_zero.mp hfuel)] at hread ⊢
    cases hread
    exact ⟨fun _ w hw => absurd hw List.not_mem_nil, fun _ => ⟨[], rfl, .nil⟩⟩
  | succ fuel ih =>
    by_cases hne : buf = []
    · rw [hne, readAttributes, if_pos rfl] at hread
      cases hread
      rw [hne]
      exact ⟨fun _ w hw => absurd hw List.not_mem_nil, fun _ => ⟨[], rfl, .nil⟩⟩
    obtain ⟨type, length, behind, tail, rfl, hround⟩ := readAttributes_succ hne hread
    simp only [List.length_append, length_writeUInt16] at hfuel hshort
    rw [wireHeaders_append, List.forall_mem_cons]
    -- Records that are decoded have a sound first header, so the parser is where the next record is.
    have hfirst (h : Framed valueType transactionId
        (writeUInt16 type ++ (writeUInt16 length ++ behind)) attrs) :
        WireHeader.Sound valueType ⟨type, length, behind.length⟩ := by
      obtain ⟨hlen, rs, -, hdecodes⟩ := h.front
      have hsound := WireHeader.sound_of_decodes hdecodes (n := behind.length)
      rw [WireRecord.length_front] at hsound
      exact hsound hlen (by omega)
    rw [← and_iff_right_of_imp hfirst]
    refine and_congr_right fun hsound => ?_
    have hdrop : (behind.drop (length.toNat + padding length)).length ≤ behind.length := by
      rw [List.length_drop]
      omega
    rcases hround with ⟨hunknown, hconsume, hnext⟩ | ⟨a₀, a, attrs', hcreate, ha, rfl, hnext⟩
    · obtain ⟨hlen, rfl⟩ := hsound.consume hunknown hconsume
      rw [framed_skip_iff hlen hunknown, ih hnext (by omega) (by omega)]
    · obtain ⟨hlen, rfl, hvalue⟩ := hsound.read hcreate ha
      rw [framed_keep_iff hlen hcreate hvalue, ih hnext (by omega) (by omega)]

namespace StunMessage

theorem read_eq_some {buf rest : List UInt8} {m : StunMessage}
    (h : read valueType buf = some (m, rest)) :
    (buf.drop 20).length = m.length.toNat ∧
      readAttributes valueType m.transactionId (buf.drop 20).length (buf.drop 20) =
        some (m.attrs, rest) := by
  obtain ⟨⟨type, buf₁⟩, htype, h₁⟩ := Option.bind_eq_some_iff.mp h
  dsimp only at h₁
  split at h₁
  · cases h₁
  obtain ⟨⟨length, buf₂⟩, hlength, h₂⟩ := Option.bind_eq_some_iff.mp h₁
  obtain ⟨⟨magicCookie, buf₃⟩, hcookie, h₃⟩ := Option.bind_eq_some_iff.mp h₂
  obtain ⟨⟨id, body⟩, hid, h₄⟩ := Option.bind_eq_some_iff.mp h₃
  have hbuf : buf = writeUInt16 type ++ writeUInt16 length ++ magicCookie ++ id ++ body := by
    have hbuf₂ : buf₂ = magicCookie ++ buf₃ := (readBytes_eq_some hcookie).1
    have hbuf₃ : buf₃ = id ++ body := (readBytes_eq_some hid).1
    rw [readUInt16_eq_some htype, readUInt16_eq_some hlength, hbuf₂, hbuf₃]
    simp only [List.append_assoc]
  have hbody : buf.drop 20 = body := by
    rw [hbuf]
    apply List.drop_left'
    simp only [List.length_append, length_writeUInt16, (readBytes_eq_some hcookie).2,
      (readBytes_eq_some hid).2]
    rfl
  rw [hbody]
  split at h₄
  · cases h₄
  next hlen =>
    obtain ⟨⟨attrs, rest'⟩, hattrs, h₅⟩ := Option.bind_eq_some_iff.mp h₄
    cases h₅
    exact ⟨(not_not.mp hlen).symm, hattrs⟩

/-- A message that is read is framed exactly when the headers in it are sound. -/
theorem framed_iff_straight {buf rest : List UInt8} {m : StunMessage}
    (h : read valueType buf = some (m, rest)) :
    Framed valueType m.transactionId (buf.drop 20) m.attrs ↔ Straight valueType (buf.drop 20) := by
  obtain ⟨hlength, hread⟩ := read_eq_some h
  exact framed_iff_of_readAttributes hread le_rfl (hlength ▸ m.length.toNat_lt)

/-- A message with a user name, which is padded, and a fingerprint. -/
def paddedMessage : List UInt8 :=
  [0x00, 0x01, 0x00, 0x10, 0x21, 0x12, 0xA4, 0x42, 1, 2, 3, 4, 5, 6, 7, 8, 9, 10, 11, 12,
    0x00, 0x06, 0x00, 0x03, 65, 66, 67, 0, 0x80, 0x28, 0x00, 0x04, 0, 0, 0, 1]

theorem framed_iff_straight_paddedMessage :
    ∃ m, read getAttributeValueType paddedMessage = some (m, []) ∧
      (Framed getAttributeValueType m.transactionId (paddedMessage.drop 20) m.attrs ↔
        Straight getAttributeValueType (paddedMessage.drop 20)) := by
  have hread : read getAttributeValueType paddedMessage =
      some (⟨1, 16, [1, 2, 3, 4, 5, 6, 7, 8, 9, 10, 11, 12],
        [.ofBytes 0x0006 [65, 66, 67], .ofUInt32 0x8028 1]⟩, []) := by decide +kernel
  exact ⟨_, hread, framed_iff_straight hread⟩

/-- A message with one record: a fingerprint that declares twelve bytes. -/
def longFingerprint : List UInt8 :=
  [0x00, 0x01, 0x00, 0x10, 0x21, 0x12, 0xA4, 0x42, 1, 2, 3, 4, 5, 6, 7, 8, 9, 10, 11, 12,
    0x80, 0x28, 0x00, 0x0C, 0, 0, 0, 1, 0xFF, 0x00, 0x00, 0x04, 0, 0, 0, 5]

/-- The fingerprint is read from four of its bytes, and the other eight are read as an attribute. -/
theorem not_framed_longFingerprint :
    ∃ m, read getAttributeValueType longFingerprint = some (m, []) ∧
      m.attrs = [.ofUInt32 0x8028 1, .ofUInt32 0xFF00 5] ∧
      ¬ Framed getAttributeValueType m.transactionId (longFingerprint.drop 20) m.attrs := by
  have hread : read getAttributeValueType longFingerprint =
      some (⟨1, 16, [1, 2, 3, 4, 5, 6, 7, 8, 9, 10, 11, 12],
        [.ofUInt32 0x8028 1, .ofUInt32 0xFF00 5]⟩, []) := by decide +kernel
  refine ⟨_, hread, rfl, fun h => ?_⟩
  have hsound := (framed_iff_of_readAttributes (read_eq_some hread).2 le_rfl (by decide)).mp h
    ⟨0x8028, 12, 12⟩ (by decide +kernel)
  exact absurd (show (12 : UInt16) = 4 from hsound) (by decide)

end StunMessage

end Synciga
