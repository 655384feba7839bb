import Synciga.Stun.Message

/-!
# A STUN message comes back as it was sent

The bytes that the class of an attribute writes are what the same class reads, behind its type, its length and
the transaction id, which masks the xor-addresses. `AddAttribute` keeps the length of the message in 16 bits, so
that the attributes have to be shorter than `2 ^ 16` together.

## Main definitions

* `Built` — a message that was made by its functions

## Main results

* `StunMessage.read_of_write` — it is read as it was written
-/

namespace Synciga

open ByteBuffer

/-! ### Addresses -/

variable {ip : IPAddress}

theorem readAddress_write {port : UInt16} {body : List UInt8}
    (h : writeAddress ip port = some body) (rest : List UInt8) :
    readAddress (addressLength ip) (body ++ rest) = some (⟨ip, port⟩, rest) := by
  rcases ip with _ | ip | ⟨w₀, w₁, w₂, w₃⟩
  · cases h
  · cases h
    simp [readAddress, addressLength, List.append_assoc]
  · cases h
    have hfamily : STUN_ADDRESS_IPV6 ≠ STUN_ADDRESS_IPV4 := by decide
    simp [readAddress, addressLength, List.append_assoc, hfamily]

theorem getXoredIP_getXoredIP {transactionId : List UInt8} (h : getXoredIP transactionId ip ≠ .unspec) :
    getXoredIP transactionId (getXoredIP transactionId ip) = ip := by
  rcases ip with _ | ip | ⟨w₀, w₁, w₂, w₃⟩
  · exact absurd rfl h
  · rw [getXoredIP, getXoredIP, UInt32.xor_assoc, UInt32.xor_self, UInt32.xor_zero]
  · rw [getXoredIP] at h ⊢
    split at h
    next hlength =>
      rw [if_pos hlength, getXoredIP, if_pos hlength]
      simp only [UInt32.xor_assoc, UInt32.xor_self, UInt32.xor_zero]
    · exact absurd rfl h

theorem xoredPort_xoredPort (port : UInt16) : xoredPort (xoredPort port) = port := by
  rw [xoredPort, xoredPort, UInt16.xor_assoc, UInt16.xor_self, UInt16.xor_zero]

theorem addressLength_getXoredIP {transactionId : List UInt8} (h : getXoredIP transactionId ip ≠ .unspec) :
    addressLength (getXoredIP transactionId ip) = addressLength ip := by
  rcases ip with _ | ip | ⟨w₀, w₁, w₂, w₃⟩
  · rfl
  · rfl
  · rw [getXoredIP] at h ⊢
    split at h
    next hlength => rw [if_pos hlength]; rfl
    · exact absurd rfl h

namespace StunAttribute

/-! ### Padding -/

variable (length : UInt16)

theorem consumePadding_write (rest : List UInt8) :
    consumePadding length (writePadding length ++ rest) = rest := by
  rw [consumePadding, writePadding, padding]
  split
  · rw [consume, if_neg]
    · rw [Option.getD_some]
      exact List.drop_left' List.length_replicate
    · rw [List.length_append, List.length_replicate]
      omega
  · rfl

theorem length_writePadding : (writePadding length).length = padding length :=
  List.length_replicate

/-! ### The values -/

theorem readTypes_write (attrTypes : List UInt16) (rest : List UInt8) :
    readTypes attrTypes.length (attrTypes.flatMap writeUInt16 ++ rest) = some (attrTypes, rest) := by
  induction attrTypes with
  | nil => rfl
  | cons attr attrTypes ih =>
    rw [List.length_cons, readTypes, List.flatMap_cons, List.append_assoc, readUInt16_write]
    simp only [Option.bind_eq_bind, Option.bind_some, ih]

theorem length_flatMap_writeUInt16 (attrTypes : List UInt16) :
    (attrTypes.flatMap writeUInt16).length = attrTypes.length * 2 := by
  induction attrTypes with
  | nil => rfl
  | cons attr attrTypes ih =>
    rw [List.flatMap_cons, List.length_append, ih, length_writeUInt16, List.length_cons]
    omega

theorem errorCode_bits {eclass : UInt8} (h : eclass < 8) (number : UInt8) :
    (((eclass.toUInt32 <<< 8 ||| number.toUInt32) >>> 8) &&& 0x7).toUInt8 = eclass ∧
      ((eclass.toUInt32 <<< 8 ||| number.toUInt32) &&& 0xff).toUInt8 = number := by
  have hclass : eclass.toNat < 8 := UInt8.lt_iff_toNat_lt.mp h
  have hnumber := number.toNat_lt
  have height : (8 : UInt32).toNat % 32 = 8 := rfl
  have hval : (eclass.toUInt32 <<< 8 ||| number.toUInt32).toNat = eclass.toNat * 256 + number.toNat := by
    rw [UInt32.toNat_or, UInt32.toNat_shiftLeft, UInt8.toNat_toUInt32, UInt8.toNat_toUInt32, height,
      Nat.mod_eq_of_lt (by rw [Nat.shiftLeft_eq]; omega), ← Nat.shiftLeft_add_eq_or_of_lt hnumber,
      Nat.shiftLeft_eq]
  constructor
  · apply UInt8.toNat_inj.mp
    rw [UInt32.toNat_toUInt8, UInt32.toNat_and, UInt32.toNat_shiftRight, hval, height,
      show (7 : UInt32).toNat = 2 ^ 3 - 1 from rfl, Nat.and_two_pow_sub_one_eq_mod,
      Nat.shiftRight_eq_div_pow]
    omega
  · apply UInt8.toNat_inj.mp
    rw [UInt32.toNat_toUInt8, UInt32.toNat_and, hval,
      show (0xff : UInt32).toNat = 2 ^ 8 - 1 from rfl, Nat.and_two_pow_sub_one_eq_mod]
    omega

/-! ### Attributes -/

/-- The attribute has been given a value: an address of a known family, an error code from 300 to 699,
or any number, string or list. -/
inductive Given : StunAttribute → Prop
  | address (type : UInt16) (address : SocketAddress) (h : address.ip ≠ .unspec) :
    Given (ofAddress type address)
  | xorAddress (type : UInt16) (address : SocketAddress) (h : address.ip ≠ .unspec) :
    Given (ofXorAddress type address)
  | uint32 (type : UInt16) (bits : UInt32) : Given (ofUInt32 type bits)
  | uint64 (type : UInt16) (bits : UInt64) : Given (ofUInt64 type bits)
  | byteString (type : UInt16) (bytes : List UInt8) : Given (ofBytes type bytes)
  | errorCode (type : UInt16) (code : ℕ) (reason : List UInt8) (h : 300 ≤ code ∧ code ≤ 699) :
    Given (ofErrorCode type code reason)
  | uint16List (type : UInt16) (attrTypes : List UInt16) : Given (ofTypes type attrTypes)

variable (a : StunAttribute)

/-- The number of bytes of the value. -/
def size : ℕ :=
  match a.value with
  | .address address => (addressLength address.ip).toNat
  | .xorAddress address => (addressLength address.ip).toNat
  | .uint32 _ => 4
  | .uint64 _ => 8
  | .byteString bytes => bytes.length
  | .errorCode _ _ reason => 4 + reason.length
  | .uint16List attrTypes => attrTypes.length * 2

/-- The number of bytes on the wire: the header, the value and the padding. -/
def wireSize : ℕ := 4 + (a.size + 3) / 4 * 4

/-- An xor-address of IPv6 needs the transaction id of RFC 5389. -/
def Maskable (transactionId : List UInt8) (a : StunAttribute) : Prop :=
  match a.value with
  | .xorAddress ⟨.ipv6 .., _⟩ => transactionId.length = kStunTransactionIdLength
  | _ => True

theorem Maskable.getXoredIP_ne {transactionId : List UInt8} {type : UInt16} {address : SocketAddress}
    (h : (ofXorAddress type address).Maskable transactionId) (haddress : address.ip ≠ .unspec) :
    getXoredIP transactionId address.ip ≠ .unspec := by
  rcases address with ⟨_ | ip | ⟨w₀, w₁, w₂, w₃⟩, port⟩
  · exact absurd rfl haddress
  · intro hunspec
    cases hunspec
  · have hlength : transactionId.length = kStunTransactionIdLength := h
    simp only [getXoredIP, if_pos hlength]
    intro hunspec
    cases hunspec

theorem Given.toNat_length {a : StunAttribute} (h : a.Given) (hsize : a.size < 2 ^ 16) :
    a.length.toNat = a.size := by
  rcases h with ⟨type, address, h⟩ | ⟨type, address, h⟩ | ⟨type, bits⟩ | ⟨type, bits⟩ |
    ⟨type, bytes⟩ | ⟨type, code, reason, h⟩ | ⟨type, attrTypes⟩
  · rfl
  · rfl
  · rfl
  · rfl
  · exact UInt16.toNat_ofNat_of_lt' hsize
  · have hsize : 4 + reason.length < 2 ^ 16 := hsize
    change (4 + UInt16.ofNat reason.length).toNat = 4 + reason.length
    have hreason : reason.length < UInt16.size := by
      rw [show UInt16.size = 2 ^ 16 from rfl]
      omega
    rw [UInt16.toNat_add, UInt16.toNat_ofNat_of_lt' hreason, show (4 : UInt16).toNat = 4 from rfl]
    omega
  · exact UInt16.toNat_ofNat_of_lt' hsize

theorem length_padded : length.toNat + padding length = (length.toNat + 3) / 4 * 4 := by
  rw [padding]
  split <;> omega

theorem length_writeAddress {ip : IPAddress} {port : UInt16} {body : List UInt8}
    (h : writeAddress ip port = some body) :
    body.length = (addressLength ip).toNat := by
  rcases ip with _ | ip | ⟨w₀, w₁, w₂, w₃⟩
  · cases h
  · cases h
    simp [addressLength, SIZE_IP4]
  · cases h
    simp [addressLength, SIZE_IP6]

theorem exists_writeAddress {ip : IPAddress} (h : ip ≠ .unspec) (port : UInt16) :
    ∃ body, writeAddress ip port = some body := by
  rcases ip with _ | ip | ⟨w₀, w₁, w₂, w₃⟩
  · exact absurd rfl h
  · exact ⟨_, rfl⟩
  · exact ⟨_, rfl⟩

theorem addressLength_padded (ip : IPAddress) :
    ((addressLength ip).toNat + 3) / 4 * 4 = (addressLength ip).toNat := by
  rcases ip with _ | ip | ⟨w₀, w₁, w₂, w₃⟩
  · rfl
  · simp [addressLength, SIZE_IP4]
  · simp [addressLength, SIZE_IP6]

theorem Given.read_write {a : StunAttribute} (h : a.Given) (hsize : a.size < 2 ^ 16)
    {transactionId : List UInt8} (hmask : a.Maskable transactionId) :
    ∃ body a₀, a.write transactionId = some body ∧ create a.valueType a.type a.length = some a₀ ∧
      4 + body.length = a.wireSize ∧
      ∀ rest, a₀.read transactionId (body ++ rest) = some (a, rest) := by
  have hlength := h.toNat_length hsize
  rcases h with ⟨type, address, h⟩ | ⟨type, address, h⟩ | ⟨type, bits⟩ | ⟨type, bits⟩ |
    ⟨type, bytes⟩ | ⟨type, code, reason, h⟩ | ⟨type, attrTypes⟩
  · obtain ⟨body, hbody⟩ := exists_writeAddress h address.port
    refine ⟨body, _, hbody, rfl, ?_, fun rest => ?_⟩
    · rw [length_writeAddress hbody, wireSize]
      exact congrArg (4 + ·) (addressLength_padded _).symm
    · simp only [read, ofAddress, readAddress_write hbody]
      rfl
  · have hmask := hmask.getXoredIP_ne h
    obtain ⟨body, hbody⟩ := exists_writeAddress hmask (xoredPort address.port)
    refine ⟨body, _, hbody, rfl, ?_, fun rest => ?_⟩
    · rw [length_writeAddress hbody, addressLength_getXoredIP hmask, wireSize]
      exact congrArg (4 + ·) (addressLength_padded _).symm
    · have hread := readAddress_write hbody rest
      rw [addressLength_getXoredIP hmask] at hread
      simp only [read, ofXorAddress, hread]
      simp only [Option.bind_eq_bind, Option.bind_some, getXoredIP_getXoredIP hmask,
        xoredPort_xoredPort]
  · refine ⟨_, _, rfl, rfl, by simp [wireSize, size, ofUInt32], fun rest => ?_⟩
    simp [read, ofUInt32]
  · refine ⟨_, _, rfl, rfl, by simp [wireSize, size, ofUInt64], fun rest => ?_⟩
    simp [read, ofUInt64]
  · have hlength : (UInt16.ofNat bytes.length).toNat = bytes.length := hlength
    refine ⟨bytes ++ writePadding (UInt16.ofNat bytes.length), _, ?_, rfl, ?_, fun rest => ?_⟩
    · simp only [write, ofBytes]
      rw [hlength, List.take_length]
    · have hpadded := length_padded (UInt16.ofNat bytes.length)
      rw [hlength] at hpadded
      rw [List.length_append, length_writePadding, hpadded]
      rfl
    · simp only [read, ofBytes, List.append_assoc]
      rw [readBytes_append hlength.symm]
      simp only [Option.bind_eq_bind, Option.bind_some, consumePadding_write]
  · have hlength : (4 + UInt16.ofNat reason.length).toNat = 4 + reason.length := hlength
    have hclass : (UInt8.ofNat (code / 100)) < 8 := by
      exact Nat.lt_of_le_of_lt (Nat.mod_le _ _) (by change _ < 8; omega)
    have hbits := errorCode_bits hclass (UInt8.ofNat (code % 100))
    have hshort : ¬ 4 + UInt16.ofNat reason.length < 4 := by
      rw [UInt16.lt_iff_toNat_lt, hlength]
      exact Nat.not_lt.mpr (Nat.le_add_right _ _)
    refine ⟨_, _, rfl, rfl, ?_, fun rest => ?_⟩
    · have hpadded := length_padded (4 + UInt16.ofNat reason.length)
      rw [hlength] at hpadded
      simp only [ofErrorCode, List.length_append, length_writeUInt32, length_writePadding, hpadded]
      rfl
    · simp only [read, ofErrorCode, if_neg hshort, List.append_assoc, readUInt32_write,
        Option.bind_eq_bind, Option.bind_some]
      rw [readBytes_append (by rw [hlength]; omega)]
      simp only [Option.bind_some, consumePadding_write, hbits, List.nil_append]
  · have hlength : (UInt16.ofNat (attrTypes.length * 2)).toNat = attrTypes.length * 2 := hlength
    refine ⟨_, _, rfl, rfl, ?_, fun rest => ?_⟩
    · have hpadded := length_padded (UInt16.ofNat (attrTypes.length * 2))
      rw [hlength] at hpadded
      simp only [ofTypes, List.length_append, length_flatMap_writeUInt16, length_writePadding,
        hpadded]
      rfl
    · simp only [read, ofTypes, hlength, List.append_assoc, Nat.mul_mod_left, ne_eq,
        not_true_eq_false, if_false, Nat.mul_div_cancel _ (Nat.zero_lt_two)]
      rw [readTypes_write]
      simp only [Option.bind_eq_bind, Option.bind_some, consumePadding_write, List.nil_append]

theorem size_le_wireSize : a.size ≤ a.wireSize := by
  rw [wireSize]
  omega

end StunAttribute

namespace StunMessage

variable {valueType : UInt16 → StunAttributeValueType}

/-! ### Messages -/

/-- The messages that are built with the setters, from attributes that have been given their
values. -/
inductive Built (valueType : UInt16 → StunAttributeValueType) : StunMessage → Prop
  | new : Built valueType new
  | setType {m : StunMessage} (h : Built valueType m) (type : UInt16) : Built valueType (m.setType type)
  | setTransactionID {m m' : StunMessage} (h : Built valueType m) {str : List UInt8}
    (hset : m.setTransactionID str = some m') : Built valueType m'
  | addAttribute {m m' : StunMessage} (h : Built valueType m) {attr : StunAttribute}
    (hgiven : attr.Given) (hadd : m.addAttribute valueType attr = some m') : Built valueType m'

/-- The number of bytes that the attributes take. -/
def attrsSize (m : StunMessage) : ℕ := (m.attrs.map StunAttribute.wireSize).sum

/-- The transaction id is known by its length and is not taken for the magic cookie. -/
def IdReadable (transactionId : List UInt8) : Prop :=
  transactionId.length = kStunTransactionIdLength ∨ transactionId.length = kStunLegacyTransactionIdLength ∧
      transactionId.take kStunMagicCookieLength ≠ writeUInt32 kStunMagicCookie

theorem addAttribute_eq_some {m m' : StunMessage} {attr : StunAttribute}
    (h : m.addAttribute valueType attr = some m') :
    attr.valueType = valueType attr.type ∧ m' = { m with
        attrs := m.attrs ++ [attr]
        length := m.length + UInt16.ofNat ((attr.length.toNat + 3) / 4 * 4 + 4) } := by
  rw [addAttribute] at h
  split at h
  · cases h
  next hkind =>
    cases h
    refine ⟨not_not.mp hkind, ?_⟩
    congr 4
    split <;> omega

theorem setTransactionID_eq_some {m m' : StunMessage} {str : List UInt8}
    (h : m.setTransactionID str = some m') : m' = { m with transactionId := str } :=
  (Option.some.inj (Option.ite_none_right_eq_some.mp h).2).symm

theorem attrsSize_append (m : StunMessage) (attr : StunAttribute) (length : UInt16) :
    attrsSize { m with attrs := m.attrs ++ [attr], length := length } = m.attrsSize + attr.wireSize := by
  simp [attrsSize]

theorem toNat_length_addAttribute {m m' : StunMessage} {attr : StunAttribute}
    (hadd : m.addAttribute valueType attr = some m')
    (hattr : attr.size < 2 ^ 16 → attr.length.toNat = attr.size)
    (hlength : m.attrsSize < 2 ^ 16 → m.length.toNat = m.attrsSize) (hsize : m'.attrsSize < 2 ^ 16) :
    m'.length.toNat = m'.attrsSize := by
  obtain ⟨-, rfl⟩ := addAttribute_eq_some hadd
  rw [attrsSize_append] at hsize ⊢
  have hwire : (attr.size + 3) / 4 * 4 + 4 = attr.wireSize := Nat.add_comm _ _
  have hfits : attr.wireSize < UInt16.size := by
    rw [show UInt16.size = 2 ^ 16 from rfl]
    omega
  simp only [UInt16.toNat_add, hlength (by omega), hattr (by omega), hwire,
    UInt16.toNat_ofNat_of_lt' hfits]
  exact Nat.mod_eq_of_lt hsize

variable {m : StunMessage}

theorem Built.attrs (h : Built valueType m) :
    ∀ a ∈ m.attrs, a.Given ∧ a.valueType = valueType a.type := by
  induction h with
  | new =>
    intro a ha
    cases ha
  | setType h type ih => exact ih
  | @setTransactionID m m' h str hset ih =>
    rw [setTransactionID_eq_some hset]
    exact ih
  | @addAttribute m m' h attr hgiven hadd ih =>
    obtain ⟨hkind, rfl⟩ := addAttribute_eq_some hadd
    intro a ha
    rcases List.mem_append.mp ha with ha | ha
    · exact ih a ha
    · rw [List.mem_singleton.mp ha]
      exact ⟨hgiven, hkind⟩

theorem Built.toNat_length (h : Built valueType m) (hsize : m.attrsSize < 2 ^ 16) :
    m.length.toNat = m.attrsSize := by
  induction h with
  | new => rfl
  | setType h type ih => exact ih hsize
  | @setTransactionID m m' h str hset ih =>
    rw [setTransactionID_eq_some hset] at hsize ⊢
    exact ih hsize
  | @addAttribute m m' h attr hgiven hadd ih =>
    exact toNat_length_addAttribute hadd hgiven.toNat_length ih hsize

/-- The attributes are written one after the other and read back in the same order. -/
theorem readAttributes_write {transactionId : List UInt8} {attrs : List StunAttribute}
    (hattrs : ∀ a ∈ attrs, a.Given ∧ a.valueType = valueType a.type)
    (hmask : ∀ a ∈ attrs, a.Maskable transactionId)
    (hsize : (attrs.map StunAttribute.wireSize).sum < 2 ^ 16) :
    ∃ body, writeAttributes transactionId attrs = some body ∧
      body.length = (attrs.map StunAttribute.wireSize).sum ∧
      ∀ fuel, body.length ≤ fuel → readAttributes valueType transactionId fuel body = some (attrs, []) := by
  induction attrs with
  | nil =>
    refine ⟨[], rfl, rfl, fun fuel _ => ?_⟩
    rcases fuel with _ | fuel
    · rfl
    · rw [readAttributes, if_pos rfl]
  | cons a attrs ih =>
    rw [List.forall_mem_cons] at hattrs hmask
    rw [List.map_cons, List.sum_cons] at hsize
    obtain ⟨rest, hrest, hrestlen, hread⟩ := ih hattrs.2 hmask.2 (by omega)
    obtain ⟨body, a₀, hbody, hcreate, hbodylen, hreada⟩ :=
      hattrs.1.1.read_write (by have := a.size_le_wireSize; omega) hmask.1
    refine ⟨writeUInt16 a.type ++ writeUInt16 a.length ++ body ++ rest, ?_, ?_, fun fuel hfuel => ?_⟩
    · simp only [writeAttributes, hbody, hrest, Option.bind_eq_bind, Option.bind_some]
    · simp only [List.length_append, length_writeUInt16, List.map_cons, List.sum_cons]
      omega
    simp only [List.length_append, length_writeUInt16] at hfuel
    rcases fuel with _ | fuel
    · omega
    have hne : writeUInt16 a.type ++ writeUInt16 a.length ++ body ++ rest ≠ [] := by
      intro hnil
      have := congrArg List.length hnil
      simp only [List.length_append, length_writeUInt16, List.length_nil] at this
      omega
    rw [readAttributes, if_neg hne]
    simp only [List.append_assoc, readUInt16_write, Option.bind_eq_bind, Option.bind_some,
      ← hattrs.1.2, hcreate, hreada, hread fuel (by omega)]

theorem eq_writeUInt32_of_ofBytes {l : List UInt8} {val : UInt32} (hlength : l.length = 4)
    (h : UInt32.ofNat (BigEndian.ofBytes l) = val) : l = writeUInt32 val := by
  have hlt : BigEndian.ofBytes l < 256 ^ l.length := BigEndian.ofBytes_lt l
  rw [hlength] at hlt
  rw [← h, writeUInt32, UInt32.toNat_ofNat_of_lt' hlt, ← hlength, BigEndian.toBytes_ofBytes]

/-- The sixteen bytes behind the length tell the reader the transaction id. -/
theorem IdReadable.header (h : IdReadable m.transactionId) :
    ∃ cookie id, (if m.isLegacy then [] else writeUInt32 kStunMagicCookie) ++ m.transactionId =
        cookie ++ id ∧
      cookie.length = kStunMagicCookieLength ∧ id.length = kStunTransactionIdLength ∧
      (if UInt32.ofNat (BigEndian.ofBytes cookie) ≠ kStunMagicCookie then cookie ++ id else id) =
        m.transactionId := by
  rcases h with hlength | ⟨hlength, hcookie⟩
  · have hlegacy : ¬ m.isLegacy = true := by
      rw [isLegacy, decide_eq_true_iff, hlength]
      decide
    refine ⟨writeUInt32 kStunMagicCookie, m.transactionId, by rw [if_neg hlegacy],
      length_writeUInt32 _, hlength, ?_⟩
    rw [if_neg]
    decide
  have hlegacy : m.isLegacy = true := decide_eq_true hlength
  have htake : (m.transactionId.take kStunMagicCookieLength).length = 4 := by
    rw [List.length_take, hlength]
    rfl
  refine ⟨m.transactionId.take kStunMagicCookieLength,
    m.transactionId.drop kStunMagicCookieLength, ?_, htake, ?_, ?_⟩
  · rw [if_pos hlegacy, List.nil_append, List.take_append_drop]
  · rw [List.length_drop, hlength]
    rfl
  · rw [if_pos, List.take_append_drop]
    intro hval
    exact hcookie (eq_writeUInt32_of_ofBytes htake hval)

/-- A message is written, and read back from its bytes. -/
theorem read_of_write {m : StunMessage} (hbuilt : Built valueType m) (htype : m.type &&& 0x8000 = 0)
    (hid : IdReadable m.transactionId) (hmask : ∀ a ∈ m.attrs, a.Maskable m.transactionId)
    (hsize : m.attrsSize < 2 ^ 16) :
    ∃ bytes, m.write = some bytes ∧ read valueType bytes = some (m, []) := by
  have hlength := hbuilt.toNat_length hsize
  obtain ⟨body, hbody, hbodylen, hread⟩ := readAttributes_write hbuilt.attrs hmask hsize
  obtain ⟨cookie, id, heq, hcookie, hidlen, hreadid⟩ := hid.header
  have hbit : ¬ (m.type &&& 0x8000 ≠ 0) := not_not.mpr htype
  have hlen : ¬ m.length.toNat ≠ body.length := not_not.mpr (hlength.trans hbodylen.symm)
  refine ⟨writeUInt16 m.type ++ writeUInt16 m.length ++ (cookie ++ id) ++ body, ?_, ?_⟩
  · rw [write, hbody, ← heq]
    simp only [Option.bind_eq_bind, Option.bind_some, List.append_assoc]
  · rw [read]
    simp only [List.append_assoc, readUInt16_write, Option.bind_eq_bind, Option.bind_some,
      if_neg hbit, readBytes_append hcookie, readBytes_append hidlen]
    rw [if_neg hlen, hreadid, hread _ le_rfl]
    rfl

/-- An answer to a binding request, with attributes of four kinds. -/
def bindingAnswer : StunMessage :=
  ⟨0x0101, 56, List.replicate 12 7,
    [.ofXorAddress 0x0020 ⟨.ipv6 1 2 3 4, 1000⟩, .ofBytes 0x0006 [1, 2, 3, 4, 5],
      .ofErrorCode 0x0009 401 [6], .ofUInt32 0x0024 8]⟩

theorem built_bindingAnswer : Built iceAttributeValueType bindingAnswer := by
  have hid : Built iceAttributeValueType ⟨0x0101, 0, List.replicate 12 7, []⟩ :=
    Built.setTransactionID (.setType .new 0x0101) (if_pos (.inl rfl))
  have haddress := Built.addAttribute hid (.xorAddress 0x0020 ⟨.ipv6 1 2 3 4, 1000⟩ (by decide)) rfl
  have hbytes := Built.addAttribute haddress (.byteString 0x0006 [1, 2, 3, 4, 5]) rfl
  have herror := Built.addAttribute hbytes (.errorCode 0x0009 401 [6] (by decide)) rfl
  exact Built.addAttribute herror (.uint32 0x0024 8) rfl

theorem read_of_write_bindingAnswer :
    ∃ bytes, bindingAnswer.write = some bytes ∧
      read iceAttributeValueType bytes = some (bindingAnswer, []) := by
  refine read_of_write built_bindingAnswer rfl (.inl rfl) ?_ (by decide)
  simp only [bindingAnswer, List.forall_mem_cons]
  exact ⟨rfl, trivial, trivial, trivial, List.forall_mem_nil _⟩

end StunMessage

end Synciga
