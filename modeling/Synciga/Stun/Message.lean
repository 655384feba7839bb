import Synciga.Base.ByteBuffer

/-!
# `cricket::StunMessage`

A STUN message (`talk/p2p/base/stun.cc`) is a header and a list of attributes: a type, a length, and a value
that is filled up to a multiple of four bytes. Each type has one of seven kinds of values, and each kind a class
that writes and reads it. The kind of a type is a virtual function of the message, here `valueType`. Addresses
are kept as numbers whose bytes in network order are those in memory.

## Main definitions

* `StunMessage`, `StunAttribute` — messages and attributes
* `StunMessage.write`, `StunMessage.read` — and their bytes
-/

namespace Synciga

open ByteBuffer

/-! ### Constants -/

/-- The header. -/
def kStunHeaderSize : ℕ := 20

/-- What a message has in front of its transaction id. -/
def kStunMagicCookie : UInt32 := 0x2112A442

/-- In bytes. -/
def kStunMagicCookieLength : ℕ := 4

/-- In bytes. -/
def kStunTransactionIdLength : ℕ := 12

/-- In bytes, without a cookie. -/
def kStunLegacyTransactionIdLength : ℕ := 16

/-- `EMPTY_TRANSACTION_ID`: sixteen zeros, as characters. -/
def EMPTY_TRANSACTION_ID : List UInt8 := List.replicate 16 48

/-- The enumeration `StunAttributeValueType`. -/
inductive StunAttributeValueType
  | unknown
  | address
  | xorAddress
  | uint32
  | uint64
  | byteString
  | errorCode
  | uint16List
  deriving DecidableEq, Repr

variable (type : UInt16)

/-- `StunMessage::GetAttributeValueType`. -/
def getAttributeValueType : StunAttributeValueType :=
  if type = 0x0001 then .address -- MAPPED_ADDRESS
  else if type = 0x0006 then .byteString -- USERNAME
  else if type = 0x0008 then .byteString -- MESSAGE_INTEGRITY
  else if type = 0x0009 then .errorCode -- ERROR_CODE
  else if type = 0x000a then .uint16List -- UNKNOWN_ATTRIBUTES
  else if type = 0x0014 then .byteString -- REALM
  else if type = 0x0015 then .byteString -- NONCE
  else if type = 0x0020 then .xorAddress -- XOR_MAPPED_ADDRESS
  else if type = 0x8022 then .byteString -- SOFTWARE
  else if type = 0x8023 then .byteString -- ALTERNATE_SERVER
  else if type = 0x8028 then .uint32 -- FINGERPRINT
  else if type = 0xFF00 then .uint32 -- RETRANSMIT_COUNT
  else .unknown

/-- `RelayMessage::GetAttributeValueType`. -/
def relayAttributeValueType : StunAttributeValueType :=
  if type = 0x000d then .uint32 -- LIFETIME
  else if type = 0x000f then .byteString -- MAGIC_COOKIE
  else if type = 0x0010 then .uint32 -- BANDWIDTH
  else if type = 0x0011 then .address -- DESTINATION_ADDRESS
  else if type = 0x0012 then .address -- SOURCE_ADDRESS2
  else if type = 0x0013 then .byteString -- DATA
  else if type = 0x8001 then .uint32 -- OPTIONS
  else getAttributeValueType type

/-- `TurnMessage::GetAttributeValueType`. -/
def turnAttributeValueType : StunAttributeValueType :=
  if type = 0x000C then .uint32 -- CHANNEL_NUMBER
  else if type = 0x000d then .uint32 -- TURN_LIFETIME
  else if type = 0x0012 then .xorAddress -- XOR_PEER_ADDRESS
  else if type = 0x0013 then .byteString -- DATA
  else if type = 0x0016 then .xorAddress -- XOR_RELAYED_ADDRESS
  else if type = 0x0018 then .byteString -- EVEN_PORT
  else if type = 0x0019 then .uint32 -- REQUESTED_TRANSPORT
  else if type = 0x001A then .byteString -- DONT_FRAGMENT
  else if type = 0x0022 then .byteString -- RESERVATION_TOKEN
  else getAttributeValueType type

/-- `IceMessage::GetAttributeValueType`. -/
def iceAttributeValueType : StunAttributeValueType :=
  if type = 0x0024 then .uint32 -- PRIORITY
  else if type = 0x0025 then .byteString -- USE_CANDIDATE
  else if type = 0x8029 then .uint64 -- ICE_CONTROLLED
  else if type = 0x802A then .uint64 -- ICE_CONTROLLING
  else getAttributeValueType type

/-! ### Addresses -/

/-- `talk_base::IPAddress`. -/
inductive IPAddress
  | unspec
  | ipv4 (ip : UInt32)
  | ipv6 (w₀ w₁ w₂ w₃ : UInt32)
  deriving DecidableEq, Repr

/-- `talk_base::SocketAddress`, the part that is sent. -/
structure SocketAddress where
  ip : IPAddress
  port : UInt16
  deriving DecidableEq, Repr

/-- A family. -/
def STUN_ADDRESS_IPV4 : UInt8 := 1

/-- A family. -/
def STUN_ADDRESS_IPV6 : UInt8 := 2

/-- The value of an address. -/
def SIZE_IP4 : UInt16 := 8

/-- The value of an address. -/
def SIZE_IP6 : UInt16 := 20

/-- `EnsureAddressLength`: the length of the value that holds the address. -/
def addressLength : IPAddress → UInt16
  | .unspec => 0
  | .ipv4 _ => SIZE_IP4
  | .ipv6 .. => SIZE_IP6

/-- The words of a transaction id, as `GetXoredIP` copies them. -/
def idWord (transactionId : List UInt8) (i : ℕ) : UInt32 :=
  UInt32.ofNat (BigEndian.ofBytes ((transactionId.drop (4 * i)).take 4))

/-- `GetXoredIP`, with the transaction id of the owner. -/
def getXoredIP (transactionId : List UInt8) : IPAddress → IPAddress
  | .unspec => .unspec
  | .ipv4 ip => .ipv4 (ip ^^^ kStunMagicCookie)
  | .ipv6 w₀ w₁ w₂ w₃ =>
    if transactionId.length = kStunTransactionIdLength then
      .ipv6 (w₀ ^^^ kStunMagicCookie) (w₁ ^^^ idWord transactionId 0) (w₂ ^^^ idWord transactionId 1)
        (w₃ ^^^ idWord transactionId 2)
    else .unspec

/-- `port ^ (kStunMagicCookie >> 16)`. -/
def xoredPort (port : UInt16) : UInt16 := port ^^^ (kStunMagicCookie >>> 16).toUInt16

/-- The bytes of an address attribute; `none` when the family is unknown. -/
def writeAddress (ip : IPAddress) (port : UInt16) : Option (List UInt8) :=
  match ip with
  | .unspec => none
  | .ipv4 ip =>
    some (writeUInt8 0 ++ writeUInt8 STUN_ADDRESS_IPV4 ++ writeUInt16 port ++ writeUInt32 ip)
  | .ipv6 w₀ w₁ w₂ w₃ =>
    some (writeUInt8 0 ++ writeUInt8 STUN_ADDRESS_IPV6 ++ writeUInt16 port ++
      (writeUInt32 w₀ ++ writeUInt32 w₁ ++ writeUInt32 w₂ ++ writeUInt32 w₃))

/-- `StunAddressAttribute::Read`, for an attribute of the given length. -/
def readAddress (length : UInt16) (buf : List UInt8) : Option (SocketAddress × List UInt8) := do
  let (_, buf) ← readUInt8 buf
  let (family, buf) ← readUInt8 buf
  let (port, buf) ← readUInt16 buf
  if family = STUN_ADDRESS_IPV4 then
    if length ≠ SIZE_IP4 then none
    else
      let (ip, buf) ← readUInt32 buf
      some (⟨.ipv4 ip, port⟩, buf)
  else if family = STUN_ADDRESS_IPV6 then
    if length ≠ SIZE_IP6 then none
    else
      let (w₀, buf) ← readUInt32 buf
      let (w₁, buf) ← readUInt32 buf
      let (w₂, buf) ← readUInt32 buf
      let (w₃, buf) ← readUInt32 buf
      some (⟨.ipv6 w₀ w₁ w₂ w₃, port⟩, buf)
  else none

/-! ### Attributes -/

/-- What the classes of attributes hold. -/
inductive StunValue
  | address (address : SocketAddress)
  | xorAddress (address : SocketAddress)
  | uint32 (bits : UInt32)
  | uint64 (bits : UInt64)
  | byteString (bytes : List UInt8)
  | errorCode (eclass number : UInt8) (reason : List UInt8)
  | uint16List (attrTypes : List UInt16)
  deriving DecidableEq, Repr

/-- An attribute of any class. -/
structure StunAttribute where
  type : UInt16
  length : UInt16
  value : StunValue
  deriving DecidableEq, Repr

namespace StunAttribute

/-- The kind of its value. -/
def valueType (a : StunAttribute) : StunAttributeValueType :=
  match a.value with
  | .address _ => .address
  | .xorAddress _ => .xorAddress
  | .uint32 _ => .uint32
  | .uint64 _ => .uint64
  | .byteString _ => .byteString
  | .errorCode .. => .errorCode
  | .uint16List _ => .uint16List

/-- `Create`: the attribute that a value is read into. The classes of fixed size take no length. -/
def create (valueType : StunAttributeValueType) (type length : UInt16) : Option StunAttribute :=
  match valueType with
  | .unknown => none
  | .address => some ⟨type, length, .address ⟨.unspec, 0⟩⟩
  | .xorAddress => some ⟨type, length, .xorAddress ⟨.unspec, 0⟩⟩
  | .uint32 => some ⟨type, 4, .uint32 0⟩
  | .uint64 => some ⟨type, 8, .uint64 0⟩
  | .byteString => some ⟨type, length, .byteString []⟩
  | .errorCode => some ⟨type, length, .errorCode 0 0 []⟩
  | .uint16List => some ⟨type, length, .uint16List []⟩

variable (type : UInt16)

/-- An address attribute after `SetAddress`. -/
def ofAddress (address : SocketAddress) : StunAttribute :=
  ⟨type, addressLength address.ip, .address address⟩

/-- An xor-address attribute after `SetAddress`. -/
def ofXorAddress (address : SocketAddress) : StunAttribute :=
  ⟨type, addressLength address.ip, .xorAddress address⟩

/-- `StunUInt32Attribute(type, value)`. -/
def ofUInt32 (bits : UInt32) : StunAttribute := ⟨type, 4, .uint32 bits⟩

/-- `StunUInt64Attribute(type, value)`. -/
def ofUInt64 (bits : UInt64) : StunAttribute := ⟨type, 8, .uint64 bits⟩

/-- A byte-string attribute after `CopyBytes`. -/
def ofBytes (bytes : List UInt8) : StunAttribute :=
  ⟨type, UInt16.ofNat bytes.length, .byteString bytes⟩

/-- `StunErrorCodeAttribute(type, code, reason)`. -/
def ofErrorCode (code : ℕ) (reason : List UInt8) : StunAttribute :=
  ⟨type, 4 + UInt16.ofNat reason.length,
    .errorCode (UInt8.ofNat (code / 100)) (UInt8.ofNat (code % 100)) reason⟩

/-- A list attribute after an `AddType` for each entry. -/
def ofTypes (attrTypes : List UInt16) : StunAttribute :=
  ⟨type, UInt16.ofNat (attrTypes.length * 2), .uint16List attrTypes⟩

variable (length : UInt16)

/-- The number of bytes of padding behind a value of the given length. -/
def padding : ℕ :=
  if 0 < length.toNat % 4 then 4 - length.toNat % 4 else 0

/-- `ConsumePadding`: what cannot be consumed is ignored. -/
def consumePadding (buf : List UInt8) : List UInt8 :=
  if 0 < length.toNat % 4 then (consume (4 - length.toNat % 4) buf).getD buf else buf

/-- `WritePadding`. -/
def writePadding : List UInt8 := List.replicate (padding length) 0

/-- The loop of `StunUInt16ListAttribute::Read`. -/
def readTypes : ℕ → List UInt8 → Option (List UInt16 × List UInt8)
  | 0, buf => some ([], buf)
  | n + 1, buf => do
    let (attr, buf) ← readUInt16 buf
    let (attrTypes, buf) ← readTypes n buf
    some (attr :: attrTypes, buf)

/-- `Read` of the class of the attribute, whose owner has the given transaction id. -/
def read (transactionId : List UInt8) (a : StunAttribute) (buf : List UInt8) :
    Option (StunAttribute × List UInt8) :=
  match a.value with
  | .address _ => do
    let (address, buf) ← readAddress a.length buf
    some (ofAddress a.type address, buf)
  | .xorAddress _ => do
    let (address, buf) ← readAddress a.length buf
    some (ofXorAddress a.type
      ⟨getXoredIP transactionId address.ip, xoredPort address.port⟩, buf)
  | .uint32 _ =>
    if a.length ≠ 4 then none
    else do
      let (bits, buf) ← readUInt32 buf
      some ({ a with value := .uint32 bits }, buf)
  | .uint64 _ =>
    if a.length ≠ 8 then none
    else do
      let (bits, buf) ← readUInt64 buf
      some ({ a with value := .uint64 bits }, buf)
  | .byteString _ => do
    let (bytes, buf) ← readBytes a.length.toNat buf
    some ({ a with value := .byteString bytes }, consumePadding a.length buf)
  | .errorCode _ _ reason =>
    if a.length < 4 then none
    else do
      let (val, buf) ← readUInt32 buf
      let (more, buf) ← readBytes (a.length.toNat - 4) buf
      let value : StunValue :=
        .errorCode ((val >>> 8) &&& 0x7).toUInt8 (val &&& 0xff).toUInt8 (reason ++ more)
      some ({ a with value := value }, consumePadding a.length buf)
  | .uint16List attrTypes =>
    if a.length.toNat % 2 ≠ 0 then none
    else do
      let (more, buf) ← readTypes (a.length.toNat / 2) buf
      some ({ a with value := .uint16List (attrTypes ++ more) }, consumePadding a.length buf)

/-- `Write` of the class of the attribute. -/
def write (transactionId : List UInt8) (a : StunAttribute) : Option (List UInt8) :=
  match a.value with
  | .address address => writeAddress address.ip address.port
  | .xorAddress address => writeAddress (getXoredIP transactionId address.ip) (xoredPort address.port)
  | .uint32 bits => some (writeUInt32 bits)
  | .uint64 bits => some (writeUInt64 bits)
  | .byteString bytes => some (bytes.take a.length.toNat ++ writePadding a.length)
  | .errorCode eclass number reason =>
    some (writeUInt32 (eclass.toUInt32 <<< 8 ||| number.toUInt32) ++ reason ++ writePadding a.length)
  | .uint16List attrTypes => some (attrTypes.flatMap writeUInt16 ++ writePadding a.length)

end StunAttribute

/-! ### Messages -/

/-- The class `StunMessage`. -/
structure StunMessage where
  type : UInt16
  length : UInt16
  transactionId : List UInt8
  attrs : List StunAttribute
  deriving DecidableEq, Repr

namespace StunMessage

/-- The constructor. -/
def new : StunMessage := ⟨0, 0, EMPTY_TRANSACTION_ID, []⟩

variable (m : StunMessage)

/-- `StunMessage::SetType`. -/
def setType (type : UInt16) : StunMessage := { m with type := type }

/-- `SetTransactionID`; `none` when the length is not valid. -/
def setTransactionID (str : List UInt8) : Option StunMessage :=
  if str.length = kStunTransactionIdLength ∨ str.length = kStunLegacyTransactionIdLength then
    some { m with transactionId := str }
  else none

/-- `IsLegacy`. -/
def isLegacy : Bool := m.transactionId.length = kStunLegacyTransactionIdLength

variable (valueType : UInt16 → StunAttributeValueType)

/-- `AddAttribute`; `none` when the attribute is not valid for the message. -/
def addAttribute (attr : StunAttribute) : Option StunMessage :=
  if attr.valueType ≠ valueType attr.type then none
  else
    let attrLength := attr.length.toNat
    let attrLength := if attrLength % 4 ≠ 0 then attrLength + (4 - attrLength % 4) else attrLength
    some { m with
      attrs := m.attrs ++ [attr]
      length := m.length + UInt16.ofNat (attrLength + 4) }

/-- The loop of `Write`. -/
def writeAttributes (transactionId : List UInt8) : List StunAttribute → Option (List UInt8)
  | [] => some []
  | attr :: attrs => do
    let body ← attr.write transactionId
    let rest ← writeAttributes transactionId attrs
    some (writeUInt16 attr.type ++ writeUInt16 attr.length ++ body ++ rest)

/-- `Write`: the bytes that are written. -/
def write : Option (List UInt8) := do
  let body ← writeAttributes m.transactionId m.attrs
  some (writeUInt16 m.type ++ writeUInt16 m.length ++
    (if m.isLegacy then [] else writeUInt32 kStunMagicCookie) ++ m.transactionId ++ body)

/-- The loop of `Read`. The length of the message is that of the buffer, so the loop ends when
nothing is left; every round reads a header, which bounds the rounds. -/
def readAttributes (transactionId : List UInt8) :
    ℕ → List UInt8 → Option (List StunAttribute × List UInt8)
  | 0, buf => some ([], buf)
  | fuel + 1, buf =>
    if buf = [] then some ([], [])
    else do
      let (attrType, buf) ← readUInt16 buf
      let (attrLength, buf) ← readUInt16 buf
      match StunAttribute.create (valueType attrType) attrType attrLength with
      | none =>
        -- Skip any unknown or malformed attributes.
        let attrLength :=
          if attrLength % 4 ≠ 0 then attrLength + (4 - attrLength % 4) else attrLength
        let buf ← consume attrLength.toNat buf
        readAttributes transactionId fuel buf
      | some attr =>
        let (attr, buf) ← attr.read transactionId buf
        let (attrs, buf) ← readAttributes transactionId fuel buf
        some (attr :: attrs, buf)

/-- `Read`: the message, and the bytes that are left. -/
def read (buf : List UInt8) : Option (StunMessage × List UInt8) := do
  let (type, buf) ← readUInt16 buf
  if type &&& 0x8000 ≠ 0 then none
  else
    let (length, buf) ← readUInt16 buf
    let (magicCookie, buf) ← readBytes kStunMagicCookieLength buf
    let (transactionId, buf) ← readBytes kStunTransactionIdLength buf
    -- If the magic cookie is invalid, the peer implements RFC3489 instead of RFC5389.
    let transactionId :=
      if UInt32.ofNat (BigEndian.ofBytes magicCookie) ≠ kStunMagicCookie then
        magicCookie ++ transactionId
      else transactionId
    if length.toNat ≠ buf.length then none
    else
      let (attrs, buf) ← readAttributes valueType transactionId buf.length buf
      some (⟨type, length, transactionId, attrs⟩, buf)

end StunMessage

end Synciga
