import Synciga.P2p.RelayServer
import Synciga.Stun.Framing
import Synciga.Stun.RequestManager

/-!
# Payload that goes through the relay

A client (`talk/p2p/base/relayport.cc`) sends what is for outside in a STUN message, until the server has locked
its connection to the address; then the payload goes as it is, both ways. A payload is told from a message by
the magic cookie behind the first twenty-four bytes: one that has it there is never forwarded itself.

## Main definitions

* `RelayPath` — a client and the server

## Main results

* `transparent_iff` — which payloads get through
-/

namespace Synciga

open ByteBuffer

/-! ### The client -/

/-- The class `RelayConnection`. -/
structure RelayConnection where
  socket : ℕ
  requests : StunRequestManager

/-- `RelayEntry`, with the username of its port. -/
structure RelayEntry where
  username : List UInt8
  extAddr : SocketAddress
  locked : Bool
  currentConnection : Option RelayConnection

/-- The data of a data indication, with the address that it is from. -/
def StunMessage.indicated (msg : StunMessage) : Option (List UInt8 × SocketAddress) :=
  match msg.getAddress 0x0012 with
  | none => none
  | some address =>
    match address.ip with
    | .ipv4 _ => (msg.getByteString 0x0013).map fun data => (data, address)
    | _ => none

namespace RelayEntry

/-- The message of `SendTo`. It asks for the lock if the address is the one of the entry. -/
def wrap (data : List UInt8) (addr : SocketAddress) (e : RelayEntry) : StunMessage :=
  .relay 0x0004 EMPTY_TRANSACTION_ID
    ([.ofBytes 0x000f turnMagicCookieValue, .ofBytes 0x0006 e.username, .ofAddress 0x0011 addr] ++
      (if e.extAddr = addr then [.ofUInt32 0x8001 0x1] else []) ++
      [.ofBytes 0x0013 (data.take (UInt16.ofNat data.length).toNat)])

/-- `SendTo`: what goes to the server, if there is a connection. -/
def sendTo (data : List UInt8) (addr : SocketAddress) (e : RelayEntry) : Option RelayPayload :=
  e.currentConnection.map fun _ =>
    if e.locked ∧ e.extAddr = addr then .raw data else .stun (e.wrap data addr)

/-- The part of `OnReadPacket` behind the parsing of a message, with the requests that an answer
leads to. -/
def onStunMessage (connection : RelayConnection) (msg : StunMessage) (sends : List NewRequest)
    (e : RelayEntry) : Option (RelayEntry × Option (List UInt8 × SocketAddress)) :=
  (connection.requests.checkResponse msg sends).map fun answer =>
    let e := { e with currentConnection := some { connection with requests := answer.2 } }
    if answer.1 then (e, none)
    else if msg.type = 0x0104 then
      ({ e with locked := e.locked || (msg.getUInt32 0x8001).any (· &&& 0x1 ≠ 0) }, none)
    else if msg.type ≠ 0x0115 then (e, none)
    else (e, msg.indicated)

/-- `OnReadPacket`, with what the port is told: data and the address that it is from. -/
def onReadPacket (socket : ℕ) (data : List UInt8) (sends : List NewRequest) (e : RelayEntry) :
    Option (RelayEntry × Option (List UInt8 × SocketAddress)) :=
  match e.currentConnection with
  | none => some (e, none)
  | some connection =>
    if socket ≠ connection.socket then some (e, none)
    else if RelayServer.hasMagicCookie data = false then
      some (e, if e.locked then some (data, e.extAddr) else none)
    else match StunMessage.read relayAttributeValueType data with
      | none => some (e, none)
      | some (msg, _) => e.onStunMessage connection msg sends

end RelayEntry

/-- The way of a payload: the client as the server sees it, the sockets of the server to both sides,
the address outside, and the connections. -/
structure RelayPath where
  socket : ℕ
  client : SocketAddress
  inside : SocketAddress
  outside : SocketAddress
  addr : SocketAddress
  username : List UInt8
  internal : ℕ
  external : ℕ

namespace RelayPath

/-- The entry and the binding are locked to each other for the address, and the connection of the
server to the address is locked too. -/
structure Locked (path : RelayPath) (e : RelayEntry) (s : RelayServer) : Prop where
  entry : e.locked = true ∧ e.extAddr = path.addr
  connection : e.currentConnection.map RelayConnection.socket = some path.socket
  internal : s.objects[path.internal]? = some ⟨path.username, ⟨path.client, path.inside⟩, true, path.addr⟩
  external : ∃ dest, s.objects[path.external]? = some ⟨path.username, ⟨path.addr, path.outside⟩, true, dest⟩
  internal_index : s.connections ⟨path.client, path.inside⟩ = some path.internal
  external_index : s.connections ⟨path.addr, path.outside⟩ = some path.external
  internal_binding : s.getInternalConnection path.username path.addr = some path.internal
  external_binding : s.getExternalConnection path.username path.addr = some path.external

variable (path : RelayPath)

/-- What the entry sends for the address, the server sends there as it is. -/
def Outward (e : RelayEntry) (s : RelayServer) (payload : List UInt8) : Prop :=
  ∃ packet, e.sendTo payload path.addr = some (.raw packet) ∧ ∀ choice now,
    (s.onInternalPacket path.inside path.client packet choice now).sent =
      s.sent ++ [(path.outside, path.addr, .raw payload)]

/-- What the server gets from the address, the port of the entry gets as it is. -/
def Inward (e : RelayEntry) (s : RelayServer) (payload : List UInt8) : Prop :=
  ∃ packet, (∀ now, (s.onExternalPacket path.outside path.addr payload now).sent =
      s.sent ++ [(path.inside, path.client, .raw packet)]) ∧
    ∀ sends, (e.onReadPacket path.socket packet sends).map Prod.snd = some (some (payload, path.addr))

/-- A payload gets through both ways. -/
def Transparent (e : RelayEntry) (s : RelayServer) (payload : List UInt8) : Prop :=
  path.Outward e s payload ∧ path.Inward e s payload

end RelayPath

/-! ### The bytes in a message -/

theorem ByteBuffer.length_of_consume {size : ℕ} {buf rest : List UInt8}
    (h : consume size buf = some rest) : rest.length ≤ buf.length := by
  rw [consume] at h
  split at h
  · cases h
  · cases h
    exact (List.length_drop ..).trans_le (Nat.sub_le _ _)

theorem StunAttribute.length_consumePadding_le (length : UInt16) (buf : List UInt8) :
    (consumePadding length buf).length ≤ buf.length := by
  rw [consumePadding]
  split
  · cases hconsume : consume (4 - length.toNat % 4) buf with
    | none => exact Nat.le_refl _
    | some rest => exact ByteBuffer.length_of_consume hconsume
  · exact Nat.le_refl _

theorem StunAttribute.length_of_read {transactionId buf rest : List UInt8} {a a' : StunAttribute}
    (h : a.read transactionId buf = some (a', rest)) :
    rest.length ≤ buf.length ∧ ∀ bytes, a'.value = .byteString bytes → bytes.length ≤ buf.length := by
  obtain ⟨value, behind, rfl, hvalue, hrest, -⟩ := padded_read transactionId a buf a' rest h
  refine ⟨?_, fun bytes hbytes => ?_⟩
  · subst hrest
    have hle := length_consumePadding_le a.length behind
    rw [List.length_append]
    omega
  rw [StunAttribute.read] at h
  split at h
  · obtain ⟨_, _, h⟩ := Option.bind_eq_some_iff.mp h
    cases h
    cases hbytes
  · obtain ⟨_, _, h⟩ := Option.bind_eq_some_iff.mp h
    cases h
    cases hbytes
  · split at h
    · cases h
    · obtain ⟨_, _, h⟩ := Option.bind_eq_some_iff.mp h
      cases h
      cases hbytes
  · split at h
    · cases h
    · obtain ⟨_, _, h⟩ := Option.bind_eq_some_iff.mp h
      cases h
      cases hbytes
  · obtain ⟨⟨read, left⟩, hread, h⟩ := Option.bind_eq_some_iff.mp h
    cases h
    cases hbytes
    obtain ⟨hbuf, -⟩ := readBytes_eq_some hread
    rw [hbuf, List.length_append]
    exact Nat.le_add_right _ _
  · split at h
    · cases h
    · obtain ⟨_, _, h⟩ := Option.bind_eq_some_iff.mp h
      obtain ⟨_, _, h⟩ := Option.bind_eq_some_iff.mp h
      cases h
      cases hbytes
  · split at h
    · cases h
    · obtain ⟨_, _, h⟩ := Option.bind_eq_some_iff.mp h
      cases h
      cases hbytes

namespace StunMessage

variable {valueType : UInt16 → StunAttributeValueType}

theorem length_of_readAttributes {transactionId : List UInt8} {fuel : ℕ} {buf rest : List UInt8}
    {attrs : List StunAttribute}
    (h : readAttributes valueType transactionId fuel buf = some (attrs, rest)) :
    ∀ a ∈ attrs, ∀ bytes, a.value = .byteString bytes → bytes.length ≤ buf.length := by
  induction fuel generalizing buf attrs with
  | zero =>
    cases h
    exact List.forall_mem_nil _
  | succ fuel ih =>
    by_cases hne : buf = []
    · rw [readAttributes, if_pos hne] at h
      cases h
      exact List.forall_mem_nil _
    obtain ⟨type, length, behind, tail, rfl, hround⟩ := readAttributes_succ hne h
    have hbehind : behind.length ≤ (writeUInt16 type ++ (writeUInt16 length ++ behind)).length := by
      rw [List.length_append, List.length_append]
      omega
    rcases hround with ⟨-, hconsume, hnext⟩ | ⟨a₀, a, attrs', -, hread, rfl, hnext⟩
    · have htail : tail.length ≤ behind.length := ByteBuffer.length_of_consume hconsume
      exact fun a ha bytes hbytes => (ih hnext a ha bytes hbytes).trans (htail.trans hbehind)
    · obtain ⟨htail, hown⟩ := StunAttribute.length_of_read hread
      refine List.forall_mem_cons.mpr ⟨fun bytes hbytes => (hown bytes hbytes).trans hbehind, ?_⟩
      exact fun a ha bytes hbytes => (ih hnext a ha bytes hbytes).trans (htail.trans hbehind)

theorem length_getByteString_lt {buf rest bytes : List UInt8} {m : StunMessage} {type : UInt16}
    (hread : read valueType buf = some (m, rest)) (hlong : 20 < buf.length)
    (hbytes : m.getByteString type = some bytes) : bytes.length < buf.length := by
  have hattrs := length_of_readAttributes (read_eq_some hread).2
  rw [getByteString] at hbytes
  split at hbytes
  · rename_i hattr
    cases hbytes
    have hle := hattrs _ (List.mem_of_find?_eq_some hattr) bytes rfl
    rw [List.length_drop] at hle
    omega
  · cases hbytes

end StunMessage

/-! ### The server -/

namespace RelayServer

variable {payload : List UInt8} {s t u : RelayServer}

/-- What is sent besides is not these bytes as they are. -/
def Withholds (payload : List UInt8) (s t : RelayServer) : Prop :=
  ∃ more, t.sent = s.sent ++ more ∧ ∀ packet ∈ more, packet.2.2 ≠ .raw payload

theorem Withholds.of_sent_eq (h : t.sent = s.sent) : Withholds payload s t :=
  ⟨[], h.trans (List.append_nil _).symm, List.forall_mem_nil _⟩

theorem Withholds.trans (h : Withholds payload s t) (h' : Withholds payload t u) :
    Withholds payload s u := by
  obtain ⟨more, hsent, hmore⟩ := h
  obtain ⟨more', hsent', hmore'⟩ := h'
  refine ⟨more ++ more', ?_, List.forall_mem_append.mpr ⟨hmore, hmore'⟩⟩
  rw [hsent', hsent, List.append_assoc]

theorem withholds_transmit {p : RelayPayload} (hp : p ≠ .raw payload) (ap : SocketAddressPair)
    (s : RelayServer) : Withholds payload s (s.transmit ap p) :=
  ⟨[(ap.destination, ap.source, p)], rfl, List.forall_mem_singleton.mpr hp⟩

theorem withholds_send {p : RelayPayload} (hp : p ≠ .raw payload) (conn : ℕ) (now : UInt32)
    (s : RelayServer) : Withholds payload s (s.send conn p now) := by
  rw [send]
  split
  · exact .of_sent_eq rfl
  · exact withholds_transmit hp _ (s.noteUsed _ now)

theorem stun_ne_raw (msg : StunMessage) : RelayPayload.stun msg ≠ .raw payload := by
  intro h
  cases h

theorem withholds_sendStunError (conn : ℕ) (request : StunMessage) (code : ℕ) (desc : String)
    (s : RelayServer) : Withholds payload s (s.sendStunError conn request code desc) := by
  rw [sendStunError]
  split
  · exact .of_sent_eq rfl
  · exact withholds_transmit (stun_ne_raw _) _ s

theorem withholds_answerAllocate (conn : ℕ) (request : StunMessage) (choice : ℕ) (now : UInt32)
    (s : RelayServer) : Withholds payload s (s.answerAllocate conn request choice now) :=
  withholds_send (stun_ne_raw _) conn now s

theorem withholds_forwardTo {data : List UInt8} (hdata : data ≠ payload) (conn ext : ℕ)
    (request : StunMessage) (addr : SocketAddress) (now : UInt32) (s : RelayServer) :
    Withholds payload s (s.forwardTo conn ext request addr data now) := by
  have hraw : RelayPayload.raw data ≠ .raw payload := fun h => hdata (RelayPayload.raw.inj h)
  set t := if s.objects[ext]?.any (·.locked) then s.send ext (.raw data) now else s with ht
  have hsent : Withholds payload s t := by
    rw [ht]
    split
    · exact withholds_send hraw ext now s
    · exact .of_sent_eq rfl
  rw [forwardTo, ← ht]
  split
  · exact hsent
  split
  · exact hsent
  · have hlocked : Withholds payload t
        ((t.withConnection conn fun c => { c with defaultDest := addr }).lock conn) :=
      .of_sent_eq rfl
    exact (hsent.trans hlocked).trans (withholds_send (stun_ne_raw _) conn now _)

theorem getByteString_of_sendTarget {request : StunMessage} {addr : SocketAddress} {data : List UInt8}
    (h : sendTarget request = some (addr, data)) : request.getByteString 0x0013 = some data := by
  rw [sendTarget] at h
  split at h
  · rename_i hdata
    cases h
    exact hdata
  · cases h

theorem withholds_handleStunSend {request : StunMessage}
    (hdata : ∀ data, request.getByteString 0x0013 = some data → data ≠ payload) (conn : ℕ)
    (username : List UInt8) (now : UInt32) (s : RelayServer) :
    Withholds payload s (s.handleStunSend conn username request now) := by
  rw [handleStunSend]
  cases htarget : sendTarget request with
  | none => exact withholds_sendStunError conn request 400 _ s
  | some target =>
    obtain ⟨addr, data⟩ := target
    have hne : data ≠ payload := hdata data (getByteString_of_sendTarget htarget)
    dsimp only
    cases s.getExternalConnection username addr with
    | some ext => exact withholds_forwardTo hne conn ext request addr now s
    | none =>
      have hopened : Withholds payload s (s.openExternal username (s.externalPair addr) now).1 :=
        .of_sent_eq rfl
      exact hopened.trans (withholds_forwardTo hne conn _ request addr now _)

theorem length_of_hasMagicCookie (h : hasMagicCookie payload = true) : 28 ≤ payload.length := by
  rw [hasMagicCookie, Bool.and_eq_true, decide_eq_true_eq] at h
  exact h.1

theorem withholds_handleConnectionStun (hcookie : hasMagicCookie payload = true) (conn : ℕ)
    (c : RelayServerConnection) (choice : ℕ) (now : UInt32) (s : RelayServer) :
    Withholds payload s (s.handleConnectionStun conn c payload choice now) := by
  have hlength := length_of_hasMagicCookie hcookie
  rw [handleConnectionStun, handleStun]
  cases hread : StunMessage.read relayAttributeValueType payload with
  | none => exact .of_sent_eq rfl
  | some result =>
    obtain ⟨request, rest⟩ := result
    -- what the message holds is shorter than the message
    have hdata : ∀ data, request.getByteString 0x0013 = some data → data ≠ payload := by
      intro data hbytes heq
      have hlt := StunMessage.length_getByteString_lt hread (by omega) hbytes
      rw [heq] at hlt
      exact Nat.lt_irrefl _ hlt
    dsimp only
    cases request.getByteString 0x0006 with
    | none => exact withholds_transmit (stun_ne_raw _) c.addrPair s
    | some username =>
      dsimp only
      split
      · exact withholds_sendStunError conn request 430 _ s
      · split
        · exact withholds_handleStunSend hdata conn c.binding now s
        · split
          · exact withholds_answerAllocate conn request choice now s
          · exact withholds_sendStunError conn request 600 _ s

end RelayServer

/-! ### What the port is told -/

namespace RelayEntry

variable {e e' : RelayEntry} {bytes data : List UInt8} {addr : SocketAddress} {sends : List NewRequest}

theorem getByteString_of_onStunMessage {connection : RelayConnection} {msg : StunMessage}
    (h : e.onStunMessage connection msg sends = some (e', some (data, addr))) :
    msg.getByteString 0x0013 = some data := by
  obtain ⟨answer, -, hanswer⟩ := Option.map_eq_some_iff.mp h
  split at hanswer
  · cases hanswer
  split at hanswer
  · cases hanswer
  split at hanswer
  · cases hanswer
  have hindicated : msg.indicated = some (data, addr) := congrArg Prod.snd hanswer
  rw [StunMessage.indicated] at hindicated
  split at hindicated
  · cases hindicated
  · split at hindicated
    · obtain ⟨found, hfound, heq⟩ := Option.map_eq_some_iff.mp hindicated
      cases heq
      exact hfound
    · cases hindicated

theorem length_of_onReadPacket {socket : ℕ} (hcookie : RelayServer.hasMagicCookie bytes = true)
    (h : e.onReadPacket socket bytes sends = some (e', some (data, addr))) :
    data.length < bytes.length := by
  have hlength := RelayServer.length_of_hasMagicCookie hcookie
  rw [onReadPacket] at h
  split at h
  · cases h
  split at h
  · cases h
  rw [hcookie, if_neg Bool.noConfusion] at h
  cases hread : StunMessage.read relayAttributeValueType bytes with
  | none =>
    rw [hread] at h
    cases h
  | some result =>
    rw [hread] at h
    exact StunMessage.length_getByteString_lt hread (by omega) (getByteString_of_onStunMessage h)

end RelayEntry

/-! ### Payloads -/

namespace RelayPath

variable {path : RelayPath} {e : RelayEntry} {s : RelayServer} {payload : List UInt8}

theorem Locked.sendTo (h : path.Locked e s) (payload : List UInt8) :
    e.sendTo payload path.addr = some (.raw payload) := by
  obtain ⟨connection, hconnection, -⟩ := Option.map_eq_some_iff.mp h.connection
  rw [RelayEntry.sendTo, hconnection, Option.map_some, if_pos h.entry]

theorem Locked.onInternalPacket (h : path.Locked e s) (payload : List UInt8) (choice : ℕ) (now : UInt32) :
    s.onInternalPacket path.inside path.client payload choice now =
      if RelayServer.hasMagicCookie payload = true then
        s.handleConnectionStun path.internal
          ⟨path.username, ⟨path.client, path.inside⟩, true, path.addr⟩ payload choice now
      else s.send path.external (.raw payload) now := by
  obtain ⟨dest, hexternal⟩ := h.external
  have hraw : s.forwardRaw ⟨path.username, ⟨path.client, path.inside⟩, true, path.addr⟩ payload now =
      s.send path.external (.raw payload) now := by
    rw [RelayServer.forwardRaw, if_neg Bool.noConfusion, h.external_binding]
    dsimp only
    rw [hexternal, Option.any_some, if_pos rfl]
  rw [RelayServer.onInternalPacket, h.internal_index]
  dsimp only
  rw [h.internal]
  dsimp only
  rw [hraw]

theorem Locked.sent_send (h : path.Locked e s) (payload : List UInt8) (now : UInt32) :
    (s.send path.external (.raw payload) now).sent =
      s.sent ++ [(path.outside, path.addr, .raw payload)] := by
  obtain ⟨dest, hexternal⟩ := h.external
  rw [RelayServer.send, hexternal]
  rfl

theorem outward_iff (h : path.Locked e s) :
    path.Outward e s payload ↔ RelayServer.hasMagicCookie payload = false := by
  constructor
  · rintro ⟨packet, hpacket, hsent⟩
    rw [h.sendTo] at hpacket
    cases hpacket
    by_contra hplain
    have hcookie : RelayServer.hasMagicCookie payload = true := Bool.not_eq_false _ ▸ hplain
    have hforwarded := hsent 0 0
    rw [h.onInternalPacket, if_pos hcookie] at hforwarded
    obtain ⟨more, hmore, hraw⟩ := RelayServer.withholds_handleConnectionStun hcookie path.internal
      ⟨path.username, ⟨path.client, path.inside⟩, true, path.addr⟩ 0 0 s
    rw [hforwarded] at hmore
    have hsingle := List.append_cancel_left hmore
    exact hraw (path.outside, path.addr, .raw payload) (hsingle ▸ List.mem_singleton_self _) rfl
  intro hplain
  refine ⟨payload, h.sendTo payload, fun choice now => ?_⟩
  have hcookie : ¬ RelayServer.hasMagicCookie payload = true := by
    rw [hplain]
    exact Bool.noConfusion
  rw [h.onInternalPacket, if_neg hcookie]
  exact h.sent_send payload now

theorem Locked.sent_onExternalPacket (h : path.Locked e s) (payload : List UInt8) (now : UInt32) :
    (s.onExternalPacket path.outside path.addr payload now).sent =
      s.sent ++ [(path.inside, path.client, .raw payload)] := by
  obtain ⟨dest, hexternal⟩ := h.external
  rw [RelayServer.onExternalPacket, h.external_index]
  dsimp only
  rw [hexternal]
  dsimp only
  rw [RelayServer.deliver, h.internal_binding]
  dsimp only
  rw [RelayServer.sendFrom, h.internal]
  dsimp only
  rw [if_pos ⟨rfl, rfl⟩, RelayServer.send, h.internal]
  rfl

theorem Locked.onReadPacket (h : path.Locked e s) (hplain : RelayServer.hasMagicCookie payload = false)
    (sends : List NewRequest) :
    e.onReadPacket path.socket payload sends = some (e, some (payload, path.addr)) := by
  obtain ⟨connection, hconnection, hsocket⟩ := Option.map_eq_some_iff.mp h.connection
  rw [RelayEntry.onReadPacket, hconnection]
  dsimp only
  rw [if_neg (not_not.mpr hsocket.symm), if_pos hplain, if_pos h.entry.1, h.entry.2]

theorem inward_iff (h : path.Locked e s) :
    path.Inward e s payload ↔ RelayServer.hasMagicCookie payload = false := by
  constructor
  · rintro ⟨packet, hsent, hread⟩
    have hforwarded := hsent 0
    rw [h.sent_onExternalPacket] at hforwarded
    cases List.append_cancel_left hforwarded
    by_contra hplain
    have hcookie : RelayServer.hasMagicCookie payload = true := Bool.not_eq_false _ ▸ hplain
    obtain ⟨⟨e', told⟩, htold, heq⟩ := Option.map_eq_some_iff.mp (hread [])
    cases heq
    exact Nat.lt_irrefl _ (RelayEntry.length_of_onReadPacket hcookie htold)
  · intro hplain
    refine ⟨payload, h.sent_onExternalPacket payload, fun sends => ?_⟩
    rw [h.onReadPacket hplain sends, Option.map_some]

/-- A client has allocated, has asked for the lock to an address, and the address has sent a packet.
-/
def lockedServer : RelayServer :=
  let inside : SocketAddress := ⟨.ipv4 0x09090909, 4000⟩
  let outside : SocketAddress := ⟨.ipv4 0x09090909, 5000⟩
  let client : SocketAddress := ⟨.ipv4 0x01010101, 1⟩
  let addr : SocketAddress := ⟨.ipv4 0x03030303, 3⟩
  let username : List UInt8 := [0, 6, 0, 4, 97, 97, 97, 97]
  let allocate : List UInt8 := [0, 3, 0, 8] ++ List.replicate 16 0 ++ username
  let send : List UInt8 := [0, 4, 0, 44] ++ List.replicate 16 0 ++
    [0, 15, 0, 4, 0x72, 0xC6, 0x4B, 0xC6] ++ username ++ [0, 17, 0, 8, 0, 1, 0, 3, 3, 3, 3, 3] ++
    [0x80, 1, 0, 4, 0, 0, 0, 1] ++ [0, 19, 0, 4, 1, 2, 3, 4]
  (RelayServer.create outside []).run [.internalPacket inside client allocate 0 0,
    .internalPacket inside client send 0 0, .externalPacket outside addr [1] 0]

/-- The client of that server. -/
def lockedEntry : RelayEntry :=
  ⟨[97, 97, 97, 97], ⟨.ipv4 0x03030303, 3⟩, true, some ⟨0, .new⟩⟩

/-- The way from that client to the address. -/
def lockedPath : RelayPath :=
  ⟨0, ⟨.ipv4 0x01010101, 1⟩, ⟨.ipv4 0x09090909, 4000⟩, ⟨.ipv4 0x09090909, 5000⟩, ⟨.ipv4 0x03030303, 3⟩,
    [97, 97, 97, 97], 0, 1⟩

theorem locked_lockedPath : lockedPath.Locked lockedEntry lockedServer where
  entry := ⟨rfl, rfl⟩
  connection := rfl
  internal := by decide +kernel
  external := ⟨⟨.unspec, 0⟩, by decide +kernel⟩
  internal_index := by decide +kernel
  external_index := by decide +kernel
  internal_binding := by decide +kernel
  external_binding := by decide +kernel

/-- For every entry and binding locked to each other for an address, and every payload: it gets to the address
and from it as it is if and only if it does not have the magic cookie behind its first twenty-four bytes. -/
theorem transparent_iff (h : path.Locked e s) (payload : List UInt8) :
    path.Transparent e s payload ↔ RelayServer.hasMagicCookie payload = false := by
  rw [Transparent, outward_iff h, inward_iff h, and_self]

theorem transparent_three_bytes : lockedPath.Locked lockedEntry lockedServer ∧
      lockedPath.Transparent lockedEntry lockedServer [1, 2, 3] :=
  ⟨locked_lockedPath, (transparent_iff locked_lockedPath [1, 2, 3]).mpr rfl⟩

/-- A payload of twenty-four zeros and the cookie does not get outside. -/
theorem not_transparent_cookie :
    ¬ ∀ (path : RelayPath) (e : RelayEntry) (s : RelayServer) (payload : List UInt8), path.Locked e s →
      1 ≤ payload.length → payload.length ≤ 65000 → path.Transparent e s payload := by
  intro h
  have htransparent := h lockedPath lockedEntry lockedServer
    (List.replicate 24 0 ++ turnMagicCookieValue) locked_lockedPath (by decide) (by decide)
  have hplain := (outward_iff locked_lockedPath).mp htransparent.1
  exact absurd hplain (by decide)

end RelayPath

end Synciga
