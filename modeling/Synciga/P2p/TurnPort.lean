import Synciga.Base.SocketAddress
import Synciga.P2p.RelayServer
import Synciga.Stun.Integrity
import Synciga.Stun.RequestManager

/-!
# A port behind a TURN server

`TurnPort` (`talk/p2p/base/turnport.cc`) asks a server for an address, and for each peer for a permission and a
channel. The requests are in `requests_` until they are answered or time out, and answers make new ones.

Entries and connections are named by numbers: an entry by its channel number, which is never given twice. An
attribute that is used although it is not there is a fault, behind which nothing happens. An event for which the
id of a request is not new, or an entry to be destroyed is not there, is impossible, as the source asserts. What
`CreateEntry` asserts is not true of it: there may be two entries for one address.

## Main definitions

* `TurnPort`, `TurnPort.step` — the port and what can happen
-/

namespace Synciga

/-! ### Messages -/

namespace StunMessage

/-- `GetAddress`, of a type whose attributes are XORed. -/
def getXorAddress (type : UInt16) (m : StunMessage) : Option SocketAddress :=
  match m.getAttribute type with
  | some ⟨_, _, .xorAddress address⟩ => some address
  | _ => none

/-- `GetErrorCode`, and `code` of it. -/
def getErrorCode (m : StunMessage) : Option ℕ :=
  match m.getAttribute 0x0009 with
  | some ⟨_, _, .errorCode eclass number _⟩ => some (eclass.toNat * 100 + number.toNat)
  | _ => none

end StunMessage

/-- `IsStunSuccessResponseType`. -/
def isStunSuccessResponseType (msgType : UInt16) : Bool := msgType &&& kStunTypeMask = 0x100

/-- `IPIsPrivate`, of an IPv6 address. -/
def IPAddress.isPrivateV6 : IPAddress → Bool
  | .ipv6 w₀ w₁ w₂ w₃ => w₀ >>> 16 = 0xFE80 ∨ w₀ = 0 ∧ w₁ = 0 ∧ w₂ = 0 ∧ w₃ = 1
  | _ => false

namespace P2p

open ByteBuffer

/-! ### Entries and requests -/

/-- The port of a server. -/
def TURN_DEFAULT_PORT : UInt16 := 3478

/-- The first number of a channel. -/
def TURN_CHANNEL_NUMBER_START : ℕ := 0x4000

/-- `TURN_PERMISSION_TIMEOUT`: five minutes. -/
def TURN_PERMISSION_TIMEOUT : Int32 := 5 * 60 * 1000

/-- In front of the data of a channel. -/
def TURN_CHANNEL_HEADER_SIZE : ℕ := 4

/-- `IsTurnChannelData`. -/
def isTurnChannelData (msgType : UInt16) : Bool := msgType &&& 0xC000 = 0x4000

/-- The enumeration `BindState`. -/
inductive BindState
  | unbound
  | binding
  | bound
  deriving DecidableEq, Repr

/-- The class `TurnEntry`. -/
structure TurnEntry where
  channelId : ℕ
  extAddr : TalkBase.SocketAddress
  state : BindState := .unbound
  deriving DecidableEq, Repr

/-- The classes of requests, with their `entry_`, which is null when the entry was destroyed. -/
inductive TurnRequestKind
  | allocate
  | refresh
  | createPermission (entry : Option ℕ) (extAddr : TalkBase.SocketAddress)
  | channelBind (entry : Option ℕ) (channelId : ℕ) (extAddr : TalkBase.SocketAddress)
  deriving DecidableEq, Repr

namespace TurnRequestKind

/-- The type that `Prepare` sets. -/
def type : TurnRequestKind → UInt16
  | .allocate => 0x0003
  | .refresh => 0x0004
  | .createPermission .. => 0x0008
  | .channelBind .. => 0x0009

/-- The entry that a request is for. -/
def entry : TurnRequestKind → Option ℕ
  | .createPermission entry _ => entry
  | .channelBind entry _ _ => entry
  | _ => none

/-- The requests of an entry forget it. -/
def onEntryDestroyed (entry : ℕ) : TurnRequestKind → TurnRequestKind
  | .createPermission e extAddr => .createPermission (if e = some entry then none else e) extAddr
  | .channelBind e channelId extAddr =>
    .channelBind (if e = some entry then none else e) channelId extAddr
  | kind => kind

end TurnRequestKind

/-- `StunRequest`, with the delay it was sent with and the time of its next `MSG_STUN_SEND`. -/
structure TurnRequest where
  id : List UInt8
  kind : TurnRequestKind
  delay : Int32
  due : ℤ
  count : ℕ := 0
  timeout : Bool := false
  deriving DecidableEq, Repr

/-- A request that is sent, and the time at which it is sent again. -/
def TurnRequest.sent (r : TurnRequest) (t : ℕ) : TurnRequest :=
  { r with
    due := t + DELAY_UNIT * min (1 <<< r.count) DELAY_MAX_FACTOR
    count := r.count + 1
    timeout := if r.count + 1 = MAX_SENDS then true else r.timeout }

/-- The signals of a port. -/
inductive TurnSignal
  | addressReady (address : SocketAddress)
  | addressError
  | createPermissionResult (address : TalkBase.SocketAddress) (code : ℕ)
  deriving DecidableEq, Repr

/-- `resolver_`. -/
inductive ResolverState
  | none
  | running
  | done
  deriving DecidableEq, Repr

/-- `TurnPort`, with its connections and what it has signalled. -/
structure TurnPort where
  ip : IPAddress
  username : List UInt8
  password : List UInt8
  serverAddress : TalkBase.SocketAddress
  resolver : ResolverState := .none
  realm : List UInt8 := []
  nonce : List UInt8 := []
  hash : List UInt8 := []
  requests : List TurnRequest := []
  nextChannelNumber : ℕ := TURN_CHANNEL_NUMBER_START
  entries : List TurnEntry := []
  connections : List (ℕ × TalkBase.SocketAddress) := []
  nextConnection : ℕ := 0
  signals : List TurnSignal := []
  /-- An attribute was used that is not there. -/
  fault : Bool := false

/-- What is computed outside of the port: the HMAC, and `ComputeStunCredentialHash` of the user, the
realm and the password. -/
structure TurnCrypto where
  hmac : Hmac
  credentialHash : List UInt8 → List UInt8 → List UInt8 → List UInt8

namespace TurnEntry

/-- What `Send` makes of data in `STATE_BOUND`. -/
def channelData (e : TurnEntry) (data : List UInt8) : List UInt8 :=
  writeUInt16 (UInt16.ofNat e.channelId) ++ (writeUInt16 (UInt16.ofNat data.length) ++ data)

end TurnEntry

namespace TurnPort

/-- The constructor. -/
def new (ip : IPAddress) (username password : List UInt8)
    (serverAddress : TalkBase.SocketAddress) : TurnPort :=
  { ip, username, password, serverAddress }

/-! ### Requests -/

variable (s : TurnPort)

/-- `SendRequest`. The random transaction id is a new one. -/
def sendRequest (t : ℕ) (kind : TurnRequestKind) (delay : Int32) (id : List UInt8) :
    Option TurnPort :=
  if s.requests.any fun r => r.id = id then none
  else some { s with requests := s.requests ++ [{ id, kind, delay, due := t + delay.toInt }] }

/-- `delete` of a request, which the manager removes. -/
def deleteRequest (id : List UInt8) : TurnPort :=
  { s with requests := s.requests.filter fun r => r.id ≠ id }

/-- A signal of the port. -/
def emit (signal : TurnSignal) : TurnPort := { s with signals := s.signals ++ [signal] }

variable (crypto : TurnCrypto)

/-- The realm of the server, with the hash. -/
def setRealm (s : TurnPort) (realm : List UInt8) : TurnPort :=
  if realm = s.realm then s
  else { s with realm, hash := crypto.credentialHash s.username realm s.password }

/-- The nonce of the server. -/
def setNonce (nonce : List UInt8) : TurnPort := { s with nonce }

/-- `UpdateNonce`. -/
def updateNonce (s : TurnPort) (response : StunMessage) : Bool × TurnPort :=
  match response.getByteString 0x0014 with
  | none => (false, s)
  | some realm =>
    match response.getByteString 0x0015 with
    | none => (false, s.setRealm crypto realm)
    | some nonce => (true, (s.setRealm crypto realm).setNonce nonce)

/-- `ScheduleRefresh`. The lifetime of the server is an `int` here. -/
def scheduleRefresh (t : ℕ) (lifetime : UInt32) (id : List UInt8) : Option TurnPort :=
  let lifetime := lifetime.toInt32
  if lifetime < 2 * 60 then some s
  else s.sendRequest t .refresh ((lifetime - 60) * 1000) id

/-! ### Entries -/

/-- `FindEntry` of an address. -/
def findEntry (addr : TalkBase.SocketAddress) : Option TurnEntry :=
  s.entries.find? fun e => e.extAddr.operatorEq addr

/-- `FindEntry` of a channel, which also stands for the pointers to entries. -/
def findChannel (channelId : ℕ) : Option TurnEntry :=
  s.entries.find? fun e => e.channelId = channelId

/-- An entry that is changed. -/
def setState (channelId : ℕ) (state : BindState) : TurnPort :=
  { s with entries := s.entries.map fun e => if e.channelId = channelId then { e with state } else e }

/-- `TurnEntry::SendCreatePermissionRequest`. -/
def sendCreatePermissionRequest (t : ℕ) (e : TurnEntry)
    (id : List UInt8) : Option TurnPort :=
  s.sendRequest t (.createPermission (some e.channelId) e.extAddr) 0 id

/-- `TurnEntry::SendChannelBindRequest`. -/
def sendChannelBindRequest (t : ℕ) (e : TurnEntry) (delay : Int32) (id : List UInt8) :
    Option TurnPort :=
  s.sendRequest t (.channelBind (some e.channelId) e.channelId e.extAddr) delay id

/-- `CreateEntry`. The constructor of the entry sends a request. -/
def createEntry (t : ℕ) (addr : TalkBase.SocketAddress)
    (id : List UInt8) : Option TurnPort :=
  let e : TurnEntry := { channelId := s.nextChannelNumber, extAddr := addr }
  let s := { s with nextChannelNumber := s.nextChannelNumber + 1 }
  (s.sendCreatePermissionRequest t e id).map fun s => { s with entries := s.entries ++ [e] }

/-- `DestroyEntry`, which asserts that there is an entry. -/
def destroyEntry (addr : TalkBase.SocketAddress) : Option TurnPort :=
  (s.findEntry addr).map fun entry =>
    { s with
      requests := s.requests.map fun r => { r with kind := r.kind.onEntryDestroyed entry.channelId }
      entries := s.entries.filter fun e => e.channelId ≠ entry.channelId }

/-! ### Answers -/

section Answers

variable (crypto : TurnCrypto) (s : TurnPort) (t : ℕ) (response : StunMessage) (id : List UInt8)

/-- `TurnAllocateRequest::OnResponse`, with `OnAllocateSuccess`. -/
def allocateOnResponse : Option TurnPort :=
  match response.getXorAddress 0x0020 with
  | none => some s
  | some _ =>
    match response.getXorAddress 0x0016 with
    | none => some s
    | some relayed =>
      match response.getUInt32 0x000d with
      | none => some s
      | some lifetime => (s.emit (.addressReady relayed)).scheduleRefresh t lifetime id

/-- `TurnAllocateRequest::OnAuthChallenge`, of a 401. -/
def onAuthChallenge : Option TurnPort :=
  -- If we failed to authenticate even after we sent our credentials, fail hard.
  if s.hash ≠ [] then some (s.emit .addressError)
  else
    match response.getByteString 0x0014 with
    | none => some s
    | some realm =>
      match response.getByteString 0x0015 with
      | none => some (s.setRealm crypto realm)
      | some nonce => ((s.setRealm crypto realm).setNonce nonce).sendRequest t .allocate 0 id

/-- `TurnAllocateRequest::OnErrorResponse`. -/
def allocateOnErrorResponse : Option TurnPort :=
  match response.getErrorCode with
  | none => some { s with fault := true }
  | some code =>
    if code = 401 then onAuthChallenge crypto s t response id else some (s.emit .addressError)

/-- `TurnRefreshRequest::OnResponse`. -/
def refreshOnResponse : Option TurnPort :=
  match response.getUInt32 0x000d with
  | none => some s
  | some lifetime => s.scheduleRefresh t lifetime id

/-- `TurnRefreshRequest::OnErrorResponse`. -/
def refreshOnErrorResponse : Option TurnPort :=
  match response.getErrorCode with
  | none => some { s with fault := true }
  | some code =>
    if code = 438 then
      let updated := s.updateNonce crypto response
      if updated.1 then updated.2.sendRequest t .refresh 0 id else some updated.2
    else some s

/-- `TurnEntry::OnCreatePermissionError`. -/
def onCreatePermissionError (e : TurnEntry) (code : ℕ) : Option TurnPort :=
  if code = 438 then
    let updated := s.updateNonce crypto response
    if updated.1 then updated.2.sendCreatePermissionRequest t e id else some updated.2
  else some (s.emit (.createPermissionResult e.extAddr code))

/-- `TurnEntry::OnChannelBindError`. -/
def onChannelBindError (e : TurnEntry) (code : ℕ) : Option TurnPort :=
  if code = 438 then
    let updated := s.updateNonce crypto response
    if updated.1 then updated.2.sendChannelBindRequest t e 0 id else some updated.2
  else some s

/-- What a request does with its entry, if it still has one. -/
def withEntry (entry : Option ℕ) (f : TurnEntry → Option TurnPort) : Option TurnPort :=
  match entry with
  | none => some s
  | some channelId =>
    match s.findChannel channelId with
    | none => some { s with fault := true }
    | some e => f e

/-- `OnResponse` of a request. -/
def onResponse : TurnRequestKind → Option TurnPort
  | .allocate => s.allocateOnResponse t response id
  | .refresh => s.refreshOnResponse t response id
  | .createPermission entry _ => s.withEntry entry fun e =>
    some (s.emit (.createPermissionResult e.extAddr 0))
  | .channelBind entry _ _ => s.withEntry entry fun e =>
    -- Just under the timeout of the permission, which the binding renews as well.
    (s.setState e.channelId .bound).sendChannelBindRequest t e (TURN_PERMISSION_TIMEOUT - 60 * 1000) id

/-- `OnErrorResponse` of a request. -/
def onErrorResponse : TurnRequestKind → Option TurnPort
  | .allocate => s.allocateOnErrorResponse crypto t response id
  | .refresh => s.refreshOnErrorResponse crypto t response id
  | .createPermission entry _ => s.withEntry entry fun e =>
    match response.getErrorCode with
    | none => some { s with fault := true }
    | some code => s.onCreatePermissionError crypto t response id e code
  | .channelBind entry _ _ => s.withEntry entry fun e =>
    match response.getErrorCode with
    | none => some { s with fault := true }
    | some code => s.onChannelBindError crypto t response id e code

/-- A request that is answered, and then deleted. -/
def respond (request : TurnRequest) (success : Bool) : Option TurnPort :=
  (if success then s.onResponse t response id request.kind
    else s.onErrorResponse crypto t response id request.kind).map (·.deleteRequest request.id)

end Answers

/-- `CheckResponse`: the request that a packet answers, whether it is a success, and the answer. -/
def answered (data : List UInt8) : Option (TurnRequest × Bool × StunMessage) :=
  if data.length < kStunHeaderSize then none
  else do
    let id := (data.drop kStunTransactionIdOffset).take kStunTransactionIdLength
    let _ ← s.requests.find? fun r => r.id = id
    let (response, _) ← StunMessage.read turnAttributeValueType data
    let request ← s.requests.find? fun r => r.id = response.transactionId
    if some response.type = getStunSuccessResponseType request.kind.type then
      some (request, true, response)
    else if some response.type = getStunErrorResponseType request.kind.type then
      some (request, false, response)
    else none

/-! ### Packets -/

/-- The first two bytes. -/
def msgType (data : List UInt8) : UInt16 := UInt16.ofNat (BigEndian.ofBytes (data.take 2))

/-- `HandleChannelData`: the data, and the address it is dispatched with. -/
def handleChannelData (channelId : ℕ) (data : List UInt8) :
    Option (List UInt8 × TalkBase.SocketAddress) :=
  let len := (UInt16.ofNat (BigEndian.ofBytes ((data.drop 2).take 2))).toNat
  if data.length - TURN_CHANNEL_HEADER_SIZE < len then none
  else (s.findChannel channelId).map fun e => ((data.drop TURN_CHANNEL_HEADER_SIZE).take len, e.extAddr)

/-- `OnReadPacket`, of a packet and the memory behind it. What is dispatched to a connection leaves
the port as it was. -/
def onReadPacket (s : TurnPort) (t : ℕ) (data : List UInt8) (beyond : ℕ → UInt8)
    (id : List UInt8) : Option TurnPort :=
  if data.length < TURN_CHANNEL_HEADER_SIZE then some s
  else if isTurnChannelData (msgType data) then some s
  else if msgType data = 0x0017 then some s
  else if isStunSuccessResponseType (msgType data) ∧ StunMessage.validateMessageIntegrity crypto.hmac
      (StunMessage.memory data beyond) data.length s.hash = false then some s
  else
    match s.answered data with
    | none => some s
    | some (request, success, response) => s.respond crypto t response id request success

/-! ### Connections -/

/-- `Port::IsCompatibleAddress`. -/
def isCompatibleAddress (addr : TalkBase.SocketAddress) : Bool :=
  match s.ip, addr.ip with
  | .unspec, .unspec => true
  | .ipv4 _, .ipv4 _ => true
  | .ipv6 .., .ipv6 .. => s.ip.isPrivateV6 == addr.ip.isPrivateV6
  | _, _ => false

/-- `CreateConnection` makes a connection. -/
def accepts (protocol : String) (addr : TalkBase.SocketAddress) : Bool :=
  protocol = "udp" ∧ s.isCompatibleAddress addr

/-- `CreateConnection`. -/
def createConnection (t : ℕ) (protocol : String) (addr : TalkBase.SocketAddress)
    (id : List UInt8) : Option TurnPort :=
  if s.accepts protocol addr then
    (s.createEntry t addr id).map fun s =>
      { s with
        connections := s.connections ++ [(s.nextConnection, addr)]
        nextConnection := s.nextConnection + 1 }
  else some s

/-- `OnConnectionDestroyed`, of a connection that there is. -/
def onConnectionDestroyed (conn : ℕ) : Option TurnPort :=
  (s.connections.find? fun c => c.1 = conn).bind fun c =>
    { s with connections := s.connections.filter fun c => c.1 ≠ conn }.destroyEntry c.2

/-- `SendTo`, where only a payload on an entry that is not bound changes the port. -/
def sendTo (t : ℕ) (addr : TalkBase.SocketAddress) (payload : Bool)
    (id : List UInt8) : Option TurnPort :=
  match s.findEntry addr with
  | none => some s
  | some e =>
    if e.state = .unbound ∧ payload then
      (s.sendChannelBindRequest t e 0 id).map (·.setState e.channelId .binding)
    else some s

/-! ### The port -/

/-- `ResolveTurnAddress`. -/
def resolveTurnAddress : TurnPort :=
  if s.resolver = .none then { s with resolver := .running } else s

/-- The port of the server, if none is given. -/
def setDefaultPort : TurnPort :=
  if s.serverAddress.port = 0 then
    { s with serverAddress := { s.serverAddress with port := TURN_DEFAULT_PORT } }
  else s

/-- `PrepareAddress`. -/
def prepareAddress (t : ℕ) (id : List UInt8) : Option TurnPort :=
  if s.username = [] ∨ s.password = [] then some (s.emit .addressError)
  else
    let s := s.setDefaultPort
    if s.serverAddress.isUnresolvedIP then some s.resolveTurnAddress
    else s.sendRequest t .allocate 0 id

/-- What the resolver makes of the address: the first address that it has found, if any. -/
def resolvedAddress (addr : TalkBase.SocketAddress)
    (addresses : List IPAddress) : TalkBase.SocketAddress :=
  match addresses.head? with
  | none => addr
  | some ip => { addr with hostname := [], literal := false, ip, scopeId := 0 }

/-- `OnResolveResult`. -/
def onResolveResult (t : ℕ) (error : ℤ) (addresses : List IPAddress) (id : List UInt8) :
    Option TurnPort :=
  let s := { s with resolver := .done }
  if error ≠ 0 then some (s.emit .addressError)
  else { s with serverAddress := resolvedAddress s.serverAddress addresses }.prepareAddress t id

/-- `StunRequest::OnMessage`. The classes do nothing in `OnTimeout`. -/
def onMessage (t : ℕ) (id : List UInt8) : Option TurnPort :=
  match s.requests.find? fun r => r.id = id with
  | none => none
  | some r =>
    if (t : ℤ) < r.due then none
    else if r.timeout then some (s.deleteRequest id)
    else some { s with requests := s.requests.map fun r' => if r'.id = id then r.sent t else r' }

/-- What happens to a port. The ids are those of requests that are made. -/
inductive TurnEvent
  | prepareAddress (id : List UInt8)
  | resolved (error : ℤ) (addresses : List IPAddress) (id : List UInt8)
  | packet (data : List UInt8) (beyond : ℕ → UInt8) (id : List UInt8)
  | timer (id : List UInt8)
  | createConnection (protocol : String) (addr : TalkBase.SocketAddress) (id : List UInt8)
  | connectionDestroyed (conn : ℕ)
  | sendTo (addr : TalkBase.SocketAddress) (payload : Bool) (id : List UInt8)

/-- An event at a time, if it is possible. -/
def step (s : TurnPort) (event : ℕ × TurnEvent) : Option TurnPort :=
  if s.fault then none
  else
    match event.2 with
    | .prepareAddress id => s.prepareAddress event.1 id
    | .resolved error addresses id =>
      if s.resolver = .running then s.onResolveResult event.1 error addresses id else none
    | .packet data beyond id => s.onReadPacket crypto event.1 data beyond id
    | .timer id => s.onMessage event.1 id
    | .createConnection protocol addr id => s.createConnection event.1 protocol addr id
    | .connectionDestroyed conn => s.onConnectionDestroyed conn
    | .sendTo addr payload id => s.sendTo event.1 addr payload id

end TurnPort

end P2p

end Synciga
