import Synciga.Internal.Registry
import Synciga.Stun.Message
import Synciga.Xml.Element

/-!
# `cricket::RelayServer`

A server that relays packets (`talk/p2p/base/relayserver.cc`). A packet from inside allocates a binding for a
client; packets to the outside, and those from there with its username, open external connections. The server
has an index of all connections by their pair of addresses, and deletes a binding that is not used for its
lifetime.

A connection is known by its place among all that were made, and refers to its binding by the username. What the
index finds in the way is recorded.

## Main definitions

* `RelayServer`, `RelayServerBinding`, `RelayServerConnection`
* `RelayServer.step` — a packet, a timer or a deletion
-/

namespace Synciga

/-! ### STUN messages -/

namespace StunMessage

variable (type : UInt16)

/-- `GetAttribute`. -/
def getAttribute (m : StunMessage) : Option StunAttribute := m.attrs.find? (·.type = type)

/-- `GetByteString`. -/
def getByteString (m : StunMessage) : Option (List UInt8) :=
  match m.getAttribute type with
  | some ⟨_, _, .byteString bytes⟩ => some bytes
  | _ => none

/-- `GetUInt32`. -/
def getUInt32 (m : StunMessage) : Option UInt32 :=
  match m.getAttribute type with
  | some ⟨_, _, .uint32 bits⟩ => some bits
  | _ => none

/-- `GetAddress`, of a type other than the mapped address. -/
def getAddress (m : StunMessage) : Option SocketAddress :=
  match m.getAttribute type with
  | some ⟨_, _, .address address⟩ => some address
  | _ => none

/-- `GetStunErrorResponseType`, as it is stored. -/
def errorResponseType : UInt16 := if type &&& 0x0110 = 0 then type ||| 0x0110 else 0xFFFF

/-- A relay message with this type, transaction id and these attributes. What does not fit is left out. -/
def relay (transactionId : List UInt8) (attrs : List StunAttribute) : StunMessage :=
  let m := new.setType type
  let m := (m.setTransactionID transactionId).getD m
  attrs.foldl (fun m attr => (m.addAttribute relayAttributeValueType attr).getD m) m

end StunMessage

/-! ### The server -/

/-- `TURN_MAGIC_COOKIE_VALUE`. -/
def turnMagicCookieValue : List UInt8 := [0x72, 0xC6, 0x4B, 0xC6]

/-- `MAX_LIFETIME`, in milliseconds. -/
def maxLifetime : UInt32 := 15 * 60 * 1000

/-- `USERNAME_LENGTH`. -/
def usernameLength : Nat := 16

/-- Where a packet is from, and where it arrives. -/
structure SocketAddressPair where
  source : SocketAddress
  destination : SocketAddress
  deriving DecidableEq, Repr

/-- What is sent: bytes as they are, or a STUN message. -/
inductive RelayPayload
  | raw (data : List UInt8)
  | stun (msg : StunMessage)
  deriving DecidableEq, Repr

/-- A connection of a binding. -/
structure RelayServerConnection where
  /-- The username of `binding_`. -/
  binding : List UInt8
  addrPair : SocketAddressPair
  locked : Bool
  defaultDest : SocketAddress
  deriving DecidableEq, Repr

/-- A binding, with its connections. -/
structure RelayServerBinding where
  lifetime : UInt32
  lastUsed : UInt32
  internalConnections : List Nat
  externalConnections : List Nat
  /-- `SignalTimeout` was emitted, and the thread is to delete the binding. -/
  expired : Bool
  deriving DecidableEq, Repr

/-- All connections of a binding, in the order in which they are deleted. -/
def RelayServerBinding.connections (b : RelayServerBinding) : List Nat :=
  b.internalConnections ++ b.externalConnections

/-- The server, with what it has sent. -/
structure RelayServer where
  /-- `external_sockets_`, by their addresses. -/
  externalSockets : List SocketAddress
  hasExternal : externalSockets ≠ []
  /-- `bindings_`. -/
  bindings : List UInt8 → Option RelayServerBinding
  /-- `connections_`. -/
  connections : SocketAddressPair → Option Nat
  /-- The connections that were made. -/
  objects : List RelayServerConnection
  /-- What was sent, with the addresses of the socket and of the receiver. -/
  sent : List (SocketAddress × SocketAddress × RelayPayload)
  /-- The pairs for which `AddConnection` has found another connection in the index, or `RemoveConnection`
  has not found the connection that is removed. -/
  displaced : List SocketAddressPair

namespace RelayServer

/-- `RelayServer()`, with its external sockets. -/
def create (externalSocket : SocketAddress) (more : List SocketAddress) : RelayServer :=
  ⟨externalSocket :: more, List.cons_ne_nil _ _, fun _ => none, fun _ => none, [], [], []⟩

variable (username : List UInt8)

/-- A binding is changed. -/
def withBinding (f : RelayServerBinding → RelayServerBinding) (s : RelayServer) :
    RelayServer :=
  { s with bindings := Function.update s.bindings username ((s.bindings username).map f) }

variable (conn : Nat)

/-- A connection is changed. -/
def withConnection (f : RelayServerConnection → RelayServerConnection) (s : RelayServer) :
    RelayServer :=
  { s with objects := s.objects.modify conn f }

/-- `RelayServerBinding::NoteUsed`. -/
def noteUsed (now : UInt32) (s : RelayServer) : RelayServer :=
  s.withBinding username fun b => { b with lastUsed := now }

/-! ### Sending -/

/-- `Send`, from the socket of a connection with this pair of addresses. -/
def transmit (ap : SocketAddressPair) (payload : RelayPayload) (s : RelayServer) : RelayServer :=
  { s with sent := s.sent ++ [(ap.destination, ap.source, payload)] }

/-- The message of `SendStunError`. -/
def stunError (msg : StunMessage) (code : Nat) (desc : String) : StunMessage :=
  .relay (StunMessage.errorResponseType msg.type) msg.transactionId
    [.ofBytes 0x000f turnMagicCookieValue, .ofErrorCode 0x0009 code (utf8 desc)]

/-- `RelayServerConnection::Send`, or `SendStun`. -/
def send (payload : RelayPayload) (now : UInt32) (s : RelayServer) : RelayServer :=
  match s.objects[conn]? with
  | none => s
  | some c => (s.noteUsed c.binding now).transmit c.addrPair payload

/-- `RelayServerConnection::SendStunError`. An error is not a use of the binding. -/
def sendStunError (request : StunMessage) (code : Nat) (desc : String) (s : RelayServer) :
    RelayServer :=
  match s.objects[conn]? with
  | none => s
  | some c => s.transmit c.addrPair (.stun (stunError request code desc))

/-- `RelayServerConnection::Send`, with the address that the data is from. -/
def sendFrom (data : List UInt8) (sender : SocketAddress) (now : UInt32) (s : RelayServer) :
    RelayServer :=
  match s.objects[conn]? with
  | none => s
  | some c =>
    -- the sender need not be told if it is the one that is known
    if c.locked ∧ sender = c.defaultDest then s.send conn (.raw data) now
    else s.send conn (.stun (.relay 0x0115 EMPTY_TRANSACTION_ID
      [.ofBytes 0x000f turnMagicCookieValue, .ofAddress 0x0012 sender,
        .ofBytes 0x0013 (data.take (UInt16.ofNat data.length).toNat)])) now

/-- `RelayServerConnection::Lock`. -/
def lock (s : RelayServer) : RelayServer := s.withConnection conn fun c => { c with locked := true }

/-! ### Connections -/

/-- `GetInternalConnection`: the one that is locked to this address, or else the first. -/
def getInternalConnection (addr : SocketAddress) (s : RelayServer) : Option Nat :=
  match s.bindings username with
  | none => none
  | some b =>
    match b.internalConnections.find? fun conn =>
        s.objects[conn]?.any fun c => c.locked && addr = c.defaultDest with
    | some conn => some conn
    | none => b.internalConnections.head?

/-- `RelayServerBinding::GetExternalConnection`. -/
def getExternalConnection (addr : SocketAddress) (s : RelayServer) : Option Nat :=
  match s.bindings username with
  | none => none
  | some b =>
    b.externalConnections.find? fun conn => s.objects[conn]?.any fun c => addr = c.addrPair.source

/-- `RelayServerConnection()`, with its place. The connection is a use of the binding. -/
def newConnection (ap : SocketAddressPair) (now : UInt32) (s : RelayServer) :
    RelayServer × Nat :=
  ({ s.noteUsed username now with objects := s.objects ++ [⟨username, ap, false, ⟨.unspec, 0⟩⟩] },
    s.objects.length)

/-- `RelayServer::AddConnection`. -/
def addConnection (ap : SocketAddressPair) (conn : Nat) (s : RelayServer) : RelayServer :=
  { s with
    connections := Function.update s.connections ap (some conn)
    displaced := if s.connections ap = none then s.displaced else s.displaced ++ [ap] }

/-- `RemoveConnection`. -/
def removeConnection (s : RelayServer) (conn : Nat) : RelayServer :=
  match s.objects[conn]? with
  | none => s
  | some c =>
    { s with
      connections := Function.update s.connections c.addrPair none
      displaced := if s.connections c.addrPair = some conn then s.displaced else s.displaced ++ [c.addrPair] }

/-- A new connection becomes an internal one of its binding. -/
def openInternal (ap : SocketAddressPair) (now : UInt32) (s : RelayServer) :
    RelayServer × Nat :=
  let (s, conn) := s.newConnection username ap now
  let s := s.withBinding username fun b => { b with internalConnections := b.internalConnections ++ [conn] }
  (s.addConnection ap conn, conn)

/-- A new connection becomes an external one of its binding. -/
def openExternal (ap : SocketAddressPair) (now : UInt32) (s : RelayServer) :
    RelayServer × Nat :=
  let (s, conn) := s.newConnection username ap now
  let s := s.withBinding username fun b => { b with externalConnections := b.externalConnections ++ [conn] }
  (s.addConnection ap conn, conn)

/-! ### Packets -/

variable (bytes : List UInt8)

/-- `RelayServerBinding::HasMagicCookie`. -/
def hasMagicCookie : Bool :=
  24 + turnMagicCookieValue.length ≤ bytes.length && (bytes.drop 24).take 4 = turnMagicCookieValue

/-- `HandleStun`: the message and its username. -/
def handleStun (ap : SocketAddressPair) (s : RelayServer) :
    RelayServer × Option (StunMessage × List UInt8) :=
  match StunMessage.read relayAttributeValueType bytes with
  | none => (s, none)
  | some (msg, _) =>
    match msg.getByteString 0x0006 with
    | none => (s.transmit ap (.stun (stunError msg 432 "Missing Username")), none)
    | some username => (s, some (msg, username))

/-- `HandleStunAllocate`, of a connection. One of the external sockets is chosen. -/
def answerAllocate (request : StunMessage) (choice : Nat) (now : UInt32) (s : RelayServer) :
    RelayServer :=
  let lifetime := ((s.objects[conn]?.bind fun c => s.bindings c.binding).map (·.lifetime)).getD 0
  let address := (s.externalSockets[choice % s.externalSockets.length]?).getD (s.externalSockets.head s.hasExternal)
  s.send conn (.stun (.relay 0x0103 request.transactionId
    [.ofBytes 0x000f turnMagicCookieValue, .ofAddress 0x0001 address,
      .ofUInt32 0x000d (lifetime / 1000)])) now

/-- The lifetime that an allocate request asks for. -/
def requestedLifetime (request : StunMessage) : UInt32 :=
  match request.getUInt32 0x000d with
  | none => maxLifetime
  | some value => min maxLifetime (value * 1000)

/-- `HandleStunAllocate`, of a packet that is not from a connection. -/
def handleStunAllocate (ap : SocketAddressPair) (choice : Nat) (now : UInt32)
    (s : RelayServer) : RelayServer :=
  match s.handleStun bytes ap with
  | (s, none) => s
  | (s, some (request, username)) =>
    if request.type ≠ 0x0003 then s.transmit ap (.stun (stunError request 600 "Operation Not Supported"))
    else
      let s := match s.bindings username with
        | some _ => s
        | none =>
          let b : RelayServerBinding := ⟨requestedLifetime request, now, [], [], false⟩
          { s with bindings := Function.update s.bindings username (some b) }
      let (s, conn) := s.openInternal username ap now
      s.answerAllocate conn request choice now

/-- What a send request asks for: where to, and what. -/
def sendTarget (request : StunMessage) : Option (SocketAddress × List UInt8) :=
  match request.getAddress 0x0011, request.getByteString 0x0013 with
  | some addr, some data => some (addr, data)
  | _, _ => none

/-- The address pair of an external connection that the server opens. -/
def externalPair (addr : SocketAddress) (s : RelayServer) : SocketAddressPair :=
  ⟨addr, s.externalSockets.head s.hasExternal⟩

/-- The part of `HandleStunSend` behind the connection. -/
def forwardTo (conn ext : Nat) (request : StunMessage) (addr : SocketAddress) (data : List UInt8)
    (now : UInt32) (s : RelayServer) : RelayServer :=
  -- only to those that have sent something
  let s := if s.objects[ext]?.any (·.locked) then s.send ext (.raw data) now else s
  match request.getUInt32 0x8001 with
  | none => s
  | some options =>
    if options &&& 0x01 = 0 then s
    else
      let s := (s.withConnection conn fun c => { c with defaultDest := addr }).lock conn
      s.send conn (.stun (.relay 0x0104 request.transactionId
        [.ofBytes 0x000f turnMagicCookieValue, .ofUInt32 0x8001 0x01])) now

/-- `HandleStunSend`, of a connection of this binding. -/
def handleStunSend (username : List UInt8) (request : StunMessage) (now : UInt32)
    (s : RelayServer) : RelayServer :=
  match sendTarget request with
  | none => s.sendStunError conn request 400 "Bad Request"
  | some (addr, data) =>
    match s.getExternalConnection username addr with
    | some ext => s.forwardTo conn ext request addr data now
    | none =>
      let (s, ext) := s.openExternal username (s.externalPair addr) now
      s.forwardTo conn ext request addr data now

/-- `HandleStun`, of a connection. -/
def handleConnectionStun (c : RelayServerConnection) (bytes : List UInt8) (choice : Nat)
    (now : UInt32) (s : RelayServer) : RelayServer :=
  match s.handleStun bytes c.addrPair with
  | (s, none) => s
  | (s, some (request, username)) =>
    if username ≠ c.binding then s.sendStunError conn request 430 "Stale Credentials"
    else if request.type = 0x0004 then s.handleStunSend conn c.binding request now
    else if request.type = 0x0003 then s.answerAllocate conn request choice now
    else s.sendStunError conn request 600 "Operation Not Supported"

/-- A packet from inside that is to be sent outside. -/
def forwardRaw (c : RelayServerConnection) (bytes : List UInt8) (now : UInt32) (s : RelayServer) :
    RelayServer :=
  if c.locked = false then s
  else match s.getExternalConnection c.binding c.defaultDest with
    | none => s
    | some ext => if s.objects[ext]?.any (·.locked) then s.send ext (.raw bytes) now else s

/-- `OnInternalPacket`, of a socket with this address. -/
def onInternalPacket (localAddr remoteAddr : SocketAddress) (bytes : List UInt8) (choice : Nat)
    (now : UInt32) (s : RelayServer) : RelayServer :=
  let ap : SocketAddressPair := ⟨remoteAddr, localAddr⟩
  match s.connections ap with
  | none => s.handleStunAllocate bytes ap choice now
  | some conn =>
    match s.objects[conn]? with
    | none => s
    | some c =>
      if hasMagicCookie bytes then s.handleConnectionStun conn c bytes choice now
      else s.forwardRaw c bytes now

/-- A packet from outside is sent to the internal connection that is meant. -/
def deliver (bytes : List UInt8) (sender : SocketAddress) (now : UInt32)
    (s : RelayServer) : RelayServer :=
  match s.getInternalConnection username sender with
  | none => s
  | some conn => s.sendFrom conn bytes sender now

/-- `OnExternalPacket`, of a socket with this address. -/
def onExternalPacket (localAddr remoteAddr : SocketAddress) (bytes : List UInt8) (now : UInt32)
    (s : RelayServer) : RelayServer :=
  let ap : SocketAddressPair := ⟨remoteAddr, localAddr⟩
  match s.connections ap with
  | some ext =>
    match s.objects[ext]? with
    | none => s
    | some c => (s.deliver c.binding bytes c.addrPair.source now).lock ext
  | none =>
    match StunMessage.read relayAttributeValueType bytes with
    | none => s
    | some (msg, _) =>
      match msg.getByteString 0x0006 with
      | none => s
      | some username =>
        let username := username.take usernameLength
        match s.bindings username with
        | none => s
        | some _ =>
          let (s, ext) := s.openExternal username ap now
          (s.lock ext).deliver username bytes ap.source now

/-! ### Bindings that expire -/

/-- `RelayServerBinding::OnMessage`, and `OnTimeout`. -/
def onTimer (now : UInt32) (s : RelayServer) : RelayServer :=
  s.withBinding username fun b => if now ≥ b.lastUsed + b.lifetime then { b with expired := true } else b

/-- `~RelayServerBinding`, with `RemoveBinding`. -/
def deleteBinding (b : RelayServerBinding) (s : RelayServer) : RelayServer :=
  let s := b.connections.foldl removeConnection s
  { s with bindings := Function.update s.bindings username none }

/-- The thread deletes a binding that has expired. -/
def dispose (s : RelayServer) : RelayServer :=
  match s.bindings username with
  | none => s
  | some b => if b.expired then s.deleteBinding username b else s

end RelayServer

/-! ### Steps -/

/-- What happens to a server: a packet arrives at a socket, the timer of a binding, or the deletion of one
that has expired. -/
inductive RelayOp
  | internalPacket (localAddr remoteAddr : SocketAddress) (bytes : List UInt8) (choice : Nat) (now : UInt32)
  | externalPacket (localAddr remoteAddr : SocketAddress) (bytes : List UInt8) (now : UInt32)
  | timer (username : List UInt8) (now : UInt32)
  | dispose (username : List UInt8)
  deriving DecidableEq, Repr

/-- A step. -/
def RelayServer.step (s : RelayServer) : RelayOp → RelayServer
  | .internalPacket localAddr remoteAddr bytes choice now =>
    s.onInternalPacket localAddr remoteAddr bytes choice now
  | .externalPacket localAddr remoteAddr bytes now => s.onExternalPacket localAddr remoteAddr bytes now
  | .timer username now => s.onTimer username now
  | .dispose username => s.dispose username

/-- A run. -/
def RelayServer.run (ops : List RelayOp) (s : RelayServer) : RelayServer := ops.foldl RelayServer.step s

end Synciga
