import Synciga.P2p.Connection

/-!
# `P2PTransportChannel`

A channel (`talk/p2p/base/p2ptransportchannel.cc`) asks an allocator for ports, makes a connection from each to
each remote candidate, and picks the best. A restart of the allocation drops the ports; their connections stay.

Ports and connections are numbered as they come; `ports` and `connections` are the lists of the source. A
connection is found by the IP address and the port of its candidate: the host name counts only for the any
address, which `Transport::VerifyCandidate` refuses.

## Main definitions

* `P2PTransportChannel` — a channel
* `step` — what allocator, other side and clock do (`ChannelOp`)
-/

namespace Synciga.P2p

/-- A channel, with what is queued for it. -/
structure P2PTransportChannel where
  component : ℤ
  incomingOnly : Bool := false
  waitingForSignaling : Bool := false
  /-- `allocator_sessions_`: whether each of them is getting all its ports. -/
  allocatorSessions : List Bool := []
  /-- The ports that there were. -/
  portCount : ℕ := 0
  portAt : ℕ → Port
  ports : List ℕ := []
  /-- The connections that there were. -/
  connectionCount : ℕ := 0
  connectionAt : ℕ → Connection
  connections : List ℕ := []
  bestConnection : Option ℕ := none
  /-- `remote_candidates_`, each with its `origin_port_`. -/
  remoteCandidates : List (Candidate × Option ℕ) := []
  sortDirty : Bool := false
  /-- The `MSG_SORT` that are in the queue. One may be left behind when the connections are sorted. -/
  sorts : ℕ := 0
  wasWritable : Bool := false
  iceUfrag : String := ""
  icePwd : String := ""
  remoteIceUfrag : String := ""
  remoteIcePwd : String := ""
  protocolType : TransportProtocol := .google
  remoteIceMode : IceMode := .full
  role : TransportRole := .unknown
  tiebreaker : UInt64 := 0
  remoteCandidateGeneration : UInt32 := 0
  readable : Bool := false
  writable : Bool := false

namespace P2PTransportChannel

/-- A port that no one has used. -/
def blankPort : Port where
  network := 0
  networkName := ""
  type := ""
  sharedSocket := false
  generation := 0
  creates := fun _ _ => none

/-- A candidate that no one has used. -/
def blankCandidate : Candidate where
  id := ""
  component := 0
  protocol := ""
  address := ⟨.unspec, 0⟩
  priority := 0
  username := ""
  password := ""
  type := ""
  networkName := ""
  generation := 0
  foundation := ""
  relatedAddress := ⟨.unspec, 0⟩

/-- `P2PTransportChannel()`. -/
def create (component : ℤ) : P2PTransportChannel where
  component := component
  portAt := fun _ => blankPort
  connectionAt := fun _ => { port := 0, localPriority := 0, remoteCandidate := blankCandidate }

variable (ch : P2PTransportChannel)

/-- A connection with its port. -/
def pair (conn : ℕ) : Pair :=
  ⟨ch.portAt (ch.connectionAt conn).port, ch.connectionAt conn⟩

/-- `port()->Network()`. -/
def network (ch : P2PTransportChannel) (conn : ℕ) : ℕ := (ch.pair conn).port.network

/-! ### Settings -/

/-- Something is set in each port of the list. -/
def setPorts (f : Port → Port) (ch : P2PTransportChannel) : P2PTransportChannel :=
  { ch with portAt := fun p => if p ∈ ch.ports then f (ch.portAt p) else ch.portAt p }

/-- `SetRole`. -/
def setRole (role : TransportRole) (ch : P2PTransportChannel) : P2PTransportChannel :=
  if ch.role = role then ch else { ch with role }.setPorts ({ · with role })

/-- `SetTiebreaker`. It cannot be changed when there are ports. -/
def setTiebreaker (tiebreaker : UInt64) (ch : P2PTransportChannel) : P2PTransportChannel :=
  if ch.ports ≠ [] then ch else { ch with tiebreaker }

/-- `SetIceProtocolType`. -/
def setIceProtocolType (type : TransportProtocol) (ch : P2PTransportChannel) : P2PTransportChannel :=
  { ch with protocolType := type }.setPorts ({ · with iceProtocol := type })

/-- `Allocate`. The signaling that is requested comes back as `OnSignalingReady`. -/
def allocate : P2PTransportChannel := { ch with waitingForSignaling := true }

/-- `SetIceCredentials`. -/
def setIceCredentials (iceUfrag icePwd : String) (ch : P2PTransportChannel) : P2PTransportChannel :=
  let iceRestart := ch.iceUfrag ≠ "" ∧ ch.icePwd ≠ "" ∧ (ch.iceUfrag ≠ iceUfrag ∨ ch.icePwd ≠ icePwd)
  let ch := { ch with iceUfrag, icePwd }
  if iceRestart then ch.allocate else ch

/-- `SetRemoteIceCredentials`. -/
def setRemoteIceCredentials (iceUfrag icePwd : String) (ch : P2PTransportChannel) : P2PTransportChannel :=
  let iceRestart := ch.remoteIceUfrag ≠ "" ∧ ch.remoteIcePwd ≠ "" ∧
    (ch.remoteIceUfrag ≠ iceUfrag ∨ ch.remoteIcePwd ≠ icePwd)
  let ch := { ch with remoteIceUfrag := iceUfrag, remoteIcePwd := icePwd }
  if iceRestart then { ch with remoteCandidateGeneration := ch.remoteCandidateGeneration + 1 } else ch

/-- `SetRemoteIceMode`. -/
def setRemoteIceMode (mode : IceMode) (ch : P2PTransportChannel) : P2PTransportChannel :=
  { ch with remoteIceMode := mode }

/-- `Connect`. -/
def connect : P2PTransportChannel :=
  if ch.iceUfrag = "" ∨ ch.icePwd = "" then ch else ch.allocate

/-! ### Connections change -/

/-- `RequestSort`. -/
def requestSort : P2PTransportChannel :=
  { ch with sortDirty := true, sorts := if ch.sortDirty then ch.sorts else ch.sorts + 1 }

/-- Something happens to a connection. If one of its states changes, `OnConnectionStateChange` is called. -/
def withConnection (conn : ℕ) (f : Connection → Connection) (ch : P2PTransportChannel) :
    P2PTransportChannel :=
  let old := ch.connectionAt conn
  let ch := { ch with connectionAt := Function.update ch.connectionAt conn (f old) }
  if (f old).readState ≠ old.readState ∨ (f old).writeState ≠ old.writeState then ch.requestSort else ch

variable (now : UInt32)

/-- `UpdateConnectionStates`. -/
def updateConnectionStates (ch : P2PTransportChannel) : P2PTransportChannel :=
  ch.connections.foldl (fun ch conn => ch.withConnection conn (·.updateState now)) ch

/-- `SwitchBestConnectionTo`. -/
def switchBestConnectionTo (conn : Option ℕ) (ch : P2PTransportChannel) :
    P2PTransportChannel :=
  let ch := { ch with bestConnection := conn }
  match conn with
  | none => ch
  | some best =>
    if (ch.connectionAt best).remoteIceMode = .lite then
      ch.withConnection best fun c => { c with useCandidateAttr := true }.ping now
    else ch

/-! ### Sorting -/

/-- `ShouldSwitch`. -/
def shouldSwitch (a b : Option ℕ) (ch : P2PTransportChannel) : Bool :=
  if a = b then false
  else
    match a, b with
    | some a, some b => P2p.shouldSwitch (ch.pair a) (ch.pair b)
    | _, _ => true

/-- `std::stable_sort`, by `ConnectionCompare`. -/
def stableSort : P2PTransportChannel :=
  { ch with
    connections := ch.connections.insertionSort fun a b => ¬connectionCompare (ch.pair b) (ch.pair a) }

/-- `GetBestConnectionOnNetwork`. -/
def getBestConnectionOnNetwork (network : ℕ) (ch : P2PTransportChannel) : Option ℕ :=
  let topMost := ch.connections.find? (ch.network · = network)
  match ch.bestConnection with
  | none => topMost
  | some best => if ch.network best = network then some best else topMost

/-- Prunes the connections on a network that the best connection on it makes superfluous. -/
def pruneNetwork (network : ℕ) : P2PTransportChannel :=
  match ch.getBestConnectionOnNetwork network with
  | none => ch
  | some primier =>
    if (ch.connectionAt primier).writeState ≠ .writable then ch
    else
      ch.connections.foldl (fun ch conn =>
        if conn ≠ primier ∧ ch.network conn = network ∧
            compareConnectionCandidates (ch.pair primier) (ch.pair conn) ≥ 0 then
          ch.withConnection conn (·.prune)
        else ch) ch

/-- `HandleWritable`. -/
def handleWritable : P2PTransportChannel :=
  let ch := if ch.writable then ch else
    { ch with allocatorSessions := ch.allocatorSessions.map fun _ => false }
  { ch with wasWritable := true, writable := true }

/-- `HandleNotWritable`. -/
def handleNotWritable : P2PTransportChannel :=
  if ch.wasWritable then { ch with wasWritable := false, writable := false } else ch

/-- `HandleAllTimedOut`. -/
def handleAllTimedOut : P2PTransportChannel := ch.handleNotWritable

/-- `UpdateChannelState`, without its assertion. -/
def updateChannelState : P2PTransportChannel :=
  { ch with readable := ch.connections.any fun conn => (ch.connectionAt conn).readState = .readable }

/-- The networks of the connections, in the order of a `std::set`. -/
def networks : List ℕ := (ch.connections.map ch.network).dedup.insertionSort (· ≤ ·)

/-- The part of `SortConnections` that picks the best connection. -/
def pickBest (ch : P2PTransportChannel) : P2PTransportChannel :=
  let top := ch.connections.head?
  if ch.shouldSwitch ch.bestConnection top then ch.switchBestConnectionTo now top else ch

/-- The part of `SortConnections` that counts the connections by their states. -/
def handleStates : P2PTransportChannel :=
  let count (p : WriteState → Bool) : ℕ := ch.connections.countP fun conn => p (ch.connectionAt conn).writeState
  if count (· = .writable) > 0 then ch.handleWritable
  else if count (fun w => w = .unreliable ∨ w = .init) > 0 then ch.handleNotWritable
  else ch.handleAllTimedOut

/-- A `MSG_SORT` is taken from the queue. -/
def takeSort : P2PTransportChannel := { ch with sorts := ch.sorts - 1 }

/-- `SortConnections`. -/
def sortConnections (ch : P2PTransportChannel) : P2PTransportChannel :=
  let ch := { ch.updateConnectionStates now with sortDirty := false }
  let networks := ch.networks
  let ch := ch.stableSort.pickBest now
  (networks.foldl pruneNetwork ch).handleStates.updateChannelState

/-! ### Making connections -/

variable (port : ℕ)

/-- `Port::GetConnection`. -/
def getConnection (address : SocketAddress) (ch : P2PTransportChannel) : Option ℕ :=
  ch.connections.find? fun conn =>
    (ch.connectionAt conn).port = port ∧ (ch.connectionAt conn).remoteCandidate.address = address

/-- `GetOrigin`. -/
def getOrigin (originPort : Option ℕ) : CandidateOrigin :=
  match originPort with
  | none => .message
  | some origin => if port = origin then .thisPort else .otherPort

/-- A connection is added to the list. -/
def addConnection (remoteCandidate : Candidate) (localPriority : UInt32)
    (ch : P2PTransportChannel) : P2PTransportChannel :=
  let connection : Connection :=
    { port, localPriority, remoteCandidate
      remoteIceMode := ch.remoteIceMode
      useCandidateAttr := ch.remoteIceMode = .full }
  { ch with
    connectionCount := ch.connectionCount + 1
    connectionAt := Function.update ch.connectionAt ch.connectionCount connection
    connections := ch.connections ++ [ch.connectionCount] }

/-- A connection that is made in response to a ping is readable. -/
def markReadable (readable : Bool) (conn : ℕ) (ch : P2PTransportChannel) : P2PTransportChannel :=
  if readable then ch.withConnection conn (·.receivedPing now) else ch

/-- `P2PTransportChannel::CreateConnection`. -/
def createConnection (port : ℕ) (remoteCandidate : Candidate) (originPort : Option ℕ)
    (readable : Bool) (ch : P2PTransportChannel) : P2PTransportChannel × Bool :=
  match ch.getConnection port remoteCandidate.address with
  | some conn =>
    if remoteCandidate.isEquivalent (ch.connectionAt conn).remoteCandidate then
      (ch.markReadable now readable conn, true)
    else (ch, false)
  | none =>
    let origin := getOrigin port originPort
    if origin = .message ∧ ch.incomingOnly then (ch, false)
    else
      match (ch.portAt port).creates remoteCandidate origin with
      | none => (ch, false)
      | some localPriority =>
        ((ch.addConnection port remoteCandidate localPriority).markReadable now readable ch.connectionCount, true)

variable (c : Candidate)

/-- `GetRemoteCandidateGeneration`. -/
def getRemoteCandidateGeneration (ch : P2PTransportChannel) : UInt32 :=
  if ch.protocolType = .google then c.generation else ch.remoteCandidateGeneration

/-- `RememberRemoteCandidate`. -/
def rememberRemoteCandidate (originPort : Option ℕ) (ch : P2PTransportChannel) :
    P2PTransportChannel :=
  let kept := ch.remoteCandidates.filter fun r => ¬r.1.generation < c.generation
  { ch with
    remoteCandidates := if kept.any (·.1.isEquivalent c) then kept else kept ++ [(c, originPort)] }

/-- The candidate that `CreateConnections` goes on with. -/
def completeCandidate (ch : P2PTransportChannel) : Candidate :=
  { c with
    generation := ch.getRemoteCandidateGeneration c
    username := if c.username = "" then ch.remoteIceUfrag else c.username
    password := if c.password = "" then ch.remoteIcePwd else c.password }

/-- The ports that `CreateConnections` goes through: those in the list, from the last one on, and the port that the
candidate comes from. -/
def portsFor (originPort : Option ℕ) (ch : P2PTransportChannel) : List ℕ :=
  ch.ports.reverse ++ originPort.toList.filter (· ∉ ch.ports)

/-- `CreateConnections`. -/
def createConnections (remoteCandidate : Candidate) (originPort : Option ℕ) (readable : Bool)
    (ch : P2PTransportChannel) : P2PTransportChannel × Bool :=
  let c := ch.completeCandidate remoteCandidate
  let acc := (ch.portsFor originPort).foldl (fun (acc : P2PTransportChannel × Bool) port =>
    let (ch, made) := acc.1.createConnection now port c originPort readable
    (ch, acc.2 || (made && some port = originPort))) (ch, false)
  (acc.1.rememberRemoteCandidate c originPort, acc.2)

/-- `OnCandidate`. -/
def onCandidate (c : Candidate) (ch : P2PTransportChannel) : P2PTransportChannel :=
  (ch.createConnections now c none false).1.sortConnections now

/-! ### Ports -/

/-- `AddAllocatorSession`. -/
def addAllocatorSession : P2PTransportChannel :=
  { ch with allocatorSessions := ch.allocatorSessions ++ [true], ports := [] }

/-- `OnSignalingReady`. -/
def onSignalingReady : P2PTransportChannel :=
  if ch.waitingForSignaling then { ch with waitingForSignaling := false }.addAllocatorSession else ch

/-- A port that is ready is told what the channel knows and added to the list. -/
def addPort (port : Port) (ch : P2PTransportChannel) : P2PTransportChannel :=
  let port := { port with
    iceProtocol := ch.protocolType, role := ch.role, tiebreaker := ch.tiebreaker, destroyed := false }
  { ch with
    portCount := ch.portCount + 1
    portAt := Function.update ch.portAt ch.portCount port
    ports := ch.ports ++ [ch.portCount] }

/-- The port is connected to the remote candidates that there are. -/
def connectPort (port : ℕ) (ch : P2PTransportChannel) : P2PTransportChannel :=
  ch.remoteCandidates.foldl (fun ch r => (ch.createConnection now port r.1 r.2 false).1) ch

/-- `OnPortReady`. -/
def onPortReady (port : Port) (ch : P2PTransportChannel) : P2PTransportChannel :=
  ((ch.addPort port).connectPort now ch.portCount).sortConnections now

/-- `OnPortDestroyed`. -/
def onPortDestroyed (ch : P2PTransportChannel) : P2PTransportChannel :=
  { ch with
    ports := ch.ports.erase port
    portAt := Function.update ch.portAt port { ch.portAt port with destroyed := true } }

/-- The remote candidate that `OnUnknownAddress` finds for a ping, and the password of its user name:
nothing if the user name is not known. -/
def findRemoteCandidate (address : SocketAddress) (protocol remoteUsername : String)
    (ch : P2PTransportChannel) : Option (Option Candidate × Bool × String) :=
  let candidates := ch.remoteCandidates.map Prod.fst
  let ufragPerPort := candidates.any fun c => some c.username ≠ candidates.head?.map Candidate.username
  let known := candidates.filter (·.username = remoteUsername)
  match known.head? with
  | none => none
  | some first =>
    let matching := known.find? fun c => ufragPerPort ∨ (c.address = address ∧ c.protocol = protocol)
    -- the password is that of the last candidate looked at
    let password :=
      match matching with
      | some c => c.password
      | none => (known.getLastD first).password
    some (matching, ufragPerPort, password)

/-- The remote candidate for a ping from an address without a connection; `fresh` has what is made up if there
is none. -/
def peerCandidate (address : SocketAddress) (protocol remoteUsername : String) (fresh : Candidate)
    (ch : P2PTransportChannel) : Option Candidate :=
  (ch.findRemoteCandidate address protocol remoteUsername).map fun (matching, ufragPerPort, password) =>
    match matching with
    | some c => if ufragPerPort then { c with address } else c
    | none =>
      { fresh with
        component := ch.component, protocol, address
        username := remoteUsername, password
        type := if (ch.portAt port).type = "relay" ∨ (ch.portAt port).sharedSocket then "stun"
          else (ch.portAt port).type
        networkName := (ch.portAt port).networkName
        generation := 0
        relatedAddress := ⟨.unspec, 0⟩ }

/-- `OnUnknownAddress`, for a candidate that is found or made. -/
def onPeerCandidate (port : ℕ) (c : Candidate) (ch : P2PTransportChannel) :
    P2PTransportChannel :=
  let acc := ch.createConnections now c (some port) true
  if acc.2 then acc.1.sortConnections now else acc.1

/-- `OnUnknownAddress`. -/
def onUnknownAddress (port : ℕ) (address : SocketAddress) (protocol remoteUsername : String)
    (fresh : Candidate) (ch : P2PTransportChannel) : P2PTransportChannel :=
  match ch.peerCandidate port address protocol remoteUsername fresh with
  | none => ch
  | some c => ch.onPeerCandidate now port c

/-! ### Pings and messages -/

/-- `IsPingable`. -/
def isPingable (conn : ℕ) (ch : P2PTransportChannel) : Bool :=
  let c := ch.connectionAt conn
  if c.connected = false then false
  else if ch.writable then c.writeState ≠ .timeout
  else c.writeState ≠ .timeout ∨ c.readState ≠ .timeout

/-- In milliseconds. -/
def MAX_CURRENT_WRITABLE_DELAY : UInt32 := 900

/-- The connection that was pinged least recently, of those that can be pinged; a time of `0xFFFFFFFF` is none. -/
def oldestPingable : Option ℕ :=
  (ch.connections.foldl (fun (acc : Option ℕ × UInt32) conn =>
    if ch.isPingable conn ∧ (ch.connectionAt conn).lastPingSent < acc.2 then
      (some conn, (ch.connectionAt conn).lastPingSent)
    else acc) (none, 0xFFFFFFFF)).1

/-- `FindNextPingableConnection`. -/
def findNextPingableConnection (ch : P2PTransportChannel) : Option ℕ :=
  match ch.bestConnection with
  | none => ch.oldestPingable
  | some best =>
    if (ch.connectionAt best).writeState = .writable ∧
        (ch.connectionAt best).lastPingSent + MAX_CURRENT_WRITABLE_DELAY ≤ now then
      some best
    else ch.oldestPingable

/-- `OnPing`. -/
def onPing (ch : P2PTransportChannel) : P2PTransportChannel :=
  let ch := ch.updateConnectionStates now
  match ch.findNextPingableConnection now with
  | none => ch
  | some conn => ch.withConnection conn (·.ping now)

/-- `OnUseCandidate`. -/
def onUseCandidate (conn : ℕ) (ch : P2PTransportChannel) : P2PTransportChannel :=
  if (ch.connectionAt conn).state = .succeeded then ch.switchBestConnectionTo now (some conn) else ch

/-- `Connection::OnReadPacket`, of a ping without a role conflict. -/
def onConnectionPing (conn : ℕ) (useCandidate : Bool) (ch : P2PTransportChannel) :
    P2PTransportChannel :=
  let ch := ch.withConnection conn (·.onPing now)
  let port := (ch.pair conn).port
  if port.iceProtocol = .rfc5245 ∧ port.role = .controlled ∧ useCandidate then ch.onUseCandidate now conn
  else ch

/-- `Connection::OnReadPacket`, of an indication. -/
def onConnectionIndication (conn : ℕ) (ch : P2PTransportChannel) : P2PTransportChannel :=
  if (ch.pair conn).port.iceProtocol = .rfc5245 ∧ (ch.connectionAt conn).readState = .readable then
    ch.withConnection conn (·.receivedPing now)
  else ch

/-- `OnConnectionDestroyed`. -/
def onConnectionDestroyed (conn : ℕ) (ch : P2PTransportChannel) : P2PTransportChannel :=
  let ch := { ch with connections := ch.connections.erase conn }
  if ch.bestConnection = some conn then (ch.switchBestConnectionTo now none).requestSort else ch

/-- `Reset`. The ports go with the allocators, and the connections with the ports. -/
def reset (connectRequested : Bool) (ch : P2PTransportChannel) : P2PTransportChannel :=
  let ch := { ch with
    allocatorSessions := []
    portAt := fun p => { ch.portAt p with destroyed := true }
    ports := []
    connections := []
    bestConnection := none
    remoteCandidates := []
    readable := false
    writable := false
    waitingForSignaling := false
    sortDirty := false
    sorts := 0 }
  if connectRequested then ch.allocate else ch

end P2PTransportChannel

/-- What comes to a channel. -/
inductive ChannelOp
  | setRole (role : TransportRole)
  | setTiebreaker (tiebreaker : UInt64)
  | setIceProtocolType (type : TransportProtocol)
  | setIceCredentials (iceUfrag icePwd : String)
  | setRemoteIceCredentials (iceUfrag icePwd : String)
  | setRemoteIceMode (mode : IceMode)
  | connect
  | reset (connectRequested : Bool)
  | signalingReady
  | portReady (now : UInt32) (port : Port)
  | portDestroyed (port : ℕ)
  | unknownAddress (now : UInt32) (port : ℕ) (address : SocketAddress) (protocol remoteUsername : String)
      (fresh : Candidate)
  | candidate (now : UInt32) (c : Candidate)
  | sort (now : UInt32)
  | ping (now : UInt32)
  | connectionData (now : UInt32) (conn : ℕ)
  | connectionPing (now : UInt32) (conn : ℕ) (useCandidate : Bool)
  | connectionIndication (now : UInt32) (conn : ℕ)
  | connectionResponse (now elapsed : UInt32) (conn : ℕ)
  | connectionFailed (conn : ℕ)
  /-- A request times out, or is answered by an error that is not final. -/
  | connectionRetry (conn : ℕ)
  /-- A socket connects or closes. -/
  | connectionConnected (conn : ℕ) (connected : Bool)
  | connectionDestroyed (now : UInt32) (conn : ℕ)

namespace P2PTransportChannel

/-- One operation. A port sends and receives until it is destroyed, for which it has no connections; a
connection is there until its deletion. -/
def step (ch : P2PTransportChannel) : ChannelOp → Option P2PTransportChannel
  | .setRole role => some (ch.setRole role)
  | .setTiebreaker tiebreaker => some (ch.setTiebreaker tiebreaker)
  | .setIceProtocolType type => some (ch.setIceProtocolType type)
  | .setIceCredentials iceUfrag icePwd => some (ch.setIceCredentials iceUfrag icePwd)
  | .setRemoteIceCredentials iceUfrag icePwd => some (ch.setRemoteIceCredentials iceUfrag icePwd)
  | .setRemoteIceMode mode => some (ch.setRemoteIceMode mode)
  | .connect => some ch.connect
  | .reset connectRequested => some (ch.reset connectRequested)
  | .signalingReady => some ch.onSignalingReady
  | .portReady now port => if ch.allocatorSessions = [] then none else some (ch.onPortReady now port)
  | .portDestroyed port =>
    if port < ch.portCount ∧ (ch.portAt port).destroyed = false ∧
        ∀ conn ∈ ch.connections, (ch.connectionAt conn).port ≠ port then
      some (ch.onPortDestroyed port)
    else none
  | .unknownAddress now port address protocol remoteUsername fresh =>
    if port < ch.portCount ∧ (ch.portAt port).destroyed = false ∧ ch.getConnection port address = none then
      some (ch.onUnknownAddress now port address protocol remoteUsername fresh)
    else none
  | .candidate now c => some (ch.onCandidate now c)
  | .sort now => if 0 < ch.sorts then some (ch.takeSort.sortConnections now) else none
  | .ping now => some (ch.onPing now)
  | .connectionData now conn =>
    if conn ∈ ch.connections then some (ch.withConnection conn (·.onData now)) else none
  | .connectionPing now conn useCandidate =>
    if conn ∈ ch.connections then some (ch.onConnectionPing now conn useCandidate) else none
  | .connectionIndication now conn =>
    if conn ∈ ch.connections then some (ch.onConnectionIndication now conn) else none
  | .connectionResponse now elapsed conn =>
    if conn ∈ ch.connections ∧ 0 < (ch.connectionAt conn).requests then
      some (ch.withConnection conn (·.onRequestResponse now elapsed))
    else none
  | .connectionFailed conn =>
    if conn ∈ ch.connections ∧ 0 < (ch.connectionAt conn).requests then
      some (ch.withConnection conn (·.onRequestFailed))
    else none
  | .connectionRetry conn =>
    if conn ∈ ch.connections ∧ 0 < (ch.connectionAt conn).requests then
      some (ch.withConnection conn (·.requestOver))
    else none
  | .connectionConnected conn connected =>
    if conn ∈ ch.connections then some (ch.withConnection conn ({ · with connected })) else none
  | .connectionDestroyed now conn =>
    if conn ∈ ch.connections ∧ (ch.connectionAt conn).deletePosted then
      some (ch.onConnectionDestroyed now conn)
    else none

end P2PTransportChannel

end Synciga.P2p
