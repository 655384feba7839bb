import Synciga.Stun.Message

/-!
# Connections

A connection (`talk/p2p/base/port.cc`) is a pair of a local port and a remote candidate. From the answers to its
pings it learns whether packets get through (`writeState`), and from those of the other side whether they come
in (`readState`). Times have 32 bits. A connection that neither reads nor writes posts a message that deletes
it.

## Main definitions

* `Connection` and its operations
* `connectionCompare`, `shouldSwitch` — which one is better (`talk/p2p/base/p2ptransportchannel.cc`)
-/

namespace Synciga.P2p

/-- `TransportRole`, of ICE. -/
inductive TransportRole
  | controlling
  | controlled
  | unknown
  deriving DecidableEq, Repr

/-- `TransportProtocol`, which is also `IceProtocolType`. -/
inductive TransportProtocol
  | google
  | hybrid
  | rfc5245
  deriving DecidableEq, Repr

/-- `IceMode`. -/
inductive IceMode
  | full
  | lite
  deriving DecidableEq, Repr

/-- The class `Candidate`. -/
structure Candidate where
  id : String
  component : ℤ
  protocol : String
  address : SocketAddress
  priority : UInt32
  username : String
  password : String
  type : String
  networkName : String
  generation : UInt32
  foundation : String
  relatedAddress : SocketAddress
  /-- The host name of the address. -/
  hostname : String := ""
  deriving DecidableEq, Repr

/-- `IPIsAny`. -/
def ipIsAny (ip : IPAddress) : Bool := ip = .ipv4 0 ∨ ip = .ipv6 0 0 0 0

/-- `IPIsLoopback`. -/
def ipIsLoopback (ip : IPAddress) : Bool := ip = .ipv4 0x7F000001 ∨ ip = .ipv6 0 0 0 1

/-- `IPIsPrivate`. -/
def ipIsPrivate : IPAddress → Bool
  | .unspec => false
  | .ipv4 ip => ip >>> 24 = 127 ∨ ip >>> 24 = 10 ∨ ip >>> 20 = 0xAC1 ∨ ip >>> 16 = 0xC0A8 ∨ ip >>> 16 = 0xA9FE
  | .ipv6 w₀ w₁ w₂ w₃ => w₀ >>> 16 = 0xFE80 ∨ ipIsLoopback (.ipv6 w₀ w₁ w₂ w₃)

/-- `IsEquivalent`: neither the name of the network nor the priority matters. Host names are compared only of
addresses that are any. -/
def Candidate.isEquivalent (c d : Candidate) : Bool :=
  { c with
    networkName := d.networkName
    priority := d.priority
    hostname := if ipIsAny d.address.ip then c.hostname else d.hostname } = d

/-- `CandidateOrigin`. -/
inductive CandidateOrigin
  | thisPort
  | otherPort
  | message
  deriving DecidableEq, Repr

/-- What a channel sees of a port. `creates` is what `CreateConnection` does: nothing, or a connection whose
local candidate has this priority. -/
structure Port where
  /-- `Network`, by its address. -/
  network : ℕ
  networkName : String
  type : String
  sharedSocket : Bool
  generation : UInt32
  creates : Candidate → CandidateOrigin → Option UInt32
  iceProtocol : TransportProtocol := .google
  role : TransportRole := .unknown
  tiebreaker : UInt64 := 0
  destroyed : Bool := false

/-- The enumeration `ReadState`. -/
inductive ReadState
  | init
  | readable
  | timeout
  deriving DecidableEq, Repr

/-- The enumeration `WriteState`. -/
inductive WriteState
  | writable
  | unreliable
  | init
  | timeout
  deriving DecidableEq, Repr

/-- The states are compared as numbers; better ones are lower. -/
def WriteState.value : WriteState → ℕ
  | writable => 0
  | unreliable => 1
  | init => 2
  | timeout => 3

theorem WriteState.value_injective : Function.Injective WriteState.value := by
  intro a b h
  cases a <;> cases b <;> first | rfl | cases h

/-- `Connection::State`. -/
inductive CheckState
  | waiting
  | inProgress
  | succeeded
  | failed
  deriving DecidableEq, Repr

/-! ### Times -/

/-- In milliseconds. -/
def CONNECTION_READ_TIMEOUT : UInt32 := 30 * 1000

/-- In milliseconds. -/
def CONNECTION_WRITE_TIMEOUT : UInt32 := 15 * 1000

/-- In milliseconds. -/
def CONNECTION_WRITE_CONNECT_TIMEOUT : UInt32 := 5 * 1000

/-- As many pings. -/
def CONNECTION_WRITE_CONNECT_FAILURES : ℕ := 5

/-- In milliseconds. -/
def MINIMUM_RTT : UInt32 := 100

/-- In milliseconds. -/
def MAXIMUM_RTT : UInt32 := 3000

/-- In milliseconds. -/
def DEFAULT_RTT : UInt32 := MAXIMUM_RTT

/-- `RTT_RATIO`, the weight of the old value. -/
def rttRatio : UInt32 := 3

/-- `TooManyFailures`. -/
def tooManyFailures (pings : List UInt32) (maximumFailures : ℕ) (rttEstimate now : UInt32) : Bool :=
  match pings[maximumFailures - 1]? with
  | none => false
  | some ping => ping + rttEstimate < now

/-- `TooLongWithoutResponse`. -/
def tooLongWithoutResponse (pings : List UInt32) (maximumTime now : UInt32) : Bool :=
  match pings.head? with
  | none => false
  | some ping => ping + maximumTime < now

/-- `ConservativeRTTEstimate`. -/
def conservativeRTTEstimate (rtt : UInt32) : UInt32 := max MINIMUM_RTT (min MAXIMUM_RTT (2 * rtt))

/-! ### Connections -/

/-- The class `Connection`. -/
structure Connection where
  /-- `port_`, by its number among the ports of the channel. -/
  port : ℕ
  /-- `local_candidate().priority()`. -/
  localPriority : UInt32
  remoteCandidate : Candidate
  readState : ReadState := .init
  writeState : WriteState := .init
  connected : Bool := true
  pruned : Bool := false
  useCandidateAttr : Bool := true
  remoteIceMode : IceMode := .full
  rtt : UInt32 := DEFAULT_RTT
  lastPingSent : UInt32 := 0
  lastPingReceived : UInt32 := 0
  lastDataReceived : UInt32 := 0
  pingsSinceLastResponse : List UInt32 := []
  state : CheckState := .waiting
  /-- The requests in `requests_`. -/
  requests : ℕ := 0
  /-- `MSG_DELETE` is posted. -/
  deletePosted : Bool := false

namespace Connection

variable (c : Connection)

/-- `CheckTimeout`. -/
def checkTimeout : Connection :=
  if (c.readState = .timeout ∨ c.readState = .init) ∧ c.writeState = .timeout then
    { c with deletePosted := true }
  else c

/-- `set_read_state`. -/
def setReadState (value : ReadState) (c : Connection) : Connection :=
  if value = c.readState then c else { c with readState := value }.checkTimeout

/-- `set_write_state`. -/
def setWriteState (value : WriteState) (c : Connection) : Connection :=
  if value = c.writeState then c else { c with writeState := value }.checkTimeout

/-- `Prune`. A connection is pruned once. -/
def prune : Connection :=
  if c.pruned then c else { c with pruned := true, requests := 0 }.setWriteState .timeout

variable (now : UInt32)

/-- `UpdateState`. -/
def updateState (c : Connection) : Connection :=
  let rtt := conservativeRTTEstimate c.rtt
  let c :=
    if c.readState = .readable ∧ c.lastPingReceived + CONNECTION_READ_TIMEOUT ≤ now ∧
        c.lastDataReceived + CONNECTION_READ_TIMEOUT ≤ now then
      c.setReadState .timeout
    else c
  let c :=
    if c.writeState = .writable ∧
        tooManyFailures c.pingsSinceLastResponse CONNECTION_WRITE_CONNECT_FAILURES rtt now ∧
        tooLongWithoutResponse c.pingsSinceLastResponse CONNECTION_WRITE_CONNECT_TIMEOUT now then
      c.setWriteState .unreliable
    else c
  if (c.writeState = .unreliable ∨ c.writeState = .init) ∧
      tooLongWithoutResponse c.pingsSinceLastResponse CONNECTION_WRITE_TIMEOUT now then
    c.setWriteState .timeout
  else c

/-- `Ping`, without the request that it sends. -/
def ping (c : Connection) : Connection :=
  { c with
    lastPingSent := now
    pingsSinceLastResponse := c.pingsSinceLastResponse ++ [now]
    requests := c.requests + 1
    state := .inProgress }

/-- A request is answered or times out. -/
def requestOver : Connection := { c with requests := c.requests - 1 }

/-- `ReceivedPing`. -/
def receivedPing (c : Connection) : Connection :=
  { c with lastPingReceived := now }.setReadState .readable

/-- The checks start again. -/
def revive : Connection :=
  if c.pruned = false ∧ c.writeState = .timeout then c.setWriteState .init else c

/-- `OnReadPacket`, of data. -/
def onData (c : Connection) : Connection :=
  if c.readState = .readable then { c with lastDataReceived := now }.revive else c

/-- `OnReadPacket`, of a ping that is answered. -/
def onPing (c : Connection) : Connection := (c.receivedPing now).revive

/-- `OnConnectionRequestResponse`, `elapsed` after the request. -/
def onRequestResponse (now elapsed : UInt32) (c : Connection) : Connection :=
  let c := { c.requestOver.setWriteState .writable with state := .succeeded }
  let c := if c.remoteIceMode = .lite then c.receivedPing now else c
  { c with
    pingsSinceLastResponse := []
    rtt := (rttRatio * c.rtt + elapsed) / (rttRatio + 1) }

/-- `OnConnectionRequestErrorResponse`, of an error that is final. -/
def onRequestFailed : Connection :=
  { c.requestOver with state := .failed }.setWriteState .timeout

end Connection

/-! ### Comparing connections -/

/-- A connection with its port. -/
structure Pair where
  port : Port
  connection : Connection

/-- `Connection::priority`. -/
def Pair.priority (p : Pair) : UInt64 :=
  let pair (g d : UInt32) : UInt64 :=
    (min g d).toUInt64 <<< 32 + (2 * max g d + if g > d then 1 else 0).toUInt64
  match p.port.role with
  | .unknown => 0
  | .controlling => pair p.connection.localPriority p.connection.remoteCandidate.priority
  | .controlled => pair p.connection.remoteCandidate.priority p.connection.localPriority

/-- The generation of a connection. -/
def Pair.generation (p : Pair) : UInt32 := p.connection.remoteCandidate.generation + p.port.generation

variable (a b : Pair)

/-- `CompareConnectionCandidates`. The difference of the generations is cast to a signed number. -/
def compareConnectionCandidates : ℤ :=
  if a.priority > b.priority then 1
  else if a.priority < b.priority then -1
  else (a.generation - b.generation).toInt32.toInt

/-- `CompareConnections`. -/
def compareConnections : ℤ :=
  if a.connection.writeState.value < b.connection.writeState.value then 1
  else if a.connection.writeState.value > b.connection.writeState.value then -1
  else compareConnectionCandidates a b

/-- `ConnectionCompare`: whether a connection goes in front of another one. -/
def connectionCompare : Bool :=
  let cmp := compareConnections a b
  if cmp > 0 then true
  else if cmp < 0 then false
  else a.connection.rtt < b.connection.rtt

/-- In milliseconds. -/
def kMinImprovement : ℕ := 10

/-- `ShouldSwitch`, of two connections that are not the same. -/
def shouldSwitch : Bool :=
  let prefsCmp := compareConnections a b
  if prefsCmp < 0 then true
  else if prefsCmp > 0 then false
  else b.connection.rtt.toNat ≤ a.connection.rtt.toNat + kMinImprovement

end Synciga.P2p
