import Synciga.Internal.Runs
import Synciga.Stun.Message

/-!
# `cricket::BasicPortAllocatorSession`

For every network an `AllocationSequence` performs phases in steps, one second apart
(`talk/p2p/client/basicportallocator.cc`), and the session signals when all sequences and ports are done. What
comes of the attempt to make a port is up to the environment. Candidates are left out, as is the shared socket
of a sequence: they have no part in when the allocation is done.

## Main definitions

* `AllocationSequence`, `AllocatorSession` — a sequence and the session
* `AllocatorSession.step` — what can happen
-/

namespace Synciga

/-- `AllocationSequence::State`. -/
inductive SequenceState
  | init
  | running
  | stopped
  | completed
  deriving DecidableEq, Repr

/-- `PHASE_UDP` and so on. -/
inductive AllocationPhase
  | udp
  | relay
  | tcp
  | sslTcp
  deriving DecidableEq, Repr

namespace AllocationPhase

/-- The number of a phase. -/
def index : AllocationPhase → Nat
  | udp => 0
  | relay => 1
  | tcp => 2
  | sslTcp => 3

/-- All of them, `kNumPhases` in number. -/
def all : List AllocationPhase := [udp, relay, tcp, sslTcp]

end AllocationPhase

/-- The flags of an allocator that matter here. -/
structure AllocatorFlags where
  disableUdp : Bool
  disableStun : Bool
  disableRelay : Bool
  disableTcp : Bool
  enableIpv6 : Bool
  enableSharedUfrag : Bool
  enableSharedSocket : Bool
  deriving DecidableEq, Repr

/-- Whether `DISABLE_ALL_PHASES` are set. -/
def AllocatorFlags.disableAllPhases (flags : AllocatorFlags) : Bool :=
  flags.disableUdp && flags.disableTcp && flags.disableStun && flags.disableRelay

/-- `talk_base::Network`: which one it is, and its address. -/
structure AllocatorNetwork where
  id : Nat
  ip : IPAddress
  deriving DecidableEq, Repr

/-- The address of a server, with its name. -/
structure ServerAddress where
  hostname : String
  address : SocketAddress
  deriving DecidableEq, Repr

/-- `SocketAddress::IsNil`. -/
def ServerAddress.isNil (server : ServerAddress) : Bool :=
  server.hostname.isEmpty && server.address.ip = .unspec && server.address.port = 0

/-- `RelayServerConfig`: its type, and for each of its ports whether the protocol is UDP. -/
inductive RelayServerConfig
  | gturn
  | turn (udp : List Bool)
  deriving DecidableEq, Repr

/-- The class `PortConfiguration`. -/
structure PortConfiguration where
  stunAddress : ServerAddress
  relays : List RelayServerConfig
  deriving DecidableEq, Repr

/-- Where a port comes from. -/
inductive PortSource
  | udp
  | stun
  | tcp
  | gturn (relay : Nat)
  | turn (relay port : Nat)
  deriving DecidableEq, Repr

/-- What comes of it: `Create` fails, or the port is or is not done at once. -/
inductive PortOutcome
  | notCreated
  | pending
  | ready
  | error
  deriving DecidableEq, Repr

/-- What comes of the attempts to make ports. -/
abbrev Creation := PortSource → PortOutcome

/-- `PortData::State`. -/
inductive PortDataState
  | init
  | ready
  | error
  deriving DecidableEq, Repr

/-- A port with its state. -/
structure PortData where
  port : Nat
  state : PortDataState
  deriving DecidableEq, Repr

/-- `PortData::complete`. -/
def PortData.complete (data : PortData) : Bool := data.state = .ready || data.state = .error

/-- `AllocationSequence`, with the phases that it performed and the number of its messages that are
pending. -/
structure AllocationSequence where
  network : AllocatorNetwork
  /-- The address of the network when the sequence was made. -/
  ip : IPAddress
  config : Option PortConfiguration
  state : SequenceState
  step : Nat
  /-- `last_phase_in_step_zero`. -/
  lastPhaseInStepZero : Nat
  flags : AllocatorFlags
  performed : List AllocationPhase
  /-- `MSG_ALLOCATION_PHASE`. -/
  timers : Nat
  deriving DecidableEq, Repr

namespace AllocationSequence

/-- `AllocationSequence(session, network, config, flags)`, with the best writable phase of the allocator. -/
def new (network : AllocatorNetwork) (config : Option PortConfiguration) (flags : AllocatorFlags) (best : Int) :
    AllocationSequence :=
  ⟨network, network.ip, config, .init, 0, (max 0 best).toNat, flags, [], 0⟩

variable (q : AllocationSequence)

/-- The step in which a phase is performed. -/
def stepOfPhase (phase : AllocationPhase) : Nat := phase.index - q.lastPhaseInStepZero

/-- `Start`. -/
def start : AllocationSequence := { q with state := .running, timers := q.timers + 1 }

/-- `Stop`. -/
def stop : AllocationSequence :=
  if q.state = .running then { q with state := .stopped, timers := 0 } else q

/-- `BasicPortAllocatorSession::DisableEquivalentPhases`. -/
def disableEquivalentPhases (network : AllocatorNetwork)
    (config : Option PortConfiguration) (flags : AllocatorFlags) : AllocatorFlags :=
  if network.id = q.network.id ∧ q.ip = network.ip then
    let flags := { flags with disableUdp := true, disableTcp := true }
    match q.config, config with
    | some own, some config =>
      let flags :=
        if own.stunAddress.address = config.stunAddress.address then { flags with disableStun := true } else flags
      if own.relays ≠ [] then { flags with disableRelay := true } else flags
    | _, _ => flags
  else flags

/-- The configuration has a STUN server. -/
def hasStun : Bool := q.config.any fun config => !config.stunAddress.isNil

end AllocationSequence

/-- The signals of the session. -/
inductive AllocationEvent
  | portReady (port : Nat)
  /-- `SignalCandidatesAllocationDone`. -/
  | allocationDone
  deriving DecidableEq, Repr

/-- `BasicPortAllocatorSession`, with the messages that are pending and what was signalled. -/
structure AllocatorSession where
  flags : AllocatorFlags
  stunAddress : ServerAddress
  relays : List RelayServerConfig
  /-- `best_writable_phase` of the allocator. -/
  best : Int
  /-- What the network manager knows. -/
  networks : List AllocatorNetwork
  networkManagerStarted : Bool
  allocationStarted : Bool
  running : Bool
  allocationSequencesCreated : Bool
  configs : List PortConfiguration
  sequences : List AllocationSequence
  ports : List PortData
  nextPort : Nat
  /-- `MSG_CONFIG_START`. -/
  configStart : Nat
  /-- `MSG_CONFIG_READY`. -/
  configReady : List PortConfiguration
  /-- `MSG_ALLOCATE`. -/
  allocates : Nat
  /-- `MSG_SEQUENCEOBJECTS_CREATED`. -/
  sequencesCreated : Nat
  /-- `MSG_CONFIG_STOP`. -/
  configStop : Nat
  trace : List AllocationEvent
  deriving DecidableEq, Repr

namespace AllocatorSession

/-- `BasicPortAllocatorSession(allocator, ...)`. -/
def create (flags : AllocatorFlags) (stunAddress : ServerAddress) (relays : List RelayServerConfig) (best : Int) :
    AllocatorSession :=
  ⟨flags, stunAddress, relays, best, [], false, false, false, false, [], [], [], 0, 0, [], 0, 0, 0, []⟩

/-! ### The signals of ports -/

variable (s : AllocatorSession)

/-- `BasicPortAllocatorSession::MaybeSignalCandidatesAllocationDone`. -/
def maybeSignalCandidatesAllocationDone : AllocatorSession :=
  if s.allocationSequencesCreated = false then s
  else if s.sequences.any (·.state = .running) then s
  else if s.ports.any (!·.complete) then s
  else { s with trace := s.trace ++ [.allocationDone] }

/-- `BasicPortAllocatorSession::FindPort`. -/
def findPort (port : Nat) : Option PortData := s.ports.find? (·.port = port)

variable (port : Nat)

/-- The state of a port is set. -/
def setPort (state : PortDataState) (s : AllocatorSession) : AllocatorSession :=
  { s with ports := s.ports.map fun data => if data.port = port then { data with state } else data }

/-- `BasicPortAllocatorSession::OnPortReady`. -/
def onPortReady (s : AllocatorSession) : AllocatorSession :=
  match s.findPort port with
  | none => s
  | some data =>
    if data.complete then s
    else
      let s := s.setPort port .ready
      maybeSignalCandidatesAllocationDone { s with trace := s.trace ++ [.portReady port] }

/-- `BasicPortAllocatorSession::OnAddressError`. -/
def onAddressError (s : AllocatorSession) : AllocatorSession :=
  match s.findPort port with
  | none => s
  | some data =>
    if data.complete then s else (s.setPort port .error).maybeSignalCandidatesAllocationDone

/-- `BasicPortAllocatorSession::OnPortDestroyed`. -/
def onPortDestroyed (s : AllocatorSession) : AllocatorSession :=
  { s with ports := s.ports.eraseP (·.port = port) }

/-! ### The phases of a sequence -/

/-- `AddAllocatedPort`, up to the end of `PrepareAddress`. -/
def addAllocatedPort (outcome : PortOutcome) (s : AllocatorSession) : AllocatorSession :=
  let added := { s with ports := s.ports ++ [⟨s.nextPort, .init⟩], nextPort := s.nextPort + 1 }
  match outcome with
  | .notCreated => s
  | .pending => added
  | .ready => added.onPortReady s.nextPort
  | .error => added.onAddressError s.nextPort

variable (creates : Creation)

/-- `CreateUDPPorts`. With a shared socket the port needs the STUN server. -/
def createUDPPorts (q : AllocationSequence) (s : AllocatorSession) : AllocatorSession :=
  if q.flags.disableUdp then s
  else if q.flags.enableSharedSocket && !q.flags.disableStun && !q.hasStun then s
  else s.addAllocatedPort (creates .udp)

/-- `AllocationSequence::CreateTCPPorts`. -/
def createTCPPorts (q : AllocationSequence) (s : AllocatorSession) : AllocatorSession :=
  if q.flags.disableTcp then s else s.addAllocatedPort (creates .tcp)

/-- `AllocationSequence::CreateStunPorts`. -/
def createStunPorts (q : AllocationSequence) (s : AllocatorSession) : AllocatorSession :=
  if q.flags.disableStun then s
  else if q.flags.enableSharedSocket then s
  else if !q.hasStun then s
  else s.addAllocatedPort (creates .stun)

/-- `CreateGturnPort` and `CreateTurnPort`, for the relay with this number. -/
def createRelayPort (s : AllocatorSession) (relay : RelayServerConfig × Nat) :
    AllocatorSession :=
  match relay with
  | (.gturn, i) => s.addAllocatedPort (creates (.gturn i))
  | (.turn udp, i) =>
    udp.zipIdx.foldl (fun s port => if port.1 then s.addAllocatedPort (creates (.turn i port.2)) else s) s

/-- `AllocationSequence::CreateRelayPorts`. -/
def createRelayPorts (q : AllocationSequence) (s : AllocatorSession) : AllocatorSession :=
  if q.flags.disableRelay then s
  else match q.config with
    | none => s
    | some config => config.relays.zipIdx.foldl (createRelayPort creates) s

/-- The sequence, where it stands in the list of the session. While it is initialized, it does not stand
there. -/
def put (place : Option Nat) (q : AllocationSequence) (s : AllocatorSession) : AllocatorSession :=
  match place with
  | none => s
  | some i => { s with sequences := s.sequences.set i q }

/-- A phase is performed. `SignalPortAllocationComplete` is connected once the sequence is initialized. -/
def performPhase (place : Option Nat) (state : AllocationSequence × AllocatorSession)
    (phase : AllocationPhase) : AllocationSequence × AllocatorSession :=
  let (q, s) := state
  let q := { q with performed := q.performed ++ [phase] }
  match phase with
  | .udp => (q, createStunPorts creates q (createUDPPorts creates q s))
  | .relay => (q, createRelayPorts creates q s)
  | .tcp => (q, createTCPPorts creates q s)
  | .sslTcp =>
    let q := { q with state := .completed, timers := 0 }
    let s := s.put place q
    (q, if place.isSome then s.maybeSignalCandidatesAllocationDone else s)

/-- One round of the loop in `OnMessage`. -/
def phaseRound (place : Option Nat) (state : AllocationSequence × AllocatorSession)
    (phase : AllocationPhase) : AllocationSequence × AllocatorSession :=
  if state.1.stepOfPhase phase = state.1.step then performPhase creates place state phase else state

/-- `AllocationSequence::OnMessage`. -/
def onPhase (place : Option Nat) (q : AllocationSequence) (s : AllocatorSession) :
    AllocationSequence × AllocatorSession :=
  let (q, s) := AllocationPhase.all.foldl (phaseRound creates place) (q, s)
  let q := { q with step := q.step + 1, timers := if q.state = .running then q.timers + 1 else q.timers }
  (q, s.put place q)

/-- `Init`. -/
def initSequence (q : AllocationSequence) (s : AllocatorSession) :
    Option (AllocationSequence × AllocatorSession) :=
  if q.flags.enableSharedSocket && !q.flags.enableSharedUfrag then none
  else some (onPhase creates none q s)

/-! ### The session -/

/-- The flags for a sequence on this network, if there is anything to do for it. Where the loop ends early, all
phases are disabled already. -/
def sequenceFlags (network : AllocatorNetwork) : Option AllocatorFlags :=
  let config := s.configs.getLast?
  let flags := s.flags
  let flags :=
    if config.any fun config => !config.stunAddress.isNil then flags else { flags with disableStun := true }
  let flags := if config.any fun config => config.relays ≠ [] then flags else { flags with disableRelay := true }
  let isIpv6 := match network.ip with
    | .ipv6 .. => true
    | _ => false
  if !flags.enableIpv6 && isIpv6 then none
  else
    let flags := s.sequences.foldl (fun flags q => q.disableEquivalentPhases network config flags) flags
    if flags.disableAllPhases then none else some flags

/-- One round of the loop in `DoAllocate`, with `done_signal_needed`. -/
def allocateRound (creates : Nat → Creation) (state : AllocatorSession × Bool) (network : AllocatorNetwork × Nat) :
    AllocatorSession × Bool :=
  let (s, needed) := state
  match s.sequenceFlags network.1 with
  | none => (s, needed)
  | some flags =>
    match initSequence (creates network.2) (.new network.1 s.configs.getLast? flags s.best) s with
    | none => (s, needed)
    | some (q, s) => ({ s with sequences := s.sequences ++ [if s.running then q.start else q] }, true)

/-- `BasicPortAllocatorSession::DoAllocate`. -/
def doAllocate (creates : Nat → Creation) (s : AllocatorSession) : AllocatorSession :=
  let (s, needed) :=
    if s.networks = [] ∨ s.flags.disableAllPhases then (s, true)
    else s.networks.zipIdx.foldl (allocateRound creates) (s, false)
  if needed then { s with sequencesCreated := s.sequencesCreated + 1 } else s

/-- `BasicPortAllocatorSession::GetInitialPorts`. -/
def getInitialPorts : AllocatorSession := { s with configStart := s.configStart + 1 }

/-- `BasicPortAllocatorSession::StartGetAllPorts`. -/
def startGetAllPorts : AllocatorSession :=
  { s with
    running := true
    allocates := if s.allocationStarted then s.allocates + 1 else s.allocates
    sequences := s.sequences.map (·.start) }

/-- `BasicPortAllocatorSession::StopGetAllPorts`. -/
def stopGetAllPorts : AllocatorSession :=
  { s with
    running := false
    allocates := 0
    sequences := s.sequences.map (·.stop)
    configStop := s.configStop + 1 }

/-- `BasicPortAllocatorSession::OnNetworksChanged`. -/
def onNetworksChanged (creates : Nat → Creation) (s : AllocatorSession) : AllocatorSession :=
  let s := { s with networkManagerStarted := true }
  if s.allocationStarted then s.doAllocate creates else s

/-- `GetPortConfigurations`, for `MSG_CONFIG_START`. -/
def onConfigStart : AllocatorSession :=
  { s with configStart := s.configStart - 1, configReady := s.configReady ++ [⟨s.stunAddress, s.relays⟩] }

/-- `OnConfigReady` and `AllocatePorts`. -/
def onConfigReady (config : PortConfiguration) (rest : List PortConfiguration) (s : AllocatorSession) :
    AllocatorSession :=
  { s with configReady := rest, configs := s.configs ++ [config], allocates := s.allocates + 1 }

/-- `BasicPortAllocatorSession::OnAllocate`. -/
def onAllocate (creates : Nat → Creation) (s : AllocatorSession) : AllocatorSession :=
  let s := { s with allocates := s.allocates - 1 }
  let s := if s.networkManagerStarted then s.doAllocate creates else s
  { s with allocationStarted := true, allocates := if s.running then s.allocates + 1 else s.allocates }

/-- `BasicPortAllocatorSession::OnAllocationSequenceObjectsCreated`. -/
def onAllocationSequenceObjectsCreated : AllocatorSession :=
  maybeSignalCandidatesAllocationDone
    { s with sequencesCreated := s.sequencesCreated - 1, allocationSequencesCreated := true }

/-- `BasicPortAllocatorSession::OnConfigStop`. -/
def onConfigStop : AllocatorSession :=
  let stopped := { s with
    configStop := s.configStop - 1
    ports := s.ports.map fun data => if data.complete then data else { data with state := .error } }
  if s.ports.any (!·.complete) || s.sequences.any (·.state = .stopped) then
    stopped.maybeSignalCandidatesAllocationDone
  else stopped

/-! ### All that can happen -/

/-- What the channel and the environment do, and the messages that are handled. -/
inductive AllocationOp
  | getInitialPorts
  | startGetAllPorts
  | stopGetAllPorts
  /-- The network manager finds other networks. -/
  | setNetworks (networks : List AllocatorNetwork)
  /-- Its signal. -/
  | networksChanged (creates : Nat → Creation)
  /-- The best writable phase of the allocator changes. -/
  | setBest (best : Int)
  | configStart
  | configReady
  | allocate (creates : Nat → Creation)
  | sequencesCreated
  | configStop
  /-- `MSG_ALLOCATION_PHASE` of a sequence. -/
  | phase (place : Nat) (creates : Creation)
  | portReady (port : Nat)
  | addressError (port : Nat)
  | portDestroyed (port : Nat)

/-- One thing happens, if it can. -/
def step : AllocationOp → Option AllocatorSession
  | .getInitialPorts => some s.getInitialPorts
  | .startGetAllPorts => some s.startGetAllPorts
  | .stopGetAllPorts => some s.stopGetAllPorts
  | .setNetworks networks => some { s with networks }
  | .networksChanged creates => some (s.onNetworksChanged creates)
  | .setBest best => some { s with best }
  | .configStart => if s.configStart = 0 then none else some s.onConfigStart
  | .configReady => match s.configReady with
    | [] => none
    | config :: rest => some (s.onConfigReady config rest)
  | .allocate creates => if s.allocates = 0 then none else some (s.onAllocate creates)
  | .sequencesCreated => if s.sequencesCreated = 0 then none else some s.onAllocationSequenceObjectsCreated
  | .configStop => if s.configStop = 0 then none else some s.onConfigStop
  | .phase place creates => match s.sequences[place]? with
    | none => none
    | some q =>
      if q.timers = 0 then none
      else some (onPhase creates (some place) { q with timers := q.timers - 1 } s).2
  | .portReady port => if (s.findPort port).isSome then some (s.onPortReady port) else none
  | .addressError port => if (s.findPort port).isSome then some (s.onAddressError port) else none
  | .portDestroyed port => if (s.findPort port).isSome then some (s.onPortDestroyed port) else none

end AllocatorSession

end Synciga
