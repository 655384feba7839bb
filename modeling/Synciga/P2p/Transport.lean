import Synciga.Internal.Runs
import Synciga.P2p.TransportChannel

/-!
# `Transport`

A transport (`talk/p2p/base/transport.cc`) holds the channels of one content, by their components. What it is
told is pushed to these, and a channel that is made later is told what the transport knows. The negotiation
takes protocol and mode from an offer and an answer. A description that is missing is a null pointer, and the
program stops.

## Main definitions

* `Transport`, `Transport.step` — a transport and its functions
-/

namespace Synciga.P2p

/-- `ContentAction`. -/
inductive ContentAction
  | offer
  | prAnswer
  | answer
  | update
  deriving DecidableEq, Repr

/-- Whether a description answers an offer. -/
def ContentAction.isAnswer (action : ContentAction) : Bool := action = .prAnswer ∨ action = .answer

/-- The namespace of Gingle. -/
def NS_GINGLE_P2P : String := "http://www.google.com/transport/p2p"

/-- The namespace of ICE. -/
def NS_JINGLE_ICE_UDP : String := "urn:xmpp:jingle:transports:ice-udp:1"

/-- The option for Google's ICE. -/
def ICE_OPTION_GICE : String := "google-ice"

/-- `TransportDescription`, without the fingerprint. -/
structure TransportDescription where
  transportType : String
  transportOptions : List String
  iceUfrag : String
  icePwd : String
  iceMode : IceMode
  candidates : List Candidate
  deriving DecidableEq, Repr

/-- `TransportProtocolFromDescription`. -/
def TransportDescription.protocol (desc : TransportDescription) : TransportProtocol :=
  if desc.transportType = NS_JINGLE_ICE_UDP then
    if ICE_OPTION_GICE ∈ desc.transportOptions then .hybrid else .rfc5245
  else .google

/-- A channel with its references. -/
structure ChannelMapEntry where
  channel : P2PTransportChannel
  ref : ℕ

/-- The entry with another channel. -/
def ChannelMapEntry.map (f : P2PTransportChannel → P2PTransportChannel) (e : ChannelMapEntry) :
    ChannelMapEntry :=
  { e with channel := f e.channel }

/-- A transport of one content. -/
structure Transport where
  channels : List ChannelMapEntry := []
  connectRequested : Bool := false
  role : TransportRole := .unknown
  tiebreaker : UInt64 := 0
  protocol : TransportProtocol := .hybrid
  remoteIceMode : IceMode := .full
  localDescription : Option TransportDescription := none
  remoteDescription : Option TransportDescription := none

namespace Transport

/-- `Transport()`. -/
def create : Transport := {}

/-- Each of the channels. -/
def mapChannels (f : P2PTransportChannel → P2PTransportChannel) (t : Transport) : Transport :=
  { t with channels := t.channels.map (·.map f) }

/-- `Transport::HasChannel`. -/
def hasChannel (component : ℤ) (t : Transport) : Bool := t.channels.any (·.channel.component = component)

/-! ### What is pushed to a channel -/

variable (desc : TransportDescription)

/-- `ApplyLocalTransportDescription_w`. -/
def applyLocalTransportDescription (ch : P2PTransportChannel) :
    P2PTransportChannel :=
  ch.setIceCredentials desc.iceUfrag desc.icePwd

/-- `ApplyRemoteTransportDescription_w`. The source passes the user fragment for the password too. -/
def applyRemoteTransportDescription (ch : P2PTransportChannel) :
    P2PTransportChannel :=
  ch.setRemoteIceCredentials desc.iceUfrag desc.iceUfrag

/-- `ApplyNegotiatedTransportDescription_w`. -/
def applyNegotiatedTransportDescription (t : Transport) (ch : P2PTransportChannel) : P2PTransportChannel :=
  (ch.setIceProtocolType t.protocol).setRemoteIceMode t.remoteIceMode

/-! ### Channels -/

/-- A new channel is told what the transport knows: the remote description only if there is a local one. -/
def configureChannel (t : Transport) (ch : P2PTransportChannel) : P2PTransportChannel :=
  let ch := (ch.setRole t.role).setTiebreaker t.tiebreaker
  match t.localDescription with
  | none => ch
  | some desc =>
    let ch := applyLocalTransportDescription desc ch
    match t.remoteDescription with
    | none => ch
    | some desc => t.applyNegotiatedTransportDescription (applyRemoteTransportDescription desc ch)

/-- `CreateChannel_w`. -/
def createChannel (component : ℤ) (t : Transport) : Transport :=
  if t.hasChannel component then
    { t with channels := t.channels.map fun e =>
        if e.channel.component = component then { e with ref := e.ref + 1 } else e }
  else
    let ch := t.configureChannel (.create component)
    let ch := if t.connectRequested then ch.connect else ch
    { t with channels := t.channels ++ [{ channel := ch, ref := 1 }] }

/-! ### Settings -/

/-- `SetRole_w`. -/
def setRole (role : TransportRole) (t : Transport) : Transport :=
  { t with role }.mapChannels (·.setRole role)

/-- `Transport::SetTiebreaker`. -/
def setTiebreaker (tiebreaker : UInt64) (t : Transport) : Transport := { t with tiebreaker }

/-- What becomes of the transport when a negotiation succeeds. -/
def adoptNegotiated (answerProto : TransportProtocol) (remoteMode : IceMode) (t : Transport) : Transport :=
  let protocol : TransportProtocol := if answerProto = .hybrid then .google else answerProto
  let t := { t with protocol }
  -- a side that only supports ICE-lite leaves the controlling role to this one
  let t := if t.role = .controlled ∧ remoteMode = .lite then t.setRole .controlling else t
  let t := { t with remoteIceMode := remoteMode }
  t.mapChannels t.applyNegotiatedTransportDescription

/-- Whether a negotiation fails: the answer to an offer of one protocol is another one. -/
def mismatch (offerProto answerProto : TransportProtocol) : Bool :=
  (offerProto = .google ∨ offerProto = .rfc5245) ∧ offerProto ≠ answerProto

/-- `NegotiateTransportDescription_w`. -/
def negotiateTransportDescription (localRole : ContentAction) (t : Transport) : Option (Transport × Bool) :=
  match t.localDescription, t.remoteDescription with
  | some local', some remote =>
    let offer := if localRole = .offer then local' else remote
    let answer := if localRole = .offer then remote else local'
    if mismatch offer.protocol answer.protocol then some (t, false)
    else some (t.adoptNegotiated answer.protocol remote.iceMode, true)
  | _, _ => none

/-- `SetLocalTransportDescription_w`. -/
def setLocalTransportDescription (action : ContentAction) (t : Transport) :
    Option (Transport × Bool) :=
  let t := { t with localDescription := some desc }.mapChannels (applyLocalTransportDescription desc)
  if action.isAnswer then t.negotiateTransportDescription action else some (t, true)

/-- `SetRemoteTransportDescription_w`. -/
def setRemoteTransportDescription (action : ContentAction) (t : Transport) :
    Option (Transport × Bool) :=
  let t := { t with remoteDescription := some desc }.mapChannels (applyRemoteTransportDescription desc)
  if action.isAnswer then t.negotiateTransportDescription .offer else some (t, true)

/-- `ConnectChannels_w`; the user fragment and the password are made at random if there is no description. -/
def connectChannels (ufrag pwd : String) (t : Transport) : Option Transport :=
  if t.connectRequested ∨ t.channels = [] then some t
  else
    let t := { t with connectRequested := true }
    let described : Option Transport :=
      if t.localDescription.isNone then
        let desc : TransportDescription :=
          { transportType := NS_GINGLE_P2P, transportOptions := [], iceUfrag := ufrag, icePwd := pwd
            iceMode := .full, candidates := [] }
        (t.setLocalTransportDescription desc .offer).map Prod.fst
      else some t
    described.map fun t => t.mapChannels (·.connect)

end Transport

/-- What a session does with a transport. -/
inductive TransportOp
  | createChannel (component : ℤ)
  | setRole (role : TransportRole)
  | setTiebreaker (tiebreaker : UInt64)
  | setLocalTransportDescription (desc : TransportDescription) (action : ContentAction)
  | setRemoteTransportDescription (desc : TransportDescription) (action : ContentAction)
  | connectChannels (ufrag pwd : String)
  deriving DecidableEq, Repr

/-- One operation, if the program does not stop in it. -/
def Transport.step (t : Transport) : TransportOp → Option Transport
  | .createChannel component => some (t.createChannel component)
  | .setRole role => some (t.setRole role)
  | .setTiebreaker tiebreaker => some (t.setTiebreaker tiebreaker)
  | .setLocalTransportDescription desc action => (t.setLocalTransportDescription desc action).map Prod.fst
  | .setRemoteTransportDescription desc action => (t.setRemoteTransportDescription desc action).map Prod.fst
  | .connectChannels ufrag pwd => t.connectChannels ufrag pwd

end Synciga.P2p
