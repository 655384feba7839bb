import Synciga.P2p.Session
import Synciga.P2p.Transport

/-!
# The transports of a session

A session has a transport proxy for each content (`talk/p2p/base/session.cc`). Its channels get an
implementation in the transport when the proxy is negotiated, by an answer or by candidates that come in. When
contents are bundled, their proxies take the transport of one of them; so the transports are in a store.

Whoever listens to the state of the session may call it, and create channels (`ChannelCall`). The credentials
that a transport makes up are given by the content.

## Main definitions

* `ContentProxy`, `ContentSession` — proxies and the session
* `ContentSession.onIncomingMessage` — candidates go to the transports one content after the other
-/

namespace Synciga.P2p

/-! ### Descriptions -/

/-- The transport of a content. -/
structure TransportInfo where
  contentName : String
  description : TransportDescription
  deriving DecidableEq, Repr

/-- Contents that are grouped. -/
structure ContentGroup where
  semantics : String
  contentNames : List String
  deriving DecidableEq, Repr

/-- The group of contents that are bundled. -/
def GROUP_TYPE_BUNDLE : String := "BUNDLE"

/-- `SessionDescription`; of the contents only the names are kept. -/
structure SessionDescription where
  contentNames : List String
  transportInfos : List TransportInfo
  contentGroups : List ContentGroup
  deriving DecidableEq, Repr

/-- `SessionDescription::GetTransportInfoByName`. -/
def SessionDescription.getTransportInfoByName (name : String) (desc : SessionDescription) :
    Option TransportInfo :=
  desc.transportInfos.find? (·.contentName = name)

/-- `SessionDescription::GetGroupByName`. -/
def SessionDescription.getGroupByName (name : String) (desc : SessionDescription) : Option ContentGroup :=
  desc.contentGroups.find? (·.semantics = name)

/-! ### Transports -/

namespace Transport

/-- `DestroyChannel_w`. -/
def destroyChannel (component : ℤ) (t : Transport) : Transport :=
  { t with channels := t.channels.filterMap fun e =>
      if e.channel.component = component then if e.ref ≤ 1 then none else some { e with ref := e.ref - 1 }
      else some e }

/-- `VerifyCandidate`. -/
def verifyCandidate (cand : Candidate) : Bool :=
  if cand.hostname = "" ∧ cand.address.ip = .unspec ∧ cand.address.port = 0 ∨ ipIsAny cand.address.ip then false
  else if cand.address.port < 1024 then
    (cand.address.port = 80 ∨ cand.address.port = 443) ∧ ipIsPrivate cand.address.ip = false
  else true

end Transport

/-! ### Proxies -/

/-- `TransportChannelProxy`: its component, and the transport that has its implementation. -/
structure ProxyChannel where
  component : ℤ
  impl : Option ℕ := none
  deriving DecidableEq, Repr

/-- `TransportProxy`, with its transport by the place in the store. -/
structure ContentProxy where
  contentName : String
  transport : ℕ
  negotiated : Bool := false
  connecting : Bool := false
  channels : List ProxyChannel := []
  deriving DecidableEq, Repr

/-- `channels_[component] = channel`: the channels are in the order of their components. -/
def ContentProxy.setChannel (channel : ProxyChannel) (p : ContentProxy) : ContentProxy :=
  { p with channels := p.channels.takeWhile (·.component < channel.component) ++
      channel :: p.channels.dropWhile (·.component ≤ channel.component) }

/-- A session with its proxies, in the order of their names, and its transports with the remote candidates that
were handed to them. -/
structure ContentSession where
  session : Session SessionDescription
  proxies : List ContentProxy := []
  transportCount : ℕ := 0
  transportAt : ℕ → Transport := fun _ => .create
  handed : ℕ → List Candidate := fun _ => []

/-- What a listener does with channels. -/
structure ChannelCall where
  contentName : String
  component : ℤ
  deriving DecidableEq, Repr

namespace ContentSession

variable (contentName : String)

/-- `BaseSession::GetTransportProxy`. -/
def getTransportProxy (s : ContentSession) : Option ContentProxy :=
  s.proxies.find? (·.contentName = contentName)

/-- A proxy is changed. -/
def setProxy (f : ContentProxy → ContentProxy) (s : ContentSession) : ContentSession :=
  { s with proxies := s.proxies.map fun p => if p.contentName = contentName then f p else p }

/-- A transport is changed. -/
def setTransport (transport : ℕ) (t : Transport) (s : ContentSession) : ContentSession :=
  { s with transportAt := Function.update s.transportAt transport t }

/-- `TransportProxy::GetOrCreateChannelProxyImpl`. -/
def getOrCreateChannelProxyImpl (transport : ℕ) (component : ℤ) (s : ContentSession) : ContentSession :=
  if (s.transportAt transport).hasChannel component then s
  else s.setTransport transport ((s.transportAt transport).createChannel component)

/-- `SetImplementation`, of a channel of a proxy. -/
def setImplementation (channel : ProxyChannel) (transport : ℕ) (s : ContentSession) :
    ContentSession :=
  let s := match channel.impl with
    | none => s
    | some old => s.setTransport old ((s.transportAt old).destroyChannel channel.component)
  s.setProxy contentName fun p => { p with channels := p.channels.map fun c =>
    if c.component = channel.component then { c with impl := some transport } else c }

variable (p : ContentProxy)

/-- `TransportProxy::SetChannelProxyImpl`. -/
def setChannelProxyImpl (s : ContentSession) (channel : ProxyChannel) : ContentSession :=
  (s.getOrCreateChannelProxyImpl p.transport channel.component).setImplementation p.contentName channel p.transport

/-- `TransportProxy::CompleteNegotiation`. -/
def completeNegotiation (s : ContentSession) : ContentSession :=
  match s.getTransportProxy contentName with
  | none => s
  | some p =>
    if p.negotiated then s
    else (p.channels.foldl (setChannelProxyImpl p) s).setProxy contentName ({ · with negotiated := true })

/-- `TransportProxy::ConnectChannels`, with the credentials that the transport may make up. -/
def connectChannels (fresh : String → String × String) (contentName : String) (s : ContentSession) :
    Option ContentSession :=
  match s.getTransportProxy contentName with
  | none => some s
  | some p =>
    let s := if p.connecting ∨ p.negotiated then s
      else p.channels.foldl (fun s c => s.getOrCreateChannelProxyImpl p.transport c.component) s
    let s := s.setProxy contentName ({ · with connecting := true })
    ((s.transportAt p.transport).connectChannels (fresh contentName).1 (fresh contentName).2).map
      (s.setTransport p.transport)

/-- `GetOrCreateTransportProxy`, with the transport told its role as `BaseSession` does. -/
def getOrCreateTransportProxy (s : ContentSession) : ContentSession :=
  match s.getTransportProxy contentName with
  | some _ => s
  | none =>
    let role : TransportRole := if s.session.initiator then .controlling else .controlled
    let p : ContentProxy := { contentName, transport := s.transportCount }
    { s with
      proxies := s.proxies.takeWhile (·.contentName < contentName) ++
        p :: s.proxies.dropWhile (·.contentName < contentName)
      transportCount := s.transportCount + 1
      transportAt := Function.update s.transportAt s.transportCount (Transport.create.setRole role) }

/-- `TransportProxy::CreateChannel`. -/
def createChannel (call : ChannelCall) (s : ContentSession) : ContentSession :=
  let s := s.getOrCreateTransportProxy call.contentName
  match s.getTransportProxy call.contentName with
  | none => s
  | some p =>
    let channel : ProxyChannel := { component := call.component }
    let s := s.setProxy call.contentName (·.setChannel channel)
    if p.negotiated then s.setChannelProxyImpl p channel
    else if p.connecting then s.getOrCreateChannelProxyImpl p.transport call.component
    else s

/-! ### Descriptions are pushed down -/

/-- `TransportProxy::SetRemoteTransportDescription`. -/
def setRemoteTransportDescription (p : ContentProxy) (desc : TransportDescription) (action : ContentAction)
    (s : ContentSession) : Option (ContentSession × Bool) :=
  let s := if action = .answer then s.completeNegotiation p.contentName else s
  ((s.transportAt p.transport).setRemoteTransportDescription desc action).map
    fun (t, ok) => (s.setTransport p.transport t, ok)

/-- `PushdownRemoteTransportDescription`, for these proxies. It stops at the first one that refuses. -/
def pushdownRemote (desc : SessionDescription) (action : ContentAction) :
    List ContentProxy → ContentSession → Option ContentSession
  | [], s => some s
  | p :: proxies, s =>
    match desc.getTransportInfoByName p.contentName with
    | none => s.pushdownRemote desc action proxies
    | some info =>
      (s.setRemoteTransportDescription p info.description action).bind fun (s, ok) =>
        if ok then s.pushdownRemote desc action proxies else some s

/-! ### Bundled contents -/

/-- `SetupMux`, for these channels. It stops at the first one that the transport does not have. -/
def setupMuxChannels (p : ContentProxy) (target : ℕ) : List ProxyChannel → ContentSession → ContentSession × Bool
  | [], s => (s.setProxy p.contentName ({ · with transport := target }), true)
  | channel :: channels, s =>
    if (s.transportAt target).hasChannel channel.component then
      let s := s.setTransport target ((s.transportAt target).createChannel channel.component)
      setupMuxChannels p target channels (s.setImplementation p.contentName channel target)
    else (s, false)

/-- `TransportProxy::SetupMux`. -/
def setupMux (target : ℕ) (s : ContentSession) : ContentSession × Bool :=
  if p.transport = target then (s, true) else s.setupMuxChannels p target p.channels

/-- `SetSelectedProxy`, for these proxies. -/
def selectProxy (group : ContentGroup) (target : ℕ) : List ContentProxy → ContentSession → ContentSession
  | [], s => s
  | p :: proxies, s =>
    if p.contentName ∈ group.contentNames then
      match s.setupMux p target with
      | (s, true) => selectProxy group target proxies s
      | (s, false) => s
    else selectProxy group target proxies s

/-- `MaybeEnableMuxingSupport`, when both descriptions are there. The content that a group names must be in the
local description. -/
def maybeEnableMuxingSupport (localDesc remoteDesc : SessionDescription) (s : ContentSession) :
    Option ContentSession :=
  if ∃ p ∈ s.proxies, p.negotiated = false then some s
  else
    match localDesc.getGroupByName GROUP_TYPE_BUNDLE, remoteDesc.getGroupByName GROUP_TYPE_BUNDLE with
    | some group, some _ =>
      match group.contentNames.head? with
      | none => some s
      | some name =>
        if name ∈ localDesc.contentNames then
          match s.getTransportProxy name with
          | none => some s
          | some selected => some (s.selectProxy group selected.transport s.proxies)
        else none
    | _, _ => some s

/-! ### Candidates -/

/-- `HasChannel`, of a proxy. -/
def hasChannel (p : ContentProxy) (component : ℤ) (s : ContentSession) : Bool :=
  (s.transportAt p.transport).hasChannel component

/-- A candidate may be handed to the transport of a proxy. -/
def takesCandidate (s : ContentSession) (cand : Candidate) : Bool :=
  Transport.verifyCandidate cand && s.hasChannel p cand.component

/-- `Transport::OnRemoteCandidates`. -/
def hand (candidates : List Candidate) (s : ContentSession) : ContentSession :=
  { s with handed := Function.update s.handed p.transport (s.handed p.transport ++ candidates) }

variable (fresh : String → String × String)

/-- `BaseSession::OnRemoteCandidates`, with that of the proxy. -/
def onRemoteCandidates (info : TransportInfo) (s : ContentSession) :
    Option (ContentSession × Bool) :=
  match s.getTransportProxy info.contentName with
  | none => some (s, false)
  | some p =>
    let s := s.completeNegotiation info.contentName
    if info.description.candidates.all (s.takesCandidate p) then
      ((s.hand p info.description.candidates).connectChannels fresh info.contentName).map (·, true)
    else some (s, false)

/-- `Session::OnRemoteCandidates`. It stops at the first content that is refused. -/
def onAllRemoteCandidates (fresh : String → String × String) :
    List TransportInfo → ContentSession → Option (ContentSession × Bool)
  | [], s => some (s, true)
  | info :: infos, s =>
    (s.onRemoteCandidates fresh info).bind fun (s, ok) =>
      if ok then s.onAllRemoteCandidates fresh infos else some (s, false)

/-! ### Messages -/

/-- What an accept does before its candidates are looked at: the answer is pushed down, contents are bundled,
and listeners create channels. -/
def answered (description : SessionDescription) (calls : List ChannelCall) (s : ContentSession) :
    Option ContentSession :=
  (s.pushdownRemote description .answer s.proxies).bind fun s =>
    (match s.session.localDescription with
      | none => some s
      | some localDesc => s.maybeEnableMuxingSupport localDesc description).map fun s =>
        calls.foldl (fun s call => s.createChannel call) s

/-- `OnIncomingMessage`, for a session-accept with this body, if it can be parsed. -/
def onAcceptMessage (msg : SessionMessage) (parsed : Option SessionDescription)
    (unsent : ℕ) (r : Reaction SessionDescription) (calls : List ChannelCall) (s : ContentSession) :
    Option ContentSession :=
  let answer (ok : Bool) : Session SessionDescription :=
    s.session.onIncomingMessage r.listen { msg with type := .sessionAccept }
      { description := parsed, parses := parsed.isSome, transports := true, candidates := ok, unsent }
  match parsed with
  | none => some { s with session := answer false }
  | some description =>
    if s.session.state ≠ .sentInitiate then some { s with session := answer false }
    else
      (s.answered description calls).bind fun t =>
        (t.onAllRemoteCandidates fresh description.transportInfos).map fun (t, ok) =>
          { t with session := answer ok }

/-- `OnIncomingMessage`, for a transport-info with this body, if it can be parsed. -/
def onTransportInfoMessage (msg : SessionMessage)
    (parsed : Option (List TransportInfo)) (s : ContentSession) : Option ContentSession :=
  let answer (ok : Bool) : Session SessionDescription :=
    s.session.onIncomingMessage id { msg with type := .transportInfo }
      { description := none, parses := parsed.isSome, transports := true, candidates := ok, unsent := 0 }
  match parsed with
  | none => some { s with session := answer false }
  | some infos => (s.onAllRemoteCandidates fresh infos).map fun (t, ok) => { t with session := answer ok }

/-- The messages that bring candidates to a session that was initiated, as far as they can be parsed. -/
inductive Message
  | accept (parsed : Option SessionDescription) (unsent : ℕ) (r : Reaction SessionDescription)
      (calls : List ChannelCall)
  | transportInfo (parsed : Option (List TransportInfo))

/-- `OnIncomingMessage`, for these messages. -/
def onIncomingMessage (msg : SessionMessage) (s : ContentSession) :
    Message → Option ContentSession
  | .accept parsed unsent r calls => s.onAcceptMessage fresh msg parsed unsent r calls
  | .transportInfo parsed => s.onTransportInfoMessage fresh msg parsed

end ContentSession

end Synciga.P2p
