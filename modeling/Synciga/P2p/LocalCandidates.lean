import Synciga.Internal.Runs
import Synciga.P2p.Connection
import Synciga.P2p.Session

/-!
# The way of a local candidate

A candidate that a channel has found waits in its transport until the channels are connected
(`talk/p2p/base/transport.cc`), and then, with an initiator, in the proxy of its content until the initiate is
acknowledged (`talk/p2p/base/session.cc`). It is sent in a transport-info. As long as the content is not
negotiated, the proxy remembers what it has sent, for a redirect. A proxy listens to its own transport, also
where contents are bundled.

## Main definitions

* `CandidateProxy`, `CandidateSession` — where candidates are
* `CandidateSession.step` — what happens to them
-/

namespace Synciga.P2p

/-! ### Transports -/

/-- A transport, as far as the candidates of its channels go. -/
structure CandidateTransport where
  connectRequested : Bool := false
  readyCandidates : List Candidate := []
  /-- How often `MSG_CANDIDATEREADY` is posted. -/
  posted : ℕ := 0
  /-- A mark: the candidates that were reported, besides those that a reset has dropped. -/
  reported : List Candidate := []
  deriving DecidableEq, Repr

namespace CandidateTransport

/-- `Transport::OnChannelCandidateReady`. -/
def onChannelCandidateReady (candidate : Candidate) (t : CandidateTransport) : CandidateTransport :=
  { t with
    readyCandidates := t.readyCandidates ++ [candidate]
    posted := if t.connectRequested then t.posted + 1 else t.posted
    reported := t.reported ++ [candidate] }

variable (t : CandidateTransport)

/-- `ConnectChannels_w`, of a transport with channels. -/
def connectChannels : CandidateTransport :=
  if t.connectRequested then t else { t with connectRequested := true, posted := t.posted + 1 }

/-- `ResetChannels_w`. -/
def resetChannels : CandidateTransport :=
  { t with
    connectRequested := false
    readyCandidates := []
    reported := t.reported.take (t.reported.length - t.readyCandidates.length) }

/-- The candidates are taken to be signalled. -/
def swapReady : CandidateTransport :=
  { t with readyCandidates := [], posted := t.posted - 1 }

/-- The transport is deleted. -/
def destroy : CandidateTransport := { reported := t.reported }

end CandidateTransport

/-! ### Proxies and sessions -/

/-- `TransportProxy`, with its transport by name. -/
structure CandidateProxy where
  contentName : String
  transport : String
  /-- The components of the channels. -/
  channels : List ℤ := []
  negotiated : Bool := false
  sentCandidates : List Candidate := []
  unsentCandidates : List Candidate := []
  deriving DecidableEq, Repr

/-- `WriteTransportInfos` succeeds if `GetChannelNameFromComponent` does for each candidate. -/
def CandidateProxy.writes (candidates : List Candidate) (p : CandidateProxy) : Bool :=
  candidates.all (·.component ∈ p.channels)

/-- A transport-info that was sent. -/
structure TransportInfoMessage where
  recipient : String
  contentName : String
  candidates : List Candidate
  deriving DecidableEq, Repr

/-- A session with its proxies, in the order of their names, and what it has sent. -/
structure CandidateSession (D : Type) where
  session : Session D
  proxies : List CandidateProxy := []
  transportAt : String → CandidateTransport := fun _ => {}
  outbox : List TransportInfoMessage := []

namespace CandidateSession

variable {D : Type}

variable (transport : String)

/-- A transport is changed. -/
def withTransport (f : CandidateTransport → CandidateTransport) (s : CandidateSession D) :
    CandidateSession D :=
  { s with transportAt := Function.update s.transportAt transport (f (s.transportAt transport)) }

variable (contentName : String)

/-- A proxy is changed. -/
def setProxy (f : CandidateProxy → CandidateProxy) (s : CandidateSession D) :
    CandidateSession D :=
  { s with proxies := s.proxies.map fun p => if p.contentName = contentName then f p else p }

/-- `BaseSession::GetTransportProxy`. -/
def getTransportProxy (s : CandidateSession D) : Option CandidateProxy :=
  s.proxies.find? (·.contentName = contentName)

/-- `HasChannel`: one of the proxies that use the transport has a channel for the component. -/
def hasChannel (component : ℤ) (s : CandidateSession D) : Bool :=
  s.proxies.any fun p => p.transport = transport ∧ component ∈ p.channels

/-! ### Channels -/

/-- `BaseSession::GetOrCreateTransportProxy`. -/
def getOrCreateTransportProxy (s : CandidateSession D) : CandidateSession D :=
  match s.getTransportProxy contentName with
  | some _ => s
  | none =>
    { s with proxies := s.proxies.takeWhile (·.contentName < contentName) ++
        { contentName, transport := contentName } :: s.proxies.dropWhile (·.contentName < contentName) }

/-- `TransportProxy::CreateChannel`. -/
def createChannel (component : ℤ) (s : CandidateSession D) : CandidateSession D :=
  (s.getOrCreateTransportProxy contentName).setProxy contentName fun p =>
    { p with channels := p.channels ++ [component] }

/-- `TransportProxy::DestroyChannel`. -/
def destroyChannel (component : ℤ) (s : CandidateSession D) : CandidateSession D :=
  s.setProxy contentName fun p => { p with channels := p.channels.filter (· ≠ component) }

/-- `TransportProxy::ConnectChannels`; a transport without channels does not connect. -/
def connectChannels (contentName : String) (s : CandidateSession D) : CandidateSession D :=
  match s.getTransportProxy contentName with
  | none => s
  | some p =>
    if s.proxies.any fun q => q.transport = p.transport ∧ q.channels ≠ [] then
      s.withTransport p.transport (·.connectChannels)
    else s

/-- A channel of the transport has found a candidate. -/
def onChannelCandidateReady (transport : String) (candidate : Candidate) (s : CandidateSession D) :
    CandidateSession D :=
  if s.hasChannel transport candidate.component then
    s.withTransport transport (·.onChannelCandidateReady candidate)
  else s

/-- `TransportProxy::CompleteNegotiation`. -/
def completeNegotiation (s : CandidateSession D) : CandidateSession D :=
  s.setProxy contentName fun p => { p with negotiated := true }

/-- `SetupMux`: the proxy uses the transport of another content. A transport that is not used any more is
deleted. -/
def setupMux (contentName target : String) (s : CandidateSession D) : CandidateSession D :=
  match s.getTransportProxy contentName, s.getTransportProxy target with
  | some p, some q =>
    if p.transport = q.transport then s
    else if p.channels.all (s.hasChannel q.transport ·) then
      let t := s.setProxy contentName fun p => { p with transport := q.transport }
      if t.proxies.any (·.transport = p.transport) then t else t.withTransport p.transport (·.destroy)
    else s
  | _, _ => s

/-! ### Transport-infos -/

/-- `Session::OnTransportProxyCandidatesReady`. -/
def onTransportProxyCandidatesReady (candidates : List Candidate) (s : CandidateSession D) (p : CandidateProxy) :
    CandidateSession D :=
  if s.session.initiator ∧ s.session.initiateAcked = false then
    s.setProxy p.contentName fun p => { p with unsentCandidates := p.unsentCandidates ++ candidates }
  else
    let t := if p.negotiated then s
      else s.setProxy p.contentName fun p => { p with sentCandidates := p.sentCandidates ++ candidates }
    if p.writes candidates then
      { t with
        session := t.session.onCandidatesReady true
        outbox := t.outbox ++ [⟨s.session.remoteName, p.contentName, candidates⟩] }
    else { t with session := t.session.onCandidatesReady false }

/-- The proxies that listen to a transport; the one that it was made for is the first. -/
def listeners (s : CandidateSession D) : List CandidateProxy :=
  let listening := s.proxies.filter (·.transport = transport)
  listening.filter (·.contentName = transport) ++ listening.filter (·.contentName ≠ transport)

/-- `OnChannelCandidateReady_s`. -/
def onCandidatesReady (s : CandidateSession D) : CandidateSession D :=
  let candidates := (s.transportAt transport).readyCandidates
  let t := s.withTransport transport (·.swapReady)
  if candidates = [] then t
  else (s.listeners transport).foldl (onTransportProxyCandidatesReady candidates) t

end CandidateSession

/-- What is held back in each of the proxies is sent, up to the first that cannot be written: the rest, what was
sent, and whether it was all. -/
def sendHeld (held : CandidateProxy → List Candidate) (clear : CandidateProxy → CandidateProxy)
    (recipient : String) :
    List CandidateProxy → List CandidateProxy × List TransportInfoMessage × Bool
  | [] => ([], [], true)
  | p :: proxies =>
    if held p = [] then
      let (proxies, sent, done) := sendHeld held clear recipient proxies
      (p :: proxies, sent, done)
    else if p.writes (held p) then
      let (proxies, sent, done) := sendHeld held clear recipient proxies
      (clear p :: proxies, ⟨recipient, p.contentName, held p⟩ :: sent, done)
    else (p :: proxies, [], false)

/-- `Session::SendAllUnsentTransportInfoMessages`. -/
def sendAllUnsentTransportInfoMessages : String → List CandidateProxy →
    List CandidateProxy × List TransportInfoMessage × Bool :=
  sendHeld CandidateProxy.unsentCandidates fun p => { p with unsentCandidates := [] }

/-- `Session::ResendAllTransportInfoMessages`. -/
def resendAllTransportInfoMessages : String → List CandidateProxy →
    List CandidateProxy × List TransportInfoMessage × Bool :=
  sendHeld CandidateProxy.sentCandidates fun p => { p with sentCandidates := [] }

namespace CandidateSession

variable {D : Type}

/-- The session does something, while these transport-infos are sent. -/
def withSession (f : ℕ → Session D → Session D)
    (sent : List CandidateProxy × List TransportInfoMessage × Bool) (s : CandidateSession D) : CandidateSession D :=
  { s with session := f sent.2.1.length s.session, proxies := sent.1, outbox := s.outbox ++ sent.2.1 }

/-- What `OnInitiateAcked` sends. -/
def acked (s : CandidateSession D) : List CandidateProxy × List TransportInfoMessage × Bool :=
  if s.session.initiateAcked then (s.proxies, [], true)
  else sendAllUnsentTransportInfoMessages s.session.remoteName s.proxies

/-- What is sent when nothing is. -/
def quiet (s : CandidateSession D) : List CandidateProxy × List TransportInfoMessage × Bool := (s.proxies, [], true)

/-- `Session::OnIncomingResponse`. -/
def onIncomingResponse (type : ActionType) (s : CandidateSession D) : CandidateSession D :=
  s.withSession (Session.onIncomingResponse type) (if type = .sessionInitiate then s.acked else s.quiet)

/-- An accept comes that is waited for and can be parsed. -/
def takesAccept (msg : SessionMessage) (body : Body D) (s : CandidateSession D) : Bool :=
  msg.type = .sessionAccept ∧ s.session.state = .sentInitiate ∧ body.description.isSome

/-- `Session::OnIncomingMessage`. -/
def onIncomingMessage (msg : SessionMessage) (body : Body D) (r : Reaction D) (s : CandidateSession D) :
    CandidateSession D :=
  s.withSession (fun n => Session.onIncomingMessage r.listen msg { body with unsent := n })
    (if s.takesAccept msg body then s.acked else s.quiet)

/-- The redirect that is followed, of those that an error may bring. -/
def followed (type : ActionType) (redirect : Option String) (s : CandidateSession D) : Option String :=
  redirect.filter fun target =>
    type ≠ .unknown ∧ s.session.state = .sentInitiate ∧ Session.bareJidsEqual s.session.remoteName target

/-- `Session::OnFailedSend`. -/
def onFailedSend (type : ActionType) (redirect errorType : Option String) (written : Bool)
    (s : CandidateSession D) : CandidateSession D :=
  match s.followed type redirect with
  | none => s.withSession (Session.onFailedSend type redirect errorType written) s.quiet
  | some target =>
    let sent := if written then resendAllTransportInfoMessages target s.proxies else s.quiet
    let t := s.withSession (Session.onFailedSend type redirect errorType written) sent
    if sent.2.2 then t else { t with session := t.session.setError .response }

/-- What happens to the session itself. An initiate is acknowledged only after it was sent. -/
def onSession (op : SessionOp D) (s : CandidateSession D) : CandidateSession D :=
  match op with
  | .response type _ => if s.session.state = .init then s else s.onIncomingResponse type
  | .message msg body r => s.onIncomingMessage msg body r
  | .failedSend type redirect errorType written _ => s.onFailedSend type redirect errorType written
  -- this is what the transports do
  | .candidates _ => s
  | op => { s with session := s.session.step op }

end CandidateSession

/-! ### Steps -/

/-- What happens to a session and its transports. -/
inductive CandidateOp (D : Type)
  | createChannel (contentName : String) (component : ℤ)
  | destroyChannel (contentName : String) (component : ℤ)
  | connectChannels (contentName : String)
  | resetChannels (transport : String)
  | candidateReady (transport : String) (candidate : Candidate)
  /-- `MSG_CANDIDATEREADY` is delivered. -/
  | deliver (transport : String)
  | completeNegotiation (contentName : String)
  | setupMux (contentName target : String)
  | session (op : SessionOp D)

/-- A step. Nothing happens to a session that is destroyed. -/
def CandidateSession.step {D : Type} (s : CandidateSession D) (op : CandidateOp D) : CandidateSession D :=
  if s.session.state = .deinit then s
  else match op with
    | .createChannel contentName component => s.createChannel contentName component
    | .destroyChannel contentName component => s.destroyChannel contentName component
    | .connectChannels contentName => s.connectChannels contentName
    | .resetChannels transport => s.withTransport transport (·.resetChannels)
    | .candidateReady transport candidate => s.onChannelCandidateReady transport candidate
    | .deliver transport => if (s.transportAt transport).posted = 0 then s else s.onCandidatesReady transport
    | .completeNegotiation contentName => s.completeNegotiation contentName
    | .setupMux contentName target => s.setupMux contentName target
    | .session op => s.onSession op

/-- A step of a run. -/
def CandidateSession.next {D : Type} (s : CandidateSession D) (op : CandidateOp D) : Option (CandidateSession D) :=
  some (s.step op)

end Synciga.P2p
