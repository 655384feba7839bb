import Synciga.P2p.SessionMessages

/-!
# `cricket::Session`

A session between two peers (`talk/p2p/base/session.cc`) changes its state when it is called, when a message
comes in, and when one is delivered that it has posted to itself. Whoever listens to changes of the state may
call it again at once: a `Reaction` is the calls of a listener, and the reactions to the changes that these
cause. A session that is being deleted cannot be called. What parsers and transports make of a body comes from
outside (`Body`).

## Main definitions

* `Session`, `Session.step` — the session and what can happen to it
-/

namespace Synciga.P2p

/-- `BaseSession::State`. -/
inductive SessionState
  | init
  | sentInitiate
  | receivedInitiate
  | sentPrAccept
  | sentAccept
  | receivedPrAccept
  | receivedAccept
  | sentModify
  | receivedModify
  | sentReject
  | receivedReject
  | sentRedirect
  | sentTerminate
  | receivedTerminate
  | inProgress
  | deinit
  deriving DecidableEq, Repr

/-- `BaseSession::Error`. -/
inductive SessionError
  | none
  | time
  | response
  | network
  | content
  | transport
  deriving DecidableEq, Repr

/-- The messages that a session posts to itself. -/
inductive Posted
  | timeout
  | error
  | state
  deriving DecidableEq, Repr

/-- What a session does that can be seen. -/
inductive SessionEvent
  /-- `SignalState`. -/
  | stateChange (old new : SessionState)
  /-- `SignalOutgoingMessage`, for a message. -/
  | send (type : ActionType) (protocol : SignalingProtocol) (recipient : String)
  /-- `SignalOutgoingMessage`, for an answer to a message. -/
  | acknowledge (type : ActionType)
  /-- `SignalErrorMessage`. -/
  | refuse (type : ActionType)
  /-- `initiator_description()` is dereferenced. -/
  | dereference (present : Bool)
  | destroyed
  /-- A mark: `Initiate` was called and is allowed. -/
  | initiated
  /-- A mark: `Accept` was called and is allowed. -/
  | accepted
  /-- A mark: a session-initiate was taken. -/
  | offered
  /-- A mark: a session-accept was taken. -/
  | answered
  deriving DecidableEq, Repr

/-- `Session`, over the descriptions `D` of contents. -/
structure Session (D : Type) where
  sid : String
  localName : String
  remoteName : String
  initiatorName : String
  /-- `initiator_`. -/
  initiator : Bool
  state : SessionState
  error : SessionError
  localDescription : Option D
  remoteDescription : Option D
  initiateAcked : Bool
  currentProtocol : SignalingProtocol
  /-- The messages that are posted and not yet delivered. -/
  posted : List Posted
  trace : List SessionEvent

/-- What becomes of the body of a message: the description in it, or whether it can be parsed; whether
`CreateTransportProxies` and `OnRemoteCandidates` succeed; and how many messages with candidates are sent that
waited for the first answer. -/
structure Body (D : Type) where
  description : Option D
  parses : Bool
  transports : Bool
  candidates : Bool
  unsent : Nat

/-- A body that can be parsed and that the transports take. -/
structure Body.WellFormed {D : Type} (body : Body D) : Prop where
  description : body.description.isSome
  parses : body.parses
  transports : body.transports
  candidates : body.candidates

namespace Session

variable {D : Type}

/-- `Session()`. -/
def create (localName initiatorName sid : String) : Session D where
  sid := sid
  localName := localName
  remoteName := ""
  initiatorName := initiatorName
  initiator := initiatorName = localName
  state := .init
  error := .none
  localDescription := none
  remoteDescription := none
  initiateAcked := false
  currentProtocol := .hybrid
  posted := []
  trace := []

/-- `BaseSession::initiator_description`. -/
def initiatorDescription (s : Session D) : Option D :=
  if s.initiator then s.localDescription else s.remoteDescription

/-- Records an event. -/
def emit (event : SessionEvent) (s : Session D) : Session D := { s with trace := s.trace ++ [event] }

/-- A message is posted. -/
def post (message : Posted) (s : Session D) : Session D := { s with posted := s.posted ++ [message] }

/-- `SendMessage`. -/
def send (type : ActionType) (s : Session D) : Session D :=
  s.emit (.send type s.currentProtocol s.remoteName)

/-- Messages with candidates are sent. -/
def sendTransportInfos : Nat → Session D → Session D
  | 0, s => s
  | n + 1, s => sendTransportInfos n (s.send .transportInfo)

/-- The state changes, and the change is signalled. -/
def enter (state : SessionState) (s : Session D) : Session D :=
  { s.emit (.stateChange s.state state) with state := state }

variable (listen : Session D → Session D)

/-- `BaseSession::SetState`, with what those do who listen. -/
def setState (state : SessionState) (s : Session D) : Session D :=
  if state = s.state then s else (listen (s.enter state)).post .state

/-- `BaseSession::SetError`. -/
def setError (error : SessionError) (s : Session D) : Session D :=
  let s := { s with error := error }
  if error ≠ .none then s.post .error else s

/-! ### Calls -/

/-- `Initiate`; `transports` and `written` say whether the transports are created and the message is
written. -/
def initiate (recipient : String) (description : D)
    (transports written : Bool) (s : Session D) : Session D × Bool :=
  if s.state ≠ .init then (s, false)
  else
    let s := { s with remoteName := recipient, localDescription := some description }.emit .initiated
    if transports = false then (s, false)
    else if written = false then (s, false)
    else ((s.send .sessionInitiate).setState listen .sentInitiate, true)

/-- `Session::Accept`. -/
def accept (description : D) (written : Bool) (s : Session D) :
    Session D × Bool :=
  if s.state ≠ .receivedInitiate then (s, false)
  else
    let s := { s with localDescription := some description }.emit .accepted
    if written = false then (s, false)
    else ((s.send .sessionAccept).setState listen .sentAccept, true)

/-- `Reject`. The message can always be written. -/
def reject (s : Session D) : Session D × Bool :=
  if s.state ≠ .receivedInitiate ∧ s.state ≠ .receivedModify then (s, false)
  else ((s.send .sessionReject).setState listen .sentReject, true)

/-- `TerminateWithReason`. The message can always be written. -/
def terminateWithReason (s : Session D) : Session D × Bool :=
  match s.state with
  | .sentTerminate => (s, false)
  | .receivedTerminate => (s, false)
  -- after a reject there is no need to send a terminate
  | .sentReject => (s.setState listen .sentTerminate, true)
  | .receivedReject => (s.setState listen .sentTerminate, true)
  | _ => ((s.send .sessionTerminate).setState listen .sentTerminate, true)

/-- `Session::SendInfoMessage`. -/
def sendInfoMessage (s : Session D) : Session D × Bool := (s.send .sessionInfo, true)

/-- `Session::SendDescriptionInfoMessage`. -/
def sendDescriptionInfoMessage (written : Bool) (s : Session D) : Session D × Bool :=
  if written = false then (s, false) else (s.send .descriptionInfo, true)

end Session

/-- The calls of the application. -/
inductive SessionCall (D : Type)
  | initiate (recipient : String) (description : D) (transports written : Bool)
  | accept (description : D) (written : Bool)
  | reject
  | terminate
  | sendInfo
  | sendDescriptionInfo (written : Bool)
  | setError (error : SessionError)

variable {D : Type}

/-- A call is made. -/
def SessionCall.apply (listen : Session D → Session D) : SessionCall D → Session D → Session D
  | initiate recipient description transports written, s =>
    (s.initiate listen recipient description transports written).1
  | accept description written, s => (s.accept listen description written).1
  | reject, s => (s.reject listen).1
  | terminate, s => (s.terminateWithReason listen).1
  | sendInfo, s => s.sendInfoMessage.1
  | sendDescriptionInfo written, s => (s.sendDescriptionInfoMessage written).1
  | setError error, s => s.setError error

/-- What those do who listen to a change of the state: nothing more, or a call with their reaction to the
change that it causes, and then the rest. -/
inductive Reaction (D : Type)
  | done
  | call (call : SessionCall D) (inner rest : Reaction D)

/-- The calls of a reaction are made. -/
def Reaction.listen {D : Type} : Reaction D → Session D → Session D
  | done, s => s
  | call c inner rest, s => rest.listen (c.apply inner.listen s)

namespace Session

variable {D : Type}

/-! ### Messages -/

/-- `Session::OnInitiateAcked`. -/
def onInitiateAcked (unsent : Nat) (s : Session D) : Session D :=
  if s.initiateAcked then s else { s with initiateAcked := true }.sendTransportInfos unsent

variable (listen : Session D → Session D)

/-- `Session::OnInitiateMessage`. -/
def onInitiateMessage (msg : SessionMessage) (body : Body D)
    (s : Session D) : Session D × Bool :=
  if s.state ≠ .init then (s, false)
  else match body.description with
    | none => (s, false)
    | some description =>
      if body.transports = false then (s, false)
      else
        let s := { s with
          remoteName := msg.sender
          initiatorName := msg.initiator
          remoteDescription := some description }.emit .offered
        let s := s.setState listen .receivedInitiate
        -- those who listen may have called `Reject`
        (s, s.state = .sentReject || body.candidates)

/-- `OnAcceptMessage`. -/
def onAcceptMessage (body : Body D) (s : Session D) :
    Session D × Bool :=
  if s.state ≠ .sentInitiate then (s, false)
  else match body.description with
    | none => (s, false)
    | some description =>
      let s := { s.onInitiateAcked body.unsent with remoteDescription := some description }.emit .answered
      (s.setState listen .receivedAccept, body.candidates)

/-- `Session::OnRejectMessage`. -/
def onRejectMessage (s : Session D) : Session D × Bool :=
  if s.state ≠ .sentInitiate then (s, false) else (s.setState listen .receivedReject, true)

/-- `OnTerminateMessage`. Every body of it can be parsed. -/
def onTerminateMessage (s : Session D) : Session D × Bool :=
  (s.setState listen .receivedTerminate, true)

/-- `OnTransportInfoMessage`. -/
def onTransportInfoMessage (body : Body D) (s : Session D) : Session D × Bool :=
  (s.emit (.dereference s.initiatorDescription.isSome), body.parses && body.candidates)

/-- `Session::OnDescriptionInfoMessage`. -/
def onDescriptionInfoMessage (body : Body D) (s : Session D) : Session D × Bool :=
  if s.state ≠ .inProgress then (s, false) else (s, body.parses)

/-- The protocol is that of the first message. -/
def settleProtocol (protocol : SignalingProtocol) (s : Session D) : Session D :=
  if s.currentProtocol = .hybrid then
    { s with currentProtocol := if protocol = .gingle then .gingle else .jingle }
  else s

/-- The part of `OnIncomingMessage` that depends on the action. -/
def handleAction (msg : SessionMessage) (body : Body D) (s : Session D) :
    Session D × Bool :=
  match msg.type with
  | .sessionInitiate => s.onInitiateMessage listen msg body
  | .sessionInfo => (s, true)
  | .sessionAccept => s.onAcceptMessage listen body
  | .sessionReject => s.onRejectMessage listen
  | .sessionTerminate => s.onTerminateMessage listen
  | .transportInfo => s.onTransportInfoMessage body
  | .transportAccept => (s, true)
  | .descriptionInfo => s.onDescriptionInfoMessage body
  | .unknown => (s, false)

/-- `Session::OnIncomingMessage`. -/
def onIncomingMessage (msg : SessionMessage) (body : Body D)
    (s : Session D) : Session D :=
  let (s, valid) := (s.settleProtocol msg.protocol).handleAction listen msg body
  s.emit (if valid then .acknowledge msg.type else .refuse msg.type)

/-- `OnIncomingResponse`, to a message with this action. -/
def onIncomingResponse (type : ActionType) (unsent : Nat) (s : Session D) : Session D :=
  if type = .sessionInitiate then s.onInitiateAcked unsent else s

/-- `BareJidsEqual`. -/
def bareJidsEqual (name other : String) : Bool :=
  let jid := Jid.ofString (utf8 name)
  let otherJid := Jid.ofString (utf8 other)
  jid.isValid && otherJid.isValid && jid.node = otherJid.node && jid.domain = otherJid.domain

/-- `Session::OnRedirectError`. -/
def onRedirectError (target : String) (written : Bool) (resent : Nat) (s : Session D) :
    Session D × Bool :=
  if s.state ≠ .sentInitiate then (s, false)
  else if bareJidsEqual s.remoteName target = false then (s, false)
  else
    let s := { s with remoteName := target }
    if written = false then (s, false)
    else ((s.send .sessionInitiate).sendTransportInfos resent, true)

/-- `OnFailedSend`, of a message with this action: the target of a redirect, if there is one, and the type
of the error, if there is one. -/
def onFailedSend (type : ActionType) (redirect errorType : Option String) (written : Bool) (resent : Nat)
    (s : Session D) : Session D :=
  if type = .unknown then s
  else match redirect with
    | some target =>
      match s.onRedirectError target written resent with
      | (s, true) => s
      | (s, false) => s.setError .response
    | none =>
      match errorType with
      | none => s
      | some error =>
        if type = .transportInfo then s
        else if error ≠ "continue" ∧ error ≠ "wait" then s.setError .response
        else s

/-! ### Messages that were posted -/

/-- `DestroySession` and the destructor. What is still posted is cleared. -/
def destroy (s : Session D) : Session D :=
  { (s.enter .deinit).emit .destroyed with posted := [] }

/-- `BaseSession::OnMessage`. -/
def onBaseMessage (message : Posted) (s : Session D) : Session D :=
  match message with
  | .timeout => s.setError .time
  | .error => s
  | .state =>
    if s.state = .sentAccept ∨ s.state = .receivedAccept then s.setState listen .inProgress else s

/-- `Session::OnMessage`, with whether the session is to be destroyed. It reads the state before
`BaseSession::OnMessage` may change it. -/
def onMessage (message : Posted) (s : Session D) : Session D × Bool :=
  let s' := s.onBaseMessage listen message
  match message with
  | .timeout => (s', false)
  | .error => ((s'.terminateWithReason listen).1, false)
  | .state =>
    if s.state = .sentReject ∨ s.state = .receivedReject then
      ((s'.terminateWithReason listen).1, false)
    else (s', s.state = .sentTerminate || s.state = .receivedTerminate)

/-- A message is taken from those that are posted. -/
def taken (message : Posted) (s : Session D) : Session D := { s with posted := s.posted.erase message }

/-- A message is delivered. -/
def deliver (message : Posted) (s : Session D) : Session D :=
  let (s, ends) := s.onMessage listen message
  if ends then s.destroy else s

/-- `OnTransportWritable`: the timer is cleared, and started again if need be. -/
def onTransportWritable (hasChannels writable : Bool) (s : Session D) : Session D :=
  let s := { s with posted := s.posted.filter (· ≠ .timeout) }
  if hasChannels && !writable then s.post .timeout else s

/-- `OnTransportProxyCandidatesReady`. -/
def onCandidatesReady (written : Bool) (s : Session D) : Session D :=
  if s.initiator && !s.initiateAcked then s
  else if written then s.send .transportInfo else s

end Session

/-! ### Steps -/

/-- What happens to a session. -/
inductive SessionOp (D : Type)
  | call (c : SessionCall D) (inner : Reaction D)
  | message (msg : SessionMessage) (body : Body D) (r : Reaction D)
  | response (type : ActionType) (unsent : Nat)
  | failedSend (type : ActionType) (redirect errorType : Option String) (written : Bool) (resent : Nat)
  | deliver (message : Posted) (r : Reaction D)
  | writable (hasChannels writable : Bool)
  | candidates (written : Bool)

/-- A step. A message is delivered only if it is posted. -/
def Session.step (s : Session D) : SessionOp D → Session D
  | .call c inner => c.apply inner.listen s
  | .message msg body r => s.onIncomingMessage r.listen msg body
  | .response type unsent => s.onIncomingResponse type unsent
  | .failedSend type redirect errorType written resent =>
    s.onFailedSend type redirect errorType written resent
  | .deliver message r => if message ∈ s.posted then (s.taken message).deliver r.listen message else s
  | .writable hasChannels writable => s.onTransportWritable hasChannels writable
  | .candidates written => s.onCandidatesReady written

/-- A step of a run. Nothing happens to a session that is destroyed. -/
def Session.next (s : Session D) (op : SessionOp D) : Session D :=
  if s.state = .deinit then s else s.step op

/-- A run. -/
def Session.run (ops : List (SessionOp D)) (s : Session D) : Session D := ops.foldl Session.next s

end Synciga.P2p
