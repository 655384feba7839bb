import Synciga.Xmpp.Engine

/-!
# `buzz::XmppLoginTask`

The login (`talk/xmpp/xmpplogintask.cc`): the stream is opened, TLS is negotiated, the stream is opened again,
the user is authenticated, the stream is opened a third time, a resource is bound and a session is requested.
`Advance` goes through these states in a loop, until it needs an element and there is none.

## Main definitions

* `LoginTask.step` — a round of the loop
* `LoginTask.advance` — the loop
-/

namespace Synciga.Xmpp

variable {P M : Type}

/-- How a round of `Advance` ends. -/
inductive Flow
  | continue
  | return
  deriving DecidableEq, Repr

namespace LoginTask

variable (t : LoginTask M)

/-- `XmppLoginTask::GetFeature`. -/
def getFeature (name : QName) : Option XmlElement :=
  t.features.bind fun features => features.firstNamed name

/-- `XmppLoginTask::Failure`. -/
def failure (reason : Error) (t : LoginTask M) (e : Engine P M) : LoginTask M × Engine P M × Flow :=
  ({ t with state := .done }, e.signalError reason 0, .return)

variable (element : XmlElement)

/-- `HandleStartStream`: the stream's id, if this is a stream header that is acceptable. -/
def handleStartStream : Option String :=
  if element.name ≠ qnStreamStream then none
  else if element.attr qnXmlns ≠ "jabber:client" then none
  else if element.attr qnVersion ≠ "1.0" then none
  else if element.hasAttr qnId = false then none
  else some (element.attr qnId)

/-- `LOGINSTATE_INIT`. -/
def stepInit (e : Engine P M) : LoginTask M × Engine P M × Flow :=
  ({ t with features := none, state := .streamstartSent },
    e.raiseReset.internalSendStart e.userJid.domain, .continue)

/-- `LOGINSTATE_STREAMSTART_SENT`, with an element. -/
def stepStreamstartSent (t : LoginTask M) (e : Engine P M) :
    LoginTask M × Engine P M × Flow :=
  if t.isStart = false then t.failure .version e
  else match handleStartStream element with
    | none => t.failure .version e
    | some streamId => ({ t with streamId := streamId, state := .startedXmpp }, e, .return)

/-- `LOGINSTATE_STARTED_XMPP`, with an element. -/
def stepStartedXmpp (t : LoginTask M) (e : Engine P M) :
    LoginTask M × Engine P M × Flow :=
  if element.name ≠ qnStreamFeatures then t.failure .version e
  else
    let t := { t with features := some element }
    have tlsPresent := (t.getFeature qnTlsStarttls).isSome
    if e.tlsOption = .required ∧ tlsPresent = false then t.failure .tls e
    else if (e.tlsOption = .required ∨ e.tlsOption = .enabled) ∧ tlsPresent = true then
      ({ t with state := .tlsInit }, e, .continue)
    else if t.authNeeded then ({ t with state := .authInit }, e, .continue)
    else ({ t with state := .bindInit }, e, .continue)

/-- `LOGINSTATE_TLS_INIT`. -/
def stepTlsInit (e : Engine P M) : LoginTask M × Engine P M × Flow :=
  match t.getFeature qnTlsStarttls with
  | none => t.failure .tls e
  | some _ => ({ t with state := .tlsRequested },
      e.internalSendStanza .login (XmlElement.withDefaultNs qnTlsStarttls), .continue)

/-- `LOGINSTATE_TLS_REQUESTED`, with an element. -/
def stepTlsRequested (t : LoginTask M) (e : Engine P M) :
    LoginTask M × Engine P M × Flow :=
  if element.name ≠ qnTlsProceed then t.failure .tls e
  else ({ t with state := .init }, { e.startTls e.userJid.domain with tlsOption := .enabled }, .continue)

variable (sasl : Sasl M)

/-- `LOGINSTATE_AUTH_INIT`. -/
def stepAuthInit (t : LoginTask M) (e : Engine P M) : LoginTask M × Engine P M × Flow :=
  match t.getFeature qnSaslMechanisms with
  | none => t.failure .auth e
  | some saslAuth =>
    let mechanisms := (saslAuth.allNamed qnSaslMechanism).map XmlElement.bodyText
    let choice := sasl.chooseBestSaslMechanism mechanisms e.encrypted
    if choice = "" then t.failure .auth e
    else match sasl.createSaslMechanism choice with
      | none => { t with saslMech := none }.failure .auth e
      | some mech =>
        match sasl.startSaslAuth mech with
        | (none, mech) => { t with saslMech := some mech }.failure .auth e
        | (some auth, mech) =>
          let auth := if t.allowNonGoogleLogin then
              (auth.setAttr qnGoogleAllowNonGoogleIdXmppLogin "true").setAttr
                qnGoogleAuthClientUsesFullBindResult "true"
            else auth
          ({ t with saslMech := some mech, state := .saslRunning }, e.internalSendStanza .sasl auth, .continue)

/-- `LOGINSTATE_SASL_RUNNING`, with an element. -/
def stepSaslRunning (element : XmlElement) (t : LoginTask M) (e : Engine P M) :
    LoginTask M × Engine P M × Flow :=
  if element.name.ns ≠ nsSasl then t.failure .auth e
  else if element.name = qnSaslChallenge then
    match t.saslMech with
    -- the mechanism was created when this state was entered
    | none => (t, e, .return)
    | some mech =>
      match sasl.handleSaslChallenge mech element with
      | (none, mech) => { t with saslMech := some mech }.failure .auth e
      | (some response, mech) =>
        ({ t with saslMech := some mech }, e.internalSendStanza .sasl response, .continue)
  else if element.name ≠ qnSaslSuccess then t.failure .unauthorized e
  else ({ t with authNeeded := false, state := .init }, e, .continue)

/-- `LOGINSTATE_BIND_INIT`. -/
def stepBindInit (e : Engine P M) : LoginTask M × Engine P M × Flow :=
  if (t.getFeature qnBindBind).isNone ∨ (t.getFeature qnSessionSession).isNone then t.failure .bind e
  else
    let (id, e) := e.takeId
    let bind := XmlElement.withDefaultNs qnBindBind
    let bind := if e.requestedResource = "" then bind
      else bind.addElement ((XmlElement.ofName qnBindResource).addParsedText e.requestedResource)
    let iq := (((XmlElement.ofName qnIq).addAttr qnType "set").addAttr qnId id).addElement bind
    ({ t with iqId := id, state := .bindRequested }, e.internalSendStanza .login iq, .continue)

/-- The check that `LOGINSTATE_BIND_REQUESTED` and `LOGINSTATE_SESSION_REQUESTED` make: a response to
their own iq. -/
def isResponse (element : XmlElement) : Bool :=
  element.name = qnIq ∧ element.attr qnId = t.iqId ∧ element.attr qnType ≠ "get" ∧
    element.attr qnType ≠ "set"

/-- `LOGINSTATE_BIND_REQUESTED`, with an element. -/
def stepBindRequested (t : LoginTask M) (e : Engine P M) :
    LoginTask M × Engine P M × Flow :=
  if t.isResponse element = false then (t, e, .return)
  else match element.firstElement with
    | none => t.failure .bind e
    | some first =>
      if element.attr qnType ≠ "result" ∨ first.name ≠ qnBindBind then t.failure .bind e
      else
        let t := { t with fullJid := Jid.ofString (utf8 (first.textNamed qnBindJid)) }
        if t.fullJid.isFull = false then t.failure .bind e
        else
          let (id, e) := e.takeId
          let iq := (((XmlElement.ofName qnIq).addAttr qnType "set").addAttr qnId id).addElement
            (XmlElement.withDefaultNs qnSessionSession)
          ({ t with iqId := id, state := .sessionRequested }, e.internalSendStanza .login iq, .continue)

/-- `XmppLoginTask::FlushQueuedStanzas`. -/
def flushQueuedStanzas (e : Engine P M) : LoginTask M × Engine P M :=
  ({ t with queuedStanzas := [] },
    t.queuedStanzas.foldl (fun e element => e.internalSendStanza .application element) e)

/-- `LOGINSTATE_SESSION_REQUESTED`, with an element. -/
def stepSessionRequested (t : LoginTask M) (e : Engine P M) :
    LoginTask M × Engine P M × Flow :=
  if t.isResponse element = false then (t, e, .return)
  else if element.attr qnType ≠ "result" then t.failure .bind e
  else
    let (t, e) := t.flushQueuedStanzas (e.signalBound t.fullJid)
    ({ t with state := .done }, e, .return)

/-- `NextStanza`, in a state that waits for an element. -/
def takeStanza (e : Engine P M)
    (k : XmlElement → LoginTask M → Engine P M → LoginTask M × Engine P M × Flow) :
    LoginTask M × Engine P M × Flow :=
  match t.stanza with
  | none => (t, e, .return)
  | some element => k element { t with stanza := none } e

/-- One round of `Advance`. -/
def step (t : LoginTask M) (e : Engine P M) : LoginTask M × Engine P M × Flow :=
  match t.state with
  | .init => t.stepInit e
  | .streamstartSent => t.takeStanza e stepStreamstartSent
  | .startedXmpp => t.takeStanza e stepStartedXmpp
  | .tlsInit => t.stepTlsInit e
  | .tlsRequested => t.takeStanza e stepTlsRequested
  | .authInit => t.stepAuthInit sasl e
  | .saslRunning => t.takeStanza e (stepSaslRunning sasl)
  | .bindInit => t.stepBindInit e
  | .bindRequested => t.takeStanza e stepBindRequested
  | .sessionRequested => t.takeStanza e stepSessionRequested
  | .done => (t, e, .return)

/-- The loop of `Advance`, at most so many rounds. -/
def advanceLoop (sasl : Sasl M) : Nat → LoginTask M → Engine P M → LoginTask M × Engine P M
  | 0, t, e => (t, e)
  | n + 1, t, e =>
    match t.step sasl e with
    | (t, e, .continue) => advanceLoop sasl n t e
    | (t, e, .return) => (t, e)

/-- `XmppLoginTask::Advance`. -/
def advance (t : LoginTask M) (e : Engine P M) : LoginTask M × Engine P M :=
  advanceLoop sasl 4 t e

/-- `XmppLoginTask::IncomingStanza`. -/
def incomingStanza (element : Option XmlElement) (isStart : Bool) (t : LoginTask M)
    (e : Engine P M) : LoginTask M × Engine P M :=
  let (t, e) := { t with stanza := element, isStart := isStart }.advance sasl e
  ({ t with stanza := none, isStart := false }, e)

/-- `XmppLoginTask::OutgoingStanza`. -/
def outgoingStanza (t : LoginTask M) : LoginTask M :=
  { t with queuedStanzas := t.queuedStanzas ++ [element] }

end LoginTask

/-- An element is given to the login task, and the task is deleted if it is done. -/
def Engine.loginStanza (sasl : Sasl M) (element : Option XmlElement) (isStart : Bool) (t : LoginTask M)
    (e : Engine P M) : Engine P M :=
  let (t, e) := t.incomingStanza sasl element isStart e
  { e with loginTask := if t.state = .done then none else some t }

end Synciga.Xmpp
