import Synciga.Xml.Element
import Synciga.Xmpp.Jid

/-!
# `buzz::XmppEngineImpl`: state and internal functions

The client side of an XMPP connection (`talk/xmpp/xmppengineimpl.cc`). Every entry into the engine counts
itself, and the last one to leave writes the buffer, resets the parser if a reset was raised, and reports a
change of state; an entry in which the engine was closed writes at once. The calls that the engine makes are
recorded in `trace`, with a few marks that are not calls (`Event`); nothing is read from it.

## Main definitions

* `Engine` — the engine
* `Engine.enter`, `Engine.exit` — entries
-/

namespace Synciga.Xmpp

/-! ### Constants -/

/-- `NS_CLIENT`. -/
def nsClient : String := "jabber:client"

/-- `NS_STREAM`. -/
def nsStream : String := "http://etherx.jabber.org/streams"

/-- `NS_TLS`. -/
def nsTls : String := "urn:ietf:params:xml:ns:xmpp-tls"

/-- `NS_SASL`. -/
def nsSasl : String := "urn:ietf:params:xml:ns:xmpp-sasl"

/-- `NS_BIND`. -/
def nsBind : String := "urn:ietf:params:xml:ns:xmpp-bind"

/-- `NS_SESSION`. -/
def nsSession : String := "urn:ietf:params:xml:ns:xmpp-session"

/-- `NS_STANZA`. -/
def nsStanza : String := "urn:ietf:params:xml:ns:xmpp-stanzas"

/-- `NS_GOOGLE_AUTH_PROTOCOL`. -/
def nsGoogleAuthProtocol : String := "http://www.google.com/talk/protocol/auth"

/-- `QN_STREAM_STREAM`. -/
def qnStreamStream : QName := ⟨nsStream, "stream"⟩
/-- `QN_STREAM_FEATURES`. -/
def qnStreamFeatures : QName := ⟨nsStream, "features"⟩
/-- `QN_STREAM_ERROR`. -/
def qnStreamError : QName := ⟨nsStream, "error"⟩
/-- `QN_TLS_STARTTLS`. -/
def qnTlsStarttls : QName := ⟨nsTls, "starttls"⟩
/-- `QN_TLS_PROCEED`. -/
def qnTlsProceed : QName := ⟨nsTls, "proceed"⟩
/-- `QN_SASL_MECHANISMS`. -/
def qnSaslMechanisms : QName := ⟨nsSasl, "mechanisms"⟩
/-- `QN_SASL_MECHANISM`. -/
def qnSaslMechanism : QName := ⟨nsSasl, "mechanism"⟩
/-- `QN_SASL_CHALLENGE`. -/
def qnSaslChallenge : QName := ⟨nsSasl, "challenge"⟩
/-- `QN_SASL_SUCCESS`. -/
def qnSaslSuccess : QName := ⟨nsSasl, "success"⟩
/-- `QN_GOOGLE_AUTH_CLIENT_USES_FULL_BIND_RESULT`. -/
def qnGoogleAuthClientUsesFullBindResult : QName := ⟨nsGoogleAuthProtocol, "client-uses-full-bind-result"⟩
/-- `QN_GOOGLE_ALLOW_NON_GOOGLE_ID_XMPP_LOGIN`. -/
def qnGoogleAllowNonGoogleIdXmppLogin : QName := ⟨nsGoogleAuthProtocol, "allow-non-google-login"⟩
/-- `QN_BIND_BIND`. -/
def qnBindBind : QName := ⟨nsBind, "bind"⟩
/-- `QN_BIND_RESOURCE`. -/
def qnBindResource : QName := ⟨nsBind, "resource"⟩
/-- `QN_BIND_JID`. -/
def qnBindJid : QName := ⟨nsBind, "jid"⟩
/-- `QN_SESSION_SESSION`. -/
def qnSessionSession : QName := ⟨nsSession, "session"⟩
/-- `QN_IQ`. -/
def qnIq : QName := ⟨nsClient, "iq"⟩
/-- `QN_ERROR`. -/
def qnError : QName := ⟨nsClient, "error"⟩
/-- `QN_STANZA_TEXT`. -/
def qnStanzaText : QName := ⟨nsStanza, "text"⟩
/-- `QN_VERSION`. -/
def qnVersion : QName := ⟨"", "version"⟩
/-- `QN_TO`. -/
def qnTo : QName := ⟨"", "to"⟩
/-- `QN_FROM`. -/
def qnFrom : QName := ⟨"", "from"⟩
/-- `QN_TYPE`. -/
def qnType : QName := ⟨"", "type"⟩
/-- `QN_ID`. -/
def qnId : QName := ⟨"", "id"⟩
/-- `QN_CODE`. -/
def qnCode : QName := ⟨"", "code"⟩

/-! ### Data -/

/-- The enumeration `TlsOptions`. -/
inductive TlsOptions
  | disabled
  | enabled
  | required
  deriving DecidableEq, Repr

/-- `XmppEngine::Error`, those that the engine signals. -/
inductive Error
  | none
  | xml
  | stream
  | version
  | unauthorized
  | tls
  | auth
  | bind
  | connectionClosed
  | documentClosed
  | socket
  deriving DecidableEq, Repr

/-- `XmppEngine::State`, without the nonexistent one. -/
inductive State
  | start
  | opening
  | open
  | closed
  deriving DecidableEq, Repr

/-- `XmppReturnStatus`, those that the engine returns. -/
inductive ReturnStatus
  | ok
  | badArgument
  | badState
  deriving DecidableEq, Repr

/-- The enumeration `HandlerLevel`. -/
inductive HandlerLevel
  | none
  | peek
  | single
  | sender
  | type
  | all
  deriving DecidableEq, Repr

/-- A handler of stanzas or of responses, which the engine knows by its address. -/
abbrev HandlerId := Nat

/-- Where an element that is printed comes from. The engine prints them all alike. -/
inductive Origin
  /-- The login task's own elements. -/
  | login
  /-- The elements that a mechanism of authentication makes from the credentials. -/
  | sasl
  /-- The elements that were passed to `SendStanza`. -/
  | application
  deriving DecidableEq, Repr

/-- What is put into the stream `output_`. -/
inductive Output
  /-- The stream header of `InternalSendStart`. -/
  | start (hostname : List UInt8) (lang : String)
  | stanza (origin : Origin) (element : XmlElement)
  | raw (text : String)
  /-- The end of the stream, `</stream:stream>`. -/
  | close

/-- Whether this puts any byte into the stream. -/
def Output.nonempty : Output → Bool
  | raw text => text ≠ ""
  | _ => true

/-- What can be seen of the engine. -/
inductive Event
  /-- `XmppOutputHandler::WriteOutput`. -/
  | writeOutput (output : List Output)
  /-- `XmppOutputHandler::StartTls`. -/
  | startTls (domain : List UInt8)
  /-- `XmppOutputHandler::CloseConnection`. -/
  | closeConnection
  /-- `XmppSessionHandler::OnStateChange`. -/
  | stateChange (state : State)
  /-- `XmppStanzaHandler::HandleStanza`. -/
  | handleStanza (level : HandlerLevel) (handler : HandlerId) (stanza : XmlElement)
  /-- `XmppIqHandler::IqResponse`. -/
  | iqResponse (handler : HandlerId) (cookie : Nat) (stanza : XmlElement)
  /-- A mark: `SendStanza` has taken this element. -/
  | sent (element : XmlElement)
  /-- A mark: the state has become `STATE_OPEN`. -/
  | opened
  /-- A mark: the state has become `STATE_CLOSED`. -/
  | closed

/-- `XmppLoginTask::LoginTaskState`. -/
inductive LoginState
  | init
  | streamstartSent
  | startedXmpp
  | tlsInit
  | authInit
  | bindInit
  | tlsRequested
  | saslRunning
  | bindRequested
  | sessionRequested
  | done
  deriving DecidableEq, Repr

/-- `XmppLoginTask`. -/
structure LoginTask (M : Type) where
  authNeeded : Bool
  allowNonGoogleLogin : Bool
  state : LoginState
  /-- `pelStanza_`: the element that is yet to be looked at. -/
  stanza : Option XmlElement
  isStart : Bool
  iqId : String
  features : Option XmlElement
  fullJid : Jid
  streamId : String
  /-- `pvecQueuedStanzas_`. -/
  queuedStanzas : List XmlElement
  saslMech : Option M

/-- `XmppIqEntry`. The address of the entry is its cookie. -/
structure IqEntry where
  cookie : Nat
  id : String
  /-- `to_`. -/
  recipient : String
  handler : HandlerId

/-- `XmppEngineImpl`. -/
structure Engine (P M : Type) where
  /-- `stanza_parser_`. -/
  parser : P
  /-- `engine_entered_`. -/
  entered : Nat
  userJid : Jid
  requestedResource : String
  tlsOption : TlsOptions
  tlsServerHostname : List UInt8
  tlsServerDomain : List UInt8
  loginTask : Option (LoginTask M)
  lang : String
  nextId : Nat
  boundJid : Jid
  state : State
  encrypted : Bool
  errorCode : Error
  subcode : Int
  streamError : Option XmlElement
  raisedReset : Bool
  /-- Whether there is an `output_handler_`. -/
  outputHandler : Bool
  /-- Whether there is a `session_handler_`. -/
  sessionHandler : Bool
  stanzaHandlers : HandlerLevel → List HandlerId
  iqEntries : List IqEntry
  /-- The address of the next entry. -/
  nextCookie : Nat
  /-- `output_`. -/
  output : List Output
  trace : List Event

/-- `SaslHandler` and `SaslMechanism`, which the application provides. -/
structure Sasl (M : Type) where
  chooseBestSaslMechanism : List String → Bool → String
  createSaslMechanism : String → Option M
  startSaslAuth : M → Option XmlElement × M
  handleSaslChallenge : M → XmlElement → Option XmlElement × M

/-- What a parser of stanzas tells its handler. -/
inductive ParseEvent
  | startStream (stream : XmlElement)
  | stanza (stanza : XmlElement)
  | endStream
  | xmlError

/-- A parser of stanzas. What it tells depends on its input only. -/
structure Parser (P : Type) where
  create : P
  parse : P → List UInt8 → P × List ParseEvent
  reset : P → P

/-- A login task that has not begun. -/
def LoginTask.create {M : Type} : LoginTask M where
  authNeeded := true
  allowNonGoogleLogin := true
  state := .init
  stanza := none
  isStart := false
  iqId := ""
  features := none
  fullJid := Jid.empty
  streamId := ""
  queuedStanzas := []
  saslMech := none

namespace Engine

variable {P M : Type}

/-- `XmppEngineImpl()`. -/
def create (parser : Parser P) : Engine P M where
  parser := parser.create
  entered := 0
  userJid := Jid.empty
  requestedResource := ""
  tlsOption := .required
  tlsServerHostname := []
  tlsServerDomain := []
  loginTask := some LoginTask.create
  lang := ""
  nextId := 0
  boundJid := Jid.empty
  state := .start
  encrypted := false
  errorCode := .none
  subcode := 0
  streamError := none
  raisedReset := false
  outputHandler := false
  sessionHandler := false
  stanzaHandlers := fun _ => []
  iqEntries := []
  nextCookie := 0
  output := []
  trace := []

/-- Records an event. -/
def emit (event : Event) (e : Engine P M) : Engine P M := { e with trace := e.trace ++ [event] }

/-! ### Entering and leaving -/

variable (e : Engine P M)

/-- `EnterExit::EnterExit`. The state at this point is kept by the caller. -/
def enter : Engine P M := { e with entered := e.entered + 1 }

/-- The output is handed over. -/
def flush : Engine P M :=
  let e' := if e.output.any Output.nonempty then e.emit (.writeOutput e.output) else e
  { e' with output := [] }

/-- The first part of `EnterExit::~EnterExit`: the output handler. -/
def exitOutput (saved : State) (e : Engine P M) : Engine P M :=
  let closing := e.state ≠ saved ∧ e.state = .closed
  if e.outputHandler ∧ (closing ∨ e.entered = 0) then
    if closing then { e.flush.emit .closeConnection with outputHandler := false } else e.flush
  else e

/-- The second part: the parser and the session handler. -/
def exitOutermost (parser : Parser P) (saved : State) (e : Engine P M) : Engine P M :=
  let e := if e.raisedReset then { e with parser := parser.reset e.parser, raisedReset := false } else e
  if e.sessionHandler ∧ e.state ≠ saved then e.emit (.stateChange e.state) else e

/-- `EnterExit::~EnterExit`, with the state that the constructor saved. -/
def exit (parser : Parser P) (saved : State) (e : Engine P M) : Engine P M :=
  let e := exitOutput saved { e with entered := e.entered - 1 }
  if e.entered ≠ 0 then e else exitOutermost parser saved e

/-! ### Internal functions -/

/-- A reset of the parser is raised. -/
def raiseReset : Engine P M := { e with raisedReset := true }

/-- `XmppEngineImpl::HasError`. -/
def hasError : Bool := e.errorCode ≠ .none

/-- Text or elements are put into the stream. -/
def put (output : Output) (e : Engine P M) : Engine P M := { e with output := e.output ++ [output] }

/-- `XmppEngineImpl::InternalSendStart`. -/
def internalSendStart (domain : List UInt8) (e : Engine P M) : Engine P M :=
  let hostname := if e.tlsServerHostname = [] then domain else e.tlsServerHostname
  e.put (.start hostname (if e.lang = "" then "*" else e.lang))

/-- `XmppEngineImpl::InternalSendStanza`. -/
def internalSendStanza (origin : Origin) (element : XmlElement) (e : Engine P M) : Engine P M :=
  e.put (.stanza origin element)

/-- `XmppEngineImpl::SignalBound`. -/
def signalBound (fullJid : Jid) (e : Engine P M) : Engine P M :=
  if e.state = .opening then { e.emit .opened with boundJid := fullJid, state := .open } else e

/-- `XmppEngineImpl::SignalError`. -/
def signalError (error : Error) (subcode : Int) (e : Engine P M) : Engine P M :=
  if e.state ≠ .closed then
    { e.emit .closed with errorCode := error, subcode := subcode, state := .closed }
  else e

/-- `XmppEngineImpl::SignalStreamError`. -/
def signalStreamError (streamError : XmlElement) (e : Engine P M) : Engine P M :=
  if e.state ≠ .closed then signalError .stream 0 { e with streamError := some streamError } else e

/-- `XmppEngineImpl::StartTls`. -/
def startTls (domain : List UInt8) (e : Engine P M) : Engine P M :=
  if e.outputHandler then
    { e.emit (.startTls (if e.tlsServerDomain = [] then domain else e.tlsServerDomain)) with
      encrypted := true }
  else e

/-- `NextId`. -/
def takeId : String × Engine P M := (toString e.nextId, { e with nextId := e.nextId + 1 })

end Engine

end Synciga.Xmpp
