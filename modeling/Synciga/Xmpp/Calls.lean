import Synciga.Xmpp.LoginTask

/-!
# `buzz::XmppEngineImpl`: calls, input and runs

The functions that the application calls, and the way of a stanza through the engine
(`talk/xmpp/xmppengineimpl.cc`, `talk/xmpp/xmppengineimpl_iq.cc`).

While a handler runs it may make any calls but `HandleInput`. What handlers do is given with the input, in the
order in which they are called; if there is too little of it, the handler that was called last is still running.
This says nothing about when a dispatch ends. The session handler is called as the last thing before the
outermost function returns, so that its calls are the same as calls that are made afterwards.

## Main definitions

* `Call`, `Response` — a call, and what a handler does
* `Engine.handleInput`, `run` — input and runs
-/

namespace Synciga.Xmpp

variable {P M : Type}

/-- `XmppStanzaError`. -/
inductive StanzaError
  | badRequest
  | conflict
  | featureNotImplemented
  | forbidden
  | gone
  | internalServerError
  | itemNotFound
  | jidMalformed
  | notAcceptable
  | notAllowed
  | paymentRequired
  | recipientUnavailable
  | redirect
  | registrationRequired
  | serverNotFound
  | serverTimeout
  | resourceConstraint
  | serviceUnavailable
  | subscriptionRequired
  | undefinedCondition
  | unexpectedRequest
  deriving DecidableEq, Repr

/-- The table of `AddErrorCode`: the name of the condition, the type and the code. -/
def StanzaError.condition : StanzaError → String × String × String
  | badRequest => ("bad-request", "modify", "400")
  | conflict => ("conflict", "cancel", "409")
  | featureNotImplemented => ("feature-not-implemented", "cancel", "501")
  | forbidden => ("forbidden", "auth", "403")
  | gone => ("gone", "modify", "302")
  | internalServerError => ("internal-server-error", "wait", "500")
  | itemNotFound => ("item-not-found", "cancel", "404")
  | jidMalformed => ("jid-malformed", "modify", "400")
  | notAcceptable => ("not-acceptable", "cancel", "406")
  | notAllowed => ("not-allowed", "cancel", "405")
  | paymentRequired => ("payment-required", "auth", "402")
  | recipientUnavailable => ("recipient-unavailable", "wait", "404")
  | redirect => ("redirect", "modify", "302")
  | registrationRequired => ("registration-required", "auth", "407")
  | serverNotFound => ("remote-server-not-found", "cancel", "404")
  | serverTimeout => ("remote-server-timeout", "wait", "502")
  | resourceConstraint => ("resource-constraint", "wait", "500")
  | serviceUnavailable => ("service-unavailable", "cancel", "503")
  | subscriptionRequired => ("subscription-required", "auth", "407")
  | undefinedCondition => ("undefined-condition", "wait", "500")
  | unexpectedRequest => ("unexpected-request", "wait", "400")

/-- `AddErrorCode`. -/
def addErrorCode (element : XmlElement) (code : StanzaError) : XmlElement :=
  let (name, type, number) := code.condition
  element.addElement ((((XmlElement.ofName qnError).addAttr qnCode number).addAttr qnType type).addElement
    (XmlElement.withDefaultNs ⟨nsStanza, name⟩))

/-- The element that `SendStanzaError` makes from the original. -/
def errorElement (original : XmlElement) (code : StanzaError) (text : String) : XmlElement :=
  let element := (XmlElement.ofName original.name).addAttr qnType "error"
  let element := original.attrs.foldl (fun element attr =>
    if attr.1 = qnTo then element
    else if attr.1 = qnFrom then element.addAttr qnTo attr.2
    else if attr.1 = qnType then element
    else element.addAttr attr.1 attr.2) element
  let element := original.children.foldl (fun element child =>
    match child with
    | .text text => element.addParsedText text
    | .element child => element.addElement child) element
  let element := addErrorCode element code
  if text = "" then element
  else element.addElement ((XmlElement.withDefaultNs qnStanzaText).addParsedText text)

/-! ### Calls -/

/-- The calls that the application can make at any time. -/
inductive Call
  | setOutputHandler (present : Bool)
  | setSessionHandler (present : Bool)
  | setTls (useTls : TlsOptions)
  | setTlsServer (hostname domain : List UInt8)
  | setUser (jid : Jid)
  | setRequestedResource (resource : String)
  | setLanguage (lang : String)
  | addStanzaHandler (handler : HandlerId) (level : HandlerLevel)
  | removeStanzaHandler (handler : HandlerId)
  | connect
  | sendStanza (element : XmlElement)
  | sendRaw (text : String)
  | sendIq (element : Option XmlElement) (handler : Option HandlerId)
  | removeIqHandler (cookie : Nat)
  | sendStanzaError (original : XmlElement) (code : StanzaError) (text : String)
  | nextId
  | disconnect
  | connectionClosed (subcode : Int)

namespace Engine

variable (parser : Parser P) (sasl : Sasl M)

/-- The functions that set something before the connection is started. -/
def ifStart (f : Engine P M → Engine P M) (e : Engine P M) : Engine P M × ReturnStatus :=
  if e.state ≠ .start then (e, .badState) else (f e, .ok)

/-- `XmppEngineImpl::SetOutputHandler`. -/
def setOutputHandler (present : Bool) : Engine P M → Engine P M × ReturnStatus :=
  ifStart fun e => { e with outputHandler := present }

/-- `XmppEngineImpl::SetSessionHandler`. -/
def setSessionHandler (present : Bool) : Engine P M → Engine P M × ReturnStatus :=
  ifStart fun e => { e with sessionHandler := present }

/-- `XmppEngineImpl::SetTls`. -/
def setTls (useTls : TlsOptions) : Engine P M → Engine P M × ReturnStatus :=
  ifStart fun e => { e with tlsOption := useTls }

/-- `XmppEngineImpl::SetTlsServer`. -/
def setTlsServer (hostname domain : List UInt8) : Engine P M → Engine P M × ReturnStatus :=
  ifStart fun e => { e with tlsServerHostname := hostname, tlsServerDomain := domain }

/-- `XmppEngineImpl::SetUser`. -/
def setUser (jid : Jid) : Engine P M → Engine P M × ReturnStatus :=
  ifStart fun e => { e with userJid := jid }

/-- `XmppEngineImpl::SetRequestedResource`. -/
def setRequestedResource (resource : String) : Engine P M → Engine P M × ReturnStatus :=
  ifStart fun e => { e with requestedResource := resource }

/-- `XmppEngineImpl::AddStanzaHandler`. -/
def addStanzaHandler (handler : HandlerId) (level : HandlerLevel) (e : Engine P M) :
    Engine P M × ReturnStatus :=
  if e.state = .closed then (e, .badState)
  else ({ e with stanzaHandlers :=
    Function.update e.stanzaHandlers level (e.stanzaHandlers level ++ [handler]) }, .ok)

/-- `RemoveStanzaHandler`: on every level. -/
def removeStanzaHandler (handler : HandlerId) (e : Engine P M) : Engine P M × ReturnStatus :=
  let found := [HandlerLevel.none, .peek, .single, .sender, .type, .all].any fun level =>
    (e.stanzaHandlers level).contains handler
  ({ e with stanzaHandlers := fun level => (e.stanzaHandlers level).filter (· ≠ handler) },
    if found then .ok else .badArgument)

variable (e : Engine P M)

/-- `XmppEngineImpl::Connect`. -/
def connect : Engine P M × ReturnStatus :=
  if e.state ≠ .start then (e, .badState)
  else
    let e' := { e.enter with state := .opening }
    let e' := match e'.loginTask with
      | none => e'
      | some t => e'.loginStanza sasl none false t
    (e'.exit parser e.state, .ok)

/-- What `SendStanza` does inside. -/
def sendInside (element : XmlElement) (e : Engine P M) : Engine P M :=
  match e.loginTask with
  | none => (e.emit (.sent element)).internalSendStanza .application element
  | some t => { e.emit (.sent element) with loginTask := some (t.outgoingStanza element) }

/-- `XmppEngineImpl::SendStanza`. -/
def sendStanza (element : XmlElement) (e : Engine P M) : Engine P M × ReturnStatus :=
  if e.state = .closed then (e, .badState)
  else ((e.enter.sendInside element).exit parser e.state, .ok)

/-- `XmppEngineImpl::SendRaw`. -/
def sendRaw (text : String) (e : Engine P M) : Engine P M × ReturnStatus :=
  if e.state = .closed ∨ e.loginTask.isSome then (e, .badState)
  else ((e.enter.put (.raw text)).exit parser e.state, .ok)

/-- `XmppEngineImpl::SendIq`. -/
def sendIq (element : Option XmlElement) (handler : Option HandlerId) (e : Engine P M) :
    Engine P M × ReturnStatus :=
  if e.state = .closed then (e, .badState)
  else match handler, element with
    | some handler, some element =>
      if element.name ≠ qnIq then (e, .badArgument)
      else if element.attr qnType ≠ "get" ∧ element.attr qnType ≠ "set" then (e, .badArgument)
      else if element.hasAttr qnId = false then (e, .badArgument)
      else
        let entry := ⟨e.nextCookie, element.attr qnId, element.attr qnTo, handler⟩
        let e := { e with iqEntries := e.iqEntries ++ [entry], nextCookie := e.nextCookie + 1 }
        ((e.sendStanza parser element).1, .ok)
    | _, _ => (e, .badArgument)

/-- `XmppEngineImpl::RemoveIqHandler`. -/
def removeIqHandler (cookie : Nat) (e : Engine P M) : Engine P M × ReturnStatus :=
  if e.iqEntries.any (·.cookie = cookie) then
    ({ e with iqEntries := e.iqEntries.eraseP (·.cookie = cookie) }, .ok)
  else (e, .badArgument)

/-- `XmppEngineImpl::SendStanzaError`. -/
def sendStanzaError (original : XmlElement) (code : StanzaError) (text : String) (e : Engine P M) :
    Engine P M × ReturnStatus :=
  if e.state = .closed then (e, .badState)
  else ((e.sendStanza parser (errorElement original code text)).1, .ok)

/-- The state becomes `STATE_CLOSED` in `Disconnect`. -/
def disconnectInside : Engine P M :=
  let e := if e.state = .open then e.put .close else e
  { e.emit .closed with state := .closed }

/-- `XmppEngineImpl::Disconnect`. -/
def disconnect : Engine P M × ReturnStatus :=
  if e.state = .closed then (e, .ok)
  else (e.enter.disconnectInside.exit parser e.state, .ok)

/-- `XmppEngineImpl::ConnectionClosed`. -/
def connectionClosed (subcode : Int) (e : Engine P M) : Engine P M × ReturnStatus :=
  if e.state = .closed then (e, .ok)
  else
    let e' := if subcode ≠ 0 then e.enter.signalError .socket subcode
      else e.enter.signalError .connectionClosed 0
    (e'.exit parser e.state, .ok)

end Engine

/-- A call is made. -/
def Call.apply (parser : Parser P) (sasl : Sasl M) (c : Call) (e : Engine P M) :
    Engine P M × ReturnStatus :=
  match c with
  | setOutputHandler present => e.setOutputHandler present
  | setSessionHandler present => e.setSessionHandler present
  | setTls useTls => e.setTls useTls
  | setTlsServer hostname domain => e.setTlsServer hostname domain
  | setUser jid => e.setUser jid
  | setRequestedResource resource => e.setRequestedResource resource
  | setLanguage lang => ({ e with lang := lang }, .ok)
  | addStanzaHandler handler level => e.addStanzaHandler handler level
  | removeStanzaHandler handler => e.removeStanzaHandler handler
  | connect => e.connect parser sasl
  | sendStanza element => e.sendStanza parser element
  | sendRaw text => e.sendRaw parser text
  | sendIq element handler => e.sendIq parser element handler
  | removeIqHandler cookie => e.removeIqHandler cookie
  | sendStanzaError original code text => e.sendStanzaError parser original code text
  | nextId => (e.takeId.2, .ok)
  | disconnect => e.disconnect parser
  | connectionClosed subcode => e.connectionClosed parser subcode

/-! ### Handlers -/

/-- What a handler does when it is called: the calls that it makes, and whether it has handled the
stanza. -/
structure Response where
  calls : List Call
  handled : Bool

/-- The calls of a handler are made. -/
def Response.apply (parser : Parser P) (sasl : Sasl M) (r : Response) (e : Engine P M) : Engine P M :=
  r.calls.foldl (fun e c => (c.apply parser sasl e).1) e

/-- How the walk over the handlers of a level ends. -/
inductive WalkEnd
  /-- The end of the list was reached. -/
  | finished (responses : List Response)
  /-- A handler has handled the stanza. -/
  | handled (responses : List Response)
  /-- The handler that was called last is still running. -/
  | running

namespace Engine

variable (parser : Parser P) (sasl : Sasl M)

/-- The loop over the handlers of a level, from an index on. The list is looked at again in each
round. -/
def walk (level : HandlerLevel) (stanza : XmlElement) :
    List Response → Nat → Engine P M → Engine P M × WalkEnd
  | rs, i, e =>
    match (e.stanzaHandlers level)[i]?, rs with
    | none, rs => (e, .finished rs)
    | some handler, [] => (e.emit (.handleStanza level handler stanza), .running)
    | some handler, r :: rs =>
      let e := r.apply parser sasl (e.emit (.handleStanza level handler stanza))
      -- what a handler that peeks returns is not looked at
      if level ≠ .peek ∧ r.handled then (e, .handled rs) else walk level stanza rs (i + 1) e

section walk

variable {parser sasl} {level : HandlerLevel} {stanza : XmlElement} {i : Nat} {e : Engine P M}

theorem walk_of_none (h : (e.stanzaHandlers level)[i]? = none) (rs : List Response) :
    walk parser sasl level stanza rs i e = (e, .finished rs) := by
  unfold walk
  rw [h]

theorem walk_nil_of_some {handler : HandlerId} (h : (e.stanzaHandlers level)[i]? = some handler) :
    walk parser sasl level stanza [] i e = (e.emit (.handleStanza level handler stanza), .running) := by
  unfold walk
  rw [h]

theorem walk_cons_of_some {handler : HandlerId} (h : (e.stanzaHandlers level)[i]? = some handler)
    (r : Response) (rs : List Response) :
    walk parser sasl level stanza (r :: rs) i e =
      if level ≠ .peek ∧ r.handled then
        (r.apply parser sasl (e.emit (.handleStanza level handler stanza)), .handled rs)
      else
        walk parser sasl level stanza rs (i + 1)
          (r.apply parser sasl (e.emit (.handleStanza level handler stanza))) := by
  conv_lhs => unfold walk
  rw [h]

end walk

/-- The loops over the levels. -/
def dispatch (stanza : XmlElement) :
    List HandlerLevel → List Response → Engine P M → Engine P M × WalkEnd
  | [], rs, e => (e, .finished rs)
  | level :: levels, rs, e =>
    match walk parser sasl level stanza rs 0 e with
    | (e, .finished rs) => dispatch stanza levels rs e
    | result => result

/-- The levels, in the order in which they get a stanza. -/
def levels : List HandlerLevel := [.peek, .single, .sender, .type, .all]

/-- A stanza that nobody has handled: an iq that asks for something is answered with an error. -/
def unhandled (stanza : XmlElement) (e : Engine P M) : Engine P M :=
  if stanza.name = qnIq ∧ ¬(stanza.attr qnType = "error" ∨ stanza.attr qnType = "result") then
    (e.sendStanzaError parser stanza .featureNotImplemented "").1
  else e

/-- The entry that `HandleIqResponse` finds. -/
def findIqEntry (element : XmlElement) (e : Engine P M) : Option IqEntry :=
  if element.name ≠ qnIq then none
  else if element.attr qnType ≠ "result" ∧ element.attr qnType ≠ "error" then none
  else if element.hasAttr qnId = false then none
  else e.iqEntries.find? fun entry =>
    entry.id = element.attr qnId ∧ entry.recipient = element.attr qnFrom

/-- The rest of `HandleIqResponse`: the entry is erased, and its handler is called. -/
def iqResponse (entry : IqEntry) (element : XmlElement) (rs : List Response) (e : Engine P M) :
    Engine P M × Option (List Response) :=
  let e := { e with iqEntries := e.iqEntries.eraseP fun other =>
    other.id = entry.id ∧ other.recipient = entry.recipient }
  let e := e.emit (.iqResponse entry.handler entry.cookie element)
  match rs with
  | [] => (e, none)
  | r :: rs => (r.apply parser sasl e, some rs)

/-- `XmppEngineImpl::IncomingStart`. -/
def incomingStart (start : XmlElement) (e : Engine P M) : Engine P M :=
  if e.hasError ∨ e.raisedReset then e
  else match e.loginTask with
    | some t => e.loginStanza sasl (some start) true t
    | none => e.signalError .xml 0

/-- `IncomingStanza`. The responses that are left are returned, or nothing if a handler is still
running. -/
def incomingStanza (stanza : XmlElement) (rs : List Response) (e : Engine P M) :
    Engine P M × Option (List Response) :=
  if e.hasError ∨ e.raisedReset then (e, some rs)
  else if stanza.name = qnStreamError then (e.signalStreamError stanza, some rs)
  else match e.loginTask with
    | some t => (e.loginStanza sasl (some stanza) false t, some rs)
    | none =>
      match e.findIqEntry stanza with
      | some entry => e.iqResponse parser sasl entry stanza rs
      | none =>
        match e.dispatch parser sasl stanza levels rs with
        | (e, .finished rs) => (e.unhandled parser stanza, some rs)
        | (e, .handled rs) => (e, some rs)
        | (e, .running) => (e, none)

/-- `XmppEngineImpl::IncomingEnd`. -/
def incomingEnd (isError : Bool) (e : Engine P M) : Engine P M :=
  if e.hasError ∨ e.raisedReset then e
  else e.signalError (if isError then .xml else .documentClosed) 0

/-- `StanzaParseHandler`. -/
def incomingEvent (event : ParseEvent) (rs : List Response) (e : Engine P M) :
    Engine P M × Option (List Response) :=
  match event with
  | .startStream stream => (e.incomingStart sasl stream, some rs)
  | .stanza stanza => e.incomingStanza parser sasl stanza rs
  | .endStream => (e.incomingEnd false, some rs)
  | .xmlError => (e.incomingEnd true, some rs)

/-- What the parser tells, one after the other. -/
def incomingEvents : List ParseEvent → List Response → Engine P M → Engine P M × Option (List Response)
  | [], rs, e => (e, some rs)
  | event :: events, rs, e =>
    match e.incomingEvent parser sasl event rs with
    | (e, some rs) => incomingEvents events rs e
    | (e, none) => (e, none)

/-- `HandleInput`. There is no status while a handler is still running. Parser and engine do not look at each
other's state meanwhile, so the parser can be put forward at the end. -/
def handleInput (bytes : List UInt8) (rs : List Response) (e : Engine P M) :
    Engine P M × Option ReturnStatus :=
  if e.state ≠ .opening ∧ e.state ≠ .open then (e, some .badState)
  else
    let (p, events) := parser.parse e.parser bytes
    match e.enter.incomingEvents parser sasl events rs with
    | (e', some _) => ({ e' with parser := p }.exit parser e.state, some .ok)
    | (e', none) => (e', none)

end Engine

/-! ### Runs -/

/-- What happens to an engine from outside. -/
inductive Op
  | call (c : Call)
  | input (bytes : List UInt8) (responses : List Response)

/-- A run, and whether all of it has returned. Nothing happens while a handler is still running. -/
def run (parser : Parser P) (sasl : Sasl M) : List Op → Engine P M → Engine P M × Bool
  | [], e => (e, true)
  | .call c :: ops, e => run parser sasl ops (c.apply parser sasl e).1
  | .input bytes rs :: ops, e =>
    match e.handleInput parser sasl bytes rs with
    | (e, some _) => run parser sasl ops e
    | (e, none) => (e, false)

end Synciga.Xmpp
