import Synciga.Xmpp.Calls
import Synciga.Xmpp.XmppSocket

/-!
# `buzz::XmppClient`

A client from the moment its socket has begun to connect (`talk/xmpp/xmppclient.cc`). What the socket reads is
the engine's input, and what the engine tells its output handler goes to the socket. `SignalCloseEvent` of the
socket is not connected to anything.

## Main definitions

* `Client` — an engine and a socket
* `ClientOp`, `Client.step` — what happens to them
-/

namespace Synciga.Xmpp

variable {P M : Type}

/-- `XmppClientSettings`, as far as `Connect` looks at it for the engine. -/
structure ClientSettings where
  user : String
  host : String
  resource : String
  useTls : TlsOptions
  /-- `server().HostAsURIString()`. -/
  serverName : String
  testServerDomain : String

/-- `IsTestServer`. -/
def isTestServer (serverName testServerDomain : String) : Bool :=
  testServerDomain ≠ "" && testServerDomain.toList.isSuffixOf serverName.toList

/-- Whether the server is one of those whose certificate is made out to `talk.google.com`. -/
def ClientSettings.isGoogle (settings : ClientSettings) : Bool :=
  (["talk.google.com", "talkx.l.google.com", "xmpp.google.com", "xmppx.l.google.com"].contains
      settings.serverName || isTestServer settings.serverName settings.testServerDomain) &&
    settings.host ≠ "gmail.com" && settings.host ≠ "googlemail.com"

/-- `XmppClient`. -/
structure Client (P M : Type) where
  engine : Engine P M
  socket : XmppSocket
  /-- Whether `socket_` was reset. The record of the socket stays. -/
  gone : Bool

/-- What happens to a client. -/
inductive ClientOp
  /-- The socket of the system has connected. -/
  | connected (first : Answers) (answers : List Answers)
  /-- The client reads from its socket. -/
  | read (bytes : List UInt8) (responses : List Response) (answers : List Answers)
  /-- The application makes a call. -/
  | call (c : Call) (answers : List Answers)
  /-- The socket of the system can be read. -/
  | readable (answers : Answers)
  /-- The socket of the system can be written. -/
  | writable (answers : Answers)
  /-- The other side has closed the connection. -/
  | closed
  /-- `XmppClient::Disconnect`. -/
  | disconnect (answers : List Answers)

namespace Client

/-- `Connect`, up to the call of the socket's `Connect`. The socket was made with options of its own. -/
def create (parser : Parser P) (settings : ClientSettings) (lang : String) (socketTls : TlsOptions) :
    Client P M :=
  let e : Engine P M := Engine.create parser
  let e := (e.setSessionHandler true).1
  let e := (e.setOutputHandler true).1
  let e := if settings.resource ≠ "" then (e.setRequestedResource settings.resource).1 else e
  let e := (e.setTls settings.useTls).1
  let e := if settings.isGoogle then (e.setTlsServer [] (utf8 "talk.google.com")).1 else e
  let e := { e with lang := lang }
  let e := (e.setUser (Jid.ofParts (utf8 settings.user) (utf8 settings.host) [])).1
  ⟨e, XmppSocket.connecting socketTls, false⟩

/-- The engine has done something, and the socket is told. -/
def update (e : Engine P M) (answers : List Answers) (c : Client P M) : Client P M :=
  { c with
    engine := e
    socket := if c.gone then c.socket
      else XmppSocket.deliver (e.trace.drop c.engine.trace.length) answers c.socket }

variable (parser : Parser P) (sasl : Sasl M)

/-- `Private::OnSocketConnected`. -/
def onSocketConnected (answers : List Answers) (c : Client P M) : Client P M :=
  c.update (c.engine.connect parser sasl).1 answers

/-- One thing happens. The second part says whether it is over; it is not while a handler of the
application is still running. -/
def step (op : ClientOp) (c : Client P M) : Client P M × Bool :=
  match op with
  | .connected first answers =>
    if c.gone ∨ c.socket.conn ≠ .connecting then (c, true)
    else
      match { c.socket with conn := .connected }.adapterConnected first.handshake first.sends with
      | (s, true) => ({ c with socket := s }.onSocketConnected parser sasl answers, true)
      | (s, false) => ({ c with socket := s }, true)
  | .read bytes rs answers =>
    if c.gone ∨ c.socket.canRead = false then (c, true)
    else
      match c.engine.handleInput parser sasl bytes rs with
      | (e, some _) => (c.update e answers, true)
      | (e, none) => (c.update e answers, false)
  -- `Connect` is for the client alone
  | .call .connect _ => (c, true)
  | .call call answers => (c.update (call.apply parser sasl c.engine).1 answers, true)
  | .readable answers =>
    if c.gone then (c, true)
    else ({ c with socket := c.socket.readable answers.handshake answers.sends }, true)
  | .writable answers =>
    if c.gone then (c, true)
    else ({ c with socket := c.socket.writable answers.handshake answers.sends }, true)
  | .closed =>
    if c.gone then (c, true) else ({ c with socket := { c.socket with conn := .closed } }, true)
  | .disconnect answers =>
    if c.gone then (c, true)
    else ({ c.update (c.engine.disconnect parser).1 answers with gone := true }, true)

/-- A run, and whether all of it is over. -/
def run : List ClientOp → Client P M → Client P M × Bool
  | [], c => (c, true)
  | op :: ops, c =>
    match c.step parser sasl op with
    | (c, true) => run ops c
    | (c, false) => (c, false)

end Client

end Synciga.Xmpp
