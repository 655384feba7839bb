import Synciga.Xml.Printer
import Synciga.Xmpp.Engine

/-!
# `buzz::XmppSocket`

The socket under an `XmppClient` (`talk/xmpp/xmppsocket.cc`, without `USE_SSLSTREAM`), and the adapter for TLS
over the socket of the system (`talk/base/openssladapter.cc`). What the system and the TLS library answer is
given with each call. A socket that was made with `TLS_DISABLED` behaves like one whose adapter was never
started, except that `StartTls` fails.

## Main definitions

* `XmppSocket` — the socket with its adapter
* `XmppSocket.handle` — what the client passes on to it
-/

namespace Synciga.Xmpp

/-- The states of the socket of the system. -/
inductive ConnState
  | closed
  | connecting
  | connected
  deriving DecidableEq, Repr

/-- The states of the adapter. -/
inductive SslState
  | none
  | wait
  | connecting
  | connected
  | error
  deriving DecidableEq, Repr

/-- `AsyncSocket::State`, those that an `XmppSocket` can be in. -/
inductive SocketState
  | closed
  | open
  | tlsConnecting
  | tlsOpen
  deriving DecidableEq, Repr

/-- What is answered when bytes are to be sent. -/
inductive SendAnswer
  /-- One byte and so many more are taken, as far as there are any. -/
  | took (more : Nat)
  | blocked
  | failed

/-- How a handshake goes on: `SSL_connect`, with all that comes before the first one and with the check
of the certificate after the last one. -/
inductive Handshake
  | pending
  | established
  | failed

/-- `XmppSocket`, with its adapter and the socket of the system. -/
structure XmppSocket where
  tls : TlsOptions
  state : SocketState
  /-- `buffer_`: what is yet to be sent. -/
  buffer : List UInt8
  /-- The state of the adapter. -/
  ssl : SslState
  /-- The state of the socket of the system. -/
  conn : ConnState
  /-- Whether the socket of the system has a descriptor. -/
  descriptor : Bool
  /-- The bytes that were passed on, and whether they went through a TLS session. -/
  passed : List (Bool × UInt8)

namespace XmppSocket

/-- A socket that has begun to connect. -/
def connecting (tls : TlsOptions) : XmppSocket := ⟨tls, .closed, [], .none, .connecting, true, []⟩

/-- `OpenSSLAdapter::Send`: how many bytes were sent, if any. -/
def send (data : List UInt8) (answer : SendAnswer) (s : XmppSocket) : Option Nat × XmppSocket :=
  match s.ssl, answer with
  | .none, .took more =>
    let sent := data.take (more + 1)
    if s.descriptor then (some sent.length, { s with passed := s.passed ++ sent.map (false, ·) }) else (none, s)
  | .connected, .took more =>
    let sent := data.take (more + 1)
    (some sent.length, { s with passed := s.passed ++ sent.map (true, ·) })
  | .connected, .failed => (none, { s with ssl := .error })
  | _, _ => (none, s)

/-- `OnWriteEvent`. A call of `Send` that there is no answer for blocks. -/
def onWriteEvent : List SendAnswer → XmppSocket → XmppSocket
  | [], s => s
  | answer :: answers, s =>
    if s.buffer = [] then s
    else match s.send s.buffer answer with
      | (some n, s) => onWriteEvent answers { s with buffer := s.buffer.drop n }
      | (none, s) => s

/-- `OnConnectEvent`, and whether the client is told of it. -/
def onConnectEvent (answers : List SendAnswer) (s : XmppSocket) : XmppSocket × Bool :=
  if s.state = .tlsConnecting then (onWriteEvent answers { s with state := .tlsOpen }, false)
  else ({ s with state := .open }, true)

/-! ### The adapter -/

variable (handshake : Handshake)

/-- `ContinueSSL`, and whether it has failed. -/
def continueSsl (answers : List SendAnswer) (s : XmppSocket) : XmppSocket × Bool :=
  match handshake with
  | .pending => (s, false)
  | .established => ((onConnectEvent answers { s with ssl := .connected }).1, false)
  | .failed => (s, true)

/-- `BeginSSL`, and whether it has failed. After a failure the adapter is as if it were not started. -/
def beginSsl (answers : List SendAnswer) (s : XmppSocket) : XmppSocket × Bool :=
  match s.continueSsl handshake answers with
  | (s, false) => (s, false)
  | (s, true) => ({ s with ssl := .none }, true)

/-- `StartSSL`, and whether it has failed. -/
def startSsl (answers : List SendAnswer) (s : XmppSocket) : XmppSocket × Bool :=
  if s.ssl ≠ .none then (s, true)
  else if s.conn ≠ .connected then ({ s with ssl := .wait }, false)
  else match beginSsl handshake answers { s with ssl := .connecting } with
    | (s, false) => (s, false)
    | (s, true) => ({ s with ssl := .error }, true)

/-- `OpenSSLAdapter::OnConnectEvent`, and whether the client is told that the socket is connected. -/
def adapterConnected (answers : List SendAnswer) (s : XmppSocket) :
    XmppSocket × Bool :=
  if s.ssl ≠ .wait then onConnectEvent answers s
  else ((beginSsl handshake answers { s with ssl := .connecting }).1, false)

/-- The handshake goes on when the socket can be read or written. -/
def adapterContinue (answers : List SendAnswer) (s : XmppSocket) : XmppSocket :=
  match s.continueSsl handshake answers with
  | (s, false) => s
  | (s, true) => { s with ssl := .error }

/-- `OpenSSLAdapter::OnWriteEvent`. -/
def writable (answers : List SendAnswer) (s : XmppSocket) : XmppSocket :=
  match s.ssl with
  | .none => onWriteEvent answers s
  | .connecting => adapterContinue handshake answers s
  | .connected => onWriteEvent answers s
  | _ => s

/-- `OpenSSLAdapter::OnReadEvent`, as far as the handshake is concerned. -/
def readable (answers : List SendAnswer) (s : XmppSocket) : XmppSocket :=
  if s.ssl = .connecting then adapterContinue handshake answers s else s

/-- Whether `Read` can return any bytes. -/
def canRead (s : XmppSocket) : Bool := s.conn = .connected && (s.ssl = .none || s.ssl = .connected)

/-! ### What the client calls -/

/-- `Write`. -/
def write (data : List UInt8) (answers : List SendAnswer) (s : XmppSocket) : XmppSocket :=
  onWriteEvent answers { s with buffer := s.buffer ++ data }

/-- `StartTls`, and what it returns. -/
def startTls (answers : List SendAnswer) (s : XmppSocket) : XmppSocket × Bool :=
  if s.tls = .disabled then (s, false)
  else match startSsl handshake answers s with
    | (s, false) => ({ s with state := .tlsConnecting }, true)
    | (s, true) => (s, false)

/-- `Close`. The descriptor is gone also when the system reports an error. -/
def close (error : Bool) (s : XmppSocket) : XmppSocket :=
  if s.state ≠ .open then s
  else { s with
    ssl := .none
    conn := .closed
    descriptor := false
    state := if error then s.state else .closed }

end XmppSocket

/-! ### The output handler -/

/-- What is in scope where stanzas are printed. -/
def xmlnsStack : XmlnsStack := (XmlnsStack.empty.addXmlns "stream" nsStream).addXmlns "" nsClient

/-- The bytes that are put into the stream. -/
def Output.print : Output → List UInt8
  | start hostname lang =>
    utf8 "<stream:stream to=\"" ++ hostname ++ utf8 ("\" xml:lang=\"" ++ lang ++
      "\" version=\"1.0\" xmlns:stream=\"http://etherx.jabber.org/streams\" xmlns=\"jabber:client\">\r\n")
  | stanza _ element => utf8 (XmlPrinter.printElement xmlnsStack element)
  | raw text => utf8 text
  | close => utf8 "</stream:stream>"

/-- The bytes that an event hands over. -/
def Event.bytes : Event → List UInt8
  | writeOutput output => output.flatMap Output.print
  | _ => []

/-- What the system and the TLS library answer while the client handles an event. -/
structure Answers where
  sends : List SendAnswer
  handshake : Handshake
  closeError : Bool

namespace XmppSocket

/-- `XmppClient::Private::WriteOutput`, `StartTls` and `CloseConnection`. None looks at what the socket returns.
The client may be told that the socket is connected while TLS is started; the engine has left `STATE_START`
then, and its `Connect` does nothing. -/
def handle (event : Event) (answers : Answers) (s : XmppSocket) : XmppSocket :=
  match event with
  | .writeOutput _ => s.write event.bytes answers.sends
  | .startTls _ => (s.startTls answers.handshake answers.sends).1
  | .closeConnection => s.close answers.closeError
  | _ => s

/-- Events are handled one after the other. Where there are no answers left, everything blocks. -/
def deliver : List Event → List Answers → XmppSocket → XmppSocket
  | [], _, s => s
  | event :: events, [], s => deliver events [] (s.handle event ⟨[], .pending, false⟩)
  | event :: events, a :: answers, s => deliver events answers (s.handle event a)

end XmppSocket

end Synciga.Xmpp
