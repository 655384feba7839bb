import Mathlib.Data.List.TakeWhile
import Synciga.Stun.Message

/-!
# SOCKS5

The two ends of a SOCKS5 handshake (`talk/base/socketadapters.cc`), `AsyncSocksProxySocket` and
`AsyncSocksProxyServerSocket`. Of what is written only the length of a text is told, in one byte, and an address
has the type that its destination seems to need.

## Main results

* `AsyncSocksProxySocket.wellFormed_iff` — when the requests mean what they should
* `AsyncSocksProxySocket.served_of_sent` — and what a server reads of them
-/

namespace Synciga

open ByteBuffer

/-! ### Reading a message -/

variable {α : Type}

/-- One read of a message. When it fails, nothing more is taken out of the buffer. -/
def attempt (read : List UInt8 → Option (α × List UInt8)) (buf : List UInt8) :
    Except (List UInt8) (α × List UInt8) :=
  match read buf with
  | none => .error buf
  | some r => .ok r

/-- Two numbers of one byte. -/
def readPair (buf : List UInt8) : Except (List UInt8) ((UInt8 × UInt8) × List UInt8) := do
  let (first, buf) ← attempt readUInt8 buf
  let (second, buf) ← attempt readUInt8 buf
  return ((first, second), buf)

/-- An IPv4 address and a port. -/
def readIPv4 (buf : List UInt8) : Except (List UInt8) ((UInt32 × UInt16) × List UInt8) := do
  let (ip, buf) ← attempt readUInt32 buf
  let (port, buf) ← attempt readUInt16 buf
  return ((ip, port), buf)

/-- A text behind its length. -/
def readText (buf : List UInt8) : Except (List UInt8) (List UInt8 × List UInt8) := do
  let (len, buf) ← attempt readUInt8 buf
  attempt (readBytes len.toNat) buf

theorem attempt_of_some {read : List UInt8 → Option (α × List UInt8)} {buf : List UInt8}
    {r : α × List UInt8} (h : read buf = some r) : attempt read buf = .ok r := by
  rw [attempt, h]

theorem attempt_eq_ok {read : List UInt8 → Option (α × List UInt8)} {buf : List UInt8}
    {r : α × List UInt8} (h : attempt read buf = .ok r) : read buf = some r := by
  rw [attempt] at h
  split at h
  · cases h
  · rename_i hread
    rw [hread, Except.ok.inj h]

theorem bind_eq_ok {α β : Type} {x : Except (List UInt8) α} {f : α → Except (List UInt8) β} {b : β} :
    x >>= f = .ok b ↔ ∃ a, x = .ok a ∧ f a = .ok b := by
  cases x with
  | error buf =>
    refine iff_of_false (fun h => by cases h) ?_
    rintro ⟨a, ha, -⟩
    cases ha
  | ok a =>
    constructor
    · exact fun h => ⟨a, rfl, h⟩
    · rintro ⟨a', ha, h⟩
      cases ha
      exact h

theorem readPair_cons (first second : UInt8) (rest : List UInt8) :
    readPair (first :: second :: rest) = .ok ((first, second), rest) :=
  bind_eq_ok.mpr ⟨_, attempt_of_some (readUInt8_cons _ _), bind_eq_ok.mpr
    ⟨_, attempt_of_some (readUInt8_cons _ _), rfl⟩⟩

variable {buf rest : List UInt8}

theorem readPair_eq_ok {first second : UInt8}
    (h : readPair buf = .ok ((first, second), rest)) : buf = first :: second :: rest := by
  obtain ⟨⟨_, buf₁⟩, hfirst, h⟩ := bind_eq_ok.mp h
  obtain ⟨⟨_, buf₂⟩, hsecond, h⟩ := bind_eq_ok.mp h
  cases h
  rw [readUInt8_eq_some (attempt_eq_ok hfirst), readUInt8_eq_some (attempt_eq_ok hsecond)]

theorem readText_eq_ok_iff {buf text rest : List UInt8} : readText buf = .ok (text, rest) ↔
      ∃ len : UInt8, text.length = len.toNat ∧ buf = len :: (text ++ rest) := by
  constructor
  · intro h
    obtain ⟨⟨len, buf'⟩, hlen, h⟩ := bind_eq_ok.mp h
    obtain ⟨hbuf', htext⟩ := readBytes_eq_some (attempt_eq_ok h)
    exact ⟨len, htext, by rw [readUInt8_eq_some (attempt_eq_ok hlen), hbuf']⟩
  · rintro ⟨len, htext, rfl⟩
    have hread := readBytes_append htext rest
    exact bind_eq_ok.mpr ⟨_, attempt_of_some (readUInt8_cons _ _), attempt_of_some hread⟩

theorem readIPv4_write (ip : UInt32) (port : UInt16) (rest : List UInt8) :
    readIPv4 (writeUInt32 ip ++ (writeUInt16 port ++ rest)) = .ok ((ip, port), rest) :=
  bind_eq_ok.mpr ⟨_, attempt_of_some (readUInt32_write _ _), bind_eq_ok.mpr
    ⟨_, attempt_of_some (readUInt16_write _ _), rfl⟩⟩

theorem readIPv4_eq_ok {ip : UInt32} {port : UInt16}
    (h : readIPv4 buf = .ok ((ip, port), rest)) : buf = writeUInt32 ip ++ (writeUInt16 port ++ rest) := by
  obtain ⟨⟨_, buf₁⟩, hip, h⟩ := bind_eq_ok.mp h
  obtain ⟨⟨_, buf₂⟩, hport, h⟩ := bind_eq_ok.mp h
  cases h
  rw [readUInt32_eq_some (attempt_eq_ok hip), readUInt16_eq_some (attempt_eq_ok hport)]

/-! ### Addresses -/

/-- `v4AddressAsHostOrderInteger`. -/
def IPAddress.v4AddressAsHostOrderInteger : IPAddress → UInt32
  | .ipv4 ip => ip
  | _ => 0

/-- `talk_base::SocketAddress`, with the name it has been made of. -/
structure NamedAddress where
  hostname : List UInt8 := []
  literal : Bool := false
  ip : IPAddress := .unspec
  port : UInt16 := 0
  deriving DecidableEq, Repr

variable (address : NamedAddress)

/-- `SocketAddress::IsUnresolved`. -/
def NamedAddress.isUnresolved : Bool :=
  address.ip = .unspec ∧ address.literal = false ∧ address.hostname ≠ []

/-- A host in a request. -/
inductive SocksHost
  | domain (name : List UInt8)
  | ipv4 (ip : UInt32)
  | ipv6 (w₀ w₁ w₂ w₃ : UInt32)
  deriving DecidableEq, Repr

/-- The host that an address stands for. -/
def NamedAddress.host : SocksHost :=
  match address.ip with
  | .unspec => .domain address.hostname
  | .ipv4 ip => .ipv4 ip
  | .ipv6 w₀ w₁ w₂ w₃ => .ipv6 w₀ w₁ w₂ w₃

/-! ### The client -/

/-- `AsyncSocksProxySocket::State`. -/
inductive SocksState
  | init
  | hello
  | auth
  | connect
  | tunnel
  | error
  deriving DecidableEq, Repr

/-- The client, with what it has sent. -/
structure AsyncSocksProxySocket where
  user : List UInt8
  pass : List UInt8
  dest : NamedAddress
  state : SocksState := .init
  /-- The states it has been in. -/
  states : List SocksState := []
  /-- What has been sent. -/
  sent : List (List UInt8) := []
  /-- The error of `SignalCloseEvent`. -/
  closed : Option ℕ := none
  deriving DecidableEq, Repr

/-- The error of a proxy that refuses. -/
def SOCKET_EACCES : ℕ := 13

namespace AsyncSocksProxySocket

variable (c : AsyncSocksProxySocket)

/-- A new `state_`. -/
def enter (state : SocksState) : AsyncSocksProxySocket :=
  { c with state, states := c.states ++ [state] }

/-- Something is sent. -/
def directSend (request : List UInt8) : AsyncSocksProxySocket := { c with sent := c.sent ++ [request] }

/-- The request of `SendHello`. -/
def helloRequest : List UInt8 :=
  writeUInt8 5 ++
    (if c.user = [] then writeUInt8 1 ++ writeUInt8 0
    else writeUInt8 2 ++ writeUInt8 0 ++ writeUInt8 2)

/-- `AsyncSocksProxySocket::SendHello`. -/
def sendHello : AsyncSocksProxySocket := (c.directSend c.helloRequest).enter .hello

/-- The request of `SendAuth`. The password is given to `WriteString` as characters that end with a
zero. -/
def authRequest : List UInt8 :=
  writeUInt8 1 ++ writeUInt8 (UInt8.ofNat c.user.length) ++ c.user ++
    writeUInt8 (UInt8.ofNat c.pass.length) ++ c.pass.takeWhile (· ≠ 0)

/-- `SendAuth`. -/
def sendAuth : AsyncSocksProxySocket := (c.directSend c.authRequest).enter .auth

/-- The request of `SendConnect`. -/
def connectRequest : List UInt8 :=
  writeUInt8 5 ++ writeUInt8 1 ++ writeUInt8 0 ++
    (if c.dest.isUnresolved then
      writeUInt8 3 ++ writeUInt8 (UInt8.ofNat c.dest.hostname.length) ++ c.dest.hostname
    else writeUInt8 1 ++ writeUInt32 c.dest.ip.v4AddressAsHostOrderInteger) ++
    writeUInt16 c.dest.port

/-- `SendConnect`. -/
def sendConnect : AsyncSocksProxySocket := (c.directSend c.connectRequest).enter .connect

/-- `Error`. -/
def fail (err : ℕ) : AsyncSocksProxySocket := { c.enter .error with dest := {}, closed := some err }

/-- The address of the reply to the last request, behind its type. -/
def skipBound (atyp : UInt8) (data : List UInt8) : Except (List UInt8) (List UInt8) :=
  if atyp = 1 then do
    let (_, data) ← readIPv4 data
    return data
  else if atyp = 3 then do
    let (_, data) ← readText data
    let (_, data) ← attempt readUInt16 data
    return data
  else do
    let (_, data) ← attempt (readBytes 16) data
    let (_, data) ← attempt readUInt16 data
    return data

/-- What `ProcessInput` does with the last reply, when it has read the first four bytes. -/
def handleReply (data : List UInt8) (ver rep atyp : UInt8) (rest : List UInt8) :
    AsyncSocksProxySocket × List UInt8 :=
  if ver ≠ 5 ∨ rep ≠ 0 then (c.fail 0, data)
  else if atyp = 1 ∨ atyp = 3 ∨ atyp = 4 then
    match skipBound atyp rest with
    | .error _ => (c, data)
    | .ok rest => (c.enter .tunnel, rest)
  else (c.fail 0, data)

/-- `ProcessInput`, with the bytes that it leaves. A reply that is not complete is left, and so is
everything when the reply is an error. -/
def processInput (data : List UInt8) : AsyncSocksProxySocket × List UInt8 :=
  match c.state with
  | .hello =>
    match readPair data with
    | .error _ => (c, data)
    | .ok ((ver, method), rest) =>
      if ver ≠ 5 then (c.fail 0, data)
      else if method = 0 then (c.sendConnect, rest)
      else if method = 2 then (c.sendAuth, rest)
      else (c.fail 0, data)
  | .auth =>
    match readPair data with
    | .error _ => (c, data)
    | .ok ((ver, status), rest) =>
      if ver ≠ 1 ∨ status ≠ 0 then (c.fail SOCKET_EACCES, data) else (c.sendConnect, rest)
  | .connect =>
    match readPair data with
    | .error _ => (c, data)
    | .ok ((ver, rep), rest) =>
      match readPair rest with
      | .error _ => (c, data)
      | .ok ((_, atyp), rest) => c.handleReply data ver rep atyp rest
  | _ => (c, data)

end AsyncSocksProxySocket

/-! ### The server -/

/-- `AsyncSocksProxyServerSocket::State`. -/
inductive SocksServerState
  | hello
  | auth
  | connect
  | connectPending
  | tunnel
  | error
  deriving DecidableEq, Repr

/-- The server, with what it has sent and was asked for. -/
structure AsyncSocksProxyServerSocket where
  state : SocksServerState := .hello
  /-- The states it has been in. -/
  states : List SocksServerState := []
  /-- What has been sent. -/
  sent : List (List UInt8) := []
  /-- The addresses of `SignalConnectRequest`. -/
  requests : List SocketAddress := []
  /-- The error of `SignalCloseEvent`. -/
  closed : Option ℕ := none
  deriving DecidableEq, Repr

variable (request : List UInt8)

/-- What `HandleAuth` reads: the version, the user and the password. -/
def readAuth :
    Except (List UInt8) ((UInt8 × List UInt8 × List UInt8) × List UInt8) := do
  let (ver, request) ← attempt readUInt8 request
  let (user, request) ← readText request
  let (pass, request) ← readText request
  return ((ver, user, pass), request)

namespace AsyncSocksProxyServerSocket

variable (s : AsyncSocksProxyServerSocket)

/-- A new `state_`. -/
def enter (state : SocksServerState) : AsyncSocksProxyServerSocket :=
  { s with state, states := s.states ++ [state] }

/-- Something is sent. -/
def directSend (reply : List UInt8) : AsyncSocksProxyServerSocket :=
  { s with sent := s.sent ++ [reply] }

/-- `Error`. -/
def fail (err : ℕ) : AsyncSocksProxyServerSocket := { s.enter .error with closed := some err }

/-- `SendHelloReply`. -/
def sendHelloReply (method : UInt8) : AsyncSocksProxyServerSocket :=
  s.directSend (writeUInt8 5 ++ writeUInt8 method)

variable (request : List UInt8)

/-- `HandleHello`: the first method is taken, without looking at others. -/
def handleHello : AsyncSocksProxyServerSocket × List UInt8 :=
  match readPair request with
  | .error rest => (s.fail 0, rest)
  | .ok ((ver, numMethods), rest) =>
    if ver ≠ 5 then (s.fail 0, rest)
    else if numMethods = 0 then ((s.sendHelloReply 0xFF).enter .error, rest)
    else
      match attempt readUInt8 rest with
      | .error rest => (s.fail 0, rest)
      | .ok (method, rest) =>
        if method = 0 then ((s.sendHelloReply method).enter .connect, rest)
        else if method = 2 then ((s.sendHelloReply method).enter .auth, rest)
        else ((s.sendHelloReply method).enter .error, rest)

/-- `SendAuthReply`. -/
def sendAuthReply (result : UInt8) : AsyncSocksProxyServerSocket :=
  s.directSend (writeUInt8 1 ++ writeUInt8 result)

/-- `HandleAuth`. The version is not looked at. -/
def handleAuth : AsyncSocksProxyServerSocket × List UInt8 :=
  match readAuth request with
  | .error rest => (s.fail 0, rest)
  | .ok (_, rest) => ((s.sendAuthReply 0).enter .connect, rest)

/-- `SignalConnectRequest`. -/
def signalConnectRequest (address : SocketAddress) : AsyncSocksProxyServerSocket :=
  { s with requests := s.requests ++ [address] }

/-- `HandleConnect`. -/
def handleConnect : AsyncSocksProxyServerSocket × List UInt8 :=
  match readPair request with
  | .error rest => (s.fail 0, rest)
  | .ok ((ver, command), rest) =>
    match readPair rest with
    | .error rest => (s.fail 0, rest)
    | .ok ((reserved, addrType), rest) =>
      match readIPv4 rest with
      | .error rest => (s.fail 0, rest)
      | .ok ((ip, port), rest) =>
        if ver ≠ 5 ∨ command ≠ 1 ∨ reserved ≠ 0 ∨ addrType ≠ 1 then (s.fail 0, rest)
        else ((s.signalConnectRequest ⟨.ipv4 ip, port⟩).enter .connectPending, rest)

/-- `ProcessInput`, with the bytes that it leaves. -/
def processInput (data : List UInt8) : AsyncSocksProxyServerSocket × List UInt8 :=
  match s.state with
  | .hello => s.handleHello data
  | .auth => s.handleAuth data
  | .connect => s.handleConnect data
  | _ => (s, data)

end AsyncSocksProxyServerSocket

/-! ### What a request means -/

/-- A request of `SendAuth` under the grammar: the user and the password. -/
def decodeAuth : Option (List UInt8 × List UInt8) :=
  match readAuth request with
  | .error _ => none
  | .ok ((ver, user, pass), rest) => if ver = 1 ∧ rest = [] then some (user, pass) else none

/-- The host in a request, behind its type. -/
def readHost (addrType : UInt8) (buf : List UInt8) : Except (List UInt8) (SocksHost × List UInt8) :=
  if addrType = 1 then do
    let (ip, buf) ← attempt readUInt32 buf
    return (.ipv4 ip, buf)
  else if addrType = 3 then do
    let (name, buf) ← readText buf
    return (.domain name, buf)
  else if addrType = 4 then do
    let (w₀, buf) ← attempt readUInt32 buf
    let (w₁, buf) ← attempt readUInt32 buf
    let (w₂, buf) ← attempt readUInt32 buf
    let (w₃, buf) ← attempt readUInt32 buf
    return (.ipv6 w₀ w₁ w₂ w₃, buf)
  else .error buf

/-- What a request of `SendConnect` holds: three numbers, the host and the port. -/
def readConnect :
    Except (List UInt8) ((UInt8 × UInt8 × UInt8 × SocksHost × UInt16) × List UInt8) := do
  let ((ver, command), request) ← readPair request
  let ((reserved, addrType), request) ← readPair request
  let (host, request) ← readHost addrType request
  let (port, request) ← attempt readUInt16 request
  return ((ver, command, reserved, host, port), request)

/-- A request of `SendConnect` under the grammar: the host and the port. -/
def decodeConnect : Option (SocksHost × UInt16) :=
  match readConnect request with
  | .error _ => none
  | .ok ((ver, command, reserved, host, port), rest) =>
    if ver = 5 ∧ command = 1 ∧ reserved = 0 ∧ rest = [] then some (host, port) else none

theorem decodeAuth_eq_some_iff {request user pass : List UInt8} : decodeAuth request = some (user, pass) ↔
      ∃ userLen passLen : UInt8, user.length = userLen.toNat ∧ pass.length = passLen.toNat ∧
        request = 1 :: userLen :: (user ++ passLen :: pass) := by
  constructor
  · intro h
    rw [decodeAuth] at h
    split at h
    · cases h
    rename_i ver user' pass' rest hread
    obtain ⟨⟨rfl, rfl⟩, h⟩ := Option.ite_none_right_eq_some.mp h
    cases h
    obtain ⟨⟨_, buf₁⟩, hver, hread⟩ := bind_eq_ok.mp hread
    obtain ⟨⟨_, buf₂⟩, huser, hread⟩ := bind_eq_ok.mp hread
    obtain ⟨⟨_, buf₃⟩, hpass, hread⟩ := bind_eq_ok.mp hread
    cases hread
    obtain ⟨userLen, huserLen, rfl⟩ := readText_eq_ok_iff.mp huser
    obtain ⟨passLen, hpassLen, rfl⟩ := readText_eq_ok_iff.mp hpass
    rw [List.append_nil] at hver
    exact ⟨userLen, passLen, huserLen, hpassLen, readUInt8_eq_some (attempt_eq_ok hver)⟩
  · rintro ⟨userLen, passLen, huserLen, hpassLen, rfl⟩
    have hread : readAuth (1 :: userLen :: (user ++ passLen :: pass)) = .ok ((1, user, pass), []) := by
      refine bind_eq_ok.mpr ⟨_, attempt_of_some (readUInt8_cons _ _), ?_⟩
      refine bind_eq_ok.mpr ⟨_, readText_eq_ok_iff.mpr ⟨userLen, huserLen, rfl⟩, ?_⟩
      refine bind_eq_ok.mpr ⟨(pass, []), readText_eq_ok_iff.mpr ⟨passLen, hpassLen, ?_⟩, rfl⟩
      rw [List.append_nil]
    rw [decodeAuth, hread]
    exact if_pos ⟨rfl, rfl⟩

/-- How a host stands in a request. -/
def SocksHost.Written (host : SocksHost) (bytes : List UInt8) : Prop :=
  match host with
  | .domain name => ∃ len : UInt8, name.length = len.toNat ∧ bytes = 3 :: len :: name
  | .ipv4 ip => bytes = 1 :: writeUInt32 ip
  | .ipv6 w₀ w₁ w₂ w₃ =>
    bytes = 4 :: (writeUInt32 w₀ ++ writeUInt32 w₁ ++ writeUInt32 w₂ ++ writeUInt32 w₃)

theorem readHost_eq_ok_iff {addrType : UInt8} {host : SocksHost} :
    readHost addrType buf = .ok (host, rest) ↔
      ∃ bytes, host.Written (addrType :: bytes) ∧ buf = bytes ++ rest := by
  constructor
  · intro h
    rw [readHost] at h
    split at h
    · rename_i htype
      obtain ⟨⟨ip, _⟩, hip, h⟩ := bind_eq_ok.mp h
      cases h
      exact ⟨writeUInt32 ip, by rw [htype]; rfl, readUInt32_eq_some (attempt_eq_ok hip)⟩
    split at h
    · rename_i htype
      obtain ⟨⟨name, _⟩, hname, h⟩ := bind_eq_ok.mp h
      cases h
      obtain ⟨len, hlen, rfl⟩ := readText_eq_ok_iff.mp hname
      exact ⟨len :: name, by rw [htype]; exact ⟨len, hlen, rfl⟩, rfl⟩
    split at h
    · rename_i htype
      obtain ⟨⟨w₀, buf₀⟩, h₀, h⟩ := bind_eq_ok.mp h
      obtain ⟨⟨w₁, buf₁⟩, h₁, h⟩ := bind_eq_ok.mp h
      obtain ⟨⟨w₂, buf₂⟩, h₂, h⟩ := bind_eq_ok.mp h
      obtain ⟨⟨w₃, buf₃⟩, h₃, h⟩ := bind_eq_ok.mp h
      cases h
      refine ⟨_, by rw [htype]; rfl, ?_⟩
      rw [readUInt32_eq_some (attempt_eq_ok h₀), readUInt32_eq_some (attempt_eq_ok h₁),
        readUInt32_eq_some (attempt_eq_ok h₂), readUInt32_eq_some (attempt_eq_ok h₃)]
      simp only [List.append_assoc]
    · cases h
  · rintro ⟨bytes, hwritten, rfl⟩
    cases host with
    | domain name =>
      obtain ⟨len, hlen, hbytes⟩ := hwritten
      obtain ⟨rfl, rfl⟩ := List.cons.inj hbytes
      exact bind_eq_ok.mpr ⟨_, readText_eq_ok_iff.mpr ⟨len, hlen, rfl⟩, rfl⟩
    | ipv4 ip =>
      obtain ⟨rfl, rfl⟩ := List.cons.inj hwritten
      exact bind_eq_ok.mpr ⟨_, attempt_of_some (readUInt32_write _ _), rfl⟩
    | ipv6 w₀ w₁ w₂ w₃ =>
      obtain ⟨rfl, rfl⟩ := List.cons.inj hwritten
      refine bind_eq_ok.mpr ⟨_, attempt_of_some (readUInt32_write _ _), ?_⟩
      refine bind_eq_ok.mpr ⟨_, attempt_of_some (readUInt32_write _ _), ?_⟩
      refine bind_eq_ok.mpr ⟨_, attempt_of_some (readUInt32_write _ _), ?_⟩
      exact bind_eq_ok.mpr ⟨_, attempt_of_some (readUInt32_write _ _), rfl⟩

theorem decodeConnect_eq_some_iff {request : List UInt8} {host : SocksHost} {port : UInt16} :
    decodeConnect request = some (host, port) ↔
      ∃ bytes, host.Written bytes ∧ request = 5 :: 1 :: 0 :: (bytes ++ writeUInt16 port) := by
  constructor
  · intro h
    rw [decodeConnect] at h
    split at h
    · cases h
    rename_i ver command reserved host' port' rest hread
    obtain ⟨⟨rfl, rfl, rfl, rfl⟩, h⟩ := Option.ite_none_right_eq_some.mp h
    cases h
    obtain ⟨⟨⟨_, _⟩, buf₁⟩, hfirst, hread⟩ := bind_eq_ok.mp hread
    obtain ⟨⟨⟨_, addrType⟩, buf₂⟩, hsecond, hread⟩ := bind_eq_ok.mp hread
    obtain ⟨⟨_, buf₃⟩, hhost, hread⟩ := bind_eq_ok.mp hread
    obtain ⟨⟨_, buf₄⟩, hport, hread⟩ := bind_eq_ok.mp hread
    cases hread
    obtain ⟨bytes, hwritten, rfl⟩ := readHost_eq_ok_iff.mp hhost
    refine ⟨addrType :: bytes, hwritten, ?_⟩
    rw [readPair_eq_ok hfirst, readPair_eq_ok hsecond, readUInt16_eq_some (attempt_eq_ok hport),
      List.append_nil, List.cons_append]
  · rintro ⟨bytes, hwritten, rfl⟩
    cases bytes with
    | nil =>
      cases host with
      | domain name =>
        obtain ⟨len, -, hnil⟩ := hwritten
        cases hnil
      | ipv4 ip => cases hwritten
      | ipv6 w₀ w₁ w₂ w₃ => cases hwritten
    | cons addrType bytes =>
      have hread : readConnect (5 :: 1 :: 0 :: (addrType :: bytes ++ writeUInt16 port)) =
          .ok ((5, 1, 0, host, port), []) := by
        refine bind_eq_ok.mpr ⟨_, readPair_cons _ _ _, bind_eq_ok.mpr ⟨_, readPair_cons _ _ _, ?_⟩⟩
        refine bind_eq_ok.mpr ⟨_, readHost_eq_ok_iff.mpr ⟨bytes, hwritten, rfl⟩, ?_⟩
        have hport := readUInt16_write port []
        exact bind_eq_ok.mpr ⟨_, attempt_of_some hport, rfl⟩
      rw [decodeConnect, hread]
      exact if_pos ⟨rfl, rfl, rfl, rfl⟩

/-! ### The server reads the same -/

namespace AsyncSocksProxyServerSocket

variable {s : AsyncSocksProxyServerSocket}

theorem handleAuth_of_decode {request user pass : List UInt8} (h : decodeAuth request = some (user, pass)) :
    s.handleAuth request = ((s.sendAuthReply 0).enter .connect, []) := by
  rw [decodeAuth] at h
  split at h
  · cases h
  · rename_i ver user' pass' rest hread
    obtain ⟨⟨-, rfl⟩, -⟩ := Option.ite_none_right_eq_some.mp h
    rw [handleAuth, hread]

theorem handleConnect_of_decode {request : List UInt8} {ip : UInt32} {port : UInt16}
    (h : decodeConnect request = some (.ipv4 ip, port)) :
    s.handleConnect request =
      ((s.signalConnectRequest ⟨.ipv4 ip, port⟩).enter .connectPending, []) := by
  obtain ⟨bytes, hwritten, rfl⟩ := decodeConnect_eq_some_iff.mp h
  have hbytes : bytes = 1 :: writeUInt32 ip := hwritten
  have hread := readIPv4_write ip port []
  rw [List.append_nil] at hread
  rw [handleConnect, readPair_cons]
  dsimp only
  rw [hbytes, List.cons_append, readPair_cons]
  dsimp only
  rw [hread]
  rfl

end AsyncSocksProxyServerSocket

/-! ### What the client sends -/

/-- An address that a request can hold: an IPv4 address, or a name that is no address. -/
def NamedAddress.Sendable : Prop :=
  match address.ip with
  | .unspec => address.literal = false ∧ 0 < address.hostname.length ∧ address.hostname.length ≤ 255
  | .ipv4 _ => True
  | .ipv6 .. => False

namespace AsyncSocksProxySocket

variable {c : AsyncSocksProxySocket}

theorem length_eq_toNat_iff {text : List UInt8} :
    text.length = (UInt8.ofNat text.length).toNat ↔ text.length ≤ 255 := by
  rw [UInt8.toNat_ofNat']
  omega

theorem decodeAuth_authRequest_iff : decodeAuth c.authRequest = some (c.user, c.pass) ↔
      c.user.length ≤ 255 ∧ c.pass.length ≤ 255 ∧ 0 ∉ c.pass := by
  have hrequest : c.authRequest = 1 :: UInt8.ofNat c.user.length ::
      (c.user ++ UInt8.ofNat c.pass.length :: c.pass.takeWhile (· ≠ 0)) := by
    rw [authRequest, writeUInt8_eq, writeUInt8_eq, writeUInt8_eq]
    simp only [List.append_assoc, List.cons_append, List.nil_append]
  have hpass : c.pass.takeWhile (· ≠ 0) = c.pass ↔ 0 ∉ c.pass := by
    rw [List.takeWhile_eq_self_iff]
    constructor
    · exact fun h hmem => absurd rfl (of_decide_eq_true (h 0 hmem))
    · exact fun h b hb => decide_eq_true fun hzero => h (hzero ▸ hb)
  rw [decodeAuth_eq_some_iff, hrequest, ← hpass]
  constructor
  · rintro ⟨userLen, passLen, huserLen, hpassLen, h⟩
    obtain ⟨huserEq, htexts⟩ := List.cons.inj (List.cons.inj h).2
    obtain ⟨hpassEq, hpass⟩ := List.cons.inj (List.append_cancel_left htexts)
    rw [← huserEq] at huserLen
    rw [← hpassEq] at hpassLen
    exact ⟨length_eq_toNat_iff.mp huserLen, length_eq_toNat_iff.mp hpassLen, hpass⟩
  · rintro ⟨huser, hlen, h⟩
    exact ⟨_, _, length_eq_toNat_iff.mpr huser, length_eq_toNat_iff.mpr hlen, by rw [h]⟩

theorem connectRequest_eq : c.connectRequest = 5 :: 1 :: 0 :: ((if c.dest.isUnresolved then
      3 :: UInt8.ofNat c.dest.hostname.length :: c.dest.hostname
    else 1 :: writeUInt32 c.dest.ip.v4AddressAsHostOrderInteger) ++ writeUInt16 c.dest.port) := by
  rw [connectRequest]
  simp only [writeUInt8_eq, List.cons_append, List.nil_append]

theorem decodeConnect_connectRequest_iff :
    decodeConnect c.connectRequest = some (c.dest.host, c.dest.port) ↔ c.dest.Sendable := by
  have hcancel (sent : List UInt8) : (∃ bytes, c.dest.host.Written bytes ∧
        5 :: 1 :: 0 :: (sent ++ writeUInt16 c.dest.port) =
          5 :: 1 :: 0 :: (bytes ++ writeUInt16 c.dest.port)) ↔
      c.dest.host.Written sent := by
    constructor
    · rintro ⟨bytes, hwritten, h⟩
      have hbytes := List.append_cancel_right (List.cons.inj (List.cons.inj (List.cons.inj h).2).2).2
      rwa [hbytes]
    · exact fun h => ⟨sent, h, rfl⟩
  rw [decodeConnect_eq_some_iff, connectRequest_eq, hcancel]
  by_cases hunresolved : c.dest.isUnresolved = true
  · have h := of_decide_eq_true hunresolved
    rw [if_pos hunresolved, NamedAddress.host, NamedAddress.Sendable, h.1]
    constructor
    · rintro ⟨len, hlen, hbytes⟩
      have hlenEq := (List.cons.inj (List.cons.inj hbytes).2).1
      rw [← hlenEq] at hlen
      exact ⟨h.2.1, List.length_pos_iff.mpr h.2.2, length_eq_toNat_iff.mp hlen⟩
    · exact fun hsendable => ⟨_, length_eq_toNat_iff.mpr hsendable.2.2, rfl⟩
  have h := of_decide_eq_false (Bool.eq_false_iff.mpr hunresolved)
  rw [if_neg hunresolved, NamedAddress.host, NamedAddress.Sendable]
  cases hip : c.dest.ip with
  | unspec =>
    -- The address zero is sent.
    refine iff_of_false ?_ fun hsendable => h ⟨hip, hsendable.1, List.length_pos_iff.mp hsendable.2.1⟩
    rintro ⟨len, -, hbytes⟩
    exact absurd (List.cons.inj hbytes).1 (by decide)
  | ipv4 ip => exact iff_of_true rfl trivial
  | ipv6 w₀ w₁ w₂ w₃ =>
    refine iff_of_false (fun hbytes => ?_) id
    exact absurd (List.cons.inj hbytes).1 (by decide)

/-- A request that is sent means what it should: the user and the password, and the host and the
port. -/
def WellFormed (c : AsyncSocksProxySocket) : Prop :=
  (∀ request, c.sendAuth.sent = c.sent ++ [request] → decodeAuth request = some (c.user, c.pass)) ∧
    ∀ request, c.sendConnect.sent = c.sent ++ [request] →
      decodeConnect request = some (c.dest.host, c.dest.port)

/-- **What is sent means what it should.** The requests of a client, if it sends them, are under the grammar the
user, the password and the destination, with nothing behind them, if and only if user and password have no more
than 255 bytes, the password has no zero, and the destination has an IPv4 address or a name of up to 255 bytes.
-/
theorem wellFormed_iff (c : AsyncSocksProxySocket) :
    c.WellFormed ↔ (c.user.length ≤ 255 ∧ c.pass.length ≤ 255 ∧ 0 ∉ c.pass) ∧ c.dest.Sendable := by
  have hsent (sent request : List UInt8) : c.sent ++ [sent] = c.sent ++ [request] ↔ sent = request := by
    rw [List.append_cancel_left_eq, List.singleton_inj]
  rw [WellFormed, ← decodeAuth_authRequest_iff, ← decodeConnect_connectRequest_iff]
  simp only [sendAuth, sendConnect, enter, directSend, hsent, forall_eq']

/-- A server takes the requests of a client as they are meant. -/
theorem served_of_sent (s : AsyncSocksProxyServerSocket) (c : AsyncSocksProxySocket) :
    (c.user.length ≤ 255 ∧ c.pass.length ≤ 255 ∧ 0 ∉ c.pass →
        s.handleAuth c.authRequest = ((s.sendAuthReply 0).enter .connect, [])) ∧
      ∀ ip, c.dest.ip = .ipv4 ip → s.handleConnect c.connectRequest =
        ((s.signalConnectRequest ⟨.ipv4 ip, c.dest.port⟩).enter .connectPending, []) := by
  refine ⟨fun h => ?_, fun ip hip => ?_⟩
  · exact AsyncSocksProxyServerSocket.handleAuth_of_decode (decodeAuth_authRequest_iff.mpr h)
  have hsendable : c.dest.Sendable := by rw [NamedAddress.Sendable, hip]; trivial
  have hdecode := decodeConnect_connectRequest_iff.mpr hsendable
  rw [NamedAddress.host, hip] at hdecode
  exact AsyncSocksProxyServerSocket.handleConnect_of_decode hdecode

/-- A client with a user of 256 bytes. -/
def longUser : AsyncSocksProxySocket :=
  { user := List.replicate 256 65, pass := [], dest := { ip := .ipv4 0x01020304, port := 443 } }

/-- The length of the user that is sent is zero. -/
theorem not_wellFormed_longUser : ¬longUser.WellFormed := by
  intro h
  have hdecoded := congrArg (Option.map fun r => r.1.length) (h.1 longUser.authRequest rfl)
  exact absurd hdecoded (by decide +kernel)

end AsyncSocksProxySocket

end Synciga
