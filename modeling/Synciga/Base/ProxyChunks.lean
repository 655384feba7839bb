import Synciga.Base.BufferedRead
import Synciga.Base.HttpsProxy
import Synciga.Internal.StreamReader

/-!
# Proxies and how their bytes come

What a proxy or its client sends comes in pieces, one in each read event, and the sockets of
`talk/base/socketadapters.cc` should make the same of it however it is cut. The client of a SOCKS proxy does.
The proxy takes a message that has not come as a whole for an error, and a socket that asks an HTTP proxy keeps
what is behind a response after which it closes the connection, if that comes in the same event.

## Main results

* `proxyIndependent_iff` — for which bytes it makes no difference
-/

namespace Synciga

open ByteBuffer

/-! ### Sockets as readers -/

/-- The reader of the stream that an adapter gets. -/
def Handshake.reader {σ : Type} (handshake : Handshake σ)
    (reading : σ → Bool) : StreamReader σ UInt8 where
  reading := reading
  process := fun state data => ((handshake.processInput state data).state,
    (handshake.processInput state data).data)

variable {piece : List UInt8}

theorem BufferedReadAdapter.onReadEvent_eq_feed {σ : Type} {handshake : Handshake σ}
    {reading : σ → Bool} {a : BufferedReadAdapter σ} {p : StreamReader.Progress σ UInt8}
    (hstate : a.state = p.state)
    (hbuffer : a.buffer = p.left) (hreading : reading p.state = true) (hpiece : piece ≠ [])
    (hfits : p.left.length + piece.length ≤ a.bufferSize) :
    (a.onReadEvent handshake (some piece)).state = ((handshake.reader reading).feed p piece).state ∧
      (a.onReadEvent handshake (some piece)).buffer =
        ((handshake.reader reading).feed p piece).left := by
  have hpos := List.length_pos_iff.mpr hpiece
  have hheld : a.held = p.left := by
    rw [BufferedReadAdapter.held, hbuffer, if_neg]
    omega
  rw [StreamReader.feed_of_reading hreading, BufferedReadAdapter.onReadEvent]
  rw [hheld, hstate]
  exact ⟨rfl, rfl⟩

/-! ### The client of a SOCKS proxy -/

theorem readPair_append {buf rest : List UInt8} {pair : UInt8 × UInt8}
    (h : readPair buf = .ok (pair, rest))
    (back : List UInt8) : readPair (buf ++ back) = .ok (pair, rest ++ back) := by
  rw [readPair_eq_ok h]
  exact readPair_cons _ _ _

theorem readPair_suffix {buf rest : List UInt8} {pair : UInt8 × UInt8}
    (h : readPair buf = .ok (pair, rest)) :
    rest <:+ buf := by
  rw [readPair_eq_ok h]
  exact (List.suffix_cons _ _).trans (List.suffix_cons _ _)

namespace AsyncSocksProxySocket

variable {data rest : List UInt8}

theorem skipBound_eq_ok {atyp : UInt8} (h : skipBound atyp data = .ok rest) :
    ∃ front, data = front ++ rest ∧ ∀ back, skipBound atyp (front ++ back) = .ok back := by
  rw [skipBound] at h
  by_cases hv4 : atyp = 1
  · rw [if_pos hv4] at h
    obtain ⟨⟨⟨ip, port⟩, _⟩, hread, h⟩ := bind_eq_ok.mp h
    cases h
    refine ⟨writeUInt32 ip ++ writeUInt16 port, ?_, fun back => ?_⟩
    · rw [List.append_assoc]
      exact readIPv4_eq_ok hread
    · rw [skipBound, if_pos hv4, List.append_assoc]
      exact bind_eq_ok.mpr ⟨_, readIPv4_write ip port back, rfl⟩
  rw [if_neg hv4] at h
  by_cases hname : atyp = 3
  · rw [if_pos hname] at h
    obtain ⟨⟨text, buf⟩, htext, h⟩ := bind_eq_ok.mp h
    obtain ⟨⟨port, _⟩, hport, h⟩ := bind_eq_ok.mp h
    cases h
    obtain ⟨len, hlen, hdata⟩ := readText_eq_ok_iff.mp htext
    refine ⟨len :: (text ++ writeUInt16 port), ?_, fun back => ?_⟩
    · rw [hdata, readUInt16_eq_some (attempt_eq_ok hport), List.cons_append, List.append_assoc]
    have hread : readText (len :: (text ++ writeUInt16 port) ++ back) =
      .ok (text, writeUInt16 port ++ back) := by
      refine readText_eq_ok_iff.mpr ⟨len, hlen, ?_⟩
      rw [List.cons_append, List.append_assoc]
    rw [skipBound, if_neg hv4, if_pos hname]
    exact bind_eq_ok.mpr ⟨_, hread, bind_eq_ok.mpr ⟨_,
      attempt_of_some (readUInt16_write _ _), rfl⟩⟩
  · rw [if_neg hname] at h
    obtain ⟨⟨text, buf⟩, htext, h⟩ := bind_eq_ok.mp h
    obtain ⟨⟨port, _⟩, hport, h⟩ := bind_eq_ok.mp h
    cases h
    obtain ⟨hdata, hlen⟩ := readBytes_eq_some (attempt_eq_ok htext)
    refine ⟨text ++ writeUInt16 port, ?_, fun back => ?_⟩
    · rw [hdata, readUInt16_eq_some (attempt_eq_ok hport), List.append_assoc]
    · rw [skipBound, if_neg hv4, if_neg hname, List.append_assoc]
      refine bind_eq_ok.mpr ⟨_, attempt_of_some (readBytes_append hlen _), ?_⟩
      exact bind_eq_ok.mpr ⟨_, attempt_of_some (readUInt16_write _ _), rfl⟩

/-- How many messages may still come. -/
def awaits (c : AsyncSocksProxySocket) : ℕ :=
  match c.state with
  | .hello => 3
  | .auth => 2
  | .connect => 1
  | _ => 0

/-- A message is taken, whatever stands behind it. -/
structure Taken (c : AsyncSocksProxySocket) (data : List UInt8) (c' : AsyncSocksProxySocket)
    (rest : List UInt8) : Prop where
  process : ∀ back, c.processInput (data ++ back) = (c', rest ++ back)
  suffix : rest <:+ data
  awaits : c'.awaits < c.awaits
  asks : 0 < c'.awaits → c'.sent ≠ c.sent

theorem sent_ne (c : AsyncSocksProxySocket) (request : List UInt8) :
    (c.directSend request).sent ≠ c.sent := by
  intro h
  have hlength := congrArg List.length h
  rw [directSend, List.length_append, List.length_singleton] at hlength
  omega

variable {c : AsyncSocksProxySocket}

theorem Taken.fail {data : List UInt8} {err : ℕ} (hawaits : 0 < c.awaits)
    (h : ∀ back, c.processInput (data ++ back) = (c.fail err, data ++ back)) :
    c.Taken data (c.fail err) data :=
  ⟨h, List.suffix_rfl, hawaits, fun hpos => absurd hpos (Nat.lt_irrefl 0)⟩

theorem Taken.sendConnect
    (hawaits : 1 < c.awaits) (hsuffix : rest <:+ data)
    (h : ∀ back, c.processInput (data ++ back) = (c.sendConnect, rest ++ back)) :
    c.Taken data c.sendConnect rest :=
  ⟨h, hsuffix, hawaits, fun _ => c.sent_ne _⟩

theorem Taken.sendAuth (hawaits : 2 < c.awaits)
    (hsuffix : rest <:+ data)
    (h : ∀ back, c.processInput (data ++ back) = (c.sendAuth, rest ++ back)) :
    c.Taken data c.sendAuth rest :=
  ⟨h, hsuffix, hawaits, fun _ => c.sent_ne _⟩

variable {c : AsyncSocksProxySocket} {data : List UInt8}

theorem hello_cases (hstate : c.state = .hello) :
    c.processInput data = (c, data) ∨ ∃ c' rest, c.Taken data c' rest := by
  have hawaits : c.awaits = 3 := by rw [awaits, hstate]
  cases hread : readPair data with
  | error buf => exact Or.inl (by rw [processInput, hstate, hread])
  | ok r =>
    obtain ⟨⟨ver, method⟩, rest⟩ := r
    have hprocess (back : List UInt8) : c.processInput (data ++ back) =
        if ver ≠ 5 then (c.fail 0, data ++ back)
        else if method = 0 then (c.sendConnect, rest ++ back)
        else if method = 2 then (c.sendAuth, rest ++ back)
        else (c.fail 0, data ++ back) := by
      rw [processInput, hstate, readPair_append hread back]
    have hsuffix := readPair_suffix hread
    right
    by_cases hver : ver ≠ 5
    · exact ⟨_, _, .fail (by omega) fun back => by rw [hprocess, if_pos hver]⟩
    by_cases hnone : method = 0
    · refine ⟨_, _, .sendConnect (by omega) hsuffix fun back => ?_⟩
      rw [hprocess, if_neg hver, if_pos hnone]
    by_cases huser : method = 2
    · refine ⟨_, _, .sendAuth (by omega) hsuffix fun back => ?_⟩
      rw [hprocess, if_neg hver, if_neg hnone, if_pos huser]
    · refine ⟨c.fail 0, data, .fail (by omega) fun back => ?_⟩
      rw [hprocess, if_neg hver, if_neg hnone, if_neg huser]

theorem auth_cases (hstate : c.state = .auth) :
    c.processInput data = (c, data) ∨ ∃ c' rest, c.Taken data c' rest := by
  have hawaits : c.awaits = 2 := by rw [awaits, hstate]
  cases hread : readPair data with
  | error buf => exact Or.inl (by rw [processInput, hstate, hread])
  | ok r =>
    obtain ⟨⟨ver, status⟩, rest⟩ := r
    have hprocess (back : List UInt8) : c.processInput (data ++ back) =
        if ver ≠ 1 ∨ status ≠ 0 then (c.fail SOCKET_EACCES, data ++ back)
        else (c.sendConnect, rest ++ back) := by
      rw [processInput, hstate, readPair_append hread back]
    right
    by_cases hrefused : ver ≠ 1 ∨ status ≠ 0
    · exact ⟨_, _, .fail (by omega) fun back => by rw [hprocess, if_pos hrefused]⟩
    · refine ⟨_, _, .sendConnect (by omega) (readPair_suffix hread) fun back => ?_⟩
      rw [hprocess, if_neg hrefused]

theorem connect_cases (hstate : c.state = .connect) :
    c.processInput data = (c, data) ∨ ∃ c' rest, c.Taken data c' rest := by
  have hawaits : c.awaits = 1 := by rw [awaits, hstate]
  cases hread : readPair data with
  | error buf => exact Or.inl (by rw [processInput, hstate, hread])
  | ok r =>
    obtain ⟨⟨ver, rep⟩, rest⟩ := r
    cases hread' : readPair rest with
    | error buf =>
      left
      rw [processInput, hstate, hread]
      dsimp only
      rw [hread']
    | ok r =>
      obtain ⟨⟨rsv, atyp⟩, rest'⟩ := r
      have hprocess (back : List UInt8) :
          c.processInput (data ++ back) =
            c.handleReply (data ++ back) ver rep atyp (rest' ++ back) := by
        rw [processInput, hstate, readPair_append hread back]
        dsimp only
        rw [readPair_append hread' back]
      by_cases hrefused : ver ≠ 5 ∨ rep ≠ 0
      · refine Or.inr ⟨c.fail 0, data, .fail (by omega) fun back => ?_⟩
        rw [hprocess, handleReply, if_pos hrefused]
      by_cases htype : atyp = 1 ∨ atyp = 3 ∨ atyp = 4
      · cases hskip : skipBound atyp rest' with
        | error buf =>
          left
          have hnone := hprocess []
          rw [List.append_nil, List.append_nil, handleReply, if_neg hrefused, if_pos htype,
            hskip] at hnone
          exact hnone
        | ok left =>
          obtain ⟨front, rfl, hbehind⟩ := skipBound_eq_ok hskip
          refine Or.inr ⟨c.enter .tunnel, left, fun back => ?_, ?_, ?_,
            fun h => absurd h (Nat.lt_irrefl 0)⟩
          · rw [hprocess, handleReply, if_neg hrefused, if_pos htype, List.append_assoc, hbehind]
          · have hrest := (List.suffix_append front left).trans (readPair_suffix hread')
            exact hrest.trans (readPair_suffix hread)
          · rw [hawaits]
            exact Nat.one_pos
      · refine Or.inr ⟨c.fail 0, data, .fail (by omega) fun back => ?_⟩
        rw [hprocess, handleReply, if_neg hrefused, if_neg htype]

theorem processInput_cases (c : AsyncSocksProxySocket) (data : List UInt8) :
    c.processInput data = (c, data) ∨ ∃ c' rest, c.Taken data c' rest := by
  cases hstate : c.state with
  | init => exact Or.inl (by rw [processInput, hstate])
  | hello => exact hello_cases hstate
  | auth => exact auth_cases hstate
  | connect => exact connect_cases hstate
  | tunnel => exact Or.inl (by rw [processInput, hstate])
  | error => exact Or.inl (by rw [processInput, hstate])

theorem processInput_nil (c : AsyncSocksProxySocket) : c.processInput [] = (c, []) := by
  rw [processInput]
  split <;> rfl

theorem length_processInput_le (c : AsyncSocksProxySocket) (data : List UInt8) :
    (c.processInput data).2.length ≤ data.length := by
  rcases c.processInput_cases data with h | ⟨c', rest, h⟩
  · rw [h]
  · have hprocess := h.process []
    rw [List.append_nil, List.append_nil] at hprocess
    rw [hprocess]
    exact h.suffix.length_le

end AsyncSocksProxySocket

/-- The client of a SOCKS proxy. -/
def asyncSocksProxySocket : Handshake AsyncSocksProxySocket where
  processInput := fun c data =>
    let p := c.processInput data
    { state := p.1, data := p.2, done := p.1.state = .tunnel ∨ p.1.state = .error }
  shortens := AsyncSocksProxySocket.length_processInput_le

/-- The client reads as long as a message may come. -/
def socksClientReader : StreamReader AsyncSocksProxySocket UInt8 :=
  asyncSocksProxySocket.reader fun c => 0 < c.awaits

/-- What has become of a client: its state, with all it has been in and all it has sent, and the
bytes that are there for the application. -/
def socksClientOutcome (p : StreamReader.Progress AsyncSocksProxySocket UInt8) :
    AsyncSocksProxySocket × List UInt8 :=
  (p.state, if p.state.closed = none then p.left ++ p.unread else [])

theorem socksClient_messages : socksClientReader.Messages (·.sent) AsyncSocksProxySocket.awaits where
  nil := AsyncSocksProxySocket.processInput_nil
  step := fun c data hreading => by
    rcases c.processInput_cases data with h | ⟨c', rest, h⟩
    · exact Or.inl h
    right
    have hprocess : c.processInput data = (c', rest) := by
      have hnone := h.process []
      rwa [List.append_nil, List.append_nil] at hnone
    have hresult : socksClientReader.process c data = (c', rest) := hprocess
    rw [hresult]
    exact ⟨h.process, h.awaits, fun hpos => h.asks (of_decide_eq_true hpos)⟩

/-- **The client of a SOCKS proxy does not see how the replies come.** -/
theorem socksClient_independent (c : AsyncSocksProxySocket) (replies : List UInt8) :
    socksClientReader.Independent (·.sent) 1024 socksClientOutcome c.sendHello replies := by
  intro pieces pieces' hpieces hpieces' hdelivered hdelivered'
  have houtcome (pieces : List (List UInt8)) (hpieces : pieces.flatten = replies)
      (hdelivered : socksClientReader.Delivered (·.sent) 1024 { state := c.sendHello } pieces) :
      let p := socksClientReader.feedAll { state := c.sendHello } pieces
      (p.state, p.left ++ p.unread) = socksClientReader.settle 3 c.sendHello replies := by
    rw [← hpieces]
    have hwaiting := socksClient_messages.nil c.sendHello
    exact StreamReader.feedAll_eq_settle socksClient_messages le_rfl rfl hwaiting hdelivered
  have h := (houtcome pieces hpieces hdelivered).trans (houtcome pieces' hpieces' hdelivered').symm
  obtain ⟨hstate, hrest⟩ := Prod.mk.inj h
  rw [socksClientOutcome, socksClientOutcome, hstate, hrest]

/-! ### The SOCKS proxy -/

/-- What a reader leaves, whether it succeeds or not. -/
def leftOf {α : Type} : Except (List UInt8) (α × List UInt8) → List UInt8
  | .error rest => rest
  | .ok r => r.2

variable (buf : List UInt8)

theorem leftOf_attempt {α : Type} {read : List UInt8 → Option (α × List UInt8)}
    (h : ∀ r, read buf = some r → r.2 <:+ buf) : leftOf (attempt read buf) <:+ buf := by
  rw [attempt]
  split
  · exact List.suffix_rfl
  · rename_i r hread
    exact h r hread

theorem leftOf_bind {α β : Type} {x : Except (List UInt8) (α × List UInt8)} {buf : List UInt8}
    {f : α × List UInt8 → Except (List UInt8) (β × List UInt8)} (hx : leftOf x <:+ buf)
    (hf : ∀ r, leftOf (f r) <:+ r.2) : leftOf (x >>= f) <:+ buf := by
  cases x with
  | error rest => exact hx
  | ok r => exact (hf r).trans hx

theorem leftOf_readUInt8 : leftOf (attempt readUInt8 buf) <:+ buf :=
  leftOf_attempt buf fun r h => by
    rw [readUInt8_eq_some h]
    exact List.suffix_cons _ _

theorem leftOf_readPair : leftOf (readPair buf) <:+ buf :=
  leftOf_bind (leftOf_readUInt8 buf) fun r =>
    leftOf_bind (leftOf_readUInt8 r.2) fun _ => List.suffix_rfl

theorem leftOf_readText : leftOf (readText buf) <:+ buf :=
  leftOf_bind (leftOf_readUInt8 buf) fun r => leftOf_attempt r.2 fun r' h => by
    rw [(readBytes_eq_some h).1]
    exact List.suffix_append _ _

theorem leftOf_readAuth : leftOf (readAuth buf) <:+ buf :=
  leftOf_bind (leftOf_readUInt8 buf) fun r => leftOf_bind (leftOf_readText r.2) fun r' =>
    leftOf_bind (leftOf_readText r'.2) fun _ => List.suffix_rfl

theorem leftOf_readIPv4 : leftOf (readIPv4 buf) <:+ buf := by
  refine leftOf_bind (leftOf_attempt buf fun r h => ?_) fun r =>
    leftOf_bind (leftOf_attempt r.2 fun r' h => ?_) fun _ => List.suffix_rfl
  · rw [readUInt32_eq_some h]
    exact List.suffix_append _ _
  · rw [readUInt16_eq_some h]
    exact List.suffix_append _ _

namespace AsyncSocksProxyServerSocket

variable (s : AsyncSocksProxyServerSocket)

variable (request : List UInt8)

theorem handleHello_suffix : (s.handleHello request).2 <:+ request := by
  have hpair := leftOf_readPair request
  rw [handleHello]
  split
  · rename_i rest hread
    rwa [hread] at hpair
  rename_i ver numMethods rest hread
  rw [hread] at hpair
  split
  · exact hpair
  split
  · exact hpair
  have hmethod := leftOf_readUInt8 rest
  split
  · rename_i rest' hread'
    rw [hread'] at hmethod
    exact hmethod.trans hpair
  · rename_i method rest' hread'
    rw [hread'] at hmethod
    split
    · exact hmethod.trans hpair
    · split <;> exact hmethod.trans hpair

theorem handleAuth_suffix : (s.handleAuth request).2 <:+ request := by
  have hauth := leftOf_readAuth request
  rw [handleAuth]
  split <;> rename_i hread <;> rwa [hread] at hauth

theorem handleConnect_suffix : (s.handleConnect request).2 <:+ request := by
  have hfirst := leftOf_readPair request
  rw [handleConnect]
  split
  · rename_i rest hread
    rwa [hread] at hfirst
  rename_i ver command rest hread
  rw [hread] at hfirst
  have hsecond := leftOf_readPair rest
  split
  · rename_i rest' hread'
    rw [hread'] at hsecond
    exact hsecond.trans hfirst
  rename_i reserved addrType rest' hread'
  rw [hread'] at hsecond
  have haddress := leftOf_readIPv4 rest'
  split
  · rename_i rest'' hread''
    rw [hread''] at haddress
    exact (haddress.trans hsecond).trans hfirst
  · rename_i ip port rest'' hread''
    rw [hread''] at haddress
    split <;> exact (haddress.trans hsecond).trans hfirst

theorem length_processInput_le (data : List UInt8) :
    (s.processInput data).2.length ≤ data.length := by
  rw [processInput]
  split
  · exact (s.handleHello_suffix data).length_le
  · exact (s.handleAuth_suffix data).length_le
  · exact (s.handleConnect_suffix data).length_le
  · exact le_rfl

/-- The server waits for a message. -/
def awaits : Bool := s.state = .hello || s.state = .auth || s.state = .connect

end AsyncSocksProxyServerSocket

/-- The SOCKS proxy. -/
def asyncSocksProxyServerSocket : Handshake AsyncSocksProxyServerSocket where
  processInput := fun s data =>
    let p := s.processInput data
    { state := p.1, data := p.2, done := p.1.closed ≠ none }
  shortens := AsyncSocksProxyServerSocket.length_processInput_le

/-- The server reads as long as it waits for a message. What comes later stays where it is. -/
def socksServerReader : StreamReader AsyncSocksProxyServerSocket UInt8 :=
  asyncSocksProxyServerSocket.reader fun s => s.awaits

/-- What has become of a server: its state, with all it has been in and all it has sent, and the
bytes that are there for whoever comes next. -/
def socksServerOutcome (p : StreamReader.Progress AsyncSocksProxyServerSocket UInt8) :
    AsyncSocksProxyServerSocket × List UInt8 :=
  (p.state, if p.state.closed = none then p.left ++ p.unread else [])

/-- The bytes begin with a hello that the server answers. -/
def AnsweredHello : List UInt8 → Prop
  | ver :: numMethods :: rest => ver = 5 ∧ (numMethods = 0 ∨ rest ≠ [])
  | _ => False

namespace AsyncSocksProxyServerSocket

variable (s : AsyncSocksProxyServerSocket)

theorem handleHello_of_not_answered {data : List UInt8}
    (h : ¬AnsweredHello data) : (s.handleHello data).1 = s.fail 0 := by
  cases data with
  | nil => rfl
  | cons ver data =>
    cases data with
    | nil => rfl
    | cons numMethods rest =>
      rw [handleHello, readPair_cons]
      dsimp only
      by_cases hver : ver = 5
      · have hrest : ¬(numMethods = 0 ∨ rest ≠ []) := fun hor => h ⟨hver, hor⟩
        rw [if_neg (not_not.mpr hver), if_neg (not_or.mp hrest).1, not_not.mp (not_or.mp hrest).2]
        rfl
      · rw [if_pos hver]

theorem handleHello_none :
    s.handleHello [5, 0] = ((s.sendHelloReply 0xFF).enter .error, []) := by
  rfl

theorem handleHello_one {numMethods : UInt8} (h : numMethods ≠ 0)
    (method : UInt8) :
    ∃ next, next ≠ .hello ∧ s.handleHello [5, numMethods, method] =
      ((s.sendHelloReply method).enter next, []) := by
  rw [handleHello, readPair_cons]
  dsimp only
  rw [if_neg (not_not.mpr rfl), if_neg h, attempt_of_some (readUInt8_cons method [])]
  dsimp only
  split
  · exact ⟨_, SocksServerState.noConfusion, rfl⟩
  · split
    · exact ⟨_, SocksServerState.noConfusion, rfl⟩
    · exact ⟨_, SocksServerState.noConfusion, rfl⟩

theorem processInput_single (h : s.state ≠ .hello)
    (hawaits : s.awaits = true)
    (b : UInt8) : (s.processInput [b]).1 = s.fail 0 := by
  have hauth : readAuth [b] = .error [] := by
    rfl
  have hpair : readPair [b] = .error [] := by
    rfl
  rw [awaits] at hawaits
  rw [processInput]
  split
  · rename_i hhello
    exact absurd hhello h
  · rw [handleAuth, hauth]
  · rw [handleConnect, hpair]
  · rename_i hnothello hnotauth hnotconnect
    rw [decide_eq_false h, decide_eq_false hnotauth, decide_eq_false hnotconnect] at hawaits
    cases hawaits

end AsyncSocksProxyServerSocket

theorem AnsweredHello.append {data : List UInt8} (h : AnsweredHello data) (more : List UInt8) :
    AnsweredHello (data ++ more) := by
  cases data with
  | nil => exact h.elim
  | cons ver data =>
    cases data with
    | nil => exact h.elim
    | cons numMethods rest =>
      exact ⟨h.1, h.2.imp_right fun hrest => List.append_ne_nil_of_left_ne_nil hrest more⟩

theorem socksServerOutcome_of_not_answered (h : ¬AnsweredHello piece)
    (pieces : List (List UInt8)) :
    socksServerOutcome (socksServerReader.feedAll { state := {} } (piece :: pieces)) =
      (AsyncSocksProxyServerSocket.fail {} 0, []) := by
  have hfeed : socksServerReader.feed { state := {} } piece = _ := StreamReader.feed_of_reading rfl
  have hstate : (socksServerReader.feed { state := {} } piece).state =
      AsyncSocksProxyServerSocket.fail {} 0 := by
    rw [hfeed]
    exact AsyncSocksProxyServerSocket.handleHello_of_not_answered {} h
  have hclosed :
      socksServerReader.reading (socksServerReader.feed { state := {} } piece).state = false := by
    rw [hstate]
    rfl
  rw [StreamReader.feedAll_cons, StreamReader.feedAll_of_not_reading hclosed, socksServerOutcome]
  dsimp only
  rw [hstate]
  rfl

theorem sent_feedAll_singles {p : StreamReader.Progress AsyncSocksProxyServerSocket UInt8} (hleft : p.left = [])
    (hstate : p.state.state ≠ .hello) (items : List UInt8) :
    socksServerReader.Delivered (·.sent) 1024 p (items.map fun b => [b]) ∧
      (socksServerReader.feedAll p (items.map fun b => [b])).state.sent = p.state.sent := by
  have hsingles (items : List UInt8) : ∀ piece ∈ items.map fun b => [b], piece ≠ [] := by
    intro piece hpiece
    obtain ⟨b, -, rfl⟩ := List.mem_map.mp hpiece
    exact List.cons_ne_nil _ _
  cases items with
  | nil => exact ⟨trivial, rfl⟩
  | cons b items =>
    cases hreading : socksServerReader.reading p.state with
    | false =>
      refine ⟨StreamReader.delivered_of_not_reading hreading (hsingles _), ?_⟩
      rw [StreamReader.feedAll_of_not_reading hreading]
    | true =>
      have hfeed : socksServerReader.feed p [b] = _ := StreamReader.feed_of_reading hreading
      have hfail : (socksServerReader.feed p [b]).state = p.state.fail 0 := by
        rw [hfeed, hleft]
        exact p.state.processInput_single hstate hreading b
      have hclosed : socksServerReader.reading (socksServerReader.feed p [b]).state = false := by
        rw [hfail]
        rfl
      rw [List.map_cons, StreamReader.feedAll_cons, StreamReader.feedAll_of_not_reading hclosed]
      refine ⟨⟨⟨List.cons_ne_nil _ _, fun _ => ?_, fun hasked => ?_⟩, ?_⟩, ?_⟩
      · rw [hleft]
        show 0 + 1 ≤ 1024
        decide
      · rw [hfail] at hasked
        exact absurd rfl hasked
      · exact StreamReader.delivered_of_not_reading hclosed (hsingles items)
      · show (socksServerReader.feed p [b]).state.sent = _
        rw [hfail]
        rfl

theorem sent_answered {s : AsyncSocksProxyServerSocket} (hne : piece ≠ [])
    (hfits : piece.length ≤ 1024)
    (h : AsyncSocksProxyServerSocket.handleHello {} piece = (s, [])) (hstate : s.state ≠ .hello)
    (items : List UInt8) :
    socksServerReader.Delivered (·.sent) 1024 { state := {} } (piece :: items.map fun b => [b]) ∧
      (socksServerReader.feedAll { state := {} } (piece :: items.map fun b => [b])).state.sent =
        s.sent := by
  have hfeed : socksServerReader.feed { state := {} } piece = { state := s } := by
    rw [StreamReader.feed_of_reading rfl]
    have hresult : socksServerReader.process {} piece = (s, []) := h
    rw [List.nil_append, hresult]
  have hrest := sent_feedAll_singles (p := { state := s }) rfl hstate items
  rw [StreamReader.feedAll_cons, StreamReader.Delivered, hfeed]
  refine ⟨⟨⟨hne, fun _ => ?_, fun _ => rfl⟩, hrest.1⟩, hrest.2⟩
  rw [List.length_nil, Nat.zero_add]
  exact hfits

theorem delivered_first_byte (b : UInt8) (items : List UInt8) :
    socksServerReader.Delivered (·.sent) 1024 { state := {} } ([b] :: items.map fun b => [b]) := by
  have hstate : (socksServerReader.feed { state := {} } [b]).state =
      AsyncSocksProxyServerSocket.fail {} 0 := by
    have hnone : ¬AnsweredHello [b] := not_false
    exact AsyncSocksProxyServerSocket.handleHello_of_not_answered {} hnone
  have hclosed :
      socksServerReader.reading (socksServerReader.feed { state := {} } [b]).state = false := by
    rfl
  refine ⟨⟨List.cons_ne_nil _ _, fun _ => ?_, fun hasked => ?_⟩, ?_⟩
  · show 0 + 1 ≤ 1024
    decide
  · rw [hstate] at hasked
    exact absurd rfl hasked
  · refine StreamReader.delivered_of_not_reading hclosed fun piece hpiece => ?_
    obtain ⟨b', -, rfl⟩ := List.mem_map.mp hpiece
    exact List.cons_ne_nil _ _

/-- **The SOCKS proxy sees how the requests come**: it makes no difference if and only if it answers
no hello. -/
theorem socksServer_independent_iff (requests : List UInt8) :
    socksServerReader.Independent (·.sent) 1024 socksServerOutcome {} requests ↔
      ¬AnsweredHello requests := by
  have hflatten (items : List UInt8) : (items.map fun b => [b]).flatten = items := by
    rw [← List.flatMap_def, List.flatMap_singleton']
  constructor
  · intro h hanswered
    obtain _ | ⟨ver, _ | ⟨numMethods, rest⟩⟩ := requests
    · exact hanswered
    · exact hanswered
    obtain ⟨rfl, hanswer⟩ := hanswered
    -- The first byte alone is an error, and nothing is sent.
    have hsilent (pieces : List (List UInt8)) (hpieces : pieces.flatten = 5 :: numMethods :: rest)
        (hdelivered : socksServerReader.Delivered (·.sent) 1024 { state := {} } pieces) :
        (socksServerReader.feedAll { state := {} } pieces).state.sent = [] := by
      have hfirst := delivered_first_byte 5 (numMethods :: rest)
      have hsame := h pieces ([5] :: (numMethods :: rest).map fun b => [b]) hpieces
        (by rw [List.flatten_cons, hflatten]; rfl) hdelivered hfirst
      rw [socksServerOutcome_of_not_answered (show ¬AnsweredHello [5] from not_false)] at hsame
      exact congrArg (fun r => r.1.sent) hsame
    by_cases hnone : numMethods = 0
    · subst hnone
      have hanswer := sent_answered (List.cons_ne_nil _ _) (by decide)
        (AsyncSocksProxyServerSocket.handleHello_none {}) SocksServerState.noConfusion rest
      have hsent := hsilent _ (by rw [List.flatten_cons, hflatten]; rfl) hanswer.1
      rw [hanswer.2] at hsent
      cases hsent
    obtain _ | ⟨method, rest⟩ := rest
    · exact hanswer.elim hnone fun hne => hne rfl
    obtain ⟨next, hnext, hhello⟩ := AsyncSocksProxyServerSocket.handleHello_one {} hnone method
    have hlength : [5, numMethods, method].length ≤ 1024 := show 3 ≤ 1024 by decide
    have hanswer := sent_answered (List.cons_ne_nil _ _) hlength hhello hnext rest
    have hsent := hsilent _ (by rw [List.flatten_cons, hflatten]; rfl) hanswer.1
    rw [hanswer.2] at hsent
    cases hsent
  · intro hnone pieces pieces' hpieces hpieces' hdelivered hdelivered'
    have houtcome (pieces : List (List UInt8)) (hpieces : pieces.flatten = requests)
        (hdelivered : socksServerReader.Delivered (·.sent) 1024 { state := {} } pieces) :
        socksServerOutcome (socksServerReader.feedAll { state := {} } pieces) =
          if requests = [] then ({}, []) else (AsyncSocksProxyServerSocket.fail {} 0, []) := by
      cases pieces with
      | nil =>
        rw [← hpieces]
        rfl
      | cons piece pieces =>
        have hpiece : ¬AnsweredHello piece := fun hanswered => hnone (hpieces ▸ hanswered.append _)
        have hrequests : requests ≠ [] := hpieces ▸ List.append_ne_nil_of_left_ne_nil hdelivered.1.1 _
        rw [socksServerOutcome_of_not_answered hpiece, if_neg hrequests]
    rw [houtcome pieces hpieces hdelivered, houtcome pieces' hpieces' hdelivered']

/-! ### A tunnel through an HTTP proxy -/

section Https

variable {C : Type} (authenticate : Option C → List UInt8 → HttpAuthAnswer C)

/-- The socket that asks an HTTP proxy. -/
def asyncHttpsProxySocket : Handshake (AsyncHttpsProxySocket C) where
  processInput := fun s data =>
    let p := s.processInput authenticate data
    { state := p.1, data := p.2, done := !p.1.state.beforeTunnel }
  shortens := AsyncHttpsProxySocket.length_processInput_le authenticate

/-- The socket reads until it has its tunnel, or has closed the connection. -/
def httpsReader : StreamReader (AsyncHttpsProxySocket C) UInt8 :=
  (asyncHttpsProxySocket authenticate).reader fun s => s.state.beforeTunnel && s.state ≠ .init

/-- What has become of a socket: its state, all it has sent, and the bytes for the application or in front of
the next response. -/
def httpsOutcome (p : StreamReader.Progress (AsyncHttpsProxySocket C) UInt8) :
    AsyncHttpsProxySocket C × List UInt8 :=
  (p.state,
    if p.state.state = .tunnel then p.left ++ p.unread
    else if p.state.state.beforeTunnel then p.left
    else [])

/-- Every line is shorter than the buffer. -/
def LinesFit (s : AsyncHttpsProxySocket C) (responses : List UInt8) : Prop :=
  ∀ front back, front ++ back = responses →
    (httpsReader authenticate).reading (s.processInput authenticate front).1 = true →
      (s.processInput authenticate front).2.length < 1024

/-- Nothing comes behind a response after which the connection is closed. -/
def NothingBehindClose (s : AsyncHttpsProxySocket C) (responses : List UInt8) : Prop :=
  ∀ front back, front ++ back = responses → (s.processInput authenticate front).1.state = .init →
    back = []

variable {authenticate} {s : AsyncHttpsProxySocket C} {responses front : List UInt8}

theorem linesFit_of_length (h : responses.length < 1024) : LinesFit authenticate s responses := by
  rintro front back rfl -
  have hle := AsyncHttpsProxySocket.length_processInput_le authenticate s front
  rw [List.length_append] at h
  omega

theorem httpsReader_resumes : (httpsReader authenticate).Resumes s where
  nil := AsyncHttpsProxySocket.processInput_nil
  append := AsyncHttpsProxySocket.processInput_append authenticate s

theorem httpsReader_reading : (httpsReader authenticate).reading s = true ↔
    s.state.beforeTunnel = true ∧ s.state ≠ .init := by
  show (s.state.beforeTunnel && decide (s.state ≠ .init)) = true ↔ _
  rw [Bool.and_eq_true, decide_eq_true_iff]

theorem httpsOutcome_eq (h : NothingBehindClose authenticate s responses) {pieces : List (List UInt8)}
    (hpieces : pieces.flatten = responses) :
    httpsOutcome ((httpsReader authenticate).feedAll { state := s } pieces) =
      httpsOutcome { state := (s.processInput authenticate responses).1
                     left := (s.processInput authenticate responses).2 } := by
  obtain ⟨front, hfront, hprocess, hunread⟩ := httpsReader_resumes.feedAll_eq pieces
  generalize (httpsReader authenticate).feedAll { state := s } pieces = p at hfront hprocess hunread
  have hprocess : s.processInput authenticate front = (p.state, p.left) := hprocess
  rw [hpieces] at hfront
  have hnone (hnil : p.unread = []) :
      s.processInput authenticate responses = (p.state, p.left ++ p.unread) := by
    rw [hnil, List.append_nil] at hfront ⊢
    rw [← hfront, hprocess]
  by_cases hrun : p.state.state.beforeTunnel = true
  · have hnil : p.unread = [] := by
      by_cases hinit : p.state.state = .init
      · exact h front p.unread hfront (by rw [hprocess]; exact hinit)
      · exact hunread (httpsReader_reading.mpr ⟨hrun, hinit⟩)
    rw [hnone hnil, hnil, List.append_nil, httpsOutcome, httpsOutcome, hnil]
  · have hstopped := Bool.eq_false_iff.mpr hrun
    have hall : s.processInput authenticate responses = (p.state, p.left ++ p.unread) := by
      rw [← hfront, AsyncHttpsProxySocket.processInput_append, hprocess]
      exact AsyncHttpsProxySocket.processInput_stopped hstopped
    rw [hall, httpsOutcome, httpsOutcome, if_neg hrun, if_neg hrun, List.append_nil]

theorem processInput_byte (hin : s.InBody)
    (hrun : (s.processInput authenticate front).1.state.beforeTunnel = true) (b : UInt8) :
    let p := s.processInput authenticate front
    s.processInput authenticate (front ++ [b]) = (p.1, p.2 ++ [b]) ∨
      p.2 = [] ∧ s.processInput authenticate (front ++ [b]) = (p.1.skip 1, []) ∨
        s.processInput authenticate (front ++ [b]) =
          (p.1.processLine authenticate (chomp p.2), []) := by
  have hwaiting := AsyncHttpsProxySocket.processInput_append authenticate s front []
  rw [List.append_nil, List.append_nil] at hwaiting
  rw [AsyncHttpsProxySocket.processInput_append]
  exact AsyncHttpsProxySocket.processInput_snoc hrun (hin.processInput front) hwaiting.symm b

theorem closing_byte (hin : s.InBody) {b : UInt8}
    (hbefore : (s.processInput authenticate front).1.state ≠ .init)
    (h : (s.processInput authenticate (front ++ [b])).1.state = .init) :
    (s.processInput authenticate front).1.state.beforeTunnel = true ∧
      (s.processInput authenticate front).2.length ≤ 1 ∧
        (s.processInput authenticate (front ++ [b])).2 = [] ∧
        (s.processInput authenticate (front ++ [b])).1.sent =
          (s.processInput authenticate front).1.sent := by
  cases hrun : (s.processInput authenticate front).1.state.beforeTunnel with
  | false =>
    rw [AsyncHttpsProxySocket.processInput_append,
      AsyncHttpsProxySocket.processInput_stopped hrun] at h
    exact absurd h hbefore
  | true =>
    refine ⟨rfl, ?_⟩
    rcases processInput_byte hin hrun b with hwait | ⟨hleft, hskip⟩ | hline
    · rw [hwait] at h
      exact absurd h hbefore
    · rw [hskip] at h ⊢
      rw [hleft]
      exact ⟨Nat.zero_le _, rfl, AsyncHttpsProxySocket.sent_skip h⟩
    · rw [hline] at h ⊢
      obtain ⟨hempty, hsent⟩ := AsyncHttpsProxySocket.processLine_init hbefore h
      exact ⟨length_le_of_chomp hempty, rfl, hsent⟩

theorem delivered_bytes (hin : s.InBody) (h : LinesFit authenticate s responses) :
    (httpsReader authenticate).Delivered (·.sent) 1024 { state := s }
    (responses.map fun b => [b]) := by
  refine httpsReader_resumes.delivered_singles h fun front b hreading hasked => ?_
  rcases processInput_byte hin (httpsReader_reading.mp hreading).1 b with hwait | ⟨-, hskip⟩ | hline
  · exact absurd (congrArg (fun p => p.1.sent) hwait) hasked
  · exact congrArg Prod.snd hskip
  · exact congrArg Prod.snd hline

variable (authenticate) in
theorem processInput_behind_close (h : s.state = .init) (b : UInt8) :
    s.processInput authenticate [b] = (s.fail 0, []) ∨
      s.processInput authenticate [b] = (s, [b]) := by
  have hbody : s.state ≠ .skipBody := h ▸ ProxyState.noConfusion
  by_cases hend : b = 10
  · left
    have hline : splitLine [b] = some ([], []) := if_pos hend
    have hfail : s.processLine authenticate (chomp []) = s.fail 0 := by
      show s.processLine authenticate [] = s.fail 0
      rw [AsyncHttpsProxySocket.processLine, if_pos rfl, AsyncHttpsProxySocket.endHeaders, h]
    rw [AsyncHttpsProxySocket.processInput_line (h ▸ rfl) hbody hline, hfail,
      AsyncHttpsProxySocket.processInput_nil]
  · exact Or.inr (AsyncHttpsProxySocket.processInput_part hbody (if_neg hend))

theorem behind_close (h : s.state = .init) (b : UInt8) :
    (httpsReader authenticate).reading (s.processInput authenticate [b]).1 = false ∧
      (s.processInput authenticate [b]).1.sent = s.sent ∧
        ∀ unread, httpsOutcome { state := (s.processInput authenticate [b]).1
                                 left := (s.processInput authenticate [b]).2, unread } ≠ (s, []) := by
  rcases processInput_behind_close authenticate h b with hfail | hstay
  · rw [hfail]
    refine ⟨rfl, rfl, fun unread heq => ?_⟩
    have hstate := congrArg (fun r => r.1.state) heq
    exact ProxyState.noConfusion (Eq.trans hstate h)
  rw [hstay]
  have hstopped : (httpsReader authenticate).reading s = false :=
    Bool.eq_false_iff.mpr fun hreading => (httpsReader_reading.mp hreading).2 h
  refine ⟨hstopped, rfl, fun unread heq => ?_⟩
  rw [httpsOutcome] at heq
  dsimp only at heq
  rw [h] at heq
  exact absurd (congrArg Prod.snd heq) (List.cons_ne_nil b [])

variable (authenticate s) in
/-- A byte is the first that closes the connection. -/
structure ClosesAt (before : List UInt8) (b : UInt8) : Prop where
  first : ∀ front, front <+: before → (s.processInput authenticate front).1.state ≠ .init
  closed : (s.processInput authenticate (before ++ [b])).1.state = .init

variable {before : List UInt8} {b : UInt8}

theorem flatten_singles (items : List UInt8) : (items.map fun b => [b]).flatten = items := by
  rw [← List.flatMap_def, List.flatMap_singleton']

theorem ClosesAt.feedAll_eq (h : ClosesAt authenticate s before b) :
    (httpsReader authenticate).feedAll { state := s } (before.map fun b => [b]) =
      { state := (s.processInput authenticate before).1,
        left := (s.processInput authenticate before).2 } := by
  obtain ⟨front, hfront, hprocess, hunread⟩ := httpsReader_resumes.feedAll_eq (before.map fun b => [b])
  generalize (httpsReader authenticate).feedAll { state := s } (before.map fun b => [b]) = p
    at hfront hprocess hunread ⊢
  have hprocess : s.processInput authenticate front = (p.state, p.left) := hprocess
  rw [flatten_singles] at hfront
  have hinit := h.first front ⟨_, hfront⟩
  rw [hprocess] at hinit
  have hrun : p.state.state.beforeTunnel = true := by
    by_contra hstop
    have hclosed := h.closed
    rw [← hfront, List.append_assoc, AsyncHttpsProxySocket.processInput_append, hprocess,
      AsyncHttpsProxySocket.processInput_stopped (Bool.eq_false_iff.mpr hstop)] at hclosed
    exact hinit hclosed
  have hnil := hunread (httpsReader_reading.mpr ⟨hrun, hinit⟩)
  rw [hnil, List.append_nil] at hfront
  subst hfront
  obtain ⟨state, left, unread⟩ := p
  rw [hprocess, ← hnil]

theorem ClosesAt.outcome_apart (hin : s.InBody) (h : ClosesAt authenticate s before b)
    (later : List UInt8) :
    httpsOutcome ((httpsReader authenticate).feedAll { state := s }
        ((before ++ b :: later).map fun b => [b])) =
      ((s.processInput authenticate (before ++ [b])).1, []) := by
  obtain ⟨hrun, -, hnone, -⟩ := closing_byte hin (h.first before List.prefix_rfl) h.closed
  have hreads : (httpsReader authenticate).reading (s.processInput authenticate before).1 = true :=
    httpsReader_reading.mpr ⟨hrun, h.first before List.prefix_rfl⟩
  have hbyte : (httpsReader authenticate).process (s.processInput authenticate before).1
      ((s.processInput authenticate before).2 ++ [b]) = s.processInput authenticate (before ++ [b]) :=
    (AsyncHttpsProxySocket.processInput_append authenticate s before [b]).symm
  have hclosed :
      (httpsReader authenticate).reading (s.processInput authenticate (before ++ [b])).1 = false :=
    Bool.eq_false_iff.mpr fun hreading => (httpsReader_reading.mp hreading).2 h.closed
  rw [List.map_append, StreamReader.feedAll_append, h.feedAll_eq, List.map_cons,
    StreamReader.feedAll_cons, StreamReader.feed_of_reading hreads]
  dsimp only
  rw [hbyte, hnone, StreamReader.feedAll_of_not_reading hclosed, httpsOutcome]
  dsimp only
  rw [h.closed]
  rfl

theorem ClosesAt.outcome_together (hin : s.InBody) (h : ClosesAt authenticate s before b)
    (hdelivered :
      (httpsReader authenticate).Delivered (·.sent) 1024 { state := s } (before.map fun b => [b]))
    (next : UInt8) (later : List UInt8) :
    let pieces := before.map (fun b => [b]) ++ [b, next] :: later.map fun b => [b]
    (httpsReader authenticate).Delivered (·.sent) 1024 { state := s } pieces ∧
      httpsOutcome ((httpsReader authenticate).feedAll { state := s } pieces) ≠
        ((s.processInput authenticate (before ++ [b])).1, []) := by
  obtain ⟨hrun, hleft, hnone, hsent⟩ := closing_byte hin (h.first before List.prefix_rfl) h.closed
  have hreads : (httpsReader authenticate).reading (s.processInput authenticate before).1 = true :=
    httpsReader_reading.mpr ⟨hrun, h.first before List.prefix_rfl⟩
  have hbytes : (httpsReader authenticate).process (s.processInput authenticate before).1
      ((s.processInput authenticate before).2 ++ [b, next]) =
        (s.processInput authenticate (before ++ [b])).1.processInput authenticate [next] := by
    have happend := AsyncHttpsProxySocket.processInput_append authenticate s (before ++ [b]) [next]
    rw [hnone, List.nil_append, List.append_assoc] at happend
    rw [← happend]
    exact (AsyncHttpsProxySocket.processInput_append authenticate s before [b, next]).symm
  have hlength : (s.processInput authenticate before).2.length + [b, next].length ≤ 1024 := by
    show (s.processInput authenticate before).2.length + 2 ≤ 1024
    omega
  have hsingles : ∀ piece ∈ later.map fun b => [b], piece ≠ [] := by
    intro piece hpiece
    obtain ⟨b', -, rfl⟩ := List.mem_map.mp hpiece
    exact List.cons_ne_nil _ _
  obtain ⟨hstopped, hasked, hne⟩ := behind_close h.closed next
  generalize (s.processInput authenticate (before ++ [b])).1.processInput authenticate [next] = result
    at hbytes hstopped hasked hne
  have hfeed : (httpsReader authenticate).feed
      { state := (s.processInput authenticate before).1,
        left := (s.processInput authenticate before).2 } [b, next] =
        { state := result.1, left := result.2 } := by
    rw [StreamReader.feed_of_reading hreads]
    dsimp only
    rw [hbytes]
  constructor
  · refine StreamReader.delivered_append hdelivered ?_
    rw [h.feedAll_eq]
    refine ⟨⟨List.cons_ne_nil _ _, fun _ => hlength, fun hmore => ?_⟩, ?_⟩
    · rw [hfeed] at hmore
      exact absurd (hasked.trans hsent) hmore
    · rw [hfeed]
      exact StreamReader.delivered_of_not_reading hstopped hsingles
  · rw [StreamReader.feedAll_append, h.feedAll_eq, StreamReader.feedAll_cons, hfeed,
      StreamReader.feedAll_of_not_reading hstopped]
    exact hne _

/-- **A socket that asks an HTTP proxy sees how the responses come**, unless nothing comes behind a
response after which it closes the connection. -/
theorem https_independent_iff (hin : s.InBody)
    (hreading : (httpsReader authenticate).reading s = true)
    (hfit : LinesFit authenticate s responses) :
    (httpsReader authenticate).Independent (·.sent) 1024 httpsOutcome s responses ↔
      NothingBehindClose authenticate s responses := by
  constructor
  · intro h front back hresponses hinit
    by_contra hback
    have hstart : ¬(s.processInput authenticate []).1.state = .init := by
      rw [AsyncHttpsProxySocket.processInput_nil]
      exact (httpsReader_reading.mp hreading).2
    obtain ⟨before, b, rest, rfl, hfirst, hclosed⟩ :=
      StreamReader.exists_first (P := fun front => (s.processInput authenticate front).1.state = .init)
        hstart ⟨front, List.prefix_rfl, hinit⟩
    have hcloses : ClosesAt authenticate s before b := ⟨hfirst, hclosed⟩
    obtain ⟨next, later, hlater⟩ : ∃ next later, rest ++ back = next :: later :=
      List.exists_cons_of_ne_nil (List.append_ne_nil_of_right_ne_nil _ hback)
    rw [List.append_assoc, List.cons_append, hlater] at hresponses
    have hbefore :
        (httpsReader authenticate).Delivered (·.sent) 1024 { state := s } (before.map fun b => [b]) :=
      delivered_bytes hin fun front' back' hfront' => by
        refine hfit front' (back' ++ b :: next :: later) ?_
        rw [← List.append_assoc, hfront', hresponses]
    obtain ⟨hdelivered, hne⟩ := hcloses.outcome_together hin hbefore next later
    have hapart := hcloses.outcome_apart hin (next :: later)
    rw [hresponses] at hapart
    refine hne (hapart ▸ h _ _ ?_ (flatten_singles responses) hdelivered (delivered_bytes hin hfit))
    rw [List.flatten_append, flatten_singles, List.flatten_cons, flatten_singles, ← hresponses]
    rfl
  · intro h pieces pieces' hpieces hpieces' _ _
    rw [httpsOutcome_eq h hpieces, httpsOutcome_eq h hpieces']

end Https

/-! ### All three -/

/-- It makes no difference how the bytes come that a SOCKS proxy, its client and an HTTP proxy
send. -/
structure ProxyIndependent {C : Type} (authenticate : Option C → List UInt8 → HttpAuthAnswer C)
    (c : AsyncSocksProxySocket) (h : AsyncHttpsProxySocket C)
    (replies requests responses : List UInt8) : Prop where
  client : socksClientReader.Independent (·.sent) 1024 socksClientOutcome c.sendHello replies
  server : socksServerReader.Independent (·.sent) 1024 socksServerOutcome {} requests
  https : (httpsReader authenticate).Independent (·.sent) 1024 httpsOutcome h.sendRequest responses

/-- **Handshakes with a proxy and how their bytes come.** For all lines that are shorter than the buffer, how
the bytes come makes no difference if and only if the SOCKS proxy does not get a hello that it answers, and
nothing comes behind a response after which the connection to the HTTP proxy is closed. -/
theorem proxyIndependent_iff {C : Type} (authenticate : Option C → List UInt8 → HttpAuthAnswer C)
    (c : AsyncSocksProxySocket) (h : AsyncHttpsProxySocket C)
    (replies requests responses : List UInt8)
    (hfit : LinesFit authenticate h.sendRequest responses) :
    ProxyIndependent authenticate c h replies requests responses ↔
      ¬AnsweredHello requests ∧ NothingBehindClose authenticate h.sendRequest responses := by
  have hbody : h.sendRequest.InBody := fun hstate => ProxyState.noConfusion hstate
  have hhttps := https_independent_iff hbody rfl hfit
  constructor
  · exact fun hall => ⟨(socksServer_independent_iff requests).mp hall.server, hhttps.mp hall.https⟩
  · rintro ⟨hserver, hbehind⟩
    exact ⟨socksClient_independent c replies, (socksServer_independent_iff requests).mpr hserver,
      hhttps.mpr hbehind⟩

/-- A client of a SOCKS proxy. -/
def exampleSocks : AsyncSocksProxySocket :=
  { user := [], pass := [], dest := { ip := .ipv4 0x01020304, port := 443 } }

/-- A socket for a tunnel. -/
def exampleHttps : AsyncHttpsProxySocket Unit :=
  { dest := utf8 "1.2.3.4:443", host := utf8 "1.2.3.4", agent := utf8 "libjingle" }

/-- Nothing is known of any challenge. -/
def ignoreAll (context : Option Unit) (_ : List UInt8) : HttpAuthAnswer Unit :=
  { result := .ignore, context, response := [], authMethod := [] }

/-- A response with which the tunnel is there. -/
def tunnelResponse : List UInt8 := utf8 "HTTP/1.0 200 OK\x0d\n\x0d\n"

theorem proxyIndependent_tunnel :
    ProxyIndependent ignoreAll exampleSocks exampleHttps [5, 0] [5] tunnelResponse ↔
      ¬AnsweredHello [5] ∧ NothingBehindClose ignoreAll exampleHttps.sendRequest tunnelResponse :=
  proxyIndependent_iff ignoreAll exampleSocks exampleHttps [5, 0] [5] tunnelResponse
    (linesFit_of_length (by decide +kernel))

/-- The hello of a client without a user, in one event or in two. -/
theorem not_proxyIndependent_hello :
    ¬ProxyIndependent ignoreAll exampleSocks exampleHttps [] [5, 1, 0] [] := by
  intro h
  exact (socksServer_independent_iff [5, 1, 0]).mp h.server ⟨rfl, Or.inr (List.cons_ne_nil _ _)⟩

end Synciga
