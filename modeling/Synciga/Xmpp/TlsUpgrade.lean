import Synciga.Xmpp.TlsBeforeAuth
import Synciga.Xmpp.XmppClient

/-!
# What is sent after TLS was to be started

An engine that has called `StartTls` takes it for granted that the connection is encrypted. Whatever `StartSSL`
returns, the adapter no longer passes bytes on as they are until the socket is closed. A socket that was made
with `TLS_DISABLED` has no adapter, and sends in the clear what the engine believes to be secret.

## Main results

* `Client.upgraded_run_iff` — nothing is sent in the clear then, exactly if the socket has an adapter
-/

namespace Synciga.Xmpp

variable {P M : Type}

variable (trace : List Event)

/-- The bytes that were handed over. -/
def written : List UInt8 := trace.flatMap Event.bytes

@[simp] theorem written_append (trace trace' : List Event) :
    written (trace ++ trace') = written trace ++ written trace' := List.flatMap_append

/-- What was passed on is what was handed over, as far as it goes, and all of it from after TLS was to be
started inside a TLS session. -/
def Upgraded (passed : List (Bool × UInt8)) : Prop :=
  passed.map Prod.snd <+: written trace ∧
    ∀ pre domain post, trace = pre ++ .startTls domain :: post →
      ∀ sent ∈ passed.drop (written pre).length, sent.1 = true

/-- The second part of it, for one place in the trace. -/
def securedFrom (events : List Event) (passed : List (Bool × UInt8)) (i : Nat) : Bool :=
  match events[i]? with
  | some (.startTls _) => (passed.drop (written (events.take i)).length).all (·.1)
  | _ => true

theorem upgraded_iff {events : List Event} {passed : List (Bool × UInt8)} :
    Upgraded events passed ↔ passed.map Prod.snd <+: written events ∧
      ∀ i ∈ List.range events.length, securedFrom events passed i = true := by
  refine and_congr Iff.rfl ⟨fun h i hi => ?_, fun h pre domain post hevents => ?_⟩
  · rw [securedFrom]
    split
    next domain heq =>
      obtain ⟨hlt, hget⟩ := List.getElem?_eq_some_iff.mp heq
      refine List.all_eq_true.mpr (h (events.take i) domain (events.drop (i + 1)) ?_)
      rw [← hget, ← List.drop_eq_getElem_cons hlt, List.take_append_drop]
    · rfl
  · have hi : pre.length ∈ List.range events.length := by simp [hevents]
    have hfrom := h _ hi
    rw [securedFrom, hevents, List.getElem?_append_right (Nat.le_refl _), Nat.sub_self, List.take_left] at hfrom
    exact List.all_eq_true.mp hfrom

instance (events : List Event) (passed : List (Bool × UInt8)) : Decidable (Upgraded events passed) :=
  decidable_of_iff' _ upgraded_iff

/-! ### The trace of an engine grows -/

namespace Core

variable {c : Core M}

/-- The trace becomes longer. -/
def Grows (c c' : Core M) : Prop := c.trace <+: c'.trace

theorem Grows.trans {c₁ c₂ c₃ : Core M} (h : Grows c₁ c₂) (h' : Grows c₂ c₃) : Grows c₁ c₃ :=
  List.IsPrefix.trans h h'

/-- The trace becomes longer, and TLS is not started. -/
def Calls (c c' : Core M) : Prop :=
  ∃ events, c'.trace = c.trace ++ events ∧ ∀ domain, .startTls domain ∉ events

theorem Calls.refl (c : Core M) : Calls c c := ⟨[], (List.append_nil _).symm, fun _ => List.not_mem_nil⟩

theorem Calls.trans {c₁ c₂ c₃ : Core M} (h : Calls c₁ c₂) (h' : Calls c₂ c₃) : Calls c₁ c₃ := by
  obtain ⟨events, htrace, hfree⟩ := h
  obtain ⟨events', htrace', hfree'⟩ := h'
  refine ⟨events ++ events', by rw [htrace', htrace, List.append_assoc], fun domain hmem => ?_⟩
  rcases List.mem_append.mp hmem with hmem | hmem
  · exact hfree domain hmem
  · exact hfree' domain hmem

variable {c' : Core M}

theorem Calls.grows (h : Calls c c') : Grows c c' := by
  obtain ⟨events, htrace, -⟩ := h
  exact ⟨events, htrace.symm⟩

theorem calls_event (event : Event) (htrace : c'.trace = c.trace ++ [event])
    (hevent : ∀ domain, event ≠ .startTls domain) : Calls c c' :=
  ⟨[event], htrace, fun domain hmem => hevent domain (List.mem_singleton.mp hmem).symm⟩

theorem calls_flush (c : Core M) : Calls c c.flush := by
  rw [flush]
  split
  · exact calls_event (.writeOutput c.output) rfl (by rintro _ ⟨⟩)
  · exact .refl c

theorem calls_exit (c : Core M) (saved : State) : Calls c (c.exit saved) := by
  have houtput : Calls c (exitOutput saved { c with entered := c.entered - 1 }) := by
    have hflush := calls_flush { c with entered := c.entered - 1 }
    rw [exitOutput]
    split
    · split
      · exact hflush.trans (calls_event .closeConnection rfl (by rintro _ ⟨⟩))
      · exact hflush
    · exact .refl c
  rw [exit]
  split
  · exact houtput
  · rw [report]
    split
    · exact houtput.trans (calls_event (.stateChange _) rfl (by rintro _ ⟨⟩))
    · exact houtput

theorem calls_signalError (c : Core M) (error : Error) : Calls c (c.signalError error) := by
  rw [signalError]
  split
  · exact calls_event .closed rfl (by rintro _ ⟨⟩)
  · exact .refl c

theorem Body.calls {closes : Bool} {c₁ : Core M} (h : Body c closes c₁) : Calls c c₁ := by
  cases h with
  | send element =>
    rw [sendInside]
    split
    · exact calls_event (.sent element) rfl (by rintro _ ⟨⟩)
    · exact calls_event (.sent element) rfl (by rintro _ ⟨⟩)
  | raw text hlogin => exact .refl c
  | disconnect =>
    rw [disconnectInside]
    split
    · exact calls_event .closed rfl (by rintro _ ⟨⟩)
    · exact calls_event .closed rfl (by rintro _ ⟨⟩)
  | error error herror => exact calls_signalError c error

theorem grows_effect {t t' : LoginTask M} (h : LoginTask.Effect t c t' c') : Grows c c' := by
  rcases h with ⟨-, hround⟩ | hfinish
  · cases hround with
    | wait hstate hc => exact hc ▸ List.prefix_rfl
    | failure error herror hstate hc => exact hc ▸ (calls_signalError c error).grows
    | move hstate hc => exact hc ▸ List.prefix_rfl
    | header hostname lang hfrom hstate hc => exact hc ▸ List.prefix_rfl
    | request element hstates hc => exact hc ▸ List.prefix_rfl
    | sasl element hfrom hstate hc => exact hc ▸ List.prefix_rfl
    | proceed domain hfrom hstate hc =>
      rw [hc, startTls]
      split
      · exact List.prefix_append _ _
      · exact List.prefix_rfl
  · rw [hfinish.hc, signalBound]
    split
    · exact List.prefix_append _ _
    · exact List.prefix_rfl

end Core

theorem grows_loginStanza (sasl : Sasl M) {e : Engine P M} {t : LoginTask M} (element : Option XmlElement)
    (isStart : Bool) : Core.Grows e.core (e.loginStanza sasl element isStart t).core := by
  obtain ⟨t', c', hgrows, hcore⟩ := Engine.loginStanza_induction sasl
    (J := fun _ _ c => Core.Grows e.core c) (fun hJ heffect => hJ.trans (Core.grows_effect heffect))
    (t := t) (e := e) element isStart List.prefix_rfl
  rw [hcore]
  exact hgrows

theorem runInvariant_grows (sasl : Sasl M) (trace : List Event) :
    RunInvariant sasl P True (fun c => trace <+: c.trace) (fun c => trace <+: c.trace) where
  setting _ _ _ _ _ h := h
  connect {c c₁ e} _ _ h he hlogin := by
    have hbegin : c.trace = e.core.trace := by rw [he]; rfl
    rw [hbegin] at h
    rcases hlogin with ⟨-, rfl⟩ | ⟨t, -, rfl⟩
    · exact h.trans (Core.calls_exit _ _).grows
    · exact h.trans ((grows_loginStanza sasl none false).trans (Core.calls_exit _ _).grows)
  bracket _ _ h hbody := h.trans (hbody.calls.trans (Core.calls_exit _ _)).grows
  start _ _ h := h
  finish _ _ h := h.trans (Core.calls_exit _ _).grows
  nested _ _ _ _ h hbody := h.trans (hbody.calls.trans (Core.calls_exit _ _)).grows
  offer _ _ _ h := h.trans (List.prefix_append _ _)
  login element isStart _ _ _ h := h.trans (grows_loginStanza sasl (some element) isStart)
  error _ _ h := h.trans (Core.calls_signalError _ _).grows

section calls

variable {sasl : Sasl M} {e : Engine P M}

theorem calls_ifStart {f : Engine P M → Engine P M} (hf : (f e).trace = e.trace) :
    Core.Calls e.core (e.ifStart f).1.core := by
  rw [Engine.ifStart]
  split
  · exact .refl _
  · exact ⟨[], hf.trans (List.append_nil _).symm, fun _ => List.not_mem_nil⟩

variable (parser : Parser P)

theorem calls_bracket {closes : Bool} {e₁ : Engine P M} {saved : State}
    (hbody : Core.Body e.core.enter closes e₁.core) : Core.Calls e.core (e₁.exit parser saved).core := by
  rw [Engine.core_exit]
  exact hbody.calls.trans (Core.calls_exit _ _)

theorem calls_sendStanza {e' : Engine P M} (he : e'.core = e.core) (element : XmlElement) :
    Core.Calls e.core (e'.sendStanza parser element).1.core := by
  rw [← he, Engine.sendStanza]
  split
  · exact .refl _
  · have hbody : Core.Body e'.core.enter false (e'.enter.sendInside element).core := by
      rw [Engine.core_sendInside]
      exact .send element
    exact calls_bracket parser hbody

theorem Call.calls_apply (sasl : Sasl M) {e : Engine P M} {call : Call}
    (hcall : call ≠ .connect) : Core.Calls e.core (call.apply parser sasl e).1.core := by
  cases call with
  | setOutputHandler present => exact calls_ifStart rfl
  | setSessionHandler present => exact calls_ifStart rfl
  | setTls useTls => exact calls_ifStart rfl
  | setTlsServer hostname domain => exact calls_ifStart rfl
  | setUser jid => exact calls_ifStart rfl
  | setRequestedResource resource => exact calls_ifStart rfl
  | setLanguage lang => exact .refl _
  | addStanzaHandler handler level =>
    rw [apply, Engine.addStanzaHandler]
    split <;> exact .refl _
  | removeStanzaHandler handler => exact .refl _
  | connect => exact absurd rfl hcall
  | sendStanza element => exact calls_sendStanza parser rfl element
  | sendRaw text =>
    rw [apply, Engine.sendRaw]
    split
    · exact .refl _
    next hstate =>
      rw [not_or, Option.not_isSome_iff_eq_none] at hstate
      exact calls_bracket parser (.raw text hstate.2)
  | sendIq element handler =>
    rw [apply]
    unfold Engine.sendIq
    split
    · exact .refl _
    split
    · split
      · exact .refl _
      split
      · exact .refl _
      · split
        · exact .refl _
        · dsimp only
          refine calls_sendStanza parser ?_ _
          rfl
    · exact .refl _
  | removeIqHandler cookie =>
    rw [apply, Engine.removeIqHandler]
    split <;> exact .refl _
  | sendStanzaError original code text =>
    rw [apply, Engine.sendStanzaError]
    split
    · exact .refl _
    · exact calls_sendStanza parser rfl _
  | nextId => exact .refl _
  | disconnect =>
    rw [apply, Engine.disconnect]
    split
    · exact .refl _
    · have hbody : Core.Body e.core.enter true e.enter.disconnectInside.core := by
        rw [Engine.core_disconnectInside]
        exact .disconnect
      exact calls_bracket parser hbody
  | connectionClosed subcode =>
    rw [apply, Engine.connectionClosed]
    split
    · exact .refl _
    have hbody : ∀ error subcode, error ≠ .none →
        Core.Body e.core.enter true (e.enter.signalError error subcode).core := by
      intro error subcode herror
      rw [Engine.core_signalError]
      exact .error error herror
    split
    · exact calls_bracket parser (hbody .socket subcode (by rintro ⟨⟩))
    · exact calls_bracket parser (hbody .connectionClosed 0 (by rintro ⟨⟩))

end calls

/-! ### What a call does to the socket -/

namespace XmppSocket

variable {s s' s'' : XmppSocket}

/-- Nothing can be sent in the clear any more: the adapter was started, or the socket was closed. -/
def Sealed (s : XmppSocket) : Prop :=
  s.descriptor = false ∨ s.ssl = .connecting ∨ s.ssl = .connected ∨ s.ssl = .error

/-- An open socket of the system is connected. -/
def Linked (s : XmppSocket) : Prop := s.descriptor = false ∨ s.conn = .connected

/-- An open socket does not wait for a connection to start TLS. -/
def Settled (s : XmppSocket) : Prop := s.descriptor = false ∨ s.ssl ≠ .wait

/-- What one call does, with the bytes it adds to the buffer. Bytes leave in order, and a socket that is sealed
sends inside a TLS session only and stays sealed. -/
structure Moved (data : List UInt8) (s s' : XmppSocket) : Prop where
  tls : s'.tls = s.tls
  linked : s.Linked → s'.Linked
  settled : s.Settled → s'.Settled
  isSealed : s.Sealed → s'.Sealed
  passed : ∃ new, s'.passed = s.passed ++ new ∧ new.map Prod.snd ++ s'.buffer = s.buffer ++ data ∧
    (s.Sealed → ∀ sent ∈ new, sent.1 = true)

theorem Moved.refl (s : XmppSocket) : Moved [] s s :=
  ⟨rfl, id, id, id, [], (List.append_nil _).symm, (List.append_nil _).symm, fun _ _ hmem => nomatch hmem⟩

theorem Moved.trans {data : List UInt8} (h : Moved data s s') (h' : Moved [] s' s'') : Moved data s s'' := by
  obtain ⟨new, hpassed, hfifo, hsecure⟩ := h.passed
  obtain ⟨new', hpassed', hfifo', hsecure'⟩ := h'.passed
  refine ⟨h'.tls.trans h.tls, fun hs => h'.linked (h.linked hs), fun hs => h'.settled (h.settled hs),
    fun hs => h'.isSealed (h.isSealed hs), new ++ new', ?_, ?_, ?_⟩
  · rw [hpassed', hpassed, List.append_assoc]
  · rw [List.map_append, List.append_assoc, hfifo', List.append_nil, hfifo]
  · intro hs sent hmem
    rcases List.mem_append.mp hmem with hmem | hmem
    · exact hsecure hs sent hmem
    · exact hsecure' (h.isSealed hs) sent hmem

theorem moved_state {s' : XmppSocket} (htls : s'.tls = s.tls) (hbuffer : s'.buffer = s.buffer)
    (hpassed : s'.passed = s.passed) (hlinked : s.Linked → s'.Linked) (hsettled : s.Settled → s'.Settled)
    (hsealed : s.Sealed → s'.Sealed) : Moved [] s s' :=
  ⟨htls, hlinked, hsettled, hsealed, [], by rw [hpassed, List.append_nil],
    by rw [hbuffer, List.append_nil, List.map_nil, List.nil_append], fun _ _ hmem => nomatch hmem⟩

theorem moved_ssl {ssl : SslState} (h : ssl = .connecting ∨ ssl = .connected ∨ ssl = .error) :
    Moved [] s { s with ssl := ssl } := by
  refine moved_state rfl rfl rfl id (fun _ => .inr ?_) fun _ => .inr h
  rcases h with rfl | rfl | rfl <;> exact nofun

theorem moved_passed (secure : Bool) (n : Nat) (hsecure : s.Sealed → secure = true) : Moved [] s { s with
      passed := s.passed ++ (s.buffer.take n).map (secure, ·)
      buffer := s.buffer.drop (s.buffer.take n).length } := by
  refine ⟨rfl, id, id, id, (s.buffer.take n).map (secure, ·), rfl, ?_, ?_⟩
  · rw [List.map_map]
    show (s.buffer.take n).map id ++ s.buffer.drop (s.buffer.take n).length = s.buffer ++ []
    rw [List.map_id, List.append_nil, List.length_take]
    rcases Nat.le_total n s.buffer.length with hle | hle
    · rw [Nat.min_eq_left hle, List.take_append_drop]
    · rw [Nat.min_eq_right hle, List.take_of_length_le hle, List.drop_length, List.append_nil]
  · intro hs sent hmem
    obtain ⟨b, -, rfl⟩ := List.mem_map.mp hmem
    exact hsecure hs

theorem moved_send {answer : SendAnswer} {sent : Option Nat} (h : s.send s.buffer answer = (sent, s')) :
    Moved [] s (match sent with
      | some n => { s' with buffer := s'.buffer.drop n }
      | none => s') := by
  unfold send at h
  split at h
  next =>
    rename Nat => more
    rename s.ssl = .none => hssl
    dsimp only at h
    split at h
    next hdescriptor =>
      cases h
      refine moved_passed false (more + 1) fun hs => ?_
      -- a sealed socket with a descriptor is in another state
      rcases hs with hs | hs | hs | hs
      · rw [hdescriptor] at hs
        cases hs
      · exact nomatch hssl.symm.trans hs
      · exact nomatch hssl.symm.trans hs
      · exact nomatch hssl.symm.trans hs
    · cases h
      exact .refl s
  · cases h
    exact moved_passed true _ fun _ => rfl
  · cases h
    exact moved_ssl (.inr (.inr rfl))
  · cases h
    exact .refl s

theorem moved_onWriteEvent (answers : List SendAnswer) (s : XmppSocket) :
    Moved [] s (onWriteEvent answers s) := by
  induction answers generalizing s with
  | nil => exact .refl s
  | cons answer answers ih =>
    rw [onWriteEvent]
    split
    · exact .refl s
    · split
      next n s' heq => exact (moved_send heq).trans (ih _)
      next s' heq => exact moved_send heq

theorem moved_onConnectEvent (answers : List SendAnswer) (s : XmppSocket) :
    Moved [] s (onConnectEvent answers s).1 := by
  rw [onConnectEvent]
  split
  · show Moved [] s (onWriteEvent answers { s with state := .tlsOpen })
    have hstate : Moved [] s { s with state := .tlsOpen } := moved_state rfl rfl rfl id id id
    exact hstate.trans (moved_onWriteEvent answers _)
  · exact moved_state rfl rfl rfl id id id

variable (handshake : Handshake)

theorem moved_continueSsl (answers : List SendAnswer) (s : XmppSocket) :
    Moved [] s (s.continueSsl handshake answers).1 := by
  cases handshake with
  | pending => exact .refl s
  | established => exact (moved_ssl (.inr (.inl rfl))).trans (moved_onConnectEvent answers _)
  | failed => exact .refl s

theorem moved_adapterContinue (answers : List SendAnswer) (s : XmppSocket) :
    Moved [] s (s.adapterContinue handshake answers) := by
  have hcontinue := moved_continueSsl handshake answers s
  rw [adapterContinue]
  split
  next s' heq =>
    rw [heq] at hcontinue
    exact hcontinue
  next s' heq =>
    rw [heq] at hcontinue
    exact hcontinue.trans (moved_ssl (.inr (.inr rfl)))

theorem moved_writable (answers : List SendAnswer) (s : XmppSocket) :
    Moved [] s (s.writable handshake answers) := by
  rw [writable]
  split
  · exact moved_onWriteEvent answers s
  · exact moved_adapterContinue handshake answers s
  · exact moved_onWriteEvent answers s
  · exact .refl s

theorem moved_readable (answers : List SendAnswer) (s : XmppSocket) :
    Moved [] s (s.readable handshake answers) := by
  rw [readable]
  split
  · exact moved_adapterContinue handshake answers s
  · exact .refl s

theorem Sealed.descriptor (hs : s.Sealed) (hssl : s.ssl = .none ∨ s.ssl = .wait) : s.descriptor = false := by
  rcases hs with hs | hs | hs | hs
  · exact hs
  · rcases hssl with h | h <;> exact nomatch h.symm.trans hs
  · rcases hssl with h | h <;> exact nomatch h.symm.trans hs
  · rcases hssl with h | h <;> exact nomatch h.symm.trans hs

theorem moved_adapterConnected (answers : List SendAnswer) (s : XmppSocket) :
    Moved [] s (s.adapterConnected handshake answers).1 := by
  rw [adapterConnected]
  split
  · exact moved_onConnectEvent answers s
  next hwait =>
    have hstart : Moved [] s { s with ssl := .connecting } := moved_ssl (.inl rfl)
    cases handshake with
    | pending => exact hstart
    | established => exact hstart.trans (moved_continueSsl .established answers _)
    | failed =>
      refine moved_state rfl rfl rfl id (fun _ => .inr nofun) fun hs => .inl ?_
      exact hs.descriptor (.inr (not_not.mp hwait))

theorem moved_startSsl (answers : List SendAnswer) (hlinked : s.Linked) :
    Moved [] s (s.startSsl handshake answers).1 ∧ (s.Settled → (s.startSsl handshake answers).1.Sealed) := by
  rw [startSsl]
  split
  next hstarted =>
    refine ⟨.refl s, fun hs => hs.imp_right fun hwait => ?_⟩
    cases hssl : s.ssl with
    | none => exact absurd hssl hstarted
    | wait => exact absurd hssl hwait
    | connecting => exact .inl rfl
    | connected => exact .inr (.inl rfl)
    | error => exact .inr (.inr rfl)
  next hnone =>
    split
    next hconn =>
      have hclosed : s.descriptor = false := hlinked.resolve_right hconn
      exact ⟨moved_state rfl rfl rfl id (fun _ => .inl hclosed) fun _ => .inl hclosed, fun _ => .inl hclosed⟩
    · have hstart : Moved [] s { s with ssl := .connecting } := moved_ssl (.inl rfl)
      have hsealed : { s with ssl := .connecting }.Sealed := .inr (.inl rfl)
      cases handshake with
      | pending => exact ⟨hstart, fun _ => hsealed⟩
      | established =>
        have hcontinue := moved_continueSsl .established answers { s with ssl := .connecting }
        exact ⟨hstart.trans hcontinue, fun _ => hcontinue.isSealed hsealed⟩
      | failed => exact ⟨moved_ssl (.inr (.inr rfl)), fun _ => .inr (.inr (.inr rfl))⟩

theorem moved_startTls (answers : List SendAnswer) (hlinked : s.Linked) :
    Moved [] s (s.startTls handshake answers).1 := by
  have hstart := (moved_startSsl handshake answers hlinked).1
  rw [startTls]
  split
  · exact .refl s
  split
  next s' heq =>
    rw [heq] at hstart
    exact hstart.trans (moved_state rfl rfl rfl id id id)
  next s' heq =>
    rw [heq] at hstart
    exact hstart

theorem sealed_startTls (answers : List SendAnswer) (htls : s.tls ≠ .disabled)
    (hlinked : s.Linked) (hsettled : s.Settled) : (s.startTls handshake answers).1.Sealed := by
  have hstart := (moved_startSsl handshake answers hlinked).2 hsettled
  rw [startTls, if_neg htls]
  split
  next s' heq =>
    rw [heq] at hstart
    exact hstart
  next s' heq =>
    rw [heq] at hstart
    exact hstart

theorem moved_write (data : List UInt8) (answers : List SendAnswer) (s : XmppSocket) :
    Moved data s (s.write data answers) := by
  have happend : Moved data s { s with buffer := s.buffer ++ data } :=
    ⟨rfl, id, id, id, [], (List.append_nil _).symm, rfl, fun _ _ hmem => nomatch hmem⟩
  exact happend.trans (moved_onWriteEvent answers _)

theorem moved_close (error : Bool) (s : XmppSocket) : Moved [] s (s.close error) := by
  rw [close]
  split
  · exact .refl s
  · exact moved_state rfl rfl rfl (fun _ => .inl rfl) (fun _ => .inl rfl) fun _ => .inl rfl

theorem moved_handle {event : Event} (answers : Answers) (s : XmppSocket)
    (hlinked : ∀ domain, event = .startTls domain → s.Linked) : Moved event.bytes s (s.handle event answers) := by
  cases event with
  | writeOutput output => exact moved_write _ _ s
  | startTls domain => exact moved_startTls _ _ (hlinked domain rfl)
  | closeConnection => exact moved_close _ s
  | _ => exact .refl s

end XmppSocket

/-! ### Runs -/

/-- The bytes that were handed over after TLS was to be started are secure. -/
def Secured (passed : List (Bool × UInt8)) : Prop :=
  ∀ pre domain post, trace = pre ++ .startTls domain :: post →
    ∀ sent ∈ passed.drop (written pre).length, sent.1 = true

/-- The invariant of the socket and the trace. -/
structure Kept (trace : List Event) (s : XmppSocket) : Prop where
  tls : s.tls ≠ .disabled
  settled : s.Settled
  fifo : s.passed.map Prod.snd ++ s.buffer = written trace
  secured : Secured trace s.passed
  isSealed : (∃ domain, Event.startTls domain ∈ trace) → s.Sealed

section kept

variable {trace : List Event} {s s' : XmppSocket}

theorem Kept.upgraded (h : Kept trace s) : Upgraded trace s.passed :=
  ⟨⟨s.buffer, h.fifo⟩, h.secured⟩

theorem secured_append {passed new : List (Bool × UInt8)} (h : Secured trace passed)
    (hnew : (∃ domain, Event.startTls domain ∈ trace) → ∀ sent ∈ new, sent.1 = true) :
    Secured trace (passed ++ new) := by
  intro pre domain post htrace sent hmem
  rw [List.drop_append] at hmem
  rcases List.mem_append.mp hmem with hmem | hmem
  · exact h pre domain post htrace sent hmem
  · exact hnew ⟨domain, by simp [htrace]⟩ sent (List.mem_of_mem_drop hmem)

theorem Kept.moved (h : Kept trace s) (hmoved : XmppSocket.Moved [] s s') : Kept trace s' := by
  obtain ⟨new, hpassed, hfifo, hsecure⟩ := hmoved.passed
  refine ⟨hmoved.tls.trans_ne h.tls, hmoved.settled h.settled, ?_, ?_, fun hstarted =>
    hmoved.isSealed (h.isSealed hstarted)⟩
  · rw [hpassed, List.map_append, List.append_assoc, hfifo, List.append_nil, h.fifo]
  · rw [hpassed]
    exact secured_append h.secured fun hstarted => hsecure (h.isSealed hstarted)

theorem Kept.handle (h : Kept trace s) (event : Event) (answers : Answers)
    (hlinked : ∀ domain, event = .startTls domain → s.Linked) :
    Kept (trace ++ [event]) (s.handle event answers) := by
  have hmoved := XmppSocket.moved_handle answers s hlinked
  obtain ⟨new, hpassed, hfifo, hsecure⟩ := hmoved.passed
  have hbytes : written [event] = event.bytes := List.append_nil _
  have hwritten : (s.handle event answers).passed.map Prod.snd ++ (s.handle event answers).buffer =
      written (trace ++ [event]) := by
    rw [hpassed, List.map_append, List.append_assoc, hfifo, ← List.append_assoc, h.fifo, written_append, hbytes]
  refine ⟨hmoved.tls.trans_ne h.tls, hmoved.settled h.settled, hwritten, ?_, ?_⟩
  · intro pre domain post htrace
    rcases List.eq_nil_or_concat post with rfl | ⟨post, last, rfl⟩
    · -- all that was passed on so far was handed over before
      obtain ⟨rfl, hevent⟩ := List.append_inj' htrace rfl
      cases hevent
      have hle : (s.handle (.startTls domain) answers).passed.length ≤ (written trace).length := by
        have hlength := congrArg List.length hwritten
        rw [List.length_append, List.length_map, written_append, hbytes, List.length_append] at hlength
        exact Nat.le.intro hlength
      rw [List.drop_eq_nil_of_le hle]
      exact fun _ hmem => nomatch hmem
    · rw [List.concat_eq_append, ← List.cons_append, ← List.append_assoc] at htrace
      obtain ⟨htrace, -⟩ := List.append_inj' htrace rfl
      rw [hpassed]
      exact secured_append h.secured (fun hstarted => hsecure (h.isSealed hstarted)) pre domain post htrace
  · rintro ⟨domain, hmem⟩
    rcases List.mem_append.mp hmem with hmem | hmem
    · exact hmoved.isSealed (h.isSealed ⟨domain, hmem⟩)
    · cases List.mem_singleton.mp hmem
      exact XmppSocket.sealed_startTls _ _ h.tls (hlinked domain rfl) h.settled

theorem Kept.deliver {events : List Event} {answers : List Answers} (h : Kept trace s)
    (hlinked : (∃ domain, Event.startTls domain ∈ events) → s.Linked) :
    Kept (trace ++ events) (s.deliver events answers) := by
  induction events generalizing trace s answers with
  | nil =>
    rw [List.append_nil]
    exact h
  | cons event events ih =>
    have hfirst : ∀ domain, event = .startTls domain → s.Linked :=
      fun domain heq => hlinked ⟨domain, heq ▸ List.mem_cons_self⟩
    have hrest : (∃ domain, Event.startTls domain ∈ events) → s.Linked :=
      fun ⟨domain, hmem⟩ => hlinked ⟨domain, List.mem_cons_of_mem _ hmem⟩
    rw [List.append_cons]
    cases answers with
    | nil =>
      exact ih (h.handle event _ hfirst) fun hstarted =>
        (XmppSocket.moved_handle _ s hfirst).linked (hrest hstarted)
    | cons answer answers =>
      exact ih (h.handle event answer hfirst) fun hstarted =>
        (XmppSocket.moved_handle _ s hfirst).linked (hrest hstarted)

theorem Upgraded.append {passed : List (Bool × UInt8)} (h : Upgraded trace passed) (events : List Event) :
    Upgraded (trace ++ events) passed := by
  obtain ⟨hpassed, hsecured⟩ := h
  have hle : passed.length ≤ (written trace).length := by
    have hlength := hpassed.length_le
    rwa [List.length_map] at hlength
  refine ⟨hpassed.trans ?_, fun pre domain post htrace => ?_⟩
  · rw [written_append]
    exact List.prefix_append _ _
  rcases List.append_eq_append_iff.mp htrace with ⟨rest, rfl, -⟩ | ⟨rest, htrace', hevents⟩
  · have hdrop : passed.drop (written (trace ++ rest)).length = [] := by
      refine List.drop_eq_nil_of_le (hle.trans ?_)
      rw [written_append, List.length_append]
      exact Nat.le_add_right _ _
    rw [hdrop]
    exact fun _ hmem => nomatch hmem
  cases rest with
  | nil =>
    rw [List.append_nil] at htrace'
    rw [← htrace', List.drop_eq_nil_of_le hle]
    exact fun _ hmem => nomatch hmem
  | cons event rest =>
    obtain ⟨rfl, -⟩ := List.cons_eq_cons.mp hevents
    exact hsecured pre domain rest htrace'

end kept

namespace Client

/-- The invariant of a client. When its socket is gone, only the record matters. -/
def Keeps (c : Client P M) : Prop :=
  if c.gone then Upgraded c.engine.trace c.socket.passed else Kept c.engine.trace c.socket

theorem Keeps.upgraded {c : Client P M} (h : c.Keeps) : Upgraded c.engine.trace c.socket.passed := by
  rw [Keeps] at h
  split at h
  · exact h
  · exact h.upgraded

variable {c : Client P M}

theorem Keeps.update (h : c.Keeps) {e : Engine P M} (answers : List Answers) {events : List Event}
    (htrace : e.trace = c.engine.trace ++ events)
    (hlinked : (∃ domain, Event.startTls domain ∈ events) → c.socket.Linked) : (c.update e answers).Keeps := by
  rw [Keeps] at h
  rw [Keeps, Client.update]
  split at h
  next hgone =>
    rw [if_pos hgone]
    rw [if_pos hgone, htrace]
    exact h.append events
  next hgone =>
    rw [if_neg hgone]
    rw [if_neg hgone, htrace, List.drop_left]
    exact h.deliver hlinked

theorem Keeps.socket (h : c.Keeps) (hgone : c.gone = false) {s : XmppSocket}
    (hkept : Kept c.engine.trace c.socket → Kept c.engine.trace s) : { c with socket := s }.Keeps := by
  have hnot : ¬c.gone = true := by rw [hgone]; exact nofun
  rw [Keeps, if_neg hnot] at h
  rw [Keeps, if_neg hnot]
  exact hkept h

theorem kept_conn {trace : List Event} {s : XmppSocket} (conn : ConnState) (h : Kept trace s) :
    Kept trace { s with conn := conn } :=
  ⟨h.tls, h.settled, h.fifo, h.secured, h.isSealed⟩

variable (parser : Parser P)

theorem step_call (sasl : Sasl M) {call : Call} {answers : List Answers}
    (hcall : call ≠ .connect) : c.step parser sasl (.call call answers) =
      (c.update (call.apply parser sasl c.engine).1 answers, true) := by
  cases call with
  | connect => exact absurd rfl hcall
  | _ => rfl

theorem step_keeps (sasl : Sasl M) (op : ClientOp) (h : c.Keeps) (hout : c.engine.core.Outside) :
    (c.step parser sasl op).1.Keeps ∧
      ((c.step parser sasl op).2 = true → (c.step parser sasl op).1.engine.core.Outside) := by
  have hcall : ∀ (call : Call) (answers : List Answers), call ≠ .connect →
      (c.update (call.apply parser sasl c.engine).1 answers).Keeps ∧
        (call.apply parser sasl c.engine).1.core.Outside := by
    intro call answers hne
    obtain ⟨events, htrace, hfree⟩ := Call.calls_apply parser sasl (e := c.engine) hne
    refine ⟨h.update answers htrace fun ⟨domain, hmem⟩ => absurd hmem (hfree domain), ?_⟩
    exact ((runInvariant_grows sasl c.engine.trace).call parser call ⟨hout, List.prefix_rfl⟩).1
  cases op with
  | connected first answers =>
    rw [step]
    split
    · exact ⟨h, fun _ => hout⟩
    next hidle =>
      obtain ⟨hgone, -⟩ := not_or.mp hidle
      have hopen : { c.socket with conn := .connected }.Linked := .inr rfl
      have hmoved := XmppSocket.moved_adapterConnected first.handshake first.sends
        { c.socket with conn := .connected }
      split
      next s heq =>
        rw [heq] at hmoved
        have hkeeps : { c with socket := s }.Keeps :=
          h.socket (Bool.eq_false_iff.mpr hgone) fun hkept => (kept_conn .connected hkept).moved hmoved
        obtain ⟨hout', events, htrace⟩ := (runInvariant_grows sasl c.engine.trace).call parser .connect
          ⟨hout, List.prefix_rfl⟩
        exact ⟨hkeeps.update answers htrace.symm fun _ => hmoved.linked hopen, fun _ => hout'⟩
      next s heq =>
        rw [heq] at hmoved
        exact ⟨h.socket (Bool.eq_false_iff.mpr hgone) fun hkept => (kept_conn .connected hkept).moved hmoved,
          fun _ => hout⟩
  | read bytes rs answers =>
    rw [step]
    split
    · exact ⟨h, fun _ => hout⟩
    next hidle =>
      obtain ⟨-, hread⟩ := not_or.mp hidle
      have hopen : c.socket.Linked := by
        rw [XmppSocket.canRead, Bool.not_eq_false, Bool.and_eq_true, decide_eq_true_eq] at hread
        exact .inr hread.1
      have hrs : AllowedResponses True rs := fun _ _ _ _ _ => trivial
      have hinput := (runInvariant_grows sasl c.engine.trace).handleInput parser bytes hrs
        ⟨hout, List.prefix_rfl⟩
      split
      next e status heq =>
        rw [heq] at hinput
        obtain ⟨hout', events, htrace⟩ := hinput
        exact ⟨h.update answers htrace.symm fun _ => hopen, fun _ => hout'⟩
      next e heq =>
        rw [heq] at hinput
        obtain ⟨-, events, htrace⟩ := hinput
        exact ⟨h.update answers htrace.symm fun _ => hopen, nofun⟩
  | call call answers =>
    by_cases hconnect : call = .connect
    · rw [hconnect, step]
      exact ⟨h, fun _ => hout⟩
    · rw [step_call parser sasl hconnect]
      exact ⟨(hcall call answers hconnect).1, fun _ => (hcall call answers hconnect).2⟩
  | readable answers =>
    rw [step]
    split
    · exact ⟨h, fun _ => hout⟩
    next hgone =>
      exact ⟨h.socket (Bool.eq_false_iff.mpr hgone) fun hkept =>
        hkept.moved (XmppSocket.moved_readable _ _ _), fun _ => hout⟩
  | writable answers =>
    rw [step]
    split
    · exact ⟨h, fun _ => hout⟩
    next hgone =>
      exact ⟨h.socket (Bool.eq_false_iff.mpr hgone) fun hkept =>
        hkept.moved (XmppSocket.moved_writable _ _ _), fun _ => hout⟩
  | closed =>
    rw [step]
    split
    · exact ⟨h, fun _ => hout⟩
    next hgone =>
      exact ⟨h.socket (Bool.eq_false_iff.mpr hgone) (kept_conn .closed), fun _ => hout⟩
  | disconnect answers =>
    rw [step]
    split
    · exact ⟨h, fun _ => hout⟩
    · obtain ⟨hkeeps, hout'⟩ := hcall .disconnect answers nofun
      refine ⟨?_, fun _ => hout'⟩
      exact hkeeps.upgraded

theorem create_engine (settings : ClientSettings) (lang : String) (socketTls : TlsOptions) :
    (create parser settings lang socketTls : Client P M).engine.trace = [] ∧
      (create parser settings lang socketTls : Client P M).engine.core.Outside := by
  have hfields : ∀ e : Engine P M, e.trace = [] ∧ e.entered = 0 ∧ e.state = .start →
      e.trace = [] ∧ e.core.Outside :=
    fun e ⟨htrace, hentered, hstate⟩ => ⟨htrace, hentered, fun _ => hstate.trans_ne nofun⟩
  refine hfields _ ?_
  unfold create
  split <;> split <;> exact ⟨rfl, rfl, rfl⟩

/-- If the socket of a client has an adapter, nothing that the engine hands over after it has called `StartTls`
is passed on outside a TLS session. -/
theorem upgraded_run (sasl : Sasl M) (settings : ClientSettings) (lang : String)
    {socketTls : TlsOptions} (htls : socketTls ≠ .disabled) (ops : List ClientOp) :
    Upgraded (run parser sasl ops (create parser settings lang socketTls)).1.engine.trace
      (run parser sasl ops (create parser settings lang socketTls)).1.socket.passed := by
  have hrun : ∀ {c : Client P M}, c.Keeps → c.engine.core.Outside → (run parser sasl ops c).1.Keeps := by
    induction ops with
    | nil => exact fun h _ => h
    | cons op ops ih =>
      intro c h hout
      obtain ⟨hkeeps, hout'⟩ := step_keeps parser sasl op h hout
      rw [run]
      split
      next c' heq =>
        rw [heq] at hkeeps hout'
        exact ih hkeeps (hout' rfl)
      next c' heq =>
        rw [heq] at hkeeps
        exact hkeeps
  obtain ⟨htrace, hout⟩ := create_engine (M := M) parser settings lang socketTls
  refine (hrun ?_ hout).upgraded
  have hkept : Kept [] (XmppSocket.connecting socketTls) :=
    ⟨htls, .inr nofun, rfl, fun pre domain post heq => absurd heq (by simp), fun ⟨_, hmem⟩ => nomatch hmem⟩
  rw [Keeps, htrace]
  exact hkept

/-- A user for whom TLS is required. -/
def careful : ClientSettings := ⟨"user", "host", "", .required, "host", ""⟩

/-- A system that takes all bytes at once, and handshakes that succeed. -/
def willing : List Answers := List.replicate 4 ⟨[.took 9999], .established, false⟩

/-- A login up to authentication, with a server that offers TLS. -/
def authClientOps : List ClientOp :=
  .connected ⟨[], .pending, false⟩ willing ::
    [serverStream, serverFeatures serverStarttls, serverProceed, serverStream,
      serverFeatures serverMechanisms].map fun bytes => .read bytes [] willing

/-- The client after the login, over a socket with the options. -/
def authClient (socketTls : TlsOptions) : Client (StanzaParser XmlScanner.State) Unit :=
  (run (stanzaParser (Expat.ofScanner decodeAscii)) saslPlain authClientOps
    (create (stanzaParser (Expat.ofScanner decodeAscii)) careful "" socketTls)).1

/-- Whether TLS was started and the credentials were written. -/
def authenticates (trace : List Event) : Bool :=
  trace.any (fun event =>
    match event with
    | .startTls _ => true
    | _ => false) &&
  trace.any fun event =>
    match event with
    | .writeOutput output => output.any Output.isSasl
    | _ => false

theorem authClient_disabled : authenticates (authClient .disabled).engine.trace = true ∧
      ¬Upgraded (authClient .disabled).engine.trace (authClient .disabled).socket.passed := by
  rw [upgraded_iff]
  refine And.imp_right (mt And.right) ?_
  decide +kernel

/-- The property holds in every run of every client for which TLS is required if and only if the socket was
not made with `TLS_DISABLED`. -/
theorem upgraded_run_iff (socketTls : TlsOptions) :
    (∀ (P M : Type) (parser : Parser P) (sasl : Sasl M) (settings : ClientSettings) (lang : String)
      (ops : List ClientOp), settings.useTls = .required →
        Upgraded (run parser sasl ops (create parser settings lang socketTls)).1.engine.trace
          (run parser sasl ops (create parser settings lang socketTls)).1.socket.passed) ↔
      socketTls ≠ .disabled := by
  constructor
  · intro h htls
    have hauth := h _ _ (stanzaParser (Expat.ofScanner decodeAscii)) saslPlain careful "" authClientOps rfl
    have hleak := authClient_disabled.2
    rw [htls] at hauth
    rw [authClient] at hleak
    exact hleak hauth
  · intro htls P M parser sasl settings lang ops _
    exact upgraded_run parser sasl settings lang htls ops

/-- A user for whom TLS is required logs in over a socket without an adapter: after `StartTls` the credentials
are passed on in the clear. -/
theorem not_upgraded_disabled :
    careful.useTls = .required ∧ authenticates (authClient .disabled).engine.trace = true ∧
      ¬Upgraded (authClient .disabled).engine.trace (authClient .disabled).socket.passed :=
  ⟨rfl, authClient_disabled⟩

end Client

end Synciga.Xmpp
