import Synciga.Xmpp.EngineRuns

/-!
# What the functions of the engine leave alone

The lists of handlers and the entries of requests change in the calls that are made for that, and where a
response comes in. No call calls a handler.

## Main definitions

* `Engine.tables`, `callbacks` — the lists, and the calls of handlers
-/

namespace Synciga.Xmpp

variable {P M : Type}

/-! ### Tables -/

/-- The lists of handlers, and the entries with the number of the next one. -/
def Engine.tables (e : Engine P M) : (HandlerLevel → List HandlerId) × List IqEntry × Nat :=
  (e.stanzaHandlers, e.iqEntries, e.nextCookie)

variable {e e' : Engine P M}

theorem Engine.stanzaHandlers_eq (h : e'.tables = e.tables) : e'.stanzaHandlers = e.stanzaHandlers :=
  congrArg Prod.fst h

theorem Engine.iqEntries_eq (h : e'.tables = e.tables) : e'.iqEntries = e.iqEntries :=
  congrArg (fun tables => tables.2.1) h

theorem Engine.nextCookie_eq (h : e'.tables = e.tables) : e'.nextCookie = e.nextCookie :=
  congrArg (fun tables => tables.2.2) h

section tables

variable (e : Engine P M)

variable (parser : Parser P)

theorem Engine.tables_exit (saved : State) : (e.exit parser saved).tables = e.tables := by
  unfold exit exitOutermost exitOutput flush
  dsimp only
  repeat' first | rfl | split

theorem Engine.tables_signalError (error : Error) (subcode : Int) :
    (e.signalError error subcode).tables = e.tables := by
  unfold signalError
  split <;> rfl

theorem Engine.tables_signalStreamError (streamError : XmlElement) :
    (e.signalStreamError streamError).tables = e.tables := by
  unfold signalStreamError
  split
  · exact tables_signalError _ _ _
  · rfl

theorem Engine.tables_startTls (domain : List UInt8) : (e.startTls domain).tables = e.tables := by
  unfold startTls
  split <;> rfl

theorem Engine.tables_signalBound (fullJid : Jid) : (e.signalBound fullJid).tables = e.tables := by
  unfold signalBound
  split <;> rfl

theorem Engine.tables_sends (elements : List XmlElement) :
    (elements.foldl (fun e element => e.internalSendStanza .application element) e).tables = e.tables := by
  induction elements generalizing e with
  | nil => rfl
  | cons element elements ih => exact ih _

variable (sasl : Sasl M)

theorem LoginTask.tables_step (t : LoginTask M) : (t.step sasl e).2.1.tables = e.tables := by
  have hfailure : ∀ (u : LoginTask M) (error : Error), (u.failure error e).2.1.tables = e.tables :=
    fun _ error => e.tables_signalError error 0
  have htake : ∀ {k : XmlElement → LoginTask M → Engine P M → LoginTask M × Engine P M × Flow},
      (∀ element u, (k element u e).2.1.tables = e.tables) → (t.takeStanza e k).2.1.tables = e.tables := by
    intro k hk
    unfold takeStanza
    split
    · rfl
    · exact hk _ _
  unfold step
  split
  · rfl
  · refine htake fun element u => ?_
    unfold stepStreamstartSent
    repeat' first | rfl | exact hfailure _ _ | split
  · refine htake fun element u => ?_
    unfold stepStartedXmpp
    dsimp only
    repeat' first | rfl | exact hfailure _ _ | split
  · unfold stepTlsInit
    repeat' first | rfl | exact hfailure _ _ | split
  · refine htake fun element u => ?_
    unfold stepTlsRequested
    split
    · exact hfailure _ _
    · exact e.tables_startTls _
  · unfold stepAuthInit
    dsimp only
    repeat' first | rfl | exact hfailure _ _ | split
  · refine htake fun element u => ?_
    unfold stepSaslRunning
    repeat' first | rfl | exact hfailure _ _ | split
  · unfold stepBindInit
    repeat' first | rfl | exact hfailure _ _ | split
  · refine htake fun element u => ?_
    unfold stepBindRequested
    dsimp only
    repeat' first | rfl | exact hfailure _ _ | split
  · refine htake fun element u => ?_
    unfold stepSessionRequested
    split
    · rfl
    · split
      · exact hfailure _ _
      · exact (Engine.tables_sends _ _).trans (e.tables_signalBound _)
  · rfl

theorem LoginTask.tables_advanceLoop (n : Nat) (t : LoginTask M) :
    (advanceLoop sasl n t e).2.tables = e.tables := by
  induction n generalizing t e with
  | zero => rfl
  | succ n ih =>
    have hstep := t.tables_step e sasl
    rw [advanceLoop]
    split
    next heq =>
      rw [heq] at hstep
      exact (ih _ _).trans hstep
    next heq =>
      rw [heq] at hstep
      exact hstep

theorem Engine.tables_loginStanza (element : Option XmlElement) (isStart : Bool)
    (t : LoginTask M) : (e.loginStanza sasl element isStart t).tables = e.tables :=
  LoginTask.tables_advanceLoop e sasl 4 _

theorem Engine.tables_connect (sasl : Sasl M) : (e.connect parser sasl).1.tables = e.tables := by
  unfold connect
  split
  · rfl
  · dsimp only
    rw [tables_exit]
    split
    · rfl
    · exact tables_loginStanza { e.enter with state := .opening } sasl none false _

theorem Engine.tables_sendStanza (element : XmlElement) :
    (e.sendStanza parser element).1.tables = e.tables := by
  unfold sendStanza
  split
  · rfl
  · dsimp only
    rw [tables_exit]
    unfold sendInside
    split <;> rfl

/-- The calls that are made to change the tables. -/
def Call.IsForTables : Call → Prop
  | addStanzaHandler _ _ => True
  | removeStanzaHandler _ => True
  | sendIq _ _ => True
  | removeIqHandler _ => True
  | _ => False

theorem Call.tables_apply (sasl : Sasl M) {call : Call} (h : ¬call.IsForTables) :
    (call.apply parser sasl e).1.tables = e.tables := by
  have hstart : ∀ {f : Engine P M → Engine P M}, (f e).tables = e.tables →
      (e.ifStart f).1.tables = e.tables := by
    intro f hf
    unfold Engine.ifStart
    split
    · rfl
    · exact hf
  cases call with
  | setOutputHandler present => exact hstart rfl
  | setSessionHandler present => exact hstart rfl
  | setTls useTls => exact hstart rfl
  | setTlsServer hostname domain => exact hstart rfl
  | setUser jid => exact hstart rfl
  | setRequestedResource resource => exact hstart rfl
  | setLanguage lang => rfl
  | addStanzaHandler handler other => exact absurd trivial h
  | removeStanzaHandler handler => exact absurd trivial h
  | connect => exact e.tables_connect parser sasl
  | sendStanza element => exact e.tables_sendStanza parser element
  | sendRaw text =>
    rw [apply, Engine.sendRaw]
    split
    · rfl
    · exact Engine.tables_exit _ parser _
  | sendIq element handler => exact absurd trivial h
  | removeIqHandler cookie => exact absurd trivial h
  | sendStanzaError original code text =>
    rw [apply, Engine.sendStanzaError]
    split
    · rfl
    · exact e.tables_sendStanza parser _
  | nextId => rfl
  | disconnect =>
    rw [apply, Engine.disconnect]
    split
    · rfl
    · refine (Engine.tables_exit _ parser _).trans ?_
      unfold Engine.disconnectInside
      split <;> rfl
  | connectionClosed subcode =>
    rw [apply, Engine.connectionClosed]
    split
    · rfl
    · refine (Engine.tables_exit _ parser _).trans ?_
      split <;> exact Engine.tables_signalError _ _ _

end tables

/-! ### Calls of handlers -/

instance : DecidablePred Event.IsCallback := fun event =>
  match event with
  | .handleStanza _ _ _ => .isTrue trivial
  | .iqResponse _ _ _ => .isTrue trivial
  | .writeOutput _ => .isFalse id
  | .startTls _ => .isFalse id
  | .closeConnection => .isFalse id
  | .stateChange _ => .isFalse id
  | .sent _ => .isFalse id
  | .opened => .isFalse id
  | .closed => .isFalse id

/-- The handlers that were called. -/
def callbacks (trace : List Event) : List Event := trace.filter fun event => event.IsCallback

theorem callbacks_emit {event : Event} (h : ¬event.IsCallback) (trace : List Event) :
    callbacks (trace ++ [event]) = callbacks trace := by
  rw [callbacks, List.filter_append, List.filter_cons, if_neg (mt of_decide_eq_true h), List.filter_nil,
    List.append_nil, callbacks]

variable (c : Core M)

theorem callbacks_flush : callbacks c.flush.trace = callbacks c.trace := by
  rw [Core.flush]
  split
  · exact callbacks_emit id _
  · rfl

theorem callbacks_exitOutput (saved : State) :
    callbacks (c.exitOutput saved).trace = callbacks c.trace := by
  rw [Core.exitOutput]
  split
  · split
    · exact (callbacks_emit id _).trans (callbacks_flush c)
    · exact callbacks_flush c
  · rfl

theorem callbacks_exit (saved : State) : callbacks (c.exit saved).trace = callbacks c.trace := by
  have houtput : callbacks (Core.exitOutput saved { c with entered := c.entered - 1 }).trace =
      callbacks c.trace := callbacks_exitOutput _ saved
  rw [Core.exit]
  split
  · exact houtput
  · rw [Core.report]
    split
    · exact (callbacks_emit id _).trans houtput
    · exact houtput

theorem callbacks_signalError (error : Error) :
    callbacks (c.signalError error).trace = callbacks c.trace := by
  rw [Core.signalError]
  split
  · exact callbacks_emit id _
  · rfl

theorem callbacks_body {c c₁ : Core M} {closes : Bool} (h : Core.Body c closes c₁) :
    callbacks c₁.trace = callbacks c.trace := by
  cases h with
  | send element =>
    rw [Core.sendInside]
    split <;> exact callbacks_emit id _
  | raw text hlogin => rfl
  | disconnect =>
    rw [Core.disconnectInside]
    split <;> exact callbacks_emit id _
  | error error herror => exact callbacks_signalError c error

theorem LoginTask.Effect.callbacks_eq {t t' : LoginTask M} {c c' : Core M}
    (h : LoginTask.Effect t c t' c') :
    callbacks c'.trace = callbacks c.trace := by
  rcases h with ⟨-, hround⟩ | hfinish
  · cases hround with
    | wait hstate hc => rw [hc]
    | failure error herror hstate hc =>
      rw [hc]
      exact callbacks_signalError c error
    | move hstate hc => rw [hc]
    | header hostname lang hfrom hstate hc =>
      rw [hc]
      rfl
    | request element hstates hc =>
      rw [hc]
      rfl
    | sasl element hfrom hstate hc =>
      rw [hc]
      rfl
    | proceed domain hfrom hstate hc =>
      rw [hc, Core.startTls]
      split
      · exact callbacks_emit id _
      · rfl
  · rw [hfinish.hc, Core.signalBound]
    split
    · exact callbacks_emit id _
    · rfl

theorem callbacks_loginStanza (sasl : Sasl M) (e : Engine P M) (element : Option XmlElement)
    (isStart : Bool) (t : LoginTask M) :
    callbacks (e.loginStanza sasl element isStart t).core.trace = callbacks e.core.trace := by
  have hJ : ∀ {t : LoginTask M} {c : Core M} {t' : LoginTask M} {c' : Core M},
      callbacks c.trace = callbacks e.core.trace → LoginTask.Effect t c t' c' →
      callbacks c'.trace = callbacks e.core.trace := fun h heffect => heffect.callbacks_eq.trans h
  obtain ⟨t', c', hcallbacks, hcore⟩ := Engine.loginStanza_induction sasl
    (J := fun _ _ c => callbacks c.trace = callbacks e.core.trace) hJ (t := t) (e := e) element isStart rfl
  rw [hcore]
  exact hcallbacks

theorem Call.callbacks_apply (parser : Parser P) (sasl : Sasl M) (call : Call) (e : Engine P M) :
    callbacks (call.apply parser sasl e).1.core.trace = callbacks e.core.trace := by
  cases Call.apply_effect parser sasl e call with
  | quiet hc => rw [hc]
  | setting hstate tlsOption outputHandler sessionHandler hc => rw [hc]
  | connect hstate e₁ he c₁ hlogin hc =>
    rw [hc, callbacks_exit]
    rcases hlogin with ⟨-, rfl⟩ | ⟨t, -, rfl⟩
    · rw [he]
      rfl
    · rw [callbacks_loginStanza, he]
      rfl
  | bracket hstate c₁ hbody hc =>
    rw [hc, callbacks_exit, callbacks_body hbody]
    rfl

end Synciga.Xmpp
