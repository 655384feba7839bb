import Synciga.Internal.Runs
import Synciga.Xmpp.EngineRuns
import Synciga.Xmpp.StanzaParser

/-!
# No credentials before TLS

The login task cannot leave the states before authentication while TLS is required, and TLS stops being required
only with `<proceed/>`. The engine then calls `StartTls`, unless it has no output handler, in which case nothing
is ever written.

## Main results

* `tlsFirst_run` — if TLS is required at the start, nothing of a mechanism of authentication is written before
  `StartTls`
-/

namespace Synciga.Xmpp

variable {P M : Type}

/-- Whether this was made from the credentials. -/
def Output.isSasl : Output → Bool
  | stanza .sasl _ => true
  | _ => false

/-- `StartTls` was called. -/
def StartedTls (trace : List Event) : Prop := ∃ domain, Event.startTls domain ∈ trace

/-- Nothing that was made from the credentials is written before `StartTls` is called. -/
def TlsFirst (trace : List Event) : Prop :=
  ∀ pre output post, trace = pre ++ .writeOutput output :: post → (∃ o ∈ output, o.isSasl = true) →
    StartedTls pre

/-- There is nothing in the buffer that was made from the credentials. -/
def SaslFree (output : List Output) : Prop := ∀ o ∈ output, o.isSasl = false

/-- The states before authentication. -/
def BeforeAuth (s : LoginState) : Prop :=
  s ∈ [LoginState.init, .streamstartSent, .startedXmpp, .tlsInit, .tlsRequested]

instance (s : LoginState) : Decidable (BeforeAuth s) := inferInstanceAs (Decidable (s ∈ _))

/-- Either TLS was started, or nothing can be written, or nothing was made from the credentials and the
login is not that far. -/
def Safe (c : Core M) (s : LoginState) : Prop :=
  StartedTls c.trace ∨ c.outputHandler = false ∨
    (SaslFree c.output ∧ (s = .done ∨ (c.tlsOption = .required ∧ BeforeAuth s)))

/-- The state of the login. -/
def Core.loginState (c : Core M) : LoginState :=
  match c.loginTask with
  | none => .done
  | some t => t.state

/-- The invariant. -/
structure Guarded (c : Core M) : Prop where
  started : c.state ≠ .start
  first : TlsFirst c.trace
  safe : Safe c c.loginState

/-! ### Events -/

theorem StartedTls.append {trace : List Event} (h : StartedTls trace) (events : List Event) :
    StartedTls (trace ++ events) := by
  obtain ⟨domain, hdomain⟩ := h
  exact ⟨domain, List.mem_append_left events hdomain⟩

theorem tlsFirst_nil : TlsFirst [] := by
  intro pre output post h
  cases pre <;> cases h

theorem tlsFirst_append {trace : List Event} {event : Event} (h : TlsFirst trace)
    (hevent : ∀ output, event = .writeOutput output → (∃ o ∈ output, o.isSasl = true) →
      StartedTls trace) : TlsFirst (trace ++ [event]) := by
  have hlawful : Runs.Lawful (fun pre event => ∀ output, event = .writeOutput output →
      (∃ o ∈ output, o.isSasl = true) → StartedTls pre) trace := by
    rintro pre _ post hsplit output rfl
    exact h pre output post hsplit
  intro pre output post hsplit
  exact hlawful.append hevent pre _ post hsplit output rfl

variable {c : Core M} {s : LoginState}

theorem Safe.emit (h : Safe c s) (event : Event) : Safe (c.emit event) s :=
  h.imp_left fun hstarted => hstarted.append [event]

variable {o : Output}

theorem Safe.put (h : Safe c s) (ho : o.isSasl = false) : Safe (c.put o) s := by
  refine h.imp_right (Or.imp_right ?_)
  rintro ⟨hfree, hs⟩
  refine ⟨fun o' ho' => ?_, hs⟩
  rcases List.mem_append.mp ho' with hmem | hmem
  · exact hfree o' hmem
  · rw [List.mem_singleton.mp hmem]
    exact ho

theorem Safe.of_late (h : Safe c s) (hdone : s ≠ .done)
    (hlate : ¬BeforeAuth s) : StartedTls c.trace ∨ c.outputHandler = false := by
  refine h.imp_right fun h => h.resolve_right ?_
  rintro ⟨-, heq | ⟨-, hbefore⟩⟩
  · exact hdone heq
  · exact hlate hbefore

theorem Safe.goto {s s' : LoginState} (h : Safe c s) (hdone : s ≠ .done)
    (hbefore : BeforeAuth s') : Safe c s' := by
  refine h.imp_right (Or.imp_right ?_)
  rintro ⟨hfree, heq | ⟨hrequired, -⟩⟩
  · exact absurd heq hdone
  · exact ⟨hfree, .inr ⟨hrequired, hbefore⟩⟩

theorem safe_of_late (h : StartedTls c.trace ∨ c.outputHandler = false) (s : LoginState) : Safe c s :=
  h.imp_right .inl

/-! ### The login -/

theorem LoginTask.Effect.safe {t t' : LoginTask M} {c c' : Core M} (h : LoginTask.Effect t c t' c')
    (hfirst : TlsFirst c.trace) (hsafe : Safe c t.state) : TlsFirst c'.trace ∧ Safe c' t'.state := by
  rcases h with ⟨-, hround⟩ | hfinish
  · cases hround with
    | wait hstate hc =>
      rw [hc, hstate]
      exact ⟨hfirst, hsafe⟩
    | failure error herror hstate hc =>
      have hdone : Safe c .done := hsafe.imp_right (Or.imp_right fun h => ⟨h.1, .inl rfl⟩)
      rw [hc, hstate, Core.signalError]
      split
      · exact ⟨tlsFirst_append hfirst (by rintro _ ⟨⟩), hdone.emit .closed⟩
      · exact ⟨hfirst, hdone⟩
    | move hstate hc =>
      rw [hc]
      refine ⟨hfirst, ?_⟩
      cases hs : t.state <;> rw [hs] at hstate hsafe
      case streamstartSent =>
        rw [show t'.state = .startedXmpp from hstate]
        exact hsafe.goto (by rintro ⟨⟩) (by decide)
      case startedXmpp =>
        rcases hstate with htls | ⟨hne, -⟩
        · rw [htls]
          exact hsafe.goto (by rintro ⟨⟩) (by decide)
        · -- the way that is closed while TLS is required
          refine hsafe.imp_right (Or.imp_right ?_)
          rintro ⟨-, hdone | ⟨hrequired, -⟩⟩
          · cases hdone
          · exact absurd hrequired hne
      case saslRunning => exact safe_of_late (hsafe.of_late (by rintro ⟨⟩) (by decide)) _
      all_goals cases hstate
    | header hostname lang hfrom hstate hc =>
      rw [hc, hstate]
      rw [hfrom] at hsafe
      exact ⟨hfirst, (hsafe.goto (by rintro ⟨⟩) (by decide)).put rfl⟩
    | request element hstates hc =>
      rw [hc]
      refine ⟨hfirst, Safe.put ?_ rfl⟩
      rcases hstates with ⟨hfrom, hto⟩ | ⟨hfrom, -⟩ | ⟨hfrom, -⟩ <;> rw [hfrom] at hsafe
      · rw [hto]
        exact hsafe.goto (by rintro ⟨⟩) (by decide)
      · exact safe_of_late (hsafe.of_late (by rintro ⟨⟩) (by decide)) _
      · exact safe_of_late (hsafe.of_late (by rintro ⟨⟩) (by decide)) _
    | sasl element hfrom hstate hc =>
      have hlate : StartedTls c.trace ∨ c.outputHandler = false := by
        rcases hfrom with hfrom | hfrom <;> rw [hfrom] at hsafe
        · exact hsafe.of_late (by rintro ⟨⟩) (by decide)
        · exact hsafe.of_late (by rintro ⟨⟩) (by decide)
      rw [hc]
      exact ⟨hfirst, safe_of_late (c := c.put _) hlate _⟩
    | proceed domain hfrom hstate hc =>
      rw [hc, Core.startTls]
      split
      · exact ⟨tlsFirst_append hfirst (by rintro _ ⟨⟩), .inl
            ⟨domain, List.mem_append_right _ (List.mem_singleton.mpr rfl)⟩⟩
      next hnone => exact ⟨hfirst, .inr (.inl (Bool.eq_false_of_not_eq_true hnone))⟩
  · rw [hfinish.hfrom] at hsafe
    have hlate := hsafe.of_late (by rintro ⟨⟩) (by decide)
    rw [hfinish.hc, Core.signalBound]
    split
    · refine ⟨tlsFirst_append hfirst (by rintro _ ⟨⟩), ?_⟩
      exact hlate.imp (fun h => h.append [.opened]) .inl
    · exact ⟨hfirst, hlate.imp_right .inl⟩

variable (sasl : Sasl M)

theorem guarded_loginStanza {e : Engine P M} {t : LoginTask M}
    (element : Option XmlElement) (isStart : Bool) (hopening : e.state = .opening)
    (hfirst : TlsFirst e.trace) (hsafe : Safe e.core t.state) :
    Guarded (e.loginStanza sasl element isStart t).core := by
  have hJ : ∀ {t : LoginTask M} {c : Core M} {t' : LoginTask M} {c' : Core M},
      (TlsFirst c.trace ∧ Safe c t.state) → LoginTask.Effect t c t' c' →
      TlsFirst c'.trace ∧ Safe c' t'.state := by
    rintro t c t' c' ⟨hfirst, hsafe⟩ heffect
    exact heffect.safe hfirst hsafe
  obtain ⟨t', c', ⟨hfirst', hsafe'⟩, hcore⟩ := Engine.loginStanza_induction sasl
    (J := fun s _ c => TlsFirst c.trace ∧ Safe c s) hJ (t := t) (e := e) element isStart ⟨hfirst, hsafe⟩
  refine ⟨(Engine.loginStanza_state sasl hopening element isStart).2.1, ?_, ?_⟩
  · rw [hcore]
    exact hfirst'
  rw [hcore, Core.loginState]
  split
  next hdone =>
    rw [hdone] at hsafe'
    exact hsafe'
  · exact hsafe'

/-! ### Leaving and the bodies of calls -/

theorem Guarded.emit (h : Guarded c) (event : Event)
    (hevent : ∀ output, event ≠ .writeOutput output) : Guarded (c.emit event) :=
  ⟨h.started, tlsFirst_append h.first fun output heq => absurd heq (hevent output), h.safe.emit event⟩

theorem Guarded.flush (h : Guarded c) (houtput : c.outputHandler = true) : Guarded c.flush := by
  have hempty : ∀ {c : Core M}, Safe c c.loginState → Safe { c with output := [] } c.loginState :=
    fun h => h.imp_right (Or.imp_right fun h => ⟨nofun, h.2⟩)
  rw [Core.flush]
  split
  · refine ⟨h.started, tlsFirst_append h.first ?_, hempty (h.safe.emit _)⟩
    rintro output ⟨⟩ ⟨o, ho, hsasl⟩
    rcases h.safe with hstarted | hnone | ⟨hfree, -⟩
    · exact hstarted
    · rw [houtput] at hnone
      cases hnone
    · rw [hfree o ho] at hsasl
      cases hsasl
  · exact ⟨h.started, h.first, hempty h.safe⟩

theorem Guarded.exitOutput (h : Guarded c) (saved : State) : Guarded (c.exitOutput saved) := by
  rw [Core.exitOutput]
  split
  next houtput =>
    have hflush := h.flush houtput.1
    split
    · have hclose := hflush.emit .closeConnection (by rintro _ ⟨⟩)
      exact ⟨hclose.started, hclose.first, .inr (.inl rfl)⟩
    · exact hflush
  · exact h

theorem Guarded.withEntered (h : Guarded c) (n : Nat) : Guarded { c with entered := n } :=
  ⟨h.started, h.first, h.safe⟩

theorem Guarded.exit (h : Guarded c) (saved : State) : Guarded (c.exit saved) := by
  have houtput := (h.withEntered (c.entered - 1)).exitOutput saved
  rw [Core.exit]
  split
  · exact houtput
  · rw [Core.report]
    split
    · exact houtput.emit _ (by rintro _ ⟨⟩)
    · exact houtput

theorem Guarded.signalError (h : Guarded c) (error : Error) : Guarded (c.signalError error) := by
  rw [Core.signalError]
  split
  · exact ⟨(by rintro ⟨⟩), tlsFirst_append h.first (by rintro _ ⟨⟩), h.safe.emit .closed⟩
  · exact h

theorem Guarded.put (h : Guarded c) (ho : o.isSasl = false) : Guarded (c.put o) :=
  ⟨h.started, h.first, h.safe.put ho⟩

theorem Guarded.body {c c₁ : Core M} {closes : Bool} (h : Guarded c) (hbody : Core.Body c closes c₁) :
    Guarded c₁ := by
  cases hbody with
  | send element =>
    rw [Core.sendInside]
    split
    · exact (h.emit (.sent element) (by rintro _ ⟨⟩)).put rfl
    next t ht =>
      have hsent := h.emit (.sent element) (by rintro _ ⟨⟩)
      have hstate : (c.emit (.sent element)).loginState = (t.outgoingStanza element).state := by
        rw [Core.loginState, show (c.emit (.sent element)).loginTask = some t from ht]
        rfl
      have hsafe := hsent.safe
      rw [hstate] at hsafe
      exact ⟨hsent.started, hsent.first, hsafe⟩
  | raw text hlogin => exact h.put rfl
  | disconnect =>
    rw [Core.disconnectInside]
    split
    · have hclosed := (h.put (o := .close) rfl).emit .closed (by rintro _ ⟨⟩)
      exact ⟨(by rintro ⟨⟩), hclosed.first, hclosed.safe⟩
    · have hclosed := h.emit .closed (by rintro _ ⟨⟩)
      exact ⟨(by rintro ⟨⟩), hclosed.first, hclosed.safe⟩
  | error error herror => exact h.signalError error

theorem runInvariant_guarded : RunInvariant sasl P True Guarded Guarded where
  setting _ _ _ _ hstate h := absurd hstate h.started
  connect _ hstate h _ _ := absurd hstate h.started
  bracket _ _ h hbody := (Guarded.body (h.withEntered _) hbody).exit _
  start _ _ h := h.withEntered _
  finish _ _ h := h.exit _
  nested _ _ _ _ h hbody := (Guarded.body (h.withEntered _) hbody).exit _
  offer hevent _ _ h := h.emit _ fun output heq => by rw [heq] at hevent; exact hevent
  login {e} {t} element isStart ht _ hopening h := by
    refine guarded_loginStanza sasl (some element) isStart hopening h.first ?_
    have hsafe := h.safe
    rwa [Core.loginState, show e.core.loginTask = some t from ht] at hsafe
  error _ _ h := h.signalError _

/-! ### Before the start -/

/-- Before the connection is started nothing was made from the credentials. -/
structure Calm (c : Core M) : Prop where
  first : TlsFirst c.trace
  free : SaslFree c.output
  login : c.loginState = .init ∨ c.loginState = .done

theorem Calm.emit (h : Calm c) (event : Event)
    (hevent : ∀ output, event ≠ .writeOutput output) : Calm (c.emit event) :=
  ⟨tlsFirst_append h.first fun output heq => absurd heq (hevent output), h.free, h.login⟩

theorem Calm.put (h : Calm c) (ho : o.isSasl = false) : Calm (c.put o) := by
  refine ⟨h.first, fun o' ho' => ?_, h.login⟩
  rcases List.mem_append.mp ho' with hmem | hmem
  · exact h.free o' hmem
  · rw [List.mem_singleton.mp hmem]
    exact ho

theorem Calm.flush (h : Calm c) : Calm c.flush := by
  rw [Core.flush]
  split
  · refine ⟨tlsFirst_append h.first ?_, (by rintro _ ⟨⟩), h.login⟩
    rintro output ⟨⟩ ⟨o, ho, hsasl⟩
    rw [h.free o ho] at hsasl
    cases hsasl
  · exact ⟨h.first, (by rintro _ ⟨⟩), h.login⟩

theorem Calm.withEntered (h : Calm c) (n : Nat) : Calm { c with entered := n } :=
  ⟨h.first, h.free, h.login⟩

theorem Calm.exit (h : Calm c) (saved : State) : Calm (c.exit saved) := by
  have houtput : Calm (Core.exitOutput saved { c with entered := c.entered - 1 }) := by
    have h' := h.withEntered (c.entered - 1)
    rw [Core.exitOutput]
    split
    · split
      · have hclose := h'.flush.emit .closeConnection (by rintro _ ⟨⟩)
        exact ⟨hclose.first, hclose.free, hclose.login⟩
      · exact h'.flush
    · exact h'
  rw [Core.exit]
  split
  · exact houtput
  · rw [Core.report]
    split
    · exact houtput.emit _ (by rintro _ ⟨⟩)
    · exact houtput

theorem Calm.body {c c₁ : Core M} {closes : Bool} (h : Calm c) (hbody : Core.Body c closes c₁)
    (hstate : c₁.state = .start) : Calm c₁ := by
  cases hbody with
  | send element =>
    rw [Core.sendInside]
    split
    · exact (h.emit (.sent element) (by rintro _ ⟨⟩)).put rfl
    next t ht =>
      have hlogin := h.login
      rw [Core.loginState, ht] at hlogin
      exact ⟨(h.emit (.sent element) (by rintro _ ⟨⟩)).first, h.free, hlogin⟩
  | raw text hlogin => exact h.put rfl
  | disconnect => cases hstate
  | error error herror => exact absurd hstate ((c.signalError_fields error).2.2.trans_ne (by rintro ⟨⟩))

theorem runInvariant_calm :
    RunInvariant sasl P True (fun c => c.state = .start → Calm c) (fun c => c.state ≠ .start) where
  setting _ _ _ _ _ h hstate := ⟨(h hstate).first, (h hstate).free, (h hstate).login⟩
  connect {c c₁ e} hentered _ _ he hlogin hstate := by
    have hone : e.core.entered = 1 := by
      rw [he]
      exact congrArg (· + 1) hentered
    have hopening : e.core.state = .opening := by rw [he]
    rcases hlogin with ⟨-, rfl⟩ | ⟨t, -, rfl⟩
    · rw [(Core.exit_fields (.inl hone) .start).2.1, hopening] at hstate
      cases hstate
    · obtain ⟨h₁, h₂, -⟩ := Engine.loginStanza_state sasl (t := t) hopening none false
      rw [(Core.exit_fields (.inl (h₁.trans hone)) .start).2.1] at hstate
      exact absurd hstate h₂
  bracket {c c₁ closes} hentered _ h hbody hstate := by
    obtain ⟨h₁, -, h₂, -⟩ := hbody.fields
    have hone : c₁.entered = 1 := h₁.trans (congrArg (· + 1) hentered)
    rw [(Core.exit_fields (.inl hone) c.state).2.1] at hstate
    have hstart : c.state = .start := by
      rcases h₂ with heq | heq
      · exact heq.symm.trans hstate
      · exact nomatch heq.symm.trans hstate
    exact (Calm.body ((h hstart).withEntered _) hbody hstate).exit _
  start _ hstates _ := by rcases hstates with heq | heq <;> exact heq.trans_ne nofun
  finish {c saved} hentered _ h hstate := by
    rw [(Core.exit_fields (.inl hentered) saved).2.1] at hstate
    exact absurd hstate h
  nested {c c₁ closes} hentered _ _ _ h hbody := by
    obtain ⟨h₁, -, h₂, -⟩ := hbody.fields
    have htwo : c₁.entered = 2 := h₁.trans (congrArg (· + 1) hentered)
    rw [(Core.exit_fields (.inr htwo) c.state).2.1]
    rcases h₂ with heq | heq
    · exact heq.trans_ne h
    · exact heq.trans_ne nofun
  offer _ _ _ h := h
  login element isStart _ _ hopening _ := (Engine.loginStanza_state sasl hopening _ isStart).2.1
  error _ _ _ := by
    rw [(Core.signalError_fields _ _).2.2]
    exact nofun

theorem guarded_connect (parser : Parser P) (sasl : Sasl M) {e : Engine P M} (hstart : e.state = .start)
    (htls : e.tlsOption = .required) (h : Calm e.core) : Guarded (e.connect parser sasl).1.core := by
  obtain ⟨e₁, c₁, he, hlogin, hexit⟩ := Engine.core_connect parser sasl hstart
  have hopening : e₁.core.state = .opening := by rw [he]
  have hfirst : TlsFirst e₁.core.trace := by
    rw [he]
    exact h.first
  have hfree : SaslFree e₁.core.output := by
    rw [he]
    exact h.free
  have hrequired : e₁.core.tlsOption = .required := by
    rw [he]
    exact htls
  rw [hexit]
  refine Guarded.exit ?_ _
  rcases hlogin with ⟨hnone, rfl⟩ | ⟨t, ht, rfl⟩
  · have hdone : e₁.core.loginState = .done := by
      rw [Core.loginState, he, show Core.loginTask _ = none from hnone]
    exact ⟨hopening.trans_ne nofun, hfirst, .inr (.inr ⟨hfree, .inl hdone⟩)⟩
  have hstate : t.state = .init ∨ t.state = .done := by
    have hcalm := h.login
    rwa [Core.loginState, show e.core.loginTask = some t from ht] at hcalm
  refine guarded_loginStanza sasl none false hopening hfirst (.inr (.inr ⟨hfree, ?_⟩))
  rcases hstate with hinit | hdone
  · refine .inr ⟨hrequired, ?_⟩
    rw [hinit]
    decide
  · exact .inl hdone

/-- If the connection is started while TLS is required, then nothing that was made from the credentials
is ever written before TLS is started. -/
theorem tlsFirst_run (parser : Parser P) (sasl : Sasl M) {ops : List Op} {e : Engine P M}
    (hrun : run parser sasl ops (Engine.create parser) = (e, true)) (hstart : e.state = .start)
    (htls : e.tlsOption = .required) (ops' : List Op) :
    TlsFirst (run parser sasl (ops ++ .call .connect :: ops') (Engine.create parser)).1.trace := by
  have hcreate : (Engine.create parser : Engine P M).core.state = .start →
      Calm (Engine.create parser : Engine P M).core :=
    fun _ => ⟨tlsFirst_nil, nofun, .inl rfl⟩
  have hbefore := (runInvariant_calm sasl).run parser (allowedResponses_true ops)
    ⟨Engine.create_outside parser, hcreate⟩
  rw [hrun] at hbefore
  have hconnect := ((runInvariant_calm sasl).call parser .connect hbefore).1
  have hafter := (runInvariant_guarded sasl).run parser (allowedResponses_true ops')
    ⟨hconnect, guarded_connect parser sasl hstart htls (hbefore.2 hstart)⟩
  rw [run_append parser sasl hrun, run]
  cases hreturned : (run parser sasl ops' (Call.connect.apply parser sasl e).1).2 with
  | true =>
    rw [hreturned] at hafter
    exact hafter.2.first
  | false =>
    rw [hreturned] at hafter
    exact hafter.2.first

/-- A login up to authentication. -/
def authOps : List Op :=
  [.input serverStream [], .input (serverFeatures serverStarttls) [], .input serverProceed [],
    .input serverStream [], .input (serverFeatures serverMechanisms) []]

/-- The credentials are written, and TLS was started before. -/
theorem tlsFirst_run_auth : (run (stanzaParser (Expat.ofScanner decodeAscii)) saslPlain
        ([.call (.setOutputHandler true)] ++ .call .connect :: authOps)
        (Engine.create (stanzaParser (Expat.ofScanner decodeAscii)))).1.trace.any (fun event =>
          match event with
          | .writeOutput output => output.any Output.isSasl
          | _ => false) = true ∧
      TlsFirst (run (stanzaParser (Expat.ofScanner decodeAscii)) saslPlain
        ([.call (.setOutputHandler true)] ++ .call .connect :: authOps)
        (Engine.create (stanzaParser (Expat.ofScanner decodeAscii)))).1.trace := by
  refine ⟨?_, tlsFirst_run _ _ rfl rfl rfl authOps⟩
  decide +kernel

end Synciga.Xmpp
