import Synciga.Xmpp.Rounds

/-!
# Invariants of runs of the engine

What is proved about runs is proved with two predicates on the core of the engine: one that holds between the
calls from outside, and one while `HandleInput` is at work and handlers may run.

## Main definitions

* `Call.Effect` — what a call does to the core
* `RunInvariant` — what has to be shown of the predicates

## Main results

* `RunInvariant.run` — the induction
-/

namespace Synciga.Xmpp

variable {P M : Type}

namespace Core

variable (c : Core M)

/-- `flush`, on the core. -/
def flush : Core M :=
  { (if c.output.any Output.nonempty then c.emit (.writeOutput c.output) else c) with output := [] }

variable (saved : State)

/-- `exitOutput`, on the core. -/
def exitOutput (c : Core M) : Core M :=
  if c.outputHandler ∧ ((c.state ≠ saved ∧ c.state = .closed) ∨ c.entered = 0) then
    if c.state ≠ saved ∧ c.state = .closed then
      { c.flush.emit .closeConnection with outputHandler := false }
    else c.flush
  else c

/-- The report to the session handler. -/
def report (c : Core M) : Core M :=
  if c.sessionHandler ∧ c.state ≠ saved then c.emit (.stateChange c.state) else c

/-- `exit`, on the core. -/
def exit (c : Core M) : Core M :=
  let c := exitOutput saved { c with entered := c.entered - 1 }
  if c.entered ≠ 0 then c else report saved c

/-- `enter`, on the core. -/
def enter : Core M := { c with entered := c.entered + 1 }

/-- `sendInside`, on the core. -/
def sendInside (element : XmlElement) (c : Core M) : Core M :=
  match c.loginTask with
  | none => (c.emit (.sent element)).put (.stanza .application element)
  | some t => { c.emit (.sent element) with loginTask := some (t.outgoingStanza element) }

/-- `disconnectInside`, on the core. -/
def disconnectInside : Core M :=
  { (if c.state = .open then c.put .close else c).emit .closed with state := .closed }

/-- What a call does between entering and leaving, and whether it closes the engine. -/
inductive Body (c : Core M) : Bool → Core M → Prop
  | send (element : XmlElement) : Body c false (c.sendInside element)
  | raw (text : String) (hlogin : c.loginTask = none) : Body c false (c.put (.raw text))
  | disconnect : Body c true c.disconnectInside
  | error (error : Error) (herror : error ≠ .none) : Body c true (c.signalError error)

end Core

namespace Engine

theorem core_flush (e : Engine P M) : e.flush.core = e.core.flush := by
  by_cases h : e.output.any Output.nonempty = true
  · rw [flush, Core.flush, if_pos h, if_pos (show e.core.output.any Output.nonempty = true from h)]
    rfl
  · rw [flush, Core.flush, if_neg h, if_neg (show ¬e.core.output.any Output.nonempty = true from h)]
    rfl

theorem core_exitOutput (saved : State) (e : Engine P M) :
    (e.exitOutput saved).core = e.core.exitOutput saved := by
  dsimp only [exitOutput, Core.exitOutput]
  by_cases h : e.outputHandler = true ∧ ((e.state ≠ saved ∧ e.state = .closed) ∨ e.entered = 0)
  · rw [if_pos h, if_pos (show e.core.outputHandler = true ∧
      ((e.core.state ≠ saved ∧ e.core.state = .closed) ∨ e.core.entered = 0) from h)]
    by_cases hclosing : e.state ≠ saved ∧ e.state = .closed
    · rw [if_pos hclosing, if_pos (show e.core.state ≠ saved ∧ e.core.state = .closed from hclosing),
        ← core_flush]
      rfl
    · rw [if_neg hclosing, if_neg (show ¬(e.core.state ≠ saved ∧ e.core.state = .closed) from hclosing),
        core_flush]
  · rw [if_neg h, if_neg (show ¬(e.core.outputHandler = true ∧
      ((e.core.state ≠ saved ∧ e.core.state = .closed) ∨ e.core.entered = 0)) from h)]

theorem core_exitOutermost (parser : Parser P) (saved : State) (e : Engine P M) :
    (e.exitOutermost parser saved).core = e.core.report saved := by
  have hreset : (if e.raisedReset then { e with parser := parser.reset e.parser, raisedReset := false }
      else e).core = e.core := by
    split <;> rfl
  rw [← hreset]
  generalize he' : (if e.raisedReset then { e with parser := parser.reset e.parser, raisedReset := false }
    else e) = e'
  rw [exitOutermost, Core.report, he']
  by_cases h : e'.sessionHandler = true ∧ e'.state ≠ saved
  · rw [if_pos h, if_pos (show e'.core.sessionHandler = true ∧ e'.core.state ≠ saved from h)]
    rfl
  · rw [if_neg h, if_neg (show ¬(e'.core.sessionHandler = true ∧ e'.core.state ≠ saved) from h)]

theorem core_exit (parser : Parser P) (saved : State) (e : Engine P M) :
    (e.exit parser saved).core = e.core.exit saved := by
  have houtput := core_exitOutput saved { e with entered := e.entered - 1 }
  rw [exit, Core.exit]
  generalize exitOutput saved { e with entered := e.entered - 1 } = e' at houtput
  rw [show Core.exitOutput saved { e.core with entered := e.core.entered - 1 } = e'.core from
    houtput.symm]
  by_cases h : e'.entered ≠ 0
  · rw [if_pos h, if_pos (show e'.core.entered ≠ 0 from h)]
  · rw [if_neg h, if_neg (show ¬e'.core.entered ≠ 0 from h), core_exitOutermost]

theorem core_sendInside (element : XmlElement) (e : Engine P M) :
    (e.sendInside element).core = e.core.sendInside element := by
  rw [sendInside, Core.sendInside]
  have hcore : e.core.loginTask = e.loginTask := rfl
  rw [hcore]
  cases e.loginTask <;> rfl

theorem core_disconnectInside (e : Engine P M) : e.disconnectInside.core = e.core.disconnectInside := by
  by_cases h : e.state = .open
  · rw [disconnectInside, Core.disconnectInside, if_pos h, if_pos (show e.core.state = .open from h)]
    rfl
  · rw [disconnectInside, Core.disconnectInside, if_neg h, if_neg (show ¬e.core.state = .open from h)]
    rfl

end Engine

/-! ### Calls -/

/-- Whether a call closes the engine. -/
def Call.closes : Call → Bool
  | disconnect => true
  | connectionClosed _ => true
  | _ => false

/-- What a call does to the core; `closes` says whether it may close the engine. -/
inductive Call.Effect (sasl : Sasl M) (P : Type) (closes : Bool) (c c' : Core M) : Prop
  | quiet (hc : c' = c)
  | setting (hstate : c.state = .start) (tlsOption : TlsOptions) (outputHandler sessionHandler : Bool)
      (hc : c' = { c with tlsOption, outputHandler, sessionHandler })
  | connect (hstate : c.state = .start) (e : Engine P M) (he : e.core = { c.enter with state := .opening })
      (c₁ : Core M)
      (hlogin : (c.loginTask = none ∧ c₁ = e.core) ∨
        ∃ t, c.loginTask = some t ∧ c₁ = (e.loginStanza sasl none false t).core)
      (hc : c' = c₁.exit .start)
  | bracket (hstate : c.state ≠ .closed) (c₁ : Core M) (hbody : Core.Body c.enter closes c₁)
      (hc : c' = c₁.exit c.state)

section apply

variable {sasl : Sasl M} {e : Engine P M}

theorem effect_ifStart {f : Engine P M → Engine P M} {closes : Bool}
    (hf : ∃ tlsOption outputHandler sessionHandler,
      (f e).core = { e.core with tlsOption, outputHandler, sessionHandler }) :
    Call.Effect sasl P closes e.core (e.ifStart f).1.core := by
  rw [Engine.ifStart]
  split
  · exact .quiet rfl
  next hstart =>
    obtain ⟨tlsOption, outputHandler, sessionHandler, hf⟩ := hf
    exact .setting (not_not.mp hstart) tlsOption outputHandler sessionHandler hf

variable (parser : Parser P)

theorem effect_sendStanza {e' : Engine P M} (he : e'.core = e.core) (element : XmlElement) :
    Call.Effect sasl P false e.core (e'.sendStanza parser element).1.core := by
  rw [← he, Engine.sendStanza]
  split
  · exact .quiet rfl
  next hstate =>
    refine .bracket hstate _ (.send element) ?_
    rw [Engine.core_exit, Engine.core_sendInside]
    rfl

theorem Engine.core_connect (sasl : Sasl M) (hstart : e.state = .start) :
    ∃ (e₁ : Engine P M) (c₁ : Core M), e₁.core = { e.core.enter with state := .opening } ∧
      ((e.loginTask = none ∧ c₁ = e₁.core) ∨
        ∃ t, e.loginTask = some t ∧ c₁ = (e₁.loginStanza sasl none false t).core) ∧
      (e.connect parser sasl).1.core = c₁.exit .start := by
  have hexit : (e.connect parser sasl).1.core = Core.exit .start
      (match e.loginTask with
        | none => { e.enter with state := .opening }
        | some t => { e.enter with state := .opening }.loginStanza sasl none false t).core := by
    rw [connect, if_neg (not_not.mpr hstart)]
    exact (core_exit parser _ _).trans (congrArg (Core.exit · _) hstart)
  refine ⟨{ e.enter with state := .opening }, _, rfl, ?_, hexit⟩
  cases e.loginTask with
  | none => exact .inl ⟨rfl, rfl⟩
  | some t => exact .inr ⟨t, rfl, rfl⟩

theorem effect_connect : Call.Effect sasl P false e.core (e.connect parser sasl).1.core := by
  by_cases hstart : e.state = .start
  · obtain ⟨e₁, c₁, he, hlogin, hexit⟩ := Engine.core_connect parser sasl hstart
    exact .connect hstart e₁ he c₁ hlogin hexit
  · rw [Engine.connect, if_pos hstart]
    exact .quiet rfl

theorem Call.apply_effect (sasl : Sasl M) (e : Engine P M) (call : Call) :
    Call.Effect sasl P call.closes e.core (call.apply parser sasl e).1.core := by
  cases call with
  | setOutputHandler present => exact effect_ifStart ⟨_, _, _, rfl⟩
  | setSessionHandler present => exact effect_ifStart ⟨_, _, _, rfl⟩
  | setTls useTls => exact effect_ifStart ⟨_, _, _, rfl⟩
  | setTlsServer hostname domain => exact effect_ifStart ⟨_, _, _, rfl⟩
  | setUser jid => exact effect_ifStart ⟨_, _, _, rfl⟩
  | setRequestedResource resource => exact effect_ifStart ⟨_, _, _, rfl⟩
  | setLanguage lang => exact .quiet rfl
  | addStanzaHandler handler level =>
    rw [apply, Engine.addStanzaHandler]
    split <;> exact .quiet rfl
  | removeStanzaHandler handler => exact .quiet rfl
  | connect => exact effect_connect parser
  | sendStanza element => exact effect_sendStanza parser rfl element
  | sendRaw text =>
    rw [apply, Engine.sendRaw]
    split
    · exact .quiet rfl
    next hstate =>
      rw [not_or, Option.not_isSome_iff_eq_none] at hstate
      exact .bracket hstate.1 _ (.raw text hstate.2) (Engine.core_exit parser _ _)
  | sendIq element handler =>
    rw [apply]
    unfold Engine.sendIq
    split
    · exact .quiet rfl
    split
    · split
      · exact .quiet rfl
      split
      · exact .quiet rfl
      · split
        · exact .quiet rfl
        · dsimp only
          refine effect_sendStanza parser ?_ _
          rfl
    · exact .quiet rfl
  | removeIqHandler cookie =>
    rw [apply, Engine.removeIqHandler]
    split <;> exact .quiet rfl
  | sendStanzaError original code text =>
    rw [apply, Engine.sendStanzaError]
    split
    · exact .quiet rfl
    · dsimp only
      refine effect_sendStanza parser ?_ _
      rfl
  | nextId => exact .quiet rfl
  | disconnect =>
    rw [apply, Engine.disconnect]
    split
    · exact .quiet rfl
    next hstate =>
      refine .bracket hstate _ .disconnect ?_
      rw [Engine.core_exit, Engine.core_disconnectInside]
      rfl
  | connectionClosed subcode =>
    rw [apply, Engine.connectionClosed]
    split
    · exact .quiet rfl
    next hstate =>
      split
      · refine .bracket hstate _ (.error .socket nofun) ?_
        rw [Engine.core_exit, Engine.core_signalError]
        rfl
      · refine .bracket hstate _ (.error .connectionClosed nofun) ?_
        rw [Engine.core_exit, Engine.core_signalError]
        rfl

end apply

/-! ### Leaving -/

namespace Core

variable {c : Core M} {saved : State}

theorem exitOutput_fields (c : Core M) (saved : State) :
    (c.exitOutput saved).entered = c.entered ∧ (c.exitOutput saved).state = c.state ∧
      (c.exitOutput saved).errorCode = c.errorCode ∧ (c.exitOutput saved).tlsOption = c.tlsOption ∧
      (c.exitOutput saved).loginTask = c.loginTask ∧
      (c.exitOutput saved).sessionHandler = c.sessionHandler := by
  rw [exitOutput]
  split
  · split <;> rw [flush] <;> split <;> exact ⟨rfl, rfl, rfl, rfl, rfl, rfl⟩
  · exact ⟨rfl, rfl, rfl, rfl, rfl, rfl⟩

theorem exit_of_one (h : c.entered = 1) :
    c.exit saved = (exitOutput saved { c with entered := 0 }).report saved := by
  have hentered := (exitOutput_fields { c with entered := 0 } saved).1
  rw [exit, h]
  exact if_neg (not_not.mpr hentered)

theorem exit_of_two (h : c.entered = 2) : c.exit saved = exitOutput saved { c with entered := 1 } := by
  have hentered := (exitOutput_fields { c with entered := 1 } saved).1
  rw [exit, h]
  exact if_pos (hentered.trans_ne one_ne_zero)

theorem report_fields (c : Core M) (saved : State) :
    (c.report saved).entered = c.entered ∧ (c.report saved).state = c.state ∧
      (c.report saved).errorCode = c.errorCode ∧ (c.report saved).loginTask = c.loginTask := by
  rw [report]
  split <;> exact ⟨rfl, rfl, rfl, rfl⟩

theorem exit_fields (h : c.entered = 1 ∨ c.entered = 2) (saved : State) :
    (c.exit saved).entered = c.entered - 1 ∧ (c.exit saved).state = c.state ∧
      (c.exit saved).errorCode = c.errorCode ∧ (c.exit saved).loginTask = c.loginTask := by
  rcases h with h | h
  · rw [exit_of_one h]
    obtain ⟨h₁, h₂, h₃, -, h₄, -⟩ := exitOutput_fields { c with entered := 0 } saved
    obtain ⟨h₅, h₆, h₇, h₈⟩ := (exitOutput saved { c with entered := 0 }).report_fields saved
    exact ⟨(h₅.trans h₁).trans (by rw [h]), h₆.trans h₂, h₇.trans h₃, h₈.trans h₄⟩
  · rw [exit_of_two h]
    obtain ⟨h₁, h₂, h₃, -, h₄, -⟩ := exitOutput_fields { c with entered := 1 } saved
    exact ⟨h₁.trans (by rw [h]), h₂, h₃, h₄⟩

theorem signalError_fields (error : Error) (c : Core M) :
    (c.signalError error).entered = c.entered ∧ (c.signalError error).loginTask = c.loginTask ∧
      (c.signalError error).state = .closed := by
  rw [signalError]
  split
  · exact ⟨rfl, rfl, rfl⟩
  next h => exact ⟨rfl, rfl, not_not.mp h⟩

theorem Body.fields {closes : Bool} {c₁ : Core M} (h : Body c closes c₁) :
    c₁.entered = c.entered ∧ (c₁.loginTask = none ↔ c.loginTask = none) ∧
      (c₁.state = c.state ∨ c₁.state = .closed) ∧
      (closes = false → c₁.state = c.state ∧ c₁.errorCode = c.errorCode) := by
  cases h with
  | send element =>
    rw [sendInside]
    split
    next hlogin => exact ⟨rfl, Iff.rfl, .inl rfl, fun _ => ⟨rfl, rfl⟩⟩
    next t hlogin =>
      refine ⟨rfl, ?_, .inl rfl, fun _ => ⟨rfl, rfl⟩⟩
      rw [hlogin]
      exact ⟨nofun, nofun⟩
  | raw text hlogin => exact ⟨rfl, Iff.rfl, .inl rfl, fun _ => ⟨rfl, rfl⟩⟩
  | disconnect =>
    rw [disconnectInside]
    split <;> exact ⟨rfl, Iff.rfl, .inr rfl, nofun⟩
  | error error herror =>
    obtain ⟨hentered, hlogin, hstate⟩ := signalError_fields error c
    exact ⟨hentered, by rw [hlogin], .inr hstate, nofun⟩

end Core

/-! ### Runs -/

/-- The call of a handler of stanzas or of a response. -/
def Event.IsCallback : Event → Prop
  | handleStanza _ _ _ => True
  | iqResponse _ _ _ => True
  | _ => False

/-- What has to be shown of a predicate `top` between the calls from outside and a predicate `parsing` while
`HandleInput` is at work. If `mayClose` does not hold then no handler closes the engine. -/
structure RunInvariant (sasl : Sasl M) (P : Type) (mayClose : Prop) (top parsing : Core M → Prop) :
    Prop where
  setting : ∀ {c} tlsOption outputHandler sessionHandler, c.entered = 0 → c.state = .start → top c →
    top { c with tlsOption, outputHandler, sessionHandler }
  connect : ∀ {c c₁ : Core M} {e : Engine P M}, c.entered = 0 → c.state = .start → top c →
    e.core = { c.enter with state := .opening } →
    (c.loginTask = none ∧ c₁ = e.core ∨
      ∃ t, c.loginTask = some t ∧ c₁ = (e.loginStanza sasl none false t).core) → top (c₁.exit .start)
  bracket : ∀ {c c₁ closes}, c.entered = 0 → c.state ≠ .closed → top c →
    Core.Body c.enter closes c₁ → top (c₁.exit c.state)
  start : ∀ {c}, c.entered = 0 → c.state = .opening ∨ c.state = .open → top c → parsing c.enter
  finish : ∀ {c saved}, c.entered = 1 → saved = .opening ∨ saved = .open → parsing c → top (c.exit saved)
  nested : ∀ {c c₁ closes}, c.entered = 1 → c.loginTask = none → c.state ≠ .closed →
    (closes = true → mayClose) → parsing c → Core.Body c.enter closes c₁ → parsing (c₁.exit c.state)
  offer : ∀ {c event}, event.IsCallback → c.loginTask = none → (mayClose ∨ c.errorCode = .none) →
    parsing c → parsing (c.emit event)
  login : ∀ {e : Engine P M} {t} element isStart, e.loginTask = some t → e.errorCode = .none →
    e.state = .opening → parsing e.core → parsing (e.loginStanza sasl (some element) isStart t).core
  error : ∀ {c error}, error ≠ .none → c.errorCode = .none → parsing c → parsing (c.signalError error)

/-- No login task is left in an engine that is open. -/
structure Core.Outside (c : Core M) : Prop where
  entered : c.entered = 0
  login : c.loginTask ≠ none → c.state ≠ .open

/-- While `HandleInput` is at work the login goes on only in `STATE_OPENING`. -/
structure Core.Inside (c : Core M) : Prop where
  entered : c.entered = 1
  state : c.state ≠ .start
  login : c.loginTask ≠ none → c.state ≠ .open ∧ (c.errorCode = .none → c.state = .opening)

theorem LoginTask.Effect.state {t t' : LoginTask M} {c c' : Core M} (h : LoginTask.Effect t c t' c')
    (hstart : c.state ≠ .start) (hopening : t.state ≠ .done → c.state = .opening) :
    c'.entered = c.entered ∧ c'.state ≠ .start ∧ (t'.state ≠ .done → c'.state = .opening) := by
  rcases h with ⟨-, hround⟩ | hfinish
  · cases hround with
    | wait hstate hc =>
      rw [hc, hstate]
      exact ⟨rfl, hstart, hopening⟩
    | failure error herror hstate hc =>
      obtain ⟨h₁, -, h₂⟩ := c.signalError_fields error
      rw [hc, hstate, h₁, h₂]
      exact ⟨rfl, (by rintro ⟨⟩), fun hdone => absurd rfl hdone⟩
    | move hstate hc =>
      rw [hc]
      refine ⟨rfl, hstart, fun _ => hopening ?_⟩
      intro hdone
      rw [hdone] at hstate
      exact hstate
    | header hostname lang hfrom hstate hc =>
      rw [hc]
      exact ⟨rfl, hstart, fun _ => hopening (hfrom.trans_ne (by rintro ⟨⟩))⟩
    | request element hstates hc =>
      rw [hc]
      refine ⟨rfl, hstart, fun _ => hopening ?_⟩
      rcases hstates with ⟨h, -⟩ | ⟨h, -⟩ | ⟨h, -⟩ <;> exact h.trans_ne (by rintro ⟨⟩)
    | sasl element hfrom hstate hc =>
      rw [hc]
      refine ⟨rfl, hstart, fun _ => hopening ?_⟩
      rcases hfrom with h | h <;> exact h.trans_ne (by rintro ⟨⟩)
    | proceed domain hfrom hstate hc =>
      rw [hc, Core.startTls]
      have hopen := hopening (hfrom.trans_ne (by rintro ⟨⟩))
      split <;> exact ⟨rfl, hstart, fun _ => hopen⟩
  · rw [hfinish.hc, hfinish.hstate, Core.signalBound]
    split
    · exact ⟨rfl, (by rintro ⟨⟩), fun hdone => absurd rfl hdone⟩
    · exact ⟨rfl, hstart, fun hdone => absurd rfl hdone⟩

theorem Engine.loginStanza_state (sasl : Sasl M) {t : LoginTask M} {e : Engine P M}
    (hstate : e.state = .opening) (element : Option XmlElement) (isStart : Bool) :
    (e.loginStanza sasl element isStart t).core.entered = e.entered ∧
      (e.loginStanza sasl element isStart t).core.state ≠ .start ∧
      ((e.loginStanza sasl element isStart t).core.loginTask ≠ none →
        (e.loginStanza sasl element isStart t).core.state = .opening) := by
  have hJ : ∀ {t : LoginTask M} {c : Core M} {t' : LoginTask M} {c' : Core M},
      (c.entered = e.entered ∧ c.state ≠ .start ∧ (t.state ≠ .done → c.state = .opening)) →
      LoginTask.Effect t c t' c' →
      c'.entered = e.entered ∧ c'.state ≠ .start ∧ (t'.state ≠ .done → c'.state = .opening) := by
    rintro t c t' c' ⟨hentered, hstart, hopening⟩ heffect
    rw [← hentered]
    exact heffect.state hstart hopening
  obtain ⟨t', c', ⟨hentered, hstart, hopening⟩, hcore⟩ := Engine.loginStanza_induction sasl
    (J := fun s _ c => c.entered = e.entered ∧ c.state ≠ .start ∧ (s ≠ .done → c.state = .opening))
    hJ (t := t) (e := e) element isStart ⟨rfl, hstate.trans_ne nofun, fun _ => hstate⟩
  rw [hcore]
  refine ⟨hentered, hstart, ?_⟩
  split
  · exact fun hlogin => absurd rfl hlogin
  next hdone => exact fun _ => hopening hdone

/-- The responses in which handlers close the engine only if they may. -/
def AllowedResponses (mayClose : Prop) (rs : List Response) : Prop :=
  ∀ r ∈ rs, ∀ call ∈ r.calls, call.closes = true → mayClose

/-- The responses that are left after a walk. -/
def WalkEnd.responses : WalkEnd → List Response
  | finished rs => rs
  | handled rs => rs
  | running => []

section walk

variable {parser : Parser P} {sasl : Sasl M} {level : HandlerLevel} {stanza : XmlElement}

theorem Engine.walk_keeps {rs : List Response} {K : Engine P M → Prop}
    (hemit : ∀ handler e, K e → K (e.emit (.handleStanza level handler stanza)))
    (hcall : ∀ r ∈ rs, ∀ e, K e → K (r.apply parser sasl e)) (i : Nat) {e : Engine P M} (he : K e) :
    K (e.walk parser sasl level stanza rs i).1 := by
  induction rs generalizing i e with
  | nil =>
    cases hhandler : (e.stanzaHandlers level)[i]? with
    | none => rwa [Engine.walk_of_none hhandler]
    | some handler =>
      rw [Engine.walk_nil_of_some hhandler]
      exact hemit handler e he
  | cons r rs ih =>
    obtain ⟨hr, hrest⟩ := List.forall_mem_cons.mp hcall
    cases hhandler : (e.stanzaHandlers level)[i]? with
    | none => rwa [Engine.walk_of_none hhandler]
    | some handler =>
      have hnext := hr _ (hemit handler e he)
      rw [Engine.walk_cons_of_some hhandler]
      split
      · exact hnext
      · exact ih hrest _ hnext

variable (parser sasl level stanza)

theorem responses_walk (rs : List Response) (i : Nat) (e : Engine P M) :
    (e.walk parser sasl level stanza rs i).2.responses <:+ rs := by
  induction rs generalizing i e with
  | nil =>
    cases hhandler : (e.stanzaHandlers level)[i]? with
    | none =>
      rw [Engine.walk_of_none hhandler]
      exact List.suffix_rfl
    | some handler =>
      rw [Engine.walk_nil_of_some hhandler]
      exact List.suffix_rfl
  | cons r rs ih =>
    cases hhandler : (e.stanzaHandlers level)[i]? with
    | none =>
      rw [Engine.walk_of_none hhandler]
      exact List.suffix_rfl
    | some handler =>
      rw [Engine.walk_cons_of_some hhandler]
      split
      · exact List.suffix_cons r rs
      · exact (ih _ _).trans (List.suffix_cons r rs)

end walk

/-- The responses that are given with an operation. -/
def Op.responses : Op → List Response
  | call _ => []
  | input _ rs => rs

namespace RunInvariant

variable (parser : Parser P) {sasl : Sasl M} {mayClose : Prop} {top parsing : Core M → Prop}

/-- What holds while handlers are called. -/
structure Working (mayClose : Prop) (parsing : Core M → Prop) (c : Core M) : Prop where
  inside : c.Inside
  parsing : parsing c
  login : c.loginTask = none
  error : mayClose ∨ c.errorCode = .none

variable {e : Engine P M}

theorem working_call (hI : RunInvariant sasl P mayClose top parsing) (call : Call)
    (hcall : call.closes = true → mayClose) (h : Working mayClose parsing e.core) :
    Working mayClose parsing (call.apply parser sasl e).1.core := by
  cases Call.apply_effect parser sasl e call with
  | quiet hc =>
    rw [hc]
    exact h
  | setting hstate => exact absurd hstate h.inside.state
  | connect hstate => exact absurd hstate h.inside.state
  | bracket hstate c₁ hbody hc =>
    obtain ⟨hentered, hlogin, hstates, hfalse⟩ := hbody.fields
    have htwo : c₁.entered = 2 := hentered.trans (congrArg (· + 1) h.inside.entered)
    obtain ⟨h₁, h₂, h₃, h₄⟩ := Core.exit_fields (.inr htwo) e.core.state
    have hnone : c₁.loginTask = none := hlogin.mpr h.login
    have hstart : c₁.state ≠ .start := by
      rcases hstates with heq | heq
      · exact heq.trans_ne h.inside.state
      · exact heq.trans_ne nofun
    rw [hc]
    refine ⟨⟨by rw [h₁, htwo], by rw [h₂]; exact hstart, ?_⟩, ?_, h₄.trans hnone, ?_⟩
    · intro hsome
      exact absurd (h₄.trans hnone) hsome
    · exact hI.nested h.inside.entered h.login hstate hcall h.parsing hbody
    · cases hcloses : call.closes with
      | true => exact .inl (hcall hcloses)
      | false => exact h.error.imp_right fun herror => h₃.trans ((hfalse hcloses).2.trans herror)

theorem working_offer (hI : RunInvariant sasl P mayClose top parsing) (event : Event)
    (hevent : event.IsCallback) (h : Working mayClose parsing e.core) :
    Working mayClose parsing (e.emit event).core :=
  ⟨⟨h.inside.entered, h.inside.state, h.inside.login⟩, hI.offer hevent h.login h.error h.parsing,
    h.login, h.error⟩

theorem working_response (hI : RunInvariant sasl P mayClose top parsing) {r : Response}
    (hr : ∀ call ∈ r.calls, call.closes = true → mayClose) (h : Working mayClose parsing e.core) :
    Working mayClose parsing (r.apply parser sasl e).core := by
  obtain ⟨calls, handled⟩ := r
  induction calls generalizing e with
  | nil => exact h
  | cons call calls ih =>
    rw [List.forall_mem_cons] at hr
    exact ih (hI.working_call parser call hr.1 h) hr.2

variable {rs : List Response}

theorem working_walk (hI : RunInvariant sasl P mayClose top parsing) (level : HandlerLevel)
    (stanza : XmlElement) (i : Nat)
    (hrs : AllowedResponses mayClose rs) (h : Working mayClose parsing e.core) :
    Working mayClose parsing (e.walk parser sasl level stanza rs i).1.core ∧
      AllowedResponses mayClose (e.walk parser sasl level stanza rs i).2.responses := by
  refine ⟨?_, fun r hr => hrs r ((responses_walk parser sasl level stanza rs i e).subset hr)⟩
  refine Engine.walk_keeps (K := fun e => Working mayClose parsing e.core) ?_ ?_ i h
  · exact fun _ _ h => hI.working_offer _ trivial h
  · exact fun r hr _ h => hI.working_response parser (hrs r hr) h

theorem working_dispatch (hI : RunInvariant sasl P mayClose top parsing) (stanza : XmlElement)
    (levels : List HandlerLevel)
    (hrs : AllowedResponses mayClose rs) (h : Working mayClose parsing e.core) :
    Working mayClose parsing (e.dispatch parser sasl stanza levels rs).1.core ∧
      AllowedResponses mayClose (e.dispatch parser sasl stanza levels rs).2.responses := by
  induction levels generalizing rs e with
  | nil => exact ⟨h, hrs⟩
  | cons level levels ih =>
    have hwalk := hI.working_walk parser level stanza 0 hrs h
    rw [Engine.dispatch]
    split
    next heq =>
      rw [heq] at hwalk
      exact ih hwalk.2 hwalk.1
    · exact hwalk

variable {c : Core M}

theorem inside_signalError {error : Error} (herror : error ≠ .none) (h : c.Inside) :
    (c.signalError error).Inside := by
  rw [Core.signalError]
  split
  · exact ⟨h.entered, (by rintro ⟨⟩), fun _ => ⟨(by rintro ⟨⟩), fun hnone => absurd hnone herror⟩⟩
  · exact h

theorem signalError (hI : RunInvariant sasl P mayClose top parsing) {error : Error}
    (herror : error ≠ .none) (hnone : c.errorCode = .none) (h : c.Inside ∧ parsing c) :
    (c.signalError error).Inside ∧ parsing (c.signalError error) :=
  ⟨inside_signalError herror h.1, hI.error herror hnone h.2⟩

theorem loginStanza (hI : RunInvariant sasl P mayClose top parsing) {t : LoginTask M}
    (element : XmlElement) (isStart : Bool) (ht : e.loginTask = some t) (hnone : e.errorCode = .none)
    (h : e.core.Inside ∧ parsing e.core) :
    (e.loginStanza sasl (some element) isStart t).core.Inside ∧
      parsing (e.loginStanza sasl (some element) isStart t).core := by
  have hopening : e.state = .opening := (h.1.login fun hlogin => nomatch ht.symm.trans hlogin).2 hnone
  obtain ⟨hentered, hstart, hlogin⟩ :=
    Engine.loginStanza_state sasl (t := t) hopening (some element) isStart
  refine ⟨⟨hentered.trans h.1.entered, hstart, ?_⟩, hI.login element isStart ht hnone hopening h.2⟩
  intro hsome
  exact ⟨(hlogin hsome).trans_ne nofun, fun _ => hlogin hsome⟩

theorem errorCode_of_not_ignored (h : ¬(e.hasError = true ∨ e.raisedReset = true)) :
    e.errorCode = .none := by
  rw [not_or, Engine.hasError, decide_eq_true_eq, not_not] at h
  exact h.1

theorem incomingStart (hI : RunInvariant sasl P mayClose top parsing)
    (start : XmlElement) (h : e.core.Inside ∧ parsing e.core) :
    (e.incomingStart sasl start).core.Inside ∧ parsing (e.incomingStart sasl start).core := by
  rw [Engine.incomingStart]
  split
  · exact h
  next hnone =>
    split
    next t ht => exact hI.loginStanza start true ht (errorCode_of_not_ignored hnone) h
    next ht =>
      rw [Engine.core_signalError]
      exact hI.signalError nofun (errorCode_of_not_ignored hnone) h

theorem incomingEnd (hI : RunInvariant sasl P mayClose top parsing) (isError : Bool)
    (h : e.core.Inside ∧ parsing e.core) :
    (e.incomingEnd isError).core.Inside ∧ parsing (e.incomingEnd isError).core := by
  rw [Engine.incomingEnd]
  split
  · exact h
  next hnone =>
    rw [Engine.core_signalError]
    exact hI.signalError (by split <;> exact nofun) (errorCode_of_not_ignored hnone) h

theorem unhandled (hI : RunInvariant sasl P mayClose top parsing) (stanza : XmlElement)
    (h : Working mayClose parsing e.core) : Working mayClose parsing (e.unhandled parser stanza).core := by
  rw [Engine.unhandled]
  split
  · exact hI.working_call parser (.sendStanzaError stanza .featureNotImplemented "") nofun h
  · exact h

theorem incomingStanza (hI : RunInvariant sasl P mayClose top parsing)
    (stanza : XmlElement) (hrs : AllowedResponses mayClose rs)
    (h : e.core.Inside ∧ parsing e.core) :
    ((e.incomingStanza parser sasl stanza rs).1.core.Inside ∧
        parsing (e.incomingStanza parser sasl stanza rs).1.core) ∧
      ∀ rs' ∈ (e.incomingStanza parser sasl stanza rs).2, AllowedResponses mayClose rs' := by
  have hsame : ∀ rs' ∈ some rs, AllowedResponses mayClose rs' := by
    rintro rs' ⟨⟩
    exact hrs
  rw [Engine.incomingStanza]
  split
  · exact ⟨h, hsame⟩
  next hignored =>
    have hnone := errorCode_of_not_ignored hignored
    split
    · rw [Engine.core_signalStreamError]
      exact ⟨hI.signalError nofun hnone h, hsame⟩
    split
    next t ht => exact ⟨hI.loginStanza stanza false ht hnone h, hsame⟩
    next ht =>
      have hworking : Working mayClose parsing e.core := ⟨h.1, h.2, ht, .inr hnone⟩
      split
      next entry hentry =>
        have hoffer := hI.working_offer (e := { e with iqEntries := e.iqEntries.eraseP fun other =>
          other.id = entry.id ∧ other.recipient = entry.recipient })
          (.iqResponse entry.handler entry.cookie stanza) trivial hworking
        cases rs with
        | nil => exact ⟨⟨hoffer.inside, hoffer.parsing⟩, nofun⟩
        | cons r rs =>
          obtain ⟨hr, hrs'⟩ := List.forall_mem_cons.mp hrs
          have hnext := hI.working_response parser hr hoffer
          refine ⟨⟨hnext.inside, hnext.parsing⟩, ?_⟩
          rintro rs' ⟨⟩
          exact hrs'
      · have hdispatch := hI.working_dispatch parser stanza Engine.levels hrs hworking
        split
        next heq =>
          rw [heq] at hdispatch
          have hunhandled := hI.unhandled parser stanza hdispatch.1
          refine ⟨⟨hunhandled.inside, hunhandled.parsing⟩, ?_⟩
          rintro rs' ⟨⟩
          exact hdispatch.2
        next heq =>
          rw [heq] at hdispatch
          refine ⟨⟨hdispatch.1.inside, hdispatch.1.parsing⟩, ?_⟩
          rintro rs' ⟨⟩
          exact hdispatch.2
        next heq =>
          rw [heq] at hdispatch
          exact ⟨⟨hdispatch.1.inside, hdispatch.1.parsing⟩, nofun⟩

theorem incomingEvents (hI : RunInvariant sasl P mayClose top parsing)
    (events : List ParseEvent) (hrs : AllowedResponses mayClose rs)
    (h : e.core.Inside ∧ parsing e.core) :
    (e.incomingEvents parser sasl events rs).1.core.Inside ∧
      parsing (e.incomingEvents parser sasl events rs).1.core := by
  induction events generalizing e rs with
  | nil => exact h
  | cons event events ih =>
    rw [Engine.incomingEvents]
    cases event with
    | startStream stream => exact ih hrs (hI.incomingStart stream h)
    | stanza stanza =>
      have hstanza := hI.incomingStanza parser stanza hrs h
      rw [Engine.incomingEvent]
      split
      next heq =>
        rw [heq] at hstanza
        exact ih (hstanza.2 _ rfl) hstanza.1
      next heq =>
        rw [heq] at hstanza
        exact hstanza.1
    | endStream => exact ih hrs (hI.incomingEnd false h)
    | xmlError => exact ih hrs (hI.incomingEnd true h)

/-- What holds after something that has returned, or has not returned. -/
def After (top parsing : Core M → Prop) : Bool → Core M → Prop
  | true, c => c.Outside ∧ top c
  | false, c => c.Inside ∧ parsing c

theorem exit (hI : RunInvariant sasl P mayClose top parsing) {saved : State}
    (hsaved : saved = .opening ∨ saved = .open) (h : c.Inside ∧ parsing c) :
    (c.exit saved).Outside ∧ top (c.exit saved) := by
  obtain ⟨hinside, hparsing⟩ := h
  obtain ⟨hentered, hstate, -, hlogin⟩ := Core.exit_fields (.inl hinside.entered) saved
  refine ⟨⟨by rw [hentered, hinside.entered], ?_⟩, hI.finish hinside.entered hsaved hparsing⟩
  rw [hlogin, hstate]
  exact fun hsome => (hinside.login hsome).1

theorem handleInput (hI : RunInvariant sasl P mayClose top parsing)
    (bytes : List UInt8) (hrs : AllowedResponses mayClose rs)
    (h : e.core.Outside ∧ top e.core) :
    After top parsing (e.handleInput parser sasl bytes rs).2.isSome
      (e.handleInput parser sasl bytes rs).1.core := by
  obtain ⟨hout, htop⟩ := h
  rw [Engine.handleInput]
  split
  · exact ⟨hout, htop⟩
  next hstate =>
    have hstates : e.state = .opening ∨ e.state = .open := by
      rwa [not_and_or, not_not, not_not] at hstate
    have hinside : e.core.enter.Inside := by
      refine ⟨congrArg (· + 1) hout.entered, ?_, ?_⟩
      · rcases hstates with heq | heq <;> exact heq.trans_ne nofun
      · intro hlogin
        exact ⟨hout.login hlogin, fun _ => hstates.resolve_right (hout.login hlogin)⟩
    have hevents := hI.incomingEvents parser (e := e.enter) (parser.parse e.parser bytes).2 hrs
      ⟨hinside, hI.start hout.entered hstates htop⟩
    dsimp only
    split
    next e' rs' heq =>
      rw [heq] at hevents
      have hexit := hI.exit hstates hevents
      rw [show (e', some rs').1.core = ({ e' with parser := (parser.parse e.parser bytes).1 } :
        Engine P M).core from rfl, ← Engine.core_exit parser] at hexit
      exact hexit
    next e' heq =>
      rw [heq] at hevents
      exact hevents

theorem call (hI : RunInvariant sasl P mayClose top parsing) (call : Call)
    (h : e.core.Outside ∧ top e.core) :
    (call.apply parser sasl e).1.core.Outside ∧ top (call.apply parser sasl e).1.core := by
  obtain ⟨hout, htop⟩ := h
  cases Call.apply_effect parser sasl e call with
  | quiet hc =>
    rw [hc]
    exact ⟨hout, htop⟩
  | setting hstate tlsOption outputHandler sessionHandler hc =>
    rw [hc]
    exact ⟨⟨hout.entered, hout.login⟩,
      hI.setting tlsOption outputHandler sessionHandler hout.entered hstate htop⟩
  | connect hstate e₁ he c₁ hlogin hc =>
    rw [hc]
    refine ⟨?_, hI.connect hout.entered hstate htop he hlogin⟩
    have hentered : e₁.core.entered = 1 := by
      rw [he]
      exact congrArg (· + 1) hout.entered
    have hopening : e₁.core.state = .opening := by rw [he]
    rcases hlogin with ⟨hnone, rfl⟩ | ⟨t, ht, rfl⟩
    · obtain ⟨h₁, h₂, -, h₄⟩ := Core.exit_fields (.inl hentered) .start
      refine ⟨by rw [h₁, hentered], ?_⟩
      rw [h₂, hopening]
      exact fun _ => nofun
    · obtain ⟨h₅, -, h₆⟩ := Engine.loginStanza_state sasl (t := t) hopening none false
      obtain ⟨h₁, h₂, -, h₄⟩ := Core.exit_fields (.inl (h₅.trans hentered)) .start
      refine ⟨by rw [h₁, h₅.trans hentered], ?_⟩
      rw [h₂, h₄]
      exact fun hsome => (h₆ hsome).trans_ne nofun
  | bracket hstate c₁ hbody hc =>
    rw [hc]
    refine ⟨?_, hI.bracket hout.entered hstate htop hbody⟩
    obtain ⟨hentered, hlogin, hstates, -⟩ := hbody.fields
    have hone : c₁.entered = 1 := hentered.trans (congrArg (· + 1) hout.entered)
    obtain ⟨h₁, h₂, -, h₄⟩ := Core.exit_fields (.inl hone) e.core.state
    refine ⟨by rw [h₁, hone], ?_⟩
    rw [h₂, h₄]
    intro hsome
    rcases hstates with heq | heq
    · exact heq.trans_ne (hout.login fun hnone => hsome (hlogin.mpr hnone))
    · exact heq.trans_ne nofun

theorem run (hI : RunInvariant sasl P mayClose top parsing) {ops : List Op}
    (hops : ∀ op ∈ ops, AllowedResponses mayClose op.responses)
    (h : e.core.Outside ∧ top e.core) :
    After top parsing (Xmpp.run parser sasl ops e).2 (Xmpp.run parser sasl ops e).1.core := by
  induction ops generalizing e with
  | nil => exact h
  | cons op ops ih =>
    rw [List.forall_mem_cons] at hops
    cases op with
    | call c => exact ih hops.2 (hI.call parser c h)
    | input bytes rs =>
      have hrs : AllowedResponses mayClose rs := hops.1
      have hinput := hI.handleInput parser bytes hrs h
      rw [Xmpp.run]
      split
      next heq =>
        rw [heq] at hinput
        exact ih hops.2 hinput
      next heq =>
        rw [heq] at hinput
        exact hinput

end RunInvariant

theorem run_append (parser : Parser P) (sasl : Sasl M) {ops : List Op} {e e' : Engine P M}
    (h : run parser sasl ops e = (e', true)) (ops' : List Op) :
    run parser sasl (ops ++ ops') e = run parser sasl ops' e' := by
  induction ops generalizing e with
  | nil =>
    cases h
    rfl
  | cons op ops ih =>
    cases op with
    | call c =>
      rw [List.cons_append, run, ih h]
    | input bytes rs =>
      rw [run] at h
      rw [List.cons_append, run]
      split at h
      · exact ih h
      · cases h

theorem Engine.create_outside (parser : Parser P) : (create parser : Engine P M).core.Outside :=
  ⟨rfl, fun _ => nofun⟩

theorem allowedResponses_true (ops : List Op) : ∀ op ∈ ops, AllowedResponses True op.responses :=
  fun _ _ _ _ _ _ _ => trivial

end Synciga.Xmpp
