import Synciga.Internal.Runs
import Synciga.Xmpp.EngineRuns
import Synciga.Xmpp.StanzaParser

/-!
# An engine that closes

The output handler is given up in the function in which the state becomes `STATE_CLOSED`, which it stays. The
loops over the handlers do not look at the state: where one of them calls `Disconnect`, those behind it are
called, and so are those for the rest of the chunk.

## Main results

* `closing_run` — `CloseConnection` is called once, the session handler told once, and nothing written or,
  unless a handler closes the engine, called afterwards
* `callback_after_closed` — where one does
-/

namespace Synciga.Xmpp

variable {P M : Type}

/-- What may follow what. If `mayClose` holds then nothing is said about handlers. -/
def Event.ClosingRule (mayClose : Prop) (pre : List Event) : Event → Prop
  | closeConnection => closeConnection ∉ pre
  | stateChange state => state = .closed → stateChange .closed ∉ pre
  | writeOutput _ => closeConnection ∉ pre ∧ stateChange .closed ∉ pre
  | handleStanza _ _ _ => mayClose ∨ closed ∉ pre
  | iqResponse _ _ _ => mayClose ∨ closed ∉ pre
  | _ => True

/-- The invariant. -/
structure Closing (mayClose : Prop) (c : Core M) : Prop where
  lawful : Runs.Lawful (Event.ClosingRule mayClose) c.trace
  mark : Event.closed ∈ c.trace ↔ c.state = .closed
  connection : Event.closeConnection ∈ c.trace → c.state = .closed ∧ c.outputHandler = false

/-- While the engine is at work the session handler was not told yet. -/
structure ClosingInside (mayClose : Prop) (c : Core M) : Prop extends Closing mayClose c where
  unreported : Event.stateChange .closed ∉ c.trace

/-- If handlers do not close the engine, there is an error behind it when it is closed. -/
def Blamed (mayClose : Prop) (c : Core M) : Prop := mayClose ∨ (c.errorCode = .none → c.state ≠ .closed)

/-- Between the calls from outside an engine that is closed has told so and has given up its output
handler. -/
structure ClosingOutside (mayClose : Prop) (c : Core M) : Prop extends Closing mayClose c where
  unreported : c.state ≠ .closed → Event.stateChange .closed ∉ c.trace
  outputHandler : c.state = .closed → c.outputHandler = false
  reported : c.state = .closed → c.sessionHandler = true → Event.stateChange .closed ∈ c.trace

section step

variable {mayClose : Prop} {c : Core M}

/-- Most events change nothing. -/
def Event.IsPlain (event : Event) : Prop :=
  event ≠ .closed ∧ event ≠ .closeConnection ∧ event ≠ .stateChange .closed

theorem mem_emit {event other : Event} (h : event ≠ other) (trace : List Event) :
    other ∈ trace ++ [event] ↔ other ∈ trace := by
  rw [List.mem_append, List.mem_singleton, or_iff_left fun heq => h heq.symm]

theorem Closing.emit (h : Closing mayClose c) {event : Event} (hplain : event.IsPlain)
    (hrule : event.ClosingRule mayClose c.trace) : Closing mayClose (c.emit event) := by
  refine ⟨h.lawful.append hrule, ?_, fun hmem => h.connection ((mem_emit hplain.2.1 c.trace).mp hmem)⟩
  exact (mem_emit hplain.1 c.trace).trans h.mark

theorem ClosingInside.emit (h : ClosingInside mayClose c) (event : Event) (hplain : event.IsPlain)
    (hrule : event.ClosingRule mayClose c.trace) : ClosingInside mayClose (c.emit event) :=
  ⟨h.toClosing.emit hplain hrule, mt (mem_emit hplain.2.2 c.trace).mp h.unreported⟩

theorem ClosingInside.put (h : ClosingInside mayClose c) (o : Output) : ClosingInside mayClose (c.put o) :=
  ⟨⟨h.lawful, h.mark, h.connection⟩, h.unreported⟩

theorem ClosingInside.close (h : ClosingInside mayClose c) (hstate : c.state ≠ .closed) (error : Error) :
    ClosingInside mayClose { c.emit .closed with errorCode := error, state := .closed } := by
  refine ⟨⟨h.lawful.append trivial, ?_, fun hmem => ?_⟩, ?_⟩
  · exact iff_of_true (List.mem_append_right _ (List.mem_singleton.mpr rfl)) rfl
  · have hne : Event.closed ≠ .closeConnection := nofun
    exact absurd (h.connection ((mem_emit hne c.trace).mp hmem)).1 hstate
  · have hne : Event.closed ≠ .stateChange .closed := nofun
    exact mt (mem_emit hne c.trace).mp h.unreported

theorem ClosingInside.signalError (h : ClosingInside mayClose c) (error : Error) :
    ClosingInside mayClose (c.signalError error) := by
  rw [Core.signalError]
  split
  next hstate => exact h.close hstate error
  · exact h

theorem Blamed.signalError (h : Blamed mayClose c) {error : Error} (herror : error ≠ .none) :
    Blamed mayClose (c.signalError error) := by
  rw [Core.signalError]
  split
  · exact .inr fun heq => absurd heq herror
  · exact h

theorem ClosingInside.flush (h : ClosingInside mayClose c) (houtput : c.outputHandler = true) :
    ClosingInside mayClose c.flush := by
  have hconnection : Event.closeConnection ∉ c.trace := by
    intro hmem
    rw [(h.connection hmem).2] at houtput
    cases houtput
  rw [Core.flush]
  split
  · have hwrite := h.emit (.writeOutput c.output) ⟨(by rintro ⟨⟩), (by rintro ⟨⟩), (by rintro ⟨⟩)⟩
        ⟨hconnection, h.unreported⟩
    exact ⟨⟨hwrite.lawful, hwrite.mark, hwrite.connection⟩, hwrite.unreported⟩
  · exact ⟨⟨h.lawful, h.mark, h.connection⟩, h.unreported⟩

variable {saved : State}

theorem ClosingInside.exitOutput (h : ClosingInside mayClose c) (hsaved : saved ≠ .closed) :
    ClosingInside mayClose (c.exitOutput saved) ∧
      ((c.exitOutput saved).state = .closed → (c.exitOutput saved).outputHandler = false) := by
  rw [Core.exitOutput]
  split
  next houtput =>
    have hflush := h.flush houtput.1
    have hfields : c.flush.state = c.state ∧ c.flush.outputHandler = c.outputHandler := by
      rw [Core.flush]
      split <;> exact ⟨rfl, rfl⟩
    split
    next hclosing =>
      have hconnection : Event.closeConnection ∉ c.flush.trace := by
        intro hmem
        have hfalse := (hflush.connection hmem).2
        rw [hfields.2, houtput.1] at hfalse
        cases hfalse
      have hne : Event.closeConnection ≠ .closed ∧ Event.closeConnection ≠ .stateChange .closed :=
        ⟨(by rintro ⟨⟩), (by rintro ⟨⟩)⟩
      refine ⟨⟨⟨hflush.lawful.append hconnection, (mem_emit hne.1 _).trans hflush.mark, fun _ => ?_⟩,
        mt (mem_emit hne.2 _).mp hflush.unreported⟩, fun _ => rfl⟩
      exact ⟨hfields.1.trans hclosing.2, rfl⟩
    next hclosing =>
      refine ⟨hflush, fun hclosed => ?_⟩
      rw [hfields.1] at hclosed
      exact absurd ⟨hclosed.trans_ne hsaved.symm, hclosed⟩ hclosing
  next houtput =>
    refine ⟨h, fun hclosed => Bool.eq_false_of_not_eq_true fun htrue => ?_⟩
    exact houtput ⟨htrue, .inl ⟨hclosed.trans_ne hsaved.symm, hclosed⟩⟩

theorem ClosingInside.withEntered (h : ClosingInside mayClose c) (n : Nat) :
    ClosingInside mayClose { c with entered := n } :=
  ⟨⟨h.lawful, h.mark, h.connection⟩, h.unreported⟩

theorem ClosingInside.exit (h : ClosingInside mayClose c) (hentered : c.entered = 1)
    (hsaved : saved ≠ .closed) : ClosingOutside mayClose (c.exit saved) := by
  obtain ⟨hinside, houtput⟩ := (h.withEntered 0).exitOutput hsaved
  rw [Core.exit_of_one hentered]
  generalize Core.exitOutput saved { c with entered := 0 } = d at hinside houtput
  rw [Core.report]
  split
  next hreport =>
    have hne : Event.stateChange d.state ≠ .closed ∧ Event.stateChange d.state ≠ .closeConnection :=
      ⟨(by rintro ⟨⟩), (by rintro ⟨⟩)⟩
    refine ⟨⟨hinside.lawful.append fun _ => hinside.unreported, (mem_emit hne.1 _).trans hinside.mark,
      fun hmem => hinside.connection ((mem_emit hne.2 _).mp hmem)⟩, fun hstate => ?_, houtput, ?_⟩
    · have hother : Event.stateChange d.state ≠ .stateChange .closed :=
        fun heq => hstate (Event.stateChange.inj heq)
      exact mt (mem_emit hother _).mp hinside.unreported
    · intro hclosed _
      rw [← show d.state = .closed from hclosed]
      exact List.mem_append_right _ (List.mem_singleton.mpr rfl)
  next hreport =>
    refine ⟨hinside.toClosing, fun _ => hinside.unreported, houtput, fun hclosed hsession => ?_⟩
    exact absurd ⟨hsession, hclosed.trans_ne hsaved.symm⟩ hreport

theorem ClosingInside.exit_nested (h : ClosingInside mayClose c) (hentered : c.entered = 2)
    (hsaved : saved ≠ .closed) : ClosingInside mayClose (c.exit saved) := by
  rw [Core.exit_of_two hentered]
  exact ((h.withEntered 1).exitOutput hsaved).1

theorem ClosingInside.body {c₁ : Core M} {closes : Bool} (h : ClosingInside mayClose c)
    (hstate : c.state ≠ .closed) (hbody : Core.Body c closes c₁) : ClosingInside mayClose c₁ := by
  cases hbody with
  | send element =>
    have hsent := h.emit (.sent element) ⟨nofun, nofun, nofun⟩ trivial
    rw [Core.sendInside]
    split
    · exact hsent.put _
    · exact ⟨⟨hsent.lawful, hsent.mark, hsent.connection⟩, hsent.unreported⟩
  | raw text hlogin => exact h.put _
  | disconnect =>
    rw [Core.disconnectInside]
    split
    · exact (h.put .close).close hstate c.errorCode
    · exact h.close hstate c.errorCode
  | error error herror => exact h.signalError error

theorem Blamed.body {c₁ : Core M} {closes : Bool} (h : Blamed mayClose c)
    (hcloses : closes = true → mayClose) (hbody : Core.Body c closes c₁) : Blamed mayClose c₁ := by
  cases closes with
  | true => exact .inl (hcloses rfl)
  | false =>
    obtain ⟨hstate, herror⟩ := hbody.fields.2.2.2 rfl
    rw [Blamed, hstate, herror]
    exact h

theorem LoginTask.Effect.closing {t t' : LoginTask M} {c' : Core M} (h : LoginTask.Effect t c t' c')
    (hinside : ClosingInside mayClose c) (hblamed : Blamed mayClose c) :
    ClosingInside mayClose c' ∧ Blamed mayClose c' := by
  rcases h with ⟨-, hround⟩ | hfinish
  · cases hround with
    | wait hstate hc =>
      rw [hc]
      exact ⟨hinside, hblamed⟩
    | failure error herror hstate hc =>
      rw [hc]
      exact ⟨hinside.signalError error, hblamed.signalError herror⟩
    | move hstate hc =>
      rw [hc]
      exact ⟨hinside, hblamed⟩
    | header hostname lang hfrom hstate hc =>
      rw [hc]
      exact ⟨hinside.put _, hblamed⟩
    | request element hstates hc =>
      rw [hc]
      exact ⟨hinside.put _, hblamed⟩
    | sasl element hfrom hstate hc =>
      rw [hc]
      exact ⟨hinside.put _, hblamed⟩
    | proceed domain hfrom hstate hc =>
      rw [hc, Core.startTls]
      split
      · have hstart := hinside.emit (.startTls domain) ⟨(by rintro ⟨⟩), (by rintro ⟨⟩), (by rintro ⟨⟩)⟩ trivial
        exact ⟨⟨⟨hstart.lawful, hstart.mark, hstart.connection⟩, hstart.unreported⟩, hblamed⟩
      · exact ⟨⟨⟨hinside.lawful, hinside.mark, hinside.connection⟩, hinside.unreported⟩, hblamed⟩
  · rw [hfinish.hc, Core.signalBound]
    split
    next hopening =>
      have hopened := hinside.emit .opened ⟨(by rintro ⟨⟩), (by rintro ⟨⟩), (by rintro ⟨⟩)⟩ trivial
      have hclosed : c.state ≠ .closed := hopening.trans_ne (by rintro ⟨⟩)
      refine ⟨⟨⟨hopened.lawful, ?_, fun hmem => absurd (hopened.connection hmem).1 hclosed⟩,
        hopened.unreported⟩, .inr fun _ => (by rintro ⟨⟩)⟩
      exact iff_of_false (mt hopened.mark.mp hclosed) (by rintro ⟨⟩)
    · exact ⟨⟨⟨hinside.lawful, hinside.mark, hinside.connection⟩, hinside.unreported⟩, hblamed⟩

end step

variable {mayClose : Prop}

theorem closing_loginStanza (sasl : Sasl M) {e : Engine P M} (t : LoginTask M)
    (element : Option XmlElement) (isStart : Bool) (h : ClosingInside mayClose e.core)
    (hblamed : Blamed mayClose e.core) :
    ClosingInside mayClose (e.loginStanza sasl element isStart t).core ∧
      Blamed mayClose (e.loginStanza sasl element isStart t).core := by
  have hJ : ∀ {t : LoginTask M} {c : Core M} {t' : LoginTask M} {c' : Core M},
      ClosingInside mayClose c ∧ Blamed mayClose c → LoginTask.Effect t c t' c' →
      ClosingInside mayClose c' ∧ Blamed mayClose c' :=
    fun h heffect => heffect.closing h.1 h.2
  obtain ⟨t', c', ⟨hinside, hblamed'⟩, hcore⟩ := Engine.loginStanza_induction sasl
    (J := fun _ _ c => ClosingInside mayClose c ∧ Blamed mayClose c) hJ (t := t) (e := e) element isStart
    ⟨h, hblamed⟩
  rw [hcore]
  exact ⟨⟨⟨hinside.lawful, hinside.mark, hinside.connection⟩, hinside.unreported⟩, hblamed'⟩

theorem ClosingOutside.inside {c : Core M} (h : ClosingOutside mayClose c)
    (hstate : c.state ≠ .closed) : ClosingInside mayClose c.enter :=
  ⟨⟨h.lawful, h.mark, h.connection⟩, h.unreported hstate⟩

theorem runInvariant_closing (sasl : Sasl M) (mayClose : Prop) :
    RunInvariant sasl P mayClose (ClosingOutside mayClose)
      (fun c => ClosingInside mayClose c ∧ Blamed mayClose c) where
  setting {c} _ _ _ _ hstate h := by
    have hclosed : c.state ≠ .closed := hstate.trans_ne nofun
    exact ⟨⟨h.lawful, h.mark, fun hmem => absurd (h.connection hmem).1 hclosed⟩, h.unreported,
      fun heq => absurd heq hclosed, fun heq => absurd heq hclosed⟩
  connect {c c₁ e} hentered hstate h he hlogin := by
    have hclosed : c.state ≠ .closed := hstate.trans_ne nofun
    have hopening : e.core.state = .opening := by rw [he]
    have hone : e.core.entered = 1 := by
      rw [he]
      exact congrArg (· + 1) hentered
    have hinside : ClosingInside mayClose e.core := by
      rw [he]
      have hmark : Event.closed ∉ c.trace := mt h.mark.mp hclosed
      exact ⟨⟨h.lawful, iff_of_false hmark nofun, fun hmem => absurd (h.connection hmem).1 hclosed⟩,
        h.unreported hclosed⟩
    rcases hlogin with ⟨-, rfl⟩ | ⟨t, -, rfl⟩
    · exact hinside.exit hone nofun
    · have hstanza := (Engine.loginStanza_state sasl (t := t) hopening none false).1.trans hone
      have hblamed : Blamed mayClose e.core := .inr fun _ => hopening.trans_ne nofun
      exact (closing_loginStanza sasl t none false hinside hblamed).1.exit hstanza nofun
  bracket {c c₁ closes} hentered hstate h hbody := by
    have hone : c₁.entered = 1 := hbody.fields.1.trans (congrArg (· + 1) hentered)
    exact (ClosingInside.body (c := c.enter) (h.inside hstate) hstate hbody).exit hone hstate
  start {c} _ hstates h := by
    have hclosed : c.state ≠ .closed := by rcases hstates with heq | heq <;> exact heq.trans_ne nofun
    exact ⟨h.inside hclosed, .inr fun _ => hclosed⟩
  finish {c saved} hentered hsaved h := by
    have hclosed : saved ≠ .closed := by rcases hsaved with rfl | rfl <;> exact nofun
    exact h.1.exit hentered hclosed
  nested {c c₁ closes} hentered _ hstate hcloses h hbody := by
    have htwo : c₁.entered = 2 := hbody.fields.1.trans (congrArg (· + 1) hentered)
    refine ⟨(ClosingInside.body (c := c.enter) (h.1.withEntered _) hstate hbody).exit_nested htwo hstate, ?_⟩
    obtain ⟨-, hexit, herror, -⟩ := Core.exit_fields (.inr htwo) c.state
    rw [Blamed, hexit, herror]
    exact Blamed.body (c := c.enter) h.2 hcloses hbody
  offer {c event} hevent _ herror h := by
    have hrule : mayClose ∨ Event.closed ∉ c.trace := by
      rcases h.2, herror with ⟨hmay | hblamed, hmay' | hnone⟩
      · exact .inl hmay
      · exact .inl hmay
      · exact .inl hmay'
      · exact .inr (mt h.1.mark.mp (hblamed hnone))
    refine ⟨?_, h.2⟩
    cases event with
    | handleStanza level handler stanza => exact h.1.emit _ ⟨nofun, nofun, nofun⟩ hrule
    | iqResponse handler cookie stanza => exact h.1.emit _ ⟨nofun, nofun, nofun⟩ hrule
    | _ => cases hevent
  login {e t} element isStart _ _ _ h := closing_loginStanza sasl t (some element) isStart h.1 h.2
  error herror _ h := ⟨h.1.signalError _, h.2.signalError herror⟩

/-! ### Runs -/

/-- `CloseConnection`. -/
def Event.isCloseConnection : Event → Bool
  | closeConnection => true
  | _ => false

/-- `OnStateChange(STATE_CLOSED)`. -/
def Event.isClosedReport : Event → Bool
  | stateChange state => state = .closed
  | _ => false

/-- What is shown of an engine, and of the functions that have returned. -/
structure ClosesOnce (e : Engine P M) (returned : Bool) : Prop where
  connection : e.trace.countP Event.isCloseConnection ≤ 1
  report : e.trace.countP Event.isClosedReport ≤ 1
  /-- The session handler is told, as soon as the outermost function returns. -/
  reported : returned = true → e.sessionHandler = true →
    (e.state = .closed ↔ e.trace.countP Event.isClosedReport = 1)
  /-- Nothing is written afterwards. -/
  silent : ∀ pre output post, e.trace = pre ++ .writeOutput output :: post →
    Event.closeConnection ∉ pre ∧ Event.stateChange .closed ∉ pre

/-- No handler of stanzas or of responses is called when the state is `STATE_CLOSED`. -/
def NoCallbackAfterClosed (trace : List Event) : Prop :=
  ∀ pre event post, trace = pre ++ event :: post → event.IsCallback → Event.closed ∉ pre

section count

variable {mayClose : Prop} {trace : List Event}

theorem countP_isCloseConnection (h : Runs.Lawful (Event.ClosingRule mayClose) trace) :
    trace.countP Event.isCloseConnection ≤ 1 := by
  refine h.countP_le_one ?_
  intro pre event hrule hevent other hother
  cases event with
  | closeConnection =>
    cases other with
    | closeConnection => exact absurd hother hrule
    | _ => rfl
  | _ => cases hevent

theorem isClosedReport_iff {event : Event} : event.isClosedReport = true ↔ event = .stateChange .closed := by
  cases event with
  | stateChange state =>
    rw [Event.isClosedReport, decide_eq_true_eq]
    exact ⟨fun h => congrArg Event.stateChange h, Event.stateChange.inj⟩
  | _ => exact ⟨nofun, nofun⟩

theorem countP_isClosedReport (h : Runs.Lawful (Event.ClosingRule mayClose) trace) :
    trace.countP Event.isClosedReport ≤ 1 := by
  refine h.countP_le_one ?_
  intro pre event hrule hevent other hother
  rw [isClosedReport_iff.mp hevent] at hrule
  refine Bool.eq_false_of_not_eq_true fun htrue => hrule rfl ?_
  rw [← isClosedReport_iff.mp htrue]
  exact hother

theorem countP_isClosedReport_eq_one (h : Runs.Lawful (Event.ClosingRule mayClose) trace) :
    trace.countP Event.isClosedReport = 1 ↔ Event.stateChange .closed ∈ trace := by
  have hone := countP_isClosedReport h
  have hpos : 0 < trace.countP Event.isClosedReport ↔ Event.stateChange .closed ∈ trace := by
    rw [List.countP_pos_iff]
    constructor
    · rintro ⟨event, hmem, hevent⟩
      rwa [isClosedReport_iff.mp hevent] at hmem
    · exact fun hmem => ⟨_, hmem, rfl⟩
  rw [← hpos]
  omega

end count

theorem Closing.closesOnce {e : Engine P M} {returned : Bool} (h : Closing mayClose e.core)
    (hreported : returned = true → e.sessionHandler = true →
      (e.state = .closed ↔ Event.stateChange .closed ∈ e.trace)) : ClosesOnce e returned where
  connection := countP_isCloseConnection h.lawful
  report := countP_isClosedReport h.lawful
  reported hreturned hsession :=
    (hreported hreturned hsession).trans (countP_isClosedReport_eq_one h.lawful).symm
  silent pre _ post hsplit := h.lawful pre _ post hsplit

theorem closing_after (parser : Parser P) (sasl : Sasl M) {ops : List Op}
    (hops : ∀ op ∈ ops, AllowedResponses mayClose op.responses) :
    Closing mayClose (run parser sasl ops (Engine.create parser)).1.core ∧
      ClosesOnce (run parser sasl ops (Engine.create parser)).1
        (run parser sasl ops (Engine.create parser)).2 := by
  have hcreate : ClosingOutside mayClose (Engine.create parser : Engine P M).core :=
    ⟨⟨Runs.lawful_nil _, iff_of_false nofun nofun, nofun⟩, fun _ => nofun, nofun, nofun⟩
  have hafter := (runInvariant_closing sasl mayClose).run parser hops
    ⟨Engine.create_outside parser, hcreate⟩
  generalize run parser sasl ops (Engine.create parser) = result at hafter
  obtain ⟨e, returned⟩ := result
  cases returned with
  | true =>
    have hout : ClosingOutside mayClose e.core := hafter.2
    refine ⟨hout.toClosing, hout.closesOnce fun _ hsession => ?_⟩
    constructor
    · exact fun hclosed => hout.reported hclosed hsession
    · intro hmem
      by_contra hne
      exact hout.unreported hne hmem
  | false => exact ⟨hafter.2.1.toClosing, hafter.2.1.toClosing.closesOnce nofun⟩

/-- An engine closes once. No handler is called afterwards if none closes it. -/
theorem closing_run (parser : Parser P) (sasl : Sasl M) (ops : List Op) :
    ClosesOnce (run parser sasl ops (Engine.create parser)).1
        (run parser sasl ops (Engine.create parser)).2 ∧
      ((∀ op ∈ ops, ∀ r ∈ op.responses, ∀ call ∈ r.calls, call.closes = false) →
        NoCallbackAfterClosed (run parser sasl ops (Engine.create parser)).1.trace) := by
  refine ⟨(closing_after parser sasl (allowedResponses_true ops)).2, fun hnone => ?_⟩
  have hops : ∀ op ∈ ops, AllowedResponses False op.responses := by
    intro op hop r hr call hcall hcloses
    rw [hnone op hop r hr call hcall] at hcloses
    cases hcloses
  have hclosing := (closing_after parser sasl hops).1
  intro pre event post hsplit hevent
  have hrule := hclosing.lawful pre event post hsplit
  cases event with
  | handleStanza level handler stanza => exact hrule.resolve_left id
  | iqResponse handler cookie stanza => exact hrule.resolve_left id
  | _ => cases hevent

/-- A login of an engine with two handlers that look at all stanzas, and a stanza for which the first
one calls `Disconnect`. -/
def disconnectOps : List Op :=
  [.call (.setOutputHandler true), .call (.setTls .disabled), .call (.addStanzaHandler 1 .peek),
      .call (.addStanzaHandler 2 .peek), .call .connect] ++ serverLogin.map (Op.input · []) ++
    [.input (utf8 "<message/>") [⟨[.disconnect], false⟩, ⟨[], false⟩]]

/-- The second handler is called after the first one has closed the engine. -/
theorem callback_after_closed :
    ¬NoCallbackAfterClosed (run (stanzaParser (Expat.ofScanner decodeAscii)) saslPlain disconnectOps
      (Engine.create (stanzaParser (Expat.ofScanner decodeAscii)))).1.trace := by
  generalize htrace : (run _ _ disconnectOps _).1.trace = trace
  have hcalls : trace.getLast?.any (fun event => event matches .handleStanza _ _ _) = true ∧
      trace.dropLast.any (fun event => event matches .closed) = true := by
    rw [← htrace]
    decide +kernel
  intro h
  obtain ⟨event, hlast, hevent⟩ := (Option.any_eq_true _ _).mp hcalls.1
  obtain ⟨mark, hmem, hmark⟩ := List.any_eq_true.mp hcalls.2
  have hsplit : trace = trace.dropLast ++ event :: [] := (List.dropLast_append_getLast? _ hlast).symm
  cases mark with
  | closed =>
    cases event with
    | handleStanza level handler stanza => exact h _ _ _ hsplit trivial hmem
    | _ => cases hevent
  | _ => cases hmark

end Synciga.Xmpp
