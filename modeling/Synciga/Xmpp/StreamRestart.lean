import Synciga.Xmpp.EngineRuns
import Synciga.Xmpp.StanzaParser

/-!
# What follows the element that restarts the stream

The answers `<proceed/>` to the request for TLS and `<success/>` of the authentication restart the stream. The
rest of the chunk was not sent under the new conditions. It reaches the parser, but because a reset was raised
the engine ignores what is found, and the reset leaves nothing of it in the parser.

## Main definitions

* `Expat.Regular` — what is documented of expat

## Main results

* `handleInput_eq_of_restart` — it makes no difference what follows the element
-/

namespace Synciga

/-- What is assumed of expat. A parser that was reset is like a new one. What is called back up to the end of an
element does not depend on what follows in the buffer. -/
structure Expat.Regular {σ : Type} (expat : Expat σ) : Prop where
  reset : ∀ s, (expat.reset s).1 = true → (expat.reset s).2 = expat.create
  causal : ∀ s p x cs name, (expat.parse s p false).2.1 = cs ++ [.endElement name] →
    ∃ more, (expat.parse s (p ++ x) false).2.1 = cs ++ .endElement name :: more

theorem Expat.regular_ofScanner {decode : List UInt8 → List Char}
    (hdecode : ∀ p x, ∃ ds, decode (p ++ x) = decode p ++ ds) : (Expat.ofScanner decode).Regular := by
  refine ⟨fun _ _ => rfl, ?_⟩
  intro s p x cs name hcs
  obtain ⟨ds, hds⟩ := hdecode p x
  refine ⟨((s.feed (decode p)).1.feed ds).2.map Callback.ofToken, ?_⟩
  have happend : ((Expat.ofScanner decode).parse s (p ++ x) false).2.1 =
      ((Expat.ofScanner decode).parse s p false).2.1 ++
        ((s.feed (decode p)).1.feed ds).2.map Callback.ofToken := by
    dsimp only [Expat.ofScanner]
    rw [hds, XmlScanner.State.feed_append, List.map_append]
  rw [happend, hcs, List.append_assoc]
  rfl

namespace Xmpp

variable {σ P M : Type}

/-! ### The parser -/

theorem StanzaHandler.events_startElement (s : XmlnsStack) (name : String) (atts : List (String × String))
    (h : StanzaHandler) : h.events <+: (h.startElement s name atts).1.events := by
  rw [startElement]
  split
  · split
    · exact List.prefix_rfl
    · exact List.prefix_append _ _
  · exact List.prefix_rfl

theorem StanzaHandler.events_endElement (name : String) (h : StanzaHandler) :
    h.events <+: (h.endElement name).events := by
  rw [endElement]
  dsimp only
  split
  · exact List.prefix_append _ _
  · split
    · split
      · exact List.prefix_rfl
      · exact List.prefix_append _ _
    · exact List.prefix_rfl

variable (p : XmlParser σ)

theorem events_callback (h : StanzaHandler) (c : Callback) :
    h.events <+: (p.callback StanzaHandler.handler h c).2.events := by
  unfold XmlParser.callback
  split
  · exact List.prefix_rfl
  cases c with
  | startElement name atts =>
    have hstart := fun s => h.events_startElement s name atts
    dsimp only
    rw [XmlParser.expatStartElement]
    split
    · exact List.prefix_rfl
    next s _ =>
      specialize hstart s
      split
      next heq =>
        rw [show h.startElement s name atts = _ from heq] at hstart
        exact hstart
      next heq =>
        rw [show h.startElement s name atts = _ from heq] at hstart
        exact hstart
  | endElement name => exact h.events_endElement name
  | characterData text =>
    dsimp only [StanzaHandler.handler]
    rw [StanzaHandler.characterData]
    split <;> exact List.prefix_rfl
  | xmlDecl version encoding standalone => exact List.prefix_rfl

theorem callbacks_append (h : StanzaHandler) (cs ds : List Callback) :
    p.callbacks StanzaHandler.handler h (cs ++ ds) =
      (p.callbacks StanzaHandler.handler h cs).1.callbacks StanzaHandler.handler
        (p.callbacks StanzaHandler.handler h cs).2 ds :=
  List.foldl_append

theorem events_callbacks (h : StanzaHandler) (cs : List Callback) :
    h.events <+: (p.callbacks StanzaHandler.handler h cs).2.events := by
  induction cs generalizing p h with
  | nil => exact List.prefix_rfl
  | cons c cs ih => exact (events_callback p h c).trans (ih _ _)

/-- `Parse`, by what expat calls back. An error is told at the end. -/
theorem StanzaParser.parse_events (expat : Expat σ) (p : StanzaParser σ) (data : List UInt8) :
    (p.parse expat data).2 = [] ∧ p.parser.sentError = true ∨
      ∃ errors, (∀ event ∈ errors, event = .xmlError) ∧ p.parser.sentError = false ∧
        (p.parse expat data).2 = (p.parser.callbacks StanzaHandler.handler ⟨p.depth, p.builder, []⟩
          (expat.parse p.parser.expat data false).2.1).2.events ++ errors := by
  rw [StanzaParser.parse, XmlParser.parse]
  dsimp only
  by_cases hsent : p.parser.sentError = true
  · rw [if_pos hsent]
    exact .inl ⟨rfl, hsent⟩
  rw [if_neg hsent]
  have hfalse := Bool.eq_false_of_not_eq_true hsent
  split <;> split
  · exact .inr ⟨[.xmlError], List.forall_mem_singleton.mpr rfl, hfalse, rfl⟩
  · exact .inr ⟨[], nofun, hfalse, (List.append_nil _).symm⟩
  · exact .inr ⟨[.xmlError], List.forall_mem_singleton.mpr rfl, hfalse, rfl⟩
  · exact .inr ⟨[], nofun, hfalse, (List.append_nil _).symm⟩

variable {element : XmlElement}

theorem StanzaParser.parse_append {expat : Expat σ} (hexpat : expat.Regular) {p : StanzaParser σ}
    {data : List UInt8} {cs : List Callback} {name : String}
    (hend : (expat.parse p.parser.expat data false).2.1 = cs ++ [.endElement name])
    {before : List ParseEvent}
    (htold : (p.parse expat data).2 = before ++ [.stanza element]) (x : List UInt8) :
    ∃ rest, (p.parse expat (data ++ x)).2 = before ++ .stanza element :: rest := by
  rcases parse_events expat p data with ⟨hnil, -⟩ | ⟨errors, herrors, hfalse, hdata⟩
  · rw [htold] at hnil
    exact absurd hnil (by simp)
  rcases parse_events expat p (data ++ x) with ⟨-, htrue⟩ | ⟨errors', -, -, hdata'⟩
  · rw [hfalse] at htrue
    cases htrue
  obtain ⟨more, hmore⟩ := hexpat.causal _ data x cs name hend
  rw [hend, htold] at hdata
  rw [hmore, List.append_cons, callbacks_append] at hdata'
  -- the last thing told is an element, so that there was no error
  have herrors_nil : errors = [] := by
    rcases List.eq_nil_or_concat errors with hnil | ⟨init, last, rfl⟩
    · exact hnil
    · have hlast := herrors last (by simp)
      rw [hlast, List.concat_eq_append, ← List.append_assoc] at hdata
      cases (List.append_inj' hdata rfl).2
  rw [herrors_nil, List.append_nil] at hdata
  obtain ⟨rest, hrest⟩ := events_callbacks
    (p.parser.callbacks StanzaHandler.handler ⟨p.depth, p.builder, []⟩ (cs ++ [.endElement name])).1
    (p.parser.callbacks StanzaHandler.handler ⟨p.depth, p.builder, []⟩ (cs ++ [.endElement name])).2 more
  refine ⟨rest ++ errors', ?_⟩
  rw [hdata', ← hrest, ← hdata]
  simp only [List.append_assoc, List.cons_append, List.nil_append]

theorem StanzaParser.reset_eq {expat : Expat σ} (hexpat : expat.Regular) (p : StanzaParser σ) :
    p.reset expat = StanzaParser.create expat := by
  have hreset : (if (expat.reset p.parser.expat).1 then (expat.reset p.parser.expat).2
      else expat.create) = expat.create := by
    split
    next h => exact hexpat.reset _ h
    · rfl
  rw [StanzaParser.reset, XmlParser.reset, hreset]
  rfl

/-! ### The engine -/

namespace Engine

variable {parser : Parser P} {sasl : Sasl M} {e : Engine P M}

theorem incomingEvents_append (events events' : List ParseEvent) (rs : List Response) :
    e.incomingEvents parser sasl (events ++ events') rs =
      match e.incomingEvents parser sasl events rs with
      | (e, some rs) => e.incomingEvents parser sasl events' rs
      | (e, none) => (e, none) := by
  induction events generalizing e rs with
  | nil => rfl
  | cons event events ih =>
    rw [List.cons_append, incomingEvents, incomingEvents]
    split
    · exact ih _
    · rfl

theorem incomingEvents_of_raisedReset (h : e.raisedReset = true) (events : List ParseEvent)
    (rs : List Response) : e.incomingEvents parser sasl events rs = (e, some rs) := by
  induction events with
  | nil => rfl
  | cons event events ih =>
    have hignored : e.incomingEvent parser sasl event rs = (e, some rs) := by
      cases event with
      | startStream stream => rw [incomingEvent, incomingStart, if_pos (.inr h)]
      | stanza stanza => rw [incomingEvent, incomingStanza, if_pos (.inr h)]
      | endStream => rw [incomingEvent, incomingEnd, if_pos (.inr h)]
      | xmlError => rw [incomingEvent, incomingEnd, if_pos (.inr h)]
    rw [incomingEvents, hignored]
    exact ih

end Engine

/-- The element restarts the stream: it is the answer that the login task waits for. -/
def Restarts (t : LoginTask M) (element : XmlElement) : Prop :=
  (t.state = .tlsRequested ∧ element.name = qnTlsProceed) ∨
    (t.state = .saslRunning ∧ element.name = qnSaslSuccess)

theorem LoginTask.raisedReset_advance {sasl : Sasl M} {e : Engine P M} {t : LoginTask M}
    (hstanza : t.stanza = some element) (h : Restarts t element) :
    (t.advance sasl e).2.raisedReset = true := by
  rcases h with ⟨hstate, hname⟩ | ⟨hstate, hname⟩
  · simp [advance, advanceLoop, step, takeStanza, stepTlsRequested, hstate, hstanza, hname, stepInit,
      Engine.internalSendStart, Engine.put, Engine.raiseReset]
  · have hns : qnSaslSuccess.ns = nsSasl := rfl
    have hchallenge : qnSaslSuccess ≠ qnSaslChallenge := by decide
    simp [advance, advanceLoop, step, takeStanza, stepSaslRunning, hstate, hstanza, hname, hns, hchallenge,
      stepInit, Engine.internalSendStart, Engine.put, Engine.raiseReset]

theorem Engine.raisedReset_incomingStanza (parser : Parser P) (sasl : Sasl M) {e : Engine P M}
    {t : LoginTask M} (rs : List Response)
    (hok : ¬(e.hasError = true ∨ e.raisedReset = true)) (ht : e.loginTask = some t)
    (h : Restarts t element) :
    ∃ e', e.incomingStanza parser sasl element rs = (e', some rs) ∧ e'.raisedReset = true := by
  have hname : element.name ≠ qnStreamError := by
    rcases h with ⟨-, heq⟩ | ⟨-, heq⟩ <;> rw [heq] <;> decide
  refine ⟨e.loginStanza sasl (some element) false t, ?_, ?_⟩
  · rw [incomingStanza, if_neg hok, if_neg hname, ht]
  · exact LoginTask.raisedReset_advance (t := { t with stanza := some element, isStart := false }) rfl h

theorem runInvariant_true (sasl : Sasl M) : RunInvariant sasl P True (fun _ => True) (fun _ => True) where
  setting _ _ _ _ _ _ := trivial
  connect _ _ _ _ _ := trivial
  bracket _ _ _ _ := trivial
  start _ _ _ := trivial
  finish _ _ _ := trivial
  nested _ _ _ _ _ _ := trivial
  offer _ _ _ _ := trivial
  login _ _ _ _ _ _ := trivial
  error _ _ _ := trivial

theorem entered_incomingEvents {parser : Parser P} {sasl : Sasl M} {e e' : Engine P M}
    (hout : e.core.Outside) (hstate : e.state = .opening ∨ e.state = .open) {events : List ParseEvent}
    {rs rs' : List Response} (h : e.enter.incomingEvents parser sasl events rs = (e', some rs')) :
    e'.entered = 1 := by
  have hinside : e.core.enter.Inside := by
    refine ⟨congrArg (· + 1) hout.entered, ?_, ?_⟩
    · rcases hstate with heq | heq <;> exact heq.trans_ne nofun
    · intro hlogin
      exact ⟨hout.login hlogin, fun _ => hstate.resolve_right (hout.login hlogin)⟩
  have hevents := (runInvariant_true (P := P) sasl).incomingEvents parser (e := e.enter) events
    (show AllowedResponses True rs from fun _ _ _ _ _ => trivial) ⟨hinside, trivial⟩
  rw [h] at hevents
  exact hevents.1.entered

namespace Engine

theorem flush_withParser (e : Engine P M) (q : P) :
    { e with parser := q }.flush = { e.flush with parser := q } := by
  unfold flush
  split <;> rfl

theorem exitOutput_withParser (saved : State) (e : Engine P M) (q : P) :
    { e with parser := q }.exitOutput saved = { e.exitOutput saved with parser := q } := by
  unfold exitOutput
  rw [flush_withParser]
  dsimp only
  split
  · split <;> rfl
  · rfl

theorem exitOutput_raisedReset (saved : State) (e : Engine P M) :
    (e.exitOutput saved).raisedReset = e.raisedReset := by
  unfold exitOutput flush
  dsimp only
  repeat' first | rfl | split

theorem exitOutermost_withParser {parser : Parser P} {p : P} (hreset : ∀ q, parser.reset q = p)
    (saved : State) {e : Engine P M} (hraised : e.raisedReset = true) (q : P) :
    { e with parser := q }.exitOutermost parser saved = e.exitOutermost parser saved := by
  unfold exitOutermost
  simp only [hraised, if_true, hreset]

theorem exit_of_raisedReset {parser : Parser P} {p : P} (hreset : ∀ q, parser.reset q = p)
    {e : Engine P M} (hentered : e.entered = 1) (hraised : e.raisedReset = true) (saved : State) (q : P) :
    { e with parser := q }.exit parser saved = e.exit parser saved := by
  have hout := exitOutput_withParser saved { e with entered := e.entered - 1 } q
  have hzero : (exitOutput saved { e with entered := e.entered - 1 }).entered = 0 := by
    have hfields := ((({ e with entered := e.entered - 1 } : Engine P M).core).exitOutput_fields saved).1
    rw [← core_exitOutput] at hfields
    rw [show (exitOutput saved { e with entered := e.entered - 1 }).entered = e.entered - 1 from hfields,
      hentered]
  have hreset' : (exitOutput saved { e with entered := e.entered - 1 }).raisedReset = true := by
    rw [exitOutput_raisedReset]
    exact hraised
  unfold exit
  rw [hout, if_neg (not_not.mpr hzero), if_neg (not_not.mpr hzero)]
  exact exitOutermost_withParser hreset saved hreset' q

/-- The rest of the chunk makes no difference. -/
theorem handleInput_of_restart {expat : Expat σ} (hexpat : expat.Regular) {sasl : Sasl M}
    {e e₁ : Engine (StanzaParser σ) M} (hout : e.core.Outside) {p : List UInt8} {cs : List Callback}
    {name : String} (hend : (expat.parse e.parser.parser.expat p false).2.1 = cs ++ [.endElement name])
    {before : List ParseEvent} {element : XmlElement}
    (htold : (e.parser.parse expat p).2 = before ++ [.stanza element]) {rs rs₁ : List Response}
    (hbefore : e.enter.incomingEvents (stanzaParser expat) sasl before rs = (e₁, some rs₁))
    {t : LoginTask M} (hok : ¬(e₁.hasError = true ∨ e₁.raisedReset = true)) (ht : e₁.loginTask = some t)
    (hrestart : Restarts t element) :
    ∃ result, ∀ x, e.handleInput (stanzaParser expat) sasl (p ++ x) rs = result := by
  by_cases hstate : e.state ≠ .opening ∧ e.state ≠ .open
  · exact ⟨_, fun x => by rw [handleInput, if_pos hstate]⟩
  have hstates : e.state = .opening ∨ e.state = .open := by
    rwa [not_and_or, not_not, not_not] at hstate
  obtain ⟨e', hstanza, hraised⟩ := raisedReset_incomingStanza (stanzaParser expat) sasl rs₁ hok ht hrestart
  refine ⟨(e'.exit (stanzaParser expat) e.state, some .ok), fun x => ?_⟩
  obtain ⟨rest, hrest⟩ := StanzaParser.parse_append hexpat hend htold x
  have hevents : e.enter.incomingEvents (stanzaParser expat) sasl
      (e.parser.parse expat (p ++ x)).2 rs = (e', some rs₁) := by
    rw [hrest, incomingEvents_append, hbefore]
    dsimp only
    rw [incomingEvents, incomingEvent, hstanza]
    exact incomingEvents_of_raisedReset hraised rest rs₁
  have hentered : e'.entered = 1 := entered_incomingEvents hout hstates hevents
  rw [handleInput, if_neg hstate]
  dsimp only [stanzaParser] at hevents ⊢
  rw [hevents]
  dsimp only
  rw [exit_of_raisedReset (StanzaParser.reset_eq hexpat) hentered hraised]

end Engine

/-- Two chunks that agree up to the end of an element that restarts the stream make no difference to an
engine, at any time. -/
theorem handleInput_eq_of_restart {expat : Expat σ} (hexpat : expat.Regular) {sasl : Sasl M}
    {ops : List Op} {e e₁ : Engine (StanzaParser σ) M}
    (hrun : run (stanzaParser expat) sasl ops (Engine.create (stanzaParser expat)) = (e, true))
    {p : List UInt8} {cs : List Callback} {name : String}
    (hend : (expat.parse e.parser.parser.expat p false).2.1 = cs ++ [.endElement name])
    {before : List ParseEvent} {element : XmlElement}
    (htold : (e.parser.parse expat p).2 = before ++ [.stanza element]) {rs rs₁ : List Response}
    (hbefore : e.enter.incomingEvents (stanzaParser expat) sasl before rs = (e₁, some rs₁))
    {t : LoginTask M} (hok : ¬(e₁.hasError = true ∨ e₁.raisedReset = true)) (ht : e₁.loginTask = some t)
    (hrestart : Restarts t element) (x₁ x₂ : List UInt8) :
    e.handleInput (stanzaParser expat) sasl (p ++ x₁) rs =
        e.handleInput (stanzaParser expat) sasl (p ++ x₂) rs ∧
      ∀ ops', run (stanzaParser expat) sasl (.input (p ++ x₁) rs :: ops') e =
        run (stanzaParser expat) sasl (.input (p ++ x₂) rs :: ops') e := by
  have hafter := (runInvariant_true sasl).run (stanzaParser expat) (allowedResponses_true ops)
    ⟨Engine.create_outside (stanzaParser expat), trivial⟩
  rw [hrun] at hafter
  obtain ⟨result, hresult⟩ := Engine.handleInput_of_restart hexpat hafter.1 hend htold hbefore hok ht
    hrestart
  have hinput : e.handleInput (stanzaParser expat) sasl (p ++ x₁) rs =
      e.handleInput (stanzaParser expat) sasl (p ++ x₂) rs :=
    (hresult x₁).trans (hresult x₂).symm
  refine ⟨hinput, fun ops' => ?_⟩
  rw [run, run, hinput]

/-- A login up to the request for TLS. -/
def tlsRequestedOps : List Op :=
  [.call (.setOutputHandler true), .call .connect, .input serverStream [],
    .input (serverFeatures serverStarttls) []]

/-- The one element that was told. -/
def onlyStanza : List ParseEvent → Option XmlElement
  | [.stanza element] => some element
  | _ => none

theorem onlyStanza_eq_some {events : List ParseEvent} :
    onlyStanza events = some element ↔ events = [] ++ [.stanza element] := by
  rw [List.nil_append]
  constructor
  · intro h
    unfold onlyStanza at h
    split at h
    · rw [Option.some.inj h]
    · cases h
  · rintro rfl
    rfl

/-- Whatever follows `<proceed/>` is ignored. -/
theorem handleInput_eq_of_proceed :
    ∃ e : Engine (StanzaParser XmlScanner.State) Unit,
      run (stanzaParser (Expat.ofScanner decodeAscii)) saslPlain tlsRequestedOps
          (Engine.create (stanzaParser (Expat.ofScanner decodeAscii))) = (e, true) ∧
        ∀ x₁ x₂,
          e.handleInput (stanzaParser (Expat.ofScanner decodeAscii)) saslPlain
              (serverProceed ++ x₁) [] =
            e.handleInput (stanzaParser (Expat.ofScanner decodeAscii)) saslPlain
              (serverProceed ++ x₂) [] := by
  generalize hrun : run _ _ tlsRequestedOps _ = result
  have hstate : result.2 = true ∧ ¬(result.1.hasError = true ∨ result.1.raisedReset = true) ∧
      result.1.loginTask.any (fun t => t.state = .tlsRequested) = true ∧
      ((Expat.ofScanner decodeAscii).parse result.1.parser.parser.expat serverProceed false).2.1 =
        [.startElement "proceed" [("xmlns", "urn:ietf:params:xml:ns:xmpp-tls")]] ++
          [.endElement "proceed"] ∧
      (onlyStanza (result.1.parser.parse (Expat.ofScanner decodeAscii) serverProceed).2).any
        (fun element => element.name = qnTlsProceed) = true := by
    rw [← hrun]
    decide +kernel
  obtain ⟨e, returned⟩ := result
  obtain ⟨rfl, hok, hlogin, hend, htold⟩ := hstate
  obtain ⟨t, ht, hrequested⟩ := (Option.any_eq_true _ _).mp hlogin
  obtain ⟨element, helement, hname⟩ := (Option.any_eq_true _ _).mp htold
  refine ⟨e, rfl, fun x₁ x₂ => ?_⟩
  have hregular : (Expat.ofScanner decodeAscii).Regular :=
    Expat.regular_ofScanner fun p x => ⟨decodeAscii x, List.map_append⟩
  exact (handleInput_eq_of_restart hregular hrun hend (onlyStanza_eq_some.mp helement) rfl hok ht
    (.inl ⟨of_decide_eq_true hrequested, of_decide_eq_true hname⟩) x₁ x₂).1

end Xmpp

end Synciga
