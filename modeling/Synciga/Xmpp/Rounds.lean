import Synciga.Xmpp.Calls

/-!
# What a round of the login does

The part of an engine that invariants speak about is its `Core`. Each round of `Advance` but the last one comes
nearer to a state that waits, or takes the element.

## Main definitions

* `LoginTask.Round` — what one round can do to the core, so that an invariant is checked once for each case

## Main results

* `LoginTask.advance_ends` — the fourth round returns at the latest
-/

namespace Synciga.Xmpp

variable {P M : Type}

/-- What invariants of the engine speak about. -/
structure Core (M : Type) where
  entered : Nat
  state : State
  errorCode : Error
  tlsOption : TlsOptions
  loginTask : Option (LoginTask M)
  outputHandler : Bool
  sessionHandler : Bool
  output : List Output
  trace : List Event

/-- The core of an engine. -/
def Engine.core (e : Engine P M) : Core M :=
  ⟨e.entered, e.state, e.errorCode, e.tlsOption, e.loginTask, e.outputHandler, e.sessionHandler,
    e.output, e.trace⟩

namespace Core

/-- `emit`, on the core. -/
def emit (event : Event) (c : Core M) : Core M := { c with trace := c.trace ++ [event] }

/-- `put`, on the core. -/
def put (output : Output) (c : Core M) : Core M := { c with output := c.output ++ [output] }

/-- `signalError`, on the core. -/
def signalError (error : Error) (c : Core M) : Core M :=
  if c.state ≠ .closed then { c.emit .closed with errorCode := error, state := .closed } else c

/-- `startTls`, on the core. -/
def startTls (domain : List UInt8) (c : Core M) : Core M :=
  if c.outputHandler then c.emit (.startTls domain) else c

/-- `signalBound`, on the core. -/
def signalBound (c : Core M) : Core M :=
  if c.state = .opening then { c.emit .opened with state := .open } else c

end Core

namespace Engine

theorem core_signalError (error : Error) (subcode : Int) (e : Engine P M) :
    (e.signalError error subcode).core = e.core.signalError error := by
  by_cases h : e.state ≠ .closed
  · rw [signalError, if_pos h, Core.signalError, if_pos (show e.core.state ≠ .closed from h)]
    rfl
  · rw [signalError, if_neg h, Core.signalError, if_neg (show ¬e.core.state ≠ .closed from h)]

theorem core_signalStreamError (streamError : XmlElement) (e : Engine P M) :
    (e.signalStreamError streamError).core = e.core.signalError .stream := by
  by_cases h : e.state ≠ .closed
  · rw [signalStreamError, if_pos h, core_signalError]
    rfl
  · rw [signalStreamError, if_neg h, Core.signalError, if_neg (show ¬e.core.state ≠ .closed from h)]

theorem core_startTls (domain : List UInt8) (e : Engine P M) :
    ∃ domain', (e.startTls domain).core = e.core.startTls domain' := by
  refine ⟨if e.tlsServerDomain = [] then domain else e.tlsServerDomain, ?_⟩
  by_cases h : e.outputHandler = true
  · rw [startTls, if_pos h, Core.startTls, if_pos (show e.core.outputHandler = true from h)]
    rfl
  · rw [startTls, if_neg h, Core.startTls, if_neg (show ¬e.core.outputHandler = true from h)]

theorem core_signalBound (fullJid : Jid) (e : Engine P M) :
    (e.signalBound fullJid).core = e.core.signalBound := by
  by_cases h : e.state = .opening
  · rw [signalBound, if_pos h, Core.signalBound, if_pos (show e.core.state = .opening from h)]
    rfl
  · rw [signalBound, if_neg h, Core.signalBound, if_neg (show ¬e.core.state = .opening from h)]

theorem core_put_foldl (elements : List XmlElement) (e : Engine P M) :
    (elements.foldl (fun e element => e.internalSendStanza .application element) e).core =
      { e.core with output := e.core.output ++ elements.map (.stanza .application) } := by
  induction elements generalizing e with
  | nil =>
    rw [List.foldl_nil, List.map_nil, List.append_nil]
  | cons element elements ih =>
    rw [List.foldl_cons, ih, List.map_cons, List.append_cons]
    rfl

end Engine

namespace LoginTask

/-- The states between which a round goes without doing anything else. The way to authentication and to
binding is closed while TLS is required. -/
def Moves (tlsOption : TlsOptions) (s s' : LoginState) : Prop :=
  match s with
  | .streamstartSent => s' = .startedXmpp
  | .startedXmpp => s' = .tlsInit ∨ (tlsOption ≠ .required ∧ (s' = .authInit ∨ s' = .bindInit))
  | .saslRunning => s' = .init
  | _ => False

/-- What a round does to a login task and to the core of the engine. -/
inductive Round (t : LoginTask M) (c : Core M) (t' : LoginTask M) (c' : Core M) : Prop
  /-- There is no element, or the element is not for the task. -/
  | wait (hstate : t'.state = t.state) (hc : c' = c)
  | failure (error : Error) (herror : error ≠ .none) (hstate : t'.state = .done)
      (hc : c' = c.signalError error)
  | move (hstate : Moves c.tlsOption t.state t'.state) (hc : c' = c)
  /-- The stream header is sent. -/
  | header (hostname : List UInt8) (lang : String) (hfrom : t.state = .init)
      (hstate : t'.state = .streamstartSent) (hc : c' = c.put (.start hostname lang))
  /-- An element of the login task is sent. -/
  | request (element : XmlElement)
      (hstates : (t.state = .tlsInit ∧ t'.state = .tlsRequested) ∨
        (t.state = .bindInit ∧ t'.state = .bindRequested) ∨
        (t.state = .bindRequested ∧ t'.state = .sessionRequested))
      (hc : c' = c.put (.stanza .login element))
  /-- An element of the mechanism is sent. -/
  | sasl (element : XmlElement) (hfrom : t.state = .authInit ∨ t.state = .saslRunning)
      (hstate : t'.state = .saslRunning) (hc : c' = c.put (.stanza .sasl element))
  /-- TLS is started. -/
  | proceed (domain : List UInt8) (hfrom : t.state = .tlsRequested) (hstate : t'.state = .init)
      (hc : c' = { c.startTls domain with tlsOption := .enabled })

/-- The round in which the login succeeds. -/
structure Finish (t : LoginTask M) (c : Core M) (t' : LoginTask M) (c' : Core M) : Prop where
  hfrom : t.state = .sessionRequested
  hstate : t'.state = .done
  hqueue : t'.queuedStanzas = []
  hc : c' = { c.signalBound with output := c.output ++ t.queuedStanzas.map (.stanza .application) }

/-- A round leaves the queue alone and is one of the above, or it is the one in which the login
succeeds. -/
def Effect (t : LoginTask M) (c : Core M) (t' : LoginTask M) (c' : Core M) : Prop :=
  (t'.queuedStanzas = t.queuedStanzas ∧ Round t c t' c') ∨ Finish t c t' c'

section step

variable {t u : LoginTask M} {e : Engine P M}

theorem effect_failure {error : Error} (herror : error ≠ .none)
    (hqueue : u.queuedStanzas = t.queuedStanzas) :
    Effect t e.core (u.failure error e).1 (u.failure error e).2.1.core :=
  .inl ⟨hqueue, .failure error herror rfl (Engine.core_signalError error 0 e)⟩

variable {element : XmlElement}

theorem effect_stepStreamstartSent (h : t.state = .streamstartSent) :
    Effect t e.core (stepStreamstartSent element { t with stanza := none } e).1
      (stepStreamstartSent element { t with stanza := none } e).2.1.core := by
  rw [stepStreamstartSent]
  split
  · exact effect_failure nofun rfl
  · split
    · exact effect_failure nofun rfl
    · exact .inl ⟨rfl, .move (by rw [h]; rfl) rfl⟩

theorem effect_stepStartedXmpp (h : t.state = .startedXmpp) :
    Effect t e.core (stepStartedXmpp element { t with stanza := none } e).1
      (stepStartedXmpp element { t with stanza := none } e).2.1.core := by
  rw [stepStartedXmpp]
  split
  · exact effect_failure nofun rfl
  dsimp only
  split
  · exact effect_failure nofun rfl
  next hrequired =>
    split
    · exact .inl ⟨rfl, .move (by rw [h]; exact .inl rfl) rfl⟩
    next htls =>
      -- without the feature TLS is not required, and with it the branch above is taken
      have hopt : e.tlsOption ≠ .required := by
        intro heq
        rw [heq] at hrequired htls
        simp_all
      split
      · exact .inl ⟨rfl, .move (by rw [h]; exact .inr ⟨hopt, .inl rfl⟩) rfl⟩
      · exact .inl ⟨rfl, .move (by rw [h]; exact .inr ⟨hopt, .inr rfl⟩) rfl⟩

theorem effect_stepTlsRequested (h : t.state = .tlsRequested) :
    Effect t e.core (stepTlsRequested element { t with stanza := none } e).1
      (stepTlsRequested element { t with stanza := none } e).2.1.core := by
  rw [stepTlsRequested]
  split
  · exact effect_failure nofun rfl
  · obtain ⟨domain, hdomain⟩ := e.core_startTls e.userJid.domain
    refine .inl ⟨rfl, .proceed domain h rfl ?_⟩
    rw [← hdomain]
    rfl

theorem effect_stepTlsInit (h : t.state = .tlsInit) :
    Effect t e.core (t.stepTlsInit e).1 (t.stepTlsInit e).2.1.core := by
  rw [stepTlsInit]
  split
  · exact effect_failure nofun rfl
  · exact .inl ⟨rfl, .request _ (.inl ⟨h, rfl⟩) rfl⟩

variable (sasl : Sasl M)

theorem effect_stepAuthInit (h : t.state = .authInit) :
    Effect t e.core (t.stepAuthInit sasl e).1 (t.stepAuthInit sasl e).2.1.core := by
  rw [stepAuthInit]
  split
  · exact effect_failure nofun rfl
  dsimp only
  split
  · exact effect_failure nofun rfl
  · split
    · exact effect_failure nofun rfl
    · split
      · exact effect_failure nofun rfl
      · exact .inl ⟨rfl, .sasl _ (.inl h) rfl rfl⟩

theorem effect_stepSaslRunning (h : t.state = .saslRunning) :
    Effect t e.core (stepSaslRunning sasl element { t with stanza := none } e).1
      (stepSaslRunning sasl element { t with stanza := none } e).2.1.core := by
  rw [stepSaslRunning]
  split
  · exact effect_failure nofun rfl
  split
  · split
    · exact .inl ⟨rfl, .wait rfl rfl⟩
    · split
      · exact effect_failure nofun rfl
      · exact .inl ⟨rfl, .sasl _ (.inr h) h rfl⟩
  · split
    · exact effect_failure nofun rfl
    · exact .inl ⟨rfl, .move (by rw [h]; rfl) rfl⟩

theorem effect_stepBindInit (h : t.state = .bindInit) :
    Effect t e.core (t.stepBindInit e).1 (t.stepBindInit e).2.1.core := by
  rw [stepBindInit]
  split
  · exact effect_failure nofun rfl
  · exact .inl ⟨rfl, .request _ (.inr (.inl ⟨h, rfl⟩)) rfl⟩

theorem effect_stepBindRequested (h : t.state = .bindRequested) :
    Effect t e.core (stepBindRequested element { t with stanza := none } e).1
      (stepBindRequested element { t with stanza := none } e).2.1.core := by
  rw [stepBindRequested]
  split
  · exact .inl ⟨rfl, .wait rfl rfl⟩
  split
  · exact effect_failure nofun rfl
  split
  · exact effect_failure nofun rfl
  · dsimp only
    split
    · exact effect_failure nofun rfl
    · exact .inl ⟨rfl, .request _ (.inr (.inr ⟨h, rfl⟩)) rfl⟩

theorem effect_stepSessionRequested (h : t.state = .sessionRequested) :
    Effect t e.core (stepSessionRequested element { t with stanza := none } e).1
      (stepSessionRequested element { t with stanza := none } e).2.1.core := by
  rw [stepSessionRequested]
  split
  · exact .inl ⟨rfl, .wait rfl rfl⟩
  split
  · exact effect_failure nofun rfl
  · refine .inr ⟨h, rfl, rfl, ?_⟩
    dsimp only [flushQueuedStanzas]
    rw [Engine.core_put_foldl, Engine.core_signalBound]
    rw [Core.signalBound]
    split <;> rfl

theorem effect_takeStanza {k : XmlElement → LoginTask M → Engine P M → LoginTask M × Engine P M × Flow}
    (hk : ∀ element, Effect t e.core (k element { t with stanza := none } e).1
      (k element { t with stanza := none } e).2.1.core) :
    Effect t e.core (t.takeStanza e k).1 (t.takeStanza e k).2.1.core := by
  rw [takeStanza]
  split
  · exact .inl ⟨rfl, .wait rfl rfl⟩
  · exact hk _

theorem step_effect (t : LoginTask M) (e : Engine P M) :
    Effect t e.core (t.step sasl e).1 (t.step sasl e).2.1.core := by
  rw [step]
  split
  next h => exact .inl ⟨rfl, .header _ _ h rfl rfl⟩
  next h => exact effect_takeStanza fun _ => effect_stepStreamstartSent h
  next h => exact effect_takeStanza fun _ => effect_stepStartedXmpp h
  next h => exact effect_stepTlsInit h
  next h => exact effect_takeStanza fun _ => effect_stepTlsRequested h
  next h => exact effect_stepAuthInit sasl h
  next h => exact effect_takeStanza fun _ => effect_stepSaslRunning sasl h
  next h => exact effect_stepBindInit h
  next h => exact effect_takeStanza fun _ => effect_stepBindRequested h
  next h => exact effect_takeStanza fun _ => effect_stepSessionRequested h
  next h => exact .inl ⟨rfl, .wait rfl rfl⟩

end step

/-! ### The loop -/

/-- How many rounds can still follow. -/
def rank (t : LoginTask M) : Nat :=
  (if t.state ∈ [.init, .tlsInit, .authInit, .bindInit] then 1 else 0) + if t.stanza.isSome then 2 else 0

theorem rank_le (t : LoginTask M) : t.rank ≤ 3 := by
  rw [rank]
  split <;> split <;> omega

section stanza

variable {element : XmlElement} {t : LoginTask M} {e : Engine P M}

theorem stanza_stepStreamstartSent : (stepStreamstartSent element t e).1.stanza = t.stanza := by
  unfold stepStreamstartSent failure
  repeat' first | rfl | split

theorem stanza_stepStartedXmpp : (stepStartedXmpp element t e).1.stanza = t.stanza := by
  unfold stepStartedXmpp failure
  dsimp only
  repeat' first | rfl | split

theorem stanza_stepTlsRequested : (stepTlsRequested element t e).1.stanza = t.stanza := by
  unfold stepTlsRequested failure
  repeat' first | rfl | split

theorem stanza_stepSaslRunning {sasl : Sasl M} :
    (stepSaslRunning sasl element t e).1.stanza = t.stanza := by
  unfold stepSaslRunning failure
  repeat' first | rfl | split

theorem stanza_stepBindRequested : (stepBindRequested element t e).1.stanza = t.stanza := by
  unfold stepBindRequested failure
  dsimp only
  repeat' first | rfl | split

theorem stanza_stepSessionRequested : (stepSessionRequested element t e).1.stanza = t.stanza := by
  unfold stepSessionRequested failure flushQueuedStanzas
  repeat' first | rfl | split

end stanza

variable {e : Engine P M} {t : LoginTask M}

theorem rank_takeStanza {k : XmlElement → LoginTask M → Engine P M → LoginTask M × Engine P M × Flow}
    (hk : ∀ {element u e}, (k element u e).1.stanza = u.stanza)
    (h : (t.takeStanza e k).2.2 = .continue) : (t.takeStanza e k).1.rank < t.rank := by
  rw [takeStanza] at h ⊢
  split at h
  · cases h
  next element hstanza =>
    rw [rank, rank, hk, hstanza]
    split <;> simp

theorem rank_lt {t t' : LoginTask M} (hstanza : t'.stanza = t.stanza)
    (ht : t.state ∈ [.init, .tlsInit, .authInit, .bindInit])
    (ht' : t'.state ∉ [.init, .tlsInit, .authInit, .bindInit]) : t'.rank < t.rank := by
  rw [rank, rank, if_pos ht, if_neg ht', hstanza]
  omega

variable (sasl : Sasl M)

theorem step_rank (h : (t.step sasl e).2.2 = .continue) : (t.step sasl e).1.rank < t.rank := by
  rw [step] at h ⊢
  split at h
  next hstate => exact rank_lt rfl (by simp [hstate]) (by simp [stepInit])
  · exact rank_takeStanza stanza_stepStreamstartSent h
  · exact rank_takeStanza stanza_stepStartedXmpp h
  next hstate =>
    rw [stepTlsInit] at h ⊢
    split at h
    · cases h
    · exact rank_lt rfl (by simp [hstate]) (by simp)
  · exact rank_takeStanza stanza_stepTlsRequested h
  next hstate =>
    rw [stepAuthInit] at h ⊢
    split at h
    · cases h
    dsimp only at h ⊢
    split at h
    · cases h
    next hchoice =>
      rw [if_neg hchoice]
      split at h
      · cases h
      · split at h
        · cases h
        · exact rank_lt rfl (by simp [hstate]) (by simp)
  · exact rank_takeStanza stanza_stepSaslRunning h
  next hstate =>
    rw [stepBindInit] at h ⊢
    split at h
    · cases h
    next hfeatures =>
      rw [if_neg hfeatures]
      exact rank_lt rfl (by simp [hstate]) (by simp)
  · exact rank_takeStanza stanza_stepBindRequested h
  · exact rank_takeStanza stanza_stepSessionRequested h
  · cases h

/-- The loop of the source, which has no bound, ends with the result behind so many rounds: all but the last
go on, and the last returns. -/
inductive Ends (sasl : Sasl M) : Nat → LoginTask M → Engine P M → LoginTask M × Engine P M → Prop
  | last {t t' : LoginTask M} {e e' : Engine P M} (h : t.step sasl e = (t', e', .return)) :
      Ends sasl 1 t e (t', e')
  | round {n : Nat} {t t' : LoginTask M} {e e' : Engine P M} {result : LoginTask M × Engine P M}
      (h : t.step sasl e = (t', e', .continue)) (hrest : Ends sasl n t' e' result) :
      Ends sasl (n + 1) t e result

theorem ends_of_rank {k : Nat} (hk : t.rank < k) (e : Engine P M) :
    ∃ n ≤ k, Ends sasl n t e (advanceLoop sasl k t e) := by
  induction k generalizing t e with
  | zero => exact absurd hk (Nat.not_lt_zero _)
  | succ k ih =>
    rw [advanceLoop]
    split
    next t' e' hstep =>
      have hrank : t'.rank < t.rank := by
        have hlt := step_rank sasl (t := t) (e := e) (by rw [hstep])
        rwa [hstep] at hlt
      obtain ⟨n, hn, hends⟩ := ih (t := t') (by omega) e'
      exact ⟨n + 1, Nat.succ_le_succ hn, .round hstep hends⟩
    next hstep => exact ⟨1, Nat.succ_pos k, .last hstep⟩

/-- The loop of the source returns in the fourth round at the latest, with what `advance` gives. -/
theorem advance_ends (t : LoginTask M) (e : Engine P M) : ∃ n ≤ 4, Ends sasl n t e (t.advance sasl e) :=
  ends_of_rank sasl (Nat.lt_succ_of_le t.rank_le) e

theorem advanceLoop_induction {J : LoginState → List XmlElement → Core M → Prop}
    (hJ : ∀ {t c t' c'}, J t.state t.queuedStanzas c → Effect t c t' c' → J t'.state t'.queuedStanzas c')
    {n : Nat} (h : J t.state t.queuedStanzas e.core) :
    J (advanceLoop sasl n t e).1.state (advanceLoop sasl n t e).1.queuedStanzas
      (advanceLoop sasl n t e).2.core := by
  induction n generalizing t e with
  | zero => exact h
  | succ n ih =>
    have hstep := hJ h (step_effect sasl t e)
    rw [advanceLoop]
    split
    next heq =>
      rw [heq] at hstep
      exact ih hstep
    next heq =>
      rw [heq] at hstep
      exact hstep

end LoginTask

/-- What every round keeps is kept when the login task gets an element. -/
theorem Engine.loginStanza_induction (sasl : Sasl M) {J : LoginState → List XmlElement → Core M → Prop}
    (hJ : ∀ {t c t' c'}, J t.state t.queuedStanzas c → LoginTask.Effect t c t' c' →
      J t'.state t'.queuedStanzas c')
    {t : LoginTask M} {e : Engine P M} (element : Option XmlElement) (isStart : Bool)
    (h : J t.state t.queuedStanzas e.core) :
    ∃ (t' : LoginTask M) (c' : Core M), J t'.state t'.queuedStanzas c' ∧
      (e.loginStanza sasl element isStart t).core =
        { c' with loginTask := if t'.state = .done then none else some t' } :=
  ⟨(t.incomingStanza sasl element isStart e).1, (t.incomingStanza sasl element isStart e).2.core,
    LoginTask.advanceLoop_induction sasl hJ (n := 4)
      (t := { t with stanza := element, isStart := isStart }) h, rfl⟩

end Synciga.Xmpp
