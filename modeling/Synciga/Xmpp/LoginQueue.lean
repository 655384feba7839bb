import Synciga.Internal.Runs
import Synciga.Xmpp.EngineRuns
import Synciga.Xmpp.StanzaParser

/-!
# Stanzas that are sent during the login

A stanza that is passed to `SendStanza` while the login goes on is queued by the login task. When the session is
there the queue is put into the buffer, in the round in which the state becomes `STATE_OPEN`; later stanzas are
put there directly. If the login fails, the queue is deleted with the task.

## Main definitions

* `LoginOrder` — the stanzas that are written are the first ones of those that were sent, in their order

## Main results

* `login_queue_run` — in every run, and all of them once `STATE_OPEN` is reached with an output handler
-/

namespace Synciga.Xmpp

variable {P M : Type}

/-- The element, if the application has sent it. -/
def Output.application : Output → Option XmlElement
  | stanza .application element => some element
  | _ => none

/-- The elements in a buffer that the application has sent. -/
def applications (output : List Output) : List XmlElement := output.filterMap Output.application

/-- The element that was passed to `SendStanza`. -/
def Event.sentElement : Event → Option XmlElement
  | sent element => some element
  | _ => none

variable (trace : List Event)

/-- The elements that were passed to `SendStanza`, in order. -/
def sentElements : List XmlElement := trace.filterMap Event.sentElement

/-- The elements of the application that an event writes. -/
def Event.writes : Event → List XmlElement
  | writeOutput output => applications output
  | _ => []

/-- The elements of the application that were written, in order. -/
def writtenElements : List XmlElement := trace.flatMap Event.writes

/-- Nothing of the application is written before the state is `STATE_OPEN`. -/
def OpenFirst : Prop :=
  ∀ pre output post, trace = pre ++ .writeOutput output :: post → applications output ≠ [] →
    Event.opened ∈ pre

@[simp] theorem applications_append (output output' : List Output) :
    applications (output ++ output') = applications output ++ applications output' :=
  List.filterMap_append

@[simp] theorem sentElements_append (trace trace' : List Event) :
    sentElements (trace ++ trace') = sentElements trace ++ sentElements trace' :=
  List.filterMap_append

@[simp] theorem writtenElements_append (trace trace' : List Event) :
    writtenElements (trace ++ trace') = writtenElements trace ++ writtenElements trace' :=
  List.flatMap_append

theorem writtenElements_singleton (event : Event) : writtenElements [event] = event.writes :=
  List.append_nil _

theorem applications_map (elements : List XmlElement) :
    applications (elements.map (.stanza .application)) = elements := by
  rw [applications, List.filterMap_map]
  exact List.filterMap_some

theorem applications_of_empty {output : List Output} (h : ¬output.any Output.nonempty = true) :
    applications output = [] := by
  rw [applications, List.filterMap_eq_nil_iff]
  intro o ho
  cases o with
  | stanza origin element => exact absurd (List.any_eq_true.mpr ⟨_, ho, rfl⟩) h
  | start hostname lang => rfl
  | raw text => rfl
  | close => rfl

/-- An event that neither writes nor sends nor opens. -/
def Event.IsNeutral (event : Event) : Prop :=
  (∀ output, event ≠ .writeOutput output) ∧ event.sentElement = none ∧ event ≠ .opened

variable {event : Event}

theorem Event.IsNeutral.written (h : event.IsNeutral) : event.writes = [] := by
  cases event with
  | writeOutput output => exact absurd rfl (h.1 output)
  | _ => rfl

theorem Event.IsNeutral.of_isCallback (h : event.IsCallback) : event.IsNeutral := by
  cases event with
  | handleStanza level handler stanza => exact ⟨nofun, rfl, nofun⟩
  | iqResponse handler cookie stanza => exact ⟨nofun, rfl, nofun⟩
  | _ => cases h

theorem Event.isNeutral_closed : Event.closed.IsNeutral := ⟨nofun, rfl, nofun⟩

/-! ### The invariant -/

/-- Nothing of the application has got as far as the buffer. -/
structure Unwritten (output : List Output) (trace : List Event) : Prop where
  output : applications output = []
  trace : writtenElements trace = []

/-- The login goes on: all that was sent is in the queue. -/
structure Waiting (queue : List XmlElement) (output : List Output) (trace : List Event) : Prop where
  opened : Event.opened ∉ trace
  unwritten : Unwritten output trace
  queue : queue = sentElements trace

/-- The login is done: all that was sent was written or is in the buffer, or the engine is closed. -/
def Finished (state : State) (output : List Output) (trace : List Event) : Prop :=
  (Event.opened ∈ trace ∧ writtenElements trace ++ applications output = sentElements trace) ∨
    (Event.opened ∉ trace ∧ state = .closed ∧ Unwritten output trace)

/-- Before the connection is started nothing is in the buffer. -/
structure AtStart (c : Core M) : Prop where
  login : c.loginTask ≠ none
  output : c.output = []

/-- The invariant. What is in the buffer will be written, unless no output handler was set when the connection
was started. -/
structure Queue (unset : Prop) (c : Core M) : Prop where
  first : OpenFirst c.trace
  login : ∀ t, c.loginTask = some t → t.state ≠ .done ∧ Waiting t.queuedStanzas c.output c.trace
  done : c.loginTask = none → Finished c.state c.output c.trace
  handler : unset ∨ c.outputHandler = true ∨ (c.state = .closed ∧ c.output = [])
  start : c.state = .start → unset ∧ AtStart c

/-- Between the calls from outside the buffer is empty, or there is no output handler. -/
def Emptied (c : Core M) : Prop := c.output = [] ∨ c.outputHandler = false

theorem openFirst_append {trace : List Event} (h : OpenFirst trace)
    (hevent : event.writes ≠ [] → Event.opened ∈ trace) : OpenFirst (trace ++ [event]) := by
  have hlawful : Runs.Lawful (fun pre (event : Event) => event.writes ≠ [] → Event.opened ∈ pre)
      trace := by
    intro pre event post hsplit
    cases event with
    | writeOutput output => exact h pre output post hsplit
    | _ => exact fun hne => absurd rfl hne
  intro pre output post hsplit
  exact hlawful.append hevent pre _ post hsplit

variable {unset : Prop}

section emit

variable {event : Event} {state : State} {output : List Output} {trace : List Event}

theorem Event.IsNeutral.opened_iff (h : event.IsNeutral) (trace : List Event) :
    Event.opened ∈ trace ++ [event] ↔ Event.opened ∈ trace := by
  rw [List.mem_append, List.mem_singleton, or_iff_left fun heq => h.2.2 heq.symm]

theorem Event.IsNeutral.sent_append (h : event.IsNeutral) (trace : List Event) :
    sentElements (trace ++ [event]) = sentElements trace := by
  have hnone : sentElements [event] = [] := List.filterMap_cons_none h.2.1
  rw [sentElements_append, hnone, List.append_nil]

theorem Event.IsNeutral.written_append (h : event.IsNeutral) (trace : List Event) :
    writtenElements (trace ++ [event]) = writtenElements trace := by
  rw [writtenElements_append, writtenElements_singleton, h.written, List.append_nil]

theorem Unwritten.emit (h : Unwritten output trace) (hevent : event.IsNeutral) :
    Unwritten output (trace ++ [event]) :=
  ⟨h.output, (hevent.written_append trace).trans h.trace⟩

theorem Waiting.emit {queue : List XmlElement} (h : Waiting queue output trace)
    (hevent : event.IsNeutral) : Waiting queue output (trace ++ [event]) :=
  ⟨mt (hevent.opened_iff trace).mp h.opened, h.unwritten.emit hevent,
    h.queue.trans (hevent.sent_append trace).symm⟩

theorem Finished.emit (h : Finished state output trace) (hevent : event.IsNeutral) :
    Finished state output (trace ++ [event]) := by
  rcases h with ⟨hopened, hsent⟩ | ⟨hopened, hclosed, hunwritten⟩
  · refine .inl ⟨(hevent.opened_iff trace).mpr hopened, ?_⟩
    rw [hevent.written_append, hevent.sent_append, hsent]
  · exact .inr ⟨mt (hevent.opened_iff trace).mp hopened, hclosed, hunwritten.emit hevent⟩

theorem Finished.close (h : Finished state output trace) : Finished .closed output trace := by
  rcases h with hleft | ⟨hopened, -, hunwritten⟩
  · exact .inl hleft
  · exact .inr ⟨hopened, rfl, hunwritten⟩

theorem OpenFirst.emit (h : OpenFirst trace) (hevent : event.IsNeutral) : OpenFirst (trace ++ [event]) :=
  openFirst_append h fun hne => absurd hevent.written hne

theorem Queue.emit {c : Core M} (h : Queue unset c) (hevent : event.IsNeutral) :
    Queue unset (c.emit event) := by
  refine ⟨h.first.emit hevent, fun t ht => ?_, fun hnone => ?_, h.handler, fun hstart => ?_⟩
  · exact ⟨(h.login t ht).1, (h.login t ht).2.emit hevent⟩
  · exact (h.done hnone).emit hevent
  · exact ⟨(h.start hstart).1, (h.start hstart).2.login, (h.start hstart).2.output⟩

end emit

/-! ### The login -/

section login

variable {o : Output} {state : State} {output : List Output} {trace : List Event}

theorem applications_put (ho : o.application = none) (output : List Output) :
    applications (output ++ [o]) = applications output := by
  have hnone : applications [o] = [] := List.filterMap_cons_none ho
  rw [applications_append, hnone, List.append_nil]

theorem Unwritten.put (h : Unwritten output trace) (ho : o.application = none) :
    Unwritten (output ++ [o]) trace :=
  ⟨(applications_put ho output).trans h.output, h.trace⟩

theorem Waiting.put {queue : List XmlElement} (h : Waiting queue output trace)
    (ho : o.application = none) : Waiting queue (output ++ [o]) trace :=
  ⟨h.opened, h.unwritten.put ho, h.queue⟩

theorem Finished.put (h : Finished state output trace) (ho : o.application = none) :
    Finished state (output ++ [o]) trace := by
  rcases h with ⟨hopened, hsent⟩ | ⟨hopened, hclosed, hunwritten⟩
  · refine .inl ⟨hopened, ?_⟩
    rw [applications_put ho, hsent]
  · exact .inr ⟨hopened, hclosed, hunwritten.put ho⟩

theorem Waiting.close {queue : List XmlElement} (h : Waiting queue output trace) :
    Finished .closed output trace :=
  .inr ⟨h.opened, rfl, h.unwritten⟩

end login

/-- What a round of the login keeps. -/
structure Login (unset : Prop) (s : LoginState) (queue : List XmlElement) (c : Core M) : Prop where
  first : OpenFirst c.trace
  handler : unset ∨ c.outputHandler = true
  waiting : s ≠ .done → c.state = .opening ∧ Waiting queue c.output c.trace
  done : s = .done → Finished c.state c.output c.trace

section round

variable {s s' : LoginState} {queue : List XmlElement} {c : Core M}

theorem Login.goto (h : Login unset s queue c) (hs : s ≠ .done) (hs' : s' ≠ .done) :
    Login unset s' queue c :=
  ⟨h.first, h.handler, fun _ => h.waiting hs, fun hdone => absurd hdone hs'⟩

theorem Login.put (h : Login unset s queue c) {o : Output} (ho : o.application = none) :
    Login unset s queue (c.put o) :=
  ⟨h.first, h.handler, fun hs => ⟨(h.waiting hs).1, (h.waiting hs).2.put ho⟩,
    fun hs => (h.done hs).put ho⟩

theorem Login.emit (h : Login unset s queue c) {event : Event} (hevent : event.IsNeutral) :
    Login unset s queue (c.emit event) :=
  ⟨h.first.emit hevent, h.handler, fun hs => ⟨(h.waiting hs).1, (h.waiting hs).2.emit hevent⟩,
    fun hs => (h.done hs).emit hevent⟩

theorem Login.signalError (h : Login unset s queue c) (error : Error) :
    Login unset .done queue (c.signalError error) := by
  have hfinished : Finished .closed c.output c.trace := by
    by_cases hs : s = .done
    · exact (h.done hs).close
    · exact (h.waiting hs).2.close
  rw [Core.signalError]
  split
  · exact ⟨h.first.emit Event.isNeutral_closed, h.handler, fun hne => absurd rfl hne,
      fun _ => hfinished.emit Event.isNeutral_closed⟩
  next hclosed =>
    rw [← not_not.mp hclosed] at hfinished
    exact ⟨h.first, h.handler, fun hne => absurd rfl hne, fun _ => hfinished⟩

end round

theorem LoginTask.Finish.queue {t t' : LoginTask M} {c c' : Core M} (hfinish : LoginTask.Finish t c t' c')
    (h : Login unset t.state t.queuedStanzas c) : Login unset t'.state t'.queuedStanzas c' := by
  have hne : t.state ≠ .done := hfinish.hfrom.trans_ne (by rintro ⟨⟩)
  obtain ⟨hopening, hwaiting⟩ := h.waiting hne
  have hc : c' = { c.emit .opened with
      state := .open, output := c.output ++ t.queuedStanzas.map (.stanza .application) } := by
    rw [hfinish.hc, Core.signalBound, if_pos hopening]
  rw [hc]
  refine ⟨openFirst_append h.first fun hne => absurd rfl hne, h.handler, fun hs => absurd hfinish.hstate hs,
    fun _ => .inl ⟨List.mem_append_right _ (List.mem_singleton.mpr rfl), ?_⟩⟩
  change writtenElements (c.trace ++ [.opened]) ++
    applications (c.output ++ t.queuedStanzas.map (.stanza .application)) =
      sentElements (c.trace ++ [.opened])
  have hopened : writtenElements [.opened] = [] ∧ sentElements [.opened] = [] := ⟨rfl, rfl⟩
  rw [writtenElements_append, applications_append, sentElements_append, hopened.1, hopened.2,
    applications_map, hwaiting.unwritten.trace, hwaiting.unwritten.output, hwaiting.queue,
    List.append_nil, List.append_nil, List.nil_append, List.nil_append]

theorem LoginTask.Effect.queue {t t' : LoginTask M} {c c' : Core M} (h : LoginTask.Effect t c t' c')
    (hlogin : Login unset t.state t.queuedStanzas c) : Login unset t'.state t'.queuedStanzas c' := by
  rcases h with ⟨hqueue, hround⟩ | hfinish
  · rw [hqueue]
    cases hround with
    | wait hstate hc =>
      rw [hc, hstate]
      exact hlogin
    | failure error herror hstate hc =>
      rw [hc, hstate]
      exact hlogin.signalError error
    | move hstate hc =>
      rw [hc]
      refine hlogin.goto ?_ ?_
      · intro hdone
        rw [hdone] at hstate
        exact hstate
      intro hdone
      rw [hdone] at hstate
      unfold LoginTask.Moves at hstate
      split at hstate
      · cases hstate
      · rcases hstate with heq | ⟨-, heq | heq⟩ <;> cases heq
      · cases hstate
      · exact hstate
    | header hostname lang hfrom hstate hc =>
      rw [hc]
      exact (hlogin.goto (hfrom.trans_ne (by rintro ⟨⟩)) (hstate.trans_ne (by rintro ⟨⟩))).put rfl
    | request element hstates hc =>
      rw [hc]
      rcases hstates with ⟨hfrom, hstate⟩ | ⟨hfrom, hstate⟩ | ⟨hfrom, hstate⟩ <;>
        exact (hlogin.goto (hfrom.trans_ne (by rintro ⟨⟩)) (hstate.trans_ne (by rintro ⟨⟩))).put rfl
    | sasl element hfrom hstate hc =>
      rw [hc]
      rcases hfrom with hfrom | hfrom <;>
        exact (hlogin.goto (hfrom.trans_ne (by rintro ⟨⟩)) (hstate.trans_ne (by rintro ⟨⟩))).put rfl
    | proceed domain hfrom hstate hc =>
      have hgoto := hlogin.goto (hfrom.trans_ne (by rintro ⟨⟩)) (hstate.trans_ne (by rintro ⟨⟩))
      rw [hc, Core.startTls]
      split
      · have hneutral : (Event.startTls domain).IsNeutral := ⟨(by rintro _ ⟨⟩), rfl, (by rintro ⟨⟩)⟩
        have hstart := hgoto.emit hneutral
        exact ⟨hstart.first, hstart.handler, hstart.waiting, hstart.done⟩
      · exact ⟨hgoto.first, hgoto.handler, hgoto.waiting, hgoto.done⟩
  · exact hfinish.queue hlogin

theorem queue_loginStanza (sasl : Sasl M) {e : Engine P M} {t : LoginTask M}
    (element : Option XmlElement) (isStart : Bool) (hopening : e.state = .opening)
    (h : Login unset t.state t.queuedStanzas e.core) :
    Queue unset (e.loginStanza sasl element isStart t).core := by
  have hJ : ∀ {t : LoginTask M} {c : Core M} {t' : LoginTask M} {c' : Core M},
      Login unset t.state t.queuedStanzas c → LoginTask.Effect t c t' c' →
      Login unset t'.state t'.queuedStanzas c' := fun h heffect => heffect.queue h
  obtain ⟨t', c', hlogin, hcore⟩ := Engine.loginStanza_induction sasl
    (J := fun s queue c => Login unset s queue c) hJ (t := t) (e := e) element isStart h
  have hstart := (Engine.loginStanza_state sasl hopening (t := t) element isStart).2.1
  rw [hcore] at hstart ⊢
  refine ⟨hlogin.first, fun u hu => ?_, fun hnone => ?_, hlogin.handler.imp_right .inl,
    fun heq => absurd heq hstart⟩
  · dsimp only at hu
    split at hu
    · cases hu
    next hne =>
      cases hu
      exact ⟨hne, (hlogin.waiting hne).2⟩
  · dsimp only at hnone
    split at hnone
    next hdone => exact hlogin.done hdone
    · cases hnone

/-! ### Leaving and the bodies of calls -/

section flush

variable {queue : List XmlElement} {state : State} {output : List Output} {trace : List Event}

theorem Unwritten.flush (h : Unwritten output trace) : Unwritten [] (trace ++ [.writeOutput output]) := by
  refine ⟨rfl, ?_⟩
  rw [writtenElements_append, writtenElements_singleton, h.trace]
  exact h.output

theorem opened_flush : Event.opened ∈ trace ++ [.writeOutput output] ↔ Event.opened ∈ trace := by
  rw [List.mem_append, List.mem_singleton, or_iff_left nofun]

theorem sentElements_flush : sentElements (trace ++ [.writeOutput output]) = sentElements trace := by
  have hnone : sentElements [.writeOutput output] = [] := rfl
  rw [sentElements_append, hnone, List.append_nil]

theorem Waiting.flush (h : Waiting queue output trace) :
    Waiting queue [] (trace ++ [.writeOutput output]) :=
  ⟨mt opened_flush.mp h.opened, h.unwritten.flush, h.queue.trans sentElements_flush.symm⟩

theorem Finished.flush (h : Finished state output trace) :
    Finished state [] (trace ++ [.writeOutput output]) := by
  rcases h with ⟨hopened, hsent⟩ | ⟨hopened, hclosed, hunwritten⟩
  · refine .inl ⟨opened_flush.mpr hopened, ?_⟩
    have hnil : applications [] = [] := rfl
    rw [writtenElements_append, writtenElements_singleton, sentElements_flush, hnil, List.append_nil]
    exact hsent
  · exact .inr ⟨mt opened_flush.mp hopened, hclosed, hunwritten.flush⟩

theorem Finished.drop (h : Finished state output trace) (hempty : applications output = []) :
    Finished state [] trace := by
  rcases h with ⟨hopened, hsent⟩ | ⟨hopened, hclosed, hunwritten⟩
  · rw [hempty] at hsent
    exact .inl ⟨hopened, hsent⟩
  · exact .inr ⟨hopened, hclosed, rfl, hunwritten.trace⟩

end flush

variable {c : Core M}

theorem Queue.opened (h : Queue unset c) (hne : applications c.output ≠ []) : Event.opened ∈ c.trace := by
  cases hlogin : c.loginTask with
  | none =>
    rcases h.done hlogin with ⟨hopened, -⟩ | ⟨-, -, hunwritten⟩
    · exact hopened
    · exact absurd hunwritten.output hne
  | some t => exact absurd (h.login t hlogin).2.unwritten.output hne

theorem Queue.flush (h : Queue unset c) (houtput : c.outputHandler = true) : Queue unset c.flush := by
  rw [Core.flush]
  split
  next hany =>
    refine ⟨openFirst_append h.first h.opened, fun t ht => ⟨(h.login t ht).1, (h.login t ht).2.flush⟩,
      fun hnone => (h.done hnone).flush, .inr (.inl houtput), fun hstart => ?_⟩
    rw [(h.start hstart).2.output] at hany
    cases hany
  next hany =>
    have hempty := applications_of_empty hany
    refine ⟨h.first, fun t ht => ⟨(h.login t ht).1, ?_⟩, fun hnone => (h.done hnone).drop hempty,
      .inr (.inl houtput), fun hstart => ⟨(h.start hstart).1, (h.start hstart).2.login, rfl⟩⟩
    exact ⟨(h.login t ht).2.opened, ⟨rfl, (h.login t ht).2.unwritten.trace⟩, (h.login t ht).2.queue⟩

theorem Queue.withEntered (h : Queue unset c) (n : Nat) : Queue unset { c with entered := n } :=
  ⟨h.first, h.login, h.done, h.handler, fun hstart =>
    ⟨(h.start hstart).1, (h.start hstart).2.login, (h.start hstart).2.output⟩⟩

theorem Core.flush_output (c : Core M) : c.flush.output = [] := by
  rw [flush]

theorem Queue.exitOutput (h : Queue unset c) (saved : State) : Queue unset (c.exitOutput saved) := by
  rw [Core.exitOutput]
  split
  next houtput =>
    have hflush := h.flush houtput.1
    split
    next hclosing =>
      have hstate : c.flush.state = .closed := by
        rw [Core.flush]
        split <;> exact hclosing.2
      have hneutral : Event.closeConnection.IsNeutral := ⟨(by rintro _ ⟨⟩), rfl, (by rintro ⟨⟩)⟩
      have hclose := hflush.emit hneutral
      exact ⟨hclose.first, hclose.login, hclose.done, .inr (.inr ⟨hstate, c.flush_output⟩),
        fun hstart => absurd (hstate.symm.trans hstart) (by rintro ⟨⟩)⟩
    · exact hflush
  · exact h

theorem Core.emptied_exitOutput (h : c.entered = 0) (saved : State) : Emptied (c.exitOutput saved) := by
  rw [exitOutput]
  split
  · split
    · exact .inr rfl
    · exact .inl c.flush_output
  next hnot =>
    refine .inr (Bool.eq_false_of_not_eq_true fun houtput => hnot ⟨houtput, .inr h⟩)

theorem Queue.report (h : Queue unset c) (saved : State) : Queue unset (c.report saved) := by
  rw [Core.report]
  split
  · exact h.emit ⟨(by rintro _ ⟨⟩), rfl, (by rintro ⟨⟩)⟩
  · exact h

theorem Queue.exit (h : Queue unset c) (saved : State) : Queue unset (c.exit saved) := by
  have houtput := (h.withEntered (c.entered - 1)).exitOutput saved
  rw [Core.exit]
  split
  · exact houtput
  · exact houtput.report saved

theorem Core.emptied_exit (h : c.entered = 1) (saved : State) : Emptied (c.exit saved) := by
  have hemptied := emptied_exitOutput (c := { c with entered := 0 }) rfl saved
  rw [exit_of_one h, report]
  split
  · exact hemptied
  · exact hemptied

theorem Queue.signalError (h : Queue unset c) (error : Error) : Queue unset (c.signalError error) := by
  rw [Core.signalError]
  split
  next hstate =>
    have hclosed := h.emit Event.isNeutral_closed
    refine ⟨hclosed.first, hclosed.login, fun hnone => (hclosed.done hnone).close, ?_, (by rintro ⟨⟩)⟩
    rcases hclosed.handler with hunset | houtput | ⟨heq, -⟩
    · exact .inl hunset
    · exact .inr (.inl houtput)
    · exact absurd heq hstate
  · exact h

theorem Queue.put (h : Queue unset c) {o : Output} (ho : o.application = none)
    (hclosed : c.state ≠ .closed) (hstart : c.state ≠ .start) : Queue unset (c.put o) := by
  refine ⟨h.first, fun t ht => ⟨(h.login t ht).1, (h.login t ht).2.put ho⟩,
    fun hnone => (h.done hnone).put ho, ?_, fun heq => absurd heq hstart⟩
  rcases h.handler with hunset | houtput | ⟨heq, -⟩
  · exact .inl hunset
  · exact .inr (.inl houtput)
  · exact absurd heq hclosed

theorem Queue.sendInside (h : Queue unset c) (hclosed : c.state ≠ .closed) (element : XmlElement) :
    Queue unset (c.sendInside element) := by
  have hwritten : writtenElements [.sent element] = [] ∧ sentElements [.sent element] = [element] :=
    ⟨rfl, rfl⟩
  have hopened : Event.opened ∈ c.trace ++ [.sent element] ↔ Event.opened ∈ c.trace := by
    rw [List.mem_append, List.mem_singleton, or_iff_left (by rintro ⟨⟩)]
  have hfirst : OpenFirst (c.trace ++ [.sent element]) :=
    openFirst_append h.first fun hne => absurd rfl hne
  have hhandler : unset ∨ c.outputHandler = true :=
    h.handler.imp_right fun hset => hset.resolve_right fun hclose => hclosed hclose.1
  rw [Core.sendInside]
  split
  next hnone =>
    refine ⟨hfirst, fun t ht => absurd (hnone.symm.trans ht) (by rintro ⟨⟩), fun _ => ?_, hhandler.imp_right .inl,
      fun hstart => absurd hnone (h.start hstart).2.login⟩
    rcases h.done hnone with ⟨hmem, hsent⟩ | ⟨-, heq, -⟩
    · refine .inl ⟨hopened.mpr hmem, ?_⟩
      have happ : applications [.stanza .application element] = [element] := rfl
      change writtenElements (c.trace ++ [.sent element]) ++
        applications (c.output ++ [.stanza .application element]) = sentElements (c.trace ++ [.sent element])
      rw [writtenElements_append, applications_append, sentElements_append, hwritten.1, hwritten.2, happ,
        ← hsent, List.append_nil, List.append_assoc]
    · exact absurd heq hclosed
  next t ht =>
    obtain ⟨hne, hwaiting⟩ := h.login t ht
    refine ⟨hfirst, ?_, (by rintro ⟨⟩), hhandler.imp_right .inl, fun hstart =>
      ⟨(h.start hstart).1, (by rintro ⟨⟩), (h.start hstart).2.output⟩⟩
    rintro u ⟨⟩
    refine ⟨hne, mt hopened.mp hwaiting.opened, ⟨hwaiting.unwritten.output, ?_⟩, ?_⟩
    · change writtenElements (c.trace ++ [.sent element]) = []
      rw [writtenElements_append, hwritten.1, hwaiting.unwritten.trace, List.append_nil]
    · change t.queuedStanzas ++ [element] = sentElements (c.trace ++ [.sent element])
      rw [sentElements_append, hwritten.2, hwaiting.queue]

theorem Queue.body {c c₁ : Core M} {closes : Bool} (h : Queue unset c) (hclosed : c.state ≠ .closed)
    (hbody : Core.Body c closes c₁) : Queue unset c₁ := by
  cases hbody with
  | send element => exact h.sendInside hclosed element
  | raw text hlogin => exact h.put rfl hclosed fun hstart => (h.start hstart).2.login hlogin
  | disconnect =>
    have hclose : ∀ {c : Core M}, Queue unset c → c.state ≠ .closed →
        Queue unset { c.emit .closed with state := .closed } := by
      intro c h hclosed
      have hsignal := h.signalError .socket
      rw [Core.signalError, if_pos hclosed] at hsignal
      exact ⟨hsignal.first, hsignal.login, hsignal.done, hsignal.handler, (by rintro ⟨⟩)⟩
    rw [Core.disconnectInside]
    split
    next hopen => exact hclose (h.put (o := .close) rfl hclosed (hopen.trans_ne (by rintro ⟨⟩))) hclosed
    · exact hclose h hclosed
  | error error herror => exact h.signalError error

theorem Queue.connect {e : Engine P M} (sasl : Sasl M) (hqueue : Queue True c) (hentered : c.entered = 0)
    (hstate : c.state = .start) (hset : unset ∨ c.outputHandler = true)
    (he : e.core = { c.enter with state := .opening })
    {c₁ : Core M} (hlogin : c.loginTask = none ∧ c₁ = e.core ∨
      ∃ t, c.loginTask = some t ∧ c₁ = (e.loginStanza sasl none false t).core) :
    Queue unset (c₁.exit .start) ∧ Emptied (c₁.exit .start) := by
  have hone : e.core.entered = 1 := by
    rw [he]
    exact congrArg (· + 1) hentered
  have hopening : e.core.state = .opening := by rw [he]
  rcases hlogin with ⟨hnone, -⟩ | ⟨t, ht, rfl⟩
  · exact absurd hnone (hqueue.start hstate).2.login
  have hstanza := Engine.loginStanza_state sasl (t := t) hopening none false
  refine ⟨Queue.exit (queue_loginStanza sasl none false hopening ?_) _,
    Core.emptied_exit (hstanza.1.trans hone) _⟩
  rw [he]
  exact ⟨hqueue.first, hset, fun _ => ⟨rfl, (hqueue.login t ht).2⟩,
    fun hdone => absurd hdone (hqueue.login t ht).1⟩

theorem Queue.weaken (h : Queue unset c) (hstart : c.state = .start → AtStart c) : Queue True c :=
  ⟨h.first, h.login, h.done, .inl trivial, fun heq => ⟨trivial, hstart heq⟩⟩

theorem runInvariant_queue (sasl : Sasl M) :
    RunInvariant sasl P True (fun c => Queue unset c ∧ Emptied c) (Queue unset) where
  setting {c} _ _ _ _ hstate h := by
    obtain ⟨hunset, hstart⟩ := h.1.start hstate
    exact ⟨⟨h.1.first, h.1.login, h.1.done, .inl hunset,
      fun _ => ⟨hunset, hstart.login, hstart.output⟩⟩,
      .inl hstart.output⟩
  connect hentered hstate h he hlogin :=
    Queue.connect sasl (h.1.weaken fun heq => (h.1.start heq).2) hentered hstate
      (.inl (h.1.start hstate).1) he hlogin
  bracket {c c₁ closes} hentered hstate h hbody := by
    have hone : c₁.entered = 1 := hbody.fields.1.trans (congrArg (· + 1) hentered)
    exact ⟨(Queue.body (c := c.enter) (h.1.withEntered _) hstate hbody).exit _, Core.emptied_exit hone _⟩
  start _ _ h := h.1.withEntered _
  finish hentered _ h := ⟨h.exit _, Core.emptied_exit hentered _⟩
  nested {c _ _} _ _ hstate _ h hbody := (Queue.body (c := c.enter) (h.withEntered _) hstate hbody).exit _
  offer hevent _ _ h := h.emit (.of_isCallback hevent)
  login {e t} element isStart ht _ hopening h := by
    have hhandler : unset ∨ e.core.outputHandler = true :=
      h.handler.imp_right fun hset => hset.resolve_right fun hclose => nomatch hopening.symm.trans hclose.1
    exact queue_loginStanza sasl (some element) isStart hopening ⟨h.first, hhandler,
      fun _ => ⟨hopening, (h.login t ht).2⟩, fun hdone => absurd hdone (h.login t ht).1⟩
  error _ _ h := h.signalError _

/-! ### The output handler -/

/-- Whether an output handler is set when `Connect` is called first. -/
def handlerAtConnect : Bool → List Op → Bool
  | _, [] => false
  | present, .call .connect :: _ => present
  | _, .call (.setOutputHandler present) :: ops => handlerAtConnect present ops
  | present, _ :: ops => handlerAtConnect present ops

/-- The connection was not started: it still can be, with the output handler that was set, or the engine is
closed. -/
def Unstarted (present : Bool) (c : Core M) : Prop :=
  (c.state = .start ∧ c.outputHandler = present ∧ c.loginTask ≠ none ∧ c.output = []) ∨
    (c.state = .closed ∧ c.output = [])

theorem Core.output_exit (h : c.output = []) (saved : State) : (c.exit saved).output = [] := by
  have houtput : (exitOutput saved { c with entered := c.entered - 1 }).output = [] := by
    rw [exitOutput]
    split
    · split <;> exact flush_output { c with entered := c.entered - 1 }
    · exact h
  rw [exit]
  split
  · exact houtput
  · rw [report]
    split <;> exact houtput

theorem Core.outputHandler_exit {saved : State} (h : c.state = saved) :
    (c.exit saved).outputHandler = c.outputHandler := by
  have houtput : (exitOutput saved { c with entered := c.entered - 1 }).outputHandler = c.outputHandler := by
    rw [exitOutput]
    split
    · rw [if_neg fun hclosing => hclosing.1 h, flush]
      split <;> rfl
    · rfl
  rw [exit]
  split
  · exact houtput
  · rw [report]
    split <;> exact houtput

section unstarted

variable {present : Bool} {e : Engine P M}

theorem Unstarted.bracket (h : Unstarted present c) (hentered : c.entered = 0) (hstate : c.state ≠ .closed)
    {c₁ : Core M} {closes : Bool} (hbody : Core.Body c.enter closes c₁) :
    Unstarted present (c₁.exit c.state) := by
  obtain ⟨hstart, hset, hlogin, hempty⟩ := h.resolve_right fun hclosed => hstate hclosed.1
  obtain ⟨hone, htask, hstates, -⟩ := hbody.fields
  have hinside := hone.trans (congrArg (· + 1) hentered)
  obtain ⟨-, hexit, -, hexitTask⟩ := Core.exit_fields (.inl hinside) c.state
  have houtput : c₁.output = [] ∧ c₁.outputHandler = present := by
    cases hbody with
    | send element =>
      rw [Core.sendInside]
      split
      next hnone => exact absurd hnone hlogin
      · exact ⟨hempty, hset⟩
    | raw text hnone => exact absurd hnone hlogin
    | disconnect =>
      have hclosed : ¬c.enter.state = .open := hstart.trans_ne (by rintro ⟨⟩)
      rw [Core.disconnectInside, if_neg hclosed]
      exact ⟨hempty, hset⟩
    | error error =>
      rw [Core.signalError, if_pos (show c.enter.state ≠ .closed from hstate)]
      exact ⟨hempty, hset⟩
  have hempty := Core.output_exit houtput.1 c.state
  rcases hstates with heq | heq
  · refine .inl ⟨(hexit.trans heq).trans hstart, ?_, ?_, hempty⟩
    · exact (Core.outputHandler_exit heq).trans houtput.2
    · rw [hexitTask]
      exact mt htask.mp hlogin
  · exact .inr ⟨hexit.trans heq, hempty⟩

variable (parser : Parser P) (sasl : Sasl M)

theorem Unstarted.sendStanza (h : Unstarted present e.core) (hentered : e.core.entered = 0)
    {e' : Engine P M} (he : e'.core = e.core) (element : XmlElement) :
    Unstarted present (e'.sendStanza parser element).1.core := by
  rw [← he] at h hentered
  rw [Engine.sendStanza]
  split
  · exact h
  next hstate =>
    rw [Engine.core_exit, Engine.core_sendInside]
    exact h.bracket hentered hstate (.send element)

theorem Unstarted.ifStart (h : Unstarted present e.core) {f : Engine P M → Engine P M} {present' : Bool}
    (hf : ∃ tlsOption sessionHandler,
      (f e).core = { e.core with tlsOption, outputHandler := present', sessionHandler })
    (hpresent : e.outputHandler = present → present' = present) :
    Unstarted present (e.ifStart f).1.core := by
  rw [Engine.ifStart]
  split
  · exact h
  next hstart =>
    obtain ⟨tlsOption, sessionHandler, hf⟩ := hf
    dsimp only
    rw [hf]
    exact h.imp_left fun hleft => ⟨hleft.1, hpresent hleft.2.1, hleft.2.2⟩

/-- Calls other than `Connect` and `SetOutputHandler` leave the output handler of an engine that was not
started. -/
theorem Unstarted.apply (h : Unstarted present e.core) (hentered : e.core.entered = 0) {call : Call}
    (hconnect : call ≠ .connect) (hset : ∀ present, call ≠ .setOutputHandler present) :
    Unstarted present (call.apply parser sasl e).1.core := by
  cases call with
  | setOutputHandler present => exact absurd rfl (hset present)
  | connect => exact absurd rfl hconnect
  | setSessionHandler present => exact h.ifStart ⟨_, _, rfl⟩ id
  | setTls useTls => exact h.ifStart ⟨_, _, rfl⟩ id
  | setTlsServer hostname domain => exact h.ifStart ⟨_, _, rfl⟩ id
  | setUser jid => exact h.ifStart ⟨_, _, rfl⟩ id
  | setRequestedResource resource => exact h.ifStart ⟨_, _, rfl⟩ id
  | setLanguage lang => exact h
  | addStanzaHandler handler level =>
    rw [Call.apply, Engine.addStanzaHandler]
    split <;> exact h
  | removeStanzaHandler handler => exact h
  | sendStanza element => exact h.sendStanza parser hentered rfl element
  | sendRaw text =>
    rw [Call.apply, Engine.sendRaw]
    split
    · exact h
    next hstate =>
      rw [not_or, Option.not_isSome_iff_eq_none] at hstate
      rw [Engine.core_exit]
      exact h.bracket hentered hstate.1 (.raw text hstate.2)
  | sendIq element handler =>
    rw [Call.apply]
    unfold Engine.sendIq
    split
    · exact h
    split
    · split
      · exact h
      split
      · exact h
      split
      · exact h
      refine h.sendStanza parser hentered ?_ _
      rfl
    · exact h
  | removeIqHandler cookie =>
    rw [Call.apply, Engine.removeIqHandler]
    split <;> exact h
  | sendStanzaError original code text =>
    rw [Call.apply, Engine.sendStanzaError]
    split
    · exact h
    · dsimp only
      refine h.sendStanza parser hentered ?_ _
      rfl
  | nextId => exact h
  | disconnect =>
    rw [Call.apply, Engine.disconnect]
    split
    · exact h
    next hstate =>
      rw [Engine.core_exit, Engine.core_disconnectInside]
      exact h.bracket hentered hstate .disconnect
  | connectionClosed subcode =>
    rw [Call.apply, Engine.connectionClosed]
    split
    · exact h
    next hstate =>
      split
      · rw [Engine.core_exit, Engine.core_signalError]
        exact h.bracket hentered hstate (.error .socket (by rintro ⟨⟩))
      · rw [Engine.core_exit, Engine.core_signalError]
        exact h.bracket hentered hstate (.error .connectionClosed (by rintro ⟨⟩))

/-- If an output handler is set when the connection is started, then what is in the buffer will be written. -/
theorem queue_of_handlerAtConnect {ops : List Op} (h : Unstarted present e.core)
    (hrun : e.core.Outside ∧ Queue True e.core ∧ Emptied e.core)
    (hset : handlerAtConnect present ops = true) :
    RunInvariant.After (fun c => Queue False c ∧ Emptied c) (Queue False) (run parser sasl ops e).2
      (run parser sasl ops e).1.core := by
  have hcalled (call : Call) {e : Engine P M}
      (hrun : e.core.Outside ∧ Queue True e.core ∧ Emptied e.core) :=
    (runInvariant_queue sasl).call parser call hrun
  have hrest (ops : List Op) {e : Engine P M}
      (hrun : e.core.Outside ∧ Queue False e.core ∧ Emptied e.core) :=
    (runInvariant_queue sasl).run parser (allowedResponses_true ops) hrun
  induction ops generalizing e present with
  | nil => cases hset
  | cons op ops ih =>
    cases op with
    | input bytes rs =>
      have hquiet : e.handleInput parser sasl bytes rs = (e, some .badState) := by
        refine if_pos ?_
        rcases h with ⟨hstate, -⟩ | ⟨hstate, -⟩
        · exact ⟨hstate.trans_ne (by rintro ⟨⟩), hstate.trans_ne (by rintro ⟨⟩)⟩
        · exact ⟨hstate.trans_ne (by rintro ⟨⟩), hstate.trans_ne (by rintro ⟨⟩)⟩
      rw [run, hquiet]
      exact ih h hrun hset
    | call call =>
      have hnext := hcalled call hrun
      by_cases hconnect : call = .connect
      · subst hconnect
        have hpresent : present = true := hset
        refine hrest ops ⟨hnext.1, ?_⟩
        rcases h with ⟨hstart, hhandler, -⟩ | ⟨hclosed, hempty⟩
        · obtain ⟨e₁, c₁, he, hlogin, hexit⟩ := Engine.core_connect parser sasl hstart
          rw [Call.apply, hexit]
          exact hrun.2.1.connect sasl hrun.1.entered hstart (.inr (hhandler.trans hpresent)) he hlogin
        · have hstate : e.state ≠ .start := hclosed.trans_ne (by rintro ⟨⟩)
          rw [Call.apply, Engine.connect, if_pos hstate]
          exact ⟨⟨hrun.2.1.first, hrun.2.1.login, hrun.2.1.done, .inr (.inr ⟨hclosed, hempty⟩),
            fun hstart => absurd (hclosed.symm.trans hstart) (by rintro ⟨⟩)⟩, .inl hempty⟩
      · by_cases hhandler : ∃ present, call = .setOutputHandler present
        · obtain ⟨present', rfl⟩ := hhandler
          have hother : Unstarted present' e.core ∨ e.core.state = .start := h.symm.imp .inr And.left
          have hunstarted :
              Unstarted present' ((Call.setOutputHandler present').apply parser sasl e).1.core := by
            rw [Call.apply, Engine.setOutputHandler, Engine.ifStart]
            split
            next hstart => exact hother.resolve_right hstart
            · exact h.imp_left fun hleft => ⟨hleft.1, rfl, hleft.2.2⟩
          exact ih hunstarted hnext hset
        · have hset' : handlerAtConnect present ops = true := by
            cases call <;> first | exact hset | exact absurd rfl hconnect | exact absurd ⟨_, rfl⟩ hhandler
          refine ih (h.apply parser sasl hrun.1.entered hconnect fun present' heq => ?_) hnext hset'
          exact hhandler ⟨present', heq⟩

end unstarted

/-! ### The order -/

/-- What is shown of an engine after a run, and of the functions that have returned. -/
structure LoginOrder (ops : List Op) (e : Engine P M) (returned : Bool) : Prop where
  /-- Nothing of the application is written before the session is there. -/
  first : OpenFirst e.trace
  /-- What is written is written once, and in the order in which it was sent. -/
  order : writtenElements e.trace <+: sentElements e.trace
  /-- Everything is written when the login has succeeded, if the application has set an output handler before
  it called `Connect`. -/
  all : returned = true → Event.opened ∈ e.trace → handlerAtConnect false ops = true →
    writtenElements e.trace = sentElements e.trace
  /-- Nothing is written when it has failed. -/
  failed : Event.opened ∉ e.trace → writtenElements e.trace = []

theorem Queue.written_of_not_opened (h : Queue unset c) (hopened : Event.opened ∉ c.trace) :
    writtenElements c.trace = [] := by
  cases hlogin : c.loginTask with
  | none =>
    rcases h.done hlogin with ⟨hmem, -⟩ | ⟨-, -, hunwritten⟩
    · exact absurd hmem hopened
    · exact hunwritten.trace
  | some t => exact (h.login t hlogin).2.unwritten.trace

theorem Queue.written_of_opened (h : Queue unset c) (hopened : Event.opened ∈ c.trace) :
    writtenElements c.trace ++ applications c.output = sentElements c.trace := by
  cases hlogin : c.loginTask with
  | none =>
    rcases h.done hlogin with ⟨-, hsent⟩ | ⟨hmem, -⟩
    · exact hsent
    · exact absurd hopened hmem
  | some t => exact absurd hopened (h.login t hlogin).2.opened

theorem Queue.order (h : Queue unset c) : writtenElements c.trace <+: sentElements c.trace := by
  by_cases hopened : Event.opened ∈ c.trace
  · exact ⟨applications c.output, h.written_of_opened hopened⟩
  · rw [h.written_of_not_opened hopened]
    exact List.nil_prefix

/-- The order holds in every run. -/
theorem login_queue_run (parser : Parser P) (sasl : Sasl M) (ops : List Op) :
    LoginOrder ops (run parser sasl ops (Engine.create parser)).1
      (run parser sasl ops (Engine.create parser)).2 := by
  have hcreate : Queue True (Engine.create parser : Engine P M).core := by
    refine ⟨fun pre output post hsplit => ?_, ?_, nofun, .inl trivial, fun _ => ⟨trivial, nofun, rfl⟩⟩
    · cases pre <;> cases hsplit
    · rintro t ⟨⟩
      exact ⟨nofun, nofun, ⟨rfl, rfl⟩, rfl⟩
  have hstart : (Engine.create parser : Engine P M).core.Outside ∧
      Queue True (Engine.create parser : Engine P M).core ∧
        Emptied (Engine.create parser : Engine P M).core :=
    ⟨Engine.create_outside parser, hcreate, .inl rfl⟩
  have hqueue : Queue True (run parser sasl ops (Engine.create parser)).1.core := by
    have hafter := (runInvariant_queue sasl).run parser (allowedResponses_true ops) hstart
    cases hreturned : (run parser sasl ops (Engine.create parser : Engine P M)).2 with
    | true =>
      rw [hreturned] at hafter
      exact hafter.2.1
    | false =>
      rw [hreturned] at hafter
      exact hafter.2
  refine ⟨hqueue.first, hqueue.order, fun hreturned hopened hset => ?_, hqueue.written_of_not_opened⟩
  have hunstarted : Unstarted false (Engine.create parser : Engine P M).core :=
    .inl ⟨rfl, rfl, (by rintro ⟨⟩), rfl⟩
  have hafter := queue_of_handlerAtConnect parser sasl hunstarted hstart hset
  rw [hreturned] at hafter
  have hempty : (run parser sasl ops (Engine.create parser)).1.core.output = [] := by
    rcases hafter.2.1.handler with hunset | houtput | ⟨-, hnil⟩
    · exact hunset.elim
    · exact hafter.2.2.resolve_right fun hfalse => nomatch houtput.symm.trans hfalse
    · exact hnil
  have hsent := hqueue.written_of_opened hopened
  rw [hempty] at hsent
  exact (List.append_nil _).symm.trans hsent

/-- A login without TLS. One stanza is sent before `Connect`, and one while the login goes on. -/
def queuedOps : List Op :=
  [.call (.setOutputHandler true), .call (.setTls .disabled),
      .call (.sendStanza (XmlElement.ofName ⟨nsClient, "presence"⟩)), .call .connect,
      .call (.sendStanza (XmlElement.ofName ⟨nsClient, "message"⟩))] ++ serverLogin.map (Op.input · [])

/-- Both are sent before the session is there, and both are written, in this order. -/
theorem login_queue_run_queued :
    let (e, returned) := run (stanzaParser (Expat.ofScanner decodeAscii)) saslPlain queuedOps
      (Engine.create (stanzaParser (Expat.ofScanner decodeAscii)))
    returned = true ∧ (sentElements (e.trace.takeWhile fun event => !event matches .opened)).length = 2 ∧
      (writtenElements e.trace).map (·.name) = [⟨nsClient, "presence"⟩, ⟨nsClient, "message"⟩] := by
  have horder := login_queue_run (stanzaParser (Expat.ofScanner decodeAscii)) saslPlain queuedOps
  generalize hrun : run (stanzaParser (Expat.ofScanner decodeAscii)) saslPlain queuedOps _ = r at horder
  have hvalues : r.2 = true ∧
      (sentElements (r.1.trace.takeWhile fun event => !event matches .opened)).length = 2 ∧
      r.1.trace.any (fun event => event matches .opened) = true ∧
      (sentElements r.1.trace).map (·.name) = [⟨nsClient, "presence"⟩, ⟨nsClient, "message"⟩] := by
    rw [← hrun]
    simp only [queuedOps, serverLogin, serverStream, serverFeatures, serverMechanisms, serverSuccess,
      serverBindSession, serverBound, serverSession, utf8_append]
    decide +kernel
  obtain ⟨hreturned, hbefore, hopened, hsent⟩ := hvalues
  obtain ⟨event, hmem, hevent⟩ := List.any_eq_true.mp hopened
  have hmark : event = .opened := by
    cases event <;> first | rfl | cases hevent
  have hall := horder.all hreturned (hmark ▸ hmem) rfl
  refine ⟨hreturned, hbefore, ?_⟩
  rw [hall]
  exact hsent

end Synciga.Xmpp
