import Synciga.P2p.SessionMoves
import Synciga.Internal.Runs

/-!
# The safety of a session

A session ends once and is destroyed once, whatever is called and comes in. One thing is not safe: the
description of the initiator is read for a transport-info in any state.

## Main definitions

* `Safe` — what is safe
* `Described` — the description was set by a call or a message before

## Main results

* `secure_run_iff` — all is safe exactly if the description is there when it is read
-/

namespace Synciga.P2p

/-! ### What can be seen -/

/-- The actions that end a session. -/
def ActionType.ends : ActionType → Bool
  | sessionReject => true
  | sessionTerminate => true
  | _ => false

/-- A terminate or a reject is sent. -/
def SessionEvent.ends : SessionEvent → Bool
  | send type _ _ => type.ends
  | _ => false

/-- An accept is sent. -/
def SessionEvent.accepts : SessionEvent → Bool
  | send type _ _ => type = .sessionAccept
  | _ => false

/-- The events that nothing depends on. -/
def SessionEvent.isPlain : SessionEvent → Bool
  | send type _ _ => !type.ends && type ≠ .sessionAccept
  | acknowledge _ => true
  | refuse _ => true
  | dereference _ => true
  | _ => false

/-- The states behind everything that ends a session here. -/
def SessionState.Over (state : SessionState) : Prop := state = .sentReject ∨ state.Terminated

/-- The changes of the state that are expected. -/
def SoundChange (old new : SessionState) : Prop :=
  (old.Terminated → new.Terminated ∨ new = .deinit) ∧
    (new = .inProgress → old = .sentAccept ∨ old = .receivedAccept)

/-- Nothing was sent that ends the session when a terminate, a reject or an accept is sent. -/
def BeforeEnd (earlier : List SessionEvent) (e : SessionEvent) : Prop :=
  e.ends ∨ e.accepts → ∀ e' ∈ earlier, e'.ends = false

/-! ### Changes -/

/-- What holds of every change of the state, with what is sent for it. -/
structure Turn (old new : SessionState) (sent : List ActionType) : Prop where
  sound : SoundChange old new
  alive : new ≠ .deinit
  staysOver : old.Over → new.Over
  one : sent.length ≤ 1
  first : ∀ type ∈ sent, type.ends ∨ type = .sessionAccept → ¬ old.Over
  last : ∀ type ∈ sent, type.ends → new.Over

theorem Change.turn {old new : SessionState} {sent : List ActionType} (h : Change old new sent) :
    Turn old new sent := by
  cases h with
  | initiate => constructor <;> simp [SoundChange, SessionState.Terminated, SessionState.Over, ActionType.ends]
  | accept => constructor <;> simp [SoundChange, SessionState.Terminated, SessionState.Over, ActionType.ends]
  | reject h =>
    rcases h with rfl | rfl <;> constructor <;>
      simp [SoundChange, SessionState.Terminated, SessionState.Over, ActionType.ends]
  | terminate hsent hreceived hreject _ =>
    constructor <;>
      simp [SoundChange, SessionState.Terminated, SessionState.Over, ActionType.ends, hsent, hreceived, hreject]
  | conclude h =>
    rcases h with rfl | rfl <;> constructor <;>
      simp [SoundChange, SessionState.Terminated, SessionState.Over]
  | proceed h =>
    rcases h with rfl | rfl <;> constructor <;>
      simp [SoundChange, SessionState.Terminated, SessionState.Over]

theorem Arrival.turn {type : ActionType} {old new : SessionState} (h : Arrival type old new) :
    Turn old new [] := by
  cases h <;> constructor <;> simp [SoundChange, SessionState.Terminated, SessionState.Over]

namespace Session

variable {D : Type} {s s' : Session D}

/-! ### The invariant -/

/-- What holds of a session that is not destroyed. -/
structure Safe (s : Session D) : Prop where
  alive : s.state ≠ .deinit
  changes : ∀ old new, .stateChange old new ∈ s.trace → SoundChange old new
  ended : ∀ e ∈ s.trace, e.ends → s.state.Over
  lawful : Runs.Lawful BeforeEnd s.trace
  undestroyed : .destroyed ∉ s.trace
  localMarked : s.localDescription.isSome ↔ .initiated ∈ s.trace ∨ .accepted ∈ s.trace
  remoteMarked : s.remoteDescription.isSome ↔ .offered ∈ s.trace ∨ .answered ∈ s.trace

theorem safe_create (localName initiatorName sid : String) :
    Safe (create localName initiatorName sid : Session D) where
  alive := by simp [create]
  changes := by simp [create]
  ended := by simp [create]
  lawful := Runs.lawful_nil _
  undestroyed := by simp [create]
  localMarked := by simp [create]
  remoteMarked := by simp [create]

theorem lawful_append {l : List SessionEvent} (h : Runs.Lawful BeforeEnd l) :
    ∀ events : List SessionEvent, (∀ e ∈ events, e.ends = false ∧ e.accepts = false) →
      Runs.Lawful BeforeEnd (l ++ events) := by
  intro events
  induction events using List.reverseRecOn with
  | nil => intro _; rwa [List.append_nil]
  | append_singleton events e ih =>
    intro hnone
    rw [← List.append_assoc]
    refine (ih fun e' he' => hnone e' (List.mem_append_left _ he')).append fun hend => ?_
    obtain ⟨hends, haccepts⟩ := hnone e (List.mem_append_right _ (List.mem_singleton_self e))
    rw [hends, haccepts] at hend
    rcases hend with h | h <;> cases h

theorem Safe.plain (h : Safe s) {events : List SessionEvent} (htrace : s'.trace = s.trace ++ events)
    (hstate : s'.state = s.state) (hsame : SameDescriptions s s') (hplain : ∀ e ∈ events, e.isPlain) :
    Safe s' := by
  have hnot {e : SessionEvent} (he : e.isPlain = false) : e ∉ events := fun hmem => by
    rw [hplain e hmem] at he
    cases he
  have hmem {e : SessionEvent} (he : e.isPlain = false) : e ∈ s'.trace ↔ e ∈ s.trace := by
    rw [htrace, List.mem_append]
    exact or_iff_left (hnot he)
  have hquiet : ∀ e ∈ events, e.ends = false ∧ e.accepts = false := by
    intro e he
    have := hplain e he
    cases e <;> simp_all [SessionEvent.isPlain, SessionEvent.ends, SessionEvent.accepts]
  refine ⟨hstate ▸ h.alive, fun old new hc => h.changes old new ((hmem rfl).mp hc), fun e he hends => ?_,
    htrace ▸ lawful_append h.lawful events hquiet, fun hd => h.undestroyed ((hmem rfl).mp hd), ?_, ?_⟩
  · rw [hstate]
    rw [htrace, List.mem_append] at he
    rcases he with he | he
    · exact h.ended e he hends
    · rw [(hquiet e he).1] at hends
      cases hends
  · rw [hsame.1, h.localMarked, hmem rfl, hmem rfl]
  · rw [hsame.2, h.remoteMarked, hmem rfl, hmem rfl]

/-- A mark of a description that is set. -/
def SessionEvent.isMark (e : SessionEvent) : Prop :=
  e = .initiated ∨ e = .accepted ∨ e = .offered ∨ e = .answered

theorem Safe.take (h : Safe s) {mark : SessionEvent} (htrace : s'.trace = s.trace ++ [mark])
    (hstate : s'.state = s.state) (hmark : SessionEvent.isMark mark)
    (hlocal : s'.localDescription.isSome ↔ .initiated ∈ s'.trace ∨ .accepted ∈ s'.trace)
    (hremote : s'.remoteDescription.isSome ↔ .offered ∈ s'.trace ∨ .answered ∈ s'.trace) : Safe s' := by
  have hmem {e : SessionEvent} (he : e ≠ mark) : e ∈ s'.trace ↔ e ∈ s.trace := by
    simp [htrace, he]
  have hquiet : ∀ e ∈ [mark], e.ends = false ∧ e.accepts = false := by
    intro e he
    rw [List.mem_singleton.mp he]
    rcases hmark with rfl | rfl | rfl | rfl <;> exact ⟨rfl, rfl⟩
  have hchange (old new : SessionState) : SessionEvent.stateChange old new ≠ mark := by
    rcases hmark with rfl | rfl | rfl | rfl <;> simp
  have hdestroyed : SessionEvent.destroyed ≠ mark := by
    rcases hmark with rfl | rfl | rfl | rfl <;> simp
  refine ⟨hstate ▸ h.alive, fun old new hc => h.changes old new ((hmem (hchange old new)).mp hc),
    fun e he hends => ?_, htrace ▸ lawful_append h.lawful [mark] hquiet,
    fun hd => h.undestroyed ((hmem hdestroyed).mp hd), hlocal, hremote⟩
  rw [hstate]
  refine h.ended e ((hmem ?_).mp he) hends
  rintro rfl
  rw [(hquiet e (List.mem_singleton_self e)).1] at hends
  cases hends

theorem Safe.turn (h : Safe s) (sent : List ActionType) (protocol : SignalingProtocol)
    (recipient : String) (hturn : Turn s.state s'.state sent)
    (htrace : s'.trace =
      s.trace ++ (sent.map (.send · protocol recipient) ++ [.stateChange s.state s'.state]))
    (hsame : SameDescriptions s s') : Safe s' := by
  have hmem (e : SessionEvent) : e ∈ s'.trace ↔
      e ∈ s.trace ∨ (∃ type ∈ sent, .send type protocol recipient = e) ∨
        e = .stateChange s.state s'.state := by
    simp [htrace]
  refine ⟨hturn.alive, fun old new hc => ?_, fun e he hends => ?_, ?_, fun hd => ?_, ?_, ?_⟩
  · rcases (hmem _).mp hc with hc | ⟨_, -, hc⟩ | hc
    · exact h.changes old new hc
    · cases hc
    · cases hc
      exact hturn.sound
  · rcases (hmem _).mp he with he | ⟨type, htype, rfl⟩ | rfl
    · exact hturn.staysOver (h.ended e he hends)
    · exact hturn.last type htype hends
    · cases hends
  · rw [htrace, ← List.append_assoc]
    refine lawful_append ?_ [_] (by simp [SessionEvent.ends, SessionEvent.accepts])
    -- at most one message is sent, and not for a session that is over
    match sent, hturn.one, hturn.first with
    | [], _, _ => simpa using h.lawful
    | [type], _, hfirst =>
      refine h.lawful.append fun hend e he => ?_
      by_contra hends
      refine hfirst type (List.mem_singleton_self type) ?_ (h.ended e he (by simpa using hends))
      simpa [SessionEvent.ends, SessionEvent.accepts] using hend
  · rcases (hmem _).mp hd with hd | ⟨_, -, hd⟩ | hd
    · exact h.undestroyed hd
    · cases hd
    · cases hd
  · simp [hsame.1, h.localMarked, hmem]
  · simp [hsame.2, h.remoteMarked, hmem]

/-! ### Every step keeps it -/

theorem Move.safe (h : Move s s') (hs : Safe s) : Safe s' := by
  cases h with
  | quiet events frame hstate hsame hquiet =>
    refine hs.plain frame.trace hstate hsame fun e he => ?_
    have := hquiet e he
    cases e with
    | send type _ _ => cases type <;> simp_all [SessionEvent.isQuiet, SessionEvent.isPlain, ActionType.ends]
    | acknowledge _ => rfl
    | refuse _ => rfl
    | _ => cases this
  | takeLocal mark frame hstate hmark hlocal hremote =>
    refine hs.take frame.trace hstate (hmark.imp_right .inl) ?_ ?_
    · refine iff_of_true hlocal ?_
      rw [frame.trace]
      rcases hmark with rfl | rfl <;> simp
    · rw [hremote, hs.remoteMarked, frame.trace]
      rcases hmark with rfl | rfl <;> simp
  | takeRemote mark frame hstate hmark hremote hlocal =>
    refine hs.take frame.trace hstate (.inr (.inr hmark)) ?_ ?_
    · rw [hlocal, hs.localMarked, frame.trace]
      rcases hmark with rfl | rfl <;> simp
    · refine iff_of_true hremote ?_
      rw [frame.trace]
      rcases hmark with rfl | rfl <;> simp
  | change sent hchange frame hsame => exact hs.turn sent _ _ hchange.turn frame.trace hsame

theorem Arrive.safe {type : ActionType} (h : Arrive type s s') (hs : Safe s) : Safe s' :=
  hs.turn [] .hybrid "" h.arrival.turn h.frame.trace h.same

theorem Look.safe (h : Look s s') (hs : Safe s) : Safe s' :=
  hs.plain h.frame.trace h.stays h.same (by simp [SessionEvent.isPlain])

theorem Redirect.safe (h : Redirect s s') (hs : Safe s) : Safe s' := by
  obtain ⟨events, htrace, hsent⟩ := h.trace
  refine hs.plain htrace h.stays h.same fun e he => ?_
  obtain ⟨protocol, recipient, rfl⟩ := hsent e he
  rfl

/-! ### All that can happen -/

end Session

/-- A transport-info comes in. -/
def SessionOp.isTransportInfo {D : Type} : SessionOp D → Prop
  | message msg _ _ => msg.type = .transportInfo
  | _ => False

namespace Session

variable {D : Type} {s s' : Session D} {info : Prop}

/-- All that can happen to a session; `info` says whether a transport-info has come in. -/
inductive Happen (info : Prop) (s s' : Session D) : Prop
  | move (h : Move s s')
  | arrive (type : ActionType) (h : Arrive type s s')
  | look (hinfo : info) (h : Look s s')
  | redirect (h : Redirect s s')

/-- A chain of what can happen. -/
def Happens (info : Prop) : Session D → Session D → Prop := Relation.ReflTransGen (Happen info)

theorem Moves.happens (h : Moves s s') : Happens info s s' :=
  Relation.ReflTransGen.mono (fun _ _ => Happen.move) _ _ h

theorem Handles.happens {type : ActionType} {body : Body D} (h : Handles type body s s') :
    Happens (type = .transportInfo) s s' := by
  cases h with
  | pass h => exact h.moves.happens
  | arrive s0 s1 before harrive after =>
    exact (before.happens.tail (.arrive type harrive)).trans after.happens
  | look s0 s1 htype before _ hlook after =>
    exact (before.moves.happens.tail (.look htype hlook)).trans after.moves.happens

/-- What a step does. -/
inductive Steps (op : SessionOp D) (s : Session D) : Prop
  | chain (h : Happens op.isTransportInfo s (s.step op))
  | delivered (message : Posted) (h : Happens op.isTransportInfo (s.taken message) (s.step op))
  | destroyed (message : Posted) (hstate : s.state.Terminated)
      (heq : s.step op = (s.taken message).destroy)

variable (op : SessionOp D)

theorem steps (s : Session D) : Steps op s := by
  cases op with
  | call c inner => exact .chain (apply_calls (Reaction.listen_calls inner) c s).moves.happens
  | message msg body r =>
    exact .chain (onIncomingMessage_handles (Reaction.listen_calls r) msg body s).happens
  | response type unsent => exact .chain (onIncomingResponse_calls type unsent s).moves.happens
  | failedSend type redirect errorType written resent =>
    cases redirect with
    | none => exact .chain (onFailedSend_calls type errorType written resent s).moves.happens
    | some target =>
      rcases onFailedSend_redirect type target errorType written resent s with
        h | ⟨s1, hredirect, hafter⟩
      · exact .chain h.moves.happens
      · exact .chain (.head (.redirect hredirect) hafter.moves.happens)
  | deliver message r =>
    rcases step_deliver message r s with ⟨-, heq⟩ | ⟨-, hstate, heq⟩ | ⟨-, -, heq⟩
    · exact .chain (by rw [heq]; exact .refl)
    · exact .destroyed message hstate heq
    · refine .delivered message ?_
      rw [heq]
      exact (onMessage_calls (Reaction.listen_calls r) message _).moves.happens
  | writable hasChannels writable =>
    exact .chain (onTransportWritable_calls hasChannels writable s).moves.happens
  | candidates written => exact .chain (onCandidatesReady_calls written s).moves.happens

theorem Happens.safe (h : Happens info s s') (hs : Safe s) : Safe s' := by
  induction h with
  | refl => exact hs
  | tail _ h ih =>
    cases h with
    | move h => exact h.safe ih
    | arrive type h => exact h.safe ih
    | look _ h => exact h.safe ih
    | redirect h => exact h.safe ih

theorem Turn.terminated {old new : SessionState} {sent : List ActionType} (h : Turn old new sent)
    (hold : old.Terminated) : new.Terminated :=
  (h.sound.1 hold).resolve_right h.alive

theorem Happens.terminated (h : Happens info s s') (hs : s.state.Terminated) : s'.state.Terminated := by
  induction h with
  | refl => exact hs
  | tail _ h ih =>
    cases h with
    | move h =>
      cases h with
      | quiet _ _ hstate => rwa [hstate]
      | takeLocal _ _ hstate => rwa [hstate]
      | takeRemote _ _ hstate => rwa [hstate]
      | change _ hchange => exact Turn.terminated hchange.turn ih
    | arrive type h => exact Turn.terminated h.arrival.turn ih
    | look _ h => rwa [h.stays]
    | redirect h => rwa [h.stays]

theorem Happen.sid (h : Happen info s s') : s'.sid = s.sid := by
  cases h with
  | move h =>
    cases h with
    | quiet _ frame => exact frame.sid
    | takeLocal _ frame => exact frame.sid
    | takeRemote _ frame => exact frame.sid
    | change _ _ frame => exact frame.sid
  | arrive _ h => exact h.frame.sid
  | look _ h => exact h.frame.sid
  | redirect h => exact h.sid

theorem Happen.alive (h : Happen info s s') (hs : s.state ≠ .deinit) : s'.state ≠ .deinit := by
  cases h with
  | move h =>
    cases h with
    | quiet _ _ hstate => rwa [hstate]
    | takeLocal _ _ hstate => rwa [hstate]
    | takeRemote _ _ hstate => rwa [hstate]
    | change _ hchange => exact hchange.turn.alive
  | arrive _ h => exact h.arrival.turn.alive
  | look _ h => rwa [h.stays]
  | redirect h => rwa [h.stays]

theorem Happens.sid (h : Happens info s s') : s'.sid = s.sid := by
  induction h with
  | refl => rfl
  | tail _ h ih => exact h.sid.trans ih

theorem Happens.alive (h : Happens info s s') (hs : s.state ≠ .deinit) : s'.state ≠ .deinit := by
  induction h with
  | refl => exact hs
  | tail _ h ih => exact h.alive ih

/-! ### Steps -/

/-- What holds after every step: the session is safe, or it was destroyed in a state behind a terminate. -/
inductive Sound (s : Session D) : Prop
  | live (safe : Safe s) (pending : Pending s)
  | destroyed (s0 : Session D) (safe : Safe s0) (hstate : s0.state.Terminated) (heq : s = s0.destroy)

theorem taken_safe (message : Posted) (hs : Safe s) : Safe (s.taken message) :=
  ⟨hs.alive, hs.changes, hs.ended, hs.lawful, hs.undestroyed, hs.localMarked, hs.remoteMarked⟩

theorem step_sound (hs : Safe s) (hpending : Pending s) : Sound (s.step op) := by
  rcases steps op s with h | ⟨message, h⟩ | ⟨message, hstate, heq⟩
  · exact .live (h.safe hs) (step_pending op hpending)
  · exact .live (h.safe (taken_safe message hs)) (step_pending op hpending)
  · exact .destroyed (s.taken message) (taken_safe message hs) hstate heq

theorem Sound.next (h : Sound s) (op : SessionOp D) : Sound (s.next op) := by
  cases h with
  | live safe pending =>
    rw [Session.next, if_neg safe.alive]
    exact step_sound op safe pending
  | destroyed s0 safe hstate heq =>
    rw [Session.next, if_pos (by rw [heq]; rfl)]
    exact .destroyed s0 safe hstate heq

theorem create_sound (localName initiatorName sid : String) :
    Sound (create localName initiatorName sid : Session D) :=
  .live (safe_create localName initiatorName sid) (by rintro ((h | h | h | h) | (h | h)) <;> cases h)

theorem Sound.run (h : Sound s) (ops : List (SessionOp D)) : Sound (s.run ops) := by
  induction ops generalizing s with
  | nil => exact h
  | cons op ops ih => exact ih (h.next op)

/-! ### What a step adds to the trace -/

/-- Events are added, and the description of the initiator is not read. -/
def Unread (s s' : Session D) : Prop :=
  ∃ events, s'.trace = s.trace ++ events ∧ ∀ present, .dereference present ∉ events

theorem Unread.trans {t : Session D} (h : Unread s t) (h' : Unread t s') : Unread s s' := by
  obtain ⟨events, htrace, hnone⟩ := h
  obtain ⟨events', htrace', hnone'⟩ := h'
  refine ⟨events ++ events', by rw [htrace', htrace, List.append_assoc], fun present hmem => ?_⟩
  rcases List.mem_append.mp hmem with h | h
  · exact hnone present h
  · exact hnone' present h

theorem Move.unread (h : Move s s') : Unread s s' := by
  cases h with
  | quiet events frame _ _ hquiet => exact ⟨events, frame.trace, fun _ hmem => nomatch hquiet _ hmem⟩
  | takeLocal mark frame _ hmark =>
    exact ⟨[mark], frame.trace, by rcases hmark with rfl | rfl <;> simp⟩
  | takeRemote mark frame _ hmark =>
    exact ⟨[mark], frame.trace, by rcases hmark with rfl | rfl <;> simp⟩
  | change sent _ frame => exact ⟨_, frame.trace, by simp⟩

theorem Happens.unread (h : Happens info s s') (hinfo : ¬ info) : Unread s s' := by
  induction h with
  | refl => exact ⟨[], (List.append_nil _).symm, by simp⟩
  | tail _ h ih =>
    refine ih.trans ?_
    cases h with
    | move h => exact h.unread
    | arrive type h => exact ⟨_, h.frame.trace, by simp⟩
    | look h => exact absurd h hinfo
    | redirect h =>
      obtain ⟨events, htrace, hsent⟩ := h.trace
      refine ⟨events, htrace, fun present hmem => ?_⟩
      obtain ⟨_, _, heq⟩ := hsent _ hmem
      cases heq

theorem destroy_trace (s : Session D) :
    s.destroy.trace = s.trace ++ [.stateChange s.state .deinit, .destroyed] :=
  List.append_assoc _ _ _

theorem step_unread (hop : ¬ op.isTransportInfo) (s : Session D) : Unread s (s.step op) := by
  rcases steps op s with h | ⟨message, h⟩ | ⟨message, -, heq⟩
  · exact h.unread hop
  · exact h.unread hop
  · rw [heq]
    exact ⟨_, destroy_trace _, by simp⟩

theorem step_dereference (s : Session D) :
    ∃ events, (s.step op).trace = s.trace ++ events ∧ ∀ present,
      .dereference present ∈ events ↔ op.isTransportInfo ∧ present = s.initiatorDescription.isSome := by
  by_cases hop : op.isTransportInfo
  · cases op with
    | message msg body r =>
      have hdescription := settleProtocol_description msg.protocol s
      have htrace : (s.settleProtocol msg.protocol).trace = s.trace := by
        rw [settleProtocol]
        split <;> rfl
      have hstep : ∃ e, e.isQuiet ∧ (s.step (.message msg body r)).trace =
          s.trace ++ [.dereference s.initiatorDescription.isSome, e] := by
        change ∃ e, _ ∧ (s.onIncomingMessage r.listen msg body).trace = _
        rw [onIncomingMessage, handleAction, show msg.type = .transportInfo from hop,
          onTransportInfoMessage, hdescription]
        refine ⟨_, ?_, by simp [emit, htrace]; rfl⟩
        split <;> rfl
      obtain ⟨e, hquiet, htrace⟩ := hstep
      refine ⟨_, htrace, fun present => ?_⟩
      rw [List.mem_cons, List.mem_singleton, or_iff_left (by rintro rfl; cases hquiet)]
      constructor
      · intro h
        exact ⟨hop, by injection h⟩
      · rintro ⟨-, rfl⟩
        rfl
    | _ => exact absurd hop id
  · obtain ⟨events, htrace, hnone⟩ := step_unread op hop s
    exact ⟨events, htrace, fun present => iff_of_false (hnone present) fun h => hop h.1⟩

variable {e : SessionEvent}

theorem next_trace (he : e ∈ s.trace) : e ∈ (s.next op).trace := by
  rw [next]
  split
  · exact he
  · obtain ⟨events, htrace, -⟩ := step_dereference op s
    rw [htrace]
    exact List.mem_append_left _ he

theorem run_trace (ops : List (SessionOp D)) (he : e ∈ s.trace) : e ∈ (s.run ops).trace := by
  induction ops generalizing s with
  | nil => exact he
  | cons op ops ih => exact ih (next_trace op he)

/-! ### Safety -/

/-- The description of the initiator was set: ours by a call of `Initiate` or `Accept`, that of the other
side by a session-initiate or a session-accept. -/
def Described (s : Session D) : Prop :=
  if s.initiator then .initiated ∈ s.trace ∨ .accepted ∈ s.trace
  else .offered ∈ s.trace ∨ .answered ∈ s.trace

/-- What is expected of a session after a run. -/
structure Secure (s : Session D) : Prop where
  /-- Behind a terminate nothing follows but the destruction, and only an accept leads to a session in
  progress. -/
  changes : ∀ old new, .stateChange old new ∈ s.trace → SoundChange old new
  /-- In a state behind a terminate it stays until it is destroyed. -/
  stays : s.state.Terminated → ∀ op, (s.next op).state.Terminated ∨ (s.next op).state = .deinit
  /-- At most one terminate or reject is sent. -/
  endsOnce : s.trace.countP SessionEvent.ends ≤ 1
  /-- No accept is sent behind it. -/
  acceptsBefore : ∀ front e back, s.trace = front ++ e :: back → e.ends → ∀ e' ∈ back, e'.accepts = false
  /-- It is destroyed once. -/
  destroyedOnce : s.trace.count .destroyed = if s.state = .deinit then 1 else 0
  /-- Behind a terminate a message is posted that destroys it. -/
  destroyable : s.state.Terminated → .state ∈ s.posted ∧ ∀ r, (s.next (.deliver .state r)).state = .deinit
  /-- The description of the initiator is there whenever it is read. -/
  described : ∀ present, .dereference present ∈ s.trace → present = true

theorem Safe.described_iff (h : Safe s) : s.initiatorDescription.isSome ↔ s.Described := by
  rw [initiatorDescription, Described]
  split
  · exact h.localMarked
  · exact h.remoteMarked

theorem Terminated.ne_deinit {state : SessionState} (h : state.Terminated) : state ≠ .deinit := by
  rcases h with rfl | rfl <;> decide

theorem Sound.changes (h : Sound s) (old new : SessionState) (hc : .stateChange old new ∈ s.trace) :
    SoundChange old new := by
  cases h with
  | live safe => exact safe.changes old new hc
  | destroyed s0 safe hstate heq =>
    rw [heq, destroy_trace, List.mem_append] at hc
    rcases hc with hc | hc
    · exact safe.changes old new hc
    · have : old = s0.state ∧ new = .deinit := by simpa using hc
      obtain ⟨rfl, rfl⟩ := this
      exact ⟨fun _ => .inr rfl, nofun⟩

theorem Sound.lawful (h : Sound s) : Runs.Lawful BeforeEnd s.trace := by
  cases h with
  | live safe => exact safe.lawful
  | destroyed s0 safe hstate heq =>
    rw [heq, destroy_trace]
    exact lawful_append safe.lawful _ (by simp [SessionEvent.ends, SessionEvent.accepts])

theorem Sound.destroyedOnce (h : Sound s) :
    s.trace.count .destroyed = if s.state = .deinit then 1 else 0 := by
  cases h with
  | live safe =>
    rw [if_neg safe.alive]
    exact List.count_eq_zero.mpr safe.undestroyed
  | destroyed s0 safe hstate heq =>
    rw [if_pos (by rw [heq]; rfl), heq, destroy_trace, List.count_append, List.count_eq_zero.mpr safe.undestroyed]
    rfl

theorem Sound.destroyable (h : Sound s) (hstate : s.state.Terminated) :
    .state ∈ s.posted ∧ ∀ r, (s.next (.deliver .state r)).state = .deinit := by
  cases h with
  | live safe pending =>
    have hposted := pending (.inr hstate)
    refine ⟨hposted, fun r => ?_⟩
    rw [Session.next, if_neg safe.alive]
    rcases step_deliver .state r s with ⟨hnot, -⟩ | ⟨-, -, heq⟩ | ⟨-, hnot, -⟩
    · exact absurd hposted hnot
    · rw [heq]
      rfl
    · exact absurd ⟨rfl, hstate⟩ hnot
  | destroyed s0 _ _ heq =>
    rw [heq] at hstate
    exact absurd rfl (Terminated.ne_deinit hstate)

theorem next_terminated (hstate : s.state.Terminated) (op : SessionOp D) :
    (s.next op).state.Terminated ∨ (s.next op).state = .deinit := by
  rw [Session.next, if_neg (Terminated.ne_deinit hstate)]
  rcases steps op s with h | ⟨message, h⟩ | ⟨message, -, heq⟩
  · exact .inl (h.terminated hstate)
  · exact .inl (h.terminated (s := s.taken message) hstate)
  · rw [heq]
    exact .inr rfl

theorem Sound.endsOnce (h : Sound s) : s.trace.countP SessionEvent.ends ≤ 1 :=
  h.lawful.countP_le_one fun _ _ he hends e' he' => he (.inl hends) e' he'

theorem Sound.acceptsBefore (h : Sound s) {front back : List SessionEvent}
    (htrace : s.trace = front ++ e :: back) (hends : e.ends) (e' : SessionEvent) (he' : e' ∈ back) :
    e'.accepts = false := by
  obtain ⟨mid, rest, rfl⟩ := List.append_of_mem he'
  by_contra haccepts
  have hnone := h.lawful (front ++ e :: mid) e' rest (by rw [htrace]; simp)
    (.inr (by simpa using haccepts)) e (by simp)
  rw [hends] at hnone
  cases hnone

theorem Sound.described_iff (h : Sound s) (hlive : s.state ≠ .deinit) :
    s.initiatorDescription.isSome ↔ s.Described := by
  cases h with
  | live safe => exact safe.described_iff
  | destroyed s1 _ _ heq => exact absurd (by rw [heq]; rfl) hlive

theorem run_concat (s : Session D) (ops : List (SessionOp D)) (op : SessionOp D) :
    s.run (ops ++ [op]) = (s.run ops).next op := List.foldl_append

/-- The description of the initiator is there whenever it is read in a run if and only if every
transport-info comes in when it was set. -/
theorem described_run_iff {s0 : Session D} (hs0 : Sound s0)
    (hunread : ∀ present, .dereference present ∉ s0.trace) (ops : List (SessionOp D)) :
    (∀ present, .dereference present ∈ (s0.run ops).trace → present = true) ↔
      ∀ front op back, ops = front ++ op :: back → op.isTransportInfo →
        (s0.run front).state ≠ .deinit → (s0.run front).Described := by
  constructor
  · intro h front op back hops hinfo hlive
    by_contra hnot
    have hnone : (s0.run front).initiatorDescription.isSome = false := by
      simpa using mt ((hs0.run front).described_iff hlive).mp hnot
    have hread : .dereference false ∈ ((s0.run front).next op).trace := by
      obtain ⟨events, htrace, hmem⟩ := step_dereference op (s0.run front)
      rw [Session.next, if_neg hlive, htrace]
      exact List.mem_append_right _ ((hmem false).mpr ⟨hinfo, hnone.symm⟩)
    have hrun : s0.run ops = ((s0.run front).next op).run back := by
      rw [hops]
      exact List.foldl_append
    have := h false (by rw [hrun]; exact run_trace back hread)
    cases this
  · induction ops using List.reverseRecOn with
    | nil => exact fun _ present hmem => absurd hmem (hunread present)
    | append_singleton ops op ih =>
      intro hcond present hmem
      have hbefore := ih fun front op' back heq =>
        hcond front op' (back ++ [op]) (by rw [heq, List.append_assoc]; rfl)
      rw [run_concat, Session.next] at hmem
      split at hmem
      · exact hbefore present hmem
      rename_i hlive
      obtain ⟨events, htrace, hevents⟩ := step_dereference op (s0.run ops)
      rw [htrace, List.mem_append] at hmem
      rcases hmem with hmem | hmem
      · exact hbefore present hmem
      · obtain ⟨hinfo, rfl⟩ := (hevents present).mp hmem
        exact ((hs0.run ops).described_iff hlive).mpr (hcond ops op [] rfl hinfo hlive)

/-- A run is safe, for whatever is called and whatever comes in, if and only if every transport-info
comes in when the description of the initiator was set. -/
theorem secure_run_iff (localName initiatorName sid : String) (ops : List (SessionOp D)) :
    Secure ((create localName initiatorName sid).run ops) ↔
      ∀ front op back, ops = front ++ op :: back → op.isTransportInfo →
        ((create localName initiatorName sid).run front).state ≠ .deinit →
        ((create localName initiatorName sid).run front).Described := by
  have hcreate : Sound (create localName initiatorName sid : Session D) := create_sound _ _ _
  have hiff := described_run_iff hcreate (by simp [create]) ops
  have hsound := hcreate.run ops
  constructor
  · exact fun h => hiff.mp h.described
  · exact fun h => ⟨hsound.changes, next_terminated, hsound.endsOnce, fun _ _ _ => hsound.acceptsBefore,
      hsound.destroyedOnce, hsound.destroyable, hiff.mpr h⟩

/-- Who initiates a session in our own name takes us for the initiator, whose description is not there
until we accept. -/
theorem not_secure_transportInfo : ¬ Secure ((create "bob@b.net/1" "bob@b.net/1" "7" : Session Unit).run
      [.message ⟨.jingle, .sessionInitiate, "1", "7", "eve@e.net/1", "bob@b.net/1", "bob@b.net/1",
          .ofName qnJingle⟩ ⟨some (), true, true, true, 0⟩ .done,
        .message ⟨.jingle, .transportInfo, "2", "7", "eve@e.net/1", "bob@b.net/1", "bob@b.net/1",
          .ofName qnJingle⟩ ⟨none, true, true, true, 0⟩ .done]) := by
  intro h
  have := h.described false (by decide)
  cases this

end Session

end Synciga.P2p
