import Synciga.P2p.Session

/-!
# What can happen to a session

Whatever listeners do, a call or a message takes a session through small moves: an event that does not matter, a
description that is set, a change of the state together with its message.

## Main definitions

* `Moves` — a chain of them
* `Calls` — what the calls of a listener are

## Main results

* `Handles.pending`, `Calls.pending` — what is pending behind a chain
-/

namespace Synciga.P2p

/-- The events that the state does not depend on. -/
def SessionEvent.isQuiet : SessionEvent → Bool
  | send type _ _ => type = .sessionInfo || type = .transportInfo || type = .descriptionInfo
  | acknowledge _ => true
  | refuse _ => true
  | _ => false

/-- The states that a message about the state leads out of. -/
def SessionState.Passing (state : SessionState) : Prop :=
  state = .sentAccept ∨ state = .receivedAccept ∨ state = .sentReject ∨ state = .receivedReject

/-- The states behind a terminate. -/
def SessionState.Terminated (state : SessionState) : Prop :=
  state = .sentTerminate ∨ state = .receivedTerminate

/-- A change of the state that a session makes by itself, with what it sends for it. -/
inductive Change : SessionState → SessionState → List ActionType → Prop
  | initiate : Change .init .sentInitiate [.sessionInitiate]
  | accept : Change .receivedInitiate .sentAccept [.sessionAccept]
  | reject {old : SessionState} (h : old = .receivedInitiate ∨ old = .receivedModify) :
      Change old .sentReject [.sessionReject]
  | terminate {old : SessionState} (hsent : old ≠ .sentTerminate) (hreceived : old ≠ .receivedTerminate)
      (hreject : old ≠ .sentReject) (hrejected : old ≠ .receivedReject) :
      Change old .sentTerminate [.sessionTerminate]
  | conclude {old : SessionState} (h : old = .sentReject ∨ old = .receivedReject) :
      Change old .sentTerminate []
  | proceed {old : SessionState} (h : old = .sentAccept ∨ old = .receivedAccept) : Change old .inProgress []

/-- A change of the state that a message brings about. -/
inductive Arrival : ActionType → SessionState → SessionState → Prop
  | initiate : Arrival .sessionInitiate .init .receivedInitiate
  | accept : Arrival .sessionAccept .sentInitiate .receivedAccept
  | reject : Arrival .sessionReject .sentInitiate .receivedReject
  | terminate {old : SessionState} (h : old ≠ .receivedTerminate) :
      Arrival .sessionTerminate old .receivedTerminate

variable {old new : SessionState}

theorem Change.ne_init {sent : List ActionType} (h : Change old new sent) : new ≠ .init := by
  cases h <;> decide

theorem Arrival.ne {type : ActionType} (h : Arrival type old new) : new ≠ old := by
  cases h with
  | initiate => decide
  | accept => decide
  | reject => decide
  | terminate h => exact h.symm

theorem Arrival.of_initiate (h : Arrival .sessionInitiate old new) : old = .init := by
  cases h
  rfl

theorem Arrival.of_answer {type : ActionType} (h : Arrival type old new)
    (htype : type = .sessionAccept ∨ type = .sessionReject) : old = .sentInitiate := by
  cases h with
  | initiate => rcases htype with h | h <;> cases h
  | accept => rfl
  | reject => rfl
  | terminate _ => rcases htype with h | h <;> cases h

namespace Session

variable {D : Type}

/-- What every move leaves as it is, and the events of the move. -/
structure Frame (s s' : Session D) (events : List SessionEvent) : Prop where
  sid : s'.sid = s.sid
  initiator : s'.initiator = s.initiator
  remoteName : s.state ≠ .init → s'.remoteName = s.remoteName
  posted : .state ∈ s.posted → .state ∈ s'.posted
  trace : s'.trace = s.trace ++ events

/-- The descriptions are left as they are. -/
def SameDescriptions (s s' : Session D) : Prop :=
  s'.localDescription = s.localDescription ∧ s'.remoteDescription = s.remoteDescription

/-- A move that a session makes by itself. -/
inductive Move (s s' : Session D) : Prop
  | quiet (events : List SessionEvent) (frame : Frame s s' events) (hstate : s'.state = s.state)
      (hsame : SameDescriptions s s') (hquiet : ∀ e ∈ events, e.isQuiet)
  | takeLocal (mark : SessionEvent) (frame : Frame s s' [mark]) (hstate : s'.state = s.state)
      (hmark : mark = .initiated ∨ mark = .accepted) (hlocal : s'.localDescription.isSome)
      (hremote : s'.remoteDescription = s.remoteDescription)
  | takeRemote (mark : SessionEvent) (frame : Frame s s' [mark]) (hstate : s'.state = s.state)
      (hmark : mark = .offered ∨ mark = .answered) (hremote : s'.remoteDescription.isSome)
      (hlocal : s'.localDescription = s.localDescription)
  | change (sent : List ActionType) (hchange : Change s.state s'.state sent)
      (frame : Frame s s'
        (sent.map (.send · s.currentProtocol s.remoteName) ++ [.stateChange s.state s'.state]))
      (hsame : SameDescriptions s s')

/-- A message of this type brings about a change. -/
structure Arrive (type : ActionType) (s s' : Session D) : Prop where
  arrival : Arrival type s.state s'.state
  frame : Frame s s' [.stateChange s.state s'.state]
  same : SameDescriptions s s'

/-- The description of the initiator is read. -/
structure Look (s s' : Session D) : Prop where
  stays : s'.state = s.state
  frame : Frame s s' [.dereference s.initiatorDescription.isSome]
  same : SameDescriptions s s'

/-- The session is redirected, and its initiate may be sent again. -/
structure Redirect (s s' : Session D) : Prop where
  state : s.state = .sentInitiate
  stays : s'.state = s.state
  sid : s'.sid = s.sid
  posted : .state ∈ s.posted → .state ∈ s'.posted
  trace : ∃ events, s'.trace = s.trace ++ events ∧
    ∀ e ∈ events, ∃ protocol recipient, e = .send .sessionInitiate protocol recipient
  same : SameDescriptions s s'

/-- A chain of moves. -/
def Moves : Session D → Session D → Prop := Relation.ReflTransGen Move

/-- A chain of moves, behind which a message about the state is posted if the state is another. -/
structure Calls (s s' : Session D) : Prop where
  moves : Moves s s'
  settled : s'.state = s.state ∨ .state ∈ s'.posted

variable {s s' t : Session D}

theorem Frame.refl (s : Session D) : Frame s s [] :=
  ⟨rfl, rfl, fun _ => rfl, id, (List.append_nil _).symm⟩

theorem SameDescriptions.refl (s : Session D) : SameDescriptions s s := ⟨rfl, rfl⟩

theorem Move.posted (h : Move s s') (hp : .state ∈ s.posted) : .state ∈ s'.posted := by
  cases h with
  | quiet _ frame => exact frame.posted hp
  | takeLocal _ frame => exact frame.posted hp
  | takeRemote _ frame => exact frame.posted hp
  | change _ _ frame => exact frame.posted hp

theorem Moves.posted (h : Moves s s') (hp : .state ∈ s.posted) : .state ∈ s'.posted := by
  induction h with
  | refl => exact hp
  | tail _ h ih => exact h.posted ih

theorem Moves.single (h : Move s s') : Moves s s' := Relation.ReflTransGen.single h

theorem Moves.trans (h : Moves s t) (h' : Moves t s') : Moves s s' := Relation.ReflTransGen.trans h h'

theorem Calls.refl (s : Session D) : Calls s s := ⟨.refl, .inl rfl⟩

theorem Calls.trans (h : Calls s t) (h' : Calls t s') : Calls s s' := by
  refine ⟨h.moves.trans h'.moves, ?_⟩
  rcases h'.settled with heq | hp
  · rcases h.settled with heq' | hp
    · exact .inl (heq.trans heq')
    · exact .inr (h'.moves.posted hp)
  · exact .inr hp

theorem Calls.single (h : Move s s') (hstate : s'.state = s.state) : Calls s s' :=
  ⟨.single h, .inl hstate⟩

/-! ### Moves that do not matter -/

theorem Calls.of_fields (frame : Frame s s' []) (hstate : s'.state = s.state)
    (hsame : SameDescriptions s s') : Calls s s' :=
  .single (.quiet [] frame hstate hsame (by simp)) hstate

theorem frame_emit (s : Session D) (e : SessionEvent) : Frame s (s.emit e) [e] := ⟨rfl, rfl, fun _ => rfl, id, rfl⟩

theorem emit_calls (s : Session D) {e : SessionEvent} (he : e.isQuiet) : Calls s (s.emit e) :=
  .single (.quiet [e] (frame_emit s e) rfl ⟨rfl, rfl⟩ (by simpa using he)) rfl

theorem post_calls (s : Session D) (message : Posted) : Calls s (s.post message) :=
  .of_fields ⟨rfl, rfl, fun _ => rfl, fun h => List.mem_append_left _ h, (List.append_nil _).symm⟩ rfl ⟨rfl, rfl⟩

theorem sendTransportInfos_calls (n : Nat) (s : Session D) : Calls s (s.sendTransportInfos n) := by
  induction n generalizing s with
  | zero => exact .refl s
  | succ n ih => exact (emit_calls s (by rfl)).trans (ih _)

theorem setError_calls (error : SessionError) (s : Session D) : Calls s (s.setError error) := by
  have hfield : Calls s { s with error := error } :=
    .of_fields ⟨rfl, rfl, fun _ => rfl, id, (List.append_nil _).symm⟩ rfl ⟨rfl, rfl⟩
  unfold setError
  split
  · exact hfield.trans (post_calls _ _)
  · exact hfield

/-! ### Changes of the state -/

theorem enter_move (sent : List ActionType) {new : SessionState} (hsame : SameDescriptions s t)
    (frame : Frame s t (sent.map (.send · s.currentProtocol s.remoteName))) (hstate : t.state = s.state)
    (h : Change s.state new sent) : Move s (t.enter new) := by
  refine .change sent h ⟨frame.sid, frame.initiator, frame.remoteName, frame.posted, ?_⟩ hsame
  change t.trace ++ [.stateChange t.state new] = _
  rw [frame.trace, hstate, List.append_assoc]
  rfl

section Listeners

variable {listen : Session D → Session D} (hl : ∀ s, Calls s (listen s))
include hl

theorem enter_calls (new : SessionState) (t : Session D) :
    Calls (t.enter new) ((listen (t.enter new)).post .state) :=
  (hl _).trans (post_calls _ _)

theorem setState_send_calls {new : SessionState} {type : ActionType} (h : Change s.state new [type])
    (hne : new ≠ s.state) : Calls s ((s.send type).setState listen new) := by
  have hmove : Move s ((s.send type).enter new) :=
    enter_move [type] ⟨rfl, rfl⟩ (frame_emit s (.send type s.currentProtocol s.remoteName)) rfl h
  unfold setState
  rw [if_neg (show new ≠ (s.send type).state from hne)]
  exact ⟨(Moves.single hmove).trans (enter_calls hl new _).moves, .inr (by simp [post])⟩

theorem setState_calls {new : SessionState} (h : Change s.state new []) : Calls s (s.setState listen new) := by
  unfold setState
  split
  · exact .refl s
  · exact ⟨(Moves.single (enter_move [] (.refl s) (.refl s) rfl h)).trans (enter_calls hl new s).moves,
      .inr (by simp [post])⟩

/-! ### Calls -/

theorem initiate_calls (recipient : String) (description : D) (transports written : Bool)
    (s : Session D) : Calls s (s.initiate listen recipient description transports written).1 := by
  unfold initiate
  split
  · exact .refl s
  rename_i hstate
  rw [not_not] at hstate
  set s0 : Session D := { s with remoteName := recipient, localDescription := some description }.emit
    .initiated with hs0
  have htake : Calls s s0 :=
    .single (.takeLocal .initiated ⟨rfl, rfl, fun h => absurd hstate h, id, rfl⟩ rfl (.inl rfl) rfl rfl) rfl
  split
  · exact htake
  split
  · exact htake
  · refine htake.trans (setState_send_calls hl ?_ ?_)
    · rw [show s0.state = .init from hstate]
      exact .initiate
    · rw [show s0.state = .init from hstate]
      decide

theorem accept_calls (description : D) (written : Bool) (s : Session D) :
    Calls s (s.accept listen description written).1 := by
  unfold accept
  split
  · exact .refl s
  rename_i hstate
  rw [not_not] at hstate
  set s0 : Session D := { s with localDescription := some description }.emit .accepted with hs0
  have htake : Calls s s0 :=
    .single (.takeLocal .accepted ⟨rfl, rfl, fun _ => rfl, id, rfl⟩ rfl (.inr rfl) rfl rfl) rfl
  split
  · exact htake
  · refine htake.trans (setState_send_calls hl ?_ ?_)
    · rw [show s0.state = .receivedInitiate from hstate]
      exact .accept
    · rw [show s0.state = .receivedInitiate from hstate]
      decide

theorem reject_calls (s : Session D) : Calls s (s.reject listen).1 := by
  unfold reject
  split
  · exact .refl s
  rename_i hstate
  have hallowed : s.state = .receivedInitiate ∨ s.state = .receivedModify := by
    by_contra hnone
    exact hstate ⟨fun h => hnone (.inl h), fun h => hnone (.inr h)⟩
  refine setState_send_calls hl (.reject hallowed) ?_
  rcases hallowed with h | h <;> rw [h] <;> decide

theorem terminateWithReason_calls (s : Session D) : Calls s (s.terminateWithReason listen).1 := by
  unfold terminateWithReason
  split
  · exact .refl s
  · exact .refl s
  · rename_i hstate
    exact setState_calls hl (.conclude (.inl hstate))
  · rename_i hstate
    exact setState_calls hl (.conclude (.inr hstate))
  · rename_i hsent hreceived hreject hrejected
    exact setState_send_calls hl (.terminate hsent hreceived hreject hrejected) (Ne.symm hsent)

theorem apply_calls (c : SessionCall D) (s : Session D) : Calls s (c.apply listen s) := by
  cases c with
  | initiate recipient description transports written => exact initiate_calls hl _ _ _ _ s
  | accept description written => exact accept_calls hl _ _ s
  | reject => exact reject_calls hl s
  | terminate => exact terminateWithReason_calls hl s
  | sendInfo => exact emit_calls s (by rfl)
  | sendDescriptionInfo written =>
    cases written
    · exact .refl s
    · exact emit_calls s (by rfl)
  | setError error => exact setError_calls error s

end Listeners

end Session

theorem Reaction.listen_calls {D : Type} (r : Reaction D) (s : Session D) : s.Calls (r.listen s) := by
  induction r generalizing s with
  | done => exact .refl s
  | call c inner rest ihinner ihrest => exact (Session.apply_calls ihinner c s).trans (ihrest _)

namespace Session

variable {D : Type} {s s' t : Session D} {type : ActionType} {body : Body D}

/-! ### Messages -/

/-- What a message does: it brings about a change of the state, with moves around it, or the description of the
initiator is read for it, or neither. With a well-formed body the change is made if it can be. -/
inductive Handles (type : ActionType) (body : Body D) (s s' : Session D) : Prop
  | pass (h : Calls s s') (hpass : body.WellFormed → ∀ new, ¬ Arrival type s.state new)
  | arrive (s0 s1 : Session D) (before : Moves s s0) (harrive : Arrive type s0 s1) (after : Moves s1 s')
      (hposted : .state ∈ s'.posted)
  | look (s0 s1 : Session D) (htype : type = .transportInfo) (before : Calls s s0)
      (hdescription : s0.initiatorDescription = s.initiatorDescription) (hlook : Look s0 s1)
      (after : Calls s1 s')

theorem Handles.calls (h : Handles type body s t) (h' : Calls t s') : Handles type body s s' := by
  cases h with
  | pass h hpass => exact .pass (h.trans h') hpass
  | arrive s0 s1 before harrive after hposted =>
    exact .arrive s0 s1 before harrive (after.trans h'.moves) (h'.moves.posted hposted)
  | look s0 s1 htype before hdescription hlook after =>
    exact .look s0 s1 htype before hdescription hlook (after.trans h')

theorem Handles.of_calls (h : Calls s t) (hstate : t.state = s.state)
    (hsame : t.initiatorDescription = s.initiatorDescription) (h' : Handles type body t s') :
    Handles type body s s' := by
  cases h' with
  | pass h' hpass => exact .pass (h.trans h') (by rwa [hstate] at hpass)
  | arrive s0 s1 before harrive after hposted =>
    exact .arrive s0 s1 (h.moves.trans before) harrive after hposted
  | look s0 s1 htype before hdescription hlook after =>
    exact .look s0 s1 htype (h.trans before) (hdescription.trans hsame) hlook after

theorem enter_arrive {new : SessionState} (h : Arrival type s.state new) : Arrive type s (s.enter new) :=
  ⟨h, ⟨rfl, rfl, fun _ => rfl, id, rfl⟩, ⟨rfl, rfl⟩⟩

theorem sendTransportInfos_state (n : Nat) (s : Session D) : (s.sendTransportInfos n).state = s.state := by
  induction n generalizing s with
  | zero => rfl
  | succ n ih => exact ih _

theorem onInitiateAcked_state (unsent : Nat) (s : Session D) : (s.onInitiateAcked unsent).state = s.state := by
  unfold onInitiateAcked
  split
  · rfl
  · exact sendTransportInfos_state unsent _

theorem onInitiateAcked_calls (unsent : Nat) (s : Session D) : Calls s (s.onInitiateAcked unsent) := by
  unfold onInitiateAcked
  split
  · exact .refl s
  · have hfield : Calls s { s with initiateAcked := true } :=
      .of_fields ⟨rfl, rfl, fun _ => rfl, id, (List.append_nil _).symm⟩ rfl ⟨rfl, rfl⟩
    exact hfield.trans (sendTransportInfos_calls unsent _)

variable (protocol : SignalingProtocol)

theorem settleProtocol_state (s : Session D) : (s.settleProtocol protocol).state = s.state := by
  unfold settleProtocol
  split <;> rfl

theorem settleProtocol_description (s : Session D) :
    (s.settleProtocol protocol).initiatorDescription = s.initiatorDescription := by
  unfold settleProtocol
  split <;> rfl

theorem settleProtocol_calls (s : Session D) : Calls s (s.settleProtocol protocol) := by
  unfold settleProtocol
  split
  · exact .of_fields ⟨rfl, rfl, fun _ => rfl, id, (List.append_nil _).symm⟩ rfl ⟨rfl, rfl⟩
  · exact .refl s

section Listeners

variable {listen : Session D → Session D} (hl : ∀ s, Calls s (listen s))
include hl

theorem setState_handles {new : SessionState} (before : Moves s t) (h : Arrival type t.state new) :
    Handles type body s (t.setState listen new) := by
  unfold setState
  rw [if_neg (h.ne)]
  exact .arrive t (t.enter new) before (enter_arrive h) (enter_calls hl new t).moves (by simp [post])

variable (msg : SessionMessage)

theorem onInitiateMessage_handles (s : Session D) :
    Handles .sessionInitiate body s (s.onInitiateMessage listen msg body).1 := by
  unfold onInitiateMessage
  split
  · rename_i hstate
    exact .pass (.refl s) fun _ new h => hstate (h.of_initiate)
  rename_i hstate
  rw [not_not] at hstate
  split
  · rename_i hnone
    exact .pass (.refl s) fun hbody => absurd hbody.description (by simp [hnone])
  split
  · rename_i htransports
    exact .pass (.refl s) fun hbody => absurd hbody.transports (by simp [htransports])
  rename_i description _ _
  set s0 : Session D := { s with
    remoteName := msg.sender
    initiatorName := msg.initiator
    remoteDescription := some description }.emit .offered with hs0
  have htake : Move s s0 :=
    .takeRemote .offered ⟨rfl, rfl, fun h => absurd hstate h, id, rfl⟩ rfl (.inl rfl) rfl rfl
  refine setState_handles hl (.single htake) ?_
  rw [show s0.state = .init from hstate]
  exact .initiate

theorem onAcceptMessage_handles (s : Session D) :
    Handles .sessionAccept body s (s.onAcceptMessage listen body).1 := by
  unfold onAcceptMessage
  split
  · rename_i hstate
    exact .pass (.refl s) fun _ new h => hstate (h.of_answer (.inl rfl))
  rename_i hstate
  rw [not_not] at hstate
  split
  · rename_i hnone
    exact .pass (.refl s) fun hbody => absurd hbody.description (by simp [hnone])
  rename_i description _
  set s0 : Session D := { s.onInitiateAcked body.unsent with
    remoteDescription := some description }.emit .answered with hs0
  have htake : Move (s.onInitiateAcked body.unsent) s0 :=
    .takeRemote .answered ⟨rfl, rfl, fun _ => rfl, id, rfl⟩ rfl (.inr rfl) rfl rfl
  refine setState_handles hl ((onInitiateAcked_calls body.unsent s).moves.trans (.single htake)) ?_
  rw [show s0.state = .sentInitiate from (onInitiateAcked_state body.unsent s).trans hstate]
  exact .accept

theorem onRejectMessage_handles (s : Session D) :
    Handles .sessionReject body s (s.onRejectMessage listen).1 := by
  unfold onRejectMessage
  split
  · rename_i hstate
    exact .pass (.refl s) fun _ new h => hstate (h.of_answer (.inr rfl))
  · rename_i hstate
    rw [not_not] at hstate
    refine setState_handles hl .refl ?_
    rw [hstate]
    exact .reject

theorem onTerminateMessage_handles (s : Session D) :
    Handles .sessionTerminate body s (s.onTerminateMessage listen).1 := by
  unfold onTerminateMessage
  by_cases hstate : s.state = .receivedTerminate
  · unfold setState
    rw [if_pos hstate.symm]
    refine .pass (.refl s) fun _ new h => ?_
    cases h with
    | terminate h => exact h hstate
  · exact setState_handles hl .refl (.terminate hstate)

theorem handleAction_handles (body : Body D) (s : Session D) :
    Handles msg.type body s (s.handleAction listen msg body).1 := by
  have hinert {type : ActionType} (hnone : ∀ old new, ¬ Arrival type old new) {s' : Session D}
      (h : Calls s s') : Handles type body s s' := .pass h fun _ new => hnone s.state new
  unfold handleAction
  split <;> rename_i htype <;> rw [htype]
  · exact onInitiateMessage_handles hl msg s
  · exact hinert (by rintro old new ⟨⟩) (.refl s)
  · exact onAcceptMessage_handles hl s
  · exact onRejectMessage_handles hl s
  · exact onTerminateMessage_handles hl s
  · exact .look s (s.emit (.dereference s.initiatorDescription.isSome)) rfl (.refl s) rfl
      ⟨rfl, frame_emit s _, ⟨rfl, rfl⟩⟩ (.refl _)
  · exact hinert (by rintro old new ⟨⟩) (.refl s)
  · refine hinert (by rintro old new ⟨⟩) ?_
    unfold onDescriptionInfoMessage
    split <;> exact .refl s
  · exact hinert (by rintro old new ⟨⟩) (.refl s)

theorem onIncomingMessage_handles (body : Body D) (s : Session D) :
    Handles msg.type body s (s.onIncomingMessage listen msg body) := by
  unfold onIncomingMessage
  refine .of_calls (settleProtocol_calls msg.protocol s) (settleProtocol_state msg.protocol s)
    (settleProtocol_description msg.protocol s) ?_
  refine (handleAction_handles hl msg body _).calls ?_
  dsimp only
  split <;> exact emit_calls _ rfl

end Listeners

theorem onIncomingResponse_calls (type : ActionType) (unsent : Nat) (s : Session D) :
    Calls s (s.onIncomingResponse type unsent) := by
  unfold onIncomingResponse
  split
  · exact onInitiateAcked_calls unsent s
  · exact .refl s

theorem onFailedSend_calls (type : ActionType) (errorType : Option String) (written : Bool) (resent : Nat)
    (s : Session D) : Calls s (s.onFailedSend type none errorType written resent) := by
  unfold onFailedSend
  split
  · exact .refl s
  dsimp only
  split
  · exact .refl s
  · split
    · exact .refl s
    · split
      · exact setError_calls _ s
      · exact .refl s

theorem onRedirectError_cases (target : String) (written : Bool) (resent : Nat) (s : Session D) :
    (∃ s', s.onRedirectError target written resent = (s', false) ∧ Calls s s') ∨
      ∃ s1 s' done, s.onRedirectError target written resent = (s', done) ∧ Redirect s s1 ∧ Calls s1 s' := by
  unfold onRedirectError
  split
  · exact .inl ⟨s, rfl, .refl s⟩
  rename_i hstate
  rw [not_not] at hstate
  split
  · exact .inl ⟨s, rfl, .refl s⟩
  split
  · exact .inr ⟨{ s with remoteName := target }, _, false, rfl,
      ⟨hstate, rfl, rfl, id, ⟨[], (List.append_nil _).symm, by simp⟩, ⟨rfl, rfl⟩⟩, .refl _⟩
  · refine .inr ⟨({ s with remoteName := target } : Session D).send .sessionInitiate, _, true, rfl,
      ⟨hstate, rfl, rfl, id, ⟨_, rfl, ?_⟩, ⟨rfl, rfl⟩⟩, sendTransportInfos_calls resent _⟩
    intro e he
    exact ⟨_, _, List.mem_singleton.mp he⟩

theorem onFailedSend_redirect (type : ActionType) (target : String) (errorType : Option String)
    (written : Bool) (resent : Nat) (s : Session D) :
    Calls s (s.onFailedSend type (some target) errorType written resent) ∨
      ∃ s1, Redirect s s1 ∧ Calls s1 (s.onFailedSend type (some target) errorType written resent) := by
  unfold onFailedSend
  split
  · exact .inl (.refl s)
  dsimp only
  rcases onRedirectError_cases target written resent s with
    ⟨s', heq, hcalls⟩ | ⟨s1, s', done, heq, hredirect, hafter⟩
  · rw [heq]
    exact .inl (hcalls.trans (setError_calls .response s'))
  · rw [heq]
    refine .inr ⟨s1, hredirect, ?_⟩
    cases done
    · exact hafter.trans (setError_calls .response s')
    · exact hafter

/-! ### Messages that were posted, and transports -/

variable (listen : Session D → Session D)

theorem setState_posted (new : SessionState) (h : new ≠ s.state) :
    .state ∈ (s.setState listen new).posted := by
  unfold setState
  rw [if_neg h]
  simp [post]

section Listeners

variable {listen : Session D → Session D} (hl : ∀ s, Calls s (listen s))
include hl

theorem onBaseMessage_calls (message : Posted) (s : Session D) :
    Calls s (s.onBaseMessage listen message) := by
  unfold onBaseMessage
  split
  · exact setError_calls .time s
  · exact .refl s
  · split
    · rename_i hstate
      exact setState_calls hl (.proceed hstate)
    · exact .refl s

theorem onMessage_calls (message : Posted) (s : Session D) : Calls s (s.onMessage listen message).1 := by
  have hbase := onBaseMessage_calls hl message s
  have hterminate := hbase.trans (terminateWithReason_calls hl _)
  unfold onMessage
  split
  · exact hbase
  · exact hterminate
  · split
    · exact hterminate
    · exact hbase

end Listeners

theorem onMessage_posted (h : s.state.Passing) : .state ∈ (s.onMessage listen .state).1.posted := by
  unfold onMessage onBaseMessage
  rcases h with h | h | h | h
  · simpa [h] using setState_posted listen (s := s) .inProgress (by rw [h]; decide)
  · simpa [h] using setState_posted listen (s := s) .inProgress (by rw [h]; decide)
  · simpa [h, terminateWithReason] using setState_posted listen (s := s) .sentTerminate (by rw [h]; decide)
  · simpa [h, terminateWithReason] using setState_posted listen (s := s) .sentTerminate (by rw [h]; decide)

theorem onMessage_destroys (message : Posted) (h : (s.onMessage listen message).2 = true) :
    message = .state ∧ s.state.Terminated ∧ (s.onMessage listen message).1 = s := by
  unfold onMessage onBaseMessage at h ⊢
  cases message with
  | timeout => cases h
  | error => cases h
  | state =>
    dsimp only at h ⊢
    split at h
    · cases h
    · rename_i hreject
      have hstate : s.state = .sentTerminate ∨ s.state = .receivedTerminate := by simpa using h
      refine ⟨rfl, hstate, ?_⟩
      rcases hstate with h | h <;> simp [h]

theorem onMessage_terminated (h : s.state.Terminated) : (s.onMessage listen .state).2 = true := by
  unfold onMessage
  rcases h with h | h <;> simp [h]

theorem onTransportWritable_calls (hasChannels writable : Bool) (s : Session D) :
    Calls s (s.onTransportWritable hasChannels writable) := by
  unfold onTransportWritable
  set s0 : Session D := { s with posted := s.posted.filter (· ≠ .timeout) } with hs0
  have hclear : Calls s s0 :=
    .of_fields ⟨rfl, rfl, fun _ => rfl, fun h => List.mem_filter.mpr ⟨h, by decide⟩, (List.append_nil _).symm⟩ rfl
      ⟨rfl, rfl⟩
  split
  · exact hclear.trans (post_calls s0 .timeout)
  · exact hclear

theorem onCandidatesReady_calls (written : Bool) (s : Session D) :
    Calls s (s.onCandidatesReady written) := by
  unfold onCandidatesReady
  split
  · exact .refl s
  · split
    · exact emit_calls s rfl
    · exact .refl s

/-! ### Steps -/

/-- In a state that a message about the state leads on from, one is posted. -/
def Pending (s : Session D) : Prop := s.state.Passing ∨ s.state.Terminated → .state ∈ s.posted

theorem Calls.pending (h : Calls s s') (hs : Pending s) : Pending s' := by
  intro hstate
  rcases h.settled with heq | hp
  · rw [heq] at hstate
    exact h.moves.posted (hs hstate)
  · exact hp

theorem Handles.pending (h : Handles type body s s') (hs : Pending s) : Pending s' := by
  cases h with
  | pass h => exact h.pending hs
  | arrive s0 s1 before harrive after hposted => exact fun _ => hposted
  | look s0 s1 _ before _ hlook after =>
    refine after.pending fun hstate => ?_
    rw [hlook.stays] at hstate
    exact hlook.frame.posted (before.pending hs hstate)

theorem step_deliver (message : Posted) (r : Reaction D) (s : Session D) :
    (message ∉ s.posted ∧ s.step (.deliver message r) = s) ∨
      (message = .state ∧ s.state.Terminated ∧ s.step (.deliver message r) = (s.taken message).destroy) ∨
      (message ∈ s.posted ∧ ¬ (message = .state ∧ s.state.Terminated) ∧
        s.step (.deliver message r) = ((s.taken message).onMessage r.listen message).1) := by
  by_cases hposted : message ∈ s.posted
  · have hstep : s.step (.deliver message r) = (s.taken message).deliver r.listen message := if_pos hposted
    rw [hstep, deliver]
    dsimp only
    split
    · rename_i hend
      obtain ⟨hmessage, hstate, heq⟩ := onMessage_destroys r.listen message hend
      exact .inr (.inl ⟨hmessage, hstate, by rw [heq]⟩)
    · rename_i hend
      refine .inr (.inr ⟨hposted, ?_, rfl⟩)
      rintro ⟨rfl, hstate⟩
      exact hend (onMessage_terminated r.listen (s := s.taken .state) hstate)
  · exact .inl ⟨hposted, if_neg hposted⟩

theorem taken_pending {message : Posted} (hne : message ≠ .state) (hs : Pending s) :
    Pending (s.taken message) := by
  intro hstate
  exact (List.mem_erase_of_ne hne.symm).mpr (hs hstate)

theorem onMessage_pending (r : Reaction D) (message : Posted)
    (hend : ¬ (message = .state ∧ s.state.Terminated)) (hs : Pending s) :
    Pending ((s.taken message).onMessage r.listen message).1 := by
  have hcalls := onMessage_calls (Reaction.listen_calls r) message (s.taken message)
  by_cases hmessage : message = .state
  · subst hmessage
    by_cases hpassing : s.state.Passing
    · exact fun _ => onMessage_posted r.listen (s := s.taken .state) hpassing
    · refine hcalls.pending ?_
      rintro (h | h)
      · exact absurd h hpassing
      · exact absurd ⟨rfl, h⟩ hend
  · exact hcalls.pending (taken_pending hmessage hs)

@[simp] theorem destroy_state (s : Session D) : s.destroy.state = .deinit := rfl

theorem destroy_pending (s : Session D) : Pending s.destroy := by
  rintro ((h | h | h | h) | (h | h)) <;> cases h

theorem step_pending (op : SessionOp D) (hs : Pending s) : Pending (s.step op) := by
  cases op with
  | call c inner => exact (apply_calls (Reaction.listen_calls inner) c s).pending hs
  | message msg body r =>
    exact (onIncomingMessage_handles (Reaction.listen_calls r) msg body s).pending hs
  | response type unsent => exact (onIncomingResponse_calls type unsent s).pending hs
  | failedSend type redirect errorType written resent =>
    cases redirect with
    | none => exact (onFailedSend_calls type errorType written resent s).pending hs
    | some target =>
      rcases onFailedSend_redirect type target errorType written resent s with
        h | ⟨s1, hredirect, hafter⟩
      · exact h.pending hs
      · refine hafter.pending fun hstate => ?_
        rw [hredirect.stays, hredirect.state] at hstate
        rcases hstate with (h | h | h | h) | (h | h) <;> cases h
  | deliver message r =>
    rcases step_deliver message r s with ⟨-, heq⟩ | ⟨-, -, heq⟩ | ⟨-, hend, heq⟩
    · rwa [heq]
    · rw [heq]
      exact destroy_pending _
    · rw [heq]
      exact onMessage_pending r message hend hs
  | writable hasChannels writable => exact (onTransportWritable_calls hasChannels writable s).pending hs
  | candidates written => exact (onCandidatesReady_calls written s).pending hs

end Session

end Synciga.P2p
