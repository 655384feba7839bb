import Synciga.P2p.Agreement
import Synciga.P2p.SessionSafety

/-!
# Two managers agree on their session

Each step of a link is one of one side: a chain of moves, with a signal that arrives in front of it or in its
midst. What a side sends goes behind what is on its way.

## Main definitions

* `Link.Inv` — the invariant of `Agreement`, of a link

## Main results

* `Link.agreed_run` — the two sides agree in every run
* `Session.pending_of_run` — what a session has posted
-/

namespace Synciga.P2p

namespace Session

variable {D : Type} {s s' t : Session D}

/-! ### What is sent -/

/-- Events are added to the trace. -/
def Adds (s s' : Session D) : Prop := ∃ events, s'.trace = s.trace ++ events

theorem packets_eq {events : List SessionEvent} (h : s'.trace = s.trace ++ events) :
    s.packets s' = events.filterMap Packet.ofEvent := by
  rw [packets, h, List.drop_left]

theorem packets_trans (h : Adds s t) (h' : Adds t s') : s.packets s' = s.packets t ++ t.packets s' := by
  obtain ⟨events, htrace⟩ := h
  obtain ⟨events', htrace'⟩ := h'
  rw [packets_eq htrace, packets_eq htrace', ← List.filterMap_append]
  exact packets_eq (by rw [htrace', htrace, List.append_assoc])

theorem Adds.trans (h : Adds s t) (h' : Adds t s') : Adds s s' := by
  obtain ⟨events, htrace⟩ := h
  obtain ⟨events', htrace'⟩ := h'
  exact ⟨events ++ events', by rw [htrace', htrace, List.append_assoc]⟩

theorem Moves.adds (h : Moves s s') : Adds s s' := by
  have hhappens : Happens False s s' := h.happens
  obtain ⟨events, htrace, -⟩ := hhappens.unread id
  exact ⟨events, htrace⟩

theorem signals_quiet {events : List SessionEvent} (h : ∀ e ∈ events, e.isQuiet) :
    signals (events.filterMap Packet.ofEvent) = [] := by
  rw [signals, List.filterMap_filterMap, List.filterMap_eq_nil_iff]
  intro e he
  have hquiet := h e he
  cases e with
  | send type protocol recipient =>
    cases type <;> first | cases protocol <;> rfl | cases hquiet
  | acknowledge _ => rfl
  | refuse _ => rfl
  | _ => cases hquiet

theorem signals_change {old new : SessionState} {sent : List ActionType} (h : Change old new sent)
    (protocol : SignalingProtocol) (recipient : String) :
    signals ((sent.map (SessionEvent.send · protocol recipient) ++
      [SessionEvent.stateChange old new]).filterMap Packet.ofEvent) = sent.map (·.onWire protocol) := by
  cases h <;> first | rfl | cases protocol <;> rfl

/-! ### One side -/

/-- What is known of one side and of the signals behind it, if it stays true whatever the side does. -/
structure Side (P : Option SessionState → List ActionType → Prop) : Prop where
  change : ∀ {old new sent protocol out}, P (some old) out → Change old new sent →
    P (some new) (out ++ sent.map (·.onWire protocol))
  destroy : ∀ {old out}, P (some old) out → old.Terminated → P none out

/-- What is known before a signal arrives, and what is known then. -/
structure Takes (P P' : Option SessionState → List ActionType → Prop) (type : ActionType) : Prop where
  arrive : ∀ {old new out}, P (some old) out → Arrival type old new → P' (some new) out
  pass : ∀ {state out}, P state out → (∀ old, state = some old → ∀ new, ¬ Arrival type old new) →
    P' state out

variable {P P' : Option SessionState → List ActionType → Prop} {out : List Packet}

theorem Move.silent_or_change (h : Move s s') : (s'.state = s.state ∧ signals (s.packets s') = []) ∨
      ∃ sent, Change s.state s'.state sent ∧ signals (s.packets s') = sent.map (·.onWire s.currentProtocol) := by
  cases h with
  | quiet events frame hstate _ hquiet =>
    rw [packets_eq frame.trace]
    exact .inl ⟨hstate, signals_quiet hquiet⟩
  | takeLocal mark frame hstate hmark =>
    rw [packets_eq frame.trace]
    exact .inl ⟨hstate, by rcases hmark with rfl | rfl <;> rfl⟩
  | takeRemote mark frame hstate hmark =>
    rw [packets_eq frame.trace]
    exact .inl ⟨hstate, by rcases hmark with rfl | rfl <;> rfl⟩
  | change sent hchange frame =>
    rw [packets_eq frame.trace]
    exact .inr ⟨sent, hchange, signals_change hchange _ _⟩

theorem Side.move (hP : Side P) (h : Move s s') (hs : P (some s.state) (signals out)) :
    P (some s'.state) (signals (out ++ s.packets s')) := by
  rw [signals_append]
  rcases h.silent_or_change with ⟨hstate, hnone⟩ | ⟨sent, hchange, hsent⟩
  · rw [hnone, List.append_nil, hstate]
    exact hs
  · rw [hsent]
    exact hP.change hs hchange

theorem Side.moves (hP : Side P) (h : Moves s s') (hs : P (some s.state) (signals out)) :
    P (some s'.state) (signals (out ++ s.packets s')) := by
  induction h with
  | refl =>
    rw [packets_eq (List.append_nil s.trace).symm, List.filterMap_nil, List.append_nil]
    exact hs
  | tail hbefore h ih =>
    rw [packets_trans (Moves.adds hbefore) (Moves.adds (.single h)), ← List.append_assoc]
    exact hP.move h ih

theorem Side.look (h : Look s s') (hs : P (some s.state) (signals out)) :
    P (some s'.state) (signals (out ++ s.packets s')) := by
  have hnone : signals (s.packets s') = [] := by
    rw [packets_eq h.frame.trace]
    rfl
  rw [signals_append, hnone, List.append_nil, h.stays]
  exact hs

theorem Side.handles (hP : Side P) (hP' : Side P') {type : ActionType} (htakes : Takes P P' type)
    {body : Body D} (hbody : body.WellFormed) (h : Handles type body s s')
    (hs : P (some s.state) (signals out)) : P' (some s'.state) (signals (out ++ s.packets s')) := by
  cases h with
  | pass h hpass =>
    refine hP'.moves h.moves (htakes.pass hs fun old hold => ?_)
    cases hold
    exact hpass hbody
  | arrive s0 s1 before harrive after =>
    have hsilent : signals (s0.packets s1) = [] := by
      rw [packets_eq harrive.frame.trace]
      rfl
    have hadds : Adds s0 s1 := ⟨_, harrive.frame.trace⟩
    have hs1 : P' (some s1.state) (signals (out ++ s.packets s1)) := by
      rw [packets_trans before.adds hadds, ← List.append_assoc, signals_append, hsilent, List.append_nil]
      exact htakes.arrive (hP.moves before hs) harrive.arrival
    rw [packets_trans (before.adds.trans hadds) after.adds, ← List.append_assoc]
    exact hP'.moves after hs1
  | look s0 s1 htype before _ hlook after =>
    have hnone : ∀ old new, ¬ Arrival type old new := by
      rintro old new harrival
      rw [htype] at harrival
      cases harrival
    have hadds : Adds s0 s1 := ⟨_, hlook.frame.trace⟩
    have hs0 := hP'.moves before.moves (htakes.pass hs fun old _ => hnone old)
    have hs1 : P' (some s1.state) (signals (out ++ s.packets s1)) := by
      rw [packets_trans before.moves.adds hadds, ← List.append_assoc]
      exact Side.look hlook hs0
    rw [packets_trans (before.moves.adds.trans hadds) after.moves.adds, ← List.append_assoc]
    exact hP'.moves after.moves hs1

theorem Moves.silent_of_init (h : Moves s s') (hinit : s'.state = .init) : signals (s.packets s') = [] := by
  induction h with
  | refl =>
    rw [packets_eq (List.append_nil s.trace).symm]
    rfl
  | tail hbefore h ih =>
    rw [packets_trans (Moves.adds hbefore) (Moves.adds (.single h)), signals_append]
    rcases h.silent_or_change with ⟨hstate, hnone⟩ | ⟨sent, hchange, -⟩
    · rw [ih (hstate ▸ hinit), hnone]
      rfl
    · exact absurd hinit hchange.ne_init

end Session

namespace Party

open Session

variable {D : Type} {s : Session D} {party : Party D}
  {P P' : Option SessionState → List ActionType → Prop} {out : List Packet}

/-- The state of the session, if there is one. -/
def state (party : Party D) : Option SessionState := party.map Session.state

/-- A session that is there is not destroyed, and a message is posted to it where one is needed. -/
def Live (party : Party D) : Prop := ∀ s ∈ party, s.state ≠ .deinit ∧ s.Pending

/-! ### Steps of one side -/

theorem step_of_alive {op : SessionOp D} (h : (s.step op).state ≠ .deinit) :
    Party.step s op = (some (s.step op), s.packets (s.step op)) := by
  rw [Party.step, if_neg h]

theorem live_none : Live (none : Party D) := fun s hs => absurd hs (Option.not_mem_none s)

theorem live_step (hs : s.Pending) (op : SessionOp D) : Live (Party.step s op).1 := by
  rw [Party.step]
  split
  · exact live_none
  · rename_i halive
    intro s' hs'
    obtain rfl : s.step op = s' := by simpa using hs'
    exact ⟨halive, step_pending op hs⟩

theorem live_act (h : Live party) (op : LocalOp D) : Live (party.act op).1 := by
  cases party with
  | none => exact live_none
  | some s => exact live_step (h s rfl).2 op.op

theorem create_pending (localName initiatorName sid : String) :
    (Session.create localName initiatorName sid : Session D).Pending := by
  rintro ((h | h | h | h) | (h | h)) <;> cases h

theorem live_receive (h : Live party) (names : Names) (d : Delivery D) (packet : Packet) :
    Live (party.receive names d packet).1 := by
  cases party with
  | none =>
    cases packet with
    | message protocol type =>
      rw [receive]
      split
      · exact live_step (create_pending _ _ _) _
      · exact live_none
    | result _ => exact live_none
    | error _ => exact live_none
  | some s =>
    have hpending := (h s rfl).2
    cases packet with
    | message protocol type =>
      rw [receive]
      split
      · exact h
      · exact live_step hpending _
    | result type => exact live_step hpending _
    | error type => exact live_step hpending _

theorem side_of_moves (hP : Session.Side P) {op : SessionOp D} (h : Moves s (s.step op))
    (halive : s.state ≠ .deinit)
    (hs : P (some s.state) (signals out)) :
    P (Party.step s op).1.state (signals (out ++ (Party.step s op).2)) := by
  have hhappens : Happens False s (s.step op) := h.happens
  rw [step_of_alive (hhappens.alive halive)]
  exact hP.moves h hs

theorem side_act (hP : Session.Side P) (op : LocalOp D) (hlive : Live party) (h : P party.state (signals out)) :
    P (party.act op).1.state (signals (out ++ (party.act op).2)) := by
  cases party with
  | none =>
    change P none (signals (out ++ []))
    rwa [List.append_nil]
  | some s =>
    have halive := (hlive s rfl).1
    cases op with
    | call c inner => exact side_of_moves hP (apply_calls (Reaction.listen_calls inner) c s).moves halive h
    | writable hasChannels isWritable =>
      exact side_of_moves hP (onTransportWritable_calls hasChannels isWritable s).moves halive h
    | candidates written => exact side_of_moves hP (onCandidatesReady_calls written s).moves halive h
    | deliver message r =>
      change P (Party.step s (.deliver message r)).1.state
        (signals (out ++ (Party.step s (.deliver message r)).2))
      rcases step_deliver message r s with ⟨-, heq⟩ | ⟨-, hstate, heq⟩ | ⟨-, -, heq⟩
      · exact side_of_moves hP (by rw [heq]; exact .refl) halive h
      · have hsilent : s.packets (s.taken message).destroy = [] := packets_eq (destroy_trace (s.taken message))
        rw [Party.step, heq, if_pos (show (s.taken message).destroy.state = .deinit from rfl), hsilent,
          List.append_nil]
        exact hP.destroy h hstate
      · have hcalls := onMessage_calls (Reaction.listen_calls r) message (s.taken message)
        have hhappens : Happens False (s.taken message) _ := hcalls.moves.happens
        rw [Party.step, heq, if_neg (hhappens.alive halive)]
        exact hP.moves (s := s.taken message) hcalls.moves h

/-! ### Stanzas that arrive -/

theorem takes_self {type : ActionType} (htype : type.isSignal = false) : Takes P P type where
  arrive := by
    rintro old new out - harrival
    cases harrival <;> cases htype
  pass := fun h _ => h

/-- A message arrives at a session, or at a side where there is none and none is made for it. -/
theorem side_receive_message (hP : Session.Side P) (hP' : Session.Side P') {type : ActionType}
    (htakes : Takes P P' type)
    (hnone : party = none → type ≠ .sessionInitiate) (names : Names) (d : Delivery D)
    (protocol : SignalingProtocol) (hlive : Live party) (h : P party.state (signals out)) :
    P' (party.receive names d (.message protocol type)).1.state
      (signals (out ++ (party.receive names d (.message protocol type)).2)) := by
  have hrefused (hpass : ∀ old, party.state = some old → ∀ new, ¬ Arrival type old new) :
      P' party.state (signals (out ++ [.error type])) := by
    rw [signals_append, show signals [Packet.error type] = [] from rfl, List.append_nil]
    exact htakes.pass h hpass
  cases party with
  | none =>
    rw [receive, if_neg (hnone rfl)]
    exact hrefused nofun
  | some s =>
    rw [receive]
    split
    · rename_i htype
      refine hrefused fun old _ new harrival => ?_
      rw [htype] at harrival
      cases harrival
    have hhandles := onIncomingMessage_handles (Reaction.listen_calls d.reaction)
      (d.message names protocol type) d.body s
    have halive : (s.step (.message (d.message names protocol type) d.body d.reaction)).state ≠ .deinit :=
      hhandles.happens.alive (hlive s rfl).1
    rw [step_of_alive halive]
    exact Side.handles hP hP' htakes d.wellFormed hhandles h

theorem side_receive_answer (hP : Session.Side P) {packet : Packet}
    (hpacket : ∀ protocol type, packet ≠ .message protocol type) (names : Names) (d : Delivery D)
    (hlive : Live party) (h : P party.state (signals out)) :
    P (party.receive names d packet).1.state (signals (out ++ (party.receive names d packet).2)) := by
  cases party with
  | none =>
    cases packet with
    | message protocol type => exact absurd rfl (hpacket protocol type)
    | result type =>
      change P none (signals (out ++ []))
      rwa [List.append_nil]
    | error type =>
      change P none (signals (out ++ []))
      rwa [List.append_nil]
  | some s =>
    have halive := (hlive s rfl).1
    cases packet with
    | message protocol type => exact absurd rfl (hpacket protocol type)
    | result type => exact side_of_moves hP (onIncomingResponse_calls type d.unsent s).moves halive h
    | error type => exact side_of_moves hP (onFailedSend_calls type d.errorType true 0 s).moves halive h

theorem side_receive_initiate (hP : Session.Side P) (names : Names) (d : Delivery D) (protocol : SignalingProtocol)
    (h : P (some .receivedInitiate) (signals out)) :
    P (receive names d (.message protocol .sessionInitiate) none).1.state
      (signals (out ++ (receive names d (.message protocol .sessionInitiate) none).2)) := by
  rw [receive, if_pos rfl]
  set s : Session D := .create names.localName names.initiatorName names.sid with hs
  have hinit : s.state = .init := rfl
  have hhandles := onIncomingMessage_handles (Reaction.listen_calls d.reaction)
    (d.message names protocol .sessionInitiate) d.body s
  have halive : (s.step (.message (d.message names protocol .sessionInitiate) d.body d.reaction)).state ≠
      .deinit := hhandles.happens.alive (by rw [hinit]; decide)
  rw [step_of_alive halive]
  change P (some (s.onIncomingMessage _ _ _).state) (signals (out ++ s.packets (s.onIncomingMessage _ _ _)))
  cases hhandles with
  | pass _ hpass => exact absurd (hinit ▸ .initiate) (hpass d.wellFormed .receivedInitiate)
  | look _ _ htype => cases htype
  | arrive s0 s1 before harrive after =>
    obtain ⟨h0, h1⟩ : s0.state = .init ∧ s1.state = .receivedInitiate := by
      have harrival := harrive.arrival
      generalize s0.state = old at harrival
      generalize s1.state = new at harrival
      cases harrival
      exact ⟨rfl, rfl⟩
    have hsilent : signals (s.packets s1) = [] := by
      rw [packets_trans before.adds ⟨_, harrive.frame.trace⟩, signals_append, before.silent_of_init h0,
        packets_eq harrive.frame.trace]
      rfl
    rw [packets_trans (before.adds.trans ⟨_, harrive.frame.trace⟩) after.adds, ← List.append_assoc]
    refine hP.moves after ?_
    rw [h1, signals_append, hsilent, List.append_nil]
    exact h

end Party

/-- In every run, a session in a state that it does not stay in has the message posted that ends it. -/
theorem Session.pending_of_run {D : Type} (localName initiatorName sid : String) (ops : List (SessionOp D)) :
    ((Session.create localName initiatorName sid).run ops).Pending := by
  refine List.foldlRecOn ops _ (Party.create_pending localName initiatorName sid) fun s h op _ => ?_
  rw [Session.next]
  split
  · exact h
  · exact step_pending op h

/-! ### Both sides -/

section Sides

variable {a b : Option SessionState} {ab ba : List ActionType} {type : ActionType}

theorem agree_sideA (b : Option SessionState) (ba : List ActionType) :
    Session.Side fun a ab => Agree a b ab ba := ⟨Agree.changeA, Agree.destroyA⟩

theorem agree_sideB (a : Option SessionState) (ab : List ActionType) :
    Session.Side fun b ba => Agree a b ab ba := ⟨Agree.changeB, Agree.destroyB⟩

theorem agree_takesA (b : Option SessionState) (ba : List ActionType) (type : ActionType) :
    Session.Takes (fun a ab => Agree a b ab (type :: ba)) (fun a ab => Agree a b ab ba) type :=
  ⟨Agree.arriveA, Agree.passA⟩

theorem agree_takesB (a : Option SessionState) (ab : List ActionType) (htype : type ≠ .sessionInitiate) :
    Session.Takes (fun b ba => Agree a b (type :: ab) ba) (fun b ba => Agree a b ab ba) type :=
  ⟨Agree.arriveB, fun h => h.passB htype⟩

theorem Agree.ne_initiate (h : Agree a b ab (type :: ba)) : type ≠ .sessionInitiate := by
  rintro rfl
  cases h with
  | offered _ _ _ hba => cases hba
  | met h => exact h.initiateBA List.mem_cons_self

end Sides

theorem signals_message (protocol : SignalingProtocol) {type : ActionType} (h : type.isSignal)
    (rest : List Packet) : signals (.message protocol type :: rest) = type :: signals rest :=
  List.filterMap_cons_some (if_pos h)

theorem signals_other (protocol : SignalingProtocol) {type : ActionType} (h : ¬ type.isSignal)
    (rest : List Packet) : signals (.message protocol type :: rest) = signals rest :=
  List.filterMap_cons_none (if_neg h)

theorem signals_answer {packet : Packet} (h : ∀ protocol type, packet ≠ .message protocol type)
    (rest : List Packet) : signals (packet :: rest) = signals rest := by
  cases packet with
  | message protocol type => exact absurd rfl (h protocol type)
  | result type => rfl
  | error type => rfl

namespace Link

variable {D : Type} {l : Link D}

/-- What holds in every state of a run. -/
structure Inv (l : Link D) : Prop where
  agree : Agree l.a.state l.b.state (signals l.ab) (signals l.ba)
  liveA : l.a.Live
  liveB : l.b.Live

theorem inv_receiveA (h : l.Inv) (names : Names) (d : Delivery D) {packet : Packet} {rest : List Packet}
    (hba : l.ba = packet :: rest) :
    Inv { l with
      a := (l.a.receive names d packet).1
      ab := l.ab ++ (l.a.receive names d packet).2
      ba := rest } := by
  refine ⟨?_, Party.live_receive h.liveA names d packet, h.liveB⟩
  have hagree := h.agree
  rw [hba] at hagree
  have hside := agree_sideA l.b.state (signals rest)
  by_cases hpacket : ∀ protocol type, packet ≠ .message protocol type
  · rw [signals_answer hpacket] at hagree
    exact Party.side_receive_answer hside hpacket names d h.liveA hagree
  simp only [not_forall, not_not] at hpacket
  obtain ⟨protocol, type, rfl⟩ := hpacket
  by_cases hsignal : type.isSignal
  · rw [signals_message protocol hsignal] at hagree
    exact Party.side_receive_message (agree_sideA _ _) hside (agree_takesA _ _ type)
      (fun _ => hagree.ne_initiate) names d protocol h.liveA hagree
  · rw [signals_other protocol hsignal] at hagree
    refine Party.side_receive_message hside hside (Party.takes_self (by simpa using hsignal)) ?_ names d
      protocol h.liveA hagree
    rintro - rfl
    exact hsignal rfl

theorem inv_receiveB (h : l.Inv) (names : Names) (d : Delivery D) {packet : Packet} {rest : List Packet}
    (hab : l.ab = packet :: rest) :
    Inv { l with
      b := (l.b.receive names d packet).1
      ba := l.ba ++ (l.b.receive names d packet).2
      ab := rest } := by
  refine ⟨?_, h.liveA, Party.live_receive h.liveB names d packet⟩
  have hagree := h.agree
  rw [hab] at hagree
  have hside := agree_sideB l.a.state (signals rest)
  by_cases hpacket : ∀ protocol type, packet ≠ .message protocol type
  · rw [signals_answer hpacket] at hagree
    exact Party.side_receive_answer hside hpacket names d h.liveB hagree
  simp only [not_forall, not_not] at hpacket
  obtain ⟨protocol, type, rfl⟩ := hpacket
  by_cases hsignal : type.isSignal
  · rw [signals_message protocol hsignal] at hagree
    by_cases htype : type = .sessionInitiate
    · -- the session is made that the initiate brings about
      subst htype
      obtain ⟨hnone, hcreated⟩ := hagree.create
      rw [show l.b = none from Option.map_eq_none_iff.mp hnone]
      exact Party.side_receive_initiate hside names d protocol hcreated
    · exact Party.side_receive_message (agree_sideB _ _) hside (agree_takesB _ _ htype) (fun _ => htype)
        names d protocol h.liveB hagree
  · rw [signals_other protocol hsignal] at hagree
    refine Party.side_receive_message hside hside (Party.takes_self (by simpa using hsignal)) ?_ names d
      protocol h.liveB hagree
    rintro - rfl
    exact hsignal rfl

variable (sid aName bName : String)

theorem inv_step (h : l.Inv) (op : LinkOp D) : (l.step sid aName bName op).Inv := by
  cases op with
  | actA op =>
    exact ⟨Party.side_act (agree_sideA _ _) op h.liveA h.agree, Party.live_act h.liveA op, h.liveB⟩
  | actB op =>
    exact ⟨Party.side_act (agree_sideB _ _) op h.liveB h.agree, h.liveA, Party.live_act h.liveB op⟩
  | receiveA d =>
    rw [step]
    split
    · exact h
    · rename_i packet rest hba
      exact inv_receiveA h _ d hba
  | receiveB d =>
    rw [step]
    split
    · exact h
    · rename_i packet rest hab
      exact inv_receiveB h _ d hab

theorem inv_run (h : l.Inv) (ops : List (LinkOp D)) : (l.run sid aName bName ops).Inv := by
  induction ops generalizing l with
  | nil => exact h
  | cons op ops ih => exact ih (inv_step sid aName bName h op)

theorem inv_start (description : D) (inner : Reaction D) :
    (start sid aName bName description inner).Inv := by
  set s : Session D := .create aName aName sid with hs
  -- the session up to the change of its state, and what the listeners do from there on
  set s1 : Session D := ((({ s with remoteName := bName, localDescription := some description } :
    Session D).emit .initiated).send .sessionInitiate).enter .sentInitiate with hs1
  have hstep : s.step (.call (.initiate bName description true true) inner) =
      (inner.listen s1).post .state := rfl
  have hmoves : Session.Moves s1 (s.step (.call (.initiate bName description true true) inner)) := by
    exact ((Reaction.listen_calls inner s1).trans (Session.post_calls _ _)).moves
  have hadds : Session.Adds s s1 := ⟨_, (List.append_assoc _ _ _).trans (List.append_assoc _ _ _)⟩
  have hhappens : Session.Happens False s1 _ := hmoves.happens
  have halive := hhappens.alive (show SessionState.sentInitiate ≠ .deinit by decide)
  have hfirst : Agree (some s1.state) none (signals (s.packets s1)) [] := by
    have hsent : signals (s.packets s1) = [.sessionInitiate] := rfl
    refine .offered [] rfl List.not_mem_nil rfl rfl (.inl rfl) (iff_of_false ?_ List.not_mem_nil)
    rintro (h | h | h | h) <;> cases h
  refine ⟨?_, Party.live_step (Party.create_pending _ _ _) _, Party.live_none⟩
  rw [start, Party.step_of_alive halive, Session.packets_trans hadds hmoves.adds]
  exact (agree_sideA none []).moves hmoves hfirst

theorem settled_of_posted {party : Party D} (hlive : party.Live) (hposted : ∀ s ∈ party, s.posted = []) :
    (Accepted party.state → ∃ s, party = some s ∧ s.state = .inProgress) ∧
      (Ending party.state → party = none) := by
  cases party with
  | none => exact ⟨False.elim, fun _ => rfl⟩
  | some s =>
    have hnot (h : s.state.Passing ∨ s.state.Terminated) : False := by
      have hmem := (hlive s rfl).2 h
      rw [hposted s rfl] at hmem
      cases hmem
    constructor
    · rintro (h | h | h)
      · exact (hnot (.inl (.inl h))).elim
      · exact (hnot (.inl (.inr (.inl h)))).elim
      · exact ⟨s, rfl, h⟩
    · rintro (h | h | h)
      · exact (hnot (.inl (.inr (.inr (.inl h))))).elim
      · exact (hnot (.inl (.inr (.inr (.inr h))))).elim
      · exact (hnot (.inr h)).elim

theorem Inv.agreed (h : l.Inv) (hquiet : l.Quiet) : l.Agreed := by
  obtain ⟨hab, hba, hpostedA, hpostedB⟩ := hquiet
  obtain ⟨hacceptedA, hendingA⟩ := settled_of_posted h.liveA hpostedA
  obtain ⟨hacceptedB, hendingB⟩ := settled_of_posted h.liveB hpostedB
  have hagree := h.agree
  rw [hab, hba] at hagree
  rcases hagree.settled with ⟨ha, hb⟩ | ⟨ha, hb⟩ | ⟨ha, hb⟩
  · obtain ⟨s, hs, hstate⟩ := Option.map_eq_some_iff.mp ha
    obtain ⟨t, ht, hstate'⟩ := Option.map_eq_some_iff.mp hb
    exact .inl ⟨s, t, hs, ht, .inr ⟨hstate, hstate'⟩⟩
  · obtain ⟨s, hs, hstate⟩ := hacceptedA ha
    obtain ⟨t, ht, hstate'⟩ := hacceptedB hb
    exact .inl ⟨s, t, hs, ht, .inl ⟨hstate, hstate'⟩⟩
  · exact .inr ⟨hendingA ha, hendingB hb⟩

/-- Whenever nothing is on its way or posted, both sessions are in progress, or the initiate is not answered
yet, or both are destroyed. -/
theorem agreed_run (sid aName bName : String) (description : D) (inner : Reaction D)
    (ops : List (LinkOp D)) :
    ((start sid aName bName description inner).run sid aName bName ops).Quiet →
      ((start sid aName bName description inner).run sid aName bName ops).Agreed :=
  (inv_run sid aName bName (inv_start sid aName bName description inner) ops).agreed

/-- The run in which the session is accepted and everything is delivered. -/
theorem agreed_run_accepted :
    let d : Delivery Unit :=
      ⟨"1", .ofName qnJingle, ⟨some (), true, true, true, 0⟩, ⟨rfl, rfl, rfl, rfl⟩, .done, 0, none⟩
    let ops : List (LinkOp Unit) :=
      [.actA (.deliver .state .done), .receiveB d, .actB (.deliver .state .done),
        .actB (.call (.accept () true) .done), .actB (.deliver .state .done), .actB (.deliver .state .done),
        .receiveA d, .receiveA d, .actA (.deliver .state .done), .actA (.deliver .state .done), .receiveB d]
    let l := (start "7" "alice@a.net/1" "bob@b.net/1" () .done).run "7" "alice@a.net/1" "bob@b.net/1" ops
    l.Quiet ∧ l.Agreed := by
  intro d ops l
  have hquiet : l.Quiet := by
    refine ⟨by decide, by decide, ?_, ?_⟩
    · have h : l.a.map (·.posted) = some [] := by decide
      intro s hs
      rw [Option.mem_def.mp hs] at h
      simpa using h
    · have h : l.b.map (·.posted) = some [] := by decide
      intro s hs
      rw [Option.mem_def.mp hs] at h
      simpa using h
  exact ⟨hquiet, agreed_run "7" "alice@a.net/1" "bob@b.net/1" () .done ops hquiet⟩

end Link

end Synciga.P2p
