import Synciga.P2p.LinkAgreement
import Synciga.P2p.Displacement

/-!
# A side of a link is a manager

What a side of a link does is what a manager does that holds its session under the id, with the address of the
other side, which stays the same from the initiate on.

## Main definitions

* `ManagerLink` — two managers
* `Held` — each holds the session of its side

## Main results

* `held_run` — in every run they do what the sides of a link do
-/

namespace Synciga.P2p

namespace Session

variable {D : Type} {s s' t : Session D}

/-! ### The address -/

/-- A session that has an address keeps it. -/
structure Bound (s s' : Session D) : Prop where
  sid : s'.sid = s.sid
  remoteName : s'.remoteName = s.remoteName
  state : s'.state ≠ .init

theorem Move.bound (h : Move s s') (hs : s.state ≠ .init) : Bound s s' := by
  cases h with
  | quiet _ frame hstate => exact ⟨frame.sid, frame.remoteName hs, hstate ▸ hs⟩
  | takeLocal _ frame hstate => exact ⟨frame.sid, frame.remoteName hs, hstate ▸ hs⟩
  | takeRemote _ frame hstate => exact ⟨frame.sid, frame.remoteName hs, hstate ▸ hs⟩
  | change _ hchange frame => exact ⟨frame.sid, frame.remoteName hs, hchange.ne_init⟩

theorem Bound.trans (h : Bound s t) (h' : Bound t s') : Bound s s' :=
  ⟨h'.sid.trans h.sid, h'.remoteName.trans h.remoteName, h'.state⟩

theorem Moves.bound (h : Moves s s') (hs : s.state ≠ .init) : Bound s s' := by
  induction h with
  | refl => exact ⟨rfl, rfl, hs⟩
  | tail _ h ih => exact ih.trans (h.bound ih.state)

theorem Arrive.bound {type : ActionType} (h : Arrive type s s') (hs : s.state ≠ .init) : Bound s s' := by
  refine ⟨h.frame.sid, h.frame.remoteName hs, ?_⟩
  have harrival := h.arrival
  generalize s.state = old at harrival
  generalize s'.state = new at harrival
  cases harrival <;> decide

theorem Handles.bound {type : ActionType} {body : Body D} (h : Handles type body s s')
    (hs : s.state ≠ .init) : Bound s s' := by
  cases h with
  | pass h => exact h.moves.bound hs
  | arrive s0 s1 before harrive after =>
    have h0 := before.bound hs
    have h1 := h0.trans (harrive.bound h0.state)
    exact h1.trans (after.bound h1.state)
  | look s0 s1 _ before _ hlook after =>
    have h0 := before.moves.bound hs
    have h1 : Bound s0 s1 :=
      ⟨hlook.frame.sid, hlook.frame.remoteName h0.state, hlook.stays ▸ h0.state⟩
    exact (h0.trans h1).trans (after.moves.bound h1.state)

theorem onInitiateMessage_taken (listen : Session D → Session D) (msg : SessionMessage) (body : Body D)
    (hbody : body.WellFormed) (hs : s.state = .init) :
    ∃ s1, s1.remoteName = msg.sender ∧ s1.state = .receivedInitiate ∧
      (s.onInitiateMessage listen msg body).1 = (listen s1).post .state := by
  obtain ⟨description, hdescription⟩ := Option.isSome_iff_exists.mp hbody.description
  set s0 : Session D := { s with
    remoteName := msg.sender
    initiatorName := msg.initiator
    remoteDescription := some description }.emit .offered with hs0
  have hne : SessionState.receivedInitiate ≠ s0.state := by
    rw [show s0.state = .init from hs]
    decide
  refine ⟨s0.enter .receivedInitiate, rfl, rfl, ?_⟩
  rw [onInitiateMessage, if_neg (not_not.mpr hs), hdescription]
  dsimp only
  rw [if_neg (show ¬ body.transports = false by simp [hbody.transports]), ← hs0, setState, if_neg hne]

theorem onIncomingMessage_created (r : Reaction D) (msg : SessionMessage) (body : Body D)
    (hbody : body.WellFormed) (htype : msg.type = .sessionInitiate) (hs : s.state = .init) :
    (s.onIncomingMessage r.listen msg body).remoteName = msg.sender ∧
      (s.onIncomingMessage r.listen msg body).state ≠ .init := by
  obtain ⟨s1, hname, hstate, htaken⟩ := onInitiateMessage_taken r.listen msg body hbody
    ((settleProtocol_state msg.protocol s).trans hs)
  have hbound : Bound s1 ((r.listen s1).post .state) :=
    ((Reaction.listen_calls r s1).trans (post_calls _ _)).moves.bound (by rw [hstate]; decide)
  rw [onIncomingMessage, handleAction, htype]
  change (onInitiateMessage _ msg body _).1.remoteName = _ ∧ (onInitiateMessage _ msg body _).1.state ≠ _
  rw [htaken]
  exact ⟨hbound.remoteName.trans hname, hbound.state⟩

end Session

namespace SessionManager

variable {D : Type} {m : SessionManager D} {names : Names} {party : Party D}

/-- A manager holds the session of a side: it is stored under the id and has the address of the other
side. -/
def Holds (m : SessionManager D) (names : Names) : Party D → Prop
  | none => m.sessionMap names.sid = none
  | some s => s.sid = names.sid ∧ s.remoteName = names.remoteName ∧ s.state ≠ .init ∧
      ∃ session, m.Stored names.sid session s

/-! ### Messages -/

variable {s : Session D} {session : Nat}

theorem Stored.withSession {sid : String} (h : m.Stored sid session s)
    (f : Session D → Session D) (hf : (f s).state ≠ .deinit) :
    (m.withSession session f).Stored sid session (f s) := by
  refine ⟨h.entry, ?_, hf⟩
  change (m.sessions.modify session _)[session]? = _
  rw [List.getElem?_modify_eq, h.place]
  exact congrArg some (if_neg h.alive)

theorem Holds.withSession (h : m.Holds names (some s))
    (hstored : m.Stored names.sid session s) {f : Session D → Session D} (hbound : s.Bound (f s))
    (hf : (f s).state ≠ .deinit) : (m.withSession session f).Holds names (some (f s)) :=
  ⟨hbound.sid.trans h.1, hbound.remoteName.trans h.2.1, hbound.state, session, hstored.withSession f hf⟩

theorem Holds.findSession (h : m.Holds names (some s)) (hstored : m.Stored names.sid session s) :
    m.findSession names.sid names.remoteName = some session := by
  rw [← h.2.1]
  exact hstored.findSession_self

theorem findSession_of_holds_none (h : m.Holds names (none : Party D)) :
    m.findSession names.sid names.remoteName = none := by
  rw [SessionManager.findSession, show m.sessionMap names.sid = none from h]

variable {body : Body D} {msg : SessionMessage} {r : Reaction D} {stanza : XmlElement}

theorem handleMessage_found (h : m.findSession msg.sid msg.sender = some session) :
    m.handleMessage stanza msg body r = m.withSession session (·.onIncomingMessage r.listen msg body) := by
  rw [handleMessage, h]

theorem handleMessage_unknown
    (h : m.findSession msg.sid msg.sender = none) (htype : msg.type ≠ .sessionInitiate) :
    m.handleMessage stanza msg body r =
      m.sendErrorMessage stanza qnStanzaBadRequest "modify" "unknown session" := by
  rw [handleMessage, h]
  exact if_pos htype

theorem handleMessage_created
    (h : m.findSession msg.sid msg.sender = none) (htype : msg.type = .sessionInitiate)
    {contentType : String} (hcontent : parseContentType msg.protocol msg.actionElem = .ok contentType)
    (hclient : contentType ∈ m.clients) :
    m.handleMessage stanza msg body r =
      (m.createSession msg.recipient msg.initiator msg.sid).1.withSession m.sessions.length
        (·.onIncomingMessage r.listen msg body) := by
  rw [handleMessage, h]
  rw [if_neg (not_not.mpr htype), hcontent]
  exact if_neg (not_not.mpr hclient)

theorem create_alive (localName initiatorName sid : String) :
    (Session.create localName initiatorName sid : Session D).state ≠ .deinit :=
  show SessionState.init ≠ .deinit by decide

theorem createSession_stored (m : SessionManager D) (localName initiatorName sid : String) :
    (m.createSession localName initiatorName sid).1.Stored sid m.sessions.length
      (.create localName initiatorName sid) :=
  ⟨Function.update_self _ _ _, List.getElem?_concat_length, create_alive _ _ _⟩

/-- A session can be made for an initiate: its contents are those of a client. -/
def Serves (m : SessionManager D) (d : Delivery D) : Packet → Prop
  | .message protocol .sessionInitiate =>
    ∃ contentType ∈ m.clients, parseContentType protocol d.actionElem = .ok contentType
  | _ => True

theorem holds_handleMessage (stanza : XmlElement) (d : Delivery D) (protocol : SignalingProtocol)
    {type : ActionType} (htype : type ≠ .unknown) (hserves : m.Serves d (.message protocol type))
    (h : m.Holds names party) :
    (m.handleMessage stanza (d.message names protocol type) d.body d.reaction).Holds names
      (party.receive names d (.message protocol type)).1 := by
  have hhandles (s : Session D) := Session.onIncomingMessage_handles (Reaction.listen_calls d.reaction)
    (d.message names protocol type) d.body s
  cases party with
  | some s =>
    obtain ⟨session, hstored⟩ := h.2.2.2
    have hfound := h.findSession hstored
    have halive : (s.step (.message (d.message names protocol type) d.body d.reaction)).state ≠ .deinit :=
      (hhandles s).happens.alive hstored.alive
    rw [handleMessage_found hfound, Party.receive, if_neg htype, Party.step_of_alive halive]
    exact h.withSession hstored ((hhandles s).bound h.2.2.1) halive
  | none =>
    have hfound := findSession_of_holds_none h
    by_cases hinitiate : type = .sessionInitiate
    · subst hinitiate
      obtain ⟨contentType, hclient, hcontent⟩ := hserves
      set s : Session D := .create names.localName names.initiatorName names.sid with hs
      have halive : (s.step (.message (d.message names protocol .sessionInitiate) d.body d.reaction)).state ≠
          .deinit := (hhandles s).happens.alive (create_alive _ _ _)
      have hcreated := Session.onIncomingMessage_created d.reaction
        (d.message names protocol .sessionInitiate) d.body d.wellFormed rfl (s := s) rfl
      rw [handleMessage_created hfound rfl hcontent hclient, Party.receive, if_pos rfl,
        Party.step_of_alive halive]
      have hstored := (m.createSession_stored names.localName names.initiatorName names.sid).withSession _
        halive
      exact ⟨(hhandles s).happens.sid, hcreated.1, hcreated.2, _, hstored⟩
    · rw [handleMessage_unknown hfound hinitiate, Party.receive, if_neg hinitiate]
      exact h

/-! ### Answers and the own side -/

section Sessions

variable {s : Session D} {session : Nat}

theorem Holds.moves (op : SessionOp D) (h : m.Holds names (some s)) (hstored : m.Stored names.sid session s)
    (hmoves : s.Moves (s.step op)) :
    (m.withSession session (·.step op)).Holds names (Party.step s op).1 := by
  have hhappens : Session.Happens False s (s.step op) := hmoves.happens
  have halive := hhappens.alive hstored.alive
  rw [Party.step_of_alive halive]
  exact h.withSession (f := (·.step op)) hstored (hmoves.bound h.2.2.1) halive

theorem holds_onIncomingResponse (d : Delivery D) (type : ActionType) (h : m.Holds names party) :
    (m.onIncomingResponse names.sid names.remoteName type d.unsent).Holds names
      (party.receive names d (.result type)).1 := by
  cases party with
  | none =>
    rw [onIncomingResponse, findSession_of_holds_none h]
    exact h
  | some s =>
    obtain ⟨session, hstored⟩ := h.2.2.2
    rw [onIncomingResponse, h.findSession hstored]
    exact h.moves (.response type d.unsent) hstored
      (Session.onIncomingResponse_calls type d.unsent s).moves

theorem holds_onFailedSend (d : Delivery D) (type : ActionType) (h : m.Holds names party) :
    (m.onFailedSend names.sid names.remoteName type none d.errorType true 0).Holds names
      (party.receive names d (.error type)).1 := by
  cases party with
  | none =>
    rw [onFailedSend, findSession_of_holds_none h]
    exact h
  | some s =>
    obtain ⟨session, hstored⟩ := h.2.2.2
    rw [onFailedSend, h.findSession hstored]
    exact h.moves (.failedSend type none d.errorType true 0) hstored
      (Session.onFailedSend_calls type d.errorType true 0 s).moves

theorem holds_deliver (message : Posted) (r : Reaction D) (h : m.Holds names (some s))
    (hstored : m.Stored names.sid session s) :
    (m.deliver session message r).Holds names (Party.step s (.deliver message r)).1 := by
  have hcalls := Session.onMessage_calls (Reaction.listen_calls r) message (s.taken message)
  have hhappens : Session.Happens False (s.taken message) _ := hcalls.moves.happens
  have halive := hhappens.alive (s := s.taken message) hstored.alive
  have hbound := hcalls.moves.bound (s := s.taken message) h.2.2.1
  by_cases hposted : message ∈ s.posted
  · have hstep : s.step (.deliver message r) = (s.taken message).deliver r.listen message := if_pos hposted
    set m' := m.withSession session fun _ => ((s.taken message).onMessage r.listen message).1 with hm'
    have hdeliver : m.deliver session message r =
        if ((s.taken message).onMessage r.listen message).2 then m'.destroySession session else m' := by
      rw [deliver, hstored.place]
      exact if_pos hposted
    have hheld : m'.Holds names (some ((s.taken message).onMessage r.listen message).1) :=
      h.withSession (f := fun _ => _) hstored ⟨hbound.sid, hbound.remoteName, hbound.state⟩ halive
    have hstored' := hstored.withSession (fun _ => ((s.taken message).onMessage r.listen message).1) halive
    rw [hdeliver, Party.step, hstep, Session.deliver]
    dsimp only
    split
    · rw [if_pos (Session.destroy_state _)]
      change (m'.destroySession session).sessionMap names.sid = none
      have hsid := hheld.1
      rw [← hsid] at hstored' ⊢
      exact hstored'.destroySession.1
    · exact hheld
  · have hstep : s.step (.deliver message r) = s := if_neg hposted
    have hdeliver : m.deliver session message r = m := by
      rw [deliver, hstored.place]
      exact if_neg hposted
    rw [hdeliver, Party.step, hstep, if_neg hstored.alive]
    exact h

theorem holds_act (op : LocalOp D) (h : m.Holds names (some s)) (hstored : m.Stored names.sid session s) :
    (m.act session op).Holds names (Party.act op (some s)).1 := by
  cases op with
  | call c inner => exact h.moves _ hstored (Session.apply_calls (Reaction.listen_calls inner) c s).moves
  | deliver message r => exact holds_deliver message r h hstored
  | writable hasChannels isWritable =>
    exact h.moves _ hstored (Session.onTransportWritable_calls hasChannels isWritable s).moves
  | candidates written => exact h.moves _ hstored (Session.onCandidatesReady_calls written s).moves

end Sessions

/-! ### Two managers -/

/-- A stanza of a session arrives. A message whose action is not known cannot be parsed. -/
def receive (names : Names) (stanza : XmlElement) (d : Delivery D) (m : SessionManager D) :
    Packet → SessionManager D
  | .message protocol type =>
    if type = .unknown then
      m.sendErrorMessage stanza qnStanzaBadRequest "modify"
        ("unknown action: " ++ d.actionElem.attr (if protocol = .gingle then Xmpp.qnType else qnAction))
    else m.handleMessage stanza (d.message names protocol type) d.body d.reaction
  | .result type => m.onIncomingResponse names.sid names.remoteName type d.unsent
  | .error type => m.onFailedSend names.sid names.remoteName type none d.errorType true 0

/-- Something happens to the session under an id. -/
def actOn (sid : String) (op : LocalOp D) (m : SessionManager D) : SessionManager D :=
  (m.sessionMap sid).elim m (m.act · op)

theorem holds_receive (stanza : XmlElement) (d : Delivery D) {packet : Packet} (hserves : m.Serves d packet)
    (h : m.Holds names party) :
    (m.receive names stanza d packet).Holds names (party.receive names d packet).1 := by
  cases packet with
  | result type => exact holds_onIncomingResponse d type h
  | error type => exact holds_onFailedSend d type h
  | message protocol type =>
    by_cases htype : type = .unknown
    · subst htype
      cases party with
      | none => exact h
      | some s =>
        obtain ⟨hsid, hname, hstate, session, hstored⟩ := h
        exact ⟨hsid, hname, hstate, session, hstored.entry, hstored.place, hstored.alive⟩
    · rw [receive, if_neg htype]
      exact holds_handleMessage stanza d protocol htype hserves h

theorem holds_actOn (op : LocalOp D) (h : m.Holds names party) :
    (m.actOn names.sid op).Holds names (party.act op).1 := by
  cases party with
  | none =>
    rw [actOn, show m.sessionMap names.sid = none from h]
    exact h
  | some s =>
    obtain ⟨session, hstored⟩ := h.2.2.2
    rw [actOn, hstored.entry]
    exact holds_act op h hstored

end SessionManager

/-- Both managers, beside the link of their session. -/
structure ManagerLink (D : Type) where
  link : Link D
  a : SessionManager D
  b : SessionManager D

namespace ManagerLink

variable {D : Type} (sid aName bName : String)

/-- A step of the link, which both managers take with the stanza in which a packet comes. -/
def step (l : ManagerLink D) : LinkOp D × XmlElement → Option (ManagerLink D)
  | (op, stanza) => some {
    link := l.link.step sid aName bName op
    a := match op with
      | .actA op => l.a.actOn sid op
      | .receiveA d => l.link.ba.head?.elim l.a (l.a.receive ⟨sid, aName, bName, aName⟩ stanza d)
      | _ => l.a
    b := match op with
      | .actB op => l.b.actOn sid op
      | .receiveB d => l.link.ab.head?.elim l.b (l.b.receive ⟨sid, bName, aName, aName⟩ stanza d)
      | _ => l.b }

/-- Behind a call of `Initiate` for a new session. -/
def start (description : D) (inner : Reaction D) (a b : SessionManager D) : ManagerLink D :=
  ⟨.start sid aName bName description inner, (a.createSession aName aName sid).1.withSession a.sessions.length
    (·.step (.call (.initiate bName description true true) inner)), b⟩

/-- An initiate that comes is one for a client. -/
def Served (l : ManagerLink D) : LinkOp D × XmlElement → Prop
  | (.receiveA d, _) => ∀ packet ∈ l.link.ba.head?, l.a.Serves d packet
  | (.receiveB d, _) => ∀ packet ∈ l.link.ab.head?, l.b.Serves d packet
  | _ => True

/-- Each manager holds the session of its side. -/
def Held (l : ManagerLink D) : Prop :=
  l.a.Holds ⟨sid, aName, bName, aName⟩ l.link.a ∧ l.b.Holds ⟨sid, bName, aName, aName⟩ l.link.b

variable {sid aName bName} {l l' : ManagerLink D}

theorem Held.step {op : LinkOp D × XmlElement} (h : l.Held sid aName bName) (hserved : l.Served op)
    (hstep : l.step sid aName bName op = some l') : l'.Held sid aName bName := by
  obtain ⟨op, stanza⟩ := op
  cases hstep
  cases op with
  | actA op => exact ⟨SessionManager.holds_actOn op h.1, h.2⟩
  | actB op => exact ⟨h.1, SessionManager.holds_actOn op h.2⟩
  | receiveA d =>
    rw [Held, Link.step]
    cases hba : l.link.ba with
    | nil => exact h
    | cons packet rest =>
      exact ⟨SessionManager.holds_receive stanza d (hserved packet (by rw [hba]; rfl)) h.1, h.2⟩
  | receiveB d =>
    rw [Held, Link.step]
    cases hab : l.link.ab with
    | nil => exact h
    | cons packet rest =>
      exact ⟨h.1, SessionManager.holds_receive stanza d (hserved packet (by rw [hab]; rfl)) h.2⟩

theorem held_start (description : D) (inner : Reaction D) (a : SessionManager D) {b : SessionManager D}
    (hb : b.sessionMap sid = none) : (start sid aName bName description inner a b).Held sid aName bName := by
  set s : Session D := .create aName aName sid with hs
  set s1 : Session D := ((({ s with remoteName := bName, localDescription := some description } :
    Session D).emit .initiated).send .sessionInitiate).enter .sentInitiate with hs1
  have hmoves : Session.Moves s1 (s.step (.call (.initiate bName description true true) inner)) :=
    ((Reaction.listen_calls inner s1).trans (Session.post_calls _ _)).moves
  have hbound := hmoves.bound (show SessionState.sentInitiate ≠ .init by decide)
  have hhappens : Session.Happens False s1 _ := hmoves.happens
  have halive := hhappens.alive (show SessionState.sentInitiate ≠ .deinit by decide)
  refine ⟨?_, hb⟩
  rw [start, Link.start, Party.step_of_alive halive]
  exact ⟨hbound.sid, hbound.remoteName, hbound.state, _,
    (a.createSession_stored aName aName sid).withSession _ halive⟩

/-- Through every run of the link, each manager holds the session of its side. -/
theorem held_run (description : D) (inner : Reaction D) (a b : SessionManager D)
    (hb : b.sessionMap sid = none) {ops : List (LinkOp D × XmlElement)}
    (hserved : Runs.Admissible (step sid aName bName) Served (start sid aName bName description inner a b) ops)
    (hrun : Runs.run (step sid aName bName) (start sid aName bName description inner a b) ops = some l) :
    l.Held sid aName bName :=
  Runs.invariant (fun _ _ _ h hserved hstep => Held.step h hserved hstep) (held_start description inner a hb)
    hserved hrun

/-- The initiate is brought to the other manager, which has a client for its contents. -/
theorem held_run_received :
    let d : Delivery Unit :=
      ⟨"1", (XmlElement.ofName qnJingle).addElement ((XmlElement.ofName qnJingleContent).addElement
        (.ofName ⟨"tunnel", lnDescription⟩)), ⟨some (), true, true, true, 0⟩, ⟨rfl, rfl, rfl, rfl⟩, .done, 0, none⟩
    let m : SessionManager Unit := ⟨["tunnel"], fun _ => none, [], []⟩
    let link : ManagerLink Unit := start "7" "a@a.net/1" "b@b.net/1" () .done m m
    ∃ l, Runs.run (step "7" "a@a.net/1" "b@b.net/1") link [(.receiveB d, .ofName Xmpp.qnIq)] = some l ∧
      l.Held "7" "a@a.net/1" "b@b.net/1" := by
  intro d m link
  have hserved : Runs.Admissible (step "7" "a@a.net/1" "b@b.net/1") Served link
      [(.receiveB d, .ofName Xmpp.qnIq)] := by
    refine ⟨fun packet hpacket => ?_, fun _ _ => trivial⟩
    cases hpacket
    exact ⟨"tunnel", List.mem_singleton_self _, rfl⟩
  exact ⟨_, rfl, held_run () .done m m rfl hserved rfl⟩

end ManagerLink

end Synciga.P2p
