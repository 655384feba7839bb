import Synciga.P2p.ManagerLink

/-!
# The clients of a session manager

A session that comes in is announced to the client for its contents when it is made
(`talk/p2p/base/sessionmanager.cc`), which keeps it in a list (`talk/session/tunnel/tunnelsessionclient.cc`),
and only then reads the message. An initiate that it refuses leaves it behind in the map and in the list.

## Main definitions

* `SessionHost` — a manager and its clients

## Main results

* `refusesCleanly_iff` — every other stanza that is refused leaves both as they are
-/

namespace Synciga.P2p

open Xmpp (qnFrom)

/-- `SessionManager`, with its clients. -/
structure SessionHost (D : Type) where
  manager : SessionManager D
  /-- `sessions_` of `TunnelSessionClientBase`, by the type of contents that the client is for. -/
  tunnels : String → List Nat

/-! ### Sessions and their first message -/

namespace Session

variable {D : Type}

/-- Whether a message is answered without an error. -/
def takes (listen : Session D → Session D) (msg : SessionMessage) (body : Body D) (s : Session D) : Bool :=
  ((s.settleProtocol msg.protocol).handleAction listen msg body).2

/-- A session that is made for an initiate, as those who listen find it. -/
def offered (msg : SessionMessage) (description : D) : Session D :=
  ({ (create msg.recipient msg.initiator msg.sid).settleProtocol msg.protocol with
    remoteName := msg.sender
    initiatorName := msg.initiator
    remoteDescription := some description }.emit .offered).enter .receivedInitiate

theorem onIncomingMessage_answer (listen : Session D → Session D) (msg : SessionMessage) (body : Body D)
    (s : Session D) :
    (s.onIncomingMessage listen msg body).trace.getLast? =
      some (if s.takes listen msg body then .acknowledge msg.type else .refuse msg.type) :=
  List.getLast?_concat

end Session

/-- An initiate is taken by the session made for it: contents, transports and candidates can be parsed and are
supported, unless a listener rejects the session before. -/
def Body.IsTaken {D : Type} (body : Body D) (msg : SessionMessage) (r : Reaction D) : Prop :=
  ∃ description, body.description = some description ∧ body.transports = true ∧
    (body.candidates = true ∨ (r.listen (Session.offered msg description)).state = .sentReject)

theorem Session.takes_created {D : Type} (msg : SessionMessage) (htype : msg.type = .sessionInitiate)
    (body : Body D) (r : Reaction D) :
    (Session.create msg.recipient msg.initiator msg.sid).takes r.listen msg body = true ↔
      body.IsTaken msg r := by
  set s : Session D := (Session.create msg.recipient msg.initiator msg.sid).settleProtocol msg.protocol with hs
  have hstate : s.state = .init := Session.settleProtocol_state msg.protocol _
  rw [Session.takes, ← hs, Session.handleAction, htype]
  rw [Session.onInitiateMessage, if_neg (not_not.mpr hstate)]
  rcases hdescription : body.description with _ | description
  · exact iff_of_false Bool.false_ne_true (by rintro ⟨_, h, -⟩; rw [hdescription] at h; cases h)
  dsimp only
  by_cases htransports : body.transports = false
  · rw [if_pos htransports]
    exact iff_of_false Bool.false_ne_true (by rintro ⟨_, -, h, -⟩; simp [htransports] at h)
  rw [if_neg htransports, Session.setState, if_neg (by rw [Session.emit, hstate]; decide)]
  have hoffered : ({ s with
      remoteName := msg.sender
      initiatorName := msg.initiator
      remoteDescription := some description }.emit .offered).enter .receivedInitiate =
      Session.offered msg description := rfl
  rw [hoffered, Bool.or_eq_true, decide_eq_true_iff]
  constructor
  · intro h
    exact ⟨description, hdescription, Bool.eq_true_of_not_eq_false htransports, h.symm⟩
  · rintro ⟨_, hsome, -, h⟩
    rw [hdescription] at hsome
    cases hsome
    exact h.symm

namespace SessionHost

variable {D : Type}

/-- `TunnelSessionClientBase::OnSessionCreate`, of a session that was received. -/
def onSessionCreate (contentType : String) (session : Nat) (h : SessionHost D) : SessionHost D :=
  { h with tunnels := Function.update h.tunnels contentType (h.tunnels contentType ++ [session]) }

/-- `CreateSession`, for an initiate that was received. -/
def createSession (localName initiatorName sid contentType : String) (h : SessionHost D) :
    SessionHost D × Nat :=
  let (manager, session) := h.manager.createSession localName initiatorName sid
  ({ h with manager }.onSessionCreate contentType session, session)

/-- The manager does something by itself. -/
def withManager (f : SessionManager D → SessionManager D) (h : SessionHost D) : SessionHost D :=
  { h with manager := f h.manager }

variable (stanza : XmlElement)

/-- The part of `OnIncomingMessage` behind the parsing of the message. -/
def handleMessage (msg : SessionMessage) (body : Body D) (r : Reaction D)
    (h : SessionHost D) : SessionHost D :=
  match h.manager.findSession msg.sid msg.sender with
  | some session => h.withManager (·.withSession session (·.onIncomingMessage r.listen msg body))
  | none =>
    if msg.type ≠ .sessionInitiate then
      h.withManager (·.sendErrorMessage stanza qnStanzaBadRequest "modify" "unknown session")
    else match parseContentType msg.protocol msg.actionElem with
      | .error error => h.withManager (·.sendErrorMessage stanza qnStanzaBadRequest "modify" error)
      | .ok contentType =>
        if contentType ∉ h.manager.clients then
          h.withManager (·.sendErrorMessage stanza qnStanzaBadRequest "modify"
            ("unknown content type: " ++ contentType))
        else
          let (h, session) := h.createSession msg.recipient msg.initiator msg.sid contentType
          h.withManager (·.withSession session (·.onIncomingMessage r.listen msg body))

/-- `SessionManager::OnIncomingMessage`. -/
def onIncomingMessage (body : Body D) (r : Reaction D) (h : SessionHost D) :
    SessionHost D :=
  match parseSessionMessage stanza with
  | .error error => h.withManager (·.sendErrorMessage stanza qnStanzaBadRequest "modify" error)
  | .ok msg => h.handleMessage stanza msg body r

theorem handleMessage_manager (msg : SessionMessage) (body : Body D) (r : Reaction D) (h : SessionHost D) :
    (h.handleMessage stanza msg body r).manager = h.manager.handleMessage stanza msg body r := by
  rw [handleMessage, SessionManager.handleMessage]
  cases h.manager.findSession msg.sid msg.sender with
  | some session => rfl
  | none =>
    by_cases htype : msg.type ≠ .sessionInitiate
    · rw [if_pos htype, if_pos htype]
      rfl
    rw [if_neg htype, if_neg htype]
    cases parseContentType msg.protocol msg.actionElem with
    | error error => rfl
    | ok contentType =>
      dsimp only
      by_cases hclient : contentType ∉ h.manager.clients
      · rw [if_pos hclient, if_pos hclient]
        rfl
      · rw [if_neg hclient, if_neg hclient]
        rfl

theorem onIncomingMessage_manager (body : Body D) (r : Reaction D) (h : SessionHost D) :
    (h.onIncomingMessage stanza body r).manager = h.manager.onIncomingMessage stanza body r := by
  rw [onIncomingMessage, SessionManager.onIncomingMessage]
  cases parseSessionMessage stanza with
  | error error => rfl
  | ok msg => exact handleMessage_manager stanza msg body r h

/-! ### What is expected -/

/-- The answer to a stanza is an error: one of the manager, or one of the session that has handled it. -/
def AnswersWithError (m m' : SessionManager D) : Prop :=
  m'.errors ≠ m.errors ∨ ∃ (session : Nat) (s : Session D) (type : ActionType),
    m'.sessions[session]? = some s ∧ m.sessions[session]? ≠ some s ∧ s.trace.getLast? = some (.refuse type)

/-- An answer that is an error leaves the sessions stored as they were, here and with the clients. -/
def RefusesCleanly (h h' : SessionHost D) : Prop :=
  AnswersWithError h.manager h'.manager →
    h'.manager.sessionMap = h.manager.sessionMap ∧ h'.tunnels = h.tunnels

/-- A stanza is an initiate for which a session is made, and the session does not take it. -/
def Strands (body : Body D) (r : Reaction D) (h : SessionHost D) : Prop :=
  ∃ msg contentType, parseSessionMessage stanza = .ok msg ∧
    h.manager.findSession msg.sid msg.sender = none ∧ msg.type = .sessionInitiate ∧
    parseContentType msg.protocol msg.actionElem = .ok contentType ∧ contentType ∈ h.manager.clients ∧
    ¬ body.IsTaken msg r

/-! ### What an answer leaves behind -/

/-- What a stanza does: the map and the lists stay as they are, or a session is made that reads it. -/
inductive Handled (stanza : XmlElement) (body : Body D) (r : Reaction D) (h : SessionHost D) :
    SessionHost D → Prop
  | kept (f : SessionManager D → SessionManager D) (hmap : (f h.manager).sessionMap = h.manager.sessionMap)
      (hkeeps : ¬ Strands stanza body r h) : Handled stanza body r h (h.withManager f)
  | created (msg : SessionMessage) (contentType : String) (hparse : parseSessionMessage stanza = .ok msg)
      (hfound : h.manager.findSession msg.sid msg.sender = none) (htype : msg.type = .sessionInitiate)
      (hcontent : parseContentType msg.protocol msg.actionElem = .ok contentType)
      (hclient : contentType ∈ h.manager.clients) :
      Handled stanza body r h
        ((h.createSession msg.recipient msg.initiator msg.sid contentType).1.withManager
          (·.withSession h.manager.sessions.length (·.onIncomingMessage r.listen msg body)))

theorem onIncomingMessage_handled (body : Body D) (r : Reaction D)
    (h : SessionHost D) : Handled stanza body r h (h.onIncomingMessage stanza body r) := by
  rw [onIncomingMessage]
  split
  · rename_i error herror
    refine .kept _ rfl ?_
    rintro ⟨msg, _, hparse, -⟩
    rw [herror] at hparse
    cases hparse
  rename_i msg hparse
  -- the message of a stanza that strands a session is the one that was parsed
  have hmsg (hstrands : Strands stanza body r h) : ∃ contentType,
      h.manager.findSession msg.sid msg.sender = none ∧ msg.type = .sessionInitiate ∧
      parseContentType msg.protocol msg.actionElem = .ok contentType ∧ contentType ∈ h.manager.clients := by
    obtain ⟨msg', contentType, hparse', hfound, htype, hcontent, hclient, -⟩ := hstrands
    rw [hparse] at hparse'
    cases hparse'
    exact ⟨contentType, hfound, htype, hcontent, hclient⟩
  rw [handleMessage]
  split
  · rename_i session hfound
    refine .kept _ rfl fun hstrands => ?_
    obtain ⟨_, hfound', -⟩ := hmsg hstrands
    rw [hfound] at hfound'
    cases hfound'
  rename_i hfound
  split
  · rename_i htype
    refine .kept _ rfl fun hstrands => ?_
    obtain ⟨_, -, htype', -⟩ := hmsg hstrands
    exact htype htype'
  rename_i htype
  split
  · rename_i error herror
    refine .kept _ rfl fun hstrands => ?_
    obtain ⟨_, -, -, hcontent, -⟩ := hmsg hstrands
    rw [herror] at hcontent
    cases hcontent
  rename_i contentType hcontent
  split
  · rename_i hclient
    refine .kept _ rfl fun hstrands => ?_
    obtain ⟨_, -, -, hcontent', hclient'⟩ := hmsg hstrands
    rw [hcontent] at hcontent'
    cases hcontent'
    exact hclient hclient'
  · rename_i hclient
    exact .created msg contentType hparse hfound (not_not.mp htype) hcontent (not_not.mp hclient)

/-- What is stored at each place behind the making of a session that reads its first message. -/
theorem getElem?_created (m : SessionManager D) (msg : SessionMessage) (body : Body D) (r : Reaction D)
    (session : Nat) :
    ((m.createSession msg.recipient msg.initiator msg.sid).1.withSession m.sessions.length
      (·.onIncomingMessage r.listen msg body)).sessions[session]? =
      if session = m.sessions.length then
        some ((Session.create msg.recipient msg.initiator msg.sid).onIncomingMessage r.listen msg body)
      else m.sessions[session]? := by
  by_cases hsession : session = m.sessions.length
  · subst hsession
    rw [if_pos rfl]
    change (List.modify (m.sessions ++ [_]) _ _)[_]? = _
    rw [List.getElem?_modify_eq, List.getElem?_concat_length]
    exact congrArg some (if_neg (SessionManager.create_alive _ _ _))
  · rw [if_neg hsession, SessionManager.getElem?_withSession_of_ne _ (Ne.symm hsession)]
    change (m.sessions ++ [_])[session]? = _
    rcases Nat.lt_or_gt_of_ne hsession with hlt | hgt
    · exact List.getElem?_append_left hlt
    · rw [List.getElem?_eq_none (by simp; omega), List.getElem?_eq_none hgt.le]

theorem answersWithError_created (m : SessionManager D) (msg : SessionMessage)
    (htype : msg.type = .sessionInitiate) (body : Body D) (r : Reaction D) :
    AnswersWithError m ((m.createSession msg.recipient msg.initiator msg.sid).1.withSession
      m.sessions.length (·.onIncomingMessage r.listen msg body)) ↔ ¬ body.IsTaken msg r := by
  set s : Session D := .create msg.recipient msg.initiator msg.sid with hs
  rw [← Session.takes_created msg htype]
  have hanswer := Session.onIncomingMessage_answer r.listen msg body s
  constructor
  · rintro (herrors | ⟨session, s', type, hplace, hnew, hlast⟩)
    · exact absurd rfl herrors
    rw [getElem?_created] at hplace
    split at hplace
    · cases hplace
      rw [hanswer] at hlast
      intro htakes
      rw [if_pos htakes] at hlast
      cases hlast
    · exact absurd hplace hnew
  intro hrefuses
  rw [if_neg hrefuses] at hanswer
  refine .inr ⟨m.sessions.length, s.onIncomingMessage r.listen msg body, msg.type, ?_, ?_, hanswer⟩
  · rw [getElem?_created, if_pos rfl]
  · rw [List.getElem?_eq_none (Nat.le_refl _)]
    nofun

/-- For every stanza and every state of the manager and its clients, an answer that is an error leaves the
sessions as they were if and only if the stanza is no initiate for which a session is made that does not take
it. -/
theorem refusesCleanly_iff (stanza : XmlElement) (body : Body D) (r : Reaction D) (h : SessionHost D) :
    RefusesCleanly h (h.onIncomingMessage stanza body r) ↔ ¬ Strands stanza body r h := by
  have hhandled := onIncomingMessage_handled stanza body r h
  generalize h.onIncomingMessage stanza body r = h' at hhandled
  cases hhandled with
  | kept f hmap hkeeps => exact iff_of_true (fun _ => ⟨hmap, rfl⟩) hkeeps
  | created msg contentType hparse hfound htype hcontent hclient =>
    have hanswer := answersWithError_created h.manager msg htype body r
    constructor
    · intro hclean hstrands
      obtain ⟨msg', _, hparse', -, -, -, -, hrefuses⟩ := hstrands
      rw [hparse] at hparse'
      cases hparse'
      have htunnels := congrFun (hclean (hanswer.mpr hrefuses)).2 contentType
      change Function.update h.tunnels contentType _ contentType = _ at htunnels
      exact absurd (congrArg List.length htunnels) (by simp)
    · intro hkeeps herror
      exact absurd ⟨msg, contentType, hparse, hfound, htype, hcontent, hclient, hanswer.mp herror⟩ hkeeps

/-- An initiate for a tunnel whose description has no type. -/
theorem not_refusesCleanly_initiate :
    let stanza := ((XmlElement.ofName Xmpp.qnIq).addAttr qnFrom "eve@e.net/1").addElement
      ((((XmlElement.ofName qnJingle).addAttr qnAction "session-initiate").addAttr qnSid "7").addElement
        ((XmlElement.ofName qnJingleContent).addElement
          (.ofName ⟨"http://www.google.com/talk/tunnel", lnDescription⟩)))
    let h : SessionHost Unit :=
      { manager :=
          { clients := ["http://www.google.com/talk/tunnel"]
            sessionMap := fun _ => none
            sessions := []
            errors := [] }
        tunnels := fun _ => [] }
    ¬ RefusesCleanly h (h.onIncomingMessage stanza ⟨none, true, true, true, 0⟩ .done) := by
  intro stanza h hclean
  have hclean' := (hclean (.inr ⟨0, _, .sessionInitiate, rfl, nofun, rfl⟩)).2
  exact absurd (congrFun hclean' "http://www.google.com/talk/tunnel") (by decide)

end SessionHost

end Synciga.P2p
