import Synciga.P2p.SessionManager
import Synciga.P2p.SessionSafety

/-!
# The sessions of others

A stanza is handled by the session that is found for it. But sessions are stored by their id alone: a
session-initiate that can be taken, and has the id of a session of somebody else, displaces that session.

## Main definitions

* `Displaces` — such a stanza

## Main results

* `undisturbed_iff` — all others leave the sessions of others as and where they are
-/

namespace Synciga.P2p

open Xmpp (qnFrom)

namespace SessionManager

variable {D : Type} {m : SessionManager D} {stanza : XmlElement}

/-! ### What is expected -/

/-- Two names are of different addresses. -/
def Strange (name other : String) : Prop := Jid.ofString (utf8 name) ≠ Jid.ofString (utf8 other)

instance (name other : String) : Decidable (Strange name other) := inferInstanceAs (Decidable (_ ≠ _))

/-- A session is stored under this id and is not deleted. -/
structure Stored (m : SessionManager D) (sid : String) (session : Nat) (s : Session D) : Prop where
  entry : m.sessionMap sid = some session
  place : m.sessions[session]? = some s
  alive : s.state ≠ .deinit

/-- Every session that is not deleted is stored under its id. -/
def Reachable (m : SessionManager D) : Prop :=
  ∀ session s, m.sessions[session]? = some s → s.state ≠ .deinit → m.sessionMap s.sid = some session

/-- What is expected of a stanza: the sessions of others stay stored as they are, and no session gets out
of reach. -/
structure Undisturbed (stanza : XmlElement) (m m' : SessionManager D) : Prop where
  others : ∀ sid session s, m.Stored sid session s → Strange (stanza.attr qnFrom) s.remoteName →
    m'.Stored sid session s
  reachable : m.Reachable → m'.Reachable

/-- A stanza is a session-initiate that can be taken, with the id of a session of somebody else. -/
def Displaces (stanza : XmlElement) (m : SessionManager D) : Prop :=
  ∃ msg contentType session s, parseSessionMessage stanza = .ok msg ∧ msg.type = .sessionInitiate ∧
    parseContentType msg.protocol msg.actionElem = .ok contentType ∧ contentType ∈ m.clients ∧
    m.Stored msg.sid session s ∧ Strange (stanza.attr qnFrom) s.remoteName

/-! ### Sessions that are stored -/

theorem Stored.findSession_eq {sid : String} {session : Nat} {s : Session D} (h : m.Stored sid session s)
    (name : String) :
    m.findSession sid name = if Strange name s.remoteName then none else some session := by
  rw [findSession, h.entry]
  simp only [h.place]
  rfl

theorem Stored.findSession_self {sid : String} {session : Nat} {s : Session D}
    (h : m.Stored sid session s) : m.findSession sid s.remoteName = some session := by
  rw [h.findSession_eq]
  exact if_neg fun hstrange => hstrange rfl

theorem Stored.destroySession {session : Nat} {s : Session D} (h : m.Stored s.sid session s) :
    (m.destroySession session).sessionMap s.sid = none ∧
      (m.destroySession session).sessions[session]? = some s.destroy := by
  have hlt : session < m.sessions.length := (List.getElem?_eq_some_iff.mp h.place).1
  rw [SessionManager.destroySession, h.place]
  simp [h.entry, hlt]

theorem findSession_some {sid name : String} {session : Nat} (h : m.findSession sid name = some session) :
    ∃ s, m.sessions[session]? = some s ∧ ¬ Strange name s.remoteName := by
  rw [SessionManager.findSession] at h
  split at h
  · cases h
  split at h
  · cases h
  rename_i s hplace
  split at h
  · cases h
  · rename_i hsame
    cases h
    exact ⟨s, hplace, hsame⟩

/-! ### What a stanza does -/

theorem parseSessionMessage_sender {msg : SessionMessage} (h : parseSessionMessage stanza = .ok msg) :
    msg.sender = stanza.attr qnFrom := by
  have hjingle (jingle : XmlElement) (msg : SessionMessage)
      (h : parseJingleSessionMessage stanza jingle = .ok msg) : msg.sender = stanza.attr qnFrom := by
    rw [parseJingleSessionMessage] at h
    split at h
    · cases h
    · cases h
      rfl
  rw [parseSessionMessage] at h
  split at h
  · rename_i jingle _ _ _
    rw [parseHybridSessionMessage] at h
    cases hparse : parseJingleSessionMessage stanza jingle with
    | error error =>
      rw [hparse] at h
      cases h
    | ok msg' =>
      rw [hparse] at h
      cases h
      exact hjingle jingle msg' hparse
  · exact hjingle _ msg h
  · rw [parseGingleSessionMessage] at h
    split at h
    · cases h
    · cases h
      rfl
  · cases h

/-- What a stanza does: it is refused, or the session that is found for it takes it, or a new session. -/
inductive Handled (stanza : XmlElement) (body : Body D) (r : Reaction D) (m : SessionManager D) :
    SessionManager D → Prop
  | refused (m' : SessionManager D) (hmap : m'.sessionMap = m.sessionMap) (hsessions : m'.sessions = m.sessions)
      (hkeeps : ¬ Displaces stanza m) : Handled stanza body r m m'
  | found (msg : SessionMessage) (session : Nat) (hparse : parseSessionMessage stanza = .ok msg)
      (hfound : m.findSession msg.sid (stanza.attr qnFrom) = some session) :
      Handled stanza body r m (m.withSession session (·.onIncomingMessage r.listen msg body))
  | created (msg : SessionMessage) (contentType : String) (hparse : parseSessionMessage stanza = .ok msg)
      (hfound : m.findSession msg.sid (stanza.attr qnFrom) = none) (htype : msg.type = .sessionInitiate)
      (hcontent : parseContentType msg.protocol msg.actionElem = .ok contentType)
      (hclient : contentType ∈ m.clients) :
      Handled stanza body r m
        ((m.createSession msg.recipient msg.initiator msg.sid).1.withSession m.sessions.length
          (·.onIncomingMessage r.listen msg body))

theorem onIncomingMessage_handled (stanza : XmlElement) (body : Body D) (r : Reaction D)
    (m : SessionManager D) : Handled stanza body r m (m.onIncomingMessage stanza body r) := by
  have hrefused {error : String} (h : ¬ Displaces stanza m) :
      Handled stanza body r m (m.sendErrorMessage stanza qnStanzaBadRequest "modify" error) :=
    .refused _ rfl rfl h
  rw [onIncomingMessage]
  split
  · rename_i error herror
    refine hrefused ?_
    rintro ⟨msg, _, _, _, hparse, -⟩
    rw [herror] at hparse
    cases hparse
  rename_i msg hparse
  have hmsg {msg' : SessionMessage} (h : parseSessionMessage stanza = .ok msg') : msg' = msg := by
    rw [hparse] at h
    cases h
    rfl
  have hsender := parseSessionMessage_sender hparse
  rw [handleMessage, hsender]
  split
  · rename_i session hfound
    exact .found msg session hparse hfound
  rename_i hfound
  split
  · rename_i htype
    refine hrefused ?_
    rintro ⟨msg', _, _, _, hparse', htype', -⟩
    rw [hmsg hparse'] at htype'
    exact htype htype'
  rename_i htype
  split
  · rename_i error herror
    refine hrefused ?_
    rintro ⟨msg', _, _, _, hparse', -, hcontent, -⟩
    rw [hmsg hparse', herror] at hcontent
    cases hcontent
  rename_i contentType hcontent
  split
  · rename_i hclient
    refine hrefused ?_
    rintro ⟨msg', _, _, _, hparse', -, hcontent', hclient', -⟩
    rw [hmsg hparse', hcontent] at hcontent'
    cases hcontent'
    exact hclient hclient'
  · rename_i hclient
    exact .created msg contentType hparse hfound (not_not.mp htype) hcontent (not_not.mp hclient)

/-! ### Who is disturbed -/

theorem getElem?_withSession_of_ne {session other : Nat} (f : Session D → Session D) (hne : session ≠ other)
    (m : SessionManager D) : (m.withSession session f).sessions[other]? = m.sessions[other]? :=
  List.getElem?_modify_ne _ _ hne

theorem reachable_withSession (hm : m.Reachable) (session : Nat) (msg : SessionMessage) (body : Body D)
    (r : Reaction D) : (m.withSession session (·.onIncomingMessage r.listen msg body)).Reachable := by
  intro other s hplace halive
  by_cases hsame : session = other
  · subst hsame
    change (m.sessions.modify session _)[session]? = some s at hplace
    rw [List.getElem?_modify_eq, Option.map_eq_map, Option.map_eq_some_iff] at hplace
    obtain ⟨s0, hplace0, hs⟩ := hplace
    split at hs
    · rename_i hdead
      rw [← hs] at halive
      exact absurd hdead halive
    · rename_i halive0
      have hhandles := Session.onIncomingMessage_handles (Reaction.listen_calls r) msg body s0
      have hsid : s.sid = s0.sid := hs ▸ hhandles.happens.sid
      rw [hsid]
      exact hm session s0 hplace0 halive0
  · rw [getElem?_withSession_of_ne _ hsame] at hplace
    exact hm other s hplace halive

theorem reachable_createSession (hm : m.Reachable) (localName initiatorName sid : String)
    (hfree : ∀ session s, ¬ m.Stored sid session s) :
    (m.createSession localName initiatorName sid).1.Reachable := by
  intro other s hplace halive
  change Function.update m.sessionMap sid (some m.sessions.length) s.sid = some other
  change (m.sessions ++ [_])[other]? = some s at hplace
  rcases Nat.lt_trichotomy other m.sessions.length with hlt | heq | hgt
  · rw [List.getElem?_append_left hlt] at hplace
    have hentry := hm other s hplace halive
    have hne : s.sid ≠ sid := fun heq => hfree other s ⟨heq ▸ hentry, hplace, halive⟩
    rw [Function.update_of_ne hne]
    exact hentry
  · subst heq
    rw [List.getElem?_concat_length] at hplace
    cases hplace
    exact Function.update_self _ _ _
  · rw [List.getElem?_eq_none (by simp; omega)] at hplace
    cases hplace

theorem Handled.undisturbed {body : Body D} {r : Reaction D} {m' : SessionManager D}
    (h : Handled stanza body r m m') (hkeeps : ¬ Displaces stanza m) : Undisturbed stanza m m' := by
  cases h with
  | refused _ hmap hsessions =>
    refine ⟨fun sid session s h _ => ⟨hmap ▸ h.entry, hsessions ▸ h.place, h.alive⟩, fun hm session s => ?_⟩
    rw [hmap, hsessions]
    exact hm session s
  | found msg found hparse hfound =>
    refine ⟨fun sid session s h hstrange => ⟨h.entry, ?_, h.alive⟩,
      fun hm => reachable_withSession hm found msg body r⟩
    rw [getElem?_withSession_of_ne]
    · exact h.place
    · rintro rfl
      obtain ⟨s0, hplace, hsame⟩ := findSession_some hfound
      rw [h.place] at hplace
      cases hplace
      exact hsame hstrange
  | created msg contentType hparse hfound htype hcontent hclient =>
    -- a session stored under the id would be one of somebody else
    have hstrange {session : Nat} {s : Session D} (h : m.Stored msg.sid session s) :
        Strange (stanza.attr qnFrom) s.remoteName := by
      by_contra hsame
      rw [h.findSession_eq, if_neg hsame] at hfound
      cases hfound
    have hfree (session : Nat) (s : Session D) : ¬ m.Stored msg.sid session s := fun h =>
      hkeeps ⟨msg, contentType, session, s, hparse, htype, hcontent, hclient, h, hstrange h⟩
    refine ⟨fun sid session s h _ => ⟨?_, ?_, h.alive⟩, fun hm =>
      reachable_withSession (reachable_createSession hm _ _ _ hfree) _ msg body r⟩
    · have hne : sid ≠ msg.sid := by
        rintro rfl
        exact hfree session s h
      change Function.update m.sessionMap msg.sid (some m.sessions.length) sid = some session
      rw [Function.update_of_ne hne]
      exact h.entry
    · have hlt : session < m.sessions.length := (List.getElem?_eq_some_iff.mp h.place).1
      rw [getElem?_withSession_of_ne _ (by omega)]
      change (m.sessions ++ [_])[session]? = some s
      rw [List.getElem?_append_left hlt]
      exact h.place

theorem Handled.disturbed {body : Body D} {r : Reaction D} {m' : SessionManager D}
    (h : Handled stanza body r m m') (hdisplaces : Displaces stanza m) : ¬ Undisturbed stanza m m' := by
  intro hund
  obtain ⟨msg, contentType, session, s, hparse, htype, hcontent, hclient, hstored, hstrange⟩ := hdisplaces
  have hafter := hund.others msg.sid session s hstored hstrange
  have hmsg {msg' : SessionMessage} (h : parseSessionMessage stanza = .ok msg') : msg' = msg := by
    rw [hparse] at h
    cases h
    rfl
  cases h with
  | refused _ _ _ hkeeps =>
    exact hkeeps ⟨msg, contentType, session, s, hparse, htype, hcontent, hclient, hstored, hstrange⟩
  | found msg' found hparse' hfound =>
    rw [hmsg hparse', hstored.findSession_eq, if_pos hstrange] at hfound
    cases hfound
  | created msg' _ hparse' =>
    have hentry := hafter.entry
    rw [hmsg hparse'] at hentry
    change Function.update m.sessionMap msg.sid (some m.sessions.length) msg.sid = some session at hentry
    rw [Function.update_self] at hentry
    have hlt : session < m.sessions.length := (List.getElem?_eq_some_iff.mp hstored.place).1
    cases hentry
    exact Nat.lt_irrefl _ hlt

/-- The sessions of others stay stored as they are, and no session gets out of reach, if and only if the stanza
does not displace one. -/
theorem undisturbed_iff (stanza : XmlElement) (body : Body D) (r : Reaction D) (m : SessionManager D) :
    Undisturbed stanza m (m.onIncomingMessage stanza body r) ↔ ¬ Displaces stanza m :=
  ⟨fun hund hdisplaces => (onIncomingMessage_handled stanza body r m).disturbed hdisplaces hund,
    (onIncomingMessage_handled stanza body r m).undisturbed⟩

/-- An initiate of a stranger with the id of a session in progress. -/
theorem not_undisturbed_initiate :
    let stanza := ((XmlElement.ofName Xmpp.qnIq).addAttr qnFrom "eve@e.net/1").addElement
      ((((XmlElement.ofName qnJingle).addAttr qnAction "session-initiate").addAttr qnSid "7").addElement
        ((XmlElement.ofName qnJingleContent).addElement
          (.ofName ⟨"http://www.google.com/talk/tunnel", lnDescription⟩)))
    let m : SessionManager Unit :=
      { clients := ["http://www.google.com/talk/tunnel"]
        sessionMap := Function.update (fun _ => none) "7" (some 0)
        sessions := [{ Session.create "bob@b.net/1" "alice@a.net/1" "7" with
          remoteName := "alice@a.net/1"
          state := .inProgress }]
        errors := [] }
    ¬ Undisturbed stanza m (m.onIncomingMessage stanza ⟨some (), true, true, true, 0⟩ .done) := by
  intro stanza m
  refine (onIncomingMessage_handled stanza ⟨some (), true, true, true, 0⟩ .done m).disturbed ?_
  refine ⟨_, "http://www.google.com/talk/tunnel", 0, _, rfl, by decide, rfl, by simp [m], ⟨rfl, rfl, ?_⟩, ?_⟩
  · decide
  · decide +kernel

end SessionManager

end Synciga.P2p
