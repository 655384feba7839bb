import Synciga.P2p.Session

/-!
# `cricket::SessionManager`

The manager (`talk/p2p/base/sessionmanager.cc`) stores sessions by their id alone, and finds that of a stanza by
the id and the address of the sender. A session-initiate for which it finds none makes a new one, which is
stored under the id whatever was stored there before.

## Main definitions

* `SessionManager` with `createSession`, `destroySession`, `onIncomingMessage`
-/

namespace Synciga.P2p

open Xmpp (nsStanza qnIq qnError qnStanzaText qnType qnId qnFrom qnTo)

/-- `QN_STANZA_BAD_REQUEST`. -/
def qnStanzaBadRequest : QName := ⟨nsStanza, "bad-request"⟩
/-- `QN_STANZA_UNDEFINED_CONDITION`. -/
def qnStanzaUndefinedCondition : QName := ⟨nsStanza, "undefined-condition"⟩
/-- `QN_XML_LANG`. -/
def qnXmlLang : QName := ⟨nsXml, "lang"⟩

/-- `CreateErrorMessage`, without extra information. -/
def createErrorMessage (stanza : XmlElement) (name : QName) (type text : String) : XmlElement :=
  let iq := (((XmlElement.ofName qnIq).setAttr qnTo (stanza.attr qnFrom)).setAttr qnId
    (stanza.attr qnId)).setAttr qnType "error"
  let iq := stanza.elements.foldl XmlElement.addElement iq
  let error := (XmlElement.ofName qnError).setAttr qnType type
  -- an error of another namespace comes behind one of the standard namespace
  let error := if name.ns ≠ nsStanza then error.addElement (.ofName qnStanzaUndefinedCondition) else error
  let error := error.addElement (.ofName name)
  let error :=
    if text = "" then error
    else error.addElement { (XmlElement.ofName qnStanzaText).setAttr qnXmlLang "en" with
      children := [.text text] }
  iq.addElement error

/-- `SessionManager`. A session is known by its place among all that were created; those that are deleted
keep their place and are in `STATE_DEINIT`. -/
structure SessionManager (D : Type) where
  /-- `client_map_`, by the types of contents. -/
  clients : List String
  /-- `session_map_`. -/
  sessionMap : String → Option Nat
  sessions : List (Session D)
  /-- The errors that the manager has sent by itself. -/
  errors : List XmlElement

namespace SessionManager

variable {D : Type}

/-- `CreateSession`, with the place of the new session. -/
def createSession (localName initiatorName sid : String) (m : SessionManager D) :
    SessionManager D × Nat :=
  ({ m with
      sessionMap := Function.update m.sessionMap sid (some m.sessions.length)
      sessions := m.sessions ++ [.create localName initiatorName sid] }, m.sessions.length)

variable (session : Nat)

/-- `DestroySession`. -/
def destroySession (m : SessionManager D) : SessionManager D :=
  match m.sessions[session]? with
  | none => m
  | some s =>
    match m.sessionMap s.sid with
    | none => m
    | some _ =>
      { m with
        sessionMap := Function.update m.sessionMap s.sid none
        sessions := m.sessions.set session s.destroy }

/-- `FindSession`. -/
def findSession (sid remoteName : String) (m : SessionManager D) : Option Nat :=
  match m.sessionMap sid with
  | none => none
  | some session =>
    match m.sessions[session]? with
    | none => none
    | some s =>
      if Jid.ofString (utf8 remoteName) ≠ Jid.ofString (utf8 s.remoteName) then none else some session

/-- A session is called. Nothing happens to one that is deleted. -/
def withSession (f : Session D → Session D) (m : SessionManager D) : SessionManager D :=
  { m with sessions := m.sessions.modify session fun s => if s.state = .deinit then s else f s }

variable (stanza : XmlElement)

/-- `SendErrorMessage`. -/
def sendErrorMessage (name : QName) (type text : String) (m : SessionManager D) :
    SessionManager D :=
  { m with errors := m.errors ++ [createErrorMessage stanza name type text] }

/-- The part of `OnIncomingMessage` behind the parsing of the message. -/
def handleMessage (msg : SessionMessage) (body : Body D) (r : Reaction D)
    (m : SessionManager D) : SessionManager D :=
  match m.findSession msg.sid msg.sender with
  | some session => m.withSession session (·.onIncomingMessage r.listen msg body)
  | none =>
    if msg.type ≠ .sessionInitiate then
      m.sendErrorMessage stanza qnStanzaBadRequest "modify" "unknown session"
    else match parseContentType msg.protocol msg.actionElem with
      | .error error => m.sendErrorMessage stanza qnStanzaBadRequest "modify" error
      | .ok contentType =>
        if contentType ∉ m.clients then
          m.sendErrorMessage stanza qnStanzaBadRequest "modify" ("unknown content type: " ++ contentType)
        else
          let (m, session) := m.createSession msg.recipient msg.initiator msg.sid
          m.withSession session (·.onIncomingMessage r.listen msg body)

/-- `SessionManager::OnIncomingMessage`. -/
def onIncomingMessage (body : Body D) (r : Reaction D) (m : SessionManager D) :
    SessionManager D :=
  match parseSessionMessage stanza with
  | .error error => m.sendErrorMessage stanza qnStanzaBadRequest "modify" error
  | .ok msg => m.handleMessage stanza msg body r

/-- `OnIncomingResponse`, for a message with this id, recipient and action. -/
def onIncomingResponse (sid recipient : String) (type : ActionType) (unsent : Nat) (m : SessionManager D) :
    SessionManager D :=
  match m.findSession sid recipient with
  | none => m
  | some session => m.withSession session (·.onIncomingResponse type unsent)

/-- `OnFailedSend`, for a message with this id, recipient and action. -/
def onFailedSend (sid recipient : String) (type : ActionType) (redirect errorType : Option String)
    (written : Bool) (resent : Nat) (m : SessionManager D) : SessionManager D :=
  match m.findSession sid recipient with
  | none => m
  | some session => m.withSession session (·.onFailedSend type redirect errorType written resent)

/-- A message is delivered that a session has posted to itself. -/
def deliver (message : Posted) (r : Reaction D) (m : SessionManager D) : SessionManager D :=
  match m.sessions[session]? with
  | none => m
  | some s =>
    if message ∈ s.posted then
      let (s', ends) := (s.taken message).onMessage r.listen message
      let m := m.withSession session fun _ => s'
      if ends then m.destroySession session else m
    else m

end SessionManager

end Synciga.P2p
