import Synciga.Xmpp.Engine

/-!
# Session messages

The messages of sessions (`talk/p2p/base/sessionmessages.cc`, `talk/p2p/base/parsing.cc`), in Jingle, Gingle, or
both at once. Their bodies are read by the session.

## Main definitions

* `SessionMessage` — what is read of a message before a session gets it
* `parseSessionMessage` — how it is read
-/

namespace Synciga.P2p

open Xmpp (qnType qnId qnFrom qnTo)

/-! ### Constants -/

/-- `NS_JINGLE`. -/
def nsJingle : String := "urn:xmpp:jingle:1"

/-- `NS_GINGLE`. -/
def nsGingle : String := "http://www.google.com/session"

/-- `NS_GINGLE_AUDIO`. -/
def nsGingleAudio : String := "http://www.google.com/session/phone"

/-- `NS_GINGLE_VIDEO`. -/
def nsGingleVideo : String := "http://www.google.com/session/video"

/-- `NS_JINGLE_RTP`. -/
def nsJingleRtp : String := "urn:xmpp:jingle:apps:rtp:1"

/-- `LN_DESCRIPTION`. -/
def lnDescription : String := "description"

/-- `QN_JINGLE`. -/
def qnJingle : QName := ⟨nsJingle, "jingle"⟩
/-- `QN_JINGLE_CONTENT`. -/
def qnJingleContent : QName := ⟨nsJingle, "content"⟩
/-- `QN_GINGLE_SESSION`. -/
def qnGingleSession : QName := ⟨nsGingle, "session"⟩
/-- `QN_ACTION`. -/
def qnAction : QName := ⟨"", "action"⟩
/-- `QN_SID`. -/
def qnSid : QName := ⟨"", "sid"⟩
/-- `QN_INITIATOR`. -/
def qnInitiator : QName := ⟨"", "initiator"⟩

/-! ### Actions -/

/-- `SignalingProtocol`. -/
inductive SignalingProtocol
  | jingle
  | gingle
  | hybrid
  deriving DecidableEq, Repr

/-- `ActionType`. -/
inductive ActionType
  | unknown
  | sessionInitiate
  | sessionInfo
  | sessionAccept
  | sessionReject
  | sessionTerminate
  | transportInfo
  | transportAccept
  | descriptionInfo
  deriving DecidableEq, Repr

/-- `ToActionType`. -/
def toActionType (type : String) : ActionType :=
  if type = "initiate" then .sessionInitiate
  else if type = "info" then .sessionInfo
  else if type = "accept" then .sessionAccept
  else if type = "reject" then .sessionReject
  else if type = "terminate" then .sessionTerminate
  else if type = "candidates" then .transportInfo
  else if type = "session-initiate" then .sessionInitiate
  else if type = "transport-info" then .transportInfo
  else if type = "transport-accept" then .transportAccept
  else if type = "session-info" then .sessionInfo
  else if type = "session-accept" then .sessionAccept
  else if type = "session-terminate" then .sessionTerminate
  else if type = "description-info" then .descriptionInfo
  else if type = "update" then .descriptionInfo
  else .unknown

/-- `ToJingleString`. There is no message of its own for a reject. -/
def ActionType.toJingleString : ActionType → String
  | sessionInitiate => "session-initiate"
  | sessionInfo => "session-info"
  | descriptionInfo => "description-info"
  | sessionAccept => "session-accept"
  | sessionReject => "session-terminate"
  | sessionTerminate => "session-terminate"
  | transportInfo => "transport-info"
  | transportAccept => "transport-accept"
  | unknown => ""

/-- `ToGingleString`. -/
def ActionType.toGingleString : ActionType → String
  | sessionInitiate => "initiate"
  | sessionInfo => "info"
  | sessionAccept => "accept"
  | sessionReject => "reject"
  | sessionTerminate => "terminate"
  | transportInfo => "candidates"
  | _ => ""

/-- The action that is read of a message that was written. A hybrid message is read as one of Jingle. -/
def ActionType.onWire (protocol : SignalingProtocol) (type : ActionType) : ActionType :=
  match protocol with
  | .gingle => toActionType type.toGingleString
  | _ => toActionType type.toJingleString

/-! ### Parsing -/

/-- What is read of a message first. -/
structure SessionMessage where
  protocol : SignalingProtocol
  type : ActionType
  id : String
  sid : String
  sender : String
  recipient : String
  initiator : String
  /-- `action_elem`. -/
  actionElem : XmlElement

/-- `ParseError`, by its text. -/
abbrev ParseError := String

/-- `ParseGingleSessionMessage`, behind what `ParseSessionMessage` has read of the stanza. -/
def parseGingleSessionMessage (stanza session : XmlElement) : Except ParseError SessionMessage :=
  let typeString := session.attr qnType
  let msg : SessionMessage := ⟨.gingle, toActionType typeString, stanza.attr qnId, session.attr qnId,
    stanza.attr qnFrom, stanza.attr qnTo, session.attr qnInitiator, session⟩
  if msg.type = .unknown then .error ("unknown action: " ++ typeString) else .ok msg

/-- `ParseJingleSessionMessage`. -/
def parseJingleSessionMessage (stanza jingle : XmlElement) : Except ParseError SessionMessage :=
  let typeString := jingle.attr qnAction
  let msg : SessionMessage := ⟨.jingle, toActionType typeString, stanza.attr qnId, jingle.attr qnSid,
    stanza.attr qnFrom, stanza.attr qnTo, jingle.attr qnInitiator, jingle⟩
  if msg.type = .unknown then .error ("unknown action: " ++ typeString) else .ok msg

/-- `ParseHybridSessionMessage`. -/
def parseHybridSessionMessage (stanza jingle : XmlElement) : Except ParseError SessionMessage :=
  (parseJingleSessionMessage stanza jingle).map fun msg => { msg with protocol := .hybrid }

/-- `ParseSessionMessage`. -/
def parseSessionMessage (stanza : XmlElement) : Except ParseError SessionMessage :=
  match stanza.firstNamed qnJingle, stanza.firstNamed qnGingleSession with
  | some jingle, some _ => parseHybridSessionMessage stanza jingle
  | some jingle, none => parseJingleSessionMessage stanza jingle
  | none, some session => parseGingleSessionMessage stanza session
  | none, none => .error ""

/-- `QName::Merged`. -/
def mergedName (name : QName) : String :=
  if name.ns = "" then name.localPart else name.ns ++ ":" ++ name.localPart

/-- `RequireXmlChild`. -/
def requireXmlChild (parent : XmlElement) (name : String) : Except ParseError XmlElement :=
  match parent.elements.find? (·.name.localPart = name) with
  | none => .error ("element '" ++ mergedName parent.name ++ "' missing required child '" ++ name)
  | some child => .ok child

/-- `ParseContentType`, of an element with a description. -/
def parseDescriptionType (parent : XmlElement) : Except ParseError String :=
  (requireXmlChild parent lnDescription).map fun element => element.name.ns

/-- The loop of `ParseContentType` over the contents. -/
def checkContentTypes (contentType : String) : List XmlElement → Except ParseError String
  | [] => .ok contentType
  | pair :: pairs =>
    match parseDescriptionType pair with
    | .error error => .error error
    | .ok other =>
      if other ≠ contentType then .error "More than one content type found"
      else checkContentTypes contentType pairs

/-- `ParseContentType`, of an action. -/
def parseContentType (protocol : SignalingProtocol) (actionElem : XmlElement) : Except ParseError String :=
  match protocol with
  | .gingle =>
    (parseDescriptionType actionElem).map fun contentType =>
      if contentType = nsGingleAudio ∨ contentType = nsGingleVideo then nsJingleRtp else contentType
  | _ =>
    match actionElem.allNamed qnJingleContent with
    | [] => .error "No contents found"
    | pair :: pairs =>
      match parseDescriptionType pair with
      | .error error => .error error
      | .ok contentType => checkContentTypes contentType (pair :: pairs)

end Synciga.P2p
