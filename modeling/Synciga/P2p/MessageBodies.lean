import Synciga.P2p.Candidates

/-!
# The bodies of session messages

What a session sends is contents with their transports and groups, candidates, a reason, or elements of its
client (`talk/p2p/base/sessionmessages.cc`). A Jingle message has an element for each content. A Gingle message
has one description, that may be of audio and video together, and candidates beside it, and whoever reads it
takes default names for the contents.

## Main definitions

* `SessionAction` — what is sent
* `writeContentInfo`, `parseContentInfo` — the two formats
-/

namespace Synciga.P2p

open Xmpp (qnType qnId qnTo qnIq)

/-! ### Constants -/

/-- `LN_INITIATOR`. -/
def lnInitiator : String := "initiator"

/-- `CN_AUDIO`. -/
def cnAudio : String := "audio"

/-- `CN_VIDEO`. -/
def cnVideo : String := "video"

/-- `CN_OTHER`. -/
def cnOther : String := "main"

/-- A channel of audio. -/
def GICE_CHANNEL_NAME_RTP : String := "rtp"

/-- A channel of audio. -/
def GICE_CHANNEL_NAME_RTCP : String := "rtcp"

/-- A channel of video. -/
def GICE_CHANNEL_NAME_VIDEO_RTP : String := "video_rtp"

/-- A channel of video. -/
def GICE_CHANNEL_NAME_VIDEO_RTCP : String := "video_rtcp"

/-- `QN_CREATOR`. -/
def qnCreator : QName := ⟨"", "creator"⟩
/-- `QN_JINGLE_CONTENT_NAME`. -/
def qnJingleContentName : QName := ⟨"", "name"⟩
/-- `QN_JINGLE_REASON`. -/
def qnJingleReason : QName := ⟨nsJingle, "reason"⟩
/-- `QN_JINGLE_DRAFT_GROUP`. -/
def qnJingleDraftGroup : QName := ⟨"google:jingle", "group"⟩
/-- `QN_JINGLE_DRAFT_GROUP_TYPE`. -/
def qnJingleDraftGroupType : QName := ⟨"", "type"⟩
/-- `QN_GINGLE_AUDIO_CONTENT`. -/
def qnGingleAudioContent : QName := ⟨nsGingleAudio, lnDescription⟩

/-! ### What is sent -/

/-- `ContentParser`, for descriptions of a type. -/
structure ContentParser (D : Type) where
  parseContent : SignalingProtocol → XmlElement → Except ParseError D
  isWritable : SignalingProtocol → D → Bool
  writeContent : SignalingProtocol → D → Except WriteError XmlElement

/-- `ContentParserMap`, by the type of the content. -/
abbrev ContentParserMap (D : Type) := String → Option (ContentParser D)

/-- A content with its description. -/
structure ContentInfo (D : Type) where
  name : String
  type : String
  rejected : Bool
  description : D
  deriving DecidableEq

/-- The body of an initiate or an accept. -/
structure ContentMessage (D : Type) where
  contents : List (ContentInfo D)
  transports : List TransportInfo
  groups : List ContentGroup
  deriving DecidableEq

/-- The body of a terminate. -/
structure SessionTerminate where
  reason : String
  debugReason : String
  deriving DecidableEq

/-- The messages that a session sends, with what they carry. -/
inductive SessionAction (D : Type)
  | initiate (message : ContentMessage D)
  | accept (message : ContentMessage D)
  | reject (term : SessionTerminate)
  | terminate (term : SessionTerminate)
  | transportInfo (tinfos : List TransportInfo)
  | descriptionInfo (contents : List (ContentInfo D))
  | info (elems : List XmlElement)

/-- The `ActionType` that the message is sent with. -/
def SessionAction.type {D : Type} : SessionAction D → ActionType
  | initiate _ => .sessionInitiate
  | accept _ => .sessionAccept
  | reject _ => .sessionReject
  | terminate _ => .sessionTerminate
  | transportInfo _ => .transportInfo
  | descriptionInfo _ => .descriptionInfo
  | info _ => .sessionInfo

/-- `GetTransportInfoByContentName`. -/
def getTransportInfoByContentName (tinfos : List TransportInfo) (contentName : String) : Option TransportInfo :=
  tinfos.find? (contentName = ·.contentName)

/-- `ContentGroup::AddContentName`. -/
def ContentGroup.addContentName (group : ContentGroup) (name : String) : ContentGroup :=
  if name ∈ group.contentNames then group else { group with contentNames := group.contentNames ++ [name] }

/-! ### Transport infos -/

/-- `GetTransportParser`: of the transports of sessions, only those of Gingle have a parser. -/
def hasTransportParser (transportType : String) : Bool := transportType = NS_GINGLE_P2P

/-- `GetParserAndTranslator` for parsing, where there need not be a translator. -/
def getParserAndTranslator (translators : CandidateTranslatorMap) (transportType contentName : String) :
    Except ParseError (Option CandidateTranslator) :=
  if hasTransportParser transportType then .ok (translators contentName)
  else .error ("unknown transport type: " ++ transportType)

/-- `GetParserAndTranslator` for writing. -/
def getParserAndTranslatorToWrite (translators : CandidateTranslatorMap) (transportType contentName : String) :
    Except WriteError CandidateTranslator :=
  if hasTransportParser transportType then
    match translators contentName with
    | none => .error ("unknown content name: " ++ contentName)
    | some translator => .ok translator
  else .error ("unknown transport type: " ++ transportType)

section TransportInfos

variable (texts : TextFormat) (translators : CandidateTranslatorMap)

/-- `ParseGingleCandidate`. -/
def parseGingleCandidate (contentName : String) (candidateElem : XmlElement) : Except ParseError Candidate := do
  let translator ← getParserAndTranslator translators NS_GINGLE_P2P contentName
  parseP2pGingleCandidate texts candidateElem translator

/-- The children that are candidates, by the local part of their names. -/
def candidateElements (parent : XmlElement) : List XmlElement :=
  parent.elements.filter (·.name.localPart = lnCandidate)

/-- `ParseGingleCandidates`. -/
def parseGingleCandidates (parent : XmlElement) (contentName : String) : Except ParseError (List Candidate) :=
  (candidateElements parent).mapM (parseGingleCandidate texts translators contentName)

/-- The content that a candidate is of by the name of its channel, where there is media. -/
def mediaContentName (hasAudio hasVideo : Bool) (channelName : String) : Option String :=
  if hasAudio && (channelName = GICE_CHANNEL_NAME_RTP || channelName = GICE_CHANNEL_NAME_RTCP) then
    some cnAudio
  else if hasVideo &&
      (channelName = GICE_CHANNEL_NAME_VIDEO_RTP || channelName = GICE_CHANNEL_NAME_VIDEO_RTCP) then
    some cnVideo
  else none

/-- The loop that separates the candidates of audio and of video: each with its content. -/
def parseGingleMediaCandidates (hasAudio hasVideo : Bool) (elems : List XmlElement) :
    Except ParseError (List (String × Candidate)) :=
  elems.mapM fun candidateElem =>
    match mediaContentName hasAudio hasVideo (candidateElem.attr qnName) with
    | none => .error ("Unknown channel name: " ++ candidateElem.attr qnName)
    | some contentName =>
      (parseGingleCandidate texts translators contentName candidateElem).map (contentName, ·)

/-- The transport info of a content, with the candidates that are of it. -/
def gingleTransportInfo (candidates : List (String × Candidate)) (contentName : String) : TransportInfo :=
  ⟨contentName, .ofCandidates NS_GINGLE_P2P
    ((candidates.filter (·.1 = contentName)).map (·.2))⟩

/-- `ParseGingleTransportInfos`. -/
def parseGingleTransportInfos (actionElem : XmlElement) (contentNames : List String) :
    Except ParseError (List TransportInfo) :=
  let hasAudio := decide (cnAudio ∈ contentNames)
  let hasVideo := decide (cnVideo ∈ contentNames)
  if !hasAudio && !hasVideo then do
    let candidates ← parseGingleCandidates texts translators actionElem cnOther
    return [⟨cnOther, .ofCandidates NS_GINGLE_P2P candidates⟩]
  else do
    let candidates ←
      parseGingleMediaCandidates texts translators hasAudio hasVideo (candidateElements actionElem)
    return (if hasAudio then [gingleTransportInfo candidates cnAudio] else []) ++
      (if hasVideo then [gingleTransportInfo candidates cnVideo] else [])

/-- `ParseJingleTransportInfo`. -/
def parseJingleTransportInfo (transElem : XmlElement) (contentName : String) :
    Except ParseError TransportInfo := do
  let translator ← getParserAndTranslator translators transElem.name.ns contentName
  let tdesc ← parseTransportDescription texts transElem translator
  return ⟨contentName, tdesc⟩

/-- The body of the loop of `ParseJingleTransportInfos`. -/
def parseJinglePair (contentNames : List String) (pairElem : XmlElement) : Except ParseError TransportInfo := do
  let contentName ← requireXmlAttr pairElem qnJingleContentName
  if contentName ∈ contentNames then
    let transElem ← requireXmlChild pairElem lnTransport
    parseJingleTransportInfo texts translators transElem contentName
  else
    .error ("Unknown content name: " ++ contentName)

/-- `ParseJingleTransportInfos`. -/
def parseJingleTransportInfos (jingle : XmlElement) (contentNames : List String) :
    Except ParseError (List TransportInfo) :=
  (jingle.allNamed qnJingleContent).mapM (parseJinglePair texts translators contentNames)

/-- `WriteGingleCandidates`. -/
def writeGingleCandidates (tinfo : TransportInfo) : Except WriteError (List XmlElement) := do
  let translator ←
    getParserAndTranslatorToWrite translators tinfo.description.transportType tinfo.contentName
  tinfo.description.candidates.mapM (writeP2pGingleCandidate texts · (some translator))

/-- `WriteGingleTransportInfos`. -/
def writeGingleTransportInfos (tinfos : List TransportInfo) : Except WriteError (List XmlElement) := do
  let elems ← tinfos.mapM (writeGingleCandidates texts translators)
  return elems.flatten

/-- `WriteJingleTransportInfo`. -/
def writeJingleTransportInfo (tinfo : TransportInfo) : Except WriteError XmlElement := do
  let translator ←
    getParserAndTranslatorToWrite translators tinfo.description.transportType tinfo.contentName
  writeTransportDescription texts tinfo.description (some translator)

/-- `WriteJingleContent`. -/
def writeJingleContent (name : String) (childElems : List XmlElement) : XmlElement :=
  let contentElem := (XmlElement.ofName qnJingleContent).setAttr qnJingleContentName name
  addXmlChildren (contentElem.setAttr qnCreator lnInitiator) childElems

/-- `WriteJingleTransportInfos`. -/
def writeJingleTransportInfos (tinfos : List TransportInfo) : Except WriteError (List XmlElement) :=
  tinfos.mapM fun tinfo => do
    let transElem ← writeJingleTransportInfo texts translators tinfo
    return writeJingleContent tinfo.contentName [transElem]

end TransportInfos

/-! ### Contents -/

section Contents

variable {D : Type} (parsers : ContentParserMap D)

/-- `ParseContentInfo`. -/
def parseContentInfo (protocol : SignalingProtocol) (name type : String) (elem : XmlElement) :
    Except ParseError (ContentInfo D) :=
  match parsers type with
  | none => .error ("unknown application content: " ++ type)
  | some parser => (parser.parseContent protocol elem).map fun desc => ⟨name, type, false, desc⟩

/-- `ParseGingleContentInfos`. Audio is read of the description of video, too. -/
def parseGingleContentInfos (session : XmlElement) : Except ParseError (List (ContentInfo D)) := do
  let contentElem ← requireXmlChild session lnDescription
  let contentType := contentElem.name.ns
  if contentType = nsGingleVideo then
    let audioElem := copyXmlChildren contentElem (XmlElement.ofName qnGingleAudioContent)
    let audio ← parseContentInfo parsers .gingle cnAudio nsJingleRtp audioElem
    let video ← parseContentInfo parsers .gingle cnVideo nsJingleRtp contentElem
    return [audio, video]
  else if contentType = nsGingleAudio then
    let audio ← parseContentInfo parsers .gingle cnAudio nsJingleRtp contentElem
    return [audio]
  else
    let other ← parseContentInfo parsers .gingle cnOther contentType contentElem
    return [other]

/-- The body of the loop of `ParseJingleContentInfos`. -/
def parseJingleContent (pairElem : XmlElement) : Except ParseError (ContentInfo D) := do
  let contentName ← requireXmlAttr pairElem qnJingleContentName
  let contentElem ← requireXmlChild pairElem lnDescription
  parseContentInfo parsers .jingle contentName contentElem.name.ns contentElem

/-- `ParseJingleContentInfos`. -/
def parseJingleContentInfos (jingle : XmlElement) : Except ParseError (List (ContentInfo D)) :=
  (jingle.allNamed qnJingleContent).mapM (parseJingleContent parsers)

/-- The body of the loop of `ParseJingleGroupInfos`. -/
def parseJingleGroup (pairElem : XmlElement) : Except ParseError ContentGroup := do
  let groupName ← requireXmlAttr pairElem qnJingleDraftGroupType
  let contentNames ← (pairElem.allNamed qnJingleContent).mapM (requireXmlAttr · qnJingleContentName)
  return contentNames.foldl ContentGroup.addContentName ⟨groupName, []⟩

/-- `ParseJingleGroupInfos`. -/
def parseJingleGroupInfos (jingle : XmlElement) : Except ParseError (List ContentGroup) :=
  (jingle.allNamed qnJingleDraftGroup).mapM parseJingleGroup

/-- `WriteContentInfo`. -/
def writeContentInfo (protocol : SignalingProtocol) (content : ContentInfo D) : Except WriteError XmlElement :=
  match parsers content.type with
  | none => .error ("unknown content type: " ++ content.type)
  | some parser => parser.writeContent protocol content.description

/-- `IsWritable`. -/
def isWritable (protocol : SignalingProtocol) (content : ContentInfo D) : Bool :=
  match parsers content.type with
  | none => false
  | some parser => parser.isWritable protocol content.description

/-- `WriteGingleContentInfos`, of one content. -/
def writeGingleContent (content : ContentInfo D) : Except WriteError (List XmlElement) :=
  if content.rejected then .error "Gingle protocol may not reject individual contents."
  else do
    let elem ← writeContentInfo parsers .gingle content
    return [elem]

/-- `WriteGingleContentInfos`, of two or more contents: audio and video become one content of video. -/
def writeGingleMergedContent (audio video : ContentInfo D) : Except WriteError (List XmlElement) :=
  if audio.type = nsJingleRtp ∧ video.type = nsJingleRtp then
    if audio.rejected ∨ video.rejected then .error "Gingle protocol may not reject individual contents."
    else do
      let audioElem ← writeContentInfo parsers .gingle audio
      let videoElem ← writeContentInfo parsers .gingle video
      return [copyXmlChildren audioElem videoElem]
  else .error "Gingle protocol may only have one content."

/-- `WriteGingleContentInfos`. -/
def writeGingleContentInfos : List (ContentInfo D) → Except WriteError (List XmlElement)
  | [] => .error "Gingle protocol may only have one content."
  | [content] => writeGingleContent parsers content
  | [first, second] =>
    if !isWritable parsers .gingle second then writeGingleContent parsers first
    else writeGingleMergedContent parsers first second
  | first :: second :: _ => writeGingleMergedContent parsers first second

/-- `WriteJingleContents`. -/
def writeJingleContents (texts : TextFormat) (translators : CandidateTranslatorMap)
    (contents : List (ContentInfo D)) (tinfos : List TransportInfo) : Except WriteError (List XmlElement) :=
  (contents.filter (!·.rejected)).mapM fun content =>
    match getTransportInfoByContentName tinfos content.name with
    | none => .error ("No transport for content: " ++ content.name)
    | some tinfo => do
      let elem ← writeContentInfo parsers .jingle content
      let transElem ← writeJingleTransportInfo texts translators tinfo
      return writeJingleContent content.name [elem, transElem]

/-- `WriteJingleContentInfos`. -/
def writeJingleContentInfos (contents : List (ContentInfo D)) : Except WriteError (List XmlElement) :=
  (contents.filter (!·.rejected)).mapM fun content => do
    let elem ← writeContentInfo parsers .jingle content
    return writeJingleContent content.name [elem]

/-- A content of a group. -/
def groupContentElement (name : String) : XmlElement :=
  (XmlElement.ofName qnJingleContent).setAttr qnJingleContentName name

/-- `WriteJingleGroupInfo`: one group with all contents, if there is any group. -/
def writeJingleGroupInfo (contents : List (ContentInfo D)) (groups : List ContentGroup) : List XmlElement :=
  if groups = [] then []
  else
    let pairElem := (XmlElement.ofName qnJingleDraftGroup).setAttr qnJingleDraftGroupType GROUP_TYPE_BUNDLE
    [addXmlChildren pairElem (contents.map (groupContentElement ·.name))]

end Contents

/-! ### Messages -/

section Messages

variable {D : Type} (parsers : ContentParserMap D) (texts : TextFormat) (translators : CandidateTranslatorMap)

variable (protocol : SignalingProtocol)

/-- `ParseContentMessage`. -/
def parseContentMessage (actionElem : XmlElement) (expectTransports : Bool) :
    Except ParseError (ContentMessage D) :=
  match protocol with
  | .gingle => do
    let contents ← parseGingleContentInfos parsers actionElem
    let transports ←
      if expectTransports then
        parseGingleTransportInfos texts translators actionElem (contents.map (·.name))
      else .ok []
    return ⟨contents, transports, []⟩
  | _ => do
    let contents ← parseJingleContentInfos parsers actionElem
    let groups ← parseJingleGroupInfos actionElem
    let transports ←
      if expectTransports then
        parseJingleTransportInfos texts translators actionElem (contents.map (·.name))
      else .ok []
    return ⟨contents, transports, groups⟩

/-- `WriteContentMessage`. -/
def writeContentMessage (message : ContentMessage D) :
    Except WriteError (List XmlElement) :=
  match protocol with
  | .gingle => do
    let elems ← writeGingleContentInfos parsers message.contents
    let candidates ← writeGingleTransportInfos texts translators message.transports
    return elems ++ candidates
  | _ => do
    let elems ← writeJingleContents parsers texts translators message.contents message.transports
    return elems ++ writeJingleGroupInfo message.contents message.groups

/-- `ParseSessionTerminate`. -/
def parseSessionTerminate (actionElem : XmlElement) : SessionTerminate :=
  match protocol with
  | .gingle =>
    match actionElem.firstElement with
    | none => ⟨"", ""⟩
    | some reasonElem =>
      ⟨reasonElem.name.localPart, (reasonElem.firstElement.map (·.name.localPart)).getD ""⟩
  | _ =>
    ⟨(((actionElem.firstNamed qnJingleReason).bind XmlElement.firstElement).map (·.name.localPart)).getD "", ""⟩

/-- `WriteSessionTerminate`. -/
def writeSessionTerminate (term : SessionTerminate) : List XmlElement :=
  match protocol with
  | .gingle => [XmlElement.ofName ⟨nsGingle, term.reason⟩]
  | _ =>
    if term.reason = "" then []
    else [(XmlElement.ofName qnJingleReason).addElement (XmlElement.ofName ⟨nsJingle, term.reason⟩)]

/-- `WriteDescriptionInfo`. -/
def writeDescriptionInfo (contents : List (ContentInfo D)) :
    Except WriteError (List XmlElement) :=
  match protocol with
  | .gingle => writeGingleContentInfos parsers contents
  | _ => writeJingleContentInfos parsers contents

/-- `ParseTransportInfos`. -/
def parseTransportInfos (actionElem : XmlElement) (contentNames : List String) :
    Except ParseError (List TransportInfo) :=
  match protocol with
  | .gingle => parseGingleTransportInfos texts translators actionElem contentNames
  | _ => parseJingleTransportInfos texts translators actionElem contentNames

/-- `WriteTransportInfos`. -/
def writeTransportInfos (tinfos : List TransportInfo) :
    Except WriteError (List XmlElement) :=
  match protocol with
  | .gingle => writeGingleTransportInfos texts translators tinfos
  | _ => writeJingleTransportInfos texts translators tinfos

/-- The `Write` functions of a session (`Session::WriteSessionAction`, `SendAcceptMessage`,
`SendDescriptionInfoMessage`, `SendInfoMessage`). -/
def writeSessionAction : SessionAction D → Except WriteError (List XmlElement)
  | .initiate message => writeContentMessage parsers texts translators protocol message
  | .accept message => writeContentMessage parsers texts translators protocol message
  | .reject term => .ok (writeSessionTerminate protocol term)
  | .terminate term => .ok (writeSessionTerminate protocol term)
  | .transportInfo tinfos => writeTransportInfos texts translators protocol tinfos
  | .descriptionInfo contents => writeDescriptionInfo parsers protocol contents
  | .info elems => .ok elems

/-- The `Parse` functions of a session. For a transport-info it has the names of the contents. A reject is read
as a terminate; a transport-accept carries nothing. -/
def parseSessionAction (contentNames : List String) (type : ActionType)
    (actionElem : XmlElement) : Except ParseError (SessionAction D) :=
  match type with
  | .sessionInitiate => do
    let message ← parseContentMessage parsers texts translators protocol actionElem true
    return .initiate message
  | .sessionAccept => do
    let message ← parseContentMessage parsers texts translators protocol actionElem true
    return .accept message
  | .sessionReject => .ok (.reject (parseSessionTerminate protocol actionElem))
  | .sessionTerminate => .ok (.terminate (parseSessionTerminate protocol actionElem))
  | .transportInfo => do
    let tinfos ← parseTransportInfos texts translators protocol actionElem contentNames
    return .transportInfo tinfos
  | .descriptionInfo => do
    let message ← parseContentMessage parsers texts translators protocol actionElem false
    return .descriptionInfo message.contents
  | .sessionInfo => .ok (.info actionElem.elements)
  | .transportAccept | .unknown => .error ""

/-! ### Stanzas -/

/-- `WriteGingleAction`. -/
def writeGingleAction (type : ActionType) (sid initiator : String) (actionElems : List XmlElement) :
    XmlElement :=
  let session := (XmlElement.withDefaultNs qnGingleSession).addAttr qnType type.toGingleString
  addXmlChildren ((session.addAttr qnId sid).addAttr qnInitiator initiator) actionElems

/-- `WriteJingleAction`. -/
def writeJingleAction (type : ActionType) (sid initiator : String) (actionElems : List XmlElement) :
    XmlElement :=
  let jingle := (XmlElement.withDefaultNs qnJingle).addAttr qnAction type.toJingleString
  let jingle := jingle.addAttr qnSid sid
  let jingle := if type = .sessionInitiate then jingle.addAttr qnInitiator initiator else jingle
  addXmlChildren jingle actionElems

/-- `WriteSessionMessage`. -/
def writeSessionMessage (type : ActionType) (sid initiator recipient : String)
    (actionElems : List XmlElement) (stanza : XmlElement) : XmlElement :=
  let stanza := (stanza.setAttr qnTo recipient).setAttr qnType "set"
  match protocol with
  | .gingle => stanza.addElement (writeGingleAction type sid initiator actionElems)
  | _ => stanza.addElement (writeJingleAction type sid initiator actionElems)

/-- `Session::WriteActionMessage`, for a protocol that is not hybrid, to a new stanza. -/
def writeActionMessage (sid initiator recipient : String)
    (action : SessionAction D) : Except WriteError XmlElement := do
  let actionElems ← writeSessionAction parsers texts translators protocol action
  return writeSessionMessage protocol action.type sid initiator recipient actionElems (XmlElement.ofName qnIq)

end Messages

end Synciga.P2p
