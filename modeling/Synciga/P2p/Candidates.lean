import Synciga.Base.StreamNumbers
import Synciga.P2p.ContentProxies

/-!
# Candidates in messages

A candidate is an element with an attribute for each of its values (`talk/p2p/base/p2ptransport.cc`,
`talk/p2p/base/parsing.cc`), and its component the name of its channel, for which either side has a translator.
Candidates are in a transport element in Jingle, and in the message itself in Gingle.

## Main definitions

* `TextFormat` — the texts of addresses and of preferences, which are the C library's
* `writeCandidate`, `parseCandidate` — a candidate and its element
-/

namespace Synciga.P2p

open Xmpp (qnType)

/-! ### Constants -/

/-- `LN_TRANSPORT`. -/
def lnTransport : String := "transport"

/-- `LN_CANDIDATE`. -/
def lnCandidate : String := "candidate"

/-- `QN_NAME`. -/
def qnName : QName := ⟨"", "name"⟩
/-- `QN_ADDRESS`. -/
def qnAddress : QName := ⟨"", "address"⟩
/-- `QN_PORT`. -/
def qnPort : QName := ⟨"", "port"⟩
/-- `QN_PREFERENCE`. -/
def qnPreference : QName := ⟨"", "preference"⟩
/-- `QN_USERNAME`. -/
def qnUsername : QName := ⟨"", "username"⟩
/-- `QN_PASSWORD`. -/
def qnPassword : QName := ⟨"", "password"⟩
/-- `QN_PROTOCOL`. -/
def qnProtocol : QName := ⟨"", "protocol"⟩
/-- `QN_GENERATION`. -/
def qnGeneration : QName := ⟨"", "generation"⟩
/-- `QN_NETWORK`. -/
def qnNetwork : QName := ⟨"", "network"⟩
/-- `QN_GINGLE_P2P_CANDIDATE`. -/
def qnGingleP2pCandidate : QName := ⟨NS_GINGLE_P2P, lnCandidate⟩
/-- `QN_GINGLE_CANDIDATE`. -/
def qnGingleCandidate : QName := ⟨nsGingle, lnCandidate⟩

/-- The longest username in Gingle. -/
def kMaxGiceUsernameSize : ℕ := 16

/-- The longest username in ICE. -/
def kMaxIceUsernameSize : ℕ := 512

/-! ### What is given -/

/-- `WriteError`, by its text. -/
abbrev WriteError := String

/-- The names of the channels of a content. -/
structure CandidateTranslator where
  getChannelNameFromComponent : ℤ → Option String
  getComponentFromChannelName : String → Option ℤ

/-- The translators of the contents. -/
abbrev CandidateTranslatorMap := String → Option CandidateTranslator

/-- The texts of addresses, of the C library, and those of preferences. -/
structure TextFormat where
  /-- `inet_ntop`. -/
  inetNtop : IPAddress → String
  /-- `inet_pton` for `AF_INET`. -/
  inetPton4 : String → Option UInt32
  /-- `inet_pton` for `AF_INET6`. -/
  inetPton6 : String → Option (UInt32 × UInt32 × UInt32 × UInt32)
  /-- `ToString` of the `preference` of a priority. -/
  preferenceToString : UInt32 → String
  /-- `FromString`, and the priority that `set_preference` makes of the number. -/
  priorityFromString : String → Option UInt32

namespace TextFormat

variable (texts : TextFormat)

/-- `IPAddress::ToString`. -/
def ipToString : IPAddress → String
  | .unspec => ""
  | ip => texts.inetNtop ip

/-- `IPFromString`. -/
def ipFromString (text : String) : IPAddress :=
  match texts.inetPton4 text with
  | some ip => .ipv4 ip
  | none =>
    match texts.inetPton6 text with
    | some (w₀, w₁, w₂, w₃) => .ipv6 w₀ w₁ w₂ w₃
    | none => .unspec

end TextFormat

/-! ### Attributes and children -/

/-- `RequireXmlAttr`. -/
def requireXmlAttr (elem : XmlElement) (name : QName) : Except ParseError String :=
  if elem.hasAttr name then .ok (elem.attr name)
  else .error ("element '" ++ mergedName elem.name ++ "' missing required attribute '" ++ mergedName name ++ "'")

/-- `AddXmlChildren`. -/
def addXmlChildren (parent : XmlElement) (children : List XmlElement) : XmlElement :=
  children.foldl XmlElement.addElement parent

/-- `CopyXmlChildren`. -/
def copyXmlChildren (source dest : XmlElement) : XmlElement := addXmlChildren dest source.elements

/-! ### One candidate -/

variable (texts : TextFormat)

/-- `TransportParser::ParseAddress`; the text is the host name. -/
def parseAddress (elem : XmlElement) : Except ParseError (SocketAddress × String) :=
  if ¬elem.hasAttr qnAddress then .error ("address does not have " ++ qnAddress.localPart)
  else if ¬elem.hasAttr qnPort then .error ("address does not have " ++ qnPort.localPart)
  else
    let hostname := elem.attr qnAddress
    .ok (⟨texts.ipFromString hostname, UInt16.ofInt (extractInt (elem.attr qnPort))⟩, hostname)

/-- `Base64::IsBase64Char`. -/
def isBase64Char (c : Char) : Bool :=
  ('A' ≤ c && c ≤ 'Z') || ('a' ≤ c && c ≤ 'z') || ('0' ≤ c && c ≤ '9') || c = '+' || c = '/'

/-- `Base64::IsBase64Encoded`. -/
def isBase64Encoded (text : String) : Bool := text.toList.all isBase64Char

/-- `P2PTransportParser::VerifyUsernameFormat`. -/
def verifyUsernameFormat (proto : TransportProtocol) (username : String) : Except ParseError Unit :=
  match proto with
  | .google | .hybrid =>
    if kMaxGiceUsernameSize < (utf8 username).length then .error "candidate username is too long"
    else if ¬isBase64Encoded username then .error "candidate username has non-base64 encoded characters"
    else .ok ()
  | .rfc5245 =>
    if kMaxIceUsernameSize < (utf8 username).length then .error "candidate username is too long" else .ok ()

/-- `ParseCandidate`. What the candidate has no attribute for is as in a new one. -/
def parseCandidate (proto : TransportProtocol) (elem : XmlElement)
    (translator : Option CandidateTranslator) : Except ParseError Candidate :=
  if ¬elem.hasAttr qnName ∨ ¬elem.hasAttr qnAddress ∨ ¬elem.hasAttr qnPort ∨ ¬elem.hasAttr qnUsername ∨
      ¬elem.hasAttr qnProtocol ∨ ¬elem.hasAttr qnGeneration then
    .error "candidate missing required attribute"
  else do
    let (address, hostname) ← parseAddress texts elem
    let channelName := elem.attr qnName
    match translator.bind (·.getComponentFromChannelName channelName) with
    | none => .error ("candidate has unknown channel name " ++ channelName)
    | some component =>
      match (if elem.hasAttr qnPreference then texts.priorityFromString (elem.attr qnPreference)
        else some 0) with
      | none => .error "candidate has unknown preference"
      | some priority =>
        verifyUsernameFormat proto (elem.attr qnUsername)
        return {
          id := ""
          component := component
          protocol := elem.attr qnProtocol
          address := address
          priority := priority
          username := elem.attr qnUsername
          password := if elem.hasAttr qnPassword then elem.attr qnPassword else ""
          type := if elem.hasAttr qnType then elem.attr qnType else ""
          networkName := if elem.hasAttr qnNetwork then elem.attr qnNetwork else ""
          generation := extractUInt32 (elem.attr qnGeneration)
          foundation := ""
          relatedAddress := ⟨.unspec, 0⟩
          hostname := hostname }

/-- `SetAttr`, unless the value is empty. -/
def setAttrIfNonEmpty (elem : XmlElement) (name : QName) (value : String) : XmlElement :=
  if value = "" then elem else elem.setAttr name value

/-- The attributes that `WriteCandidate` sets. -/
def candidateAttrs (candidate : Candidate) (channelName : String) (elem : XmlElement) :
    XmlElement :=
  let elem := elem.setAttr qnName channelName
  let elem := elem.setAttr qnAddress (texts.ipToString candidate.address.ip)
  let elem := elem.setAttr qnPort (Nat.repr candidate.address.port.toNat)
  let elem := elem.addAttr qnPreference (texts.preferenceToString candidate.priority)
  let elem := elem.setAttr qnUsername candidate.username
  let elem := elem.setAttr qnProtocol candidate.protocol
  let elem := elem.setAttr qnGeneration (Nat.repr candidate.generation.toNat)
  let elem := setAttrIfNonEmpty elem qnPassword candidate.password
  let elem := elem.setAttr qnType candidate.type
  setAttrIfNonEmpty elem qnNetwork candidate.networkName

/-- `P2PTransportParser::WriteCandidate`. -/
def writeCandidate (candidate : Candidate) (translator : Option CandidateTranslator)
    (elem : XmlElement) : Except WriteError XmlElement :=
  match translator.bind (·.getChannelNameFromComponent candidate.component) with
  | none => .error "Cannot write candidate because of unknown component."
  | some channelName => .ok (candidateAttrs texts candidate channelName elem)

/-- `ParseGingleCandidate` of the parser. -/
def parseP2pGingleCandidate (elem : XmlElement) (translator : Option CandidateTranslator) :
    Except ParseError Candidate :=
  parseCandidate texts .google elem translator

/-- `WriteGingleCandidate` of the parser. -/
def writeP2pGingleCandidate (candidate : Candidate)
    (translator : Option CandidateTranslator) : Except WriteError XmlElement :=
  writeCandidate texts candidate translator (XmlElement.ofName qnGingleCandidate)

/-! ### Transport elements -/

/-- `TransportDescription(transport_type, candidates)`. -/
def TransportDescription.ofCandidates (transportType : String) (candidates : List Candidate) :
    TransportDescription :=
  { transportType := transportType, transportOptions := [], iceUfrag := "", icePwd := "", iceMode := .full
    candidates := candidates }

/-- `ParseTransportDescription`. The candidates are told by the local part of their names. -/
def parseTransportDescription (elem : XmlElement)
    (translator : Option CandidateTranslator) : Except ParseError TransportDescription :=
  if elem.name.ns ≠ NS_GINGLE_P2P then .error "Unsupported transport type"
  else do
    let candidates ← (elem.elements.filter (·.name.localPart = lnCandidate)).mapM
      (parseCandidate texts .google · translator)
    return TransportDescription.ofCandidates elem.name.ns candidates

/-- `NewTransportElement`. -/
def newTransportElement (name : String) : XmlElement := XmlElement.withDefaultNs ⟨name, lnTransport⟩

/-- `WriteTransportDescription`. There is no text for the error. -/
def writeTransportDescription (desc : TransportDescription)
    (translator : Option CandidateTranslator) : Except WriteError XmlElement :=
  if desc.protocol ≠ .google then .error ""
  else do
    let elems ← desc.candidates.mapM
      (writeCandidate texts · translator (XmlElement.ofName qnGingleP2pCandidate))
    return addXmlChildren (newTransportElement desc.transportType) elems

end Synciga.P2p
