import Synciga.Xml.Parser
import Synciga.Xmpp.Engine

/-!
# `buzz::XmppStanzaParser`

The parser that the engine owns (`talk/xmpp/xmppstanzaparser.cc`).

## Main definitions

* `StanzaHandler` — is told when the stream starts, and each child when it is complete
* `StanzaParser`, `stanzaParser` — the parser, and as the engine has it
-/

namespace Synciga.Xmpp

/-- What the handler inside `XmppStanzaParser` works on, with what it has told. -/
structure StanzaHandler where
  depth : Int
  builder : XmlBuilder
  events : List ParseEvent

namespace StanzaHandler

/-- `IncomingStartElement`. -/
def startElement (s : XmlnsStack) (name : String) (atts : List (String × String)) (h : StanzaHandler) :
    StanzaHandler × Option XmlErrorCode :=
  let h' := { h with depth := h.depth + 1 }
  if h.depth = 0 then
    match XmlBuilder.buildElement s name atts with
    | none => (h', some xmlErrorSyntax)
    | some stream => ({ h' with events := h.events ++ [.startStream stream] }, none)
  else
    let (builder, error) := h.builder.startElement s name atts
    ({ h' with builder := builder }, error)

/-- `IncomingCharacterData`. -/
def characterData (text : String) (h : StanzaHandler) : StanzaHandler :=
  if 1 < h.depth then { h with builder := h.builder.characterData text } else h

/-- `IncomingEndElement`. -/
def endElement (name : String) (h : StanzaHandler) : StanzaHandler :=
  let h := { h with depth := h.depth - 1 }
  if h.depth = 0 then { h with events := h.events ++ [.endStream] }
  else
    let h := { h with builder := h.builder.endElement name }
    if h.depth = 1 then
      match h.builder.createElement with
      | (none, builder) => { h with builder := builder }
      | (some element, builder) => { h with builder := builder, events := h.events ++ [.stanza element] }
    else h

/-- `IncomingError`. -/
def error (_ : XmlErrorCode) (h : StanzaHandler) : StanzaHandler :=
  { h with events := h.events ++ [.xmlError] }

/-- `XmppStanzaParser::ParseHandler`. -/
def handler : XmlParseHandler StanzaHandler := ⟨startElement, endElement, characterData, error⟩

end StanzaHandler

/-- `XmppStanzaParser`. -/
structure StanzaParser (σ : Type) where
  parser : XmlParser σ
  depth : Int
  builder : XmlBuilder

namespace StanzaParser

variable {σ : Type} (expat : Expat σ)

/-- `XmppStanzaParser()`. -/
def create : StanzaParser σ := ⟨XmlParser.create expat, 0, XmlBuilder.create⟩

/-- `Parse`, of a part of the document, with what is told. -/
def parse (p : StanzaParser σ) (data : List UInt8) : StanzaParser σ × List ParseEvent :=
  let (parser, h, _) := XmlParser.parse expat StanzaHandler.handler data false p.parser
    ⟨p.depth, p.builder, []⟩
  (⟨parser, h.depth, h.builder⟩, h.events)

/-- `XmppStanzaParser::Reset`. -/
def reset (p : StanzaParser σ) : StanzaParser σ := ⟨p.parser.reset expat, 0, p.builder.reset⟩

end StanzaParser

/-- The parser of the engine. -/
def stanzaParser {σ : Type} (expat : Expat σ) : Parser (StanzaParser σ) :=
  ⟨StanzaParser.create expat, StanzaParser.parse expat, StanzaParser.reset expat⟩

/-! ### What a server sends, and what an application answers -/

/-- The beginning of a stream. -/
def serverStream : List UInt8 :=
  utf8 ("<stream:stream xmlns='jabber:client' xmlns:stream='http://etherx.jabber.org/streams' " ++
    "id='1' version='1.0'>")

/-- The features of a stream. -/
def serverFeatures (features : String) : List UInt8 :=
  utf8 ("<stream:features>" ++ features ++ "</stream:features>")

/-- The feature that TLS can be started. -/
def serverStarttls : String := "<starttls xmlns='urn:ietf:params:xml:ns:xmpp-tls'/>"

/-- The feature that the user can authenticate. -/
def serverMechanisms : String :=
  "<mechanisms xmlns='urn:ietf:params:xml:ns:xmpp-sasl'><mechanism>PLAIN</mechanism></mechanisms>"

/-- The features that a resource can be bound and that there are sessions. -/
def serverBindSession : String :=
  "<bind xmlns='urn:ietf:params:xml:ns:xmpp-bind'/><session xmlns='urn:ietf:params:xml:ns:xmpp-session'/>"

/-- TLS is to be started. -/
def serverProceed : List UInt8 := utf8 "<proceed xmlns='urn:ietf:params:xml:ns:xmpp-tls'/>"

/-- The user is authenticated. -/
def serverSuccess : List UInt8 := utf8 "<success xmlns='urn:ietf:params:xml:ns:xmpp-sasl'/>"

/-- A resource is bound. -/
def serverBound : List UInt8 :=
  utf8 ("<iq type='result' id='0'><bind xmlns='urn:ietf:params:xml:ns:xmpp-bind'>" ++
    "<jid>user@host/here</jid></bind></iq>")

/-- There is a session. -/
def serverSession : List UInt8 := utf8 "<iq type='result' id='1'/>"

/-- A login without TLS, chunk by chunk. -/
def serverLogin : List (List UInt8) :=
  [serverStream, serverFeatures serverMechanisms, serverSuccess, serverStream,
    serverFeatures serverBindSession, serverBound, serverSession]

/-- An application with one mechanism of authentication, which needs no challenge. -/
def saslPlain : Sasl Unit where
  chooseBestSaslMechanism _ _ := "PLAIN"
  createSaslMechanism _ := some ()
  startSaslAuth mech :=
    (some ((XmlElement.withDefaultNs ⟨nsSasl, "auth"⟩).addParsedText "AHVzZXIAcGFzcw=="), mech)
  handleSaslChallenge mech _ := (none, mech)

end Synciga.Xmpp
