import Synciga.Internal.XmlScanner
import Synciga.Xml.XmlnsStack

/-!
# `buzz::XmlParser` and `buzz::XmlBuilder`

The parser (`talk/xmllite/xmlparser.cc`) hands text to expat, which calls back with elements and text. It keeps
track of the namespaces that are declared, and passes the calls on to its handler until there is an error, of
which the handler is told when expat returns.

The builder (`talk/xmllite/xmlbuilder.cc`) makes a tree from these calls. The source adds an element to its
parent when it starts; here this is done when it ends. The tree is asked for only when it is complete.

## Main definitions

* `Expat` — expat, a parameter
* `XmlParser`, `XmlBuilder` — the parser and the builder
-/

namespace Synciga

/-- What expat calls back. -/
inductive Callback
  | startElement (name : String) (atts : List (String × String))
  | endElement (name : String)
  | characterData (text : String)
  | xmlDecl (version encoding : Option String) (standalone : Int)
  deriving DecidableEq, Repr

/-- `XML_Error`, by its number. -/
abbrev XmlErrorCode := Nat

/-- `XML_ERROR_NONE`. -/
def xmlErrorNone : XmlErrorCode := 0

/-- `XML_ERROR_SYNTAX`. -/
def xmlErrorSyntax : XmlErrorCode := 2

/-- `XML_ERROR_INCORRECT_ENCODING`. -/
def xmlErrorIncorrectEncoding : XmlErrorCode := 19

/-- Expat, with its states: `XML_ParserCreate`, `XML_ParserReset` (whether it was successful, and the
state) and `XML_Parse` (the state, what it calls back meanwhile, and the error, if any). -/
structure Expat (σ : Type) where
  create : σ
  reset : σ → Bool × σ
  parse : σ → List UInt8 → Bool → σ × List Callback × XmlErrorCode

/-- What expat calls back for a token. -/
def Callback.ofToken : XmlScanner.Token → Callback
  | .start name atts =>
    .startElement (String.ofList name) (atts.map fun att => (String.ofList att.1, String.ofList att.2))
  | .finish name => .endElement (String.ofList name)
  | .char c => .characterData (String.ofList [c])

/-- The scanner in the place of expat, with a way to read characters from bytes. -/
def Expat.ofScanner (decode : List UInt8 → List Char) : Expat XmlScanner.State where
  create := .init
  reset _ := (true, .init)
  parse s data isFinal :=
    let (s, tokens) := s.feed (decode data)
    (s, tokens.map Callback.ofToken,
      if s.mode = .failed ∨ (isFinal ∧ ¬s.IsFinal) then xmlErrorSyntax else xmlErrorNone)

/-- Characters that are one byte each. -/
def decodeAscii (bytes : List UInt8) : List Char := bytes.map fun b => Char.ofNat b.toNat

/-- `XmlParseHandler`, with its states. It can raise an error when an element starts. -/
structure XmlParseHandler (η : Type) where
  startElement : XmlnsStack → String → List (String × String) → η → η × Option XmlErrorCode
  endElement : String → η → η
  characterData : String → η → η
  error : XmlErrorCode → η → η

/-- `XmlParser` with its `ParseContext`. -/
structure XmlParser (σ : Type) where
  expat : σ
  xmlnsStack : XmlnsStack
  /-- `raised_`. -/
  raised : XmlErrorCode
  sentError : Bool

/-- What an attribute declares, if it is named `xmlns` or begins with `xmlns:`. -/
def declaredPrefix (att : String) : Option String :=
  match att.toList with
  | ['x', 'm', 'l', 'n', 's'] => some ""
  | 'x' :: 'm' :: 'l' :: 'n' :: 's' :: ':' :: pre => some (String.ofList pre)
  | _ => none

/-- The loop of `ExpatStartElement` over the attributes: the declarations, or nothing if one of them
gives a prefix no namespace. -/
def declareAll : List (String × String) → XmlnsStack → XmlnsStack × Bool
  | [], s => (s, true)
  | (att, value) :: atts, s =>
    match declaredPrefix att with
    | none => declareAll atts s
    | some pre =>
      -- in XML 1.0 an empty namespace is illegal with a prefix
      if att ≠ "xmlns" ∧ value = "" then (s, false) else declareAll atts (s.addXmlns pre value)

/-- `ResolveQName`, with nothing for a name that is empty. -/
def XmlnsStack.resolveQName (s : XmlnsStack) (qname : String) (isAttr : Bool) : QName :=
  match qname.toList.span (· ≠ ':') with
  | (pre, _ :: localPart) =>
    match s.nsForPrefix (String.ofList pre) with
    | none => ⟨"", ""⟩
    | some ns => ⟨ns, String.ofList localPart⟩
  | (_, []) =>
    if isAttr then ⟨"", qname⟩
    else match s.nsForPrefix "" with
      | none => ⟨"", ""⟩
      | some ns => ⟨ns, qname⟩

namespace XmlParser

variable {σ η : Type} (expat : Expat σ) (handler : XmlParseHandler η)

/-- `XmlParser()`. -/
def create : XmlParser σ := ⟨expat.create, XmlnsStack.empty, xmlErrorNone, false⟩

/-- `Reset`. -/
def reset (p : XmlParser σ) : XmlParser σ where
  expat := if (expat.reset p.expat).1 then (expat.reset p.expat).2 else expat.create
  xmlnsStack := p.xmlnsStack.reset
  raised := xmlErrorNone
  sentError := false

/-- `RaiseError`: the first error counts. -/
def raiseError (error : XmlErrorCode) (p : XmlParser σ) : XmlParser σ :=
  if p.raised = xmlErrorNone then { p with raised := error } else p

/-- `XmlParser::ExpatStartElement`. -/
def expatStartElement (name : String) (atts : List (String × String)) (p : XmlParser σ) (h : η) :
    XmlParser σ × η :=
  match declareAll atts p.xmlnsStack.pushFrame with
  | (s, false) => ({ p with xmlnsStack := s }.raiseError xmlErrorSyntax, h)
  | (s, true) =>
    let p := { p with xmlnsStack := s }
    match handler.startElement s name atts h with
    | (h, none) => (p, h)
    | (h, some error) => (p.raiseError error, h)

/-- `XmlParser::ExpatEndElement`. -/
def expatEndElement (name : String) (p : XmlParser σ) (h : η) : XmlParser σ × η :=
  ({ p with xmlnsStack := p.xmlnsStack.popFrame }, handler.endElement name h)

/-- Whether an encoding begins with `UTF-8`. -/
def isUtf8 (encoding : String) : Bool :=
  match encoding.toList with
  | a :: b :: c :: d :: e :: _ =>
    (a = 'U' || a = 'u') && (b = 'T' || b = 't') && (c = 'F' || c = 'f') && d = '-' && e = '8'
  | _ => false

/-- `ExpatXmlDecl`. -/
def expatXmlDecl (version encoding : Option String) (standalone : Int) (p : XmlParser σ) : XmlParser σ :=
  if version.any (· ≠ "1.0") then p.raiseError xmlErrorSyntax
  else if standalone = 0 then p.raiseError xmlErrorSyntax
  else if encoding.any (!isUtf8 ·) then p.raiseError xmlErrorIncorrectEncoding
  else p

/-- A call from expat. It is ignored once an error was raised. -/
def callback (p : XmlParser σ) (h : η) (c : Callback) : XmlParser σ × η :=
  if p.raised ≠ xmlErrorNone then (p, h)
  else match c with
    | .startElement name atts => p.expatStartElement handler name atts h
    | .endElement name => p.expatEndElement handler name h
    | .characterData text => (p, handler.characterData text h)
    | .xmlDecl version encoding standalone => (p.expatXmlDecl version encoding standalone, h)

/-- All calls from expat. -/
def callbacks (p : XmlParser σ) (h : η) (cs : List Callback) : XmlParser σ × η :=
  cs.foldl (fun ph c => callback handler ph.1 ph.2 c) (p, h)

/-- `Parse`. -/
def parse (data : List UInt8) (isFinal : Bool) (p : XmlParser σ) (h : η) : XmlParser σ × η × Bool :=
  if p.sentError then (p, h, false)
  else
    let (expatState, cs, error) := expat.parse p.expat data isFinal
    let (p, h) := callbacks handler p h cs
    let p := { p with expat := expatState }
    let p := if error ≠ xmlErrorNone then p.raiseError error else p
    if p.raised ≠ xmlErrorNone then ({ p with sentError := true }, handler.error p.raised h, false)
    else (p, h, true)

end XmlParser

/-! ### The builder -/

/-- `XmlBuilder`: the elements that are open, the innermost first, and the tree. -/
structure XmlBuilder where
  parents : List XmlElement
  root : Option XmlElement

namespace XmlBuilder

/-- `XmlBuilder()`. -/
def create : XmlBuilder := ⟨[], none⟩

/-- `Reset`. -/
def reset (_ : XmlBuilder) : XmlBuilder := ⟨[], none⟩

/-- The loop of `BuildElement` over the attributes; the names with a namespace must be different. -/
def buildAttrs (s : XmlnsStack) : List (String × String) → List QName → XmlElement → Option XmlElement
  | [], _, element => some element
  | (att, value) :: atts, seen, element =>
    let name := s.resolveQName att true
    if name.isEmpty then none
    else if name.ns ≠ "" then
      if name ∈ seen then none else buildAttrs s atts (name :: seen) (element.addAttr name value)
    else buildAttrs s atts seen (element.addAttr name value)

/-- `BuildElement`. -/
def buildElement (s : XmlnsStack) (name : String) (atts : List (String × String)) : Option XmlElement :=
  let tagName := s.resolveQName name false
  if tagName.isEmpty then none else buildAttrs s atts [] (XmlElement.ofName tagName)

/-- `StartElement`. -/
def startElement (s : XmlnsStack) (name : String) (atts : List (String × String)) (b : XmlBuilder) :
    XmlBuilder × Option XmlErrorCode :=
  match buildElement s name atts with
  | none => (b, some xmlErrorSyntax)
  | some element =>
    match b.parents with
    | [] => (⟨[element], none⟩, none)
    | parents => ({ b with parents := element :: parents }, none)

/-- `EndElement`. -/
def endElement (_ : String) (b : XmlBuilder) : XmlBuilder :=
  match b.parents with
  | [] => b
  | [element] => ⟨[], some element⟩
  | element :: parent :: parents => { b with parents := parent.addElement element :: parents }

/-- `CharacterData`. -/
def characterData (text : String) (b : XmlBuilder) : XmlBuilder :=
  match b.parents with
  | [] => b
  | element :: parents => { b with parents := element.addParsedText text :: parents }

/-- `CreateElement`: the tree is handed over. -/
def createElement (b : XmlBuilder) : Option XmlElement × XmlBuilder := (b.root, { b with root := none })

end XmlBuilder

end Synciga
