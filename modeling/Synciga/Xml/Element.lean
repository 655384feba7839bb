import Mathlib.Data.List.Basic

/-!
# `buzz::XmlElement`

Qualified names and elements (`talk/xmllite/qname.h`, `talk/xmllite/xmlelement.cc`). Attributes and children,
which the source links by hand, are lists here.

## Main definitions

* `QName`, `XmlElement` — names and elements
* `XmlElement.attr`, `XmlElement.setAttr`, `XmlElement.elements`
-/

namespace Synciga

/-- The bytes of a string. -/
def utf8 (s : String) : List UInt8 := s.toList.flatMap String.utf8EncodeChar

theorem utf8_append (s t : String) : utf8 (s ++ t) = utf8 s ++ utf8 t := by
  rw [utf8, String.toList_append, List.flatMap_append, utf8, utf8]

/-- The class `QName`. -/
structure QName where
  ns : String
  localPart : String
  deriving DecidableEq, Repr

/-- `QName::IsEmpty`. -/
def QName.isEmpty (name : QName) : Bool := name.ns = "" && name.localPart = ""

mutual

/-- An element, with its attributes and children. -/
structure XmlElement where
  name : QName
  attrs : List (QName × String)
  children : List XmlChild
  /-- `cdata_`: the text is printed as CDATA. -/
  cdata : Bool

/-- `XmlChild`: an `XmlText` or an `XmlElement`. -/
inductive XmlChild where
  | text (text : String)
  | element (element : XmlElement)

end

/-- `NS_XML`. -/
def nsXml : String := "http://www.w3.org/XML/1998/namespace"

/-- `NS_XMLNS`. -/
def nsXmlns : String := "http://www.w3.org/2000/xmlns/"

/-- `QN_XMLNS`. -/
def qnXmlns : QName := ⟨"", "xmlns"⟩

/-- `XmlChild::AsElement`. -/
def XmlChild.asElement : XmlChild → Option XmlElement
  | .text _ => none
  | .element child => some child

namespace XmlElement

/-- `XmlElement(name)`. -/
def ofName (name : QName) : XmlElement := ⟨name, [], [], false⟩

/-- `XmlElement(name, true)`: with its namespace as the default one. -/
def withDefaultNs (name : QName) : XmlElement := ⟨name, [(qnXmlns, name.ns)], [], false⟩

/-- `Attr`: the value of the first attribute of the name. -/
def attr (element : XmlElement) (name : QName) : String :=
  match element.attrs.find? (·.1 = name) with
  | none => ""
  | some attr => attr.2

variable (element : XmlElement)

/-- `HasAttr`. -/
def hasAttr (name : QName) : Bool := element.attrs.any (·.1 = name)

/-- The children that are elements. -/
def elements : List XmlElement := element.children.filterMap XmlChild.asElement

/-- `FirstElement`. -/
def firstElement : Option XmlElement := element.elements.head?

/-- `FirstNamed`. -/
def firstNamed (name : QName) : Option XmlElement :=
  element.elements.find? (·.name = name)

/-- The children that `FirstNamed` and `NextNamed` go through. -/
def allNamed (name : QName) : List XmlElement :=
  element.elements.filter (·.name = name)

/-- `BodyText`: the text, if it is all there is. -/
def bodyText : String :=
  match element.children with
  | [.text text] => text
  | _ => ""

/-- `TextNamed`. -/
def textNamed (name : QName) : String :=
  match element.firstNamed name with
  | none => ""
  | some child => child.bodyText

/-- `AddAttr`. -/
def addAttr (name : QName) (value : String) : XmlElement :=
  { element with attrs := element.attrs ++ [(name, value)] }

/-- `SetAttr`: the first attribute of the name gets the value, or a new one is added. -/
def setAttr (name : QName) (value : String) : XmlElement :=
  match element.attrs.findIdx? (·.1 = name) with
  | none => element.addAttr name value
  | some i => { element with attrs := element.attrs.set i (name, value) }

/-- `AddParsedText` and `AddText`: text behind text is one text. -/
def addParsedText (text : String) : XmlElement :=
  if text = "" then element
  else match element.children.getLast? with
    | some (.text last) => { element with children := element.children.dropLast ++ [.text (last ++ text)] }
    | _ => { element with children := element.children ++ [.text text] }

/-- `AddElement`. -/
def addElement (element child : XmlElement) : XmlElement :=
  { element with children := element.children ++ [.element child] }

end XmlElement

end Synciga
