import Synciga.Xml.XmlnsStack

/-!
# `buzz::XmlPrinter`

Elements are printed (`talk/xmllite/xmlprinter.cc`). The source pops the frame of an element when it is printed;
here the stack of the parent is used again.

## Main definitions

* `printElement` — an element, with the prefixes that are in scope
-/

namespace Synciga.XmlPrinter

/-- `PrintQuotedValue`. -/
def quotedValue (text : String) : String :=
  String.ofList (text.toList.flatMap fun c =>
    if c = '<' then "&lt;".toList
    else if c = '>' then "&gt;".toList
    else if c = '&' then "&amp;".toList
    else if c = '"' then "&quot;".toList
    else [c])

/-- `PrintBodyText`. -/
def bodyText (text : String) : String :=
  String.ofList (text.toList.flatMap fun c =>
    if c = '<' then "&lt;".toList
    else if c = '>' then "&gt;".toList
    else if c = '&' then "&amp;".toList
    else [c])

/-- `PrintCDATAText`. -/
def cdataText (text : String) : String := "<![CDATA[" ++ text ++ "]]>"

/-- The declarations among the attributes are put on the stack. -/
def declareAttrs (attrs : List (QName × String)) (s : XmlnsStack) : XmlnsStack :=
  attrs.foldl (fun s attr =>
    if attr.1 = qnXmlns then s.addXmlns "" attr.2
    else if attr.1.ns = nsXmlns then s.addXmlns attr.1.localPart attr.2
    else s) s

/-- A namespace gets a prefix, which is kept with it if it is new. -/
def declareNs (ns : String) (isAttr : Bool) (state : XmlnsStack × List (String × String)) :
    XmlnsStack × List (String × String) :=
  match state.1.addNewPrefix ns isAttr with
  | (none, s) => (s, state.2)
  | (some pre, s) => (s, state.2 ++ [(pre, ns)])

/-- The stack inside an element, and the declarations that are made up for it (`new_ns`). -/
def declare (element : XmlElement) (s : XmlnsStack) : XmlnsStack × List (String × String) :=
  element.attrs.foldl (fun state attr => declareNs attr.1.ns true state)
    (declareNs element.name.ns false (declareAttrs element.attrs s.pushFrame, []))

/-- A declaration that was made up. Its value is not escaped. -/
def newNs (entry : String × String) : String :=
  if entry.1 = "" then " xmlns=\"" ++ entry.2 ++ "\""
  else " xmlns:" ++ entry.1 ++ "=\"" ++ entry.2 ++ "\""

/-- An attribute. -/
def printAttr (s : XmlnsStack) (attr : QName × String) : String :=
  " " ++ s.formatQName attr.1 true ++ "=\"" ++ quotedValue attr.2 ++ "\""

mutual

/-- `XmlPrinterImpl::PrintElement`. -/
def printElement (s : XmlnsStack) : XmlElement → String
  | ⟨name, attrs, children, cdata⟩ =>
    let (s, added) := declare ⟨name, attrs, children, cdata⟩ s
    let tag := s.formatQName name false
    "<" ++ tag ++ String.join (attrs.map (printAttr s)) ++ String.join (added.map newNs) ++
      match children with
      | [] => "/>"
      | child :: children => ">" ++ printChildren s cdata (child :: children) ++ "</" ++ tag ++ ">"

/-- The children, in order. -/
def printChildren (s : XmlnsStack) (cdata : Bool) : List XmlChild → String
  | [] => ""
  | child :: children => printChild s cdata child ++ printChildren s cdata children

/-- One child. -/
def printChild (s : XmlnsStack) (cdata : Bool) : XmlChild → String
  | .text text => if cdata then cdataText text else bodyText text
  | .element child => printElement s child

end

end Synciga.XmlPrinter
