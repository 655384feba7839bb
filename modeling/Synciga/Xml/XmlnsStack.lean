import Synciga.Xml.Element

/-!
# `buzz::XmlnsStack`

The prefixes of namespaces that are in scope (`talk/xmllite/xmlnsstack.cc`). The source keeps prefixes and
namespaces in turns in one vector; here they are pairs.

## Main definitions

* `XmlnsStack` with `pushFrame`, `popFrame` and `addXmlns`
* `XmlnsStack.nsForPrefix`, `XmlnsStack.prefixForNs` — for the parser and the printer
-/

namespace Synciga

/-- The prefixes in scope. -/
structure XmlnsStack where
  /-- `pxmlnsStack_`: prefixes with their namespaces, the innermost last. -/
  entries : List (String × String)
  /-- `pxmlnsDepthStack_`: how many entries there were when each frame was pushed. -/
  depths : List Nat
  deriving DecidableEq, Repr

namespace XmlnsStack

/-- `XmlnsStack()`. -/
def empty : XmlnsStack := ⟨[], []⟩

/-- `Reset`. -/
def reset (_ : XmlnsStack) : XmlnsStack := ⟨[], []⟩

variable (s : XmlnsStack)

/-- `PushFrame`. -/
def pushFrame : XmlnsStack := { s with depths := s.depths ++ [s.entries.length] }

/-- `PopFrame`. -/
def popFrame : XmlnsStack :=
  match s.depths.getLast? with
  | none => s
  | some n => ⟨s.entries.take n, s.depths.dropLast⟩

/-- `XmlnsStack::AddXmlns`. -/
def addXmlns (pre ns : String) (s : XmlnsStack) : XmlnsStack :=
  { s with entries := s.entries ++ [(pre, ns)] }

/-- The prefixes that begin with `xml`, in upper or lower case, are reserved. -/
def isReserved (pre : String) : Bool :=
  match pre.toList with
  | a :: b :: c :: _ => (a = 'x' || a = 'X') && (b = 'm' || b = 'M') && (c = 'l' || c = 'L')
  | _ => false

/-- `NsForPrefix`. -/
def nsForPrefix (pre : String) : Option String :=
  if isReserved pre then
    if pre = "xml" then some nsXml else if pre = "xmlns" then some nsXmlns else none
  else match s.entries.reverse.find? (·.1 = pre) with
    | some entry => some entry.2
    | none => if pre = "" then some "" else none

/-- `PrefixMatchesNs`. -/
def prefixMatchesNs (pre ns : String) : Bool := s.nsForPrefix pre = some ns

/-- `PrefixForNs`. -/
def prefixForNs (ns : String) (isAttr : Bool) : Option String :=
  if ns = nsXml then some "xml"
  else if ns = nsXmlns then some "xmlns"
  else if (if isAttr then ns = "" else s.prefixMatchesNs "" ns) then some ""
  else (s.entries.reverse.find? fun entry =>
    entry.2 = ns && (!isAttr || entry.1 ≠ "") && s.prefixMatchesNs entry.1 ns).map (·.1)

/-- `FormatQName`. -/
def formatQName (name : QName) (isAttr : Bool) : String :=
  let pre := (s.prefixForNs name.ns isAttr).getD ""
  if pre = "" then name.localPart else pre ++ ":" ++ name.localPart

/-! ### New prefixes -/

/-- `IsAsciiLetter`. -/
def isAsciiLetter (c : Char) : Bool := ('a' ≤ c && c ≤ 'z') || ('A' ≤ c && c ≤ 'Z')

/-- `AsciiLower`. -/
def asciiLower (cs : List Char) : List Char :=
  cs.map fun c => if 'A' ≤ c && c ≤ 'Z' then Char.ofNat (c.toNat + 32) else c

/-- What `SuggestPrefix` looks at: an extension such as `.html` or `.xsd` is chopped off. -/
def chopExtension (cs : List Char) : List Char :=
  let extension := cs.reverse.takeWhile (· ≠ '.')
  -- lengths are in bytes, and the point counts
  if extension.length < cs.length ∧ (utf8 (String.ofList extension)).length + 1 ≤ 4 + 1 then
    (cs.reverse.drop (extension.length + 1)).reverse
  else cs

/-- `SuggestPrefix`: the last run of letters, or `ns`. -/
def suggestPrefix (ns : String) : String :=
  let letters := (((chopExtension ns.toList).reverse.dropWhile (!isAsciiLetter ·)).takeWhile isAsciiLetter).reverse
  let candidate := asciiLower (if letters.length > 4 then letters.take 3 else letters)
  if candidate = [] ∨ ['x', 'm', 'l'].isPrefixOf candidate then "ns" else String.ofList candidate

/-- The prefixes that `AddNewPrefix` tries: the base, and the base with a number from 2 on. As many as
there are entries can be taken. -/
def newPrefixes (base : String) : List String :=
  base :: (List.range s.entries.length).map fun i => base ++ toString (i + 2)

/-- `AddNewPrefix`: the prefix that was made up, if one was needed. -/
def addNewPrefix (ns : String) (isAttr : Bool) (s : XmlnsStack) : Option String × XmlnsStack :=
  if (s.prefixForNs ns isAttr).isSome then (none, s)
  else
    let base := suggestPrefix ns
    let result := ((s.newPrefixes base).find? fun pre => (s.nsForPrefix pre).isNone).getD base
    (some result, s.addXmlns result ns)

end XmlnsStack

end Synciga
