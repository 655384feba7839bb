import Mathlib.Data.FinEnum

/-!
# `buzz::Jid`

An address of XMPP (`talk/xmpp/jid.cc`) has a node, a domain and a resource. A string is cut at the first slash
and at the first at-sign before it, and each part is prepared by a loop over its bytes, which maps or refuses
characters; for the resource a character that is refused is kept, as a zero. If a part is refused, all three are
cleared.

## Main definitions

* `Jid.ofString`, `Jid.ofParts`, `Jid.str` — an address and its text
-/

namespace Synciga

/-! ### Characters -/

variable (ch : UInt8)

/-- `tolower`, in the C locale. -/
def tolower : UInt8 := if 0x41 ≤ ch ∧ ch ≤ 0x5A then ch + 0x20 else ch

/-- `PrepNodeAscii`: the character, and whether it is valid. -/
def prepNodeAscii : UInt8 × Bool :=
  if 0x41 ≤ ch ∧ ch ≤ 0x5A then (ch + 0x20, true)
  else if ch ≤ 0x17 ∨ ch ∈ [0x20, 0x26, 0x2F, 0x3A, 0x3C, 0x3E, 0x40, 0x22, 0x27, 0x7F] then (0, false)
  else (ch, true)

/-- `PrepResourceAscii`. -/
def prepResourceAscii : UInt8 × Bool :=
  if ch ≤ 0x17 ∨ ch = 0x7F then (0, false) else (ch, true)

/-- `PrepDomainLabelAscii`. -/
def prepDomainLabelAscii : UInt8 × Bool :=
  if 0x41 ≤ ch ∧ ch ≤ 0x5A then (ch + 0x20, true)
  else if ch ≤ 0x2C ∨ ch = 0x2E ∨ ch = 0x2F ∨ (0x3A ≤ ch ∧ ch ≤ 0x40) ∨ (0x5B ≤ ch ∧ ch ≤ 0x60) ∨
      (0x7B ≤ ch ∧ ch ≤ 0x7F) then (0, false)
  else (ch, true)

/-- One round of the loop of `PrepNode`. -/
def prepNodeChar : UInt8 × Bool :=
  if ch ≤ 0x7F then prepNodeAscii ch else (tolower ch, true)

/-- One round of the loop of `PrepResource`. -/
def prepResourceChar : UInt8 × Bool :=
  if ch ≤ 0x7F then prepResourceAscii ch else (ch, true)

/-- One round of the loop of `PrepDomainLabel`. -/
def prepDomainLabelChar : UInt8 × Bool :=
  if ch ≤ 0x7F then prepDomainLabelAscii ch else (ch, true)

/-! ### Parts -/

/-- The loop of `PrepNode` and of `PrepDomainLabel`: it ends at a character that is not valid. -/
def prepChars (prep : UInt8 → UInt8 × Bool) : List UInt8 → Option (List UInt8)
  | [] => some []
  | ch :: rest => if (prep ch).2 = false then none else (prepChars prep rest).map ((prep ch).1 :: ·)

/-- `PrepNode`. -/
def prepNode (node : List UInt8) : Option (List UInt8) :=
  (prepChars prepNodeChar node).bind fun result => if 1023 < result.length then none else some result

/-- `PrepResource`. The loop does not look at the validity of the characters. -/
def prepResource (resource : List UInt8) : Option (List UInt8) :=
  let result := resource.map fun ch => (prepResourceChar ch).1
  if 1023 < result.length then none else some result

/-- `PrepDomainLabel`: the label, if it is valid. -/
def prepDomainLabel (label : List UInt8) : Option (List UInt8) :=
  (prepChars prepDomainLabelChar label).bind fun buf =>
    if buf.length = 0 then none
    else if 63 < buf.length then none
    else if buf.head? = some 0x2D then none
    else if buf.getLast? = some 0x2D then none
    else some buf

/-- `PrepDomain` with a buffer: the loop, with the label that it has passed. -/
def prepDomainFrom (label : List UInt8) : List UInt8 → Option (List UInt8)
  | [] => prepDomainLabel label
  | ch :: rest =>
    if ch = 0x2E then do
      let buf ← prepDomainLabel label
      let rest ← prepDomainFrom [] rest
      some (buf ++ 0x2E :: rest)
    else prepDomainFrom (label ++ [ch]) rest

/-- `PrepDomain`. A result that is too long is replaced by nothing, and is valid nevertheless. -/
def prepDomain (domain : List UInt8) : Option (List UInt8) :=
  (prepDomainFrom [] domain).map fun result => if 1023 < result.length then [] else result

/-! ### Addresses -/

/-- The class `Jid`. -/
structure Jid where
  node : List UInt8
  domain : List UInt8
  resource : List UInt8
  deriving DecidableEq, Repr

namespace Jid

/-- The empty address. -/
def empty : Jid := ⟨[], [], []⟩

/-- `Jid(node_name, domain_name, resource_name)`, which is `ValidateOrReset`. -/
def ofParts (node domain resource : List UInt8) : Jid :=
  match prepNode node, prepDomain domain, prepResource resource with
  | some node, some domain, some resource => ⟨node, domain, resource⟩
  | _, _, _ => empty

/-- The parts of a string: the resource behind the first slash, the node before the first at-sign
that comes before it, and the domain between them. -/
def split (s : List UInt8) : List UInt8 × List UInt8 × List UInt8 :=
  let slash := s.findIdx? (· = 0x2F)
  let resource := match slash with
    | none => []
    | some slash => s.drop (slash + 1)
  let atSign := (s.findIdx? (· = 0x40)).filter fun i => match slash with
    | none => true
    | some slash => i < slash
  let node := match atSign with
    | none => []
    | some i => s.take i
  let domainBegin := match atSign with
    | none => 0
    | some i => i + 1
  let domainLength := match slash with
    | none => s.length - domainBegin
    | some slash => slash - domainBegin
  (node, (s.drop domainBegin).take domainLength, resource)

/-- `Jid(jid_string)`. -/
def ofString (s : List UInt8) : Jid :=
  if s = [] then empty else ofParts (split s).1 (split s).2.1 (split s).2.2

variable (j : Jid)

/-- `IsValid`. -/
def isValid : Bool := j.domain ≠ []

/-- `IsFull`. -/
def isFull : Bool := j.isValid ∧ j.resource ≠ []

/-- `Str`. -/
def str : List UInt8 :=
  if j.isValid then
    (if j.node = [] then [] else j.node ++ [0x40]) ++ j.domain ++
      (if j.resource = [] then [] else 0x2F :: j.resource)
  else []

end Jid

end Synciga
