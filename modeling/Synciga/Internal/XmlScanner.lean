import Mathlib.Data.List.Basic

/-!
# A scanner for XML

The part of XML 1.0 that has elements, attributes, character data and the five predefined references, as a
machine that takes a document character by character. It fails on the rest, on documents that are not well
formed, and on carriage returns, since it does not normalize ends of lines.

## Main definitions

* `State`, `step`, `finish` — the machine
* `feed` — what it tells of a piece of a document

## Main results

* `feed_append` — pieces together
-/

namespace XmlScanner

/-- What is read. -/
inductive Token
  | start (name : List Char) (atts : List (List Char × List Char))
  | finish (name : List Char)
  | char (c : Char)
  deriving DecidableEq, Repr

variable (c : Char)

/-- `S`. -/
def isSpace : Bool := c = ' ' || c = '\t' || c = '\n'

/-- Whether a code point is in one of these ranges. -/
def inRanges (ranges : List (Nat × Nat)) (c : Char) : Bool :=
  ranges.any fun r => r.1 ≤ c.toNat && c.toNat ≤ r.2

/-- `NameStartChar`. -/
def isNameStart : Bool :=
  inRanges [(0x3A, 0x3A), (0x41, 0x5A), (0x5F, 0x5F), (0x61, 0x7A), (0xC0, 0xD6), (0xD8, 0xF6),
    (0xF8, 0x2FF), (0x370, 0x37D), (0x37F, 0x1FFF), (0x200C, 0x200D), (0x2070, 0x218F), (0x2C00, 0x2FEF),
    (0x3001, 0xD7FF), (0xF900, 0xFDCF), (0xFDF0, 0xFFFD), (0x10000, 0xEFFFF)] c

/-- `NameChar`. -/
def isName : Bool :=
  isNameStart c || inRanges [(0x2D, 0x2E), (0x30, 0x39), (0xB7, 0xB7), (0x300, 0x36F), (0x203F, 0x2040)] c

/-- `Char`, without the carriage return. -/
def isChar : Bool :=
  inRanges [(0x9, 0xA), (0x20, 0xD7FF), (0xE000, 0xFFFD), (0x10000, 0x10FFFF)] c

/-- What a reference stands for. -/
def reference (name : List Char) : Option Char :=
  if name = ['l', 't'] then some '<'
  else if name = ['g', 't'] then some '>'
  else if name = ['a', 'm', 'p'] then some '&'
  else if name = ['q', 'u', 'o', 't'] then some '"'
  else if name = ['a', 'p', 'o', 's'] then some '\''
  else none

/-- Where the machine is. -/
inductive Mode
  /-- Between tags. -/
  | content
  /-- In a reference between tags. -/
  | reference (ref : List Char)
  /-- Behind `<`. -/
  | tag
  | openName (name : List Char)
  /-- Behind white space in a start tag. -/
  | inTag (name : List Char) (atts : List (List Char × List Char))
  | attName (name : List Char) (atts : List (List Char × List Char)) (att : List Char)
  /-- Behind `=`. -/
  | attEq (name : List Char) (atts : List (List Char × List Char)) (att : List Char)
  | attValue (name : List Char) (atts : List (List Char × List Char)) (att : List Char) (quote : Char)
      (value : List Char)
  /-- In a reference in a value. -/
  | attRef (name : List Char) (atts : List (List Char × List Char)) (att : List Char) (quote : Char)
      (value ref : List Char)
  /-- Behind the closing quote. -/
  | afterValue (name : List Char) (atts : List (List Char × List Char))
  /-- Behind the slash of an empty-element tag. -/
  | emptyTag (name : List Char) (atts : List (List Char × List Char))
  /-- In the name of an end tag. -/
  | closeName (name : List Char)
  | failed
  deriving DecidableEq, Repr

/-- The state: where it is, the elements that are open, the innermost first, and whether there was a
root. -/
structure State where
  mode : Mode
  opened : List (List Char)
  rootSeen : Bool
  deriving DecidableEq, Repr

namespace State

/-- The beginning of a document. -/
def init : State := ⟨.content, [], false⟩

variable (s : State)

/-- The document is complete. -/
def IsFinal : Prop := s.mode = .content ∧ s.opened = [] ∧ s.rootSeen = true

instance (s : State) : Decidable s.IsFinal := inferInstanceAs (Decidable (_ ∧ _))

/-- The machine goes on in a mode. -/
def goto (mode : Mode) : State × List Token := ({ s with mode }, [])

/-- A start tag is complete. There is only one root. -/
def start (s : State) (name : List Char) (atts : List (List Char × List Char)) : State × List Token :=
  if s.opened = [] ∧ s.rootSeen then s.goto .failed
  else (⟨.content, name :: s.opened, true⟩, [.start name atts])

/-- An empty-element tag is complete. -/
def empty (name : List Char) (atts : List (List Char × List Char)) : State × List Token :=
  if s.opened = [] ∧ s.rootSeen then s.goto .failed
  else (⟨.content, s.opened, true⟩, [.start name atts, .finish name])

/-- An end tag is complete. -/
def finish (s : State) (name : List Char) : State × List Token :=
  match s.opened with
  | [] => s.goto .failed
  | current :: rest =>
    if current = name then (⟨.content, rest, s.rootSeen⟩, [.finish name]) else s.goto .failed

/-- A start tag goes on behind its name or behind a value. -/
def tagRest (name : List Char) (atts : List (List Char × List Char)) (c : Char) :
    State × List Token :=
  if isSpace c then s.goto (.inTag name atts)
  else if c = '/' then s.goto (.emptyTag name atts)
  else if c = '>' then s.start name atts
  else s.goto .failed

/-- One character. -/
def step (c : Char) : State × List Token :=
  match s.mode with
  | .content =>
    if c = '<' then s.goto .tag
    else if s.opened = [] then if isSpace c then s.goto .content else s.goto .failed
    else if c = '&' then s.goto (.reference [])
    -- a greater-than sign is not taken, so that `]]>` needs no attention
    else if c = '>' then s.goto .failed
    else if isChar c then (s, [.char c])
    else s.goto .failed
  | .reference ref =>
    if c = ';' then
      match XmlScanner.reference ref with
      | some d => ({ s with mode := .content }, [.char d])
      | none => s.goto .failed
    else if isName c then s.goto (.reference (ref ++ [c]))
    else s.goto .failed
  | .tag =>
    if c = '/' then s.goto (.closeName [])
    else if isNameStart c then s.goto (.openName [c])
    else s.goto .failed
  | .openName name =>
    if isName c then s.goto (.openName (name ++ [c])) else s.tagRest name [] c
  | .inTag name atts =>
    if isNameStart c then s.goto (.attName name atts [c]) else s.tagRest name atts c
  | .attName name atts att =>
    if c = '=' then s.goto (.attEq name atts att)
    else if isName c then s.goto (.attName name atts (att ++ [c]))
    else s.goto .failed
  | .attEq name atts att =>
    if c = '"' ∨ c = '\'' then s.goto (.attValue name atts att c []) else s.goto .failed
  | .attValue name atts att quote value =>
    if c = quote then
      -- no attribute may appear twice
      if atts.any (·.1 = att) then s.goto .failed else s.goto (.afterValue name (atts ++ [(att, value)]))
    else if c = '<' then s.goto .failed
    else if c = '&' then s.goto (.attRef name atts att quote value [])
    else if isChar c then s.goto (.attValue name atts att quote (value ++ [if isSpace c then ' ' else c]))
    else s.goto .failed
  | .attRef name atts att quote value ref =>
    if c = ';' then
      match XmlScanner.reference ref with
      | some d => s.goto (.attValue name atts att quote (value ++ [d]))
      | none => s.goto .failed
    else if isName c then s.goto (.attRef name atts att quote value (ref ++ [c]))
    else s.goto .failed
  | .afterValue name atts => s.tagRest name atts c
  | .emptyTag name atts => if c = '>' then s.empty name atts else s.goto .failed
  | .closeName name =>
    if c = '>' then s.finish name
    else if name = [] then if isNameStart c then s.goto (.closeName [c]) else s.goto .failed
    else if isName c then s.goto (.closeName (name ++ [c]))
    else s.goto .failed
  | .failed => (s, [])

/-- A part of a document. -/
def feed : State → List Char → State × List Token
  | s, [] => (s, [])
  | s, c :: cs => ((feed (s.step c).1 cs).1, (s.step c).2 ++ (feed (s.step c).1 cs).2)

theorem feed_append (cs ds : List Char) :
    s.feed (cs ++ ds) = (((s.feed cs).1.feed ds).1, (s.feed cs).2 ++ ((s.feed cs).1.feed ds).2) := by
  induction cs generalizing s with
  | nil => rfl
  | cons c cs ih =>
    rw [List.cons_append, feed, ih, feed, List.append_assoc]

end State

end XmlScanner
