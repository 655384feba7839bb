import Synciga.Internal.LinkedList
import Synciga.Internal.Runs
import Synciga.Xml.Element

/-!
# The lists of an element

An `XmlElement` (`talk/xmllite/xmlelement.cc`) keeps a pointer to the first and one to the last of its
attributes and its children. `InsertChildAfter` leaves `last_child_` alone: where the new child comes last, the
next one that is added takes its place. `AddAttr` has an assertion that there is no attribute of the name.

## Main definitions

* `LinkedElement` — an element in memory

## Main results

* `LinkedElement.intact_run` — the last pointers are right, where no child is inserted at the end
-/

namespace Synciga

/-- `XmlElement`, with the cells of its lists. -/
structure LinkedElement where
  name : QName
  attrs : LinkedList (QName × String)
  children : LinkedList XmlChild
  cdata : Bool

namespace LinkedElement

variable (e : LinkedElement)

/-- The element without its cells. -/
def toElement : XmlElement := ⟨e.name, e.attrs.toList, e.children.toList, e.cdata⟩

variable (name : QName)

/-- The first attribute of a name, and the place that holds the pointer to it. -/
def findAttr (e : LinkedElement) : Option ℕ × Option ℕ :=
  e.attrs.search (·.1 = name) e.attrs.size none e.attrs.first

/-- `XmlElement::HasAttr`. -/
def hasAttr (e : LinkedElement) : Bool := (e.findAttr name).2.isSome

/-- `XmlElement::SetAttr`. -/
def setAttr (value : String) (e : LinkedElement) : LinkedElement :=
  match (e.findAttr name).2 with
  | none => { e with attrs := e.attrs.append (name, value) }
  | some attr => { e with attrs := e.attrs.setValue attr ((e.attrs.value attr).1, value) }

/-- `XmlElement::ClearAttr`. -/
def clearAttr (e : LinkedElement) : LinkedElement :=
  match e.findAttr name with
  | (_, none) => e
  | (lastAttr, some _) => { e with attrs := (e.attrs.removeAfter lastAttr).getD e.attrs }

/-- `AddAttr`. The assertion does nothing in a release. -/
def addAttr (value : String) (e : LinkedElement) : LinkedElement :=
  { e with attrs := e.attrs.append (name, value) }

variable (text : String)

/-- `AddParsedText` and `AddText`. -/
def addText (e : LinkedElement) : LinkedElement :=
  if text = "" then e
  else match e.children.last with
    | none => { e with children := e.children.append (.text text) }
    | some last =>
      match e.children.value last with
      | .text old => { e with children := e.children.setValue last (.text (old ++ text)) }
      | .element _ => { e with children := e.children.append (.text text) }

/-- `XmlElement::AddCDATAText`. -/
def addCDATAText (e : LinkedElement) : LinkedElement :=
  { e with cdata := true }.addText text

/-- `XmlElement::ClearChildren`. -/
def clearChildren : LinkedElement := { e with children := e.children.clear }

/-- `XmlElement::ClearAttributes`. -/
def clearAttributes : LinkedElement := { e with attrs := e.attrs.clear }

/-- `XmlElement::SetBodyText`. -/
def setBodyText (e : LinkedElement) : LinkedElement :=
  if text = "" then e.clearChildren
  else match e.children.first with
    | none => e.addText text
    | some first =>
      match e.children.value first with
      | .text _ =>
        if e.children.last = some first then { e with children := e.children.setValue first (.text text) }
        else e.clearChildren.addText text
      | .element _ => e.clearChildren.addText text

/-- `XmlElement::AddElement`. -/
def addElement (child : XmlElement) (e : LinkedElement) : LinkedElement :=
  { e with children := e.children.append (.element child) }

/-- `XmlElement::InsertChildAfter`. -/
def insertChildAfter (predecessor : Option ℕ) (child : XmlChild) (e : LinkedElement) : LinkedElement :=
  { e with children := e.children.insertAfter predecessor child }

/-- `RemoveChildAfter`. There is nothing where the code would follow a null pointer. -/
def removeChildAfter (predecessor : Option ℕ) (e : LinkedElement) : Option LinkedElement :=
  (e.children.removeAfter predecessor).map fun children => { e with children }

/-- `XmlElement::ClearNamedChildren`. -/
def clearNamedChildren (e : LinkedElement) : LinkedElement :=
  let named : XmlChild → Bool := fun child => child.asElement.any (·.name = name)
  { e with children := .removeAll named e.children.size none e.children.first e.children }

/-- The copy constructor. -/
def copy (e : LinkedElement) : LinkedElement :=
  { e with attrs := e.attrs.copy, children := e.children.copy }

end LinkedElement

/-- What is done to an element. -/
inductive ElementOp
  | setAttr (name : QName) (value : String)
  | clearAttr (name : QName)
  | addAttr (name : QName) (value : String)
  | addText (text : String)
  | addCDATAText (text : String)
  | setBodyText (text : String)
  | addElement (child : XmlElement)
  | insertChildAfter (predecessor : Option ℕ) (child : XmlChild)
  | removeChildAfter (predecessor : Option ℕ)
  | clearNamedChildren (name : QName)
  | clearAttributes
  | clearChildren
  | copy

namespace LinkedElement

/-- A child that is given as the predecessor is a child of the element. -/
def IsPlace (predecessor : Option ℕ) (e : LinkedElement) : Prop :=
  ∀ a, predecessor = some a → a ∈ e.children.cells

instance (predecessor : Option ℕ) (e : LinkedElement) : Decidable (e.IsPlace predecessor) :=
  match predecessor with
  | none => .isTrue fun _ h => by cases h
  | some a => decidable_of_iff (a ∈ e.children.cells)
    ⟨fun h _ heq => Option.some.inj heq ▸ h, fun h => h a rfl⟩

variable (e : LinkedElement)

/-- Something is done to an element, if it is possible. -/
def step : ElementOp → Option LinkedElement
  | .setAttr name value => some (e.setAttr name value)
  | .clearAttr name => some (e.clearAttr name)
  | .addAttr name value => some (e.addAttr name value)
  | .addText text => some (e.addText text)
  | .addCDATAText text => some (e.addCDATAText text)
  | .setBodyText text => some (e.setBodyText text)
  | .addElement child => some (e.addElement child)
  | .insertChildAfter predecessor child =>
    if e.IsPlace predecessor then some (e.insertChildAfter predecessor child) else none
  | .removeChildAfter predecessor =>
    if e.IsPlace predecessor then e.removeChildAfter predecessor else none
  | .clearNamedChildren name => some (e.clearNamedChildren name)
  | .clearAttributes => some e.clearAttributes
  | .clearChildren => some e.clearChildren
  | .copy => some e.copy

/-- `XmlElement(name)`, in a memory that holds anything. -/
def create (name : QName) (attrs : ℕ → QName × String) (children : ℕ → XmlChild)
    (attrLinks childLinks : ℕ → Option ℕ) : LinkedElement :=
  ⟨name, ⟨attrs, attrLinks, none, none, 0⟩, ⟨children, childLinks, none, none, 0⟩, false⟩

/-- The names of the attributes. -/
def attrNames : List QName := e.attrs.toList.map Prod.fst

/-- The last pointers point to the last cells that are reached from the first ones, and are null if
there are none; and no name is there twice. -/
structure Intact (e : LinkedElement) : Prop where
  attrs : ∃ l, e.attrs.Sound l
  children : ∃ l, e.children.Sound l
  names : e.attrNames.Nodup

/-- The child that is inserted does not come last, and the assertion holds. -/
def Allows : ElementOp → Prop
  | .insertChildAfter predecessor _ => e.children.after predecessor ≠ none
  | .addAttr name _ => e.hasAttr name = false
  | _ => True

variable {e e' : LinkedElement} {name : QName} {value text : String} {l : List ℕ}

/-! ### Attributes -/

theorem findAttr_cases (h : e.attrs.Sound l) (name : QName) :
    (e.findAttr name = (l.getLast?, none) ∧ name ∉ e.attrNames) ∨
      ∃ before attr after, l = before ++ attr :: after ∧ (e.attrs.value attr).1 = name ∧
        (∀ b ∈ before, (e.attrs.value b).1 ≠ name) ∧ e.findAttr name = (before.getLast?, some attr) := by
  rcases LinkedList.search_spec [] (fun attr : QName × String => attr.1 = name) h.links
    h.toLinked.length_le with ⟨hsearch, hall⟩ | ⟨before, attr, after, hl, hbefore, hattr, hsearch⟩
  · refine .inl ⟨hsearch, fun hmem => ?_⟩
    rw [attrNames, h.toList_eq] at hmem
    obtain ⟨_, hx, hname⟩ := List.mem_map.mp hmem
    obtain ⟨b, hb, rfl⟩ := List.mem_map.mp hx
    exact of_decide_eq_false (hall b hb) hname
  · exact .inr ⟨before, attr, after, hl, of_decide_eq_true hattr,
      fun b hb => of_decide_eq_false (hbefore b hb), hsearch⟩

theorem hasAttr_eq_false_iff (h : e.attrs.Sound l) : e.hasAttr name = false ↔ name ∉ e.attrNames := by
  rw [hasAttr]
  rcases findAttr_cases h name with ⟨hfind, hnew⟩ | ⟨before, attr, after, rfl, hattr, -, hfind⟩
  · rw [hfind]
    exact iff_of_true rfl hnew
  · have hmem : name ∈ e.attrNames := by
      rw [attrNames, h.toList_eq, ← hattr]
      exact List.mem_map_of_mem (List.mem_map_of_mem (List.mem_append_right _ List.mem_cons_self))
    rw [hfind]
    exact iff_of_false Bool.true_eq_false.mp (not_not.mpr hmem)

theorem attrNames_append (h : e.attrs.Sound l) (attr : QName × String) :
    { e with attrs := e.attrs.append attr }.attrNames = e.attrNames ++ [attr.1] := by
  rw [attrNames, h.toList_append, List.map_append]
  rfl

theorem Intact.append (h : e.Intact) (hnew : name ∉ e.attrNames) (value : String) :
    { e with attrs := e.attrs.append (name, value) }.Intact := by
  obtain ⟨l, hl⟩ := h.attrs
  refine ⟨⟨_, hl.append _⟩, h.children, ?_⟩
  rw [attrNames_append hl]
  refine List.nodup_append.mpr ⟨h.names, List.nodup_singleton _, ?_⟩
  rintro b hb c hc rfl
  obtain rfl := List.mem_singleton.mp hc
  exact hnew hb

theorem Intact.setAttr (h : e.Intact) (name : QName) (value : String) : (e.setAttr name value).Intact := by
  obtain ⟨l, hl⟩ := h.attrs
  rw [LinkedElement.setAttr]
  rcases findAttr_cases hl name with ⟨hfind, hnew⟩ | ⟨before, attr, after, rfl, hattr, -, hfind⟩
  · rw [hfind]
    exact h.append hnew value
  rw [hfind]
  refine ⟨⟨_, hl.setValue _ _⟩, h.children, ?_⟩
  have hnames := h.names
  rw [attrNames, hl.toList_eq, List.map_append, List.map_cons, List.map_append, List.map_cons] at hnames
  rw [attrNames, hl.toList_setValue, List.map_append, List.map_cons]
  exact hnames

theorem Intact.clearAttr (h : e.Intact) (name : QName) : (e.clearAttr name).Intact := by
  obtain ⟨l, hl⟩ := h.attrs
  rw [LinkedElement.clearAttr]
  rcases findAttr_cases hl name with ⟨hfind, -⟩ | ⟨before, attr, after, rfl, -, -, hfind⟩
  · rw [hfind]
    exact h
  obtain ⟨attrs, hremove, hsound, hvalue, -⟩ := hl.removeAfter
  rw [hfind]
  dsimp only
  rw [hremove, Option.getD_some]
  refine ⟨⟨_, hsound⟩, h.children, ?_⟩
  have hnames := h.names
  rw [attrNames, hl.toList_eq] at hnames
  rw [attrNames, hsound.toList_eq, hvalue]
  exact hnames.sublist ((((List.sublist_cons_self attr after).append_left before).map _).map _)

theorem Intact.clearAttributes (h : e.Intact) : e.clearAttributes.Intact := by
  have hclear := LinkedList.Sound.clear e.attrs
  refine ⟨⟨[], hclear⟩, h.children, ?_⟩
  have hnames : e.clearAttributes.attrNames = [] := congrArg (List.map Prod.fst) hclear.toList_eq
  rw [hnames]
  exact List.nodup_nil

/-! ### Children -/

theorem Intact.append_child (h : e.Intact) (child : XmlChild) :
    { e with children := e.children.append child }.Intact := by
  obtain ⟨l, hl⟩ := h.children
  exact ⟨h.attrs, ⟨_, hl.append child⟩, h.names⟩

theorem Intact.setValue (h : e.Intact) (a : ℕ) (child : XmlChild) :
    { e with children := e.children.setValue a child }.Intact := by
  obtain ⟨l, hl⟩ := h.children
  exact ⟨h.attrs, ⟨l, hl.setValue a child⟩, h.names⟩

theorem Intact.addText (h : e.Intact) (text : String) : (e.addText text).Intact := by
  rw [LinkedElement.addText]
  split
  · exact h
  · split
    · exact h.append_child _
    · split
      · exact h.setValue _ _
      · exact h.append_child _

theorem Intact.clearChildren (h : e.Intact) : e.clearChildren.Intact :=
  ⟨h.attrs, ⟨[], .clear _⟩, h.names⟩

theorem Intact.setBodyText (h : e.Intact) (text : String) : (e.setBodyText text).Intact := by
  rw [LinkedElement.setBodyText]
  split
  · exact h.clearChildren
  split
  · exact h.addText text
  · split
    · split
      · exact h.setValue _ _
      · exact h.clearChildren.addText text
    · exact h.clearChildren.addText text

variable {predecessor : Option ℕ}

theorem exists_place (h : e.children.Sound l) (hplace : e.IsPlace predecessor) :
    ∃ before after, l = before ++ after ∧ predecessor = before.getLast? := by
  cases predecessor with
  | none => exact ⟨[], l, rfl, rfl⟩
  | some a =>
    have hmem := hplace a rfl
    rw [h.cells_eq] at hmem
    obtain ⟨before, after, rfl⟩ := List.append_of_mem hmem
    exact ⟨before ++ [a], after, List.append_cons .., List.getLast?_concat.symm⟩

theorem Intact.insertChildAfter_iff (h : e.Intact) (hplace : e.IsPlace predecessor) (child : XmlChild) :
    (e.insertChildAfter predecessor child).Intact ↔ e.children.after predecessor ≠ none := by
  obtain ⟨l, hl⟩ := h.children
  obtain ⟨before, after, rfl, rfl⟩ := exists_place hl hplace
  have hiff := hl.insertAfter_iff child
  rw [hl.after_eq, ne_eq, List.head?_eq_none_iff]
  constructor
  · rintro ⟨-, ⟨l', hl'⟩, -⟩
    have heq := hl'.cells_eq.symm.trans (hl.insertAfter child).cells_eq
    exact hiff.mp (heq ▸ hl')
  · exact fun hrest => ⟨h.attrs, ⟨_, hiff.mpr hrest⟩, h.names⟩

theorem Intact.removeChildAfter (h : e.Intact) (hplace : e.IsPlace predecessor)
    (hremove : e.removeChildAfter predecessor = some e') : e'.Intact := by
  obtain ⟨l, hl⟩ := h.children
  obtain ⟨before, after, rfl, rfl⟩ := exists_place hl hplace
  obtain ⟨children, hchildren, rfl⟩ := Option.map_eq_some_iff.mp hremove
  cases after with
  | nil =>
    rw [LinkedList.removeAfter, hl.after_eq] at hchildren
    cases hchildren
  | cons a after =>
    obtain ⟨_, hremoved, hsound, -⟩ := hl.removeAfter
    cases hchildren.symm.trans hremoved
    exact ⟨h.attrs, ⟨_, hsound⟩, h.names⟩

theorem Intact.clearNamedChildren (h : e.Intact) (name : QName) : (e.clearNamedChildren name).Intact := by
  obtain ⟨l, hl⟩ := h.children
  rw [LinkedElement.clearNamedChildren, hl.links.head]
  have hall : e.children.Sound ([] ++ l) := hl
  exact ⟨h.attrs, ⟨_, (hall.removeAll _ hl.length_le).1⟩, h.names⟩

theorem Intact.copy (h : e.Intact) : e.copy.Intact := by
  obtain ⟨l, hl⟩ := h.attrs
  obtain ⟨m, hm⟩ := h.children
  obtain ⟨l', hl', hattrs⟩ := hl.copy
  obtain ⟨m', hm', -⟩ := hm.copy
  refine ⟨⟨l', hl'⟩, ⟨m', hm'⟩, ?_⟩
  have hnames : e.copy.attrNames = e.attrNames := congrArg (List.map Prod.fst) hattrs
  rw [hnames]
  exact h.names

/-! ### Runs -/

theorem intact_create (name : QName) (attrs : ℕ → QName × String) (children : ℕ → XmlChild)
    (attrLinks childLinks : ℕ → Option ℕ) : (create name attrs children attrLinks childLinks).Intact where
  attrs := ⟨[], ⟨rfl, List.nodup_nil, List.forall_mem_nil _⟩, rfl⟩
  children := ⟨[], ⟨rfl, List.nodup_nil, List.forall_mem_nil _⟩, rfl⟩
  names := List.nodup_nil

theorem Intact.step (h : e.Intact) {op : ElementOp} (hallows : e.Allows op) (hstep : e.step op = some e') :
    e'.Intact := by
  cases op with
  | setAttr name value =>
    cases hstep
    exact h.setAttr name value
  | clearAttr name =>
    cases hstep
    exact h.clearAttr name
  | addAttr name value =>
    cases hstep
    obtain ⟨l, hl⟩ := h.attrs
    exact h.append ((hasAttr_eq_false_iff hl).mp hallows) value
  | addText text =>
    cases hstep
    exact h.addText text
  | addCDATAText text =>
    cases hstep
    exact Intact.addText (e := { e with cdata := true }) ⟨h.attrs, h.children, h.names⟩ text
  | setBodyText text =>
    cases hstep
    exact h.setBodyText text
  | addElement child =>
    cases hstep
    exact h.append_child _
  | insertChildAfter predecessor child =>
    obtain ⟨hplace, hinsert⟩ := Option.ite_none_right_eq_some.mp hstep
    cases hinsert
    exact (h.insertChildAfter_iff hplace child).mpr hallows
  | removeChildAfter predecessor =>
    obtain ⟨hplace, hremove⟩ := Option.ite_none_right_eq_some.mp hstep
    exact h.removeChildAfter hplace hremove
  | clearNamedChildren name =>
    cases hstep
    exact h.clearNamedChildren name
  | clearAttributes =>
    cases hstep
    exact h.clearAttributes
  | clearChildren =>
    cases hstep
    exact h.clearChildren
  | copy =>
    cases hstep
    exact h.copy

theorem Intact.toElement_addElement (h : e.Intact) (child : XmlElement) :
    (e.addElement child).toElement = e.toElement.addElement child := by
  obtain ⟨l, hl⟩ := h.children
  simp only [toElement, addElement, XmlElement.addElement, hl.toList_append]

theorem Intact.toElement_addText (h : e.Intact) (text : String) :
    (e.addText text).toElement = e.toElement.addParsedText text := by
  obtain ⟨l, hl⟩ := h.children
  rw [LinkedElement.addText, XmlElement.addParsedText]
  split
  · rfl
  next =>
    have htoList : e.toElement.children = l.map e.children.value := hl.toList_eq
    have hlast : e.toElement.children.getLast? = l.getLast?.map e.children.value := by
      rw [htoList, List.getLast?_map]
    rw [hl.last, hlast]
    cases hcell : l.getLast? with
    | none => simp only [toElement, Option.map_none, hl.toList_append]
    | some last =>
      dsimp only [Option.map_some]
      cases hvalue : e.children.value last with
      | element child => simp only [toElement, hl.toList_append]
      | text old =>
        obtain ⟨front, rfl⟩ := List.getLast?_eq_some_iff.mp hcell
        have hset := hl.toList_setValue (.text (old ++ text))
        simp only [toElement, hset, hl.toList_eq, List.map_append, List.map_cons, List.map_nil,
          List.dropLast_concat]

/-- **An element keeps its children.** Where every child that is inserted has one behind it, and no name is
added twice, the last pointers are right and no name is there twice in every state of a run. What is added comes
behind all that is there. -/
theorem intact_run (name : QName) (attrs : ℕ → QName × String) (children : ℕ → XmlChild)
    (attrLinks childLinks : ℕ → Option ℕ) (ops : List ElementOp) (e : LinkedElement)
    (hops : Runs.Admissible step Allows (create name attrs children attrLinks childLinks) ops)
    (hrun : Runs.run step (create name attrs children attrLinks childLinks) ops = some e) :
    e.Intact ∧ (∀ child, (e.addElement child).toElement = e.toElement.addElement child) ∧
      ∀ text, (e.addText text).toElement = e.toElement.addParsedText text := by
  have h : e.Intact := Runs.invariant (P := Intact) (fun _ _ _ h hallows hstep => h.step hallows hstep)
    (intact_create name attrs children attrLinks childLinks) hops hrun
  exact ⟨h, h.toElement_addElement, h.toElement_addText⟩

/-- An element without attributes and children. -/
def blank : LinkedElement :=
  create ⟨"", "a"⟩ (fun _ => (⟨"", ""⟩, "")) (fun _ => .text "") (fun _ => none) fun _ => none

/-- A text is inserted in front of an element, and taken out again. -/
theorem intact_run_insert : ∃ e,
    Runs.run step blank [.addElement (.ofName ⟨"", "c"⟩), .insertChildAfter none (.text "b"),
        .removeChildAfter none] = some e ∧ e.Intact := by
  have hrun : Runs.run step blank [.addElement (.ofName ⟨"", "c"⟩), .insertChildAfter none (.text "b"),
      .removeChildAfter none] = some _ := rfl
  have hops : Runs.Admissible step Allows blank [.addElement (.ofName ⟨"", "c"⟩),
      .insertChildAfter none (.text "b"), .removeChildAfter none] := by
    refine ⟨trivial, fun e he => ?_⟩
    cases he
    exact ⟨Option.some_ne_none 0, fun e he => ⟨trivial, fun e he => trivial⟩⟩
  exact ⟨_, hrun, (intact_run _ _ _ _ _ _ _ hops hrun).1⟩

/-- A text that is inserted into an empty element is not the last child by the pointer, and it is lost when
an element is added. -/
theorem not_intact_insert : ∃ e, Runs.run step blank [.insertChildAfter none (.text "b")] = some e ∧
    ¬e.Intact ∧ e.toElement.children = [.text "b"] ∧
    (e.addElement (.ofName ⟨"", "c"⟩)).toElement.children = [.element (.ofName ⟨"", "c"⟩)] := by
  refine ⟨_, rfl, fun h => ?_, rfl, rfl⟩
  obtain ⟨l, hl⟩ := h.children
  have hcells : l = [0] := hl.cells_eq.symm
  have hlast := hl.last
  rw [hcells] at hlast
  cases hlast

end LinkedElement

end Synciga
