import Synciga.Xml.Element

/-!
# What is read of an element that was built

* `hasAttr_addAttr`, `hasAttr_setAttr` — the first attribute of a name counts; setting one keeps the others
-/

namespace Synciga.XmlElement

variable (element child : XmlElement) (name name' : QName) (value : String)

/-! ### New elements -/

@[simp] theorem name_ofName : (ofName name).name = name := rfl

@[simp] theorem attr_ofName : (ofName name).attr name' = "" := rfl

@[simp] theorem hasAttr_ofName : (ofName name).hasAttr name' = false := rfl

@[simp] theorem elements_ofName : (ofName name).elements = [] := rfl

@[simp] theorem name_withDefaultNs : (withDefaultNs name).name = name := rfl

@[simp] theorem elements_withDefaultNs : (withDefaultNs name).elements = [] := rfl

@[simp] theorem hasAttr_withDefaultNs : (withDefaultNs name).hasAttr name' = decide (qnXmlns = name') := by
  simp [hasAttr, withDefaultNs]

/-! ### Attributes -/

@[simp] theorem name_addAttr : (element.addAttr name value).name = element.name := rfl

@[simp] theorem elements_addAttr : (element.addAttr name value).elements = element.elements := rfl

@[simp] theorem hasAttr_addAttr :
    (element.addAttr name value).hasAttr name' = (element.hasAttr name' || decide (name = name')) := by
  simp [hasAttr, addAttr]

theorem hasAttr_eq_isSome : element.hasAttr name = (element.attrs.find? (·.1 = name)).isSome := by
  rw [hasAttr, Bool.eq_iff_iff, List.any_eq_true, List.find?_isSome]

@[simp] theorem attr_addAttr :
    (element.addAttr name value).attr name' =
      if element.hasAttr name' then element.attr name' else if name = name' then value else "" := by
  rw [attr, hasAttr, addAttr, List.find?_append]
  rcases hfind : element.attrs.find? (·.1 = name') with _ | found
  · have hany : element.attrs.any (·.1 = name') = false := by
      rw [List.any_eq_false]
      exact List.find?_eq_none.mp hfind
    by_cases hname : name = name' <;> simp [hfind, hany, hname]
  · have hname : found.1 = name' := by simpa using List.find?_some hfind
    have hany : element.attrs.any (·.1 = name') = true :=
      List.any_eq_true.mpr ⟨found, List.mem_of_find?_eq_some hfind, decide_eq_true hname⟩
    rw [hany, if_pos rfl, attr, hfind]
    rfl

theorem find?_set_findIdx {attrs : List (QName × String)} {i : ℕ}
    (h : attrs.findIdx? (·.1 = name) = some i) :
    (attrs.set i (name, value)).find? (·.1 = name') =
      if name = name' then some (name, value) else attrs.find? (·.1 = name') := by
  induction attrs generalizing i with
  | nil => cases h
  | cons attr attrs ih =>
    rw [List.findIdx?_cons] at h
    by_cases hattr : attr.1 = name
    · simp only [hattr, decide_true, if_true, Option.some.injEq] at h
      rw [← h, List.set_cons_zero, List.find?_cons, List.find?_cons, hattr]
      by_cases hname : name = name' <;> simp [hname]
    simp only [hattr, decide_false, Bool.false_eq_true, if_false, Option.map_eq_some_iff] at h
    obtain ⟨j, hj, rfl⟩ := h
    rw [List.set_cons_succ, List.find?_cons, List.find?_cons, ih hj]
    by_cases hname : name = name'
    · have hne : attr.1 ≠ name' := hname ▸ hattr
      simp [hname, hne]
    · simp [hname]

@[simp] theorem name_setAttr : (element.setAttr name value).name = element.name := by
  rw [setAttr]
  split <;> rfl

@[simp] theorem children_setAttr : (element.setAttr name value).children = element.children := by
  rw [setAttr]
  split <;> rfl

@[simp] theorem elements_setAttr : (element.setAttr name value).elements = element.elements := by
  rw [elements, elements, children_setAttr]

theorem find?_setAttr : (element.setAttr name value).attrs.find? (·.1 = name') =
    if name = name' then some (name, value) else element.attrs.find? (·.1 = name') := by
  rw [setAttr]
  split
  · rename_i hidx
    rw [List.findIdx?_eq_none_iff] at hidx
    rw [addAttr, List.find?_append]
    by_cases hname : name = name'
    · subst hname
      have hnone : element.attrs.find? (·.1 = name) = none := by
        rw [List.find?_eq_none]
        exact fun attr hattr => by simpa using hidx attr hattr
      simp [hnone]
    · simp [hname]
  · rename_i hidx
    exact find?_set_findIdx name name' value hidx

@[simp] theorem attr_setAttr :
    (element.setAttr name value).attr name' = if name = name' then value else element.attr name' := by
  rw [attr, find?_setAttr]
  by_cases hname : name = name'
  · rw [if_pos hname, if_pos hname]
  · rw [if_neg hname, if_neg hname, attr]

@[simp] theorem hasAttr_setAttr :
    (element.setAttr name value).hasAttr name' = (decide (name = name') || element.hasAttr name') := by
  rw [hasAttr_eq_isSome, hasAttr_eq_isSome, find?_setAttr]
  by_cases hname : name = name' <;> simp [hname]

/-! ### Children -/

@[simp] theorem name_addElement : (element.addElement child).name = element.name := rfl

@[simp] theorem attr_addElement : (element.addElement child).attr name = element.attr name := rfl

@[simp] theorem hasAttr_addElement : (element.addElement child).hasAttr name = element.hasAttr name := rfl

@[simp] theorem elements_addElement : (element.addElement child).elements = element.elements ++ [child] := by
  simp [elements, addElement, XmlChild.asElement]

end Synciga.XmlElement
