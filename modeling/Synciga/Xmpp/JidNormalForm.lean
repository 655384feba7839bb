import Synciga.Xmpp.Jid

/-!
# The normal form of a `Jid`

An address should be empty or have parts that are as they should be. The exceptions are a byte outside ASCII in
the domain, a character from `0x18` to `0x1F` in the node, a control character in the resource, and a domain of
more than 1023 bytes beside a node or a resource.

## Main definitions

* `SoundString` — a string with none of these

## Main results

* `Jid.normal_iff_soundString` — exactly these have a normal form
-/

namespace Synciga

/-! ### Characters -/

variable (ch : UInt8)

/-- A control character. -/
def IsControl : Prop := ch < 0x20 ∨ ch = 0x7F

instance (ch : UInt8) : Decidable (IsControl ch) := inferInstanceAs (Decidable (_ ∨ _))

/-- A character that a node must not have: space, quotes, ampersand, apostrophe, slash, colon, angle
brackets, at-sign, or a control character. -/
def Forbidden : Prop :=
  ch ∈ [0x20, 0x22, 0x26, 0x27, 0x2F, 0x3A, 0x3C, 0x3E, 0x40] ∨ IsControl ch

instance (ch : UInt8) : Decidable (Forbidden ch) := inferInstanceAs (Decidable (_ ∨ _))

/-- A lower-case letter, a digit or a hyphen. -/
def LabelChar : Prop :=
  (0x61 ≤ ch ∧ ch ≤ 0x7A) ∨ (0x30 ≤ ch ∧ ch ≤ 0x39) ∨ ch = 0x2D

instance (ch : UInt8) : Decidable (LabelChar ch) := inferInstanceAs (Decidable (_ ∨ _))

/-- A character that a label may have before it is prepared: a letter, a digit, a hyphen, or a byte
that is not in ASCII. -/
def AcceptedChar : Prop := LabelChar ch ∨ (0x41 ≤ ch ∧ ch ≤ 0x5A) ∨ 0x7F < ch

instance (ch : UInt8) : Decidable (AcceptedChar ch) := inferInstanceAs (Decidable (_ ∨ _))

theorem prepNodeChar_snd : (prepNodeChar ch).2 = true ↔ ¬(Forbidden ch ∧ ¬(0x18 ≤ ch ∧ ch ≤ 0x1F)) := by
  revert ch
  decide +kernel

theorem prepNodeChar_fst : (prepNodeChar ch).2 = true → prepNodeChar (prepNodeChar ch).1 = prepNodeChar ch ∧
      (prepNodeChar ch).1 ≠ 0x40 ∧ (prepNodeChar ch).1 ≠ 0x2F ∧
      (Forbidden (prepNodeChar ch).1 ↔ 0x18 ≤ ch ∧ ch ≤ 0x1F) := by
  revert ch
  decide +kernel

theorem prepDomainLabelChar_snd : ((prepDomainLabelChar ch).2 = true ↔ AcceptedChar ch) ∧
      ((prepDomainLabelChar ch).1 = 0x2D ↔ ch = 0x2D) := by
  revert ch
  decide +kernel

theorem prepDomainLabelChar_fst : (prepDomainLabelChar ch).2 = true →
      prepDomainLabelChar (prepDomainLabelChar ch).1 = prepDomainLabelChar ch ∧
      (prepDomainLabelChar ch).1 ≠ 0x40 ∧ (prepDomainLabelChar ch).1 ≠ 0x2F ∧
      (prepDomainLabelChar ch).1 ≠ 0x2E ∧ (LabelChar (prepDomainLabelChar ch).1 ↔ ch ≤ 0x7F) := by
  revert ch
  decide +kernel

theorem prepResourceChar_fst : (prepResourceChar (prepResourceChar ch).1).1 = (prepResourceChar ch).1 ∧
      (IsControl (prepResourceChar ch).1 ↔ IsControl ch) := by
  revert ch
  decide +kernel

/-! ### Parts -/

section prepChars

variable {prep : UInt8 → UInt8 × Bool} {l r : List UInt8}

theorem prepChars_eq_some_iff :
    prepChars prep l = some r ↔ (∀ ch ∈ l, (prep ch).2 = true) ∧ r = l.map fun ch => (prep ch).1 := by
  induction l generalizing r with
  | nil =>
    rw [prepChars, Option.some_inj]
    exact ⟨fun h => ⟨nofun, h.symm⟩, fun h => h.2.symm⟩
  | cons ch l ih =>
    rw [prepChars, List.forall_mem_cons, List.map_cons]
    by_cases hch : (prep ch).2 = false
    · rw [if_pos hch, hch]
      exact ⟨nofun, fun h => nomatch h.1.1⟩
    rw [if_neg hch, Option.map_eq_some_iff]
    constructor
    · rintro ⟨r, hr, rfl⟩
      obtain ⟨hall, rfl⟩ := ih.mp hr
      exact ⟨⟨Bool.eq_true_of_not_eq_false hch, hall⟩, rfl⟩
    · rintro ⟨⟨-, hall⟩, rfl⟩
      exact ⟨_, ih.mpr ⟨hall, rfl⟩, rfl⟩

theorem prepChars_self (hself : ∀ ch, (prep ch).2 = true → prep (prep ch).1 = prep ch)
    (h : prepChars prep l = some r) : prepChars prep r = some r := by
  obtain ⟨hall, rfl⟩ := prepChars_eq_some_iff.mp h
  refine prepChars_eq_some_iff.mpr ⟨?_, ?_⟩
  · intro ch hch
    obtain ⟨ch, hmem, rfl⟩ := List.mem_map.mp hch
    rw [hself ch (hall ch hmem)]
    exact hall ch hmem
  · rw [List.map_map]
    refine List.map_congr_left fun ch hmem => ?_
    rw [Function.comp_apply, hself ch (hall ch hmem)]

end prepChars

theorem prepNode_eq_some_iff {node r : List UInt8} :
    prepNode node = some r ↔ prepChars prepNodeChar node = some r ∧ r.length ≤ 1023 := by
  rw [prepNode, Option.bind_eq_some_iff]
  constructor
  · rintro ⟨r', hr', h⟩
    split at h
    · cases h
    next hlength =>
      cases h
      exact ⟨hr', Nat.not_lt.mp hlength⟩
  · rintro ⟨hr, hlength⟩
    exact ⟨r, hr, if_neg (Nat.not_lt.mpr hlength)⟩

theorem prepNode_self {node r : List UInt8} (h : prepNode node = some r) : prepNode r = some r := by
  obtain ⟨hr, hlength⟩ := prepNode_eq_some_iff.mp h
  exact prepNode_eq_some_iff.mpr ⟨prepChars_self (fun ch hch => (prepNodeChar_fst ch hch).1) hr, hlength⟩

theorem prepNode_eq_none_iff {node : List UInt8} : prepNode node = none ↔
      (∃ ch ∈ node, Forbidden ch ∧ ¬(0x18 ≤ ch ∧ ch ≤ 0x1F)) ∨ 1023 < node.length := by
  rw [← not_iff_not, ← ne_eq, Option.ne_none_iff_exists']
  simp only [prepNode_eq_some_iff, prepChars_eq_some_iff, prepNodeChar_snd]
  push Not
  constructor
  · rintro ⟨r, ⟨hchars, rfl⟩, hlength⟩
    rw [List.length_map] at hlength
    exact ⟨hchars, hlength⟩
  · rintro ⟨hchars, hlength⟩
    exact ⟨_, ⟨hchars, rfl⟩, by rwa [List.length_map]⟩

theorem prepResource_eq_some_iff {resource r : List UInt8} : prepResource resource = some r ↔
      (r = resource.map fun ch => (prepResourceChar ch).1) ∧ r.length ≤ 1023 := by
  rw [prepResource]
  split
  next hlength =>
    refine ⟨nofun, ?_⟩
    rintro ⟨rfl, hle⟩
    omega
  next hlength =>
    rw [Option.some_inj]
    constructor
    · rintro rfl
      exact ⟨rfl, Nat.not_lt.mp hlength⟩
    · rintro ⟨rfl, -⟩
      rfl

theorem prepResource_self {resource r : List UInt8} (h : prepResource resource = some r) :
    prepResource r = some r := by
  obtain ⟨rfl, hlength⟩ := prepResource_eq_some_iff.mp h
  refine prepResource_eq_some_iff.mpr ⟨?_, hlength⟩
  rw [List.map_map]
  exact List.map_congr_left fun ch _ => (prepResourceChar_fst ch).1.symm

theorem prepResource_eq_none_iff {resource : List UInt8} :
    prepResource resource = none ↔ 1023 < resource.length := by
  rw [prepResource, List.length_map]
  split <;> simp_all

/-! ### The domain -/

/-- A label: not empty, of at most 63 characters, with no hyphen at its ends. -/
structure ValidLabel (label : List UInt8) : Prop where
  ne_nil : label ≠ []
  length_le : label.length ≤ 63
  chars : ∀ ch ∈ label, LabelChar ch
  head : label.head? ≠ some 0x2D
  last : label.getLast? ≠ some 0x2D

/-- A label that is not refused. -/
structure AcceptedLabel (label : List UInt8) : Prop where
  ne_nil : label ≠ []
  length_le : label.length ≤ 63
  chars : ∀ ch ∈ label, AcceptedChar ch
  head : label.head? ≠ some 0x2D
  last : label.getLast? ≠ some 0x2D

theorem AcceptedLabel.dot_not_mem {label : List UInt8} (h : AcceptedLabel label) : 0x2E ∉ label :=
  fun hmem => absurd (h.chars _ hmem) (by decide)

variable {label r : List UInt8}

theorem prepDomainLabel_eq_some_iff :
    prepDomainLabel label = some r ↔ prepChars prepDomainLabelChar label = some r ∧ r ≠ [] ∧
      r.length ≤ 63 ∧ r.head? ≠ some 0x2D ∧ r.getLast? ≠ some 0x2D := by
  rw [prepDomainLabel, Option.bind_eq_some_iff]
  constructor
  · rintro ⟨buf, hbuf, h⟩
    by_cases hempty : buf.length = 0
    · rw [if_pos hempty] at h
      cases h
    rw [if_neg hempty] at h
    by_cases hlong : 63 < buf.length
    · rw [if_pos hlong] at h
      cases h
    rw [if_neg hlong] at h
    by_cases hhead : buf.head? = some 0x2D
    · rw [if_pos hhead] at h
      cases h
    rw [if_neg hhead] at h
    by_cases hlast : buf.getLast? = some 0x2D
    · rw [if_pos hlast] at h
      cases h
    rw [if_neg hlast] at h
    cases h
    exact ⟨hbuf, fun hnil => hempty (List.length_eq_zero_iff.mpr hnil), Nat.not_lt.mp hlong, hhead, hlast⟩
  · rintro ⟨hbuf, hnil, hlong, hhead, hlast⟩
    refine ⟨r, hbuf, ?_⟩
    rw [if_neg (fun hempty => hnil (List.length_eq_zero_iff.mp hempty)),
      if_neg (Nat.not_lt.mpr hlong), if_neg hhead, if_neg hlast]

theorem prepDomainLabel_self (h : prepDomainLabel label = some r) : prepDomainLabel r = some r := by
  obtain ⟨hr, hrest⟩ := prepDomainLabel_eq_some_iff.mp h
  refine prepDomainLabel_eq_some_iff.mpr ⟨?_, hrest⟩
  exact prepChars_self (fun ch hch => (prepDomainLabelChar_fst ch hch).1) hr

theorem not_mem_prepDomainLabel (h : prepDomainLabel label = some r) : 0x40 ∉ r ∧ 0x2F ∉ r ∧ 0x2E ∉ r := by
  obtain ⟨hall, rfl⟩ := prepChars_eq_some_iff.mp (prepDomainLabel_eq_some_iff.mp h).1
  refine ⟨?_, ?_, ?_⟩ <;> intro hmem <;> obtain ⟨ch, hch, heq⟩ := List.mem_map.mp hmem
  · exact (prepDomainLabelChar_fst ch (hall ch hch)).2.1 heq
  · exact (prepDomainLabelChar_fst ch (hall ch hch)).2.2.1 heq
  · exact (prepDomainLabelChar_fst ch (hall ch hch)).2.2.2.1 heq

theorem validLabel_prepDomainLabel_iff (h : prepDomainLabel label = some r) :
    ValidLabel r ↔ ∀ ch ∈ label, ch ≤ 0x7F := by
  obtain ⟨hr, hnil, hlong, hhead, hlast⟩ := prepDomainLabel_eq_some_iff.mp h
  obtain ⟨hall, rfl⟩ := prepChars_eq_some_iff.mp hr
  have hchars : (∀ ch ∈ label.map fun ch => (prepDomainLabelChar ch).1, LabelChar ch) ↔
      ∀ ch ∈ label, ch ≤ 0x7F := by
    rw [List.forall_mem_map]
    exact forall₂_congr fun ch hch => (prepDomainLabelChar_fst ch (hall ch hch)).2.2.2.2
  rw [← hchars]
  exact ⟨fun hvalid => hvalid.chars, fun hchars => ⟨hnil, hlong, hchars, hhead, hlast⟩⟩

/-- What becomes of the characters of a label. -/
def labelMap (label : List UInt8) : List UInt8 := label.map fun ch => (prepDomainLabelChar ch).1

theorem prepDomainLabel_eq_labelMap (h : prepDomainLabel label = some r) : r = labelMap label :=
  (prepChars_eq_some_iff.mp (prepDomainLabel_eq_some_iff.mp h).1).2

theorem prepDomainLabel_eq_some_labelMap_iff {label : List UInt8} :
    prepDomainLabel label = some (labelMap label) ↔ AcceptedLabel label := by
  have hhyphen (ch : Option UInt8) :
      ch.map (fun ch => (prepDomainLabelChar ch).1) = some 0x2D ↔ ch = some 0x2D := by
    rw [Option.map_eq_some_iff]
    simp only [(prepDomainLabelChar_snd _).2, exists_eq_right]
  rw [prepDomainLabel_eq_some_iff, prepChars_eq_some_iff, labelMap, List.length_map, List.head?_map,
    List.getLast?_map, ne_eq, List.map_eq_nil_iff, ne_eq, hhyphen, ne_eq, hhyphen]
  simp only [(prepDomainLabelChar_snd _).1]
  constructor
  · rintro ⟨⟨hchars, -⟩, hnil, hlong, hhead, hlast⟩
    exact ⟨hnil, hlong, hchars, hhead, hlast⟩
  · intro h
    exact ⟨⟨h.chars, trivial⟩, h.ne_nil, h.length_le, h.head, h.last⟩

theorem prepDomainFrom_eq_some {label rest r : List UInt8} (h : prepDomainFrom label rest = some r) :
    ∃ labels, labels ≠ [] ∧ label ++ rest = [0x2E].intercalate labels ∧
      (∀ l ∈ labels, AcceptedLabel l) ∧ r = [0x2E].intercalate (labels.map labelMap) := by
  induction rest generalizing label r with
  | nil =>
    obtain rfl := prepDomainLabel_eq_labelMap h
    have hlabel : AcceptedLabel label := prepDomainLabel_eq_some_labelMap_iff.mp h
    refine ⟨[label], nofun, ?_, List.forall_mem_singleton.mpr hlabel, List.intercalate_singleton.symm⟩
    rw [List.append_nil, List.intercalate_singleton]
  | cons ch rest ih =>
    rw [prepDomainFrom] at h
    split at h
    next hdot =>
      subst hdot
      obtain ⟨buf, hbuf, h⟩ := Option.bind_eq_some_iff.mp h
      obtain ⟨r', hr', h⟩ := Option.bind_eq_some_iff.mp h
      cases h
      obtain rfl := prepDomainLabel_eq_labelMap hbuf
      obtain ⟨labels, hne, hlabels, hprep, rfl⟩ := ih hr'
      have hlabel : AcceptedLabel label := prepDomainLabel_eq_some_labelMap_iff.mp hbuf
      have hne' : labels.map labelMap ≠ [] := fun hnil => hne (List.map_eq_nil_iff.mp hnil)
      refine ⟨label :: labels, nofun, ?_, List.forall_mem_cons.mpr ⟨hlabel, hprep⟩, ?_⟩
      · rw [List.intercalate_cons_of_ne_nil hne, ← hlabels]
        simp
      · rw [List.map_cons, List.intercalate_cons_of_ne_nil hne']
        simp
    · obtain ⟨labels, hne, hlabels, hrest⟩ := ih h
      exact ⟨labels, hne, by rw [← hlabels, List.append_assoc]; rfl, hrest⟩

theorem prepDomainFrom_append {label l rest : List UInt8} (h : 0x2E ∉ l) :
    prepDomainFrom label (l ++ rest) = prepDomainFrom (label ++ l) rest := by
  induction l generalizing label with
  | nil => rw [List.nil_append, List.append_nil]
  | cons ch l ih =>
    rw [List.mem_cons, not_or] at h
    rw [List.cons_append, prepDomainFrom, if_neg (Ne.symm h.1), ih h.2, List.append_assoc]
    rfl

variable {ls : List (List UInt8)}

theorem prepDomainFrom_intercalate (hne : ls ≠ []) (h : ∀ l ∈ ls, AcceptedLabel l) :
    prepDomainFrom [] ([0x2E].intercalate ls) = some ([0x2E].intercalate (ls.map labelMap)) := by
  induction ls with
  | nil => exact absurd rfl hne
  | cons l ls ih =>
    rw [List.forall_mem_cons] at h
    have hdot : 0x2E ∉ l := h.1.dot_not_mem
    have hl : prepDomainLabel l = some (labelMap l) := prepDomainLabel_eq_some_labelMap_iff.mpr h.1
    rcases ls with _ | ⟨l', ls⟩
    · have happend : prepDomainFrom [] (l ++ []) = prepDomainFrom ([] ++ l) [] :=
        prepDomainFrom_append hdot
      rw [List.append_nil, List.nil_append] at happend
      rw [List.intercalate_singleton, happend, List.map_singleton, List.intercalate_singleton]
      exact hl
    have hne' : l' :: ls ≠ [] := nofun
    have hne'' : (l' :: ls).map labelMap ≠ [] := nofun
    rw [List.intercalate_cons_of_ne_nil hne', List.append_assoc, prepDomainFrom_append hdot,
      List.nil_append, List.singleton_append, prepDomainFrom, if_pos rfl, hl, ih hne' h.2,
      List.map_cons (l := l' :: ls), List.intercalate_cons_of_ne_nil hne'', List.append_assoc]
    rfl

theorem forall_mem_intercalate {P : UInt8 → Prop} {ch : UInt8} (hch : P ch) :
    (∀ c ∈ [ch].intercalate ls, P c) ↔ ∀ l ∈ ls, ∀ c ∈ l, P c := by
  induction ls with
  | nil => exact ⟨nofun, nofun⟩
  | cons l ls ih =>
    rcases ls with _ | ⟨l', ls⟩
    · rw [List.intercalate_singleton, List.forall_mem_singleton]
    have hne : l' :: ls ≠ [] := nofun
    rw [List.intercalate_cons_of_ne_nil hne, List.forall_mem_cons, ← ih]
    simp only [List.mem_append, List.mem_singleton]
    constructor
    · intro h
      exact ⟨fun c hc => h c (.inl (.inl hc)), fun c hc => h c (.inr hc)⟩
    · rintro ⟨hl, hls⟩ c ((hc | rfl) | hc)
      · exact hl c hc
      · exact hch
      · exact hls c hc

theorem not_mem_intercalate {ch c : UInt8} (hne : ch ≠ c)
    (h : ∀ l ∈ ls, c ∉ l) : c ∉ [ch].intercalate ls := by
  have hall := (forall_mem_intercalate (P := fun d => d ≠ c) hne).mpr
    fun l hl d hd heq => h l hl (heq ▸ hd)
  exact fun hmem => hall c hmem rfl

theorem length_intercalate_labelMap (labels : List (List UInt8)) :
    ([0x2E].intercalate (labels.map labelMap)).length = ([0x2E].intercalate labels).length := by
  induction labels with
  | nil => rfl
  | cons label labels ih =>
    rcases labels with _ | ⟨label', labels⟩
    · rw [List.map_singleton, List.intercalate_singleton, List.intercalate_singleton]
      exact List.length_map _
    · have hne : label' :: labels ≠ [] := nofun
      have hne' : (label' :: labels).map labelMap ≠ [] := nofun
      rw [List.map_cons, List.intercalate_cons_of_ne_nil hne, List.intercalate_cons_of_ne_nil hne']
      simp only [List.length_append, ih, labelMap, List.length_map]

theorem prepDomainFrom_eq_none_iff {domain : List UInt8} :
    prepDomainFrom [] domain = none ↔ ∃ label ∈ domain.splitOn 0x2E, ¬AcceptedLabel label := by
  rw [← not_iff_not, ← ne_eq, Option.ne_none_iff_exists']
  push Not
  constructor
  · rintro ⟨r, h⟩
    obtain ⟨labels, hne, hdomain, hlabels, -⟩ := prepDomainFrom_eq_some h
    rw [List.nil_append] at hdomain
    rw [hdomain, List.splitOn_intercalate _ (fun l hl => (hlabels l hl).dot_not_mem) hne]
    exact hlabels
  · intro h
    have hsome := prepDomainFrom_intercalate (List.splitOn_ne_nil _ _) h
    rw [List.intercalate_splitOn] at hsome
    exact ⟨_, hsome⟩

/-- A domain that is prepared stays as it is; it is not empty and has no at-sign or slash; and its
labels are valid exactly if it was in ASCII. -/
theorem prepDomainFrom_nil_eq_some {domain r : List UInt8} (h : prepDomainFrom [] domain = some r) :
    prepDomainFrom [] r = some r ∧ r ≠ [] ∧ 0x40 ∉ r ∧ 0x2F ∉ r ∧ r.length = domain.length ∧
      ((∀ label ∈ r.splitOn 0x2E, ValidLabel label) ↔ ∀ ch ∈ domain, ch ≤ 0x7F) := by
  obtain ⟨labels, hne, hdomain, hlabels, rfl⟩ := prepDomainFrom_eq_some h
  rw [List.nil_append] at hdomain
  have hprep (l : List UInt8) (hl : l ∈ labels) : prepDomainLabel l = some (labelMap l) :=
    prepDomainLabel_eq_some_labelMap_iff.mpr (hlabels l hl)
  have hself (l : List UInt8) (hl : l ∈ labels) : prepDomainLabel (labelMap l) = some (labelMap l) :=
    prepDomainLabel_self (hprep l hl)
  have hmap (l : List UInt8) (hl : l ∈ labels) : labelMap (labelMap l) = labelMap l :=
    (prepDomainLabel_eq_labelMap (hself l hl)).symm
  have hne' : labels.map labelMap ≠ [] := fun hnil => hne (List.map_eq_nil_iff.mp hnil)
  have hchars : ∀ l ∈ labels.map labelMap, 0x40 ∉ l ∧ 0x2F ∉ l ∧ 0x2E ∉ l :=
    List.forall_mem_map.mpr fun l hl => not_mem_prepDomainLabel (hprep l hl)
  have hlength : ([0x2E].intercalate (labels.map labelMap)).length = domain.length := by
    rw [length_intercalate_labelMap, hdomain]
  refine ⟨?_, ?_, ?_, ?_, hlength, ?_⟩
  · rw [prepDomainFrom_intercalate hne' (List.forall_mem_map.mpr fun l hl => ?_), List.map_map]
    · exact congrArg (fun ls => some ([0x2E].intercalate ls)) (List.map_congr_left hmap)
    · exact prepDomainLabel_eq_some_labelMap_iff.mp ((hself l hl).trans (congrArg some (hmap l hl).symm))
  · intro hnil
    rw [hnil] at hlength
    rw [List.eq_nil_of_length_eq_zero hlength.symm] at h
    cases h
  · exact not_mem_intercalate (by decide) fun l hl => (hchars l hl).1
  · exact not_mem_intercalate (by decide) fun l hl => (hchars l hl).2.1
  · rw [List.splitOn_intercalate _ (fun l hl => (hchars l hl).2.2) hne', List.forall_mem_map, hdomain,
      forall_mem_intercalate (P := fun c => c ≤ 0x7F) (by decide)]
    exact forall₂_congr fun label hlabel => validLabel_prepDomainLabel_iff (hprep label hlabel)

/-! ### Cutting a string -/

theorem findIdx?_eq_none {l : List UInt8} {ch : UInt8} (h : ch ∉ l) : l.findIdx? (· = ch) = none := by
  rw [List.findIdx?_eq_none_iff]
  intro c hc
  exact decide_eq_false fun heq => h (heq ▸ hc)

theorem findIdx?_append_cons {l rest : List UInt8} {ch : UInt8} (h : ch ∉ l) :
    (l ++ ch :: rest).findIdx? (· = ch) = some l.length := by
  rw [List.findIdx?_append, findIdx?_eq_none h, List.findIdx?_cons, if_pos (decide_eq_true rfl)]
  simp

namespace Jid

variable {node domain resource : List UInt8}

theorem split_str (hnode : 0x40 ∉ node ∧ 0x2F ∉ node) (hdomain : 0x40 ∉ domain ∧ 0x2F ∉ domain) :
    split ((if node = [] then [] else node ++ [0x40]) ++ domain ++
      (if resource = [] then [] else 0x2F :: resource)) = (node, domain, resource) := by
  by_cases hn : node = []
  · subst hn
    rw [if_pos rfl, List.nil_append]
    by_cases hr : resource = []
    · subst hr
      rw [if_pos rfl, List.append_nil, split, findIdx?_eq_none hdomain.2, findIdx?_eq_none hdomain.1]
      simp
    rw [if_neg hr, split, findIdx?_append_cons hdomain.2]
    have hat : ((domain ++ 0x2F :: resource).findIdx? (· = 0x40)).filter
        (fun i => decide (i < domain.length)) = none := by
      rw [List.findIdx?_append, findIdx?_eq_none hdomain.1]
      simp
    simp only [hat]
    simp
  · rw [if_neg hn]
    have hpre : 0x2F ∉ node ++ [0x40] ++ domain := by simp [hnode.2, hdomain.2]
    by_cases hr : resource = []
    · subst hr
      rw [if_pos rfl, List.append_nil, split, findIdx?_eq_none hpre]
      have hat : ((node ++ [0x40] ++ domain).findIdx? (· = 0x40)).filter (fun _ => true) =
          some node.length := by
        rw [List.append_assoc, List.singleton_append, findIdx?_append_cons hnode.1]
        rfl
      simp only [hat]
      simp
      omega
    rw [if_neg hr, split, findIdx?_append_cons hpre]
    have hat : ((node ++ [0x40] ++ domain ++ 0x2F :: resource).findIdx? (· = 0x40)).filter
        (fun i => decide (i < (node ++ [0x40] ++ domain).length)) = some node.length := by
      rw [List.append_assoc, List.append_assoc, List.singleton_append, List.cons_append,
        findIdx?_append_cons hnode.1, Option.filter_some_pos]
      simp
    have hresource : (node ++ [0x40] ++ domain ++ 0x2F :: resource).drop
        ((node ++ [0x40] ++ domain).length + 1) = resource := by
      rw [List.drop_length_add_append]
      rfl
    have hlength : (node ++ [0x40] ++ domain).length - (node.length + 1) = domain.length := by
      simp only [List.length_append, List.length_singleton]
      omega
    simp only [hat, hresource, hlength]
    simp

/-! ### The address -/

/-- An address all of whose parts are as they should be. -/
structure FullyValid (j : Jid) : Prop where
  domain_ne_nil : j.domain ≠ []
  domain_length : j.domain.length ≤ 1023
  domain_labels : ∀ label ∈ j.domain.splitOn 0x2E, ValidLabel label
  node_length : j.node.length ≤ 1023
  node_chars : ∀ ch ∈ j.node, ¬Forbidden ch
  resource_length : j.resource.length ≤ 1023
  resource_chars : ∀ ch ∈ j.resource, ¬IsControl ch

/-- One of the parts is refused. The characters from `0x18` to `0x1F` are not refused in a node, and no
character is refused in a resource. -/
def Refused (node domain resource : List UInt8) : Prop :=
  (∃ ch ∈ node, Forbidden ch ∧ ¬(0x18 ≤ ch ∧ ch ≤ 0x1F)) ∨ 1023 < node.length ∨
    (∃ label ∈ domain.splitOn 0x2E, ¬AcceptedLabel label) ∨ 1023 < resource.length

/-- The parts that make what an address should be. Either one of them is refused; or the domain is too long, and
there is nothing else; or it is short enough and in ASCII, and node and resource have no control character. -/
def Sound (node domain resource : List UInt8) : Prop :=
  Refused node domain resource ∨ (1023 < domain.length ∧ node = [] ∧ resource = []) ∨
    (domain.length ≤ 1023 ∧ (∀ ch ∈ domain, ch ≤ 0x7F) ∧ (∀ ch ∈ node, ¬(0x18 ≤ ch ∧ ch ≤ 0x1F)) ∧
      ∀ ch ∈ resource, ¬IsControl ch)

/-- A string whose parts are sound. -/
def SoundString (s : List UInt8) : Prop := Sound (split s).1 (split s).2.1 (split s).2.2

theorem ofParts_of_refused (h : Refused node domain resource) : ofParts node domain resource = empty := by
  rw [ofParts, prepDomain]
  rcases h with hnode | hnode | hdomain | hresource
  · rw [prepNode_eq_none_iff.mpr (.inl hnode)]
  · rw [prepNode_eq_none_iff.mpr (.inr hnode)]
  · rw [prepDomainFrom_eq_none_iff.mpr hdomain]
    cases prepNode node <;> rfl
  · rw [prepResource_eq_none_iff.mpr hresource]
    cases prepNode node <;> cases prepDomainFrom [] domain <;> rfl

theorem ofParts_of_not_refused (h : ¬Refused node domain resource) :
    ∃ n d r, prepNode node = some n ∧ prepDomainFrom [] domain = some d ∧ prepResource resource = some r ∧
      ofParts node domain resource = ⟨n, if 1023 < domain.length then [] else d, r⟩ := by
  simp only [Refused, not_or] at h
  obtain ⟨hchars, hlength, hlabels, hresource⟩ := h
  obtain ⟨n, hn⟩ := Option.ne_none_iff_exists'.mp
    fun hnone => (prepNode_eq_none_iff.mp hnone).elim hchars hlength
  obtain ⟨d, hd⟩ := Option.ne_none_iff_exists'.mp
    fun hnone => hlabels (prepDomainFrom_eq_none_iff.mp hnone)
  obtain ⟨r, hr⟩ := Option.ne_none_iff_exists'.mp
    fun hnone => hresource (prepResource_eq_none_iff.mp hnone)
  refine ⟨n, d, r, hn, hd, hr, ?_⟩
  rw [ofParts, prepDomain, hn, hd, hr, Option.map_some, (prepDomainFrom_nil_eq_some hd).2.2.2.2.1]

theorem ofParts_empty_or_fullyValid_iff :
    (ofParts node domain resource = empty ∨ FullyValid (ofParts node domain resource)) ↔
      Sound node domain resource := by
  by_cases href : Refused node domain resource
  · exact ⟨fun _ => .inl href, fun _ => .inl (ofParts_of_refused href)⟩
  obtain ⟨n, d, r, hn, hd, hr, heq⟩ := ofParts_of_not_refused href
  obtain ⟨-, hdne, -, -, hdlength, hdlabels⟩ := prepDomainFrom_nil_eq_some hd
  obtain ⟨hnchars, hnlength⟩ := prepNode_eq_some_iff.mp hn
  obtain ⟨hnall, rfl⟩ := prepChars_eq_some_iff.mp hnchars
  obtain ⟨rfl, hrlength⟩ := prepResource_eq_some_iff.mp hr
  rw [Sound, or_iff_right href, heq]
  by_cases hlong : 1023 < domain.length
  · -- the domain is dropped, and the other parts are kept
    rw [if_pos hlong]
    constructor
    · rintro (hempty | hvalid)
      · rw [empty, mk.injEq, List.map_eq_nil_iff, List.map_eq_nil_iff] at hempty
        exact .inl ⟨hlong, hempty.1, hempty.2.2⟩
      · exact absurd rfl hvalid.domain_ne_nil
    · rintro (⟨-, rfl, rfl⟩ | ⟨hshort, -⟩)
      · exact .inl rfl
      · omega
  rw [if_neg hlong]
  have hnode : (∀ ch ∈ node.map fun ch => (prepNodeChar ch).1, ¬Forbidden ch) ↔
      ∀ ch ∈ node, ¬(0x18 ≤ ch ∧ ch ≤ 0x1F) := by
    rw [List.forall_mem_map]
    exact forall₂_congr fun ch hch => not_congr (prepNodeChar_fst ch (hnall ch hch)).2.2.2
  have hresource : (∀ ch ∈ resource.map fun ch => (prepResourceChar ch).1, ¬IsControl ch) ↔
      ∀ ch ∈ resource, ¬IsControl ch := by
    rw [List.forall_mem_map]
    exact forall₂_congr fun ch _ => not_congr (prepResourceChar_fst ch).2
  constructor
  · rintro (hempty | hvalid)
    · rw [empty, mk.injEq] at hempty
      exact absurd hempty.2.1 hdne
    · exact .inr ⟨Nat.not_lt.mp hlong, hdlabels.mp hvalid.domain_labels, hnode.mp hvalid.node_chars,
        hresource.mp hvalid.resource_chars⟩
  · rintro (⟨hlong', -⟩ | ⟨-, hascii, hn', hr'⟩)
    · exact absurd hlong' hlong
    · refine .inr ⟨hdne, ?_, hdlabels.mpr hascii, hnlength, hnode.mpr hn', hrlength, hresource.mpr hr'⟩
      rw [hdlength]
      exact Nat.not_lt.mp hlong

theorem ofString_eq_ofParts (s : List UInt8) :
    ofString s = ofParts (split s).1 (split s).2.1 (split s).2.2 := by
  rw [ofString]
  split
  next hnil =>
    subst hnil
    decide
  · rfl

theorem ofString_str (h : (ofParts node domain resource).isValid = true) :
    ofString (ofParts node domain resource).str = ofParts node domain resource := by
  by_cases href : Refused node domain resource
  · rw [ofParts_of_refused href] at h
    cases h
  obtain ⟨n, d, r, hn, hd, hr, heq⟩ := ofParts_of_not_refused href
  obtain ⟨hself, hdne, hat, hslash, hlength, -⟩ := prepDomainFrom_nil_eq_some hd
  by_cases hlong : 1023 < domain.length
  · rw [heq, if_pos hlong] at h
    cases h
  rw [if_neg hlong] at heq
  have hnode : 0x40 ∉ n ∧ 0x2F ∉ n := by
    obtain ⟨hall, rfl⟩ := prepChars_eq_some_iff.mp (prepNode_eq_some_iff.mp hn).1
    constructor <;> intro hmem <;> obtain ⟨ch, hch, hch'⟩ := List.mem_map.mp hmem
    · exact (prepNodeChar_fst ch (hall ch hch)).2.1 hch'
    · exact (prepNodeChar_fst ch (hall ch hch)).2.2.1 hch'
  have hparts : ofParts n d r = ⟨n, d, r⟩ := by
    rw [ofParts, prepDomain, prepNode_self hn, hself, prepResource_self hr, Option.map_some, hlength,
      if_neg hlong]
  rw [heq] at h ⊢
  rw [ofString_eq_ofParts, str, if_pos h, split_str hnode ⟨hat, hslash⟩]
  exact hparts

theorem str_ne_nil {j : Jid} (h : j.isValid = true) : j.str ≠ [] := by
  rw [str, if_pos h]
  intro hnil
  rw [List.append_eq_nil_iff, List.append_eq_nil_iff] at hnil
  rw [isValid, hnil.1.2] at h
  cases h

theorem ofString_eq_iff {s t : List UInt8} (hs : SoundString s) (ht : SoundString t) :
    ofString s = ofString t ↔ (ofString s).str = (ofString t).str := by
  refine ⟨congrArg str, fun h => ?_⟩
  have hvalid {u : List UInt8} (hu : FullyValid (ofString u)) : (ofString u).isValid = true :=
    decide_eq_true hu.domain_ne_nil
  rw [SoundString, ← ofParts_empty_or_fullyValid_iff, ← ofString_eq_ofParts] at hs ht
  rcases hs with hs | hs <;> rcases ht with ht | ht
  · rw [hs, ht]
  · rw [hs] at h
    exact absurd h.symm (str_ne_nil (hvalid ht))
  · rw [ht] at h
    exact absurd h (str_ne_nil (hvalid hs))
  · have hs' := hvalid hs
    have ht' := hvalid ht
    rw [ofString_eq_ofParts] at hs' ht' h ⊢
    rw [ofString_eq_ofParts t] at h ⊢
    rw [← ofString_str hs', h, ofString_str ht']

/-- An address made from a string is empty or fully valid exactly if the string is sound. Every valid
address is read again from its printed form, and two sound strings make equal addresses exactly if
these print alike. -/
theorem normal_iff_soundString (s : List UInt8) :
    ((ofString s = empty ∨ FullyValid (ofString s)) ↔ SoundString s) ∧
      (∀ node domain resource, (ofParts node domain resource).isValid = true →
        ofString (ofParts node domain resource).str = ofParts node domain resource) ∧
      ∀ t, SoundString s → SoundString t →
        (ofString s = ofString t ↔ (ofString s).str = (ofString t).str) := by
  refine ⟨?_, fun node domain resource h => ofString_str h, fun t hs ht => ofString_eq_iff hs ht⟩
  rw [ofString_eq_ofParts]
  exact ofParts_empty_or_fullyValid_iff

/-- The address `A@B.c/d` is made lower-case and prints as `a@b.c/d`. -/
theorem normal_of_upper_case : SoundString [0x41, 0x40, 0x42, 0x2E, 0x63, 0x2F, 0x64] ∧
      FullyValid (ofString [0x41, 0x40, 0x42, 0x2E, 0x63, 0x2F, 0x64]) ∧
      ofString (ofParts [0x41] [0x42, 0x2E, 0x63] [0x64]).str = ofParts [0x41] [0x42, 0x2E, 0x63] [0x64] := by
  have hsound : SoundString [0x41, 0x40, 0x42, 0x2E, 0x63, 0x2F, 0x64] :=
    .inr (.inr ⟨by decide, by decide +kernel, by decide +kernel, by decide +kernel⟩)
  obtain ⟨hiff, hround, -⟩ := normal_iff_soundString [0x41, 0x40, 0x42, 0x2E, 0x63, 0x2F, 0x64]
  exact ⟨hsound, (hiff.mpr hsound).resolve_left (by decide), hround _ _ _ (by decide)⟩

/-- In `a/` with a line feed behind it the line feed becomes a zero, and is kept; and the node of the
other string keeps its control character. -/
theorem not_normal_control :
    ¬(ofString [0x61, 0x2F, 0x0A] = empty ∨ FullyValid (ofString [0x61, 0x2F, 0x0A])) ∧
      ¬(ofString [0x18, 0x40, 0x61] = empty ∨ FullyValid (ofString [0x18, 0x40, 0x61])) := by
  constructor
  · rintro (hempty | hvalid)
    · exact absurd hempty (by decide)
    · exact hvalid.resource_chars 0 (by decide) (by decide)
  · rintro (hempty | hvalid)
    · exact absurd hempty (by decide)
    · exact hvalid.node_chars 0x18 (by decide) (by decide)

end Jid

end Synciga
