import Mathlib.Data.List.Find
import Mathlib.Data.List.Nodup
import Synciga.Internal.Runs
import Synciga.Xml.XmlnsStack

/-!
# Prefixes that resolve back

The printer asks the stack for a prefix of a namespace, and whoever reads what was printed for the namespace of
the prefix. An inner declaration can hide an outer one, so `PrefixForNs` looks every prefix up again, but for an
attribute without a namespace. `AddNewPrefix` makes one up from the text of the namespace, with a number behind
it if need be.

## Main results

* `XmlnsStack.prefixes_resolve` — prefixes resolve back
* `XmlnsStack.not_resolves_attribute` — but for such an attribute
-/

namespace Synciga.XmlnsStack

variable {s : XmlnsStack} {pre pre' ns ns' base : String} {isAttr isAttr' : Bool}

/-! ### Looking up -/

theorem nsForPrefix_addXmlns (hreserved : isReserved pre' = false) : (s.addXmlns pre ns).nsForPrefix pre' =
      if pre = pre' then some ns else s.nsForPrefix pre' := by
  have hlast : (s.addXmlns pre ns).entries.reverse = (pre, ns) :: s.entries.reverse :=
    List.reverse_concat ..
  rw [nsForPrefix, nsForPrefix, hreserved, if_neg Bool.false_ne_true, if_neg Bool.false_ne_true, hlast,
    List.find?_cons]
  by_cases h : pre = pre'
  · simp [h]
  · simp [h]

theorem nsForPrefix_of_isReserved (hreserved : isReserved pre = true) (s s' : XmlnsStack) :
    s.nsForPrefix pre = s'.nsForPrefix pre := by
  rw [nsForPrefix, nsForPrefix, if_pos hreserved, if_pos hreserved]

theorem prefixMatchesNs_iff : s.prefixMatchesNs pre ns = true ↔ s.nsForPrefix pre = some ns := by
  rw [prefixMatchesNs, decide_eq_true_iff]

/-- What is found among the declarations. -/
def declares (s : XmlnsStack) (ns : String) (isAttr : Bool) (entry : String × String) : Bool :=
  entry.2 = ns && (!isAttr || entry.1 ≠ "") && s.prefixMatchesNs entry.1 ns

variable {entry : String × String}

theorem declares_iff : s.declares ns isAttr entry = true ↔
      entry.2 = ns ∧ (isAttr = true → entry.1 ≠ "") ∧ s.nsForPrefix entry.1 = some ns := by
  rw [declares, Bool.and_eq_true, Bool.and_eq_true, decide_eq_true_iff, prefixMatchesNs_iff, and_assoc]
  cases isAttr <;> simp

/-- No prefix is needed: an attribute that has no namespace, or an element in the default one. -/
def Unprefixed (s : XmlnsStack) (ns : String) (isAttr : Bool) : Prop :=
  if isAttr then ns = "" else s.prefixMatchesNs "" ns

theorem prefixForNs_of_unprefixed (hxml : ns ≠ nsXml) (hxmlns : ns ≠ nsXmlns)
    (h : s.Unprefixed ns isAttr) : s.prefixForNs ns isAttr = some "" := by
  rw [prefixForNs, if_neg hxml, if_neg hxmlns]
  exact if_pos h

theorem prefixForNs_of_not_unprefixed (hxml : ns ≠ nsXml) (hxmlns : ns ≠ nsXmlns)
    (h : ¬ s.Unprefixed ns isAttr) :
    s.prefixForNs ns isAttr = (s.entries.reverse.find? (s.declares ns isAttr)).map (·.1) := by
  rw [prefixForNs, if_neg hxml, if_neg hxmlns]
  exact if_neg h

theorem Unprefixed.cases (h : s.Unprefixed ns isAttr) :
    isAttr = true ∧ ns = "" ∨ isAttr = false ∧ s.nsForPrefix "" = some ns := by
  cases isAttr with
  | true => exact .inl ⟨rfl, h⟩
  | false => exact .inr ⟨rfl, prefixMatchesNs_iff.mp h⟩

theorem prefixForNs_eq_some (h : s.prefixForNs ns isAttr = some pre) : isAttr = true ∧ ns = "" ∧ pre = "" ∨
      s.nsForPrefix pre = some ns ∧ (isAttr = true → pre ≠ "") := by
  by_cases hxml : ns = nsXml
  · rw [prefixForNs, if_pos hxml] at h
    cases h
    exact .inr ⟨by rw [hxml]; rfl, fun _ => by decide⟩
  by_cases hxmlns : ns = nsXmlns
  · rw [prefixForNs, if_neg hxml, if_pos hxmlns] at h
    cases h
    exact .inr ⟨by rw [hxmlns]; rfl, fun _ => by decide⟩
  by_cases hdefault : s.Unprefixed ns isAttr
  · rw [prefixForNs_of_unprefixed hxml hxmlns hdefault] at h
    cases h
    rcases hdefault.cases with ⟨hattr, hns⟩ | ⟨hattr, hns⟩
    · exact .inl ⟨hattr, hns, rfl⟩
    · exact .inr ⟨hns, fun hattr' => absurd (hattr.symm.trans hattr') Bool.false_ne_true⟩
  · rw [prefixForNs_of_not_unprefixed hxml hxmlns hdefault] at h
    obtain ⟨entry, hentry, rfl⟩ := Option.map_eq_some_iff.mp h
    obtain ⟨-, hne, hns⟩ := declares_iff.mp (List.find?_some hentry)
    exact .inr ⟨hns, hne⟩

theorem prefixForNs_isSome_of_mem (hmem : entry ∈ s.entries)
    (h : s.declares ns isAttr entry = true) : (s.prefixForNs ns isAttr).isSome := by
  by_cases hxml : ns = nsXml
  · rw [prefixForNs, if_pos hxml]
    rfl
  by_cases hxmlns : ns = nsXmlns
  · rw [prefixForNs, if_neg hxml, if_pos hxmlns]
    rfl
  by_cases hdefault : s.Unprefixed ns isAttr
  · rw [prefixForNs_of_unprefixed hxml hxmlns hdefault]
    rfl
  · rw [prefixForNs_of_not_unprefixed hxml hxmlns hdefault, Option.isSome_map, List.find?_isSome]
    exact ⟨entry, List.mem_reverse.mpr hmem, h⟩

/-! ### The candidates -/

/-- The loop of `AddNewPrefix`, from a number and a candidate on; `none` where the rounds are used up. -/
def tryPrefixes (s : XmlnsStack) (base : String) : Nat → Nat → String → Option String
  | 0, _, _ => none
  | rounds + 1, i, result =>
    if (s.nsForPrefix result).isSome then s.tryPrefixes base rounds (i + 1) (base ++ toString i)
    else some result

/-- The candidate that is tried after so many others. -/
def candidate (base : String) : Nat → String
  | 0 => base
  | n + 1 => base ++ toString (n + 2)

theorem newPrefixes_eq (s : XmlnsStack) (base : String) :
    s.newPrefixes base = (List.range (s.entries.length + 1)).map (candidate base) := by
  rw [newPrefixes, List.range_succ_eq_map, List.map_cons, List.map_map]
  rfl

theorem candidate_injective (base : String) : Function.Injective (candidate base) := by
  have hbase : ∀ n : Nat, base ≠ base ++ toString n := by
    intro n heq
    have hchars := congrArg String.toList heq
    rw [String.toList_append, List.self_eq_append_right] at hchars
    exact Nat.toDigits_ne_nil (Nat.toList_repr.symm.trans hchars)
  intro n m heq
  cases n with
  | zero =>
    cases m with
    | zero => rfl
    | succ m => exact absurd heq (hbase _)
  | succ n =>
    cases m with
    | zero => exact absurd heq.symm (hbase _)
    | succ m =>
      have hchars := congrArg String.toList heq
      rw [candidate, candidate, String.toList_append, String.toList_append] at hchars
      have hdigits : Nat.toDigits 10 (n + 2) = Nat.toDigits 10 (m + 2) :=
        Nat.toList_repr.symm.trans ((List.append_cancel_left hchars).trans Nat.toList_repr)
      have hnumber := congrArg (Nat.ofDigitChars 10 · 0) hdigits
      rw [Nat.ofDigitChars_ten_toDigits, Nat.ofDigitChars_ten_toDigits] at hnumber
      omega

theorem tryPrefixes_candidate (s : XmlnsStack) (base : String) (rounds n : Nat) :
    s.tryPrefixes base rounds (n + 2) (candidate base n) =
      ((List.range rounds).map fun i => candidate base (n + i)).find? fun pre =>
        (s.nsForPrefix pre).isNone := by
  induction rounds generalizing n with
  | zero => rfl
  | succ rounds ih =>
    have hrest : ((List.range (rounds + 1)).map fun i => candidate base (n + i)) =
        candidate base n :: (List.range rounds).map fun i => candidate base (n + 1 + i) := by
      rw [List.range_succ_eq_map, List.map_cons, List.map_map]
      congr 1
      refine List.map_congr_left fun i _ => ?_
      rw [Function.comp_apply, Nat.succ_eq_add_one, Nat.add_right_comm, Nat.add_assoc]
    rw [tryPrefixes, hrest, List.find?_cons]
    cases hfree : s.nsForPrefix (candidate base n) with
    | none => rfl
    | some ns => exact ih (n := n + 1)

/-! ### Candidates are not reserved -/

theorem not_upper_of_mem_asciiLower {cs : List Char} {c : Char} (h : c ∈ asciiLower cs) :
    ¬ ('A' ≤ c ∧ c ≤ 'Z') := by
  rw [asciiLower, List.mem_map] at h
  obtain ⟨d, -, rfl⟩ := h
  split
  next hupper =>
    have hupper : 'A' ≤ d ∧ d ≤ 'Z' := by
      rw [Bool.and_eq_true, decide_eq_true_iff, decide_eq_true_iff] at hupper
      exact hupper
    have hlow : 65 ≤ d.toNat := hupper.1
    have hhigh : d.toNat ≤ 90 := hupper.2
    have hvalue : (Char.ofNat (d.toNat + 32)).toNat = d.toNat + 32 := by
      rw [Char.ofNat, dif_pos (.inl (by omega))]
      rfl
    rintro ⟨-, hle⟩
    have hle : (Char.ofNat (d.toNat + 32)).toNat ≤ 90 := hle
    omega
  next hnot =>
    intro hupper
    refine hnot ?_
    rw [Bool.and_eq_true, decide_eq_true_iff, decide_eq_true_iff]
    exact hupper

/-- What `SuggestPrefix` answers: letters in lower case that do not begin with `xml`. -/
structure IsBase (cs : List Char) : Prop where
  nonempty : cs ≠ []
  lower : ∀ c ∈ cs, ¬ ('A' ≤ c ∧ c ≤ 'Z')
  notXml : ['x', 'm', 'l'].isPrefixOf cs = false

theorem isBase_of_letters (letters : List Char) :
    IsBase (if asciiLower letters = [] ∨ ['x', 'm', 'l'].isPrefixOf (asciiLower letters) then "ns"
      else String.ofList (asciiLower letters)).toList := by
  split
  next =>
    refine ⟨by decide, fun c hc => ?_, by decide⟩
    rcases List.mem_pair.mp (show c ∈ ['n', 's'] from hc) with rfl | rfl
    · exact fun hupper => absurd hupper.2 (by decide)
    · exact fun hupper => absurd hupper.2 (by decide)
  next hfit =>
    rw [String.toList_ofList]
    rw [not_or] at hfit
    exact ⟨hfit.1, fun c hc => not_upper_of_mem_asciiLower hc, Bool.eq_false_iff.mpr hfit.2⟩

theorem isBase_suggestPrefix (ns : String) : IsBase (suggestPrefix ns).toList :=
  isBase_of_letters _

theorem toList_candidate (base : String) (n : Nat) :
    ∃ ds, (candidate base n).toList = base.toList ++ ds ∧ ∀ d ∈ ds, d.isDigit := by
  cases n with
  | zero => exact ⟨[], (List.append_nil _).symm, List.forall_mem_nil _⟩
  | succ n =>
    refine ⟨Nat.toDigits 10 (n + 2), ?_, fun d hd => Nat.isDigit_of_mem_toDigits (by decide) (by decide) hd⟩
    rw [candidate, String.toList_append]
    exact congrArg _ Nat.toList_repr

theorem IsBase.candidate_ne_empty {base : String} (h : IsBase base.toList) (n : Nat) :
    candidate base n ≠ "" := by
  obtain ⟨ds, hds, -⟩ := toList_candidate base n
  intro heq
  rw [heq] at hds
  exact h.nonempty (List.append_eq_nil_iff.mp hds.symm).1

theorem IsBase.not_isReserved {base : String} (h : IsBase base.toList) (n : Nat) :
    isReserved (candidate base n) = false := by
  obtain ⟨ds, hds, hdigit⟩ := toList_candidate base n
  have hletter : ∀ d ∈ ds, d ≠ 'm' ∧ d ≠ 'M' ∧ d ≠ 'l' ∧ d ≠ 'L' := by
    intro d hd
    have hd := hdigit d hd
    refine ⟨?_, ?_, ?_, ?_⟩ <;> rintro rfl <;> exact absurd hd (by decide)
  rw [Bool.eq_false_iff, isReserved, hds]
  intro hreserved
  obtain ⟨hne, hlower, hxml⟩ := h
  generalize base.toList = cs at hne hlower hxml hreserved
  rcases cs with _ | ⟨a, _ | ⟨b, _ | ⟨c, cs⟩⟩⟩
  · exact absurd rfl hne
  · -- the second character is a digit
    rcases ds with _ | ⟨d, _ | ⟨d', ds⟩⟩
    · cases hreserved
    · cases hreserved
    · have hd := hletter d (List.mem_cons_self ..)
      simp [hd.1, hd.2.1] at hreserved
  · -- the third character is a digit
    rcases ds with _ | ⟨d, ds⟩
    · cases hreserved
    · have hd := hletter d (List.mem_cons_self ..)
      simp [hd.2.2.1, hd.2.2.2] at hreserved
  have ha : a ≠ 'X' := fun heq => hlower a (by simp) (heq ▸ by decide)
  have hb : b ≠ 'M' := fun heq => hlower b (by simp) (heq ▸ by decide)
  have hc : c ≠ 'L' := fun heq => hlower c (by simp) (heq ▸ by decide)
  simp only [List.cons_append, ha, hb, hc, decide_false, Bool.or_false, Bool.and_eq_true,
    decide_eq_true_iff] at hreserved
  obtain ⟨⟨rfl, rfl⟩, rfl⟩ := hreserved
  simp at hxml

/-! ### Making up a prefix -/

theorem IsBase.mem_of_isSome (h : IsBase base.toList) {n : Nat}
    (hsome : (s.nsForPrefix (candidate base n)).isSome) :
    candidate base n ∈ s.entries.map (·.1) := by
  rw [nsForPrefix, h.not_isReserved n, if_neg Bool.false_ne_true] at hsome
  split at hsome
  next entry hentry =>
    have hmem := List.mem_reverse.mp (List.mem_of_find?_eq_some hentry)
    have hpre := List.find?_some hentry
    rw [decide_eq_true_iff] at hpre
    exact List.mem_map.mpr ⟨entry, hmem, hpre⟩
  · rw [if_neg (h.candidate_ne_empty n)] at hsome
    cases hsome

theorem IsBase.exists_free (h : IsBase base.toList) (s : XmlnsStack) :
    ∃ n ≤ s.entries.length, s.nsForPrefix (candidate base n) = none := by
  by_contra hnone
  push Not at hnone
  have hnodup : ((List.range (s.entries.length + 1)).map (candidate base)).Nodup :=
    List.Nodup.map (candidate_injective base) List.nodup_range
  have hsubset : (List.range (s.entries.length + 1)).map (candidate base) ⊆ s.entries.map (·.1) := by
    intro pre hpre
    obtain ⟨n, hn, rfl⟩ := List.mem_map.mp hpre
    have hle := Nat.lt_succ_iff.mp (List.mem_range.mp hn)
    exact h.mem_of_isSome (Option.isSome_iff_ne_none.mpr (hnone n hle))
  have hle := List.Nodup.length_le_of_subset hnodup hsubset
  rw [List.length_map, List.length_map, List.length_range] at hle
  omega

theorem tryPrefixes_of_find {rounds : Nat}
    (hpre : (s.newPrefixes base).find? (fun pre => (s.nsForPrefix pre).isNone) = some pre)
    (hrounds : s.entries.length < rounds) : s.tryPrefixes base rounds 2 base = some pre := by
  obtain ⟨k, rfl⟩ := Nat.exists_eq_add_of_le (Nat.succ_le_of_lt hrounds)
  have hcut : ((List.range (s.entries.length + 1 + k)).map fun i => candidate base (0 + i)) =
      s.newPrefixes base ++ (List.range k).map fun i => candidate base (s.entries.length + 1 + i) := by
    simp only [Nat.zero_add]
    rw [newPrefixes_eq, List.range_add, List.map_append, List.map_map]
    rfl
  have hloop := tryPrefixes_candidate s base (s.entries.length + 1 + k) 0
  rw [hcut, List.find?_append, hpre] at hloop
  exact hloop

theorem IsBase.exists_new (h : IsBase base.toList) (s : XmlnsStack) :
    ∃ pre, (s.newPrefixes base).find? (fun pre => (s.nsForPrefix pre).isNone) = some pre ∧
      s.nsForPrefix pre = none ∧ isReserved pre = false ∧ pre ≠ "" := by
  obtain ⟨n, hn, hfree⟩ := h.exists_free s
  have hfound : ((s.newPrefixes base).find? fun pre => (s.nsForPrefix pre).isNone).isSome := by
    rw [List.find?_isSome]
    refine ⟨candidate base n, ?_, by rw [hfree]; rfl⟩
    rw [newPrefixes_eq]
    exact List.mem_map_of_mem (List.mem_range.mpr (Nat.lt_succ_of_le hn))
  obtain ⟨pre, hpre⟩ := Option.isSome_iff_exists.mp hfound
  have hfree := List.find?_some hpre
  have hmem := List.mem_of_find?_eq_some hpre
  rw [newPrefixes_eq] at hmem
  obtain ⟨m, -, rfl⟩ := List.mem_map.mp hmem
  exact ⟨candidate base m, hpre, Option.isNone_iff_eq_none.mp hfree, h.not_isReserved m,
    h.candidate_ne_empty m⟩

theorem addNewPrefix_of_none (hnone : s.prefixForNs ns isAttr = none) :
    ∃ pre, s.addNewPrefix ns isAttr = (some pre, s.addXmlns pre ns) ∧
      s.nsForPrefix pre = none ∧ isReserved pre = false ∧ pre ≠ "" ∧
      ∀ rounds > s.entries.length,
        s.tryPrefixes (suggestPrefix ns) rounds 2 (suggestPrefix ns) = some pre := by
  obtain ⟨pre, hpre, hfree⟩ := (isBase_suggestPrefix ns).exists_new s
  refine ⟨pre, ?_, hfree.1, hfree.2.1, hfree.2.2, fun rounds => tryPrefixes_of_find hpre⟩
  rw [addNewPrefix, hnone]
  simp only [Option.isSome_none, Bool.false_eq_true, if_false, hpre, Option.getD_some]

/-! ### What stays -/

theorem nsForPrefix_addXmlns_of_ne (hne : pre ≠ pre') :
    (s.addXmlns pre ns).nsForPrefix pre' = s.nsForPrefix pre' := by
  by_cases hreserved : isReserved pre' = true
  · exact nsForPrefix_of_isReserved hreserved _ _
  · rw [nsForPrefix_addXmlns (Bool.eq_false_iff.mpr hreserved), if_neg hne]

theorem nsForPrefix_addXmlns_of_free (hfree : s.nsForPrefix pre = none) (h : s.nsForPrefix pre' = some ns') :
    (s.addXmlns pre ns).nsForPrefix pre' = some ns' := by
  rw [nsForPrefix_addXmlns_of_ne, h]
  rintro rfl
  rw [hfree] at h
  cases h

theorem ne_of_free (hreserved : isReserved pre = false) (hfree : s.nsForPrefix pre = none)
    (hmem : entry ∈ s.entries) : pre ≠ entry.1 := by
  rintro rfl
  rw [nsForPrefix, hreserved, if_neg Bool.false_ne_true] at hfree
  split at hfree
  · cases hfree
  next hnone =>
    have hkey := List.find?_eq_none.mp hnone entry (List.mem_reverse.mpr hmem)
    exact hkey (decide_eq_true rfl)

theorem unprefixed_addXmlns (hne : pre ≠ "") :
    (s.addXmlns pre ns).Unprefixed ns' isAttr' ↔ s.Unprefixed ns' isAttr' := by
  cases isAttr' with
  | true => rfl
  | false =>
    rw [Unprefixed, Unprefixed, if_neg Bool.false_ne_true, if_neg Bool.false_ne_true, prefixMatchesNs_iff,
      prefixMatchesNs_iff, nsForPrefix_addXmlns_of_ne hne]

/-- A prefix that was found, for elements or for attributes, is still found behind the new one: it is for
another namespace, or it would have been found at the first question. -/
theorem prefixForNs_addXmlns (hnone : s.prefixForNs ns isAttr = none) (hfree : s.nsForPrefix pre = none)
    (hreserved : isReserved pre = false) (hne : pre ≠ "") (h : s.prefixForNs ns' isAttr' = some pre') :
    (s.addXmlns pre ns).prefixForNs ns' isAttr' = some pre' := by
  by_cases hxml : ns' = nsXml
  · rw [prefixForNs, if_pos hxml] at h ⊢
    exact h
  by_cases hxmlns : ns' = nsXmlns
  · rw [prefixForNs, if_neg hxml, if_pos hxmlns] at h ⊢
    exact h
  by_cases hdefault : s.Unprefixed ns' isAttr'
  · rw [prefixForNs_of_unprefixed hxml hxmlns hdefault] at h
    rw [prefixForNs_of_unprefixed hxml hxmlns ((unprefixed_addXmlns hne).mpr hdefault), h]
  rw [prefixForNs_of_not_unprefixed hxml hxmlns hdefault] at h
  rw [prefixForNs_of_not_unprefixed hxml hxmlns (mt (unprefixed_addXmlns hne).mp hdefault)]
  obtain ⟨found, hfound, rfl⟩ := Option.map_eq_some_iff.mp h
  have hmem := List.mem_reverse.mp (List.mem_of_find?_eq_some hfound)
  obtain ⟨hns, hattr, hresolves⟩ := declares_iff.mp (List.find?_some hfound)
  have hnamed : found.1 ≠ "" := by
    intro hempty
    rw [hempty] at hresolves hattr
    refine hdefault ?_
    cases isAttr' with
    | true => exact absurd rfl (hattr rfl)
    | false => exact prefixMatchesNs_iff.mpr hresolves
  have hother : ns ≠ ns' := by
    rintro rfl
    have hdeclares : s.declares ns isAttr found = true :=
      declares_iff.mpr ⟨hns, fun _ => hnamed, hresolves⟩
    have hsome := prefixForNs_isSome_of_mem hmem hdeclares
    rw [hnone] at hsome
    cases hsome
  have hlast : (s.addXmlns pre ns).entries.reverse = (pre, ns) :: s.entries.reverse :=
    List.reverse_concat ..
  have hnew : (s.addXmlns pre ns).declares ns' isAttr' (pre, ns) = false := by
    rw [Bool.eq_false_iff]
    exact fun hdeclares => hother (declares_iff.mp hdeclares).1
  have hsame : ∀ entry ∈ s.entries.reverse,
      (s.addXmlns pre ns).declares ns' isAttr' entry = s.declares ns' isAttr' entry := by
    intro entry hentry
    have hkey := ne_of_free hreserved hfree (List.mem_reverse.mp hentry)
    rw [Bool.eq_iff_iff, declares_iff, declares_iff, nsForPrefix_addXmlns_of_ne hkey]
  rw [hlast, List.find?_cons, hnew]
  rw [List.find?_congr hsame, hfound]
  rfl

/-! ### Runs -/

/-- What is done to a stack. -/
inductive Op
  | pushFrame
  | addXmlns (pre ns : String)
  | addNewPrefix (ns : String) (isAttr : Bool)
  | popFrame

/-- It is done. There is nothing to pop where no frame was pushed. -/
def step (s : XmlnsStack) : Op → Option XmlnsStack
  | .pushFrame => some s.pushFrame
  | .addXmlns pre ns => some (s.addXmlns pre ns)
  | .addNewPrefix ns isAttr => some (s.addNewPrefix ns isAttr).2
  | .popFrame => if s.depths = [] then none else some s.popFrame

/-- Every frame that is pushed is popped, and no other. -/
inductive Matched : List Op → Prop
  | nil : Matched []
  | addXmlns {ops : List Op} (pre ns : String) (h : Matched ops) : Matched (.addXmlns pre ns :: ops)
  | addNewPrefix {ops : List Op} (ns : String) (isAttr : Bool) (h : Matched ops) :
    Matched (.addNewPrefix ns isAttr :: ops)
  | frame {ops ops' : List Op} (h : Matched ops) (h' : Matched ops') :
    Matched (.pushFrame :: ops ++ .popFrame :: ops')

theorem exists_addNewPrefix (ns : String) (isAttr : Bool) (s : XmlnsStack) :
    ∃ added, (s.addNewPrefix ns isAttr).2 = { s with entries := s.entries ++ added } := by
  rw [addNewPrefix]
  split
  · exact ⟨[], by rw [List.append_nil]⟩
  · exact ⟨_, rfl⟩

theorem step_popFrame (s : XmlnsStack) (added : List (String × String)) :
    step { s.pushFrame with entries := s.entries ++ added } .popFrame = some s := by
  have hdepths : s.pushFrame.depths = s.depths ++ [s.entries.length] := rfl
  rw [step, if_neg (by rw [hdepths]; exact List.concat_ne_nil _ _), popFrame]
  simp only [hdepths, List.getLast?_concat, List.take_left, List.dropLast_concat]

theorem Matched.run {ops : List Op} (h : Matched ops) (s : XmlnsStack) :
    ∃ added, Runs.run step s ops = some { s with entries := s.entries ++ added } := by
  induction h generalizing s with
  | nil => exact ⟨[], by rw [List.append_nil]; rfl⟩
  | addXmlns pre ns h ih =>
    obtain ⟨added, hadded⟩ := ih (s.addXmlns pre ns)
    refine ⟨(pre, ns) :: added, hadded.trans ?_⟩
    rw [XmlnsStack.addXmlns, List.append_assoc]
    rfl
  | addNewPrefix ns isAttr h ih =>
    obtain ⟨new, hnew⟩ := exists_addNewPrefix ns isAttr s
    obtain ⟨added, hadded⟩ := ih { s with entries := s.entries ++ new }
    refine ⟨new ++ added, ?_⟩
    rw [Runs.run, step, hnew, Option.bind_some, hadded, List.append_assoc]
  | @frame ops ops' h h' ih ih' =>
    obtain ⟨inner, hinner⟩ := ih s.pushFrame
    obtain ⟨added, hadded⟩ := ih' s
    refine ⟨added, ?_⟩
    have hpop : Runs.run step s (.pushFrame :: ops ++ .popFrame :: ops') = Runs.run step s ops' := by
      rw [Runs.run_append, Runs.run, step, Option.bind_some, hinner, Option.bind_some, Runs.run]
      exact congrArg (·.bind fun t => Runs.run step t ops') (step_popFrame s inner)
    rw [hpop, hadded]

/-- Prefixes resolve back to the namespaces they are found for, but that an attribute without one has no prefix.
A prefix can always be made up, hides nothing that was found before, and is found. Popping a frame leaves what
was there when it was pushed. -/
theorem prefixes_resolve (s : XmlnsStack) : (∀ ns isAttr pre, s.prefixForNs ns isAttr = some pre →
        (isAttr = true ∧ ns = "" ∧ pre = "" ∨ s.nsForPrefix pre = some ns) ∧
          (isAttr = true → pre = "" → ns = "")) ∧
      (∀ ns isAttr, s.prefixForNs ns isAttr = none → ∃ pre,
        (∀ rounds > s.entries.length,
          s.tryPrefixes (suggestPrefix ns) rounds 2 (suggestPrefix ns) = some pre) ∧
        s.addNewPrefix ns isAttr = (some pre, s.addXmlns pre ns)) ∧
      (∀ ns isAttr s', (s.addNewPrefix ns isAttr).2 = s' →
        (s'.prefixForNs ns isAttr).isSome ∧
        (∀ pre ns', s.nsForPrefix pre = some ns' → s'.nsForPrefix pre = some ns') ∧
        ∀ ns' isAttr' pre, s.prefixForNs ns' isAttr' = some pre → s'.prefixForNs ns' isAttr' = some pre) ∧
      ∀ inner, Matched inner → Runs.run step s (.pushFrame :: inner ++ [.popFrame]) = some s := by
  refine ⟨fun ns isAttr pre h => ?_, fun ns isAttr h => ?_, ?_, fun inner h => ?_⟩
  · rcases prefixForNs_eq_some h with hno | ⟨hns, hne⟩
    · exact ⟨.inl hno, fun _ _ => hno.2.1⟩
    · exact ⟨.inr hns, fun hattr hempty => absurd hempty (hne hattr)⟩
  · obtain ⟨pre, hnew, -, -, -, hloop⟩ := addNewPrefix_of_none h
    exact ⟨pre, hloop, hnew⟩
  · rintro ns isAttr s' rfl
    cases hnone : s.prefixForNs ns isAttr with
    | some pre =>
      rw [addNewPrefix, if_pos (by rw [hnone]; rfl)]
      exact ⟨by rw [hnone]; rfl, fun _ _ h => h, fun _ _ _ h => h⟩
    | none =>
      obtain ⟨pre, hnew, hfree, hreserved, hne, -⟩ := addNewPrefix_of_none hnone
      rw [hnew]
      refine ⟨?_, fun _ _ h => nsForPrefix_addXmlns_of_free hfree h,
        fun _ _ _ h => prefixForNs_addXmlns hnone hfree hreserved hne h⟩
      have hmem : (pre, ns) ∈ (s.addXmlns pre ns).entries :=
        List.mem_append_right _ (List.mem_singleton.mpr rfl)
      refine prefixForNs_isSome_of_mem hmem (declares_iff.mpr ⟨rfl, fun _ => hne, ?_⟩)
      rw [nsForPrefix_addXmlns hreserved, if_pos rfl]
  · obtain ⟨added, hadded⟩ := h.run s.pushFrame
    rw [Runs.run_append, Runs.run, step, Option.bind_some, hadded, Option.bind_some, Runs.run]
    exact congrArg (·.bind fun t => Runs.run step t []) (step_popFrame s added)

/-- An attribute without a namespace has no prefix, and the default namespace is another one. -/
theorem not_resolves_attribute : ¬ ∀ (ops : List Op) (s : XmlnsStack), Runs.run step empty ops = some s →
      ∀ ns isAttr pre, s.prefixForNs ns isAttr = some pre → s.nsForPrefix pre = some ns := by
  intro h
  exact absurd (h [.addXmlns "" "a"] ⟨[("", "a")], []⟩ rfl "" true "" (by decide)) (by decide)

end Synciga.XmlnsStack
