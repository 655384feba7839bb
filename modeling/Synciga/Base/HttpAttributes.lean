import Synciga.Base.ScannedNumbers

/-!
# Attributes of HTTP headers

The attributes of a header are written with a comma and a blank between them, and a value that is not empty in
quotes (`talk/base/httpcommon.cc`). A name ends at white space or an equals sign, and not at a comma, so that
the comma behind an attribute without a value is read as a part of its name.

## Main results

* `httpParseAttributes_compose_iff` — which lists are read as they were written
-/

namespace Synciga.TalkBase

/-! ### Writing -/

/-- An attribute of a header: its name, and its value. -/
abbrev HttpAttribute := List UInt8 × List UInt8

/-- The loop of `escape`, with room for `buflen` bytes. `strchr` finds the byte zero in every text. -/
def escapeLoop (buflen : ℕ) (illegal : List UInt8) (escape : UInt8) :
    List UInt8 → List UInt8 → List UInt8
  | [], buffer => buffer
  | ch :: source, buffer =>
    if buflen ≤ buffer.length + 1 then buffer
    else if ch = escape ∨ ch ∈ illegal ∨ ch = 0 then
      if buflen ≤ buffer.length + 2 then buffer
      else escapeLoop buflen illegal escape source (buffer ++ [escape, ch])
    else escapeLoop buflen illegal escape source (buffer ++ [ch])

/-- `EscapeAttribute`: quotes and backslashes get a backslash in front. -/
def escapeAttribute (value : List UInt8) : List UInt8 :=
  escapeLoop (value.length * 2 + 1) [34] 92 value []

/-- What is written behind a name. -/
def composeValue (value : List UInt8) : List UInt8 :=
  if value = [] then [] else 61 :: 34 :: (escapeAttribute value ++ [34])

/-- `HttpComposeAttributes`. -/
def httpComposeAttributes (separator : UInt8) : List HttpAttribute → List UInt8
  | [] => []
  | [(name, value)] => name ++ composeValue value
  | (name, value) :: next :: attributes =>
    name ++ (composeValue value ++ separator :: 32 :: httpComposeAttributes separator (next :: attributes))

/-! ### Reading -/

/-- White space, or an equals sign with something behind it that is neither white space nor another one. -/
def isEndOfAttributeName : List UInt8 → Bool
  | [] => true
  | [c] => isSpaceByte c
  | c :: next :: _ => isSpaceByte c || (c = 61 && !isSpaceByte next && next ≠ 61)

/-- The name of an attribute, and what is behind it. -/
def attributeName : List UInt8 → List UInt8 × List UInt8
  | [] => ([], [])
  | c :: data =>
    if isEndOfAttributeName (c :: data) then ([], c :: data)
    else (c :: (attributeName data).1, (attributeName data).2)

/-- A value behind its opening quote. -/
def quotedValue : List UInt8 → List UInt8 × List UInt8
  | [] => ([], [])
  | [c] => if c = 34 then ([], []) else ([c], [])
  | c :: next :: data =>
    if c = 34 then ([], next :: data)
    else if c = 92 then (next :: (quotedValue data).1, (quotedValue data).2)
    else (c :: (quotedValue (next :: data)).1, (quotedValue (next :: data)).2)

/-- What is read of a value, and what is behind it. -/
def attributeValue : List UInt8 → List UInt8 × List UInt8
  | 61 :: 34 :: data => quotedValue data
  | 61 :: data => data.span fun c => !isSpaceByte c && c ≠ 44
  | data => ([], data)

/-- A comma is skipped. -/
def skipComma : List UInt8 → List UInt8
  | 44 :: data => data
  | data => data

/-- The loop of `HttpParseAttributes`, with a bound on its rounds. -/
def parseAttributesLoop : ℕ → List UInt8 → Option (List HttpAttribute)
  | 0, _ => none
  | fuel + 1, data =>
    if data.dropWhile isSpaceByte = [] then some []
    else
      let (name, data) := attributeName (data.dropWhile isSpaceByte)
      let (value, data) := attributeValue data
      (parseAttributesLoop fuel (skipComma data)).map ((name, value) :: ·)

/-- `HttpParseAttributes`. Nothing stands for a loop that does not end. -/
def httpParseAttributes (data : List UInt8) : Option (List HttpAttribute) :=
  parseAttributesLoop (data.length + 1) data

/-! ### What is read of what was written -/

/-- A name: white space, equals signs, commas and quotes do not occur. -/
def IsToken (name : List UInt8) : Prop :=
  name ≠ [] ∧ ∀ c ∈ name, isSpaceByte c = false ∧ c ≠ 61 ∧ c ≠ 44 ∧ c ≠ 34

/-- A byte of a value, as it is written. -/
def quoted (c : UInt8) : List UInt8 := if c = 92 ∨ c = 34 ∨ c = 0 then [92, c] else [c]

theorem escapeLoop_eq {buflen : ℕ} (source buffer : List UInt8)
    (hroom : buffer.length + 2 * source.length < buflen) :
    escapeLoop buflen [34] 92 source buffer = buffer ++ source.flatMap quoted := by
  induction source generalizing buffer with
  | nil => rw [escapeLoop, List.flatMap_nil, List.append_nil]
  | cons c source ih =>
    rw [List.length_cons] at hroom
    have hone : ¬buflen ≤ buffer.length + 1 := by omega
    have htwo : ¬buflen ≤ buffer.length + 2 := by omega
    rw [escapeLoop, if_neg hone, if_neg htwo, List.flatMap_cons, quoted, ← List.append_assoc]
    simp only [List.mem_singleton]
    split
    · exact ih _ (by simp; omega)
    · exact ih _ (by simp; omega)

theorem quotedValue_append (value data : List UInt8) :
    quotedValue (value.flatMap quoted ++ 34 :: data) = (value, data) := by
  induction value with
  | nil => cases data <;> simp [quotedValue]
  | cons c value ih =>
    rw [List.flatMap_cons, quoted]
    split
    · simp [quotedValue, ih]
    · rename_i hplain
      obtain ⟨next, rest, hnext⟩ : ∃ next rest, value.flatMap quoted ++ 34 :: data = next :: rest :=
        List.exists_cons_of_ne_nil (by simp)
      rw [not_or, not_or] at hplain
      rw [List.append_assoc, hnext, List.singleton_append, quotedValue, ← hnext, ih, if_neg hplain.2.1,
        if_neg hplain.1]

theorem attributeValue_append {value : List UInt8} (hvalue : value ≠ []) (data : List UInt8) :
    attributeValue (composeValue value ++ data) = (value, data) := by
  have hescape : escapeAttribute value = value.flatMap quoted :=
    escapeLoop_eq value [] (by rw [List.length_nil]; omega)
  rw [composeValue, if_neg hvalue, hescape, List.cons_append, List.cons_append, List.append_assoc]
  exact quotedValue_append value data

theorem attributeName_append {name data : List UInt8}
    (hname : ∀ c ∈ name, isSpaceByte c = false ∧ c ≠ 61) (hend : isEndOfAttributeName data = true) :
    attributeName (name ++ data) = (name, data) := by
  induction name with
  | nil =>
    cases data with
    | nil => rfl
    | cons c data => rw [List.nil_append, attributeName, if_pos hend]
  | cons c name ih =>
    have hgoes : isEndOfAttributeName (c :: (name ++ data)) = false := by
      rw [isEndOfAttributeName.eq_def]
      split <;> simp_all
    rw [List.cons_append, attributeName, hgoes, ih fun c hc => hname c (List.mem_cons_of_mem _ hc)]
    rfl

theorem parseAttributesLoop_of_name {fuel : ℕ} {name value text data rest : List UInt8} (hne : name ≠ [])
    (hname : ∀ c ∈ name, isSpaceByte c = false ∧ c ≠ 61) (hend : isEndOfAttributeName data = true)
    (hvalue : attributeValue data = (value, rest)) (htext : text.dropWhile isSpaceByte = name ++ data) :
    parseAttributesLoop (fuel + 1) text =
      (parseAttributesLoop fuel (skipComma rest)).map ((name, value) :: ·) := by
  rw [parseAttributesLoop, htext, if_neg (by simp [hne]), attributeName_append hname hend]
  dsimp only
  rw [hvalue]

theorem isEndOfAttributeName_value {value : List UInt8} (hvalue : value ≠ []) (data : List UInt8) :
    isEndOfAttributeName (composeValue value ++ data) = true := by
  rw [composeValue, if_neg hvalue]
  rfl

/-- What is read: the comma belongs to the name where there is no value. -/
def withComma : List HttpAttribute → List HttpAttribute
  | [] => []
  | [(name, value)] => [(name, value)]
  | (name, value) :: next :: attributes =>
    (if value = [] then (name ++ [44], []) else (name, value)) :: withComma (next :: attributes)

theorem withComma_eq_iff (attributes : List HttpAttribute) :
    withComma attributes = attributes ↔ ∀ a ∈ attributes.dropLast, a.2 ≠ [] := by
  fun_induction withComma attributes with
  | case1 => simp
  | case2 name value => simp
  | case3 name value next attributes ih =>
    rw [List.dropLast_cons_cons, List.forall_mem_cons, ← ih, List.cons.injEq]
    refine and_congr_left' ?_
    split
    case isTrue hvalue => simp [hvalue]
    case isFalse hvalue => simp [hvalue]

theorem dropWhile_compose {attributes : List HttpAttribute} (h : ∀ a ∈ attributes, IsToken a.1) :
    (httpComposeAttributes 44 attributes).dropWhile isSpaceByte = httpComposeAttributes 44 attributes := by
  have hname (name data : List UInt8) (hname : IsToken name) :
      (name ++ data).dropWhile isSpaceByte = name ++ data := by
    cases name with
    | nil => exact absurd rfl hname.1
    | cons c name =>
      rw [List.cons_append, List.dropWhile_cons_of_neg]
      exact (hname.2 c List.mem_cons_self).1 ▸ Bool.false_ne_true
  fun_cases httpComposeAttributes 44 attributes with
  | case1 => rfl
  | case2 name value => exact hname _ _ (h _ List.mem_cons_self)
  | case3 name value next attributes => exact hname _ _ (h _ List.mem_cons_self)

theorem parseAttributesLoop_compose {attributes : List HttpAttribute} {fuel : ℕ} {text : List UInt8}
    (h : ∀ a ∈ attributes, IsToken a.1) (hfuel : attributes.length < fuel)
    (htext : text.dropWhile isSpaceByte = httpComposeAttributes 44 attributes) :
    parseAttributesLoop fuel text = some (withComma attributes) := by
  obtain ⟨fuel, rfl⟩ := Nat.exists_eq_succ_of_ne_zero (Nat.ne_zero_of_lt hfuel)
  induction attributes generalizing fuel text with
  | nil => exact if_pos htext
  | cons a attributes ih =>
    obtain ⟨name, value⟩ := a
    obtain ⟨⟨hne, htoken⟩, hrest⟩ := List.forall_mem_cons.mp h
    have hname : ∀ c ∈ name, isSpaceByte c = false ∧ c ≠ 61 :=
      fun c hc => ⟨(htoken c hc).1, (htoken c hc).2.1⟩
    obtain ⟨fuel, rfl⟩ : ∃ k, fuel = k + 1 :=
      Nat.exists_eq_succ_of_ne_zero fun hzero => by simp [hzero] at hfuel
    cases attributes with
    | nil =>
      rw [httpComposeAttributes] at htext
      by_cases hvalue : value = []
      · rw [hvalue] at htext ⊢
        rw [parseAttributesLoop_of_name hne hname rfl rfl htext]
        rfl
      · rw [← List.append_nil (composeValue value)] at htext
        rw [parseAttributesLoop_of_name hne hname (isEndOfAttributeName_value hvalue [])
          (attributeValue_append hvalue []) htext]
        rfl
    | cons next attributes =>
      rw [httpComposeAttributes] at htext
      generalize hbehind : httpComposeAttributes 44 (next :: attributes) = behind at htext
      have hskip : (32 :: behind).dropWhile isSpaceByte = httpComposeAttributes 44 (next :: attributes) := by
        rw [← hbehind]
        exact dropWhile_compose hrest
      have hnext := ih hrest hskip fuel (by simpa using hfuel)
      rw [withComma]
      split
      case isTrue hvalue =>
        have hcomma : ∀ c ∈ name ++ [44], isSpaceByte c = false ∧ c ≠ 61 := by
          simpa [or_imp, forall_and] using ⟨⟨fun c hc => (hname c hc).1, rfl⟩, fun c hc => (hname c hc).2⟩
        rw [hvalue, composeValue, if_pos rfl, List.nil_append, ← List.singleton_append,
          ← List.append_assoc] at htext
        rw [parseAttributesLoop_of_name (by simp) hcomma (by cases behind <;> rfl) rfl htext]
        exact congrArg (Option.map _) hnext
      case isFalse hvalue =>
        rw [parseAttributesLoop_of_name hne hname (isEndOfAttributeName_value hvalue _)
          (attributeValue_append hvalue _) htext]
        exact congrArg (Option.map _) hnext

theorem length_le_compose {attributes : List HttpAttribute} (h : ∀ a ∈ attributes, IsToken a.1) :
    attributes.length ≤ (httpComposeAttributes 44 attributes).length := by
  fun_induction httpComposeAttributes 44 attributes with
  | case1 => exact le_rfl
  | case2 name value =>
    have hpos := List.length_pos_iff.mpr (h _ List.mem_cons_self).1
    simp at hpos ⊢
    omega
  | case3 name value next attributes ih =>
    have hle := ih fun a ha => h a (List.mem_cons_of_mem _ ha)
    simp at hle ⊢
    omega

/-- **When attributes are read as they were written.** Every one but the last one has a value. -/
theorem httpParseAttributes_compose_iff (attributes : List HttpAttribute)
    (h : ∀ a ∈ attributes, IsToken a.1) :
    httpParseAttributes (httpComposeAttributes 44 attributes) = some attributes ↔
      ∀ a ∈ attributes.dropLast, a.2 ≠ [] := by
  have hread := parseAttributesLoop_compose h (Nat.lt_succ_of_le (length_le_compose h)) (dropWhile_compose h)
  rw [httpParseAttributes, hread, Option.some_inj, withComma_eq_iff]

/-- `a="\"", b` -/
theorem httpParseAttributes_compose_quote :
    httpParseAttributes (httpComposeAttributes 44 [([97], [34]), ([98], [])]) =
      some [([97], [34]), ([98], [])] :=
  (httpParseAttributes_compose_iff [([97], [34]), ([98], [])]
    (by simp [IsToken, isSpaceByte])).mpr (by decide)

/-- Two attributes without values. -/
theorem httpParseAttributes_compose_twoNames :
    ¬∀ attributes : List HttpAttribute, (∀ a ∈ attributes, IsToken a.1) →
      httpParseAttributes (httpComposeAttributes 44 attributes) = some attributes := by
  intro h
  have hread := h [([97], []), ([98], [])] (by simp [IsToken, isSpaceByte])
  exact absurd hread (by decide)

end Synciga.TalkBase
