import Mathlib.Data.List.TakeWhile
import Synciga.Base.ScannedNumbers
import Synciga.Base.SocketAddress

/-!
# The text of a socket address

`SocketAddress::ToString` prints the hostname, or the IP address in brackets if it has colons, and the port, and
`FromString` looks for these parts again. `inet_ntop` and `inet_pton` are a parameter. A hostname is printed
although it was resolved, so that the IP address does not come back.

## Main results

* `textFormat` — what is printed is read, and which address comes back
-/

namespace Synciga.TalkBase

/-! ### IP addresses -/

/-- The functions of the system. -/
structure InetTexts where
  /-- `inet_ntop` for `AF_INET`. -/
  ntop4 : UInt32 → List UInt8
  /-- `inet_ntop` for `AF_INET6`. -/
  ntop6 : UInt32 → UInt32 → UInt32 → UInt32 → List UInt8
  /-- `inet_pton` for `AF_INET`. -/
  pton4 : List UInt8 → Option UInt32
  /-- `inet_pton` for `AF_INET6`. -/
  pton6 : List UInt8 → Option (UInt32 × UInt32 × UInt32 × UInt32)

/-- What is documented: an address comes back from its text, which is in the dotted form or has
colons and hexadecimal digits. -/
structure InetTexts.Documented (texts : InetTexts) : Prop where
  pton4_ntop4 : ∀ w, texts.pton4 (texts.ntop4 w) = some w
  pton6_ntop6 : ∀ w₀ w₁ w₂ w₃, texts.pton6 (texts.ntop6 w₀ w₁ w₂ w₃) = some (w₀, w₁, w₂, w₃)
  pton4_ntop6 : ∀ w₀ w₁ w₂ w₃, texts.pton4 (texts.ntop6 w₀ w₁ w₂ w₃) = none
  ntop4_mem : ∀ w, ∀ b ∈ texts.ntop4 w, (digitOf 10 b).isSome ∨ b = 46
  ntop6_mem : ∀ w₀ w₁ w₂ w₃, ∀ b ∈ texts.ntop6 w₀ w₁ w₂ w₃, (digitOf 16 b).isSome ∨ b = 58 ∨ b = 46
  pton4_nil : texts.pton4 [] = none
  pton6_nil : texts.pton6 [] = none

section Texts

variable (texts : InetTexts)

/-- `IPAddress::ToString`. -/
def ipToString : IPAddress → List UInt8
  | .unspec => []
  | .ipv4 w => texts.ntop4 w
  | .ipv6 w₀ w₁ w₂ w₃ => texts.ntop6 w₀ w₁ w₂ w₃

/-- `IPFromString`. What is behind a zero byte is not looked at. -/
def ipFromString (str : List UInt8) : Option IPAddress :=
  let text := str.takeWhile (· ≠ 0)
  match texts.pton4 text with
  | some w => some (.ipv4 w)
  | none => (texts.pton6 text).map fun w => .ipv6 w.1 w.2.1 w.2.2.1 w.2.2.2

/-! ### The functions -/

namespace SocketAddress

variable (a : SocketAddress)

/-- `SetPort` of what `strtoul` returned. An `int` is made of it, and then 16 bits. -/
def setPort (port : ℕ) : SocketAddress := { a with port := UInt16.ofNat port }

/-- `SetIP`. -/
def setIP (hostname : List UInt8) : SocketAddress :=
  { a with
    hostname := hostname
    literal := (ipFromString texts hostname).isSome
    ip := (ipFromString texts hostname).getD .unspec
    scopeId := 0 }

/-- The hostname is printed. -/
def printsHostname : Bool := a.literal = false ∧ a.hostname ≠ []

/-- `HostAsURIString`. -/
def hostAsURIString : List UInt8 :=
  if a.printsHostname then a.hostname
  else
    match a.ip with
    | .ipv6 .. => [91] ++ ipToString texts a.ip ++ [93]
    | _ => ipToString texts a.ip

/-- `ToString`. -/
def toString : List UInt8 := hostAsURIString texts a ++ [58] ++ numeral 10 a.port.toNat

end SocketAddress

/-- `std::string::find` from a position on. -/
def findFrom (b : UInt8) (pos : ℕ) (str : List UInt8) : Option ℕ := ((str.drop pos).idxOf? b).map (pos + ·)

/-- The last place of a byte. -/
def rfind (b : UInt8) (str : List UInt8) : Option ℕ := (str.reverse.idxOf? b).map (str.length - 1 - ·)

/-- `FromString`, which throws `std::out_of_range` where there is no first byte. -/
def SocketAddress.fromString (a : SocketAddress) (str : List UInt8) : Option (Bool × SocketAddress) :=
  match str.head? with
  | none => none
  | some first =>
    if first = 91 then
      match rfind 93 str with
      | none => some (true, a)
      | some closebracket =>
        match findFrom 58 closebracket str with
        | none => some (false, a)
        | some colon =>
          some (true, (a.setPort (strtoulEnd 10 (str.drop (colon + 1))).1).setIP texts
            ((str.drop 1).take (closebracket - 1)))
    else
      match findFrom 58 0 str with
      | none => some (false, a)
      | some pos =>
        some (true, (a.setPort (strtoulEnd 10 (str.drop (pos + 1))).1).setIP texts (str.take pos))

/-! ### Texts of addresses -/

/-- Decimal digits, with a value that is a port. -/
def IsPortText (text : List UInt8) (port : UInt16) : Prop :=
  ∃ digits : List ℕ, digits ≠ [] ∧ (∀ d ∈ digits, d < 10) ∧ text = digits.map digitByte ∧
    digitsValue 10 digits = port.toNat

/-- `host:port`, or `[host]:port`. -/
def HasForm (str host : List UInt8) (port : UInt16) : Prop :=
  ∃ text, IsPortText text port ∧
    (58 ∉ host ∧ host.head? ≠ some 91 ∧ str = host ++ 58 :: text ∨ str = 91 :: (host ++ 93 :: 58 :: text))

/-- The address with this host and port. -/
def address (host : List UInt8) (port : UInt16) : SocketAddress where
  hostname := host
  ip := (ipFromString texts host).getD .unspec
  port := port
  literal := (ipFromString texts host).isSome

theorem isPortText_numeral (port : UInt16) : IsPortText (numeral 10 port.toNat) port :=
  ⟨numeralDigits 10 port.toNat, numeralDigits_ne_nil, numeralDigits_lt (by decide), rfl,
    digitsValue_numeralDigits⟩

variable {texts} {a b : SocketAddress} {str host text v w : List UInt8} {port : UInt16} {c : UInt8}

theorem strtoul_of_isPortText (h : IsPortText text port) : UInt16.ofNat (strtoulEnd 10 text).1 = port := by
  obtain ⟨digits, hne, hdigits, rfl, hvalue⟩ := h
  have hlt := port.toNat_lt
  have hscan : strtoulEnd 10 (digits.map digitByte ++ []) = _ := strtoulEnd_digits hne hdigits (by simp)
  rw [List.append_nil] at hscan
  rw [hscan, ofScanned_of_lt (by omega), hvalue, UInt16.ofNat_toNat]

theorem bracket_notMem_of_isPortText (h : IsPortText text port) : 93 ∉ text := by
  obtain ⟨digits, -, hdigits, rfl, -⟩ := h
  intro hmem
  obtain ⟨d, hd, hbyte⟩ := List.mem_map.mp hmem
  have hlt := hdigits d hd
  interval_cases d <;> simp [digitByte] at hbyte

theorem idxOf?_append_cons (h : c ∉ v) : (v ++ c :: w).idxOf? c = some v.length := by
  induction v with
  | nil => simp [List.idxOf?_cons]
  | cons b v ih =>
    obtain ⟨hb, hv⟩ := not_or.mp (mt List.mem_cons.mpr h)
    rw [List.cons_append, List.idxOf?_cons, if_neg (by simpa using Ne.symm hb), ih hv]
    rfl

theorem rfind_append_cons (h : c ∉ w) : rfind c (v ++ c :: w) = some v.length := by
  have hreverse : (v ++ c :: w).reverse = w.reverse ++ c :: v.reverse := by simp
  rw [rfind, hreverse, idxOf?_append_cons (List.mem_reverse.not.mpr h)]
  simp

theorem fromString_plain (hcolon : 58 ∉ host) (hopen : host.head? ≠ some 91) :
    a.fromString texts (host ++ 58 :: text) =
      some (true, (a.setPort (strtoulEnd 10 text).1).setIP texts host) := by
  have hfind : findFrom 58 0 (host ++ 58 :: text) = some host.length := by
    rw [findFrom, List.drop_zero, idxOf?_append_cons hcolon, Option.map_some, zero_add]
  have hport : (host ++ 58 :: text).drop (host.length + 1) = text := by simp
  obtain ⟨first, hfirst, hne⟩ : ∃ first, (host ++ 58 :: text).head? = some first ∧ first ≠ 91 := by
    cases host with
    | nil => exact ⟨58, rfl, by decide⟩
    | cons first host => exact ⟨first, rfl, fun h => hopen (by rw [h]; rfl)⟩
  rw [SocketAddress.fromString, hfirst]
  simp only [if_neg hne, hfind, hport, List.take_left]

theorem fromString_bracket (htext : 93 ∉ text) : a.fromString texts (91 :: (host ++ 93 :: 58 :: text)) =
    some (true, (a.setPort (strtoulEnd 10 text).1).setIP texts host) := by
  have hclose : rfind 93 (91 :: (host ++ 93 :: 58 :: text)) = some (host.length + 1) := by
    rw [← List.cons_append, rfind_append_cons (by simp [htext]), List.length_cons]
  have hcolon : findFrom 58 (host.length + 1) (91 :: (host ++ 93 :: 58 :: text)) =
      some (host.length + 2) := by
    rw [findFrom, List.drop_succ_cons, List.drop_left]
    simp [List.idxOf?_cons]
  have hport : (91 :: (host ++ 93 :: 58 :: text)).drop (host.length + 2 + 1) = text := by
    rw [List.drop_succ_cons, ← List.drop_drop, List.drop_left]
    rfl
  rw [SocketAddress.fromString, List.head?_cons]
  simp only [reduceIte, hclose, hcolon, hport, List.drop_succ_cons, List.drop_zero, Nat.add_sub_cancel,
    List.take_left]

theorem fromString_of_hasForm (h : HasForm str host port) :
    a.fromString texts str = some (true, address texts host port) := by
  obtain ⟨text, htext, hstr⟩ := h
  have haddress : (a.setPort (strtoulEnd 10 text).1).setIP texts host = address texts host port := by
    rw [SocketAddress.setIP, SocketAddress.setPort, strtoul_of_isPortText htext]
    rfl
  rw [← haddress]
  rcases hstr with ⟨hcolon, hopen, rfl⟩ | rfl
  · exact fromString_plain hcolon hopen
  · exact fromString_bracket (bracket_notMem_of_isPortText htext)

theorem eq_of_fromString_false (h : a.fromString texts str = some (false, b)) : b = a := by
  rw [SocketAddress.fromString] at h
  split at h
  · cases h
  split at h
  · split at h
    · cases h
    · split at h
      · cases h
        rfl
      · cases h
  · split at h
    · cases h
      rfl
    · cases h

/-! ### There and back -/

/-- A hostname that is printed has no byte that separates the parts. -/
def Printable (a : SocketAddress) : Prop := a.printsHostname → 58 ∉ a.hostname ∧ 91 ∉ a.hostname

instance (a : SocketAddress) : Decidable (Printable a) :=
  inferInstanceAs (Decidable (a.printsHostname → 58 ∉ a.hostname ∧ 91 ∉ a.hostname))

variable (texts) in
/-- The printed host stands for the IP address, and is the hostname where that counts. -/
def ComesBack (a : SocketAddress) : Prop :=
  if a.printsHostname then (ipFromString texts a.hostname).getD .unspec = a.ip
  else a.isAnyIP → a.hostname = ipToString texts a.ip

variable (texts) in
/-- The host that is read again. -/
def printedHost (a : SocketAddress) : List UInt8 :=
  if a.printsHostname then a.hostname else ipToString texts a.ip

theorem takeWhile_ne_zero (h : 0 ∉ v) : v.takeWhile (· ≠ 0) = v :=
  List.takeWhile_eq_self_iff.mpr fun b hb => by
    rw [decide_eq_true_eq]
    rintro rfl
    exact h hb

theorem ipFromString_ipToString (htexts : texts.Documented) (ip : IPAddress) :
    (ipFromString texts (ipToString texts ip)).getD .unspec = ip := by
  have hzero : 0 ∉ ipToString texts ip := by
    intro hmem
    cases ip with
    | unspec => exact List.not_mem_nil hmem
    | ipv4 w => exact absurd (htexts.ntop4_mem w 0 hmem) (by decide)
    | ipv6 w₀ w₁ w₂ w₃ => exact absurd (htexts.ntop6_mem w₀ w₁ w₂ w₃ 0 hmem) (by decide)
  rw [ipFromString, takeWhile_ne_zero hzero]
  cases ip with
  | unspec => simp only [ipToString, htexts.pton4_nil, htexts.pton6_nil, Option.map_none, Option.getD_none]
  | ipv4 w => simp only [ipToString, htexts.pton4_ntop4, Option.getD_some]
  | ipv6 w₀ w₁ w₂ w₃ =>
    simp only [ipToString, htexts.pton4_ntop6, htexts.pton6_ntop6, Option.map_some, Option.getD_some]

theorem hasForm_toString (htexts : texts.Documented) (h : Printable a) :
    HasForm (a.toString texts) (printedHost texts a) a.port := by
  refine ⟨numeral 10 a.port.toNat, isPortText_numeral a.port, ?_⟩
  rw [SocketAddress.toString, SocketAddress.hostAsURIString, printedHost]
  by_cases hprints : a.printsHostname
  · obtain ⟨hcolon, hopen⟩ := h hprints
    rw [if_pos hprints, if_pos hprints]
    refine .inl ⟨hcolon, fun hhead => hopen (List.mem_of_head? hhead), ?_⟩
    rw [List.append_assoc, List.singleton_append]
  rw [if_neg hprints, if_neg hprints]
  cases a.ip with
  | unspec => exact .inl ⟨List.not_mem_nil, by simp [ipToString], rfl⟩
  | ipv4 w =>
    refine .inl ⟨fun hmem => ?_, fun hhead => ?_, ?_⟩
    · exact absurd (htexts.ntop4_mem w 58 hmem) (by decide)
    · exact absurd (htexts.ntop4_mem w 91 (List.mem_of_head? hhead)) (by decide)
    · exact (List.append_assoc _ _ _).trans rfl
  | ipv6 w₀ w₁ w₂ w₃ => exact .inr (by simp)

end Texts

/-! ### Texts without abbreviations -/

variable (base : ℕ)

/-- A number with the digits of a base. -/
def readNumeral (text : List UInt8) : Option ℕ :=
  let (digits, rest) := scanDigits base text
  if digits ≠ [] ∧ rest = [] then some (digitsValue base digits) else none

/-- Numbers, and what stands between them. -/
def numeralsText (separator : UInt8) (numbers : List ℕ) : List UInt8 :=
  [separator].intercalate (numbers.map (numeral base))

/-- Numerals with separators between them. -/
def readNumerals (separator : UInt8) (text : List UInt8) : Option (List ℕ) :=
  (text.splitOn separator).mapM (readNumeral base)

/-- The dotted form, and eight groups of hexadecimal digits. Zeroes are not left out. -/
def plainTexts : InetTexts where
  ntop4 w :=
    numeralsText 10 46 [w.toNat / 2 ^ 24, w.toNat / 2 ^ 16 % 256, w.toNat / 2 ^ 8 % 256, w.toNat % 256]
  ntop6 w₀ w₁ w₂ w₃ :=
    numeralsText 16 58 ([w₀, w₁, w₂, w₃].flatMap fun w => [w.toNat / 2 ^ 16, w.toNat % 2 ^ 16])
  pton4 text := do
    match ← readNumerals 10 46 text with
    | [a, b, c, d] => some (UInt32.ofNat (((a * 256 + b) * 256 + c) * 256 + d))
    | _ => none
  pton6 text := do
    match ← readNumerals 16 58 text with
    | [a₀, b₀, a₁, b₁, a₂, b₂, a₃, b₃] =>
      some (UInt32.ofNat (a₀ * 2 ^ 16 + b₀), UInt32.ofNat (a₁ * 2 ^ 16 + b₁),
        UInt32.ofNat (a₂ * 2 ^ 16 + b₂), UInt32.ofNat (a₃ * 2 ^ 16 + b₃))
    | _ => none

theorem readNumeral_numeral {base n : ℕ} (hbase : 1 < base) (hsixteen : base ≤ 16) :
    readNumeral base (numeral base n) = some n := by
  have hscan : scanDigits base ((numeralDigits base n).map digitByte ++ []) = (numeralDigits base n, []) :=
    scanDigits_map hsixteen (numeralDigits_lt (n := n) hbase) (by simp)
  rw [List.append_nil] at hscan
  rw [readNumeral, numeral, hscan]
  exact (if_pos ⟨numeralDigits_ne_nil, rfl⟩).trans (congrArg some digitsValue_numeralDigits)

theorem digitOf_of_mem_numeral {base n : ℕ} {b : UInt8} (hbase : 1 < base) (hsixteen : base ≤ 16)
    (hb : b ∈ numeral base n) : (digitOf base b).isSome := by
  obtain ⟨d, hd, rfl⟩ := List.mem_map.mp hb
  rw [digitOf_digitByte hsixteen (numeralDigits_lt hbase d hd)]
  rfl

theorem readNumerals_numeralsText {base : ℕ} {separator : UInt8} {numbers : List ℕ} (hbase : 1 < base)
    (hsixteen : base ≤ 16) (hseparator : digitOf base separator = none) (hne : numbers ≠ []) :
    readNumerals base separator (numeralsText base separator numbers) = some numbers := by
  have hfree : ∀ text ∈ numbers.map (numeral base), separator ∉ text := by
    intro text htext hmem
    obtain ⟨n, -, rfl⟩ := List.mem_map.mp htext
    have hdigit := digitOf_of_mem_numeral hbase hsixteen hmem
    rw [hseparator] at hdigit
    cases hdigit
  rw [readNumerals, numeralsText, List.splitOn_intercalate _ hfree (by simpa using hne)]
  clear hne hfree
  induction numbers with
  | nil => rfl
  | cons n numbers ih =>
    rw [List.map_cons, List.mapM_cons, readNumeral_numeral hbase hsixteen, ih]
    rfl

theorem mem_numeralsText {base : ℕ} {separator b : UInt8} {numbers : List ℕ} (hbase : 1 < base)
    (hsixteen : base ≤ 16) (hb : b ∈ numeralsText base separator numbers) :
    (digitOf base b).isSome ∨ b = separator := by
  induction numbers with
  | nil => cases hb
  | cons n numbers ih =>
    cases numbers with
    | nil =>
      rw [numeralsText, List.map_singleton, List.intercalate_singleton] at hb
      exact .inl (digitOf_of_mem_numeral hbase hsixteen hb)
    | cons m numbers =>
      rw [numeralsText, List.map_cons, List.map_cons, List.intercalate_cons_cons, List.mem_append,
        List.mem_append] at hb
      rcases hb with (hb | hb) | hb
      · exact .inl (digitOf_of_mem_numeral hbase hsixteen hb)
      · exact .inr (List.mem_singleton.mp hb)
      · exact ih hb

theorem plainTexts_documented : plainTexts.Documented where
  pton4_ntop4 w := by
    have hread := @readNumerals_numeralsText 10 46
      [w.toNat / 2 ^ 24, w.toNat / 2 ^ 16 % 256, w.toNat / 2 ^ 8 % 256, w.toNat % 256] (by decide)
      (by decide) (by decide) (by simp)
    simp only [plainTexts, hread, Option.bind_eq_bind, Option.bind_some]
    have hvalue : ((w.toNat / 2 ^ 24 * 256 + w.toNat / 2 ^ 16 % 256) * 256 + w.toNat / 2 ^ 8 % 256) * 256 +
        w.toNat % 256 = w.toNat := by omega
    rw [hvalue, UInt32.ofNat_toNat]
  pton6_ntop6 w₀ w₁ w₂ w₃ := by
    have hread := @readNumerals_numeralsText 16 58
      ([w₀, w₁, w₂, w₃].flatMap fun w => [w.toNat / 2 ^ 16, w.toNat % 2 ^ 16]) (by decide) (by decide)
      (by decide) (by simp)
    have hvalue (w : UInt32) : UInt32.ofNat (w.toNat / 2 ^ 16 * 2 ^ 16 + w.toNat % 2 ^ 16) = w := by
      rw [Nat.div_add_mod', UInt32.ofNat_toNat]
    simp only [plainTexts, hread, Option.bind_eq_bind, Option.bind_some]
    simp only [List.flatMap_cons, List.flatMap_nil, List.cons_append, List.nil_append, hvalue]
  pton4_ntop6 w₀ w₁ w₂ w₃ := by
    have hfree : 46 ∉ plainTexts.ntop6 w₀ w₁ w₂ w₃ := fun hmem =>
      absurd (mem_numeralsText (by decide) (by decide) hmem) (by decide)
    have hsplit : (plainTexts.ntop6 w₀ w₁ w₂ w₃).splitOn 46 = [plainTexts.ntop6 w₀ w₁ w₂ w₃] := by
      have h : ([46].intercalate [plainTexts.ntop6 w₀ w₁ w₂ w₃]).splitOn 46 = _ :=
        List.splitOn_intercalate 46 (List.forall_mem_singleton.mpr hfree) (List.cons_ne_nil _ _)
      simpa using h
    have hread : readNumerals 10 46 (plainTexts.ntop6 w₀ w₁ w₂ w₃) =
        (readNumeral 10 (plainTexts.ntop6 w₀ w₁ w₂ w₃)).map fun n => [n] := by
      rw [readNumerals, hsplit, List.mapM_cons, List.mapM_nil]
      cases readNumeral 10 (plainTexts.ntop6 w₀ w₁ w₂ w₃) <;> rfl
    rw [plainTexts] at hread ⊢
    simp only [hread]
    cases readNumeral 10 _ <;> rfl
  ntop4_mem w b hb := mem_numeralsText (by decide) (by decide) hb
  ntop6_mem w₀ w₁ w₂ w₃ b hb :=
    (mem_numeralsText (by decide) (by decide) hb).imp_right .inl
  pton4_nil := rfl
  pton6_nil := rfl

/-- **The text format.** The text of an address is read as its port and the host that was printed, which is
equal to it exactly if it comes back; a text of the right form as what it says. Where reading fails, the text
has no such form and nothing was set. -/
theorem textFormat (texts : InetTexts) (htexts : texts.Documented) :
    (∀ a before : SocketAddress, Printable a →
      ∃ b, before.fromString texts (a.toString texts) = some (true, b) ∧
        b.hostname = printedHost texts a ∧ b.port = a.port ∧
        (b.operatorEq a = true ↔ ComesBack texts a)) ∧
    (∀ (before : SocketAddress) (str host : List UInt8) (port : UInt16), HasForm str host port →
      before.fromString texts str = some (true, address texts host port)) ∧
    ∀ (before after : SocketAddress) (str : List UInt8),
      before.fromString texts str = some (false, after) →
        after = before ∧ ∀ host port, ¬HasForm str host port := by
  refine ⟨fun a before hprintable => ?_, fun before str host port => fromString_of_hasForm, ?_⟩
  · have hform := hasForm_toString htexts hprintable
    refine ⟨_, fromString_of_hasForm hform, rfl, rfl, ?_⟩
    rw [operatorEq_iff, ComesBack, hostKey, hostKey, SocketAddress.isAnyIP, SocketAddress.isAnyIP]
    by_cases hprints : a.printsHostname
    · have hhost : printedHost texts a = a.hostname := if_pos hprints
      simp only [address, if_pos hprints, hhost, and_true]
      exact ⟨And.left, fun hip => ⟨hip, by rw [hip]⟩⟩
    have hhost : printedHost texts a = ipToString texts a.ip := if_neg hprints
    have hip : (address texts (printedHost texts a) a.port).ip = a.ip := by
      rw [hhost]
      exact ipFromString_ipToString htexts a.ip
    rw [if_neg hprints, hip]
    cases hany : a.ip.isAny with
    | false => simp [address]
    | true => simp [address, hhost, map_toNat_inj, eq_comm]
  · intro before after str hfalse
    refine ⟨eq_of_fromString_false hfalse, fun host port hform => ?_⟩
    rw [fromString_of_hasForm hform] at hfalse
    cases hfalse

/-- An address with an IPv6 address and no hostname. -/
def resolvedV6 : SocketAddress where
  ip := .ipv6 0x20010DB8 0x00010002 0x00030004 0x00050006
  port := 80

theorem textFormat_resolvedV6 :
    ∃ b, SocketAddress.fromString plainTexts {} (resolvedV6.toString plainTexts) = some (true, b) ∧
      b.hostname = printedHost plainTexts resolvedV6 ∧ b.port = resolvedV6.port ∧
      (b.operatorEq resolvedV6 = true ↔ ComesBack plainTexts resolvedV6) :=
  (textFormat plainTexts plainTexts_documented).1 resolvedV6 {} (by decide)

/-- The host `a` was resolved to 1.2.3.4. -/
def resolvedHost : SocketAddress where
  hostname := [97]
  ip := .ipv4 0x01020304
  port := 80

theorem not_comesBack_resolvedHost :
    ¬∀ a before : SocketAddress, a.ip ≠ .unspec ∨ a.hostname ≠ [] ∧ 58 ∉ a.hostname ∧ 91 ∉ a.hostname →
      ∃ b, before.fromString plainTexts (a.toString plainTexts) = some (true, b) ∧ b.operatorEq a = true := by
  intro h
  obtain ⟨b, hread, heq⟩ := h resolvedHost {} (.inl (by decide))
  have hform : HasForm (resolvedHost.toString plainTexts) [97] 80 :=
    hasForm_toString plainTexts_documented (by decide)
  cases hread
  exact absurd heq (by decide)

end Synciga.TalkBase
