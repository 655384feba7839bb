import Synciga.P2p.Candidates

/-!
# The ports of remote candidates

`Transport::VerifyCandidate` lets no candidate through that would have packets sent to a port below 1024, unless
it is 80 or 443 of an address that is not private. It looks at what `TransportParser::ParseAddress` has read: a
number at the begin of a text, cut down to 16 bits, and an address that may be an IPv4 one in an IPv6 one.

## Main results

* `portChecked_iff` — for which elements the port as it was written is checked
* `verifyCandidate_eq` — the check of the session model is this one
-/

namespace Synciga

/-- `IPAddress::Normalized`: an IPv4 address that is mapped into IPv6 is the IPv4 address. -/
def IPAddress.normalized : IPAddress → IPAddress
  | .ipv6 0 0 0xFFFF ip => .ipv4 ip
  | ip => ip

namespace P2p

/-! ### The check -/

/-- `VerifyCandidate`, by its error. -/
def verifyError (cand : Candidate) : Option String :=
  if cand.hostname = "" ∧ cand.address.ip = .unspec ∧ cand.address.port = 0 ∨ ipIsAny cand.address.ip then
    some "candidate has address of zero"
  else if cand.address.port < 1024 then
    if cand.address.port ≠ 80 ∧ cand.address.port ≠ 443 then
      some "candidate has port below 1024, but not 80 or 443"
    else if ipIsPrivate cand.address.ip then some "candidate has port of 80 or 443 with private IP address"
    else none
  else none

/-- A candidate is refused with an error. -/
theorem verifyCandidate_eq (cand : Candidate) : Transport.verifyCandidate cand = (verifyError cand).isNone := by
  rw [Transport.verifyCandidate, verifyError]
  split
  · rfl
  split
  · by_cases hport : cand.address.port = 80 ∨ cand.address.port = 443
    · rw [if_neg fun hne => hport.elim hne.1 hne.2]
      cases hprivate : ipIsPrivate cand.address.ip with
      | true => exact decide_eq_false fun h => Bool.noConfusion h.2
      | false => exact decide_eq_true ⟨hport, rfl⟩
    · rw [if_pos (not_or.mp hport)]
      exact decide_eq_false fun h => hport h.1
  · rfl

/-! ### What is written -/

variable (text : String)

/-- The integer that a text is: digits, with a sign or without one. -/
def writtenInteger : Option ℤ :=
  let (negative, digits) := streamSign text.toList
  if digits ≠ [] ∧ digits.all Char.isDigit then
    some (if negative then -Nat.ofDigitChars 10 digits 0 else Nat.ofDigitChars 10 digits 0)
  else none

theorem dropWhile_of_streamSign {chars digits : List Char} {negative : Bool}
    (h : streamSign chars = (negative, digits)) (hne : digits ≠ []) (hdigits : ∀ c ∈ digits, c.isDigit) :
    chars.dropWhile isSpace = chars := by
  rw [streamSign.eq_def] at h
  split at h
  · rfl
  · rfl
  cases h
  cases chars with
  | nil => exact absurd rfl hne
  | cons c rest =>
    exact List.dropWhile_cons_of_neg
      (Bool.eq_false_iff.mp (isSpace_eq_false_of_isDigit (hdigits c (List.mem_cons_self ..))))

variable {n : ℤ}

theorem extractInt_of_written {text : String} (h : writtenInteger text = some n) :
    extractInt text = max (-2 ^ 31) (min (2 ^ 31 - 1) n) := by
  rw [writtenInteger] at h
  cases hsign : streamSign text.toList with
  | mk negative digits =>
    rw [hsign] at h
    obtain ⟨⟨hne, hall⟩, hn⟩ := Option.ite_none_right_eq_some.mp h
    have hdigits := List.all_eq_true.mp hall
    have htake : digits.takeWhile Char.isDigit = digits := List.takeWhile_eq_self_iff.mpr hdigits
    have hstream : streamInteger text = some (negative, Nat.ofDigitChars 10 digits 0) := by
      rw [streamInteger, dropWhile_of_streamSign hsign hne hdigits, hsign]
      dsimp only
      rw [htake, if_neg hne]
    rw [extractInt, hstream]
    cases negative with
    | true =>
      cases hn
      dsimp only
      rw [if_pos rfl]
      omega
    | false =>
      cases hn
      dsimp only
      rw [if_neg Bool.false_ne_true]
      omega

/-- What `ParseAddress` makes of the text of a port. -/
def portOfText : UInt16 := UInt16.ofInt (extractInt text)

/-- A text that is a port. -/
def IsPortText : Prop := ∃ n, writtenInteger text = some n ∧ 0 ≤ n ∧ n < 2 ^ 16

/-! ### The port of an element -/

variable (texts : TextFormat)

/-- A candidate may be sent to: its port as it is written is an integer from 1024 on that fits, or 80 or 443
with an address that is not private, where a mapped one is as private as the address in it. -/
def PortAllowed (elem : XmlElement) : Prop :=
  ∃ n, writtenInteger (elem.attr qnPort) = some n ∧
    (1024 ≤ n ∧ n < 2 ^ 16 ∨
      (n = 80 ∨ n = 443) ∧ ipIsPrivate (texts.ipFromString (elem.attr qnAddress)).normalized = false)

/-- Every candidate that `ParseAddress` reads the address of, and `VerifyCandidate` has no error
for, may be sent to. -/
def PortChecked (elem : XmlElement) : Prop :=
  ∀ cand : Candidate, parseAddress texts elem = .ok (cand.address, cand.hostname) → verifyError cand = none →
    PortAllowed texts elem

/-- The element has no address or no port, the address is zero, or this: a proper text of 80 or 443 does not go
with a private address that is mapped, and what is read of any other text is refused. -/
def PortPlain (elem : XmlElement) : Prop :=
  elem.hasAttr qnAddress = true → elem.hasAttr qnPort = true →
    let ip := texts.ipFromString (elem.attr qnAddress)
    let text := elem.attr qnPort
    ipIsAny ip = false →
      (IsPortText text → writtenInteger text = some 80 ∨ writtenInteger text = some 443 →
        ∀ w, ip = .ipv6 0 0 0xFFFF w → ipIsPrivate (.ipv4 w) = false) ∧
      (¬IsPortText text → portOfText text < 1024 ∧
        (portOfText text = 80 ∨ portOfText text = 443 → ipIsPrivate ip = true))

theorem toNat_portOfText {text : String} (h : writtenInteger text = some n) (hpos : 0 ≤ n)
    (hlt : n < 2 ^ 16) : ((portOfText text).toNat : ℤ) = n := by
  rw [portOfText, extractInt_of_written h]
  have hclamp : max (-2 ^ 31) (min (2 ^ 31 - 1) n) = n := by omega
  have hmod : (n % 2 ^ 16).toNat < 2 ^ 16 := by omega
  rw [hclamp, UInt16.ofInt, UInt16.toNat_ofNat', Nat.mod_eq_of_lt hmod]
  omega

theorem ipIsPrivate_mapped (ip : UInt32) : ipIsPrivate (.ipv6 0 0 0xFFFF ip) = false := by
  rw [ipIsPrivate, ipIsLoopback]
  refine decide_eq_false fun h => ?_
  rcases h with hlocal | hloopback
  · exact absurd hlocal (by decide)
  · rcases of_decide_eq_true hloopback with h4 | h6
    · cases h4
    · injection h6 with _ _ hword _
      exact absurd hword (by decide)

theorem mapped_iff {ip : IPAddress} : (∀ w, ip = .ipv6 0 0 0xFFFF w → ipIsPrivate (.ipv4 w) = false) ↔
    (ipIsPrivate ip.normalized = true → ipIsPrivate ip = true) := by
  rw [IPAddress.normalized.eq_def]
  split
  · rename_i w
    constructor
    · intro h hprivate
      exact (h w rfl).symm.trans hprivate
    · intro h v hv
      cases hv
      exact Bool.eq_false_iff.mpr fun hprivate => Bool.noConfusion (h hprivate)
  · rename_i hnot
    exact iff_of_true (fun w hw => absurd hw (hnot w)) id

theorem verifyError_eq_none_iff {cand : Candidate} (hany : ipIsAny cand.address.ip = false) :
    verifyError cand = none ↔ ¬cand.address.port < 1024 ∨
      (cand.address.port = 80 ∨ cand.address.port = 443) ∧ ipIsPrivate cand.address.ip = false := by
  rw [verifyError, hany]
  by_cases hnil : cand.hostname = "" ∧ cand.address.ip = .unspec ∧ cand.address.port = 0
  · rw [if_pos (.inl hnil), hnil.2.2]
    refine iff_of_false (Option.some_ne_none _) fun h => ?_
    rcases h with hlow | ⟨hport, -⟩
    · exact hlow (by decide)
    · exact absurd hport (by decide)
  rw [if_neg fun h => h.elim hnil Bool.noConfusion]
  by_cases hlow : cand.address.port < 1024
  · rw [if_pos hlow, or_iff_right (not_not.mpr hlow)]
    by_cases hport : cand.address.port = 80 ∨ cand.address.port = 443
    · rw [if_neg fun hne => hport.elim hne.1 hne.2, and_iff_right hport]
      cases ipIsPrivate cand.address.ip with
      | true => exact iff_of_false (Option.some_ne_none _) Bool.noConfusion
      | false => exact iff_of_true rfl rfl
    · rw [if_pos (not_or.mp hport)]
      exact iff_of_false (Option.some_ne_none _) fun h => hport h.1
  · rw [if_neg hlow]
    exact iff_of_true rfl (.inl hlow)

/-! ### What gets through -/

variable {elem : XmlElement}

theorem parseAddress_eq_ok_iff {texts : TextFormat} {cand : Candidate} :
    parseAddress texts elem = .ok (cand.address, cand.hostname) ↔
      elem.hasAttr qnAddress = true ∧ elem.hasAttr qnPort = true ∧
        cand.address = ⟨texts.ipFromString (elem.attr qnAddress), portOfText (elem.attr qnPort)⟩ ∧
        cand.hostname = elem.attr qnAddress := by
  rw [parseAddress]
  split
  · rename_i h
    exact iff_of_false (fun herror => by cases herror) fun h' => h h'.1
  rename_i haddress
  split
  · rename_i h
    exact iff_of_false (fun herror => by cases herror) fun h' => h h'.2.1
  · rename_i hport
    rw [and_iff_right (not_not.mp haddress), and_iff_right (not_not.mp hport), Except.ok.injEq, Prod.mk.injEq,
      eq_comm (a := cand.address), eq_comm (a := cand.hostname)]
    rfl

/-- The address and the port of the texts get through. -/
def LetThrough (elem : XmlElement) : Prop :=
  ¬portOfText (elem.attr qnPort) < 1024 ∨
    (portOfText (elem.attr qnPort) = 80 ∨ portOfText (elem.attr qnPort) = 443) ∧
      ipIsPrivate (texts.ipFromString (elem.attr qnAddress)) = false

/-- A candidate with this address, and nothing else. -/
def bareCandidate (address : SocketAddress) (hostname : String) : Candidate where
  id := ""
  component := 1
  protocol := ""
  address := address
  priority := 0
  username := ""
  password := ""
  type := ""
  networkName := ""
  generation := 0
  foundation := ""
  relatedAddress := ⟨.unspec, 0⟩
  hostname := hostname

theorem portChecked_iff_letThrough {texts : TextFormat}
    (haddress : elem.hasAttr qnAddress = true) (hport : elem.hasAttr qnPort = true)
    (hany : ipIsAny (texts.ipFromString (elem.attr qnAddress)) = false) :
    PortChecked texts elem ↔ (LetThrough texts elem → PortAllowed texts elem) := by
  have hnone (cand : Candidate)
      (haddr : cand.address = ⟨texts.ipFromString (elem.attr qnAddress), portOfText (elem.attr qnPort)⟩) :
      verifyError cand = none ↔ LetThrough texts elem := by
    have hip : ipIsAny cand.address.ip = false := by
      rw [haddr]
      exact hany
    rw [verifyError_eq_none_iff hip, haddr]
    rfl
  constructor
  · intro hchecked hthrough
    refine hchecked (bareCandidate ⟨texts.ipFromString (elem.attr qnAddress), portOfText (elem.attr qnPort)⟩
      (elem.attr qnAddress)) ?_ ?_
    · exact parseAddress_eq_ok_iff.mpr ⟨haddress, hport, rfl, rfl⟩
    · exact (hnone _ rfl).mpr hthrough
  · intro hallowed cand hparse hverify
    obtain ⟨-, -, haddr, -⟩ := parseAddress_eq_ok_iff.mp hparse
    exact hallowed ((hnone cand haddr).mp hverify)

theorem letThrough_iff {texts : TextFormat}
    (h : writtenInteger (elem.attr qnPort) = some n) (hpos : 0 ≤ n) (hlt : n < 2 ^ 16) :
    LetThrough texts elem ↔ 1024 ≤ n ∨
      (n = 80 ∨ n = 443) ∧ ipIsPrivate (texts.ipFromString (elem.attr qnAddress)) = false := by
  have hvalue := toNat_portOfText h hpos hlt
  have hport (port : ℕ) (hfits : port < 2 ^ 16) : portOfText (elem.attr qnPort) = .ofNat port ↔ n = port := by
    rw [← UInt16.toNat_inj, UInt16.toNat_ofNat', Nat.mod_eq_of_lt hfits]
    omega
  have hlow : ¬portOfText (elem.attr qnPort) < 1024 ↔ 1024 ≤ n := by
    change ¬(portOfText (elem.attr qnPort)).toNat < 1024 ↔ _
    omega
  rw [LetThrough, hlow]
  exact or_congr_right (and_congr_left fun _ => or_congr (hport 80 (by decide)) (hport 443 (by decide)))

theorem portAllowed_iff {texts : TextFormat}
    (h : writtenInteger (elem.attr qnPort) = some n) : PortAllowed texts elem ↔ 1024 ≤ n ∧ n < 2 ^ 16 ∨
      (n = 80 ∨ n = 443) ∧ ipIsPrivate (texts.ipFromString (elem.attr qnAddress)).normalized = false := by
  rw [PortAllowed, h]
  refine ⟨fun ⟨m, hm, hallowed⟩ => ?_, fun hallowed => ⟨n, rfl, hallowed⟩⟩
  cases hm
  exact hallowed

/-- **Which ports get through.** Whatever of an element is let through has a port that is allowed, if and only
if no private address is mapped for a port 80 or 443, and no other text is cut down to a port that gets through.
-/
theorem portChecked_iff (texts : TextFormat) (elem : XmlElement) :
    PortChecked texts elem ↔ PortPlain texts elem := by
  by_cases hattrs : elem.hasAttr qnAddress = true ∧ elem.hasAttr qnPort = true
  · obtain ⟨haddress, hport⟩ := hattrs
    by_cases hany : ipIsAny (texts.ipFromString (elem.attr qnAddress)) = false
    · have hplain : PortPlain texts elem ↔
          (IsPortText (elem.attr qnPort) → writtenInteger (elem.attr qnPort) = some 80 ∨
            writtenInteger (elem.attr qnPort) = some 443 →
            ipIsPrivate (texts.ipFromString (elem.attr qnAddress)).normalized = true →
              ipIsPrivate (texts.ipFromString (elem.attr qnAddress)) = true) ∧
          (¬IsPortText (elem.attr qnPort) → ¬LetThrough texts elem) := by
        rw [PortPlain, imp_iff_right haddress, imp_iff_right hport, imp_iff_right hany, mapped_iff, LetThrough,
          not_or, not_not, not_and, Bool.not_eq_false]
      rw [portChecked_iff_letThrough haddress hport hany, hplain]
      by_cases htext : IsPortText (elem.attr qnPort)
      · rw [and_iff_left (fun hnot => absurd htext hnot), imp_iff_right htext]
        obtain ⟨n, hn, hpos, hlt⟩ := htext
        rw [letThrough_iff hn hpos hlt, portAllowed_iff hn, hn, Option.some.injEq, Option.some.injEq]
        constructor
        · intro hallowed hweb hprivate
          by_contra hpublic
          rcases hallowed (.inr ⟨hweb, Bool.eq_false_iff.mpr hpublic⟩) with hhigh | ⟨-, hnormal⟩
          · omega
          · exact Bool.noConfusion (hprivate.symm.trans hnormal)
        · rintro hmapped (hhigh | ⟨hweb, hpublic⟩)
          · exact .inl ⟨hhigh, hlt⟩
          · refine .inr ⟨hweb, Bool.eq_false_iff.mpr fun hprivate => ?_⟩
            exact Bool.noConfusion ((hmapped hweb hprivate).symm.trans hpublic)
      · rw [and_iff_right (fun h => absurd h htext), imp_iff_right htext]
        refine imp_congr_right fun _ => iff_of_false ?_ id
        rintro ⟨n, hn, hrange | ⟨hweb, -⟩⟩
        · exact htext ⟨n, hn, by omega, hrange.2⟩
        · exact htext ⟨n, hn, by omega, by omega⟩
    · refine iff_of_true (fun cand hparse hverify => ?_) fun _ _ hnot => absurd hnot hany
      obtain ⟨-, -, haddr, -⟩ := parseAddress_eq_ok_iff.mp hparse
      rw [verifyError, haddr, if_pos (.inr (Bool.eq_true_of_not_eq_false hany))] at hverify
      cases hverify
  · refine iff_of_true (fun cand hparse => ?_) fun h h' => absurd ⟨h, h'⟩ hattrs
    obtain ⟨haddress, hport, -⟩ := parseAddress_eq_ok_iff.mp hparse
    exact absurd ⟨haddress, hport⟩ hattrs

/-- The C library, for two private addresses. -/
def privateTexts : TextFormat where
  inetNtop := fun _ => ""
  inetPton4 := fun text => if text = "10.0.0.1" then some 0x0A000001 else none
  inetPton6 := fun text => if text = "::ffff:10.0.0.1" then some (0, 0, 0xFFFF, 0x0A000001) else none
  preferenceToString := fun _ => ""
  priorityFromString := fun _ => none

/-- A candidate with nothing but an address. -/
def addressElement (address port : String) : XmlElement :=
  ((XmlElement.ofName qnGingleCandidate).setAttr qnAddress address).setAttr qnPort port

/-- The port is 1024 when it is cut down to 16 bits. -/
theorem not_portChecked_cut_down : ¬PortChecked privateTexts (addressElement "10.0.0.1" "66560") := by
  intro h
  have hwritten : writtenInteger ((addressElement "10.0.0.1" "66560").attr qnPort) = some 66560 := by
    decide +kernel
  obtain ⟨n, hn, hallowed⟩ := h (bareCandidate ⟨.ipv4 0x0A000001, 1024⟩ "10.0.0.1") (by rfl) (by decide +kernel)
  rw [hwritten] at hn
  cases hn
  omega

/-- A private address that is mapped into IPv6 is not seen to be private. -/
theorem not_portChecked_mapped : ¬PortChecked privateTexts (addressElement "::ffff:10.0.0.1" "80") := by
  intro h
  have hwritten : writtenInteger ((addressElement "::ffff:10.0.0.1" "80").attr qnPort) = some 80 := by
    decide +kernel
  obtain ⟨n, hn, hport | ⟨-, hprivate⟩⟩ :=
    h (bareCandidate ⟨.ipv6 0 0 0xFFFF 0x0A000001, 80⟩ "::ffff:10.0.0.1") (by rfl) (by decide +kernel)
  · rw [hwritten] at hn
    cases hn
    omega
  · exact absurd hprivate (by decide +kernel)

end P2p

end Synciga
