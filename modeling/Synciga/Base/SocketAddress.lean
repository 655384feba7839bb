import Mathlib.Data.List.Lex
import Synciga.Base.NetworkPrefixes
import Synciga.Internal.WeakOrder

/-!
# Socket addresses as keys

`talk_base::SocketAddress` with all its fields but the scope id. The name of the host counts in its equality,
its order and its hash only where the IP address stands for any address; an address that was not resolved has no
IP address, so that its name does not count.

## Main results

* `usableAsKeys_iff` — for which addresses the three go together
-/

namespace Synciga

/-! ### IP addresses -/

namespace IPAddress

/-- `operator<`: IPv4 is less than IPv6, and within a family the bytes are compared. -/
def operatorLess : IPAddress → IPAddress → Bool
  | .unspec, .unspec => false
  | .unspec, _ => true
  | .ipv4 _, .unspec => false
  | .ipv4 a, .ipv4 b => a.toNat < b.toNat
  | .ipv4 _, .ipv6 .. => true
  | .ipv6 a₀ a₁ a₂ a₃, .ipv6 b₀ b₁ b₂ b₃ =>
    [a₀, a₁, a₂, a₃].map UInt32.toNat < [b₀, b₁, b₂, b₃].map UInt32.toNat
  | .ipv6 .., _ => false

/-- The family, and then the words. -/
def sortKey : IPAddress → List ℕ
  | .unspec => [0]
  | .ipv4 a => [1, a.toNat]
  | .ipv6 a₀ a₁ a₂ a₃ => 2 :: [a₀, a₁, a₂, a₃].map UInt32.toNat

theorem sortKey_inj {a b : IPAddress} (h : a.sortKey = b.sortKey) : a = b := by
  cases a <;> cases b <;> simp_all [sortKey, ← UInt32.toNat_inj]

theorem operatorLess_iff (a b : IPAddress) : a.operatorLess b = true ↔ a.sortKey < b.sortKey := by
  cases a <;> cases b <;> simp [operatorLess, sortKey, List.cons_lt_cons_iff]

/-- `IPIsAny`. -/
def isAny : IPAddress → Bool
  | .unspec => false
  | .ipv4 a => a = 0
  | .ipv6 a₀ a₁ a₂ a₃ => a₀ = 0 ∧ a₁ = 0 ∧ a₂ = 0 ∧ a₃ = 0

/-- A word in the order of the network, as the machine reads it. -/
def swapped (w : UInt32) : UInt32 :=
  w <<< 24 ||| (w &&& (0xFF00 : UInt32)) <<< 8 ||| (w >>> 8 &&& (0xFF00 : UInt32)) ||| w >>> 24

/-- `HashIP`. -/
def hash : IPAddress → UInt64
  | .unspec => 0
  | .ipv4 a => (swapped a).toUInt64
  | .ipv6 a₀ a₁ a₂ a₃ => (swapped a₀ ^^^ swapped a₁ ^^^ swapped a₂ ^^^ swapped a₃).toUInt64

end IPAddress

namespace TalkBase

/-! ### Socket addresses -/

/-- `talk_base::SocketAddress`. A text is its bytes. -/
structure SocketAddress where
  hostname : List UInt8 := []
  ip : IPAddress := .unspec
  port : UInt16 := 0
  scopeId : ℤ := 0
  /-- Whether the name is the text of an IP address. -/
  literal : Bool := false
  deriving DecidableEq, Repr

namespace SocketAddress

/-- `std::string::operator<`: bytes, one after the other. -/
def textLess (a b : List UInt8) : Bool := a.map UInt8.toNat < b.map UInt8.toNat

/-- `IsAnyIP`. -/
def isAnyIP (a : SocketAddress) : Bool := a.ip.isAny

/-- `IsUnresolvedIP`. -/
def isUnresolvedIP (a : SocketAddress) : Bool := a.ip = .unspec ∧ a.literal = false ∧ a.hostname ≠ []

variable (a b : SocketAddress)

/-- `EqualIPs`. -/
def equalIPs : Bool :=
  a.ip.operatorEq b.ip && (!a.ip.isAny || a.hostname == b.hostname)

/-- `EqualPorts`. -/
def equalPorts : Bool := a.port == b.port

/-- `operator==`. -/
def operatorEq : Bool := a.equalIPs b && a.equalPorts b

/-- `operator<`. -/
def operatorLess (a b : SocketAddress) : Bool :=
  if a.ip.operatorLess b.ip then true
  else if b.ip.operatorLess a.ip then false
  else if b.isAnyIP then
    if textLess a.hostname b.hostname then true
    else if textLess b.hostname a.hostname then false
    else a.port < b.port
  else a.port < b.port

/-- `Hash`. The port is promoted to an `int`, which is extended with its sign. -/
def hash (a : SocketAddress) : UInt64 :=
  a.ip.hash ^^^ (a.port.toUInt32 ||| (a.port.toUInt32 <<< 16)).toInt32.toInt64.toUInt64

end SocketAddress

variable {a b c : SocketAddress}

open TalkBase.SocketAddress

/-! ### Equality and order -/

/-- The IP address, as `operator<` has it. -/
def ipKey (a : SocketAddress) : List ℕ := a.ip.sortKey

theorem ipKey_inj (h : ipKey a = ipKey b) : a.ip = b.ip := IPAddress.sortKey_inj h

/-- The name, where it counts. -/
def hostKey (a : SocketAddress) : List ℕ := if a.isAnyIP then a.hostname.map UInt8.toNat else []

theorem map_toNat_inj {v w : List UInt8} : v.map UInt8.toNat = w.map UInt8.toNat ↔ v = w :=
  (List.map_injective_iff.mpr fun _ _ => UInt8.toNat_inj.mp).eq_iff

theorem operatorEq_iff : a.operatorEq b = true ↔ a.ip = b.ip ∧ hostKey a = hostKey b ∧ a.port = b.port := by
  rw [operatorEq, equalIPs, equalPorts, Bool.and_eq_true, Bool.and_eq_true, IPAddress.operatorEq_iff,
    beq_iff_eq, and_assoc]
  refine and_congr_right fun hip => and_congr_left' ?_
  rw [hostKey, hostKey, isAnyIP, isAnyIP, ← hip]
  cases a.ip.isAny with
  | true => rw [if_pos rfl, if_pos rfl, map_toNat_inj, Bool.not_true, Bool.false_or, beq_iff_eq]
  | false => exact iff_of_true rfl rfl

theorem operatorLess_iff : a.operatorLess b = true ↔
    KeyThen ipKey (KeyThen hostKey fun a b : SocketAddress => a.port.toNat < b.port.toNat) a b := by
  rw [operatorLess]
  split
  case isTrue hless => exact iff_of_true rfl (.inl ((IPAddress.operatorLess_iff _ _).mp hless))
  case isFalse hless =>
    rw [IPAddress.operatorLess_iff, not_lt] at hless
    split
    case isTrue hless' =>
      have hlt := (IPAddress.operatorLess_iff _ _).mp hless'
      refine iff_of_false Bool.false_ne_true fun hkey => ?_
      have hle : ipKey a ≤ ipKey b := key_le_of_keyThen hkey
      exact absurd hlt (not_lt.mpr hle)
    case isFalse hless' =>
      rw [IPAddress.operatorLess_iff, not_lt] at hless'
      have hsame : ipKey a = ipKey b := le_antisymm hless' hless
      have hip : a.ip = b.ip := ipKey_inj hsame
      rw [keyThen_of_eq hsame, KeyThen, hostKey, hostKey, isAnyIP, isAnyIP, hip]
      cases b.ip.isAny with
      | false => simp [UInt16.lt_iff_toNat_lt]
      | true =>
        rw [if_pos rfl, if_pos rfl, if_pos rfl, textLess, textLess]
        rcases lt_trichotomy (a.hostname.map UInt8.toNat) (b.hostname.map UInt8.toNat) with hlt | heq | hgt
        · simp [hlt]
        · simp [heq, UInt16.lt_iff_toNat_lt]
        · simp [hgt, hgt.not_gt, hgt.ne']

theorem operatorEq_refl (a : SocketAddress) : a.operatorEq a = true := operatorEq_iff.mpr ⟨rfl, rfl, rfl⟩

theorem operatorEq_symm (h : a.operatorEq b = true) : b.operatorEq a = true := by
  obtain ⟨hip, hhost, hport⟩ := operatorEq_iff.mp h
  exact operatorEq_iff.mpr ⟨hip.symm, hhost.symm, hport.symm⟩

theorem operatorEq_trans (h : a.operatorEq b = true) (h' : b.operatorEq c = true) :
    a.operatorEq c = true := by
  obtain ⟨hip, hhost, hport⟩ := operatorEq_iff.mp h
  obtain ⟨hip', hhost', hport'⟩ := operatorEq_iff.mp h'
  exact operatorEq_iff.mpr ⟨hip.trans hip', hhost.trans hhost', hport.trans hport'⟩

theorem strictWeakOn_operatorLess (s : Set SocketAddress) :
    StrictWeakOn s fun a b => a.operatorLess b = true := by
  have hport (S : Set SocketAddress) :
      StrictWeakOn S fun a b : SocketAddress => a.port.toNat < b.port.toNat := by
    refine ⟨?_, ?_, ?_, ?_⟩
    · exact fun a _ => lt_irrefl _
    · exact fun a _ b _ => lt_asymm
    · exact fun a _ b _ c _ => lt_trans
    · intro a _ b _ c _
      omega
  have hkeys : StrictWeakOn s (KeyThen ipKey (KeyThen hostKey fun a b => a.port.toNat < b.port.toNat)) :=
    .of_key fun _ => .of_key fun _ => hport _
  simpa only [operatorLess_iff] using hkeys

theorem not_operatorLess_iff :
    a.operatorLess b = false ∧ b.operatorLess a = false ↔ a.operatorEq b = true := by
  rw [← Bool.not_eq_true, ← Bool.not_eq_true, operatorLess_iff, operatorLess_iff, operatorEq_iff]
  constructor
  · rintro ⟨hab, hba⟩
    have hip := key_eq_of_not_keyThen hab hba
    rw [keyThen_of_eq hip] at hab
    rw [keyThen_of_eq hip.symm] at hba
    have hhost := key_eq_of_not_keyThen hab hba
    rw [keyThen_of_eq hhost] at hab
    rw [keyThen_of_eq hhost.symm] at hba
    exact ⟨ipKey_inj hip, hhost, UInt16.toNat_inj.mp (by omega)⟩
  · rintro ⟨hip, hhost, hport⟩
    have hkey : ipKey a = ipKey b := congrArg IPAddress.sortKey hip
    rw [keyThen_of_eq hkey, keyThen_of_eq hkey.symm, keyThen_of_eq hhost, keyThen_of_eq hhost.symm, hport]
    exact ⟨lt_irrefl _, lt_irrefl _⟩

theorem hash_of_operatorEq (h : a.operatorEq b = true) : a.hash = b.hash := by
  obtain ⟨hip, -, hport⟩ := operatorEq_iff.mp h
  rw [SocketAddress.hash, SocketAddress.hash, hip, hport]

/-! ### Endpoints -/

/-- Two addresses stand for one endpoint. What was not resolved is its name. The scope id is left out. -/
def SameEndpoint (a b : SocketAddress) : Prop :=
  a.ip = b.ip ∧ a.port = b.port ∧ (a.isUnresolvedIP ∨ b.isUnresolvedIP → a.hostname = b.hostname)

/-- What a map needs of the addresses that are its keys. -/
structure UsableAsKeys (s : Set SocketAddress) : Prop where
  refl : ∀ a ∈ s, a.operatorEq a
  symm : ∀ a ∈ s, ∀ b ∈ s, a.operatorEq b → b.operatorEq a
  trans : ∀ a ∈ s, ∀ b ∈ s, ∀ c ∈ s, a.operatorEq b → b.operatorEq c → a.operatorEq c
  strictWeak : StrictWeakOn s fun a b => a.operatorLess b
  incomparable : ∀ a ∈ s, ∀ b ∈ s, ¬a.operatorLess b ∧ ¬b.operatorLess a ↔ a.operatorEq b
  hash : ∀ a ∈ s, ∀ b ∈ s, a.operatorEq b → a.hash = b.hash
  unresolved : ∀ a ∈ s, ∀ b ∈ s, a.isUnresolvedIP → b.isUnresolvedIP → a.hostname ≠ b.hostname →
    ¬a.operatorEq b
  endpoints : ∀ a ∈ s, ∀ b ∈ s, a.operatorEq b → SameEndpoint a b

theorem isUnresolvedIP_iff :
    a.isUnresolvedIP = true ↔ a.ip = .unspec ∧ a.literal = false ∧ a.hostname ≠ [] := by
  rw [isUnresolvedIP, decide_eq_true_eq]

theorem operatorEq_of_unspec (ha : a.ip = .unspec) (hb : b.ip = .unspec) :
    a.operatorEq b = true ↔ a.port = b.port := by
  have hkey : hostKey a = hostKey b := by
    rw [hostKey, hostKey, isAnyIP, isAnyIP, ha, hb]
    rfl
  rw [operatorEq_iff, and_iff_right (ha.trans hb.symm), and_iff_right hkey]

/-- **When socket addresses are usable as keys.** All is as it should be but for endpoints whose addresses were
not resolved. -/
theorem usableAsKeys_iff (s : Set SocketAddress) : UsableAsKeys s ↔
    ∀ a ∈ s, ∀ b ∈ s, a.isUnresolvedIP → b.ip = .unspec → a.hostname ≠ b.hostname → a.port ≠ b.port := by
  constructor
  · intro h a ha b hb hunresolved hunspec hname hport
    have heq := (operatorEq_of_unspec (isUnresolvedIP_iff.mp hunresolved).1 hunspec).mpr hport
    exact hname ((h.endpoints a ha b hb heq).2.2 (.inl hunresolved))
  intro h
  have hend (a) (ha : a ∈ s) (b) (hb : b ∈ s) (heq : a.operatorEq b = true) : SameEndpoint a b := by
    obtain ⟨hip, -, hport⟩ := operatorEq_iff.mp heq
    refine ⟨hip, hport, fun hunresolved => by_contra fun hname => ?_⟩
    rcases hunresolved with ha' | hb'
    · exact h a ha b hb ha' (hip ▸ (isUnresolvedIP_iff.mp ha').1) hname hport
    · exact h b hb a ha hb' (hip ▸ (isUnresolvedIP_iff.mp hb').1) (Ne.symm hname) hport.symm
  exact {
    refl := fun a _ => operatorEq_refl a
    symm := fun a _ b _ => operatorEq_symm
    trans := fun a _ b _ c _ => operatorEq_trans
    strictWeak := strictWeakOn_operatorLess s
    incomparable := fun a _ b _ => by
      rw [Bool.not_eq_true, Bool.not_eq_true]
      exact not_operatorLess_iff
    hash := fun a _ b _ => hash_of_operatorEq
    unresolved := fun a ha b hb hunresolved _ hname heq =>
      hname ((hend a ha b hb heq).2.2 (.inl hunresolved))
    endpoints := hend }

/-- The hosts `a` and `b`, which were not resolved, at port 80. -/
theorem not_usableAsKeys_twoHosts :
    ¬UsableAsKeys {{ hostname := [97], port := 80 }, { hostname := [98], port := 80 }} := by
  intro h
  have hne := h.unresolved { hostname := [97], port := 80 } (.inl rfl)
    { hostname := [98], port := 80 } (.inr rfl) (by decide) (by decide) (by decide)
  exact hne (by decide)

end TalkBase

end Synciga
