import Synciga.Base.SocketAddress

/-!
# The order of networks

`MergeNetworkList` sorts networks (`talk/base/network.cc`). `CompareNetworks` looks at the prefixes only where
names and lengths agree, and else at the names. So two networks of one interface and length, with different
prefixes, are incomparable to one with another length, and yet one of them is less than the other.

## Main results

* `strictWeakOn_compareNetworks_iff` — on which sets it is a strict weak order
-/

namespace Synciga.TalkBase

/-- `Network`, with what the order looks at. -/
structure Network where
  name : List UInt8
  netPrefix : IPAddress
  prefixLength : ℤ
  deriving DecidableEq

namespace Network

open TalkBase.SocketAddress (textLess)

/-- `CompareNetworks`. -/
def compareNetworks (a b : Network) : Bool :=
  if a.prefixLength = b.prefixLength ∧ a.name = b.name then a.netPrefix.operatorLess b.netPrefix
  else textLess a.name b.name

variable {a b : Network}

/-- The name, as numbers. -/
def nameKey (a : Network) : List ℕ := a.name.map UInt8.toNat

/-- What is looked at where the names agree. -/
def PrefixLess (a b : Network) : Prop :=
  a.prefixLength = b.prefixLength ∧ a.netPrefix.sortKey < b.netPrefix.sortKey

theorem compareNetworks_iff : a.compareNetworks b = true ↔ KeyThen nameKey PrefixLess a b := by
  rw [compareNetworks, KeyThen, nameKey, nameKey, map_toNat_inj, PrefixLess]
  split
  case isTrue hsame =>
    rw [hsame.2, IPAddress.operatorLess_iff, or_iff_right (lt_irrefl _)]
    exact ⟨fun hless => ⟨rfl, hsame.1, hless⟩, fun hless => hless.2.2⟩
  case isFalse hother =>
    rw [textLess, decide_eq_true_eq]
    exact ⟨.inl, fun hless => hless.resolve_right fun hsame => hother ⟨hsame.2.1, hsame.1⟩⟩

theorem not_prefixLess_iff :
    ¬PrefixLess a b ∧ ¬PrefixLess b a ↔ (a.prefixLength = b.prefixLength → a.netPrefix = b.netPrefix) := by
  constructor
  · rintro ⟨hab, hba⟩ hlen
    refine IPAddress.sortKey_inj (le_antisymm ?_ ?_)
    · exact not_lt.mp fun hlt => hba ⟨hlen.symm, hlt⟩
    · exact not_lt.mp fun hlt => hab ⟨hlen, hlt⟩
  · intro hsame
    refine ⟨fun hab => ?_, fun hba => ?_⟩
    · exact (hsame hab.1 ▸ hab.2).false
    · exact (hsame hba.1.symm ▸ hba.2).false

/-- **When `CompareNetworks` is a strict weak order.** On each interface either all networks have one length,
or those of one length have one prefix. -/
theorem strictWeakOn_compareNetworks_iff (S : Set Network) :
    StrictWeakOn S (fun a b => a.compareNetworks b = true) ↔
      ∀ a ∈ S, ∀ b ∈ S, ∀ c ∈ S, a.name = b.name → b.name = c.name → a.prefixLength = c.prefixLength →
        b.prefixLength ≠ a.prefixLength → a.netPrefix = c.netPrefix := by
  simp only [compareNetworks_iff]
  rw [strictWeakOn_key_iff]
  constructor
  · intro h a ha b hb c hc hab hbc hlen hother
    have hincomp := (h b.nameKey).incomp a ⟨ha, map_toNat_inj.mpr hab⟩ b ⟨hb, rfl⟩
      c ⟨hc, map_toNat_inj.mpr hbc.symm⟩
      (fun hless => hother hless.1.symm) (fun hless => hother hless.1)
      (fun hless => hother (hless.1.trans hlen.symm)) fun hless => hother (hless.1.symm.trans hlen.symm)
    exact not_prefixLess_iff.mp hincomp hlen
  intro h k
  refine ⟨?_, ?_, ?_, ?_⟩
  · exact fun a _ hless => lt_irrefl _ hless.2
  · exact fun a _ b _ hab hba => lt_asymm hab.2 hba.2
  · exact fun a _ b _ c _ hab hbc => ⟨hab.1.trans hbc.1, hab.2.trans hbc.2⟩
  intro a ha b hb c hc hab hba hbc hcb
  have hnames {a b : Network} (ha : nameKey a = k) (hb : nameKey b = k) : a.name = b.name :=
    map_toNat_inj.mp (ha.trans hb.symm)
  rw [not_prefixLess_iff]
  intro hlen
  by_cases hsame : b.prefixLength = a.prefixLength
  · have hleft := not_prefixLess_iff.mp ⟨hab, hba⟩ hsame.symm
    exact hleft.trans (not_prefixLess_iff.mp ⟨hbc, hcb⟩ (hsame.trans hlen))
  · exact h a ha.1 b hb.1 c hc.1 (hnames ha.2 hb.2) (hnames hb.2 hc.2) hlen hsame

/-- The networks `10.0.0.0/24`, `10.0.1.0/24` and `10.0.0.0/16` of one interface. -/
theorem not_strictWeakOn_threeNetworks :
    ¬StrictWeakOn Set.univ fun a b : Network => a.compareNetworks b = true := by
  intro h
  have hincomp := h.incomp ⟨[101], .ipv4 0x0A000000, 24⟩ trivial ⟨[101], .ipv4 0x0A000000, 16⟩ trivial
    ⟨[101], .ipv4 0x0A000100, 24⟩ trivial (by decide) (by decide) (by decide) (by decide)
  exact hincomp.1 (by decide)

end Network

end Synciga.TalkBase
