import Synciga.PseudoTcp.Sending

/-!
# The sending loops end by themselves

The loops of `transmit` and `attemptSend` are written with a bound on their rounds, which is no part of the
behaviour: with any larger one the result is the same. `lowerMss` and `transmitLoop` move down
`PACKET_MAXIMUMS`, and a round of `attemptSend` sends a byte of a fresh segment or marks an empty one.

## Main definitions

* `freshWork` — what is left to do
-/

namespace Synciga

/-! ### Fresh segments -/

variable (l : List SSegment)

/-- Twice the bytes of the fresh segments, and one for each. -/
def freshWork : ℕ :=
  (l.map fun g => if g.xmit = 0 then 2 * g.len.toNat + 1 else 0).sum

@[simp] theorem freshWork_nil : freshWork [] = 0 := rfl

@[simp] theorem freshWork_append (l₁ l₂ : List SSegment) :
    freshWork (l₁ ++ l₂) = freshWork l₁ + freshWork l₂ := by
  simp [freshWork]

theorem freshWork_cons_of_fresh {g : SSegment} (h : g.xmit = 0) :
    freshWork (g :: l) = 2 * g.len.toNat + 1 + freshWork l := by
  simp [freshWork, h]

theorem freshWork_cons_of_xmit {g : SSegment} (h : g.xmit ≠ 0) : freshWork (g :: l) = freshWork l := by
  simp [freshWork, h]

theorem freshWork_le : freshWork l ≤ 2 * lens l + l.length := by
  induction l with
  | nil => exact Nat.le_refl 0
  | cons g l ih =>
    rw [lens_cons, List.length_cons]
    by_cases hg : g.xmit = 0
    · rw [freshWork_cons_of_fresh l hg]
      omega
    · rw [freshWork_cons_of_xmit l hg]
      omega

namespace PseudoTcp

variable (env : Env) {s s' : PseudoTcp}

/-! ### Moving down the packet sizes -/

variable {fuel : ℕ}

theorem msslevel_packet (s : PseudoTcp) (seq : UInt32) (flags : UInt8) (offset len : UInt32) :
    (s.packet env seq flags offset len).2.msslevel = s.msslevel := by
  simp only [packet]
  split <;> rfl

theorem transmitLoop_of_le (seg : SSegment) (nTransmit : UInt32) (hpos : 0 < fuel)
    (h : PACKET_MAXIMUMS.length ≤ s.msslevel + fuel) (extra : ℕ) :
    transmitLoop env seg (fuel + extra) nTransmit s = transmitLoop env seg fuel nTransmit s := by
  induction fuel generalizing s nTransmit with
  | zero => exact absurd hpos (Nat.lt_irrefl 0)
  | succ fuel ih =>
    have hlevel := msslevel_packet env s seg.seq (if seg.bCtrl then FLAG_CTL else 0)
      (seg.seq - s.sndUna) nTransmit
    rw [Nat.add_right_comm, transmitLoop, transmitLoop]
    rcases hp : s.packet env seg.seq (if seg.bCtrl then FLAG_CTL else 0) (seg.seq - s.sndUna)
      nTransmit with ⟨wres, t⟩
    replace hlevel : t.msslevel = s.msslevel := by rw [← hlevel, hp]
    cases wres with
    | success => rfl
    | fail => rfl
    | tooLarge =>
      simp only
      rcases hm : t.lowerMss nTransmit PACKET_MAXIMUMS.length with ⟨_ | n, t'⟩
      · rfl
      · obtain ⟨-, hlt, hlen⟩ := lowerMss_some hm
        exact ih n (by omega) (by omega)

/-! ### The rounds of `attemptSend` -/

theorem sendable_of_mss_eq_zero (h : s.mss = 0) : s.sendable = 0 := by
  have hmin : ∀ a : UInt32, min a 0 = 0 := by
    intro a
    rw [show min a 0 = if a ≤ 0 then a else 0 from rfl]
    split
    · next ha => exact UInt32.le_zero_iff.mp ha
    · rfl
  simp only [sendable, h, hmin]
  exact if_neg (UInt32.not_lt_zero)

theorem mss_splitSegment (s : PseudoTcp) (i : ℕ) (nAvailable : UInt32) :
    (s.splitSegment i nAvailable).mss = s.mss := by
  rw [splitSegment]
  split
  · rfl
  · split <;> rfl

/-- `transmit` of a fresh segment does some of the work: a byte's worth at least if the segment has
one, and the mark otherwise. -/
theorem freshWork_transmit {l₁ l₂ : List SSegment} {g : SSegment} {now : UInt32}
    (hl : s.slist = l₁ ++ g :: l₂) (hfresh : g.xmit = 0) (hmss : s.mss ≠ 0)
    (h : s.transmit env l₁.length now = (true, s')) :
    freshWork s'.slist + (if g.len = 0 then 1 else 2) ≤ freshWork s.slist := by
  obtain ⟨s₁, hs₁, -⟩ | ⟨s₁, k₁, g', k₂, n, hs₁, hlen, ht⟩ := transmit_cases env s l₁.length now
  · rw [hs₁] at h
    cases h
  rw [hs₁] at h
  cases h
  -- The segment that was transmitted is the one that stood there.
  obtain ⟨rfl, htail⟩ := List.append_inj (ht.before.symm.trans hl) hlen
  obtain ⟨rfl, rfl⟩ := List.cons.inj htail
  rw [ht.after, hl, freshWork_append, freshWork_append, freshWork_append,
    freshWork_cons_of_xmit _ (show (sentPart g' n).xmit ≠ 0 from ht.counted),
    freshWork_cons_of_fresh k₂ hfresh, restPart]
  by_cases hlt : n < g'.len
  · -- A part of the segment stays fresh, shorter by what was sent.
    have hn : n ≠ 0 := ht.ne_zero (by grind) hmss
    have hrest : freshWork [⟨g'.seq + n, g'.len - n, g'.xmit, g'.bCtrl⟩] =
        2 * (g'.len - n).toNat + 1 := freshWork_cons_of_fresh [] hfresh
    rw [if_pos hlt, hrest]
    have hsub := UInt32.toNat_sub_of_le _ _ (UInt32.le_of_lt hlt)
    have hpos : n.toNat ≠ 0 := fun hz => hn (UInt32.toNat_inj.mp hz)
    rw [UInt32.lt_iff_toNat_lt] at hlt
    split <;> omega
  rw [if_neg hlt, freshWork_nil]
  split
  · omega
  next hne =>
  have hpos : g'.len.toNat ≠ 0 := fun hz => hne (UInt32.toNat_inj.mp hz)
  omega

/-- Splitting the segment adds one to the work, and only where a part with a byte is sent next. -/
theorem freshWork_splitSegment {l₁ l₂ : List SSegment} {g : SSegment} {nAvailable : UInt32}
    (hl : s.slist = l₁ ++ g :: l₂) (hfresh : g.xmit = 0) (hne : nAvailable ≠ 0) :
    ∃ g' l₂', (s.splitSegment l₁.length nAvailable).slist = l₁ ++ g' :: l₂' ∧ g'.xmit = 0 ∧
      freshWork (l₁ ++ g' :: l₂') < freshWork s.slist + (if g'.len = 0 then 1 else 2) := by
  rw [splitSegment, getElem?_of_eq_append hl]
  simp only
  split
  · next hlt =>
    refine ⟨{ g with len := nAvailable },
      SSegment.new (g.seq + nAvailable) (g.len - nAvailable) g.bCtrl :: l₂, ?_, hfresh, ?_⟩
    · rw [hl, replaceAt_append, List.append_assoc]
      rfl
    have hsub := UInt32.toNat_sub_of_le _ _ (UInt32.le_of_lt hlt)
    rw [UInt32.lt_iff_toNat_lt] at hlt
    have hparts : freshWork ({ g with len := nAvailable } ::
        SSegment.new (g.seq + nAvailable) (g.len - nAvailable) g.bCtrl :: l₂) =
          2 * nAvailable.toNat + 1 + (2 * (g.len - nAvailable).toNat + 1 + freshWork l₂) := by
      rw [freshWork_cons_of_fresh (g := { g with len := nAvailable }) _ hfresh,
        freshWork_cons_of_fresh (g := SSegment.new _ _ _) _ rfl]
      rfl
    rw [hl, freshWork_append, freshWork_append, hparts, freshWork_cons_of_fresh _ hfresh,
      if_neg hne]
    omega
  · refine ⟨g, l₂, hl, hfresh, ?_⟩
    rw [hl]
    split <;> omega

theorem freshWork_round {i : ℕ} {now : UInt32} (hsend : s.sendable ≠ 0)
    (hi : s.slist.findIdx? (fun seg => seg.xmit = 0) = some i)
    (h : (s.splitSegment i s.sendable).transmit env i now = (true, s')) :
    freshWork s'.slist < freshWork s.slist := by
  obtain ⟨⟨l₁, g, l₂, hl, rfl, hfresh⟩, -⟩ := sent_of_findIdx? hi
  obtain ⟨g', l₂', hsplit, hfresh', hwork⟩ := freshWork_splitSegment hl hfresh hsend
  have hmss : (s.splitSegment l₁.length s.sendable).mss ≠ 0 := by
    rw [mss_splitSegment]
    exact fun hz => hsend (sendable_of_mss_eq_zero hz)
  have hsent := freshWork_transmit env hsplit hfresh' hmss h
  rw [hsplit] at hsent
  omega

theorem attemptSendLoop_of_le (now : UInt32) (sflags : SendFlags)
    (h : freshWork s.slist < fuel) (extra : ℕ) :
    attemptSendLoop env now (fuel + extra) sflags s = attemptSendLoop env now fuel sflags s := by
  induction fuel generalizing s sflags with
  | zero => exact absurd h (Nat.not_lt_zero _)
  | succ fuel ih =>
    rw [Nat.add_right_comm, attemptSendLoop, attemptSendLoop]
    by_cases hsend : s.sendable = 0
    · rw [if_pos hsend, if_pos hsend]
    rw [if_neg hsend, if_neg hsend]
    split
    · rfl
    split
    · rfl
    next i hi =>
    rcases hr : (s.splitSegment i s.sendable).transmit env i now with ⟨_ | _, s'⟩
    · rfl
    · have hless := freshWork_round env hsend hi hr
      exact ih .none (by omega)

/-! ### The loops have no endless runs -/

/-- A round of `attemptSend` that another one follows. -/
def AttemptSendRound (now : UInt32) (s' s : PseudoTcp) : Prop :=
  s.sendable ≠ 0 ∧ ¬(s.useNagling ∧ s.sndUna < s.sndNxt ∧ s.sendable < s.mss) ∧
    ∃ i, s.slist.findIdx? (fun seg => seg.xmit = 0) = some i ∧
      (s.splitSegment i s.sendable).transmit env i now = (true, s')

/-- A round of `transmit` that another one follows: the packet is too large, and there is a size below. -/
def TransmitRound (seg : SSegment) (x' x : UInt32 × PseudoTcp) : Prop :=
  ∃ s, x.2.packet env seg.seq (if seg.bCtrl then FLAG_CTL else 0) (seg.seq - x.2.sndUna) x.1 =
      (.tooLarge, s) ∧ s.lowerMss x.1 PACKET_MAXIMUMS.length = (some x'.1, x'.2)

/-- A round of the loop over the sizes that another one follows. -/
def LowerMssRound (nTransmit : UInt32) (s' s : PseudoTcp) : Prop :=
  packetMaximum (s.msslevel + 1) ≠ 0 ∧
    nTransmit ≤ packetMaximum (s.msslevel + 1) - PACKET_OVERHEAD ∧ s'.msslevel = s.msslevel + 1

theorem wellFounded_attemptSendRound (now : UInt32) : WellFounded (AttemptSendRound env now) := by
  refine Subrelation.wf (fun {s' s} h => ?_) (measure fun s : PseudoTcp => freshWork s.slist).wf
  obtain ⟨hsend, -, i, hi, htransmit⟩ := h
  exact freshWork_round env hsend hi htransmit

theorem wellFounded_transmitRound (seg : SSegment) : WellFounded (TransmitRound env seg) := by
  refine Subrelation.wf (fun {x' x} h => ?_)
    (measure fun x : UInt32 × PseudoTcp => PACKET_MAXIMUMS.length - x.2.msslevel).wf
  obtain ⟨s, hpacket, hlower⟩ := h
  obtain ⟨-, hlt, hlen⟩ := lowerMss_some hlower
  have hlevel : s.msslevel = x.2.msslevel := by
    rw [← msslevel_packet env x.2 seg.seq _ _ x.1, hpacket]
  change PACKET_MAXIMUMS.length - x'.2.msslevel < PACKET_MAXIMUMS.length - x.2.msslevel
  omega

theorem wellFounded_lowerMssRound (nTransmit : UInt32) : WellFounded (LowerMssRound nTransmit) := by
  refine Subrelation.wf (fun {s' s} h => ?_)
    (measure fun s : PseudoTcp => PACKET_MAXIMUMS.length - s.msslevel).wf
  obtain ⟨hne, -, hlevel⟩ := h
  have hlt : s.msslevel + 1 < PACKET_MAXIMUMS.length := by
    by_contra hge
    exact hne (packetMaximum_of_le (Nat.not_lt.mp hge))
  change PACKET_MAXIMUMS.length - s'.msslevel < PACKET_MAXIMUMS.length - s.msslevel
  omega

end PseudoTcp

end Synciga
