import Synciga.PseudoTcp.Endpoint

/-!
# The segment size and the congestion window

`adjustMTU` computes `m_mss`, the largest payload, as the advised MTU without the overhead, and has the window
`m_cwnd` hold one segment. The window is set anew when the MTU is reduced, after a time of silence, at both ends
of a recovery and when the timer runs out, and acknowledgments open it further. An MTU that is not larger than
the overhead underflows.

## Main results

* `paced_of_run` — how both change, while no such MTU is told
* `not_paced_after_small_mtu` — one that is
-/

namespace Synciga

/-! ### Numbers of 32 bits -/

theorem toNat_min_uint32 (a b : UInt32) : (min a b).toNat = min a.toNat b.toNat := by
  rw [show min a b = if a ≤ b then a else b from rfl]
  split
  next h => exact (Nat.min_eq_left (UInt32.le_iff_toNat_le.mp h)).symm
  next h => exact (Nat.min_eq_right (UInt32.le_iff_toNat_le.mp (UInt32.le_of_lt (UInt32.not_le.mp h)))).symm

theorem toNat_max_uint32 (a b : UInt32) : (max a b).toNat = max a.toNat b.toNat := by
  rw [show max a b = if a ≤ b then b else a from rfl]
  split
  next h => exact (Nat.max_eq_right (UInt32.le_iff_toNat_le.mp h)).symm
  next h => exact (Nat.max_eq_left (UInt32.le_iff_toNat_le.mp (UInt32.le_of_lt (UInt32.not_le.mp h)))).symm

theorem toNat_overhead : PACKET_OVERHEAD.toNat = 116 := rfl

namespace PseudoTcp

variable (env : Env) {s s' : PseudoTcp}

/-! ### What is to be kept in order -/

/-- The numbers of the congestion control and the packets. -/
structure Pace where
  mss : UInt32
  cwnd : UInt32
  mtuAdvise : UInt32
  written : List (List UInt8 × WriteResult)

/-- Those of a connection. -/
def pace (s : PseudoTcp) : Pace := ⟨s.mss, s.cwnd, s.mtuAdvise, s.written⟩

/-- A segment is at least one byte and fits a packet, the window holds one, and so do the packets that
were handed over. -/
structure Paced (s : PseudoTcp) : Prop where
  pos : 0 < s.mss.toNat
  fits : s.mss.toNat + 116 ≤ 65535
  window : s.mss.toNat ≤ s.cwnd.toNat
  advise : s.mtuAdvise.toNat ≤ 65535
  packets : ∀ p ∈ s.written, p.1.length ≤ 65535

theorem Paced.of_pace (h : s.Paced) (heq : s'.pace = s.pace) : s'.Paced := by
  simp only [pace, Pace.mk.injEq] at heq
  obtain ⟨hmss, hcwnd, hadvise, hwritten⟩ := heq
  refine ⟨?_, ?_, ?_, ?_, ?_⟩
  · rw [hmss]
    exact h.pos
  · rw [hmss]
    exact h.fits
  · rw [hmss, hcwnd]
    exact h.window
  · rw [hadvise]
    exact h.advise
  · rw [hwritten]
    exact h.packets

theorem paced_new (conv : UInt32) : (new env conv).Paced where
  pos := show 0 < (MIN_PACKET - PACKET_OVERHEAD).toNat by decide
  fits := show (MIN_PACKET - PACKET_OVERHEAD).toNat + 116 ≤ 65535 by decide
  window := show (MIN_PACKET - PACKET_OVERHEAD).toNat ≤
    (2 * (MIN_PACKET - PACKET_OVERHEAD)).toNat by decide
  advise := show MAX_PACKET.toNat ≤ 65535 by decide
  packets := nofun

theorem Paced.setWindow (h : s.Paced) {cwnd : UInt32} (hle : s.mss.toNat ≤ cwnd.toNat) :
    Paced { s with cwnd := cwnd } :=
  ⟨h.pos, h.fits, hle, h.advise, h.packets⟩

/-! ### Handing packets over -/

theorem length_payload_le (s : PseudoTcp) (offset len : UInt32) :
    (s.payload env offset len).length ≤ len.toNat := by
  rw [payload]
  split
  · exact Nat.zero_le _
  have hread : (s.sbuf.readOffset len.toNat offset.toNat).2.length ≤ len.toNat := by
    simp only [FifoBuffer.readOffset]
    split
    · exact Nat.zero_le _
    · simp only [List.length_append, RingMemory.length_readMem]
      omega
  simp only [List.length_append, List.length_map, List.length_range]
  omega

theorem packet_pace (s : PseudoTcp) (seq : UInt32) (flags : UInt8) (offset len : UInt32) :
    (s.packet env seq flags offset len).2.pace = ⟨s.mss, s.cwnd, s.mtuAdvise,
      (s.header seq flags (s.now env) ++ s.payload env offset len,
        env.writeResult s.written.length) :: s.written⟩ := by
  simp only [packet]
  split <;> rfl

theorem Paced.packet (h : s.Paced) (seq : UInt32) (flags : UInt8) (offset : UInt32) {len : UInt32}
    (hlen : len.toNat + 116 ≤ 65535) : (s.packet env seq flags offset len).2.Paced := by
  have hpace := packet_pace env s seq flags offset len
  have hpayload := length_payload_le env s offset len
  refine Paced.of_pace (s := { s with written := (s.header seq flags (s.now env) ++
    s.payload env offset len, env.writeResult s.written.length) :: s.written }) ?_ hpace
  refine ⟨h.pos, h.fits, h.window, h.advise, fun p hp => ?_⟩
  rcases List.mem_cons.mp hp with rfl | hp
  · have hheader : (s.header seq flags (s.now env)).length = 24 := rfl
    rw [List.length_append, hheader]
    omega
  · exact h.packets p hp

theorem packetMaximum_bounds {level : ℕ} (h : packetMaximum (level + 1) ≠ 0) :
    0 < (packetMaximum (level + 1) - PACKET_OVERHEAD).toNat ∧
      (packetMaximum (level + 1) - PACKET_OVERHEAD).toNat ≤ 32000 := by
  rcases Nat.lt_or_ge (level + 1) PACKET_MAXIMUMS.length with hlt | hge
  · change level + 1 < 11 at hlt
    have hlt : level < 10 := by omega
    interval_cases level <;> first | decide | exact absurd rfl h
  · exact absurd (packetMaximum_of_le hge) h

/-- The window is as it was, or twice a small segment. -/
def Lowers (s s' : PseudoTcp) : Prop :=
  s'.mss = s.mss ∧ s'.cwnd = s.cwnd ∨ s'.mss.toNat ≤ 32000 ∧ s'.cwnd = 2 * s'.mss

theorem Lowers.trans {t : PseudoTcp} (h : Lowers s s') (h' : Lowers s' t) : Lowers s t := by
  rcases h' with ⟨hmss, hcwnd⟩ | hlow
  · rcases h with ⟨hmss', hcwnd'⟩ | hlow
    · exact .inl ⟨hmss.trans hmss', hcwnd.trans hcwnd'⟩
    · rw [Lowers, hmss, hcwnd]
      exact .inr hlow
  · exact .inr hlow

theorem Paced.lowerMss (h : s.Paced) (nTransmit : UInt32) (fuel : ℕ) :
    (s.lowerMss nTransmit fuel).2.Paced ∧ Lowers s (s.lowerMss nTransmit fuel).2 ∧
      ∀ n, (s.lowerMss nTransmit fuel).1 = some n → n.toNat ≤ 32000 := by
  induction fuel generalizing s with
  | zero => exact ⟨h, .inl ⟨rfl, rfl⟩, by rintro _ ⟨⟩⟩
  | succ fuel ih =>
    rw [PseudoTcp.lowerMss]
    split
    · exact ⟨h, .inl ⟨rfl, rfl⟩, by rintro _ ⟨⟩⟩
    next hne =>
    obtain ⟨hpos, hle⟩ := packetMaximum_bounds hne
    simp only
    generalize packetMaximum (s.msslevel + 1) - PACKET_OVERHEAD = mss at hpos hle ⊢
    have hdouble : (2 * mss).toNat = 2 * mss.toNat := by
      rw [UInt32.toNat_mul, show (2 : UInt32).toNat = 2 from rfl]
      omega
    have hlow : Paced { s with msslevel := s.msslevel + 1, mss := mss, cwnd := 2 * mss } :=
      ⟨hpos, by change mss.toNat + 116 ≤ 65535; omega, by change mss.toNat ≤ (2 * mss).toNat; omega,
        h.advise, h.packets⟩
    have hlowers : Lowers s { s with msslevel := s.msslevel + 1, mss := mss, cwnd := 2 * mss } :=
      .inr ⟨hle, rfl⟩
    split
    · refine ⟨hlow, hlowers, fun n hn => ?_⟩
      obtain rfl := Option.some.inj hn
      exact hle
    · obtain ⟨hpaced, hrest, hn⟩ := ih hlow
      exact ⟨hpaced, hlowers.trans hrest, hn⟩

theorem Paced.transmitLoop (seg : SSegment) (fuel : ℕ) {nTransmit : UInt32} (h : s.Paced)
    (hn : nTransmit.toNat + 116 ≤ 65535) :
    (transmitLoop env seg fuel nTransmit s).2.Paced ∧
      Lowers s (transmitLoop env seg fuel nTransmit s).2 := by
  induction fuel generalizing s nTransmit with
  | zero => exact ⟨h, .inl ⟨rfl, rfl⟩⟩
  | succ fuel ih =>
    have hpaced := h.packet env seg.seq (if seg.bCtrl then FLAG_CTL else 0) (seg.seq - s.sndUna) hn
    have hpace := packet_pace env s seg.seq (if seg.bCtrl then FLAG_CTL else 0)
      (seg.seq - s.sndUna) nTransmit
    rw [PseudoTcp.transmitLoop]
    generalize s.packet env seg.seq (if seg.bCtrl then FLAG_CTL else 0) (seg.seq - s.sndUna)
      nTransmit = r at hpaced hpace ⊢
    obtain ⟨wres, t⟩ := r
    have hsame : Lowers s t := .inl ⟨congrArg Pace.mss hpace, congrArg Pace.cwnd hpace⟩
    cases wres with
    | success => exact ⟨hpaced, hsame⟩
    | fail => exact ⟨hpaced, hsame⟩
    | tooLarge =>
      obtain ⟨hlow, hlowers, hbound⟩ := Paced.lowerMss hpaced nTransmit PACKET_MAXIMUMS.length
      simp only
      generalize t.lowerMss nTransmit PACKET_MAXIMUMS.length = r at hlow hlowers hbound ⊢
      obtain ⟨_ | n, t'⟩ := r
      · exact ⟨hlow, hsame.trans hlowers⟩
      · have hle := hbound n rfl
        obtain ⟨hpaced', hrest⟩ := ih hlow (show n.toNat + 116 ≤ 65535 by omega)
        exact ⟨hpaced', (hsame.trans hlowers).trans hrest⟩

theorem Paced.transmit (h : s.Paced) (i : ℕ) (now : UInt32) :
    (s.transmit env i now).2.Paced ∧ Lowers s (s.transmit env i now).2 := by
  rw [PseudoTcp.transmit]
  rcases s.slist[i]? with _ | seg
  · exact ⟨h, .inl ⟨rfl, rfl⟩⟩
  simp only
  by_cases hlimit : (if s.state = .established then 15 else 30) ≤ seg.xmit
  · rw [if_pos hlimit]
    exact ⟨h, .inl ⟨rfl, rfl⟩⟩
  rw [if_neg hlimit]
  have hmin : (min seg.len s.mss).toNat + 116 ≤ 65535 := by
    have hfits := h.fits
    rw [toNat_min_uint32]
    omega
  obtain ⟨hpaced, hlowers⟩ := Paced.transmitLoop env seg PACKET_MAXIMUMS.length h hmin
  generalize PseudoTcp.transmitLoop env seg PACKET_MAXIMUMS.length (min seg.len s.mss) s = r
    at hpaced hlowers ⊢
  obtain ⟨_ | n, t⟩ := r
  · exact ⟨hpaced, hlowers⟩
  · exact ⟨hpaced.of_pace rfl, hlowers⟩

theorem Paced.attemptSendLoop (now : UInt32) (fuel : ℕ) (sflags : SendFlags) (h : s.Paced) :
    (attemptSendLoop env now fuel sflags s).Paced := by
  induction fuel generalizing s sflags with
  | zero => exact h
  | succ fuel ih =>
    rw [PseudoTcp.attemptSendLoop]
    simp only
    split
    · split
      · exact h
      split
      · exact h.packet env s.sndNxt 0 0 (by decide)
      · exact h.of_pace rfl
    split
    · exact h
    split
    · exact h
    next i _ =>
    have hsplit : (s.splitSegment i s.sendable).Paced := by
      refine h.of_pace ?_
      rw [splitSegment]
      split
      · rfl
      · split <;> rfl
    have htransmit := (hsplit.transmit env i now).1
    generalize (s.splitSegment i s.sendable).transmit env i now = r at htransmit ⊢
    obtain ⟨_ | _, t⟩ := r
    · exact htransmit
    · exact ih .none htransmit

theorem Paced.attemptSend (h : s.Paced) (sflags : SendFlags) : (s.attemptSend env sflags).Paced := by
  refine Paced.attemptSendLoop env _ _ _ ?_
  split
  · exact ⟨h.pos, h.fits, le_rfl, h.advise, h.packets⟩
  · exact h.of_pace rfl

/-! ### The advised MTU -/

theorem Paced.adjustMTU (h : s.Paced) (hmtu : 116 < s.mtuAdvise.toNat) : s.adjustMTU.Paced := by
  have hadvise := h.advise
  have hmss : (s.mtuAdvise - PACKET_OVERHEAD).toNat = s.mtuAdvise.toNat - 116 := by
    rw [UInt32.toNat_sub_of_le _ _ (UInt32.le_iff_toNat_le.mpr (by rw [toNat_overhead]; omega)),
      toNat_overhead]
  refine ⟨?_, ?_, ?_, hadvise, h.packets⟩
  · change 0 < (s.mtuAdvise - PACKET_OVERHEAD).toNat
    omega
  · change (s.mtuAdvise - PACKET_OVERHEAD).toNat + 116 ≤ 65535
    omega
  · change (s.mtuAdvise - PACKET_OVERHEAD).toNat ≤ (max s.cwnd (s.mtuAdvise - PACKET_OVERHEAD)).toNat
    rw [toNat_max_uint32]
    exact le_max_right _ _

theorem Paced.notifyMTU (h : s.Paced) {mtu : UInt16}
    (hmtu : s.state = .established → 116 < mtu.toNat) : (s.notifyMTU mtu).Paced := by
  have hset : Paced { s with mtuAdvise := mtu.toUInt32 } :=
    ⟨h.pos, h.fits, h.window, Nat.le_of_lt_succ mtu.toNat_lt, h.packets⟩
  simp only [PseudoTcp.notifyMTU]
  split
  next hstate => exact hset.adjustMTU (hmtu hstate)
  next => exact hset

/-! ### Acknowledgments -/

/-- An acknowledgment opens the window within its 32 bits, and the end of a recovery leaves room for a
segment. -/
structure AcksWithin (s : PseudoTcp) (seg : Segment) : Prop where
  ends : s.valuableAck seg.ack → 3 ≤ s.dupAcks → s.recover ≤ seg.ack →
    s.mss.toNat ≤ s.ssthresh.toNat ∧ (s.sndNxt - seg.ack).toNat + s.mss.toNat < 2 ^ 32
  partly : s.valuableAck seg.ack → 3 ≤ s.dupAcks → ¬ s.recover ≤ seg.ack →
    s.cwnd.toNat - (seg.ack - s.sndUna).toNat + s.mss.toNat < 2 ^ 32
  opens : s.valuableAck seg.ack → ¬ 3 ≤ s.dupAcks → s.cwnd.toNat +
    (if s.cwnd < s.ssthresh then s.mss.toNat
      else max 1 (s.mss.toNat * s.mss.toNat / s.cwnd.toNat)) < 2 ^ 32
  duplicate : seg.ack = s.sndUna → seg.len = 0 → s.sndUna ≠ s.sndNxt → 3 < s.dupAcks + 1 →
    s.cwnd.toNat + s.mss.toNat < 2 ^ 32

set_option synthInstance.maxSize 1000 in
instance (s : PseudoTcp) (seg : Segment) : Decidable (s.AcksWithin seg) :=
  decidable_of_iff (_ ∧ _ ∧ _ ∧ _)
    ⟨fun ⟨h₁, h₂, h₃, h₄⟩ => ⟨h₁, h₂, h₃, h₄⟩, fun ⟨h₁, h₂, h₃, h₄⟩ => ⟨h₁, h₂, h₃, h₄⟩⟩

theorem Paced.addWindow (h : s.Paced) {n : UInt32} (hn : s.cwnd.toNat + n.toNat < 2 ^ 32) :
    Paced { s with cwnd := s.cwnd + n } := by
  refine h.setWindow ?_
  have hwindow := h.window
  rw [UInt32.toNat_add, Nat.mod_eq_of_lt hn]
  omega

variable {nAcked : UInt32}

theorem Paced.deflate (h : s.Paced) (hn : s.cwnd.toNat - nAcked.toNat + s.mss.toNat < 2 ^ 32) :
    Paced { s with cwnd := s.cwnd + (s.mss - min nAcked s.cwnd) } := by
  refine h.setWindow ?_
  have hmin := toNat_min_uint32 nAcked s.cwnd
  have hle : min nAcked s.cwnd ≤ s.cwnd := UInt32.le_iff_toNat_le.mpr (hmin ▸ min_le_right _ _)
  -- Subtracting first changes nothing modulo `2 ^ 32`.
  have hswap : s.cwnd + (s.mss - min nAcked s.cwnd) = s.cwnd - min nAcked s.cwnd + s.mss := by grind
  have hsub := UInt32.toNat_sub_of_le _ _ hle
  rw [hswap, UInt32.toNat_add, Nat.mod_eq_of_lt (by omega)]
  omega

theorem Lowers.room (h : Lowers s s') (hs : s.cwnd.toNat - nAcked.toNat + s.mss.toNat < 2 ^ 32) :
    s'.cwnd.toNat - nAcked.toNat + s'.mss.toNat < 2 ^ 32 := by
  rcases h with ⟨hmss, hcwnd⟩ | ⟨hle, hcwnd⟩
  · rw [hmss, hcwnd]
    exact hs
  · rw [hcwnd, UInt32.toNat_mul, show (2 : UInt32).toNat = 2 from rfl]
    omega

theorem Paced.endRecovery (h : s.Paced) (hss : s.mss.toNat ≤ s.ssthresh.toNat)
    (hroom : (s.sndNxt - s.sndUna).toNat + s.mss.toNat < 2 ^ 32) :
    Paced { s with cwnd := min s.ssthresh (s.sndNxt - s.sndUna + s.mss), dupAcks := 0 } := by
  refine Paced.of_pace (s := { s with cwnd := min s.ssthresh (s.sndNxt - s.sndUna + s.mss) }) ?_ rfl
  refine h.setWindow ?_
  rw [toNat_min_uint32, UInt32.toNat_add, Nat.mod_eq_of_lt hroom]
  omega

theorem Paced.beginRecovery (h : s.Paced) (nInFlight : UInt32) :
    Paced { s with cwnd := max (nInFlight / 2) (2 * s.mss) + 3 * s.mss } := by
  refine h.setWindow ?_
  have hfits := h.fits
  have htwo : (2 * s.mss).toNat = 2 * s.mss.toNat := by
    rw [UInt32.toNat_mul, show (2 : UInt32).toNat = 2 from rfl]
    omega
  have hthree : (3 * s.mss).toNat = 3 * s.mss.toNat := by
    rw [UInt32.toNat_mul, show (3 : UInt32).toNat = 3 from rfl]
    omega
  have hhalf : (nInFlight / 2).toNat ≤ 2 ^ 31 := by
    have hlt := nInFlight.toNat_lt
    rw [UInt32.toNat_div, show (2 : UInt32).toNat = 2 from rfl]
    omega
  have hmax := toNat_max_uint32 (nInFlight / 2) (2 * s.mss)
  rw [UInt32.toNat_add, Nat.mod_eq_of_lt (by omega)]
  omega

theorem Paced.afterAck (h : s.Paced) (now : UInt32) (hends : 3 ≤ s.dupAcks → s.recover ≤ s.sndUna →
      s.mss.toNat ≤ s.ssthresh.toNat ∧ (s.sndNxt - s.sndUna).toNat + s.mss.toNat < 2 ^ 32)
    (hpartly : 3 ≤ s.dupAcks → ¬ s.recover ≤ s.sndUna → s.cwnd.toNat - nAcked.toNat + s.mss.toNat < 2 ^ 32)
    (hopens : ¬ 3 ≤ s.dupAcks → s.cwnd.toNat + (if s.cwnd < s.ssthresh then s.mss.toNat
      else max 1 (s.mss.toNat * s.mss.toNat / s.cwnd.toNat)) < 2 ^ 32) :
    (s.afterAck env now nAcked).2.Paced := by
  rw [PseudoTcp.afterAck]
  split
  next hdup =>
    split
    next hrecover =>
      obtain ⟨hss, hroom⟩ := hends hdup hrecover
      exact h.endRecovery hss hroom
    next hrecover =>
      obtain ⟨hpaced, hlowers⟩ := h.transmit env 0 now
      have hroom := hlowers.room (hpartly hdup hrecover)
      generalize s.transmit env 0 now = r at hpaced hroom ⊢
      obtain ⟨_ | _, t⟩ := r
      · exact hpaced.of_pace rfl
      · exact hpaced.deflate hroom
  next hdup =>
    have hroom := hopens hdup
    have hreset : Paced { s with dupAcks := 0 } := h.of_pace rfl
    simp only
    split
    next hslow =>
      rw [if_pos hslow] at hroom
      exact hreset.addWindow hroom
    next hslow =>
      rw [if_neg hslow] at hroom
      refine hreset.addWindow (n := max 1 (s.mss * s.mss / s.cwnd)) ?_
      have hfits := h.fits
      -- The product of two segment sizes fits 32 bits.
      have hsquare : s.mss.toNat * s.mss.toNat < 2 ^ 32 := by
        have hmul := Nat.mul_le_mul (show s.mss.toNat ≤ 65535 by omega)
          (show s.mss.toNat ≤ 65535 by omega)
        omega
      rw [toNat_max_uint32, UInt32.toNat_div, UInt32.toNat_mul, Nat.mod_eq_of_lt hsquare]
      exact hroom

variable {seg : Segment}

theorem Paced.duplicateAck (h : s.Paced) (now : UInt32)
    (hroom : seg.len = 0 → s.sndUna ≠ s.sndNxt → 3 < s.dupAcks + 1 → s.cwnd.toNat + s.mss.toNat < 2 ^ 32) :
    (s.duplicateAck env now seg).2.Paced := by
  have hpace : ∀ wnd dupAcks, Paced { s with sndWnd := wnd, dupAcks := dupAcks } :=
    fun _ _ => h.of_pace rfl
  simp only [PseudoTcp.duplicateAck]
  split
  next => exact h.of_pace rfl
  next hlen =>
  split
  next hmore =>
    split
    next =>
      have htransmit := ((hpace (seg.wnd.toUInt32 <<< s.swndScale.toUInt32)
        (s.dupAcks + 1)).transmit env 0 now).1
      generalize PseudoTcp.transmit env { s with
        sndWnd := seg.wnd.toUInt32 <<< s.swndScale.toUInt32, dupAcks := s.dupAcks + 1 } 0 now = r
        at htransmit ⊢
      obtain ⟨_ | _, t⟩ := r
      · exact htransmit.of_pace rfl
      · exact (htransmit.beginRecovery (t.sndNxt - t.sndUna)).of_pace rfl
    next =>
      split
      next hthree =>
        have hzero : seg.len = 0 := UInt32.not_lt.mp hlen |> UInt32.le_zero_iff.mp
        exact (h.addWindow (hroom hzero hmore hthree)).of_pace rfl
      next => exact hpace _ _
  next => exact hpace _ _

theorem Paced.processAck (h : s.Paced) (now : UInt32) (hok : s.AcksWithin seg) :
    (s.processAck env now seg).2.Paced := by
  rw [PseudoTcp.processAck]
  split
  next hack =>
    have hfields : (s.acceptAck now seg).pace = s.pace ∧
        (s.acceptAck now seg).ssthresh = s.ssthresh ∧
        (s.acceptAck now seg).dupAcks = s.dupAcks ∧ (s.acceptAck now seg).recover = s.recover ∧
        (s.acceptAck now seg).sndNxt = s.sndNxt ∧ (s.acceptAck now seg).sndUna = seg.ack := by
      simp only [acceptAck, updateRtt]
      split <;> simp [pace]
    generalize s.acceptAck now seg = t at hfields ⊢
    obtain ⟨hpace, hss, hdup, hrecover, hnxt, huna⟩ := hfields
    have hmss : t.mss = s.mss := congrArg Pace.mss hpace
    have hcwnd : t.cwnd = s.cwnd := congrArg Pace.cwnd hpace
    refine (h.of_pace hpace).afterAck env now ?_ ?_ ?_
    · rw [hdup, hrecover, hnxt, huna, hmss, hss]
      exact hok.ends hack
    · rw [hdup, hrecover, huna, hmss, hcwnd]
      exact hok.partly hack
    · rw [hdup, hmss, hcwnd, hss]
      exact hok.opens hack
  next =>
    split
    next hsame => exact h.duplicateAck env now (hok.duplicate hsame)
    next => exact h

theorem mtuAdvise_processAck (s : PseudoTcp) (now : UInt32) (seg : Segment) :
    (s.processAck env now seg).2.mtuAdvise = s.mtuAdvise := by
  have htransmit : ∀ t : PseudoTcp, (t.transmit env 0 now).2.mtuAdvise = t.mtuAdvise :=
    fun t => congrArg Steady.mtuAdvise (sending_transmit env t 0 now).steady
  rw [PseudoTcp.processAck]
  split
  · have haccept : (s.acceptAck now seg).mtuAdvise = s.mtuAdvise := by
      simp only [acceptAck, updateRtt]
      split <;> rfl
    generalize s.acceptAck now seg = t at haccept ⊢
    rw [← haccept, PseudoTcp.afterAck]
    split
    · split
      · rfl
      have hsent := htransmit t
      generalize t.transmit env 0 now = r at hsent ⊢
      obtain ⟨_ | _, t'⟩ := r
      · exact hsent
      · exact hsent
    · simp only
      split <;> rfl
  split
  · simp only [PseudoTcp.duplicateAck]
    split
    · rfl
    split
    · split
      · have hsent := htransmit { s with
          sndWnd := seg.wnd.toUInt32 <<< s.swndScale.toUInt32, dupAcks := s.dupAcks + 1 }
        generalize PseudoTcp.transmit env { s with
          sndWnd := seg.wnd.toUInt32 <<< s.swndScale.toUInt32, dupAcks := s.dupAcks + 1 } 0 now = r
          at hsent ⊢
        obtain ⟨_ | _, t⟩ := r
        · exact hsent
        · exact hsent
      · split <;> rfl
    · rfl
  · rfl

/-! ### Segments -/

theorem pace_parseOptions (s : PseudoTcp) (data : List UInt8) :
    (s.parseOptions env data).pace = s.pace := by
  obtain ⟨scale, h⟩ | ⟨-, scale, h⟩ := parseOptions_cases env s data
  · rw [h]
    rfl
  · rw [h]
    rfl

/-- The connection becomes established behind this control part, and `adjustMTU` is called. -/
def Opens (s : PseudoTcp) (bConnect : Bool) : Prop :=
  s.state = .synSent ∧ bConnect = true ∨ s.state = .synReceived ∧ bConnect = false

instance (s : PseudoTcp) (bConnect : Bool) : Decidable (s.Opens bConnect) :=
  inferInstanceAs (Decidable (_ ∨ _))

theorem Paced.processControl (h : s.Paced) {bConnect : Bool}
    (hopens : s.Opens bConnect → 116 < s.mtuAdvise.toNat)
    (hc : s.processControl env seg = some (bConnect, s')) : s'.Paced := by
  obtain ⟨-, -, rfl⟩ | ⟨-, hconnect, options, -, hcase⟩ := processControl_cases env hc
  · exact h
  have hoptions := h.of_pace (pace_parseOptions env s options)
  have hadvise : (s.parseOptions env options).mtuAdvise = s.mtuAdvise :=
    congrArg Pace.mtuAdvise (pace_parseOptions env s options)
  generalize s.parseOptions env options = t at hcase hoptions hadvise
  obtain ⟨-, rfl⟩ | ⟨hstate, rfl⟩ | ⟨-, -, rfl⟩ := hcase
  · exact hoptions.of_pace rfl
  · have hopen : Paced { t with state := .established } := hoptions.of_pace rfl
    refine (hopen.adjustMTU ?_).of_pace rfl
    rw [hadvise]
    exact hopens (.inl ⟨hstate, hconnect⟩)
  · exact hoptions

theorem pace_receiveData (s : PseudoTcp) (seg : Segment) (sflags : SendFlags) :
    (s.receiveData seg sflags).2.2.pace = s.pace := by
  obtain ⟨rbuf, rcvNxt, rcvWnd, rlist, h⟩ := receiveData_eq s seg sflags
  rw [h]
  rfl

theorem pace_notifyReadable (s : PseudoTcp) (bNewData : Bool) :
    (s.notifyReadable bNewData).pace = s.pace := by
  rw [notifyReadable]
  split <;> rfl

theorem Paced.processData (h : s.Paced) (seg : Segment) : (s.processData env seg).Paced := by
  simp only [PseudoTcp.processData]
  have hdata := h.of_pace (pace_receiveData s (s.trim seg) (s.ackFlags seg))
  generalize s.receiveData (s.trim seg) (s.ackFlags seg) = r at hdata ⊢
  exact (hdata.attemptSend env r.1).of_pace (pace_notifyReadable _ _)

/-- A segment keeps the numbers in order: if it opens the connection, the advised MTU is larger than the
overhead, and what it acknowledges opens the window within its bits. -/
def AdmitsPace (s : PseudoTcp) (seg : Segment) : Prop :=
  ∀ r, (s.arrive env).processControl env seg = some r →
    (s.Opens r.1 → 116 < s.mtuAdvise.toNat) ∧ r.2.AcksWithin seg

instance (s : PseudoTcp) (seg : Segment) : Decidable (s.AdmitsPace env seg) :=
  match hc : (s.arrive env).processControl env seg with
  | none => isTrue fun _ hr => nomatch hc.symm.trans hr
  | some r => decidable_of_iff ((s.Opens r.1 → 116 < s.mtuAdvise.toNat) ∧ r.2.AcksWithin seg)
      ⟨fun h _ hr => Option.some.inj (hc.symm.trans hr) ▸ h, fun h => h r hc⟩

theorem AcksWithin.updateTimestamp (h : s.AcksWithin seg) : (s.updateTimestamp seg).AcksWithin seg := by
  rw [PseudoTcp.updateTimestamp]
  split
  · exact ⟨h.ends, h.partly, h.opens, h.duplicate⟩
  · exact h

theorem pace_notifyWriteable (s : PseudoTcp) : s.notifyWriteable.pace = s.pace := by
  simp only [notifyWriteable]
  split <;> rfl

theorem Paced.enterEstablished (h : s.Paced) {bConnect : Bool}
    (hopens : s.state = .synReceived → bConnect = false → 116 < s.mtuAdvise.toNat) :
    (s.enterEstablished bConnect).Paced := by
  rw [PseudoTcp.enterEstablished]
  split
  next hsyn =>
    have hset : Paced { s with state := .established } := h.of_pace rfl
    exact (hset.adjustMTU (hopens hsyn.1 hsyn.2)).of_pace rfl
  next => exact h

theorem Paced.process (h : s.Paced) (hok : s.Heeds seg → s.AdmitsPace env seg) :
    (s.process env seg).2.Paced := by
  obtain (hr | hr | hr) | ⟨hheeds, bConnect, s₁, s₂, hc, hs₂, hr⟩ := process_cases env s seg
  · rw [hr]
    exact h
  · rw [hr]
    exact h.of_pace rfl
  · rw [hr]
    exact h.of_pace rfl
  obtain ⟨hopens, hack⟩ := hok hheeds (bConnect, s₁) hc
  have harrive : (s.arrive env).Paced := h.of_pace rfl
  have hcontrol := harrive.processControl env hopens hc
  obtain ⟨hts, hsame⟩ : (s₁.updateTimestamp seg).pace = s₁.pace ∧
      (s₁.updateTimestamp seg).state = s₁.state := by
    rw [PseudoTcp.updateTimestamp]
    split <;> exact ⟨rfl, rfl⟩
  have h₂ : s₂.Paced := by
    rw [← hs₂]
    exact (hcontrol.of_pace hts).processAck env _ hack.updateTimestamp
  rcases hr with hr | hr
  · rw [hr]
    exact h₂
  rw [hr]
  refine Paced.processData env (Paced.of_pace ?_ (pace_notifyWriteable _)) seg
  refine h₂.enterEstablished fun hsyn hconnect => ?_
  -- A data segment leaves the state and the advised MTU to its acknowledgment part.
  obtain ⟨-, -, rfl⟩ | ⟨-, htrue, -⟩ := processControl_cases env hc
  · have hadvise := mtuAdvise_processAck env ((s.arrive env).updateTimestamp seg) (s.now env) seg
    have hstate := (tends_processAck env ((s.arrive env).updateTimestamp seg) (s.now env) seg).state
    rw [hs₂] at hadvise hstate
    rw [hadvise, show ((s.arrive env).updateTimestamp seg).mtuAdvise = s.mtuAdvise from
      congrArg Pace.mtuAdvise hts]
    rw [hsame] at hstate
    refine hopens (.inr ⟨?_, hconnect⟩)
    rcases hstate with hstate | hstate
    · exact hstate.symm.trans hsyn
    · rw [hsyn] at hstate
      cases hstate
  · rw [hconnect] at htrue
    cases htrue

/-! ### The interface -/

theorem Paced.queueConnectMessage (h : s.Paced) : s.queueConnectMessage.Paced := h.of_pace rfl

theorem Paced.connect (h : s.Paced) : (s.connect env).2.Paced := by
  rw [PseudoTcp.connect]
  split
  · exact h.of_pace rfl
  · have hsyn : Paced { s with state := .synSent } := h.of_pace rfl
    exact hsyn.queueConnectMessage.attemptSend env .none

theorem Paced.clockRetransmit (h : s.Paced) (now : UInt32) : (s.clockRetransmit env now).2.Paced := by
  rw [PseudoTcp.clockRetransmit]
  split
  · have htransmit := (h.transmit env 0 now).1
    generalize s.transmit env 0 now = r at htransmit ⊢
    obtain ⟨_ | _, t⟩ := r
    · exact htransmit.of_pace rfl
    · have hone : Paced { t with cwnd := t.mss } := htransmit.setWindow le_rfl
      exact hone.of_pace rfl
  · exact h

theorem Paced.clockProbe (h : s.Paced) (now : UInt32) : (s.clockProbe env now).2.Paced := by
  rw [PseudoTcp.clockProbe]
  split
  · split
    · exact h.of_pace rfl
    · have hprobe := h.packet env (s.sndNxt - 1) 0 0 (show (0 : UInt32).toNat + 116 ≤ 65535 by decide)
      exact hprobe.of_pace rfl
  · exact h

theorem Paced.notifyClock (h : s.Paced) (now : UInt32) : (s.notifyClock env now).Paced := by
  rw [PseudoTcp.notifyClock]
  split
  · exact h
  have hretransmit := h.clockRetransmit env now
  generalize s.clockRetransmit env now = r at hretransmit ⊢
  obtain ⟨_ | _, t⟩ := r
  · exact hretransmit
  have hprobe := hretransmit.clockProbe env now
  simp only
  generalize t.clockProbe env now = r at hprobe ⊢
  obtain ⟨_ | _, u⟩ := r
  · exact hprobe
  simp only [clockAck]
  split
  · exact hprobe.packet env u.sndNxt 0 0 (by decide)
  · exact hprobe

theorem Paced.recv (h : s.Paced) (len : ℕ) : (s.recv env len).2.Paced := by
  rw [PseudoTcp.recv]
  split
  · exact h.of_pace rfl
  split
  · exact h.of_pace rfl
  simp only [openWindow]
  split
  · split
    · refine Paced.attemptSend env ?_ .immediateAck
      exact h.of_pace rfl
    · exact h.of_pace rfl
  · exact h.of_pace rfl

theorem Paced.send (h : s.Paced) (buffer : List UInt8) : (s.send env buffer).2.Paced := by
  rw [PseudoTcp.send]
  split
  · exact h.of_pace rfl
  split
  · exact h.of_pace rfl
  · have hqueue : (s.queue buffer (UInt32.ofNat buffer.length) false).2.Paced := h.of_pace rfl
    exact hqueue.attemptSend env .none

/-- The calls that keep the numbers in order: an advised MTU of an established connection is larger than the
overhead, and a segment that `process` heeds keeps them. -/
def KeepsPace (s : PseudoTcp) : Call → Prop
  | .notifyMTU mtu => s.state = .established → 116 < mtu.toNat
  | .notifyPacket buffer => ∀ seg, Delivers buffer seg → s.Heeds seg → s.AdmitsPace env seg
  | _ => True

theorem paced_call {c : Call} (h : s.Paced) (hok : s.KeepsPace env c) (hc : s.call env c = some s') :
    s'.Paced := by
  cases c with
  | connect => cases hc; exact h.connect env
  | notifyMTU mtu => cases hc; exact h.notifyMTU hok
  | notifyClock now => cases hc; exact h.notifyClock env now
  | notifyPacket buffer =>
    obtain ⟨⟨ok, t⟩, ht, rfl⟩ := Option.map_eq_some_iff.mp hc
    obtain rfl | ⟨seg, hseg, rfl⟩ := notifyPacket_cases env ht
    · exact h
    · exact h.process env (hok seg hseg)
  | setOption opt value =>
    cases hc
    cases opt <;> exact h.of_pace rfl
  | recv len => cases hc; exact h.recv env len
  | send buffer => cases hc; exact h.send env buffer
  | close force => cases hc; exact h.of_pace rfl

/-- The segment size is positive and fits the window, its square fits 32 bits, and so does every packet
the buffer of `packet`. -/
structure PaceOk (s : PseudoTcp) : Prop where
  mss : 1 ≤ s.mss
  window : s.mss ≤ s.cwnd
  square : s.mss.toNat * s.mss.toNat < 2 ^ 32
  packets : ∀ p ∈ s.written, p.1.length ≤ MAX_PACKET.toNat

/-- **Congestion control.** In every run of calls that keep the numbers in order, a segment has a byte, the
congestion window holds one, and every packet fits the buffer. -/
theorem paced_of_run (conv : UInt32) (calls : List Call) (s : PseudoTcp)
    (hrun : Runs.run (call env) (new env conv) calls = some s)
    (hok : Runs.Admissible (call env) (KeepsPace env) (new env conv) calls) : s.PaceOk := by
  have hpaced : s.Paced := Runs.invariant (P := Paced)
    (fun _ _ _ h hc hcall => paced_call env h hc hcall) (paced_new env conv) hok hrun
  refine ⟨?_, ?_, ?_, hpaced.packets⟩
  · exact UInt32.le_iff_toNat_le.mpr hpaced.pos
  · exact UInt32.le_iff_toNat_le.mpr hpaced.window
  · have hfits := hpaced.fits
    have hmul := Nat.mul_le_mul (show s.mss.toNat ≤ 65535 by omega)
      (show s.mss.toNat ≤ 65535 by omega)
    omega

theorem keepsPace_datagram {seq ack : UInt32} {flags : UInt8} {data : List UInt8}
    (hok : s.AdmitsPace env ⟨7, seq, ack, flags, 1000, data, 1, 0⟩) :
    s.KeepsPace env (.notifyPacket (datagram seq ack flags data)) := by
  intro seg hseg _
  obtain rfl := Option.some.inj ((parseHeader_datagram _ _ _ _).symm.trans hseg.2)
  exact hok

/-- A handshake, and behind it an MTU. -/
def mtuRun (mtu : UInt16) : List Call :=
  [.connect, .notifyPacket (datagram 0 4 FLAG_CTL [0, 3, 1, 0]), .notifyMTU mtu]

/-- An MTU of 1280 leaves segments of 1164 bytes. -/
theorem paced_of_run_mtu : ∃ s, Runs.run (call quietEnv) (new quietEnv 7) (mtuRun 1280) = some s ∧
    s.mss = 1164 ∧ s.PaceOk := by
  refine ⟨_, rfl, by decide +kernel, paced_of_run quietEnv 7 (mtuRun 1280) _ rfl ?_⟩
  refine ⟨trivial, fun _ h₁ => ?_⟩
  cases h₁
  refine ⟨keepsPace_datagram quietEnv (by decide +kernel), fun _ h₂ => ?_⟩
  cases h₂
  exact ⟨fun _ => by decide, fun _ _ => trivial⟩

/-- An MTU of 116 leaves segments without a byte. -/
theorem not_paced_after_small_mtu : ¬ ∀ (env : Env) (conv : UInt32) (calls : List Call) (s : PseudoTcp),
      Runs.run (call env) (new env conv) calls = some s → s.PaceOk := by
  intro h
  have hend : (Runs.run (call quietEnv) (new quietEnv 7) (mtuRun 116)).map (fun s => s.mss) =
      some 0 := by decide +kernel
  obtain ⟨s, hs, hmss⟩ := Option.map_eq_some_iff.mp hend
  have hpos := (h quietEnv 7 (mtuRun 116) s hs).mss
  rw [hmss] at hpos
  exact absurd hpos (by decide)

end PseudoTcp

end Synciga
