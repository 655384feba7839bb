import Synciga.PseudoTcp.SendInvariant
import Mathlib.Tactic.IntervalCases

/-!
# What sending does to a connection

`packet`, `transmit` and `attemptSend` touch few fields.

## Main definitions

* `Steady` — the others are kept
* `Sending` — and every packet on the way acknowledges `m_rcv_nxt`

## Main results

* `transmit_cases` — what `transmit` does to the segments, to `m_snd_nxt` and to the timer
-/

namespace Synciga

/-- The fields that sending a packet keeps. -/
structure Steady where
  shutdown : Shutdown
  error : ErrorCode
  state : TcpState
  conv : UInt32
  bReadEnable : Bool
  bWriteEnable : Bool
  rlist : List RSegment
  rbufLen : UInt32
  rcvNxt : UInt32
  rcvWnd : UInt32
  lastrecv : UInt32
  rwndScale : UInt8
  rbuf : FifoBuffer
  sbufLen : UInt32
  sndWnd : UInt32
  sndUna : UInt32
  swndScale : UInt8
  sbuf : FifoBuffer
  largest : UInt32
  mtuAdvise : UInt32
  tsRecent : UInt32
  rxRto : UInt32
  ssthresh : UInt32
  dupAcks : UInt8
  recover : UInt32
  useNagling : Bool
  ackDelay : UInt32
  supportWndScale : Bool
  allocs : ℕ
  notified : List Notification
  queued : List (UInt8 × Bool)

/-- The part of a connection that sending keeps. -/
def PseudoTcp.steady (s : PseudoTcp) : Steady where
  shutdown := s.shutdown
  error := s.error
  state := s.state
  conv := s.conv
  bReadEnable := s.bReadEnable
  bWriteEnable := s.bWriteEnable
  rlist := s.rlist
  rbufLen := s.rbufLen
  rcvNxt := s.rcvNxt
  rcvWnd := s.rcvWnd
  lastrecv := s.lastrecv
  rwndScale := s.rwndScale
  rbuf := s.rbuf
  sbufLen := s.sbufLen
  sndWnd := s.sndWnd
  sndUna := s.sndUna
  swndScale := s.swndScale
  sbuf := s.sbuf
  largest := s.largest
  mtuAdvise := s.mtuAdvise
  tsRecent := s.tsRecent
  rxRto := s.rxRto
  ssthresh := s.ssthresh
  dupAcks := s.dupAcks
  recover := s.recover
  useNagling := s.useNagling
  ackDelay := s.ackDelay
  supportWndScale := s.supportWndScale
  allocs := s.allocs
  notified := s.notified
  queued := s.queued

/-- A packet whose acknowledgment field is `ack`. -/
def Acknowledges (ack : UInt32) (buffer : List UInt8) : Prop :=
  ∃ seg, PseudoTcp.parseHeader buffer = some seg ∧ seg.ack = ack

/-- From `s` to `s'` packets were sent, each acknowledging `m_rcv_nxt`. -/
structure Sending (s s' : PseudoTcp) : Prop where
  /-- The other fields are kept. -/
  steady : s'.steady = s.steady
  /-- The packets, latest first. -/
  packets : ∃ more, s'.written = more ++ s.written ∧ ∀ p ∈ more, Acknowledges s.rcvNxt p.1

namespace Sending

variable {s s' s₁ s₂ s₃ : PseudoTcp}

theorem rcvNxt (h : Sending s s') : s'.rcvNxt = s.rcvNxt := congrArg Steady.rcvNxt h.steady

theorem sndUna (h : Sending s s') : s'.sndUna = s.sndUna := congrArg Steady.sndUna h.steady

theorem sbuf (h : Sending s s') : s'.sbuf = s.sbuf := congrArg Steady.sbuf h.steady

theorem state (h : Sending s s') : s'.state = s.state := congrArg Steady.state h.steady

theorem of_steady (h : s'.steady = s.steady) (hw : s'.written = s.written) : Sending s s' :=
  ⟨h, [], hw, fun p hp => by cases hp⟩

theorem refl (s : PseudoTcp) : Sending s s := of_steady rfl rfl

theorem trans (h : Sending s₁ s₂) (h' : Sending s₂ s₃) : Sending s₁ s₃ := by
  obtain ⟨more, hmore, hacks⟩ := h.packets
  obtain ⟨more', hmore', hacks'⟩ := h'.packets
  refine ⟨h'.steady.trans h.steady, more' ++ more, ?_, fun p hp => ?_⟩
  · rw [hmore', hmore, List.append_assoc]
  · rcases List.mem_append.mp hp with hmem | hmem
    · rw [← h.rcvNxt]
      exact hacks' p hmem
    · exact hacks p hmem

end Sending

namespace PseudoTcp

variable (env : Env) {s s' : PseudoTcp}

/-! ### Packets -/

theorem packet_written (s : PseudoTcp) (seq : UInt32) (flags : UInt8) (offset len : UInt32) :
    ∃ buffer wres, (s.packet env seq flags offset len).2.written = (buffer, wres) :: s.written ∧
      Acknowledges s.rcvNxt buffer := by
  refine ⟨s.header seq flags (s.now env) ++ s.payload env offset len,
    env.writeResult s.written.length, ?_, _, parseHeader_header s seq flags (s.now env) _, rfl⟩
  simp only [packet]
  split <;> rfl

theorem sending_packet (s : PseudoTcp) (seq : UInt32) (flags : UInt8) (offset len : UInt32) :
    Sending s (s.packet env seq flags offset len).2 := by
  obtain ⟨buffer, wres, hw, hack⟩ := packet_written env s seq flags offset len
  refine ⟨?_, [(buffer, wres)], hw, fun p hp => ?_⟩
  · simp only [packet]
    split <;> rfl
  · rw [List.mem_singleton.mp hp]
    exact hack

/-! ### Moving down the packet sizes -/

theorem packetMaximum_of_le {level : ℕ} (h : PACKET_MAXIMUMS.length ≤ level) :
    packetMaximum level = 0 := by
  rw [packetMaximum, List.getD_eq_getElem?_getD, List.getElem?_eq_none h]
  rfl

theorem packetMaximum_sub_ne_zero {level : ℕ} (h : packetMaximum level ≠ 0) :
    packetMaximum level - PACKET_OVERHEAD ≠ 0 := by
  rcases Nat.lt_or_ge level PACKET_MAXIMUMS.length with hlt | hge
  · change level < 11 at hlt
    interval_cases level <;> decide
  · exact absurd (packetMaximum_of_le hge) h

theorem sending_lowerMss (nTransmit : UInt32) (fuel : ℕ) (s : PseudoTcp) :
    Sending s (s.lowerMss nTransmit fuel).2 := by
  induction fuel generalizing s with
  | zero => exact .refl s
  | succ fuel ih =>
    rw [lowerMss]
    split
    · exact .refl s
    simp only
    split
    · exact .of_steady rfl rfl
    · refine Sending.trans ?_ (ih _)
      exact .of_steady rfl rfl

theorem lowerMss_some {nTransmit n : UInt32} {fuel : ℕ}
    (h : s.lowerMss nTransmit fuel = (some n, s')) :
    n ≠ 0 ∧ s.msslevel < s'.msslevel ∧ s'.msslevel < PACKET_MAXIMUMS.length := by
  induction fuel generalizing s with
  | zero => cases h
  | succ fuel ih =>
    rw [lowerMss] at h
    split at h
    · cases h
    next hne =>
    simp only at h
    split at h
    · cases h
      refine ⟨packetMaximum_sub_ne_zero hne, Nat.lt_succ_self _, ?_⟩
      by_contra hge
      exact hne (packetMaximum_of_le (Nat.not_lt.mp hge))
    · obtain ⟨hn, hlt, hlen⟩ := ih h
      exact ⟨hn, Nat.lt_of_succ_lt hlt, hlen⟩

/-! ### Transmitting -/

/-- The fields that `transmit` changes once the packet is out. -/
def marks (s : PseudoTcp) : List SSegment × UInt32 × UInt32 := (s.slist, s.sndNxt, s.rtoBase)

theorem marks_packet (s : PseudoTcp) (seq : UInt32) (flags : UInt8) (offset len : UInt32) :
    (s.packet env seq flags offset len).2.marks = s.marks := by
  simp only [packet]
  split <;> rfl

theorem marks_lowerMss (nTransmit : UInt32) (fuel : ℕ) (s : PseudoTcp) :
    (s.lowerMss nTransmit fuel).2.marks = s.marks := by
  induction fuel generalizing s with
  | zero => rfl
  | succ fuel ih =>
    rw [lowerMss]
    split
    · rfl
    simp only
    split
    · rfl
    · exact ih _

/-- The retry loop of `transmit` only sends, and hands over at least one packet; the payload it ends
with is no longer than asked for and has not become empty. -/
theorem transmitLoop_spec (seg : SSegment) (fuel : ℕ) (nTransmit : UInt32) (s : PseudoTcp) :
    Sending s (transmitLoop env seg fuel nTransmit s).2 ∧
      (transmitLoop env seg fuel nTransmit s).2.marks = s.marks ∧
      (0 < fuel → s.written.length < (transmitLoop env seg fuel nTransmit s).2.written.length) ∧
      ∀ n, (transmitLoop env seg fuel nTransmit s).1 = some n →
        n ≤ nTransmit ∧ (nTransmit ≠ 0 → n ≠ 0) := by
  induction fuel generalizing s nTransmit with
  | zero => exact ⟨.refl s, rfl, fun h => absurd h (Nat.lt_irrefl 0), fun n hn => by cases hn⟩
  | succ fuel ih =>
    have hsend := sending_packet env s seg.seq (if seg.bCtrl then FLAG_CTL else 0)
      (seg.seq - s.sndUna) nTransmit
    have hmarks := marks_packet env s seg.seq (if seg.bCtrl then FLAG_CTL else 0)
      (seg.seq - s.sndUna) nTransmit
    obtain ⟨buffer, wres', hw, -⟩ := packet_written env s seg.seq
      (if seg.bCtrl then FLAG_CTL else 0) (seg.seq - s.sndUna) nTransmit
    rw [transmitLoop]
    rcases hp : s.packet env seg.seq (if seg.bCtrl then FLAG_CTL else 0) (seg.seq - s.sndUna)
      nTransmit with ⟨wres, t⟩
    rw [hp] at hsend hmarks hw
    have hlen : s.written.length < t.written.length := by
      rw [show t.written = _ from hw, List.length_cons]
      exact Nat.lt_succ_self _
    cases wres with
    | success => exact ⟨hsend, hmarks, fun _ => hlen, fun n hn => by cases hn; exact ⟨UInt32.le_refl _, id⟩⟩
    | fail => exact ⟨hsend, hmarks, fun _ => hlen, fun n hn => by cases hn⟩
    | tooLarge =>
      have hlow := hsend.trans (sending_lowerMss nTransmit PACKET_MAXIMUMS.length t)
      have hlowMarks := marks_lowerMss nTransmit PACKET_MAXIMUMS.length t
      have hlowWritten := (sending_lowerMss nTransmit PACKET_MAXIMUMS.length t).packets
      simp only
      rcases hm : t.lowerMss nTransmit PACKET_MAXIMUMS.length with ⟨_ | n', t'⟩
      all_goals
        rw [hm] at hlow hlowMarks hlowWritten
        obtain ⟨more, hmore, -⟩ := hlowWritten
        have hlen' : s.written.length < t'.written.length := by
          rw [show t'.written = _ from hmore, List.length_append]
          omega
      · exact ⟨hlow, hlowMarks.trans hmarks, fun _ => hlen', fun n hn => by cases hn⟩
      obtain ⟨hrest, hrestMarks, -, hn'⟩ := ih n' t'
      obtain ⟨more', hmore', -⟩ := hrest.packets
      refine ⟨hlow.trans hrest, hrestMarks.trans (hlowMarks.trans hmarks), fun _ => ?_,
        fun n hn => ?_⟩
      · rw [hmore', List.length_append]
        omega
      · obtain ⟨hle, hne⟩ := hn' n hn
        exact ⟨UInt32.le_trans hle (UInt32.le_of_lt (lowerMss_lt hm)),
          fun _ => hne (lowerMss_some hm).1⟩

theorem uint32_min_ne_zero {a b : UInt32} (ha : a ≠ 0) (hb : b ≠ 0) : min a b ≠ 0 := by
  rw [show min a b = if a ≤ b then a else b from rfl]
  split
  · exact ha
  · exact hb

/-- What `transmit` sends of a segment. -/
def sentPart (g : SSegment) (n : UInt32) : SSegment := { g with len := n, xmit := g.xmit + 1 }

/-- What it leaves behind for later, if anything. -/
def restPart (g : SSegment) (n : UInt32) : List SSegment :=
  if n < g.len then [⟨g.seq + n, g.len - n, g.xmit, g.bCtrl⟩] else []

theorem xmit_of_mem_restPart {g b : SSegment} {n : UInt32} (h : b ∈ restPart g n) :
    b.xmit = g.xmit ∧ b.len ≠ 0 := by
  rw [restPart] at h
  split at h
  · next hlt =>
    rw [List.mem_singleton.mp h]
    refine ⟨rfl, fun hz => ?_⟩
    rw [UInt32.lt_iff_toNat_lt] at hlt
    have hsub := UInt32.toNat_sub_of_le _ _ (UInt32.le_of_lt (UInt32.lt_iff_toNat_lt.mpr hlt))
    have hz' : (g.len - n).toNat = 0 := congrArg UInt32.toNat hz
    omega
  · cases h

theorem lens_restPart {g : SSegment} {n : UInt32} (h : n ≤ g.len) :
    n.toNat + lens (restPart g n) = g.len.toNat := by
  have hle := UInt32.le_iff_toNat_le.mp h
  rw [restPart]
  split
  · rw [lens_cons, lens_nil, UInt32.toNat_sub_of_le _ _ h]
    omega
  · next hge =>
    rw [UInt32.lt_iff_toNat_lt] at hge
    rw [lens_nil]
    omega

/-- Segment `g`, between `l₁` and `l₂`, was transmitted: `n` of its bytes are out, the rest is a segment of its
own, `m_snd_nxt` moves if the segment was fresh, and the timer runs. -/
structure Transmitted (s s' : PseudoTcp) (now : UInt32) (l₁ : List SSegment) (g : SSegment)
    (l₂ : List SSegment) (n : UInt32) : Prop where
  /-- Where the segment stood. -/
  before : s.slist = l₁ ++ g :: l₂
  /-- The count of transmissions does not wrap. -/
  counted : g.xmit + 1 ≠ 0
  /-- What is sent is part of the segment. -/
  le : n ≤ g.len
  /-- A byte is sent, if there is one and the segment size allows it. -/
  ne_zero : g.len ≠ 0 → s.mss ≠ 0 → n ≠ 0
  /-- The list afterwards. -/
  after : s'.slist = l₁ ++ (sentPart g n :: restPart g n) ++ l₂
  /-- The next sequence number. -/
  sndNxt : s'.sndNxt = if g.xmit = 0 then s.sndNxt + n else s.sndNxt
  /-- The timer. -/
  rtoBase : s'.rtoBase = if s.rtoBase = 0 then now else s.rtoBase

theorem transmit_cases (s : PseudoTcp) (i : ℕ) (now : UInt32) :
    (∃ s', s.transmit env i now = (false, s') ∧ s'.marks = s.marks) ∨
      ∃ s' l₁ g l₂ n, s.transmit env i now = (true, s') ∧ l₁.length = i ∧
        Transmitted s s' now l₁ g l₂ n := by
  rw [transmit]
  rcases hg : s.slist[i]? with _ | g
  · exact .inl ⟨s, rfl, rfl⟩
  obtain ⟨l₁, l₂, hl, rfl⟩ := exists_append_of_getElem? hg
  simp only
  by_cases hlimit : (if s.state = .established then 15 else 30) ≤ g.xmit
  · rw [if_pos hlimit]
    exact .inl ⟨s, rfl, rfl⟩
  rw [if_neg hlimit]
  obtain ⟨-, hmarks, -, hbound⟩ :=
    transmitLoop_spec env g PACKET_MAXIMUMS.length (min g.len s.mss) s
  rcases hloop : transmitLoop env g PACKET_MAXIMUMS.length (min g.len s.mss) s with ⟨_ | n, t⟩
  · rw [hloop] at hmarks
    exact .inl ⟨t, rfl, hmarks⟩
  rw [hloop] at hmarks hbound
  simp only [marks, Prod.mk.injEq] at hmarks
  obtain ⟨hslist, hnxt, hrto⟩ := hmarks
  obtain ⟨hle, hne⟩ := hbound n rfl
  have hn : n ≤ g.len := UInt32.le_trans hle (uint32_min_le_left _ _)
  refine .inr ⟨_, l₁, g, l₂, n, rfl, rfl, hl, xmit_add_one_ne_zero hlimit, hn,
    fun hg hm => hne (uint32_min_ne_zero hg hm), ?_, ?_, ?_⟩
  · simp only [hslist, hl, replaceAt_append, sentPart, restPart]
    by_cases hlt : n < g.len
    · simp only [if_pos hlt, SSegment.new]
    · have heq : n = g.len := UInt32.le_antisymm hn (UInt32.not_lt.mp hlt)
      simp only [if_neg hlt]
      rw [heq]
  · simp only [hnxt]
    by_cases hlt : n < g.len
    · simp only [if_pos hlt]
    · have heq : n = g.len := UInt32.le_antisymm hn (UInt32.not_lt.mp hlt)
      simp only [if_neg hlt]
      rw [heq]
  · simp only [hrto]

theorem sending_transmit (s : PseudoTcp) (i : ℕ) (now : UInt32) :
    Sending s (s.transmit env i now).2 := by
  rw [transmit]
  rcases s.slist[i]? with _ | g
  · exact .refl s
  have hloop := (transmitLoop_spec env g PACKET_MAXIMUMS.length (min g.len s.mss) s).1
  simp only
  by_cases hlimit : (if s.state = .established then 15 else 30) ≤ g.xmit
  · rw [if_pos hlimit]
    exact .refl s
  rw [if_neg hlimit]
  rcases hr : transmitLoop env g PACKET_MAXIMUMS.length (min g.len s.mss) s with ⟨_ | n, s'⟩
  · rw [hr] at hloop
    exact hloop
  · rw [hr] at hloop
    exact ⟨hloop.steady, hloop.packets⟩

theorem written_transmit_of_fresh {i : ℕ} {g : SSegment} (hg : s.slist[i]? = some g)
    (hfresh : g.xmit = 0) (now : UInt32) :
    s.written.length < (s.transmit env i now).2.written.length := by
  have hlimit : ¬ (if s.state = .established then 15 else 30) ≤ g.xmit := by
    rw [hfresh]
    split <;> decide
  rw [transmit, hg]
  simp only
  rw [if_neg hlimit]
  have hloop := (transmitLoop_spec env g PACKET_MAXIMUMS.length (min g.len s.mss) s).2.2.1
    (by decide)
  rcases hr : transmitLoop env g PACKET_MAXIMUMS.length (min g.len s.mss) s with ⟨_ | n, s'⟩
  · rw [hr] at hloop
    exact hloop
  · rw [hr] at hloop
    exact hloop

/-! ### `attemptSend` -/

theorem sending_splitSegment (s : PseudoTcp) (i : ℕ) (nAvailable : UInt32) :
    Sending s (s.splitSegment i nAvailable) := by
  rw [splitSegment]
  split
  · exact .refl s
  · split
    · exact .of_steady rfl rfl
    · exact .refl s

theorem sending_attemptSendLoop (now : UInt32) (fuel : ℕ) (sflags : SendFlags) (s : PseudoTcp) :
    Sending s (attemptSendLoop env now fuel sflags s) := by
  induction fuel generalizing s sflags with
  | zero => exact .refl s
  | succ fuel ih =>
    rw [attemptSendLoop]
    split
    · split
      · exact .refl s
      split
      · exact sending_packet env s _ _ _ _
      · exact .of_steady rfl rfl
    split
    · exact .refl s
    split
    · exact .refl s
    next i _ =>
    have htransmit := (sending_splitSegment s i s.sendable).trans
      (sending_transmit env (s.splitSegment i s.sendable) i now)
    rcases hr : (s.splitSegment i s.sendable).transmit env i now with ⟨_ | _, s'⟩
    · rw [hr] at htransmit
      exact htransmit
    · rw [hr] at htransmit
      exact htransmit.trans (ih .none s')

theorem sending_attemptSend (s : PseudoTcp) (sflags : SendFlags) :
    Sending s (s.attemptSend env sflags) := by
  refine Sending.trans ?_ (sending_attemptSendLoop env _ _ _ _)
  split <;> exact .of_steady rfl rfl

end PseudoTcp

end Synciga
