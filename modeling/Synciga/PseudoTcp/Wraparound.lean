import Synciga.PseudoTcp.Endpoint

/-!
# Sequence numbers around zero

The code subtracts sequence numbers modulo `2 ^ 32`, which is right at any position of the stream, but decides
by plain comparisons whether an acknowledgment is new and whether a segment starts before `m_rcv_nxt`.

## Main definitions

* `AckInFlight`, `InWindow` — what ought to be accepted, cyclically

## Main results

* `accepted_iff_plain` — exactly when the code accepts it
-/

namespace Synciga.PseudoTcp

variable (env : Env) {s : PseudoTcp}

/-! ### Acknowledgments -/

/-- The acknowledgment lies in the cyclic interval `(m_snd_una, m_snd_nxt]`. -/
def AckInFlight (s : PseudoTcp) (ack : UInt32) : Prop :=
  ack ≠ s.sndUna ∧ ack - s.sndUna ≤ s.sndNxt - s.sndUna

/-- Among the acknowledgments of bytes in flight, the code sees the valuable ones exactly while the
bytes in flight do not straddle zero. -/
theorem valuableAck_iff {ack : UInt32} (h : s.AckInFlight ack) :
    s.valuableAck ack ↔ s.sndUna ≤ s.sndNxt := by
  obtain ⟨hne, hle⟩ := h
  have hne' : ack.toNat ≠ s.sndUna.toNat := fun heq => hne (UInt32.toNat_inj.mp heq)
  have h1 := ack.toNat_lt
  have h3 := s.sndNxt.toNat_lt
  rw [UInt32.le_iff_toNat_le, UInt32.toNat_sub, UInt32.toNat_sub] at hle
  simp only [valuableAck, UInt32.lt_iff_toNat_lt, UInt32.le_iff_toNat_le]
  omega

theorem afterAck_kept (s : PseudoTcp) (now nAcked : UInt32) :
    (s.afterAck env now nAcked).2.sndUna = s.sndUna ∧
      (s.afterAck env now nAcked).2.sbuf = s.sbuf := by
  have htransmit := emits_transmit env s 0 now
  rw [afterAck]
  split
  · split
    · exact ⟨rfl, rfl⟩
    rcases hr : s.transmit env 0 now with ⟨_ | _, s'⟩
    · rw [hr] at htransmit
      exact ⟨htransmit.sndUna, htransmit.sbuf⟩
    · rw [hr] at htransmit
      exact ⟨htransmit.sndUna, htransmit.sbuf⟩
  · simp only
    split <;> exact ⟨rfl, rfl⟩

/-- What the acknowledgment part does to `m_snd_una` and the send buffer, for an acknowledgment
other than `m_snd_una` itself. -/
theorem processAck_sent (s : PseudoTcp) (now : UInt32) (seg : Segment) (hne : seg.ack ≠ s.sndUna) :
    (s.valuableAck seg.ack ∧ (s.processAck env now seg).2.sndUna = seg.ack ∧
      (s.processAck env now seg).2.sbuf = s.sbuf.consumeReadData (seg.ack - s.sndUna).toNat) ∨
    (¬ s.valuableAck seg.ack ∧ (s.processAck env now seg).2.sndUna = s.sndUna) := by
  rw [processAck, if_neg hne]
  split
  · next hack =>
    refine .inl ⟨hack, ?_⟩
    obtain ⟨huna, hsbuf⟩ := afterAck_kept env (s.acceptAck now seg) now (seg.ack - s.sndUna)
    have hrtt := sendCore_updateRtt s now seg.tsecr
    simp only [sendCore, SendCore.mk.injEq] at hrtt
    refine ⟨huna, ?_⟩
    rw [hsbuf]
    simp only [acceptAck]
    rw [hrtt.1, hrtt.2.2.1]
  · next hack => exact .inr ⟨hack, rfl⟩

/-- The state in which the acknowledgment part of `process` finds the connection. -/
def afterControl (s : PseudoTcp) (seg : Segment) : PseudoTcp :=
  (((s.arrive env).processControl env seg).map Prod.snd).getD s

variable {seg : Segment}

theorem processControl_of_heeds (h : s.Heeds seg) :
    ∃ bConnect,
      (s.arrive env).processControl env seg = some (bConnect, s.afterControl env seg) := by
  have hsome : ∃ r, (s.arrive env).processControl env seg = some r := by
    simp only [processControl]
    split
    · exact ⟨_, rfl⟩
    next hctl =>
    obtain ⟨options, hdata⟩ := h.2.2.2 hctl
    rw [hdata]
    simp only [ne_eq, not_true_eq_false, if_false]
    split
    · exact ⟨_, rfl⟩
    · split <;> exact ⟨_, rfl⟩
  obtain ⟨⟨bConnect, s₁⟩, hr⟩ := hsome
  refine ⟨bConnect, ?_⟩
  rw [afterControl, hr]
  rfl

/-- A segment that is heeded gets to the acknowledgment part and, unless the connection is closed
down there, to the data part. -/
theorem process_of_heeds (h : s.Heeds seg) :
    ∃ bConnect s₂, (((s.afterControl env seg).updateTimestamp seg).processAck env
        (s.now env) seg).2 = s₂ ∧
      (s.process env seg = (false, s₂) ∨ s.process env seg =
        (true, ((s₂.enterEstablished bConnect).notifyWriteable).processData env seg)) := by
  obtain ⟨bConnect, hc⟩ := processControl_of_heeds env h
  have hopen : ¬ (s.arrive env).state = .closed := h.2.1
  rw [process, if_neg (not_not.mpr h.1)]
  rw [if_neg hopen, if_neg (not_not.mpr h.2.2.1), hc]
  simp only
  split
  · next s₂ hr => exact ⟨bConnect, s₂, by rw [hr], .inl rfl⟩
  · next s₂ hr => exact ⟨bConnect, s₂, by rw [hr], .inr rfl⟩

theorem afterControl_sent (s : PseudoTcp) (seg : Segment) :
    (s.afterControl env seg).sndUna = s.sndUna ∧ (s.afterControl env seg).sndNxt = s.sndNxt := by
  rw [afterControl]
  rcases hc : (s.arrive env).processControl env seg with _ | ⟨bConnect, s₁⟩
  · exact ⟨rfl, rfl⟩
  obtain ⟨-, -, rfl⟩ | ⟨-, -, options, -, hcase⟩ := processControl_cases env hc
  · exact ⟨rfl, rfl⟩
  have hcore := sendCore_parseOptions env (s.arrive env) options
  simp only [sendCore, SendCore.mk.injEq] at hcore
  obtain ⟨-, rfl⟩ | ⟨-, rfl⟩ | ⟨-, -, rfl⟩ := hcase
  · exact ⟨hcore.2.2.1, hcore.2.2.2.1⟩
  · exact ⟨hcore.2.2.1, hcore.2.2.2.1⟩
  · exact ⟨hcore.2.2.1, hcore.2.2.2.1⟩

theorem processData_kept (s : PseudoTcp) (bConnect : Bool) (seg : Segment) :
    (((s.enterEstablished bConnect).notifyWriteable).processData env seg).sndUna = s.sndUna ∧
      (((s.enterEstablished bConnect).notifyWriteable).processData env seg).sbuf = s.sbuf := by
  have hcore : ((s.enterEstablished bConnect).notifyWriteable).sendCore = s.sendCore := by
    rw [sendCore_notifyWriteable, sendCore_enterEstablished]
  generalize (s.enterEstablished bConnect).notifyWriteable = t at hcore
  simp only [processData]
  have hread := fun u : PseudoTcp => sendCore_notifyReadable u
    (t.receiveData (t.trim seg) (t.ackFlags seg)).2.1
  have hemit := emits_attemptSend env (t.receiveData (t.trim seg) (t.ackFlags seg)).2.2
    (t.receiveData (t.trim seg) (t.ackFlags seg)).1
  have hrecv := sendCore_receiveData t (t.trim seg) (t.ackFlags seg)
  rw [hcore] at hrecv
  simp only [sendCore, SendCore.mk.injEq] at hread hrecv
  exact ⟨(hread _).2.2.1.trans (hemit.sndUna.trans hrecv.2.2.1),
    (hread _).1.trans (hemit.sbuf.trans hrecv.1)⟩

/-- The acknowledgment is accepted: `m_snd_una` moves up to it and the bytes before it are freed. -/
def Advances (s : PseudoTcp) (seg : Segment) : Prop :=
  (s.process env seg).2.sndUna = seg.ack ∧
    (s.process env seg).2.sbuf =
      (s.afterControl env seg).sbuf.consumeReadData (seg.ack - s.sndUna).toNat

theorem advances_iff (hheeds : s.Heeds seg) (hack : s.AckInFlight seg.ack) :
    s.Advances env seg ↔ s.sndUna ≤ s.sndNxt := by
  obtain ⟨bConnect, s₂, hs₂, hr⟩ := process_of_heeds env hheeds
  obtain ⟨huna, hnxt⟩ := afterControl_sent env s seg
  have hts := sendCore_updateTimestamp (s.afterControl env seg) seg
  simp only [sendCore, SendCore.mk.injEq] at hts
  -- The acknowledgment part decides; what follows keeps its result.
  have hkept : (s.process env seg).2.sndUna = s₂.sndUna ∧
      (s.process env seg).2.sbuf = s₂.sbuf := by
    rcases hr with hr | hr
    · rw [hr]
      exact ⟨rfl, rfl⟩
    · rw [hr]
      exact processData_kept env s₂ bConnect seg
  have hpart := processAck_sent env ((s.afterControl env seg).updateTimestamp seg) (s.now env)
    seg (by rw [hts.2.2.1, huna]; exact hack.1)
  rw [hs₂, valuableAck, hts.1, hts.2.2.1, hts.2.2.2.1, huna, hnxt] at hpart
  rw [← valuableAck_iff hack, Advances, hkept.1, hkept.2]
  rcases hpart with ⟨hval, hadv⟩ | ⟨hval, hsame⟩
  · exact iff_of_true hadv hval
  · refine iff_of_false (fun hadv => hack.1 ?_) hval
    rw [← hadv.1, hsame]

/-! ### Data -/

/-- A byte of the segment falls into the free part of the receive buffer, counted cyclically from
`m_rcv_nxt`. -/
def InWindow (s : PseudoTcp) (seg : Segment) : Prop :=
  ∃ i < seg.data.length,
    (seg.seq + UInt32.ofNat i - s.rcvNxt).toNat < s.rbuf.getWriteRemaining

/-- The data is accepted: something is left after trimming, and `WriteOffset` stores it. -/
def TakesIn (s : PseudoTcp) (seg : Segment) : Prop :=
  (s.trim seg).data ≠ [] ∧
    (s.rbuf.writeOffset (s.trim seg).data ((s.trim seg).seq - s.rcvNxt).toNat).1 = .success

/-- As plain numbers, the segment starts inside the free part of the receive buffer, or before it by
less than its length. -/
def StartsPlainly (s : PseudoTcp) (seg : Segment) : Prop :=
  (s.rcvNxt ≤ seg.seq ∧ (seg.seq - s.rcvNxt).toNat < s.rbuf.getWriteRemaining) ∨
    (seg.seq < s.rcvNxt ∧ (s.rcvNxt - seg.seq).toNat < seg.data.length)

theorem space_toNat (hcap : s.rbuf.bufferLength < 2 ^ 32) :
    (UInt32.ofNat s.rbuf.getWriteRemaining).toNat = s.rbuf.getWriteRemaining := by
  have hle : s.rbuf.getWriteRemaining ≤ s.rbuf.bufferLength := Nat.sub_le _ _
  rw [UInt32.toNat_ofNat', Nat.mod_eq_of_lt (hle.trans_lt hcap)]

theorem trimBack_ne_nil_iff (hcap : s.rbuf.bufferLength < 2 ^ 32) (hlen : seg.data.length < 2 ^ 32) :
    (s.trimBack seg).data ≠ [] ↔ seg.data ≠ [] ∧
      (seg.seq + seg.len - s.rcvNxt).toNat < s.rbuf.getWriteRemaining + seg.data.length := by
  have hspace := space_toNat hcap
  have hL := len_toNat hlen
  rw [← List.length_pos_iff, ← List.length_pos_iff]
  simp only [trimBack]
  split
  · next hlt =>
    have hadj := UInt32.toNat_sub_of_le _ _ (UInt32.le_of_lt hlt)
    split
    · next hfit =>
      have hkeep := UInt32.toNat_sub_of_le _ _ (UInt32.le_of_lt hfit)
      rw [List.length_take, hkeep]
      omega
    · next hfit =>
      rw [UInt32.lt_iff_toNat_lt, hadj, hL] at hfit
      rw [List.length_nil]
      omega
  · next hge =>
    rw [UInt32.lt_iff_toNat_lt, hspace] at hge
    omega

theorem trimBack_seq (s : PseudoTcp) (seg : Segment) : (s.trimBack seg).seq = seg.seq := by
  simp only [trimBack]
  split_ifs <;> rfl

theorem writeOffset_success_iff {f : FifoBuffer} (hwf : f.WellFormed) (data : List UInt8)
    (offset : ℕ) : (f.writeOffset data offset).1 = .success ↔ offset < f.getWriteRemaining := by
  rw [FifoBuffer.getWriteRemaining]
  rcases Nat.lt_or_ge (f.dataLength + offset) f.bufferLength with hlt | hge
  · obtain ⟨buffer, hw⟩ := FifoBuffer.writeOffset_eq hwf data hlt
    rw [hw]
    exact iff_of_true rfl (by omega)
  · rw [FifoBuffer.writeOffset_of_le hwf data hge]
    refine iff_of_false (fun h => ?_) (by omega)
    cases h

theorem takesIn_iff (hwf : s.rbuf.WellFormed)
    (hcap : s.rbuf.bufferLength < 2 ^ 32) (hlen : seg.data.length < 2 ^ 32)
    (hin : s.InWindow seg) : s.TakesIn seg ↔ s.StartsPlainly seg := by
  obtain ⟨i, hi, hroom⟩ := hin
  have hL := len_toNat hlen
  have hR := s.rcvNxt.toNat_lt
  rw [TakesIn, StartsPlainly, trim, writeOffset_success_iff hwf, trimBack_seq, trimFront]
  by_cases hlt : seg.seq < s.rcvNxt
  · have hlt' := UInt32.lt_iff_toNat_lt.mp hlt
    have hadj := UInt32.toNat_sub_of_le _ _ (UInt32.le_of_lt hlt)
    have hplain : ¬ s.rcvNxt ≤ seg.seq := UInt32.not_le.mpr hlt
    rw [if_pos hlt]
    simp only [hplain, false_and, false_or, hlt, true_and]
    split
    · next hfit =>
      -- The front is cut off and the rest starts at `m_rcv_nxt`.
      rw [UInt32.lt_iff_toNat_lt, hL] at hfit
      have hseq : seg.seq + (s.rcvNxt - seg.seq) = s.rcvNxt := by grind
      have hdrop : (seg.data.drop (s.rcvNxt - seg.seq).toNat).length < 2 ^ 32 := by
        rw [List.length_drop]
        omega
      rw [trimBack_ne_nil_iff hcap hdrop]
      refine iff_of_true ⟨⟨?_, ?_⟩, ?_⟩ hfit
      · rw [← List.length_pos_iff, List.length_drop]
        omega
      · rw [hseq, show ∀ a b : UInt32, a + b - a = b by intro a b; grind, len_toNat hdrop]
        omega
      · rw [hseq, show s.rcvNxt - s.rcvNxt = 0 by grind]
        change 0 < _
        omega
    · next hfit =>
      rw [UInt32.lt_iff_toNat_lt, hL] at hfit
      have hnil : ({ seg with data := [] } : Segment).data.length < 2 ^ 32 := Nat.two_pow_pos 32
      rw [trimBack_ne_nil_iff hcap hnil]
      exact iff_of_false (fun h => h.1.1 rfl) hfit
  · have hge := UInt32.not_lt.mp hlt
    have hge' := UInt32.le_iff_toNat_le.mp hge
    have hd := UInt32.toNat_sub_of_le _ _ hge
    rw [if_neg hlt]
    simp only [hlt, false_and, or_false, hge, true_and]
    rw [trimBack_ne_nil_iff hcap hlen]
    refine ⟨fun h => h.2, fun hd' => ⟨⟨?_, ?_⟩, hd'⟩⟩
    · rw [← List.length_pos_iff]
      omega
    · -- The end may pass zero, but never by as much as the window.
      rw [UInt32.toNat_sub, UInt32.toNat_add, hL]
      omega

theorem recvCore_recoverSaved {s t : PseudoTcp} (h : t.recvCore = s.recvCore) (rlist : List RSegment) :
    (recoverSaved rlist t).2.recvCore = (recoverSaved rlist s).2.recvCore := by
  induction rlist generalizing s t with
  | nil =>
    simp only [recvCore, RecvCore.mk.injEq] at h
    simp only [recoverSaved, recvCore, h]
  | cons r rlist ih =>
    have hfields := h
    simp only [recvCore, RecvCore.mk.injEq] at hfields
    obtain ⟨hshutdown, -, hnxt, hbuf⟩ := hfields
    simp only [recoverSaved, hnxt]
    split
    · split
      · refine ih ?_
        simp only [recvCore, hshutdown, hbuf, RecvCore.mk.injEq, true_and, and_true]
        simp only [recvCore, RecvCore.mk.injEq] at h
        exact h.2.1
      · exact ih h
    · simp only [recvCore, hshutdown, hbuf]

theorem recvCore_receiveData {s t : PseudoTcp} (h : t.recvCore = s.recvCore) (seg : Segment)
    (sflags sflags' : SendFlags) :
    (t.receiveData seg sflags).2.2.recvCore = (s.receiveData seg sflags').2.2.recvCore := by
  have hfields := h
  simp only [recvCore, RecvCore.mk.injEq] at hfields
  obtain ⟨hshutdown, hlist, hnxt, hbuf⟩ := hfields
  simp only [receiveData, hshutdown, hnxt, hlist, hbuf]
  split
  · exact h
  split
  · split
    · simp only [recvCore]
    · exact h
  split
  · refine recvCore_recoverSaved ?_ _
    simp only [recvCore]
  · simp only [recvCore]

/-- What `process` does to the receiving side with a data segment: it is trimmed, and the rest goes
through the data part. -/
theorem process_receives (hheeds : s.Heeds seg)
    (hdata : seg.flags &&& FLAG_CTL = 0) (htrue : (s.process env seg).1 = true) :
    (s.process env seg).2.recvCore = (s.receiveData (s.trim seg) .none).2.2.recvCore := by
  obtain ⟨bConnect, s₂, hs₂, hr⟩ := process_of_heeds env hheeds
  have hcontrol : s.afterControl env seg = s.arrive env := by
    rw [afterControl, processControl, if_pos hdata]
    rfl
  -- Up to the data part, the receiving side is as it was.
  have hcore : s₂.recvCore = s.recvCore := by
    rw [← hs₂, (tends_processAck env _ _ _).quiet.recvCore, (tends_updateTimestamp _ _).quiet.recvCore,
      hcontrol]
    rfl
  rcases hr with hr | hr
  · rw [hr] at htrue
    cases htrue
  rw [hr]
  have hstart : ((s₂.enterEstablished bConnect).notifyWriteable).recvCore = s.recvCore := by
    rw [(quiet_notifyWriteable _).recvCore, recvCore_enterEstablished, hcore]
  generalize (s₂.enterEstablished bConnect).notifyWriteable = t at hstart
  have htrim : t.trim seg = s.trim seg := by
    simp only [recvCore, RecvCore.mk.injEq] at hstart
    simp only [trim, trimBack, trimFront, hstart.2.2.1, hstart.2.2.2]
  simp only [processData]
  rw [(quiet_notifyReadable _ _).recvCore, (emits_attemptSend env _ _).recvCore, htrim]
  exact recvCore_receiveData hstart _ _ _

/-- **Wraparound.** For every state and segment: an acknowledgment of bytes in flight is accepted exactly when
these do not straddle zero, and data in the window exactly when plain numbers place it there. The data part of
`process` works on the trimmed segment. -/
theorem accepted_iff_plain (s : PseudoTcp) (seg : Segment) (hheeds : s.Heeds seg)
    (hwf : s.rbuf.WellFormed) (hcap : s.rbuf.bufferLength < 2 ^ 32)
    (hlen : seg.data.length < 2 ^ 32) :
    (s.AckInFlight seg.ack → (s.Advances env seg ↔ s.sndUna ≤ s.sndNxt)) ∧
      (s.InWindow seg → (s.TakesIn seg ↔ s.StartsPlainly seg)) ∧
      (seg.flags &&& FLAG_CTL = 0 → (s.process env seg).1 = true →
        (s.process env seg).2.recvCore = (s.receiveData (s.trim seg) .none).2.2.recvCore) :=
  ⟨advances_iff env hheeds, takesIn_iff hwf hcap hlen, process_receives env hheeds⟩

/-! ### Before and across zero -/

/-- An established connection with one segment of twenty bytes in flight from `una` on, that expects
`rcvNxt` from its peer. -/
def inFlightState (una rcvNxt : UInt32) : PseudoTcp :=
  { new quietEnv 7 with
    state := .established
    rcvNxt := rcvNxt
    slist := [⟨una, 20, 1, false⟩]
    sndNxt := una + 20
    sndWnd := 1000
    sndUna := una
    sbuf := ((FifoBuffer.new (fun _ => 0) 100).write (List.replicate 20 65)).2.2 }

/-- A segment of three bytes. -/
def threeBytes (seq ack : UInt32) : Segment := ⟨7, seq, ack, 0, 1000, [1, 2, 3], 1, 0⟩

theorem heeds_threeBytes (una rcvNxt seq ack : UInt32) :
    (inFlightState una rcvNxt).Heeds (threeBytes seq ack) := by
  have hctl : (0 : UInt8) &&& FLAG_CTL = 0 := by decide
  have hrst : (0 : UInt8) &&& FLAG_RST = 0 := by decide
  refine ⟨rfl, fun h => ?_, hrst, fun h => absurd hctl h⟩
  cases h

theorem wellFormed_inFlightState (una rcvNxt : UInt32) : (inFlightState una rcvNxt).rbuf.WellFormed ∧
      (inFlightState una rcvNxt).rbuf.bufferLength < 2 ^ 32 :=
  ⟨FifoBuffer.wellFormed_new _ _, UInt32.toNat_lt _⟩

/-- Far from zero, both the acknowledgment and the data are accepted. -/
theorem accepted_before_zero : (inFlightState 100 200).Advances quietEnv (threeBytes 202 110) ∧
      (inFlightState 100 200).TakesIn (threeBytes 202 110) := by
  obtain ⟨hwf, hcap⟩ := wellFormed_inFlightState 100 200
  obtain ⟨hack, hdata, -⟩ := accepted_iff_plain quietEnv (inFlightState 100 200)
    (threeBytes 202 110) (heeds_threeBytes 100 200 202 110) hwf hcap (by decide)
  exact ⟨(hack ⟨by decide, by decide⟩).mpr (by decide),
    (hdata ⟨0, by decide, by decide⟩).mpr (.inl ⟨by decide, by decide⟩)⟩

/-- With twenty bytes in flight from ten before zero on, an acknowledgment of fifteen is ignored;
with `m_rcv_nxt` ten before zero, a segment that starts at zero is dropped. -/
theorem not_accepted_across_zero :
    ¬ (∀ (env : Env) (s : PseudoTcp) (seg : Segment), s.Heeds seg → s.CoversBuffer →
      (s.sndNxt - s.sndUna).toNat = sentLens s.slist → s.AckInFlight seg.ack → s.Advances env seg) ∧
    ¬ ∀ (s : PseudoTcp) (seg : Segment), s.Heeds seg → s.rbuf.WellFormed →
      s.rbuf.bufferLength < 2 ^ 32 → s.InWindow seg → s.TakesIn seg := by
  constructor
  · intro h
    have hcovers : (inFlightState 4294967286 0).CoversBuffer := by
      refine ⟨by decide, fun l₁ g l₂ hl => ?_⟩
      cases l₁ with
      | nil =>
        cases hl
        decide
      | cons g' l₁ =>
        obtain ⟨-, hnil⟩ := List.cons.inj hl
        cases l₁ <;> cases hnil
    have hadv := h quietEnv (inFlightState 4294967286 0) (threeBytes 0 5)
      (heeds_threeBytes _ _ _ _) hcovers (by decide) ⟨by decide, by decide⟩
    exact absurd hadv.1 (by decide +kernel)
  · intro h
    obtain ⟨hwf, hcap⟩ := wellFormed_inFlightState 0 4294967286
    have htaken := h (inFlightState 0 4294967286) (threeBytes 0 5) (heeds_threeBytes _ _ _ _) hwf
      hcap ⟨0, by decide, by decide⟩
    exact htaken.1 (by decide)

end Synciga.PseudoTcp
