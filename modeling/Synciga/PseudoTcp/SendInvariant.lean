import Synciga.PseudoTcp.SendList

/-!
# The sending side of a connection

The one step that can break the invariant is an acknowledgment that ends inside a queued segment, which is
shortened without moving its `seq`. Every other step keeps it, so `OnBoundary` is assumed where an
acknowledgment is accepted and nowhere else.

## Main definitions

* `SendCore.Inv` — the invariant of the fields that carry outgoing data

## Main results

* `process_cases`, `processControl_cases` — what a segment does
-/

namespace Synciga

/-! ### The fields and their invariant -/

/-- The fields that carry outgoing data, with the histories of queued bytes and written packets. -/
structure SendCore where
  sbuf : FifoBuffer
  slist : List SSegment
  sndUna : UInt32
  sndNxt : UInt32
  queued : List (UInt8 × Bool)
  written : List (List UInt8 × WriteResult)

/-- The sending side of a connection. -/
def PseudoTcp.sendCore (s : PseudoTcp) : SendCore :=
  ⟨s.sbuf, s.slist, s.sndUna, s.sndNxt, s.queued, s.written⟩

/-- A packet carries exactly the bytes, and the kind of bytes, that were queued at the position its sequence
number stands for, or nothing. -/
def CarriesQueued (queued : List (UInt8 × Bool)) (buffer : List UInt8) : Prop :=
  ∃ seg, PseudoTcp.parseHeader buffer = some seg ∧ (seg.data ≠ [] →
    ∃ pos, UInt32.ofNat pos = seg.seq ∧ pos + seg.data.length ≤ queued.length ∧
      seg.data.map (fun b => (b, decide (seg.flags &&& FLAG_CTL ≠ 0))) =
        (queued.drop pos).take seg.data.length)

theorem CarriesQueued.append {queued : List (UInt8 × Bool)} {buffer : List UInt8}
    (h : CarriesQueued queued buffer) (more : List (UInt8 × Bool)) :
    CarriesQueued (queued ++ more) buffer := by
  obtain ⟨seg, hseg, hdata⟩ := h
  refine ⟨seg, hseg, fun hne => ?_⟩
  obtain ⟨pos, hpos, hle, hbytes⟩ := hdata hne
  refine ⟨pos, hpos, by rw [List.length_append]; omega, ?_⟩
  rw [hbytes, List.drop_append_of_le_length (by omega), List.take_append_of_le_length]
  rw [List.length_drop]
  omega

/-- The invariant of the sending side, with the acknowledged and the still buffered part of the
stream spelt out. -/
structure SendCore.Splits (c : SendCore) (acked pending : List (UInt8 × Bool)) : Prop where
  /-- The ring is well formed. -/
  sbuf : c.sbuf.WellFormed
  /-- Its length is a 32-bit number. -/
  cap : c.sbuf.bufferLength < 2 ^ 32
  /-- Every queued byte is acknowledged or still buffered. -/
  queued : c.queued = acked ++ pending
  /-- `m_snd_una` is the position of the first buffered byte. -/
  una : c.sndUna = UInt32.ofNat acked.length
  /-- The ring holds the buffered bytes. -/
  contents : c.sbuf.contents = pending.map Prod.fst
  /-- The segment list covers them. -/
  covers : Covers c.sndUna pending c.slist
  /-- Transmitted segments come first. -/
  order : SentFirst c.slist
  /-- `m_snd_nxt` is where they end. -/
  next : c.sndNxt = c.sndUna + UInt32.ofNat (sentLens c.slist)

/-- The invariant of the sending side: the segment list covers the send buffer, and every packet
written so far carries queued bytes. -/
structure SendCore.Inv (c : SendCore) : Prop where
  /-- The stream splits into an acknowledged and a buffered part. -/
  splits : ∃ acked pending, c.Splits acked pending
  /-- Every packet handed to the network carries queued bytes. -/
  packets : ∀ p ∈ c.written, CarriesQueued c.queued p.1

namespace SendCore.Splits

variable {c : SendCore} {acked pending : List (UInt8 × Bool)}

theorem length_pending (h : c.Splits acked pending) : pending.length = c.sbuf.dataLength := by
  rw [← c.sbuf.length_contents, h.contents, List.length_map]

theorem lens_slist (h : c.Splits acked pending) : lens c.slist = c.sbuf.dataLength := by
  rw [h.covers.lens_eq, h.length_pending]

theorem lens_lt (h : c.Splits acked pending) : lens c.slist < 2 ^ 32 := by
  rw [h.lens_slist]
  exact h.sbuf.data_le.trans_lt h.cap

theorem inFlight (h : c.Splits acked pending) : (c.sndNxt - c.sndUna).toNat = sentLens c.slist := by
  have hlt : sentLens c.slist < 2 ^ 32 := (sentLens_le_lens _).trans_lt h.lens_lt
  rw [h.next, show c.sndUna + UInt32.ofNat (sentLens c.slist) - c.sndUna =
    UInt32.ofNat (sentLens c.slist) by grind, UInt32.toNat_ofNat', Nat.mod_eq_of_lt hlt]

theorem with_slist (h : c.Splits acked pending) {slist : List SSegment} {sndNxt : UInt32}
    (hcov : Covers c.sndUna pending slist) (hord : SentFirst slist)
    (hnext : sndNxt = c.sndUna + UInt32.ofNat (sentLens slist)) :
    { c with slist := slist, sndNxt := sndNxt : SendCore }.Splits acked pending :=
  ⟨h.sbuf, h.cap, h.queued, h.una, h.contents, hcov, hord, hnext⟩

/-- Transmitting the segment behind a transmitted part: `a` is what is sent of it, `rest` what is
cut off, and `m_snd_nxt` moves over `a` exactly when the segment was fresh. -/
theorem transmit (h : c.Splits acked pending) {l₁ l₂ rest : List SSegment} {g a : SSegment}
    (hl : c.slist = l₁ ++ g :: l₂) (hsent : ∀ x ∈ l₁, x.xmit ≠ 0) (ha : a.xmit ≠ 0)
    (hrest : ∀ b ∈ rest, b.xmit = g.xmit) (hlen : a.len.toNat + lens rest = g.len.toNat)
    (hcov : ∀ una q, Covers una q (g :: l₂) → Covers una q (a :: rest ++ l₂)) :
    { c with
      slist := l₁ ++ (a :: rest) ++ l₂
      sndNxt := if g.xmit = 0 then c.sndNxt + a.len else c.sndNxt : SendCore }.Splits acked pending := by
  have hcov' : Covers c.sndUna pending (l₁ ++ g :: l₂) := hl ▸ h.covers
  have hord : SentFirst (l₁ ++ g :: l₂) := hl ▸ h.order
  have hnext : c.sndNxt = c.sndUna + UInt32.ofNat (sentLens (l₁ ++ g :: l₂)) := hl ▸ h.next
  obtain ⟨hle, hcov₁, hcov₂⟩ := covers_append.mp hcov'
  refine h.with_slist ?_ (hord.transmit hsent ha hrest) ?_
  · rw [List.append_assoc]
    exact covers_append.mpr ⟨hle, hcov₁, hcov _ _ hcov₂⟩
  · rw [sentLens_transmit ha hrest hlen, hnext]
    split
    · rw [UInt32.ofNat_add, UInt32.ofNat_toNat, UInt32.add_assoc]
    · rfl

end SendCore.Splits

namespace PseudoTcp

variable (env : Env) {s : PseudoTcp}

/-! ### Functions that leave the sending side alone -/

theorem applyOption_eq (s : PseudoTcp) (kind : UInt8) (data : List UInt8) :
    ∃ scale, s.applyOption kind data = { s with swndScale := scale } := by
  simp only [applyOption]
  split
  · split
    · exact ⟨_, rfl⟩
    · exact ⟨s.swndScale, rfl⟩
  · exact ⟨s.swndScale, rfl⟩

variable (fuel : ℕ)

theorem parseOptionList_eq (data : List UInt8) (s : PseudoTcp) :
    ∃ scale, (parseOptionList fuel data s).2 = { s with swndScale := scale } := by
  induction fuel generalizing data s with
  | zero => exact ⟨s.swndScale, rfl⟩
  | succ fuel ih =>
    cases data with
    | nil => exact ⟨s.swndScale, rfl⟩
    | cons kind buf =>
      rw [parseOptionList]
      split
      · exact ⟨s.swndScale, rfl⟩
      split
      · exact ih _ _
      simp only
      split
      · obtain ⟨scale, hrest⟩ := ih (buf.tail.drop (buf.headD 0).toNat)
          (s.applyOption kind (buf.tail.take (buf.headD 0).toNat))
        obtain ⟨_, happly⟩ := applyOption_eq s kind (buf.tail.take (buf.headD 0).toNat)
        refine ⟨scale, ?_⟩
        rw [happly] at hrest ⊢
        split
        · next heq => rw [heq] at hrest; exact hrest
        · next heq => rw [heq] at hrest; exact hrest
      · exact ⟨s.swndScale, rfl⟩

/-- The option kinds that the option loop sees. -/
def optionKinds : ℕ → List UInt8 → Option (List UInt8)
  | 0, _ => some []
  | _, [] => some []
  | fuel + 1, kind :: buf =>
    if kind = TCP_OPT_EOL then some []
    else if kind = TCP_OPT_NOOP then optionKinds fuel buf
    else if (buf.headD 0).toNat ≤ buf.tail.length then
      (optionKinds fuel (buf.tail.drop (buf.headD 0).toNat)).map (kind :: ·)
    else none

theorem parseOptionList_fst (data : List UInt8) (s : PseudoTcp) :
    (parseOptionList fuel data s).1 = optionKinds fuel data := by
  induction fuel generalizing data s with
  | zero => rfl
  | succ fuel ih =>
    cases data with
    | nil => rfl
    | cons kind buf =>
      rw [parseOptionList, optionKinds]
      split
      · rfl
      split
      · exact ih _ _
      simp only
      split
      · rw [← ih _ (s.applyOption kind (buf.tail.take (buf.headD 0).toNat))]
        split
        · next heq => rw [heq]; rfl
        · next heq => rw [heq]; rfl
      · rfl

/-- The options of a connect message make the connection give up window scaling: it had a scale
factor of its own, and the peer names none. -/
def DropsScaling (s : PseudoTcp) (data : List UInt8) : Prop :=
  0 < s.rwndScale ∧
    ∃ kinds, optionKinds (data.length + 1) data = some kinds ∧ TCP_OPT_WND_SCALE ∉ kinds

/-- What `parseOptions` can do: set the scale factor of the peer's window, or give up scaling and
resize the receive buffer. -/
theorem parseOptions_cases (s : PseudoTcp) (data : List UInt8) :
    (∃ scale, s.parseOptions env data = { s with swndScale := scale }) ∨
      s.DropsScaling data ∧ ∃ scale, s.parseOptions env data =
        { { s with swndScale := scale }.resizeReceiveBuffer env DEFAULT_RCV_BUF_SIZE with
          swndScale := 0 } := by
  obtain ⟨scale, hlist⟩ := parseOptionList_eq (data.length + 1) data s
  rw [parseOptions]
  split
  · next heq => rw [heq] at hlist; exact .inl ⟨scale, hlist⟩
  next kinds s' heq =>
  rw [heq] at hlist
  simp only at hlist
  subst hlist
  split
  · next hscale =>
    refine .inr ⟨⟨hscale.2, kinds, ?_, hscale.1⟩, scale, rfl⟩
    rw [← parseOptionList_fst _ _ s, heq]
  · exact .inl ⟨scale, rfl⟩

@[simp] theorem sendCore_parseOptions (s : PseudoTcp) (data : List UInt8) :
    (s.parseOptions env data).sendCore = s.sendCore := by
  obtain ⟨scale, h⟩ | ⟨-, scale, h⟩ := parseOptions_cases env s data
  · rw [h]
    rfl
  · rw [h]
    rfl

@[simp] theorem parseOptions_state (s : PseudoTcp) (data : List UInt8) :
    (s.parseOptions env data).state = s.state := by
  obtain ⟨scale, h⟩ | ⟨-, scale, h⟩ := parseOptions_cases env s data
  · rw [h]
  · rw [h]
    rfl

@[simp] theorem sendCore_updateTimestamp (s : PseudoTcp) (seg : Segment) :
    (s.updateTimestamp seg).sendCore = s.sendCore := by
  rw [updateTimestamp]
  split <;> rfl

@[simp] theorem sendCore_updateRtt (s : PseudoTcp) (now tsecr : UInt32) :
    (s.updateRtt now tsecr).sendCore = s.sendCore := by
  simp only [updateRtt]
  split <;> rfl

@[simp] theorem sendCore_enterEstablished (s : PseudoTcp) (bConnect : Bool) :
    (s.enterEstablished bConnect).sendCore = s.sendCore := by
  rw [enterEstablished]
  split <;> rfl

@[simp] theorem sendCore_notifyWriteable (s : PseudoTcp) : s.notifyWriteable.sendCore = s.sendCore := by
  simp only [notifyWriteable]
  split <;> rfl

@[simp] theorem sendCore_notifyReadable (s : PseudoTcp) (bNewData : Bool) :
    (s.notifyReadable bNewData).sendCore = s.sendCore := by
  rw [notifyReadable]
  split <;> rfl

theorem recoverSaved_eq (rlist : List RSegment) (s : PseudoTcp) :
    ∃ rbuf rcvNxt rcvWnd rest, (recoverSaved rlist s).2 =
      { s with rbuf := rbuf, rcvNxt := rcvNxt, rcvWnd := rcvWnd, rlist := rest } := by
  induction rlist generalizing s with
  | nil => exact ⟨_, _, _, _, rfl⟩
  | cons r rlist ih =>
    rw [recoverSaved]
    split
    · split
      · obtain ⟨rbuf, rcvNxt, rcvWnd, rest, hrest⟩ := ih { s with
          rbuf := s.rbuf.consumeWriteBuffer (r.seq + r.len - s.rcvNxt).toNat
          rcvNxt := s.rcvNxt + (r.seq + r.len - s.rcvNxt)
          rcvWnd := s.rcvWnd - (r.seq + r.len - s.rcvNxt) }
        exact ⟨rbuf, rcvNxt, rcvWnd, rest, hrest⟩
      · exact ih s
    · exact ⟨_, _, _, _, rfl⟩

theorem receiveData_eq (s : PseudoTcp) (seg : Segment) (sflags : SendFlags) :
    ∃ rbuf rcvNxt rcvWnd rlist, (s.receiveData seg sflags).2.2 =
      { s with rbuf := rbuf, rcvNxt := rcvNxt, rcvWnd := rcvWnd, rlist := rlist } := by
  rw [receiveData]
  split
  · exact ⟨_, _, _, _, rfl⟩
  split
  · split <;> exact ⟨_, _, _, _, rfl⟩
  simp only
  split
  · obtain ⟨rbuf, rcvNxt, rcvWnd, rest, hrest⟩ := recoverSaved_eq s.rlist { s with
      rbuf := ((s.rbuf.writeOffset seg.data (seg.seq - s.rcvNxt).toNat).2.2).consumeWriteBuffer
        seg.len.toNat
      rcvNxt := s.rcvNxt + seg.len
      rcvWnd := s.rcvWnd - seg.len }
    exact ⟨rbuf, rcvNxt, rcvWnd, rest, hrest⟩
  · exact ⟨_, _, _, _, rfl⟩

@[simp] theorem sendCore_receiveData (s : PseudoTcp) (seg : Segment) (sflags : SendFlags) :
    (s.receiveData seg sflags).2.2.sendCore = s.sendCore := by
  obtain ⟨rbuf, rcvNxt, rcvWnd, rlist, h⟩ := receiveData_eq s seg sflags
  rw [h]
  rfl

theorem sendCore_lowerMss (nTransmit : UInt32) (fuel : ℕ) (s : PseudoTcp) :
    (s.lowerMss nTransmit fuel).2.sendCore = s.sendCore := by
  induction fuel generalizing s with
  | zero => rfl
  | succ fuel ih =>
    rw [lowerMss]
    split
    · rfl
    · simp only
      split
      · rfl
      · exact ih _

theorem lowerMss_lt {nTransmit n : UInt32} {fuel : ℕ} {s s' : PseudoTcp}
    (h : s.lowerMss nTransmit fuel = (some n, s')) : n < nTransmit := by
  induction fuel generalizing s with
  | zero => cases h
  | succ fuel ih =>
    rw [lowerMss] at h
    split at h
    · cases h
    · simp only at h
      split at h
      · next hlt => cases h; exact hlt
      · exact ih h

/-! ### Queueing -/

theorem queueSegment_covers {acked pending : List (UInt8 × Bool)}
    (h : s.sendCore.Splits acked pending) {data : List UInt8} {len : UInt32} (bCtrl : Bool)
    (hlen : len.toNat = data.length) (hfit : data.length ≤ s.sbuf.getWriteRemaining) :
    Covers s.sndUna (pending ++ data.map fun b => (b, bCtrl)) (s.queueSegment len bCtrl) ∧
      SentFirst (s.queueSegment len bCtrl) ∧
      sentLens (s.queueSegment len bCtrl) = sentLens s.slist := by
  -- A fresh last segment neither disturbs the order nor counts as sent.
  have hfresh : ∀ (init : List SSegment) (g : SSegment), SentFirst init → g.xmit = 0 →
      SentFirst (init ++ [g]) ∧ sentLens (init ++ [g]) = sentLens init := by
    intro init g hinit hg
    refine ⟨List.pairwise_append.mpr ⟨hinit, List.pairwise_singleton _ _, ?_⟩, ?_⟩
    · intro a _ b hb _
      rw [List.mem_singleton.mp hb]
      exact hg
    · rw [sentLens_append, sentLens_cons_of_fresh _ hg, sentLens_nil, Nat.add_zero]
  have hseq : s.sndUna + UInt32.ofNat s.sbuf.getBuffered = s.sndUna + UInt32.ofNat pending.length := by
    rw [h.length_pending]
    rfl
  have hpush := hfresh s.slist
    (SSegment.new (s.sndUna + UInt32.ofNat s.sbuf.getBuffered) len bCtrl) h.order rfl
  have hpushCovers := h.covers.push
    (g := SSegment.new (s.sndUna + UInt32.ofNat s.sbuf.getBuffered) len bCtrl) hseq hlen rfl
  simp only [queueSegment]
  rcases hlast : s.slist.getLast? with _ | back
  · exact ⟨hpushCovers, hpush⟩
  simp only
  split
  · next hmerge =>
    obtain ⟨hctrl, hback⟩ := hmerge
    obtain ⟨init, hinit⟩ : ∃ init, s.slist = init ++ [back] :=
      ⟨_, (List.dropLast_append_getLast? back (by rw [hlast]; rfl)).symm⟩
    have hcov : Covers s.sndUna pending (init ++ [back]) := hinit ▸ h.covers
    have hord : SentFirst init :=
      (List.pairwise_append.mp (show SentFirst (init ++ [back]) from hinit ▸ h.order)).1
    have hsum : back.len.toNat + len.toNat < 2 ^ 32 := by
      have hall : lens s.slist = s.sbuf.dataLength := h.lens_slist
      have hdl : s.sbuf.dataLength ≤ s.sbuf.bufferLength := h.sbuf.data_le
      have hcap : s.sbuf.bufferLength < 2 ^ 32 := h.cap
      have hfree : data.length ≤ s.sbuf.bufferLength - s.sbuf.dataLength := hfit
      rw [hinit, lens_append, lens_cons, lens_nil] at hall
      omega
    rw [show s.slist.dropLast = init by rw [hinit, List.dropLast_concat], ← hctrl]
    have hgrown := hfresh init { back with len := back.len + len } hord hback
    refine ⟨hcov.extend rfl ?_ rfl, hgrown.1, ?_⟩
    · rw [UInt32.toNat_add, Nat.mod_eq_of_lt hsum, hlen]
    · rw [hgrown.2, hinit, (hfresh init back hord hback).2]
  · exact ⟨hpushCovers, hpush⟩

theorem sendInv_queue (h : s.sendCore.Inv) (data : List UInt8) (len : UInt32) (bCtrl : Bool)
    (hlen : len.toNat ≤ data.length) :
    (s.queue data len bCtrl).2.sendCore.Inv ∧
      (s.queue data len bCtrl).2.queued = s.queued ++
        (data.take (s.queue data len bCtrl).1.toNat).map fun b => (b, bCtrl) := by
  obtain ⟨⟨acked, pending, hs⟩, hpk⟩ := h
  have hwf : s.sbuf.WellFormed := hs.sbuf
  have hcap : s.sbuf.bufferLength < 2 ^ 32 := hs.cap
  have hspace : (UInt32.ofNat s.sbuf.getWriteRemaining).toNat = s.sbuf.getWriteRemaining := by
    have : s.sbuf.getWriteRemaining ≤ s.sbuf.bufferLength := Nat.sub_le _ _
    rw [UInt32.toNat_ofNat', Nat.mod_eq_of_lt (by omega)]
  -- The length that is queued fits both the data and the free space.
  set n := if UInt32.ofNat s.sbuf.getWriteRemaining < len then
    UInt32.ofNat s.sbuf.getWriteRemaining else len with hn
  have hfit : n.toNat ≤ s.sbuf.getWriteRemaining ∧ n.toNat ≤ data.length := by
    rw [hn]
    split
    · next hlt => rw [UInt32.lt_iff_toNat_lt] at hlt; omega
    · next hge => rw [UInt32.lt_iff_toNat_lt] at hge; omega
  obtain ⟨d, hd⟩ : ∃ d, data.take n.toNat = d := ⟨_, rfl⟩
  have hdlen : n.toNat = d.length := by rw [← hd, List.length_take]; omega
  obtain ⟨hcount, hcont, hbl, hwf'⟩ := FifoBuffer.write_eq hwf d
  rw [← hdlen, Nat.min_eq_left hfit.1] at hcount
  rw [List.take_of_length_le (by omega)] at hcont
  obtain ⟨hcov, hord, hsent⟩ := queueSegment_covers hs bCtrl hdlen (by omega)
  have hqueue : s.queue data len bCtrl = (n, { s with
      slist := s.queueSegment n bCtrl
      sbuf := (s.sbuf.write d).2.2
      queued := s.queued ++ d.map fun b => (b, bCtrl) }) := by
    simp only [queue, ← hn, hd, hcount, UInt32.ofNat_toNat]
    rw [List.take_of_length_le (Nat.le_of_eq hdlen.symm)]
  rw [hqueue]
  refine ⟨⟨⟨acked, _, hwf', ?_, ?_, hs.una, ?_, hcov, hord, ?_⟩, fun p hp => ?_⟩, ?_⟩
  · exact hbl ▸ hcap
  · change s.queued ++ _ = acked ++ (pending ++ _)
    rw [show s.queued = acked ++ pending from hs.queued, List.append_assoc]
  · change (s.sbuf.write d).2.2.contents = _
    rw [hcont, show s.sbuf.contents = pending.map Prod.fst from hs.contents, List.map_append,
      List.map_map]
    simp [Function.comp_def]
  · change s.sndNxt = s.sndUna + UInt32.ofNat (sentLens (s.queueSegment n bCtrl))
    rw [hsent]
    exact hs.next
  · exact (hpk p hp).append _
  · rw [hd]

/-! ### Packets -/

theorem sendCore_packet (s : PseudoTcp) (seq : UInt32) (flags : UInt8) (offset len : UInt32) :
    (s.packet env seq flags offset len).2.sendCore = { s.sendCore with
      written := (s.header seq flags (s.now env) ++ s.payload env offset len,
        env.writeResult s.written.length) :: s.written } := by
  simp only [packet]
  split <;> rfl

theorem sendInv_packet (h : s.sendCore.Inv) {seq : UInt32} {flags : UInt8} {offset len : UInt32}
    (hp : CarriesQueued s.queued (s.header seq flags (s.now env) ++ s.payload env offset len)) :
    (s.packet env seq flags offset len).2.sendCore.Inv := by
  obtain ⟨⟨acked, pending, hs⟩, hpk⟩ := h
  rw [sendCore_packet]
  refine ⟨⟨acked, pending, hs.sbuf, hs.cap, hs.queued, hs.una, hs.contents, hs.covers, hs.order,
    hs.next⟩, fun p hmem => ?_⟩
  rcases List.mem_cons.mp hmem with rfl | hold
  · exact hp
  · exact hpk p hold

theorem sendInv_packet_empty (h : s.sendCore.Inv) (seq : UInt32) :
    (s.packet env seq 0 0 0).2.sendCore.Inv :=
  sendInv_packet env h ⟨_, parseHeader_header s seq 0 (s.now env) [], fun hne => absurd rfl hne⟩

variable {g : SSegment}

theorem carriesQueued_segment {acked pending : List (UInt8 × Bool)} {l₁ l₂ : List SSegment}
    (h : s.sendCore.Splits acked pending) (hl : s.slist = l₁ ++ g :: l₂) {n : UInt32}
    (hn : n ≤ g.len) (now : UInt32) :
    CarriesQueued s.queued (s.header g.seq (if g.bCtrl then FLAG_CTL else 0) now ++
      s.payload env (g.seq - s.sndUna) n) := by
  refine ⟨_, parseHeader_header s _ _ _ _, fun hne => ?_⟩
  have hcov : Covers s.sndUna pending (l₁ ++ g :: l₂) := hl ▸ h.covers
  obtain ⟨hseq, hlen, htag⟩ := hcov.entry
  have hn' : n.toNat ≤ g.len.toNat := UInt32.le_iff_toNat_le.mp hn
  have hn0 : n ≠ 0 := by
    rintro rfl
    exact hne rfl
  have hnpos : 0 < n.toNat := by
    rcases Nat.eq_zero_or_pos n.toNat with hz | hz
    · exact absurd (UInt32.toNat_inj.mp hz) hn0
    · exact hz
  have hpl : pending.length = s.sbuf.dataLength := h.length_pending
  have hlt : lens l₁ < 2 ^ 32 := by
    have := h.lens_lt
    rw [show s.sendCore.slist = l₁ ++ g :: l₂ from hl, lens_append] at this
    omega
  have hoff : (g.seq - s.sndUna).toNat = lens l₁ := by
    rw [hseq, show s.sndUna + UInt32.ofNat (lens l₁) - s.sndUna = UInt32.ofNat (lens l₁) by grind,
      UInt32.toNat_ofNat', Nat.mod_eq_of_lt hlt]
  have hread : s.sbuf.readOffset n.toNat (lens l₁) =
      (.success, (s.sbuf.contents.drop (lens l₁)).take n.toNat) :=
    FifoBuffer.readOffset_eq h.sbuf _ (show lens l₁ < s.sbuf.dataLength by omega)
  have hcontents : s.sbuf.contents = pending.map Prod.fst := h.contents
  have hpay : s.payload env (g.seq - s.sndUna) n =
      ((pending.drop (lens l₁)).take n.toNat).map Prod.fst := by
    have hfull : ((s.sbuf.contents.drop (lens l₁)).take n.toNat).length = n.toNat := by
      rw [List.length_take, List.length_drop, FifoBuffer.length_contents]
      omega
    simp only [payload, if_neg hn0, hoff, hread, hfull, Nat.sub_self, List.range_zero,
      List.map_nil, List.append_nil]
    rw [hcontents, ← List.map_drop, ← List.map_take]
  have hplen : (s.payload env (g.seq - s.sndUna) n).length = n.toNat := by
    rw [hpay, List.length_map, List.length_take, List.length_drop]
    omega
  have hqueued : s.queued = acked ++ pending := h.queued
  refine ⟨acked.length + lens l₁, ?_, ?_, ?_⟩
  · rw [UInt32.ofNat_add, ← h.una, hseq]
    rfl
  · rw [hplen, hqueued, List.length_append]
    omega
  have hflag : decide ((if g.bCtrl then FLAG_CTL else 0) &&& FLAG_CTL ≠ 0) = g.bCtrl := by
    cases g.bCtrl <;> rfl
  rw [hplen, hqueued, hflag, List.drop_append, List.drop_eq_nil_of_le (by omega),
    Nat.add_sub_cancel_left, List.nil_append, hpay, List.map_map]
  -- Every covered byte is of the segment's kind.
  refine List.map_congr_left (g := id) (fun x hx => ?_) |>.trans (List.map_id _)
  have hkind : x.2 = g.bCtrl := by
    refine htag x ?_
    rw [← Nat.min_eq_left hn', ← List.take_take] at hx
    exact List.mem_of_mem_take hx
  exact Prod.ext rfl hkind.symm

/-! ### Transmitting -/

/-- The part of the sending side that `packet` does not touch. -/
def SameSegments (s s' : PseudoTcp) : Prop :=
  s'.slist = s.slist ∧ s'.sndUna = s.sndUna ∧ s'.sndNxt = s.sndNxt ∧ s'.queued = s.queued

theorem sameSegments_of_sendCore {s s' s'' : PseudoTcp} (h : s''.sendCore = s'.sendCore)
    (hs : SameSegments s s') : SameSegments s s'' := by
  simp only [sendCore, SendCore.mk.injEq] at h
  obtain ⟨-, hl, hu, hn, hq, -⟩ := h
  exact ⟨hl.trans hs.1, hu.trans hs.2.1, hn.trans hs.2.2.1, hq.trans hs.2.2.2⟩

theorem sameSegments_packet (s : PseudoTcp) (seq : UInt32) (flags : UInt8) (offset len : UInt32) :
    SameSegments s (s.packet env seq flags offset len).2 := by
  simp only [packet]
  split <;> exact ⟨rfl, rfl, rfl, rfl⟩

/-- The retry loop of `transmit` writes correct packets, touches no segment, and ends with a payload
no longer than asked for. -/
theorem sendInv_transmitLoop {l₁ l₂ : List SSegment} {n : UInt32}
    (h : s.sendCore.Inv) (hl : s.slist = l₁ ++ g :: l₂) (hn : n ≤ g.len) :
    (transmitLoop env g fuel n s).2.sendCore.Inv ∧ SameSegments s (transmitLoop env g fuel n s).2 ∧
      ∀ m, (transmitLoop env g fuel n s).1 = some m → m ≤ n := by
  induction fuel generalizing s n with
  | zero => exact ⟨h, ⟨rfl, rfl, rfl, rfl⟩, fun m hm => by cases hm⟩
  | succ fuel ih =>
    obtain ⟨acked, pending, hs⟩ := h.splits
    have hpkt := sendInv_packet env h (carriesQueued_segment env hs hl hn (s.now env))
    have hsame := sameSegments_packet env s g.seq (if g.bCtrl then FLAG_CTL else 0)
      (g.seq - s.sndUna) n
    rw [transmitLoop]
    rcases hp : s.packet env g.seq (if g.bCtrl then FLAG_CTL else 0) (g.seq - s.sndUna) n with
      ⟨wres, s'⟩
    rw [hp] at hpkt hsame
    cases wres with
    | success =>
      exact ⟨hpkt, hsame, fun m hm => by cases hm; exact UInt32.le_refl _⟩
    | fail => exact ⟨hpkt, hsame, fun m hm => by cases hm⟩
    | tooLarge =>
      have hlow := sendCore_lowerMss n PACKET_MAXIMUMS.length s'
      simp only
      rcases hm : s'.lowerMss n PACKET_MAXIMUMS.length with ⟨_ | n', s''⟩
      · rw [hm] at hlow
        exact ⟨hlow ▸ hpkt, sameSegments_of_sendCore hlow hsame, fun m hm => by cases hm⟩
      rw [hm] at hlow
      have hsame' : SameSegments s s'' := sameSegments_of_sendCore hlow hsame
      have hlt : n' < n := lowerMss_lt hm
      have hle : n' ≤ n := UInt32.le_of_lt hlt
      obtain ⟨hinv, hrest, hbound⟩ := ih (s := s'') (n := n') (hlow ▸ hpkt)
        (hsame'.1.trans hl) (UInt32.le_trans hle hn)
      refine ⟨hinv, ⟨hrest.1.trans hsame'.1, hrest.2.1.trans hsame'.2.1,
        hrest.2.2.1.trans hsame'.2.2.1, hrest.2.2.2.trans hsame'.2.2.2⟩, fun m hm => ?_⟩
      exact UInt32.le_trans (hbound m hm) hle

theorem getElem?_of_eq_append {l l₁ l₂ : List SSegment} (h : l = l₁ ++ g :: l₂) :
    l[l₁.length]? = some g := by
  rw [h, List.getElem?_append_right le_rfl, Nat.sub_self]
  rfl

theorem replaceAt_append (l₁ l₂ segs : List SSegment) (g : SSegment) :
    replaceAt (l₁ ++ g :: l₂) l₁.length segs = l₁ ++ segs ++ l₂ := by
  rw [replaceAt, List.take_left, List.drop_append, List.drop_eq_nil_of_le (by omega),
    Nat.add_sub_cancel_left, List.nil_append]
  rfl

variable {i : ℕ}

theorem exists_append_of_getElem? {l : List SSegment} (h : l[i]? = some g) :
    ∃ l₁ l₂, l = l₁ ++ g :: l₂ ∧ l₁.length = i := by
  obtain ⟨hi, rfl⟩ := List.getElem?_eq_some_iff.mp h
  refine ⟨l.take i, l.drop (i + 1), ?_, by rw [List.length_take]; omega⟩
  rw [← List.drop_eq_getElem_cons hi, List.take_append_drop]

theorem xmit_add_one_ne_zero {x : UInt8} {p : Prop} [Decidable p]
    (h : ¬ (if p then 15 else 30) ≤ x) : x + 1 ≠ 0 := by
  intro hz
  have hx : x = 255 := by grind
  subst hx
  split at h <;> exact absurd (by decide) h

theorem uint32_min_le_left (a b : UInt32) : min a b ≤ a := by
  rw [show min a b = if a ≤ b then a else b from rfl]
  split
  · exact UInt32.le_refl _
  · next h => exact UInt32.le_of_lt (UInt32.not_le.mp h)

theorem sendInv_transmit (h : s.sendCore.Inv) (i : ℕ) (now : UInt32)
    (hsent : ∀ g ∈ s.slist.take i, g.xmit ≠ 0) : (s.transmit env i now).2.sendCore.Inv := by
  rw [transmit]
  rcases hg : s.slist[i]? with _ | g
  · exact h
  obtain ⟨l₁, l₂, hl, rfl⟩ := exists_append_of_getElem? hg
  rw [hl, List.take_left] at hsent
  simp only
  by_cases hlimit : (if s.state = .established then 15 else 30) ≤ g.xmit
  · rw [if_pos hlimit]
    exact h
  rw [if_neg hlimit]
  have hmin : min g.len s.mss ≤ g.len := uint32_min_le_left _ _
  obtain ⟨hinv, hsame, hbound⟩ :=
    sendInv_transmitLoop env PACKET_MAXIMUMS.length h hl hmin
  rcases hloop : transmitLoop env g PACKET_MAXIMUMS.length (min g.len s.mss) s with ⟨_ | n, s'⟩
  · rw [hloop] at hinv
    exact hinv
  rw [hloop] at hinv hsame hbound
  have hn : n ≤ g.len := UInt32.le_trans (hbound n rfl) hmin
  obtain ⟨⟨acked, pending, hs⟩, hpk⟩ := hinv
  obtain ⟨hslist, huna, hnxt, -⟩ := hsame
  have hl' : s'.slist = l₁ ++ g :: l₂ := hslist.trans hl
  have hx : g.xmit + 1 ≠ 0 := xmit_add_one_ne_zero hlimit
  simp only
  refine ⟨⟨acked, pending, ?_⟩, hpk⟩
  rw [hl', replaceAt_append]
  by_cases hlt : n < g.len
  · simp only [if_pos hlt]
    refine hs.transmit hl' hsent hx ?_ ?_ fun una q hcov => ?_
    · intro b hb
      rw [List.mem_singleton.mp hb]
    · have := UInt32.le_iff_toNat_le.mp hn
      simp only [lens_cons, lens_nil, SSegment.new, UInt32.toNat_sub_of_le _ _ hn]
      omega
    · exact hcov.split hn ⟨rfl, rfl, rfl⟩ ⟨rfl, rfl, rfl⟩
  simp only [if_neg hlt]
  refine hs.transmit hl' hsent hx ?_ ?_ fun una q hcov => ?_
  · intro b hb
    cases hb
  · rw [lens_nil, Nat.add_zero]
  · exact (covers_cons_congr rfl rfl rfl).mpr hcov

theorem sent_of_findIdx? {l : List SSegment} (h : l.findIdx? (fun seg => seg.xmit = 0) = some i) :
    (∃ l₁ g l₂, l = l₁ ++ g :: l₂ ∧ l₁.length = i ∧ g.xmit = 0) ∧
      ∀ g ∈ l.take i, g.xmit ≠ 0 := by
  obtain ⟨hi, hfresh, hbefore⟩ := List.findIdx?_eq_some_iff_getElem.mp h
  constructor
  · obtain ⟨l₁, l₂, hl, hlen⟩ := exists_append_of_getElem? (List.getElem?_eq_getElem hi)
    exact ⟨l₁, _, l₂, hl, hlen, of_decide_eq_true hfresh⟩
  · intro g hg
    obtain ⟨j, hj, rfl⟩ := List.mem_iff_getElem.mp hg
    rw [List.length_take] at hj
    rw [List.getElem_take]
    exact fun hx => hbefore j (by omega) (decide_eq_true hx)

theorem sendInv_splitSegment (h : s.sendCore.Inv) (nAvailable : UInt32)
    (hi : s.slist.findIdx? (fun seg => seg.xmit = 0) = some i) :
    (s.splitSegment i nAvailable).sendCore.Inv ∧
      (s.splitSegment i nAvailable).slist.take i = s.slist.take i := by
  obtain ⟨⟨l₁, g, l₂, hl, rfl, hfresh⟩, -⟩ := sent_of_findIdx? hi
  obtain ⟨⟨acked, pending, hs⟩, hpk⟩ := h
  simp only [splitSegment, getElem?_of_eq_append hl]
  split
  · next hlt =>
    rw [hl, replaceAt_append, List.append_assoc, List.take_left, List.take_left]
    have hcov : Covers s.sndUna pending (l₁ ++ g :: l₂) := hl ▸ hs.covers
    have hord : SentFirst (l₁ ++ g :: l₂) := hl ▸ hs.order
    have hnext : s.sndNxt = s.sndUna + UInt32.ofNat (sentLens (l₁ ++ g :: l₂)) := hl ▸ hs.next
    obtain ⟨hle, hcov₁, hcov₂⟩ := covers_append.mp hcov
    obtain ⟨hord', hsent⟩ := hord.replace_fresh hfresh [{ g with len := nAvailable },
        SSegment.new (g.seq + nAvailable) (g.len - nAvailable) g.bCtrl] fun b hb => by
        rcases List.mem_cons.mp hb with rfl | hb
        · exact hfresh
        · rw [List.mem_singleton.mp hb]
          rfl
    refine ⟨⟨⟨acked, pending, hs.with_slist ?_ ?_ ?_⟩, hpk⟩, rfl⟩
    · exact covers_append.mpr ⟨hle, hcov₁,
        hcov₂.split (UInt32.le_of_lt hlt) ⟨rfl, rfl, rfl⟩ ⟨rfl, rfl, rfl⟩⟩
    · rw [← List.append_assoc]
      exact hord'
    · rw [← List.append_assoc, hsent]
      exact hnext
  · exact ⟨⟨⟨acked, pending, hs⟩, hpk⟩, rfl⟩

theorem sendInv_attemptSendLoop (now : UInt32) (fuel : ℕ) (sflags : SendFlags)
    (h : s.sendCore.Inv) : (attemptSendLoop env now fuel sflags s).sendCore.Inv := by
  induction fuel generalizing s sflags with
  | zero => exact h
  | succ fuel ih =>
    rw [attemptSendLoop]
    split
    · split
      · exact h
      split
      · exact sendInv_packet_empty env h _
      · exact h
    split
    · exact h
    split
    · exact h
    next i hi =>
    obtain ⟨hsplit, htake⟩ := sendInv_splitSegment h s.sendable hi
    have hsent : ∀ g ∈ (s.splitSegment i s.sendable).slist.take i, g.xmit ≠ 0 := by
      rw [htake]
      exact (sent_of_findIdx? hi).2
    have htransmit := sendInv_transmit env hsplit i now hsent
    rcases hr : (s.splitSegment i s.sendable).transmit env i now with ⟨_ | _, s'⟩
    · rw [hr] at htransmit
      exact htransmit
    · rw [hr] at htransmit
      exact ih .none htransmit

theorem sendInv_attemptSend (h : s.sendCore.Inv) (sflags : SendFlags) :
    (s.attemptSend env sflags).sendCore.Inv := by
  refine sendInv_attemptSendLoop env _ _ _ ?_
  split
  · exact h
  · exact h

/-! ### Acknowledgments -/

theorem sendInv_acceptAck (h : s.sendCore.Inv) (now : UInt32) (seg : Segment)
    (hack : s.valuableAck seg.ack) (hb : OnBoundary (seg.ack - s.sndUna).toNat s.slist) :
    (s.acceptAck now seg).sendCore.Inv := by
  obtain ⟨⟨acked, pending, hs⟩, hpk⟩ := h
  have hcore := sendCore_updateRtt s now seg.tsecr
  simp only [acceptAck]
  generalize s.updateRtt now seg.tsecr = t at hcore ⊢
  simp only [sendCore, SendCore.mk.injEq] at hcore
  obtain ⟨hsbuf, hslist, huna, hnxt, hqueued, hwritten⟩ := hcore
  simp only [sendCore, hsbuf, hslist, huna, hnxt, hqueued, hwritten]
  obtain ⟨k, hk, hlens⟩ := freeAcked_of_boundary t.largest hb
  set n := (seg.ack - s.sndUna).toNat with hn
  have hack' : seg.ack = s.sndUna + UInt32.ofNat n := by
    rw [hn, UInt32.ofNat_toNat]
    grind
  have hpl : pending.length = s.sbuf.dataLength := hs.length_pending
  have hle : n ≤ sentLens s.slist := by
    have hfl : (s.sndNxt - s.sndUna).toNat = sentLens s.slist := hs.inFlight
    obtain ⟨h1, h2⟩ := hack
    rw [← hfl, hn]
    rw [UInt32.lt_iff_toNat_lt] at h1
    rw [UInt32.le_iff_toNat_le] at h2
    rw [UInt32.toNat_sub_of_le _ _ (by rw [UInt32.le_iff_toNat_le]; omega),
      UInt32.toNat_sub_of_le _ _ (by rw [UInt32.le_iff_toNat_le]; omega)]
    omega
  have hsplit : s.slist.take k ++ s.slist.drop k = s.slist := List.take_append_drop k _
  have hord : SentFirst (s.slist.take k ++ s.slist.drop k) := hsplit.symm ▸ hs.order
  have hsent : sentLens (s.slist.take k) = n := by
    rw [hord.sentLens_eq (by rw [hsplit, hlens]; exact hle), hlens]
  refine ⟨⟨acked ++ pending.take n, pending.drop n, ?_⟩, hpk⟩
  rw [hk]
  have hll : lens s.slist = s.sbuf.dataLength := hs.lens_slist
  have hnle : n ≤ pending.length := by
    rw [hpl, ← hll]
    exact hle.trans (sentLens_le_lens _)
  refine ⟨FifoBuffer.wellFormed_consumeReadData hs.sbuf n, ?_, ?_, ?_, ?_, ?_, ?_, ?_⟩
  · change (s.sbuf.consumeReadData n).bufferLength < 2 ^ 32
    rw [FifoBuffer.consumeReadData_bufferLength]
    exact hs.cap
  · rw [List.append_assoc, List.take_append_drop]
    exact hs.queued
  · rw [List.length_append, List.length_take, Nat.min_eq_left hnle, UInt32.ofNat_add, ← hs.una]
    exact hack'
  · change (s.sbuf.consumeReadData n).contents = _
    rw [FifoBuffer.contents_consumeReadData, List.map_drop, ← hs.contents]
    rfl
  · change Covers seg.ack _ _
    rw [hack', ← hlens]
    exact hs.covers.drop k
  · exact (List.pairwise_append.mp hord).2.1
  · change s.sndNxt = seg.ack + UInt32.ofNat (sentLens (s.slist.drop k))
    have hnext : s.sndNxt = s.sndUna + UInt32.ofNat (sentLens s.slist) := hs.next
    rw [hnext, hack', ← hsplit, sentLens_append, hsent, UInt32.ofNat_add, UInt32.add_assoc, hsplit]

theorem sendInv_transmit_zero (h : s.sendCore.Inv) (now : UInt32) :
    (s.transmit env 0 now).2.sendCore.Inv := by
  refine sendInv_transmit env h 0 now ?_
  intro g hg
  cases hg

theorem sendInv_afterAck (h : s.sendCore.Inv) (now nAcked : UInt32) :
    (s.afterAck env now nAcked).2.sendCore.Inv := by
  have htransmit := sendInv_transmit_zero env h now
  rw [afterAck]
  split
  · split
    · exact h
    rcases hr : s.transmit env 0 now with ⟨_ | _, s'⟩
    · rw [hr] at htransmit
      exact htransmit
    · rw [hr] at htransmit
      exact htransmit
  · simp only
    split
    · exact h
    · exact h

theorem sendInv_duplicateAck (h : s.sendCore.Inv) (now : UInt32) (seg : Segment) :
    (s.duplicateAck env now seg).2.sendCore.Inv := by
  simp only [duplicateAck]
  split
  · exact h
  split
  · split
    · have htransmit := sendInv_transmit_zero env (s := { s with
        sndWnd := seg.wnd.toUInt32 <<< s.swndScale.toUInt32, dupAcks := s.dupAcks + 1 }) h now
      split
      · next hr => rw [hr] at htransmit; exact htransmit
      · next hr => rw [hr] at htransmit; exact htransmit
    · split
      · exact h
      · exact h
  · exact h

/-- The acknowledgment is accepted although it ends inside a queued segment. -/
def EndsInside (s : PseudoTcp) (ack : UInt32) : Prop :=
  s.valuableAck ack ∧ ¬ OnBoundary (ack - s.sndUna).toNat s.slist

/-- The acknowledgment part of `process` keeps the invariant unless the acknowledgment ends inside a
queued segment. -/
theorem sendInv_processAck (h : s.sendCore.Inv) (now : UInt32) (seg : Segment)
    (hb : ¬ s.EndsInside seg.ack) : (s.processAck env now seg).2.sendCore.Inv := by
  rw [processAck]
  split
  · next hack =>
    have hboundary : OnBoundary (seg.ack - s.sndUna).toNat s.slist := by
      by_contra hnot
      exact hb ⟨hack, hnot⟩
    exact sendInv_afterAck env (sendInv_acceptAck h now seg hack hboundary) _ _
  split
  · exact sendInv_duplicateAck env h now seg
  · exact h

theorem not_valuableAck_of_queued_eq_nil (h : s.sendCore.Inv) (hq : s.queued = []) (ack : UInt32) :
    ¬ s.valuableAck ack := by
  obtain ⟨⟨acked, pending, hs⟩, -⟩ := h
  have hnil : acked ++ pending = [] := hs.queued.symm.trans hq
  have hlens : lens s.slist = 0 := by
    have := hs.covers.lens_eq
    rwa [(List.append_eq_nil_iff.mp hnil).2] at this
  have hsent : sentLens s.slist = 0 := Nat.le_zero.mp (hlens ▸ sentLens_le_lens s.slist)
  have hnext : s.sndNxt = s.sndUna + UInt32.ofNat (sentLens s.slist) := hs.next
  rw [hsent] at hnext
  rintro ⟨h1, h2⟩
  have hnext' : s.sndNxt = s.sndUna := by
    grind
  rw [hnext'] at h2
  exact absurd h1 (UInt32.not_lt.mpr h2)

/-! ### The control part, and `process` -/

theorem sendInv_queueConnectMessage (h : s.sendCore.Inv) : s.queueConnectMessage.sendCore.Inv := by
  refine (sendInv_queue (s := { s with sndWnd := _ }) h _ _ true ?_).1
  exact Nat.mod_le _ _

/-- A segment gets as far as the acknowledgment part of `process`: it is of the connection, which is open, and
no reset, and as a control segment a connect message. -/
def Heeds (s : PseudoTcp) (seg : Segment) : Prop :=
  seg.conv = s.conv ∧ s.state ≠ .closed ∧ seg.flags &&& FLAG_RST = 0 ∧
    (seg.flags &&& FLAG_CTL ≠ 0 → ∃ options, seg.data = CTL_CONNECT :: options)

/-- What the control part can do: nothing to a data segment; to a connect message, parse its options
and, in the two states of the handshake, move on. -/
theorem processControl_cases {seg : Segment} {bConnect : Bool} {s' : PseudoTcp}
    (hc : s.processControl env seg = some (bConnect, s')) :
    (seg.flags &&& FLAG_CTL = 0 ∧ bConnect = false ∧ s' = s) ∨
      seg.flags &&& FLAG_CTL ≠ 0 ∧ bConnect = true ∧ ∃ options, seg.data = CTL_CONNECT :: options ∧
        ((s.state = .listen ∧ s' = { s.parseOptions env options with
            state := .synReceived }.queueConnectMessage) ∨
          (s.state = .synSent ∧ s' = ({ s.parseOptions env options with
            state := .established }.adjustMTU).notify .onTcpOpen) ∨
          s.state ≠ .listen ∧ s.state ≠ .synSent ∧ s' = s.parseOptions env options) := by
  rw [processControl] at hc
  split at hc
  · next hflag =>
    cases hc
    exact .inl ⟨hflag, rfl, rfl⟩
  next hflag =>
  split at hc
  · cases hc
  next code options hdata =>
  split at hc
  · cases hc
  next hcode =>
  rw [not_ne_iff.mp hcode] at hdata
  simp only [parseOptions_state] at hc
  refine .inr ⟨hflag, ?_⟩
  split at hc
  · next hstate =>
    cases hc
    exact ⟨rfl, options, hdata, .inl ⟨hstate, rfl⟩⟩
  next hlisten =>
  split at hc
  · next hstate =>
    cases hc
    exact ⟨rfl, options, hdata, .inr (.inl ⟨hstate, rfl⟩)⟩
  · next hsyn =>
    cases hc
    exact ⟨rfl, options, hdata, .inr (.inr ⟨hlisten, hsyn, rfl⟩)⟩

/-- The control part keeps the invariant, and the condition on the acknowledgment that follows: it queues in
`TCP_LISTEN` only, where none is accepted. -/
theorem sendInv_processControl (h : s.sendCore.Inv) (hlisten : s.state = .listen → s.queued = [])
    {seg : Segment} (hb : ¬ s.EndsInside seg.ack) {bConnect : Bool} {s' : PseudoTcp}
    (hc : s.processControl env seg = some (bConnect, s')) :
    s'.sendCore.Inv ∧ ¬ s'.EndsInside seg.ack := by
  obtain ⟨-, -, rfl⟩ | ⟨-, -, options, -, hcase⟩ := processControl_cases env hc
  · exact ⟨h, hb⟩
  have hcore : (s.parseOptions env options).sendCore = s.sendCore := sendCore_parseOptions env s _
  generalize s.parseOptions env options = t at hcase hcore
  have hinv : t.sendCore.Inv := hcore.symm ▸ h
  simp only [sendCore, SendCore.mk.injEq] at hcore
  obtain ⟨-, hslist, huna, hnxt, hqueued, -⟩ := hcore
  have hb' : ¬ t.EndsInside seg.ack := by
    rw [EndsInside, valuableAck, huna, hnxt, hslist]
    exact hb
  obtain ⟨hstate, rfl⟩ | ⟨-, rfl⟩ | ⟨-, -, rfl⟩ := hcase
  · refine ⟨sendInv_queueConnectMessage (s := { t with state := .synReceived }) hinv, fun hv => ?_⟩
    have hempty : t.queued = [] := hqueued.trans (hlisten hstate)
    exact absurd hv.1 (not_valuableAck_of_queued_eq_nil hinv hempty _)
  · exact ⟨hinv, hb'⟩
  · exact ⟨hinv, hb'⟩

/-- What `process` can do: drop the segment, or handle its control, acknowledgment and data part in
turn. -/
theorem process_cases (s : PseudoTcp) (seg : Segment) :
    ((s.process env seg).2 = s ∨ (s.process env seg).2 = s.arrive env ∨
      (s.process env seg).2 = (s.arrive env).closedown .econnreset) ∨
    s.Heeds seg ∧ ∃ bConnect s₁ s₂, (s.arrive env).processControl env seg = some (bConnect, s₁) ∧
      ((s₁.updateTimestamp seg).processAck env (s.now env) seg).2 = s₂ ∧
      ((s.process env seg).2 = s₂ ∨ (s.process env seg).2 =
        ((s₂.enterEstablished bConnect).notifyWriteable).processData env seg) := by
  rw [process]
  split
  · exact .inl (.inl rfl)
  next hconv =>
  simp only
  split
  · exact .inl (.inr (.inl rfl))
  next hopen =>
  split
  · exact .inl (.inr (.inr rfl))
  next hrst =>
  split
  · exact .inl (.inr (.inl rfl))
  next bConnect s₁ hc =>
  refine .inr ⟨⟨not_ne_iff.mp hconv, hopen, not_ne_iff.mp hrst, fun hctl => ?_⟩, bConnect, s₁, ?_⟩
  · obtain ⟨hflag, -⟩ | ⟨-, -, options, hdata, -⟩ := processControl_cases env hc
    · exact absurd hflag hctl
    · exact ⟨options, hdata⟩
  · split
    · next s₂ hr => exact ⟨s₂, hc, by rw [hr], .inl rfl⟩
    · next s₂ hr => exact ⟨s₂, hc, by rw [hr], .inr rfl⟩

theorem sendInv_process (h : s.sendCore.Inv) (hlisten : s.state = .listen → s.queued = [])
    (seg : Segment) (hb : s.Heeds seg → ¬ s.EndsInside seg.ack) :
    (s.process env seg).2.sendCore.Inv := by
  obtain (hr | hr | hr) | ⟨hheeds, bConnect, s₁, s₂, hc, hs₂, hr⟩ := process_cases env s seg
  · rw [hr]
    exact h
  · rw [hr]
    exact h
  · rw [hr]
    exact h
  obtain ⟨hinv, hb'⟩ := sendInv_processControl env (s := s.arrive env) h hlisten (hb hheeds) hc
  have hts := sendCore_updateTimestamp s₁ seg
  have hack : s₂.sendCore.Inv := by
    rw [← hs₂]
    refine sendInv_processAck env (hts.symm ▸ hinv) (s.now env) seg ?_
    simp only [sendCore, SendCore.mk.injEq] at hts
    rw [EndsInside, valuableAck, hts.2.1, hts.2.2.1, hts.2.2.2.1]
    exact hb'
  rcases hr with hr | hr
  · rw [hr]
    exact hack
  · rw [hr]
    simp only [processData, sendCore_notifyReadable]
    refine sendInv_attemptSend env ?_ _
    rw [sendCore_receiveData, sendCore_notifyWriteable, sendCore_enterEstablished]
    exact hack

/-! ### The interface -/

theorem sendInv_new (conv : UInt32) : (new env conv).sendCore.Inv := by
  refine ⟨⟨[], [], FifoBuffer.wellFormed_new _ _, ?_, rfl, rfl, rfl, rfl, List.Pairwise.nil, rfl⟩,
    fun p hp => by cases hp⟩
  exact UInt32.toNat_lt _

theorem sendInv_connect (h : s.sendCore.Inv) : (s.connect env).2.sendCore.Inv := by
  rw [connect]
  split
  · exact h
  · exact sendInv_attemptSend env
      (sendInv_queueConnectMessage (s := { s with state := .synSent }) h) _

theorem sendInv_notifyMTU (h : s.sendCore.Inv) (mtu : UInt16) : (s.notifyMTU mtu).sendCore.Inv := by
  simp only [notifyMTU]
  split
  · exact h
  · exact h

theorem sendInv_clockRetransmit (h : s.sendCore.Inv) (now : UInt32) :
    (s.clockRetransmit env now).2.sendCore.Inv := by
  have htransmit := sendInv_transmit_zero env h now
  rw [clockRetransmit]
  split
  · rcases hr : s.transmit env 0 now with ⟨_ | _, s'⟩
    · rw [hr] at htransmit
      exact htransmit
    · rw [hr] at htransmit
      exact htransmit
  · exact h

theorem sendInv_clockProbe (h : s.sendCore.Inv) (now : UInt32) : (s.clockProbe env now).2.sendCore.Inv := by
  rw [clockProbe]
  split
  · split
    · exact h
    · exact sendInv_packet_empty env h _
  · exact h

theorem sendInv_notifyClock (h : s.sendCore.Inv) (now : UInt32) : (s.notifyClock env now).sendCore.Inv := by
  have hretransmit := sendInv_clockRetransmit env h now
  rw [notifyClock]
  split
  · exact h
  split
  · next hr => rw [hr] at hretransmit; exact hretransmit
  next s₁ hr =>
  rw [hr] at hretransmit
  have hprobe := sendInv_clockProbe env hretransmit now
  split
  · next hp => rw [hp] at hprobe; exact hprobe
  next s₂ hp =>
  rw [hp] at hprobe
  rw [clockAck]
  split
  · exact sendInv_packet_empty env hprobe _
  · exact hprobe

/-- A new size of the send buffer keeps the invariant: the buffered bytes are copied, or the size is
refused. -/
theorem sendInv_resizeSendBuffer (h : s.sendCore.Inv) (newSize : UInt32) :
    (s.resizeSendBuffer env newSize).sendCore.Inv := by
  obtain ⟨⟨acked, pending, hs⟩, hpk⟩ := h
  refine ⟨⟨acked, pending, FifoBuffer.wellFormed_setCapacity hs.sbuf _ _, ?_, hs.queued, hs.una,
    ?_, hs.covers, hs.order, hs.next⟩, hpk⟩
  · refine (FifoBuffer.setCapacity_bufferLength_le _ _ _).trans_lt (max_lt hs.cap ?_)
    exact UInt32.toNat_lt _
  · exact (FifoBuffer.contents_setCapacity hs.sbuf _ _).trans hs.contents

theorem sendInv_setOption (h : s.sendCore.Inv) (opt : TcpOption) (value : Int32) :
    (s.setOption env opt value).sendCore.Inv := by
  cases opt with
  | nodelay => exact h
  | ackdelay => exact h
  | sndbuf => exact sendInv_resizeSendBuffer env h _
  | rcvbuf => exact h

theorem sendInv_openWindow (h : s.sendCore.Inv) : (s.openWindow env).sendCore.Inv := by
  simp only [openWindow]
  split
  · have hopen : { s with rcvWnd := UInt32.ofNat s.rbuf.getWriteRemaining }.sendCore.Inv := h
    split
    · exact sendInv_attemptSend env hopen _
    · exact hopen
  · exact h

theorem sendInv_recv (h : s.sendCore.Inv) (len : ℕ) : (s.recv env len).2.sendCore.Inv := by
  simp only [recv]
  split
  · exact h
  split
  · exact h
  · next rbuf _ _ => exact sendInv_openWindow env (s := { s with rbuf := rbuf }) h

theorem sendInv_send (h : s.sendCore.Inv) (buffer : List UInt8) : (s.send env buffer).2.sendCore.Inv := by
  rw [send]
  split
  · exact h
  split
  · exact h
  · have hlen : (UInt32.ofNat buffer.length).toNat ≤ buffer.length := by
      exact Nat.mod_le _ _
    have hqueue := (sendInv_queue h buffer (UInt32.ofNat buffer.length) false hlen).1
    exact sendInv_attemptSend env hqueue _

end PseudoTcp

end Synciga
