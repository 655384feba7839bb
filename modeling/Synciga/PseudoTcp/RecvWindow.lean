import Synciga.PseudoTcp.Wraparound

/-!
# The receive window

`m_rcv_wnd` is the part of the free space of the receive buffer that the peer was told of. It is counted down as
data is committed, and set to the free space again by `Recv`, not each time. `process` trims a segment to the
free space and not to `m_rcv_wnd`, with plain comparisons, and lets control bytes pass `m_rcv_nxt` over saved
ranges. Against a peer that keeps to the window none of this matters.

## Main results

* `window_of_run` — against such a peer
* `chains_processCalls` — the calls of the ring are those of `process`
-/

namespace Synciga

/-! ### The invariant -/

/-- The fields that decide what is taken in. -/
structure RecvSide where
  shutdown : Shutdown
  rlist : List RSegment
  rcvNxt : UInt32
  rcvWnd : UInt32
  rbuf : FifoBuffer

/-- The receiving side of a connection, with its window. -/
def PseudoTcp.recvSide (s : PseudoTcp) : RecvSide :=
  ⟨s.shutdown, s.rlist, s.rcvNxt, s.rcvWnd, s.rbuf⟩

namespace RecvSide

/-- The free space of the receive buffer. -/
def free (x : RecvSide) : ℕ := x.rbuf.getWriteRemaining

/-- The window is free, and the saved ranges end in it. Sequence numbers are compared as plain
numbers here. -/
structure Roomy (x : RecvSide) : Prop where
  /-- The ring is well formed. -/
  rbuf : x.rbuf.WellFormed
  /-- Its length is a 32-bit number. -/
  cap : x.rbuf.bufferLength < 2 ^ 32
  /-- What the peer may send is free. -/
  window : x.rcvWnd.toNat ≤ x.free
  /-- The saved ranges are sorted. -/
  sorted : x.rlist.Pairwise fun a b => a.seq ≤ b.seq
  /-- They end in the window. -/
  inside : ∀ r ∈ x.rlist, r.seq.toNat + r.len.toNat ≤ x.rcvNxt.toNat + x.rcvWnd.toNat

/-- Moreover, the saved ranges start behind the next byte. -/
structure Windowed (x : RecvSide) : Prop extends x.Roomy where
  /-- The saved ranges start behind the next byte. -/
  ahead : ∀ r ∈ x.rlist, x.rcvNxt.toNat < r.seq.toNat

variable {x : RecvSide}

theorem Windowed.of_nil (hwf : x.rbuf.WellFormed) (hcap : x.rbuf.bufferLength < 2 ^ 32)
    (hwnd : x.rcvWnd.toNat ≤ x.free) (hnil : x.rlist = []) : x.Windowed := by
  refine ⟨⟨hwf, hcap, hwnd, ?_, ?_⟩, ?_⟩
  · rw [hnil]
    exact List.Pairwise.nil
  · intro r hr
    rw [hnil] at hr
    cases hr
  · intro r hr
    rw [hnil] at hr
    cases hr

theorem Roomy.tail {r : RSegment} {l : List RSegment} (h : { x with rlist := r :: l }.Roomy) :
    { x with rlist := l }.Roomy :=
  ⟨h.rbuf, h.cap, h.window, (List.pairwise_cons.mp h.sorted).2,
    fun b hb => h.inside b (List.mem_cons_of_mem r hb)⟩

theorem Roomy.commit (h : x.Roomy) {n : UInt32} (hn : n.toNat ≤ x.rcvWnd.toNat)
    (hlt : x.rlist ≠ [] → x.rcvNxt.toNat + n.toNat < 2 ^ 32) :
    { x with
      rbuf := x.rbuf.consumeWriteBuffer n.toNat
      rcvNxt := x.rcvNxt + n
      rcvWnd := x.rcvWnd - n : RecvSide }.Roomy := by
  have hwnd : (x.rcvWnd - n).toNat = x.rcvWnd.toNat - n.toNat :=
    UInt32.toNat_sub_of_le _ _ (UInt32.le_iff_toNat_le.mpr hn)
  have hfree : x.free = x.rbuf.bufferLength - x.rbuf.dataLength := rfl
  have hle := h.window
  refine ⟨FifoBuffer.wellFormed_consumeWriteBuffer h.rbuf ?_, ?_, ?_, h.sorted, ?_⟩
  · have hdata := h.rbuf.data_le
    omega
  · change (x.rbuf.consumeWriteBuffer n.toNat).bufferLength < 2 ^ 32
    rw [FifoBuffer.consumeWriteBuffer_bufferLength]
    exact h.cap
  · change (x.rcvWnd - n).toNat ≤ (x.rbuf.consumeWriteBuffer n.toNat).bufferLength -
      (x.rbuf.consumeWriteBuffer n.toNat).dataLength
    rw [FifoBuffer.consumeWriteBuffer_bufferLength, FifoBuffer.consumeWriteBuffer_dataLength, hwnd]
    omega
  intro r hr
  have hin := h.inside r hr
  have hadd : (x.rcvNxt + n).toNat = x.rcvNxt.toNat + n.toNat := by
    rw [UInt32.toNat_add, Nat.mod_eq_of_lt (hlt (List.ne_nil_of_mem hr))]
  change _ ≤ (x.rcvNxt + n).toNat + (x.rcvWnd - n).toNat
  omega

theorem Windowed.place (h : x.Windowed) (data : List UInt8) (offset : ℕ) :
    { x with rbuf := (x.rbuf.writeOffset data offset).2.2 }.Windowed := by
  refine ⟨⟨FifoBuffer.wellFormed_writeOffset h.rbuf _ _, ?_, ?_, h.sorted, h.inside⟩, h.ahead⟩
  · change (x.rbuf.writeOffset data offset).2.2.bufferLength < 2 ^ 32
    rw [FifoBuffer.writeOffset_bufferLength]
    exact h.cap
  · change x.rcvWnd.toNat ≤ (x.rbuf.writeOffset data offset).2.2.bufferLength -
      (x.rbuf.writeOffset data offset).2.2.dataLength
    rw [FifoBuffer.writeOffset_bufferLength, FifoBuffer.writeOffset_dataLength]
    exact h.window

end RecvSide

/-! ### The calls on the receive buffer -/

/-- A call `process` makes on the receive buffer, with the buffer at that moment. -/
inductive RingCall
  | writeOffset (rbuf : FifoBuffer) (data : List UInt8) (offset : ℕ)
  | consumeWriteBuffer (rbuf : FifoBuffer) (size : ℕ)

/-- The buffer before the call. -/
def RingCall.buffer : RingCall → FifoBuffer
  | writeOffset rbuf _ _ => rbuf
  | consumeWriteBuffer rbuf _ => rbuf

/-- The buffer after the call. -/
def RingCall.result : RingCall → FifoBuffer
  | writeOffset rbuf data offset => (rbuf.writeOffset data offset).2.2
  | consumeWriteBuffer rbuf size => rbuf.consumeWriteBuffer size

/-- `WriteOffset` succeeds; `ConsumeWriteBuffer` commits free space. -/
def RingCall.Ok : RingCall → Prop
  | writeOffset rbuf data offset => (rbuf.writeOffset data offset).1 = .success
  | consumeWriteBuffer rbuf size => size ≤ rbuf.getWriteRemaining

namespace PseudoTcp

variable (env : Env) {s s' : PseudoTcp}

/-- Commit the next `n` bytes of the receive buffer. -/
def commitBytes (s : PseudoTcp) (n : UInt32) : PseudoTcp :=
  { s with
    rbuf := s.rbuf.consumeWriteBuffer n.toNat
    rcvNxt := s.rcvNxt + n
    rcvWnd := s.rcvWnd - n }

theorem recoverSaved_cons (r : RSegment) (rlist : List RSegment) (s : PseudoTcp) :
    (recoverSaved (r :: rlist) s).2 =
      if r.seq ≤ s.rcvNxt then
        if s.rcvNxt < r.seq + r.len then
          (recoverSaved rlist (s.commitBytes (r.seq + r.len - s.rcvNxt))).2
        else (recoverSaved rlist s).2
      else { s with rlist := r :: rlist } := by
  rw [recoverSaved]
  split
  · split <;> rfl
  · rfl

/-- The calls of `recoverSaved`. -/
def recoverCalls : List RSegment → PseudoTcp → List RingCall
  | [], _ => []
  | r :: rlist, s =>
    if r.seq ≤ s.rcvNxt then
      if s.rcvNxt < r.seq + r.len then
        let nAdjust := r.seq + r.len - s.rcvNxt
        .consumeWriteBuffer s.rbuf nAdjust.toNat :: recoverCalls rlist (s.commitBytes nAdjust)
      else recoverCalls rlist s
    else []

/-- The segment placed in the free space. -/
def placeData (s : PseudoTcp) (seg : Segment) : PseudoTcp :=
  { s with rbuf := (s.rbuf.writeOffset seg.data (seg.seq - s.rcvNxt).toNat).2.2 }

/-- The calls of `receiveData`. -/
def receiveCalls (s : PseudoTcp) (seg : Segment) : List RingCall :=
  if seg.len = 0 then []
  else if seg.flags &&& FLAG_CTL ≠ 0 ∨ s.shutdown ≠ .none then []
  else
    .writeOffset s.rbuf seg.data (seg.seq - s.rcvNxt).toNat ::
      if seg.seq = s.rcvNxt then
        .consumeWriteBuffer (s.placeData seg).rbuf seg.len.toNat ::
          recoverCalls s.rlist ((s.placeData seg).commitBytes seg.len)
      else []

/-- The calls of `process`, which are those of its data part. -/
def processCalls (s : PseudoTcp) (seg : Segment) : List RingCall :=
  match s.beforeData env seg with
  | none => []
  | some t => t.receiveCalls (t.trim seg)

theorem receiveData_snd (s : PseudoTcp) (seg : Segment) (sflags : SendFlags) :
    (s.receiveData seg sflags).2.2 =
      if seg.len = 0 then s
      else if seg.flags &&& FLAG_CTL ≠ 0 ∨ s.shutdown ≠ .none then
        if seg.seq = s.rcvNxt then { s with rcvNxt := s.rcvNxt + seg.len } else s
      else if seg.seq = s.rcvNxt then
        (recoverSaved s.rlist ((s.placeData seg).commitBytes seg.len)).2
      else { s.placeData seg with rlist := insertSaved ⟨seg.seq, seg.len⟩ s.rlist } := by
  rw [receiveData]
  split
  · rfl
  split
  · split <;> rfl
  simp only [placeData]
  split <;> rfl

/-- The calls follow each other from one buffer to the next. -/
def Chains : FifoBuffer → List RingCall → FifoBuffer → Prop
  | f, [], f' => f' = f
  | f, call :: calls, f' => call.buffer = f ∧ Chains call.result calls f'

theorem chains_recoverCalls (rlist : List RSegment) (s : PseudoTcp) :
    Chains s.rbuf (recoverCalls rlist s) (recoverSaved rlist s).2.rbuf := by
  induction rlist generalizing s with
  | nil => rfl
  | cons r rlist ih =>
    rw [recoverCalls, recoverSaved_cons]
    split
    · split
      · exact ⟨rfl, ih (s.commitBytes _)⟩
      · exact ih s
    · rfl

theorem chains_receiveCalls (s : PseudoTcp) (seg : Segment) (sflags : SendFlags) :
    Chains s.rbuf (s.receiveCalls seg) (s.receiveData seg sflags).2.2.rbuf := by
  rw [receiveCalls, receiveData_snd]
  split
  · rfl
  split
  · split <;> rfl
  refine ⟨rfl, ?_⟩
  split
  · exact ⟨rfl, chains_recoverCalls s.rlist ((s.placeData seg).commitBytes seg.len)⟩
  · rfl

/-! ### Storing a segment -/

theorem windowed_recoverSaved (rlist : List RSegment) (h : { s.recvSide with rlist := rlist }.Roomy) :
    (recoverSaved rlist s).2.recvSide.Windowed ∧ ∀ c ∈ recoverCalls rlist s, c.Ok := by
  induction rlist generalizing s with
  | nil =>
    refine ⟨.of_nil h.rbuf h.cap h.window rfl, ?_⟩
    intro c hc
    cases hc
  | cons r rlist ih =>
    rw [recoverSaved_cons, recoverCalls]
    have hin : r.seq.toNat + r.len.toNat ≤ s.rcvNxt.toNat + s.rcvWnd.toNat :=
      h.inside r List.mem_cons_self
    split
    · next hle =>
      split
      · next hlt =>
        -- The end of the range is ahead of a number that its start is not, so it has not wrapped.
        have hle' := UInt32.le_iff_toNat_le.mp hle
        have hlt' := UInt32.lt_iff_toNat_lt.mp hlt
        have hlen := r.len.toNat_lt
        have hsum : (r.seq + r.len).toNat = r.seq.toNat + r.len.toNat := by
          rw [UInt32.toNat_add] at hlt' ⊢
          omega
        have hn : (r.seq + r.len - s.rcvNxt).toNat = r.seq.toNat + r.len.toNat - s.rcvNxt.toNat := by
          rw [UInt32.toNat_sub_of_le _ _ (UInt32.le_of_lt hlt), hsum]
        have hlast := (r.seq + r.len).toNat_lt
        have hcommit := h.tail.commit (n := r.seq + r.len - s.rcvNxt)
          (show _ ≤ s.rcvWnd.toNat by omega)
          fun _ => show s.rcvNxt.toNat + _ < 2 ^ 32 by omega
        obtain ⟨hend, hcalls⟩ := ih (s := s.commitBytes (r.seq + r.len - s.rcvNxt)) hcommit
        refine ⟨hend, ?_⟩
        intro c hc
        rcases List.mem_cons.mp hc with rfl | hmem
        · have hwnd : s.rcvWnd.toNat ≤ s.rbuf.getWriteRemaining := h.window
          change (r.seq + r.len - s.rcvNxt).toNat ≤ s.rbuf.getWriteRemaining
          omega
        · exact hcalls c hmem
      · exact ih h.tail
    · next hgt =>
      have hgt' := UInt32.lt_iff_toNat_lt.mp (UInt32.not_le.mp hgt)
      refine ⟨⟨h, ?_⟩, ?_⟩
      · intro b hb
        rcases List.mem_cons.mp hb with rfl | hmem
        · exact hgt'
        · have hsorted := (List.pairwise_cons.mp h.sorted).1 b hmem
          exact hgt'.trans_le (UInt32.le_iff_toNat_le.mp hsorted)
      · intro c hc
        cases hc

theorem length_trimFront_le (s : PseudoTcp) (seg : Segment) :
    (s.trimFront seg).data.length ≤ seg.data.length := by
  simp only [trimFront]
  split_ifs
  · rw [List.length_drop]
    exact Nat.sub_le _ _
  · exact Nat.zero_le _
  · exact le_rfl

theorem length_trim_le (s : PseudoTcp) (seg : Segment) : (s.trim seg).data.length ≤ seg.data.length := by
  refine le_trans ?_ (length_trimFront_le s seg)
  simp only [trim, trimBack]
  split_ifs
  · exact List.length_take_le' _ _
  · exact Nat.zero_le _
  · exact le_rfl

variable {seg : Segment}

theorem trimFront_spec (hlen : seg.data.length < 2 ^ 32) (hne : (s.trimFront seg).data ≠ []) :
    (s.trimFront seg).seq.toNat = max seg.seq.toNat s.rcvNxt.toNat ∧
      (s.trimFront seg).seq.toNat + (s.trimFront seg).data.length = seg.seq.toNat + seg.data.length := by
  rw [trimFront] at hne ⊢
  split at hne
  · next hlt =>
    rw [if_pos hlt]
    simp only at hne ⊢
    split at hne
    · next hfit =>
      rw [if_pos hfit]
      have hsub := UInt32.toNat_sub_of_le _ _ (UInt32.le_of_lt hlt)
      rw [UInt32.lt_iff_toNat_lt] at hlt hfit
      rw [hsub, len_toNat hlen] at hfit
      have hseq : seg.seq + (s.rcvNxt - seg.seq) = s.rcvNxt := by grind
      simp only [hseq, List.length_drop, hsub]
      omega
    · exact absurd rfl hne
  · next hge =>
    rw [if_neg hge]
    rw [UInt32.lt_iff_toNat_lt] at hge
    omega

theorem length_trimBack (hcap : s.rbuf.bufferLength < 2 ^ 32)
    (hlen : seg.data.length < 2 ^ 32) (hseq : s.rcvNxt.toNat ≤ seg.seq.toNat)
    (hwrap : seg.seq.toNat + seg.data.length < s.rcvNxt.toNat + 2 ^ 32) :
    (s.trimBack seg).data.length =
      min seg.data.length (s.rbuf.getWriteRemaining - (seg.seq.toNat - s.rcvNxt.toNat)) := by
  have hspace := space_toNat hcap
  have hdist : (seg.seq + seg.len - s.rcvNxt).toNat = seg.seq.toNat + seg.data.length - s.rcvNxt.toNat := by
    have hnext := s.rcvNxt.toNat_lt
    rw [UInt32.toNat_sub, UInt32.toNat_add, len_toNat hlen]
    omega
  simp only [trimBack]
  split
  · next hlt =>
    have hadj := UInt32.toNat_sub_of_le _ _ (UInt32.le_of_lt hlt)
    split
    · next hfit =>
      have hkeep := UInt32.toNat_sub_of_le _ _ (UInt32.le_of_lt hfit)
      rw [hadj, len_toNat hlen] at hkeep
      rw [List.length_take, hkeep]
      omega
    · next hfit =>
      rw [UInt32.lt_iff_toNat_lt, hadj, len_toNat hlen] at hfit
      rw [List.length_nil]
      omega
  · next hge =>
    rw [UInt32.lt_iff_toNat_lt, hspace, hdist] at hge
    omega

/-- The end of the part of a segment that fits the free space. -/
def fitEnd (s : PseudoTcp) (seg : Segment) : ℕ :=
  min (seg.seq.toNat + seg.data.length) (s.rcvNxt.toNat + s.rbuf.getWriteRemaining)

theorem trim_spec (hcap : s.rbuf.bufferLength < 2 ^ 32) (hlen : seg.data.length < 2 ^ 32)
    (hwrap : seg.seq.toNat + seg.data.length < s.rcvNxt.toNat + 2 ^ 32)
    (hne : (s.trim seg).data ≠ []) :
    (s.trim seg).seq.toNat = max seg.seq.toNat s.rcvNxt.toNat ∧
      (s.trim seg).seq.toNat + (s.trim seg).data.length = s.fitEnd seg := by
  rw [trim] at hne ⊢
  have hfrontLen : (s.trimFront seg).data.length < 2 ^ 32 :=
    (length_trimFront_le s seg).trans_lt hlen
  obtain ⟨hseq, hend⟩ := trimFront_spec hlen ((trimBack_ne_nil_iff hcap hfrontLen).mp hne).1
  have hback := length_trimBack hcap hfrontLen (by omega) (by omega)
  have hpos := List.length_pos_iff.mpr hne
  rw [trimBack_seq, fitEnd]
  omega

theorem trim_seq_of_lt (h : s.rcvNxt.toNat < seg.seq.toNat) : (s.trim seg).seq = seg.seq := by
  have hge : ¬ seg.seq < s.rcvNxt := by
    rw [UInt32.lt_iff_toNat_lt]
    omega
  rw [trim, trimBack_seq, trimFront, if_neg hge]

/-- The segment brings no data that is stored: it is a control segment, or the connection is shut
down. -/
def Ignores (s : PseudoTcp) (seg : Segment) : Prop :=
  seg.flags &&& FLAG_CTL ≠ 0 ∨ s.shutdown ≠ .none

/-- The segment may pass. One that is not stored ends before the saved ranges, unless it starts behind
`m_rcv_nxt`. One that is stored does not reach around the sequence numbers, what fits of it is in the window,
and with saved ranges it does not carry `m_rcv_nxt` over zero. -/
def Admits (s : PseudoTcp) (seg : Segment) : Prop :=
  (s.Ignores seg → seg.seq ≤ s.rcvNxt →
    ∀ r ∈ s.rlist, seg.seq.toNat + seg.data.length < r.seq.toNat) ∧
  (¬ s.Ignores seg → seg.data ≠ [] → seg.seq.toNat + seg.data.length < s.rcvNxt.toNat + 2 ^ 32 ∧
      (seg.seq.toNat < s.rcvNxt.toNat + s.rbuf.getWriteRemaining →
        s.fitEnd seg ≤ s.rcvNxt.toNat + s.rcvWnd.toNat) ∧
      (seg.seq ≤ s.rcvNxt → s.rlist ≠ [] → s.fitEnd seg < 2 ^ 32))

theorem sorted_insertSaved {rseg : RSegment} {rlist : List RSegment}
    (h : rlist.Pairwise fun a b => a.seq ≤ b.seq) :
    (insertSaved rseg rlist).Pairwise fun a b => a.seq ≤ b.seq := by
  induction rlist with
  | nil => exact List.pairwise_singleton _ _
  | cons r rlist ih =>
    obtain ⟨hr, hrest⟩ := List.pairwise_cons.mp h
    rw [insertSaved]
    split
    · next hlt =>
      refine List.pairwise_cons.mpr ⟨?_, ih hrest⟩
      intro b hb
      rcases mem_insertSaved hb with rfl | hmem
      · exact UInt32.le_of_lt hlt
      · exact hr b hmem
    next hge =>
    refine List.pairwise_cons.mpr ⟨?_, h⟩
    intro b hb
    rcases List.mem_cons.mp hb with rfl | hmem
    · exact UInt32.not_lt.mp hge
    · exact UInt32.le_trans (UInt32.not_lt.mp hge) (hr b hmem)

theorem windowed_ignored (h : s.recvSide.Windowed) {n : UInt32}
    (hn : ∀ r ∈ s.rlist, s.rcvNxt.toNat + n.toNat < r.seq.toNat) :
    { s with rcvNxt := s.rcvNxt + n }.recvSide.Windowed := by
  by_cases hnil : s.rlist = []
  · exact .of_nil h.rbuf h.cap h.window hnil
  obtain ⟨r₀, hr₀⟩ := List.exists_mem_of_ne_nil s.rlist hnil
  have hadd : (s.rcvNxt + n).toNat = s.rcvNxt.toNat + n.toNat := by
    have hlt := hn r₀ hr₀
    have hlast := r₀.seq.toNat_lt
    rw [UInt32.toNat_add, Nat.mod_eq_of_lt (by omega)]
  refine ⟨⟨h.rbuf, h.cap, h.window, h.sorted, ?_⟩, ?_⟩
  · intro r hr
    have hin : r.seq.toNat + r.len.toNat ≤ s.rcvNxt.toNat + s.rcvWnd.toNat := h.inside r hr
    change _ ≤ (s.rcvNxt + n).toNat + s.rcvWnd.toNat
    omega
  · intro r hr
    change (s.rcvNxt + n).toNat < _
    rw [hadd]
    exact hn r hr

theorem windowed_stored (h : s.recvSide.Windowed) (hpos : 0 < seg.data.length)
    (hlen : seg.data.length < 2 ^ 32) (hseq : s.rcvNxt.toNat ≤ seg.seq.toNat)
    (hin : seg.seq.toNat + seg.data.length ≤ s.rcvNxt.toNat + s.rcvWnd.toNat)
    (hlast : seg.seq = s.rcvNxt → s.rlist ≠ [] → seg.seq.toNat + seg.data.length < 2 ^ 32) :
    RecvSide.Windowed (PseudoTcp.recvSide (if seg.seq = s.rcvNxt then
        (recoverSaved s.rlist ((s.placeData seg).commitBytes seg.len)).2
      else { s.placeData seg with rlist := insertSaved ⟨seg.seq, seg.len⟩ s.rlist })) ∧
    ∀ c ∈ RingCall.writeOffset s.rbuf seg.data (seg.seq - s.rcvNxt).toNat ::
      (if seg.seq = s.rcvNxt then
        .consumeWriteBuffer (s.placeData seg).rbuf seg.len.toNat ::
          recoverCalls s.rlist ((s.placeData seg).commitBytes seg.len)
      else []), c.Ok := by
  have hL := len_toNat hlen
  have hwnd : s.rcvWnd.toNat ≤ s.rbuf.getWriteRemaining := h.window
  have hplaced : (s.placeData seg).recvSide.Windowed := h.place _ _
  have hfirst : (RingCall.writeOffset s.rbuf seg.data (seg.seq - s.rcvNxt).toNat).Ok := by
    refine (writeOffset_success_iff h.rbuf _ _).mpr ?_
    rw [UInt32.toNat_sub_of_le _ _ (UInt32.le_iff_toNat_le.mpr hseq)]
    change _ < s.rbuf.getWriteRemaining
    omega
  split
  · next heq =>
    rw [heq] at hin hlast
    have hroom : seg.len.toNat ≤ s.rcvWnd.toNat := by
      rw [hL]
      omega
    have hcommit := hplaced.toRoomy.commit hroom fun hsaved => by
      rw [hL]
      exact hlast rfl hsaved
    obtain ⟨hend, hcalls⟩ :=
      windowed_recoverSaved (s := (s.placeData seg).commitBytes seg.len) s.rlist hcommit
    refine ⟨hend, ?_⟩
    intro c hc
    rcases List.mem_cons.mp hc with rfl | hmem
    · exact hfirst
    rcases List.mem_cons.mp hmem with rfl | hmem
    · exact hroom.trans hplaced.window
    · exact hcalls c hmem
  · next hne =>
    refine ⟨⟨⟨hplaced.rbuf, hplaced.cap, hplaced.window, sorted_insertSaved h.sorted, ?_⟩, ?_⟩, ?_⟩
    · intro r hr
      rcases mem_insertSaved hr with rfl | hmem
      · rw [hL]
        exact hin
      · exact h.inside r hmem
    · intro r hr
      rcases mem_insertSaved hr with rfl | hmem
      · exact Nat.lt_of_le_of_ne hseq fun hsame => hne (UInt32.toNat_inj.mp hsame.symm)
      · exact h.ahead r hmem
    · intro c hc
      rw [List.mem_singleton.mp hc]
      exact hfirst

/-- The data part of `process` keeps the invariant on a segment that may pass, and its calls on the
receive buffer succeed. -/
theorem windowed_receiveData (h : s.recvSide.Windowed)
    (hlen : seg.data.length < 2 ^ 32) (hok : s.Admits seg) (sflags : SendFlags) :
    (s.receiveData (s.trim seg) sflags).2.2.recvSide.Windowed ∧
      ∀ c ∈ s.receiveCalls (s.trim seg), c.Ok := by
  have hcap : s.rbuf.bufferLength < 2 ^ 32 := h.cap
  have hL := len_toNat ((length_trim_le s seg).trans_lt hlen)
  rw [receiveData_snd, receiveCalls]
  have hnone : ∀ c ∈ ([] : List RingCall), c.Ok := by
    intro c hc
    cases hc
  split
  · exact ⟨h, hnone⟩
  next hlen0 =>
  have hpos : 0 < (s.trim seg).data.length := by
    rw [← hL]
    exact Nat.pos_of_ne_zero fun hz => hlen0 (UInt32.toNat_inj.mp hz)
  have hne : (s.trim seg).data ≠ [] := List.length_pos_iff.mp hpos
  rw [trim_flags]
  split
  · next hignored =>
    refine ⟨?_, hnone⟩
    split
    · next heq =>
      -- What starts at `m_rcv_nxt` after trimming did not start behind it before.
      have hle : seg.seq.toNat ≤ s.rcvNxt.toNat := by
        by_contra hlt
        rw [trim_seq_of_lt (Nat.not_le.mp hlt)] at heq
        rw [heq] at hlt
        exact hlt le_rfl
      obtain ⟨-, hend⟩ := trim_spec hcap hlen (by omega) hne
      refine windowed_ignored h ?_
      intro r hr
      have hlast := hok.1 hignored (UInt32.le_iff_toNat_le.mpr hle) r hr
      rw [heq, fitEnd] at hend
      omega
    · exact h
  · next hstored =>
    have hdata : seg.data ≠ [] := by
      intro hnil
      have hle := length_trim_le s seg
      rw [hnil, List.length_nil] at hle
      omega
    obtain ⟨hwrap, hwindow, hzero⟩ := hok.2 hstored hdata
    obtain ⟨hseq, hend⟩ := trim_spec hcap hlen hwrap hne
    have hfit : s.fitEnd seg ≤ s.rcvNxt.toNat + s.rbuf.getWriteRemaining := Nat.min_le_right _ _
    refine windowed_stored h hpos ((length_trim_le s seg).trans_lt hlen) (by omega) ?_ ?_
    · rw [hend]
      exact hwindow (by omega)
    · intro heq hsaved
      rw [heq] at hseq
      rw [hend]
      exact hzero (UInt32.le_iff_toNat_le.mpr (by omega)) hsaved

/-! ### Steps that leave the receiving side alone -/

theorem recvSide_of_kept (h : s'.kept = s.kept) : s'.recvSide = s.recvSide :=
  congrArg (fun c => (⟨c.shutdown, c.rlist, c.rcvNxt, c.rcvWnd, c.rbuf⟩ : RecvSide)) h

theorem recvSide_of_sending (h : Sending s s') : s'.recvSide = s.recvSide :=
  recvSide_of_kept (kept_of_sending h)

theorem recvSide_processAck (s : PseudoTcp) (now : UInt32) (seg : Segment) :
    (s.processAck env now seg).2.recvSide = s.recvSide :=
  recvSide_of_kept (tends_processAck env s now seg).kept

theorem recvSide_updateTimestamp (s : PseudoTcp) (seg : Segment) :
    (s.updateTimestamp seg).recvSide = s.recvSide :=
  recvSide_of_kept (tends_updateTimestamp s seg).kept

theorem recvSide_enterEstablished (s : PseudoTcp) (bConnect : Bool) :
    (s.enterEstablished bConnect).recvSide = s.recvSide :=
  recvSide_of_kept (kept_enterEstablished s bConnect)

theorem recvSide_notifyWriteable (s : PseudoTcp) : s.notifyWriteable.recvSide = s.recvSide :=
  recvSide_of_kept (kept_notifyWriteable s)

theorem recvSide_notifyReadable (s : PseudoTcp) (bNewData : Bool) :
    (s.notifyReadable bNewData).recvSide = s.recvSide :=
  recvSide_of_kept (kept_notifyReadable s bNewData)

theorem recvSide_notifyMTU (s : PseudoTcp) (mtu : UInt16) : (s.notifyMTU mtu).recvSide = s.recvSide :=
  recvSide_of_kept (tends_notifyMTU s mtu).kept

theorem recvSide_notifyClock (s : PseudoTcp) (now : UInt32) :
    (s.notifyClock env now).recvSide = s.recvSide :=
  recvSide_of_kept (ticks_notifyClock env s now).kept

/-! ### Another size of the receive buffer -/

/-- The size that `resizeReceiveBuffer` gives the buffer. -/
def receiveBufferSize (newSize : UInt32) : UInt32 :=
  (scaleDown 16 newSize 0).1 <<< (scaleDown 16 newSize 0).2.toUInt32

theorem recvSide_resizeReceiveBuffer (s : PseudoTcp) (newSize : UInt32) :
    (s.resizeReceiveBuffer env newSize).recvSide = { s.recvSide with
        rbuf := (s.rbuf.setCapacity (env.heap s.allocs) (receiveBufferSize newSize).toNat).2
        rcvWnd := UInt32.ofNat (s.rbuf.setCapacity (env.heap s.allocs)
          (receiveBufferSize newSize).toNat).2.getWriteRemaining } :=
  rfl

/-- The saved ranges fit the free space of a buffer of the given size, unless the buffered bytes
themselves do not. -/
def SavedFit (s : PseudoTcp) (size : ℕ) : Prop :=
  s.rbuf.dataLength ≤ size →
    ∀ r ∈ s.rlist, r.seq.toNat + r.len.toNat ≤ s.rcvNxt.toNat + (size - s.rbuf.dataLength)

theorem windowed_resizeReceiveBuffer (h : s.recvSide.Windowed) {newSize : UInt32}
    (hfit : s.SavedFit (receiveBufferSize newSize).toNat) :
    (s.resizeReceiveBuffer env newSize).recvSide.Windowed := by
  rw [recvSide_resizeReceiveBuffer]
  have hwf := FifoBuffer.wellFormed_setCapacity h.rbuf (env.heap s.allocs)
    (receiveBufferSize newSize).toNat
  have hcap : (s.rbuf.setCapacity (env.heap s.allocs)
      (receiveBufferSize newSize).toNat).2.bufferLength < 2 ^ 32 :=
    (FifoBuffer.setCapacity_bufferLength_le _ _ _).trans_lt
      (max_lt h.cap (receiveBufferSize newSize).toNat_lt)
  have hfree : (UInt32.ofNat (s.rbuf.setCapacity (env.heap s.allocs)
      (receiveBufferSize newSize).toNat).2.getWriteRemaining).toNat =
      (s.rbuf.setCapacity (env.heap s.allocs)
        (receiveBufferSize newSize).toNat).2.getWriteRemaining := by
    have hle : (s.rbuf.setCapacity (env.heap s.allocs)
      (receiveBufferSize newSize).toNat).2.getWriteRemaining ≤ _ := Nat.sub_le _ _
    rw [UInt32.toNat_ofNat', Nat.mod_eq_of_lt (hle.trans_lt hcap)]
  refine ⟨⟨hwf, hcap, hfree.le, h.sorted, ?_⟩, h.ahead⟩
  intro r hr
  change _ ≤ s.rcvNxt.toNat + UInt32.toNat (UInt32.ofNat _)
  rw [hfree, FifoBuffer.getWriteRemaining, FifoBuffer.setCapacity_dataLength]
  have hin : r.seq.toNat + r.len.toNat ≤ s.rcvNxt.toNat + s.rcvWnd.toNat := h.inside r hr
  have hwnd : s.rcvWnd.toNat ≤ s.rbuf.bufferLength - s.rbuf.dataLength := h.window
  by_cases hsize : s.rbuf.dataLength ≤ (receiveBufferSize newSize).toNat
  · have hr' := hfit hsize r hr
    have hlen := FifoBuffer.setCapacity_bufferLength (env.heap s.allocs) hsize
    omega
  · rw [FifoBuffer.setCapacity, if_pos (Nat.not_le.mp hsize)]
    change _ ≤ _ + (s.rbuf.bufferLength - s.rbuf.dataLength)
    omega

/-- The connect message keeps the saved ranges inside the buffer. -/
def ControlFits (s : PseudoTcp) (seg : Segment) : Prop :=
  seg.flags &&& FLAG_CTL ≠ 0 → s.DropsScaling seg.data.tail → s.SavedFit DEFAULT_RCV_BUF_SIZE.toNat

theorem windowed_processControl (h : s.recvSide.Windowed) {bConnect : Bool}
    (hfit : s.ControlFits seg) (hc : s.processControl env seg = some (bConnect, s')) :
    s'.recvSide.Windowed ∧ (seg.flags &&& FLAG_CTL = 0 → s'.recvSide = s.recvSide) ∧
      s'.shutdown = s.shutdown ∧ s'.rlist = s.rlist ∧ s'.rcvNxt = s.rcvNxt := by
  obtain ⟨-, -, rfl⟩ | ⟨hctl, -, options, hdata, hcase⟩ := processControl_cases env hc
  · exact ⟨h, fun _ => rfl, rfl, rfl, rfl⟩
  have hparse : (s.parseOptions env options).recvSide.Windowed ∧
      (s.parseOptions env options).shutdown = s.shutdown ∧
      (s.parseOptions env options).rlist = s.rlist ∧
      (s.parseOptions env options).rcvNxt = s.rcvNxt := by
    obtain ⟨scale, hp⟩ | ⟨hdrop, scale, hp⟩ := parseOptions_cases env s options
    · rw [hp]
      exact ⟨h, rfl, rfl, rfl⟩
    rw [hp]
    rw [ControlFits, hdata] at hfit
    have hsize : receiveBufferSize DEFAULT_RCV_BUF_SIZE = DEFAULT_RCV_BUF_SIZE := by decide
    have hresized : ({ s with swndScale := scale }.resizeReceiveBuffer env
        DEFAULT_RCV_BUF_SIZE).recvSide.Windowed := by
      refine windowed_resizeReceiveBuffer env (s := { s with swndScale := scale }) h ?_
      exact hfit hctl hdrop
    exact ⟨hresized, rfl, rfl, rfl⟩
  obtain ⟨hwin, hkeep⟩ := hparse
  refine ⟨?_, fun hzero => absurd hzero hctl, ?_⟩
  · obtain ⟨-, rfl⟩ | ⟨-, rfl⟩ | ⟨-, -, rfl⟩ := hcase <;> exact hwin
  · obtain ⟨-, rfl⟩ | ⟨-, rfl⟩ | ⟨-, -, rfl⟩ := hcase <;> exact hkeep

/-! ### `process` and the interface -/

/-- The listed calls are what a successful `process` does to the receive buffer from its data part
on. -/
theorem chains_processCalls (h : s.process env seg = (true, s')) :
    ∃ t, s.beforeData env seg = some t ∧ Chains t.rbuf (s.processCalls env seg) s'.rbuf := by
  obtain ⟨t, ht, rfl⟩ := process_true env h
  refine ⟨t, ht, ?_⟩
  have hside : (t.processData env seg).recvSide =
      (t.receiveData (t.trim seg) (t.ackFlags seg)).2.2.recvSide := by
    simp only [processData]
    rw [recvSide_notifyReadable, recvSide_of_sending (sending_attemptSend env _ _)]
  rw [processCalls, ht, show (t.processData env seg).rbuf = _ from congrArg RecvSide.rbuf hside]
  exact chains_receiveCalls t (t.trim seg) (t.ackFlags seg)

/-- Three bytes come in before the handshake, and the ring takes them. -/
theorem chains_processCalls_early :
    let s := new quietEnv 7
    let seg : Segment := ⟨7, 0, 0, 0, 4096, [1, 2, 3], 0, 0⟩
    ∃ t, s.beforeData quietEnv seg = some t ∧
      Chains t.rbuf (s.processCalls quietEnv seg) (s.process quietEnv seg).2.rbuf := by
  intro s seg
  have htakes : (s.process quietEnv seg).1 = true := by decide +kernel
  exact chains_processCalls quietEnv (Prod.ext htakes rfl)

/-- The state in which the data part is entered has the invariant, and the segment may pass there
too. -/
theorem windowed_beforeData (h : s.recvSide.Windowed) (hok : s.Admits seg)
    (hfit : s.ControlFits seg) {bConnect : Bool} {s₁ s₂ : PseudoTcp}
    (hc : (s.arrive env).processControl env seg = some (bConnect, s₁))
    (hs₂ : ((s₁.updateTimestamp seg).processAck env (s.now env) seg).2 = s₂) :
    s₂.recvSide = s₁.recvSide ∧ s₁.recvSide.Windowed ∧
      (s₂.enterEstablished bConnect).notifyWriteable.recvSide.Windowed ∧
      (s₂.enterEstablished bConnect).notifyWriteable.Admits seg := by
  obtain ⟨hwin, hdata, hshut, hlist, hnext⟩ :=
    windowed_processControl env (s := s.arrive env) h hfit hc
  have hside₂ : s₂.recvSide = s₁.recvSide := by
    rw [← hs₂, recvSide_processAck, recvSide_updateTimestamp]
  have hside : (s₂.enterEstablished bConnect).notifyWriteable.recvSide = s₁.recvSide := by
    rw [recvSide_notifyWriteable, recvSide_enterEstablished, hside₂]
  generalize (s₂.enterEstablished bConnect).notifyWriteable = t at hside
  refine ⟨hside₂, hwin, hside ▸ hwin, ?_⟩
  have hfields := hside
  simp only [recvSide, RecvSide.mk.injEq] at hfields
  by_cases hctl : seg.flags &&& FLAG_CTL = 0
  · have hsame : t.recvSide = s.recvSide := hside.trans (hdata hctl)
    simp only [recvSide, RecvSide.mk.injEq] at hsame
    simp only [Admits, Ignores, fitEnd] at hok ⊢
    rw [hsame.1, hsame.2.1, hsame.2.2.1, hsame.2.2.2.1, hsame.2.2.2.2]
    exact hok
  · refine ⟨fun _ => ?_, fun hstored => absurd (.inl hctl) hstored⟩
    rw [hfields.2.1, hfields.2.2.1, hlist, hnext]
    exact hok.1 (.inl hctl)

theorem windowed_process (h : s.recvSide.Windowed) (hlen : seg.data.length < 2 ^ 32)
    (hok : s.Heeds seg → s.Admits seg ∧ s.ControlFits seg) :
    (s.process env seg).2.recvSide.Windowed := by
  obtain (hr | hr | hr) | ⟨hheeds, bConnect, s₁, s₂, hc, hs₂, hr⟩ := process_cases env s seg
  · rw [hr]
    exact h
  · rw [hr]
    exact h
  · rw [hr]
    exact h
  obtain ⟨hadmits, hfit⟩ := hok hheeds
  obtain ⟨hside, hwin, ht, hpass⟩ := windowed_beforeData env h hadmits hfit hc hs₂
  rcases hr with hr | hr
  · rw [hr, hside]
    exact hwin
  · rw [hr]
    simp only [processData]
    rw [recvSide_notifyReadable, recvSide_of_sending (sending_attemptSend env _ _)]
    exact (windowed_receiveData ht hlen hpass _).1

theorem processCalls_ok (h : s.recvSide.Windowed) (hlen : seg.data.length < 2 ^ 32)
    (hok : s.Heeds seg → s.Admits seg ∧ s.ControlFits seg) :
    ∀ c ∈ s.processCalls env seg, c.Ok := by
  intro c hmem
  rw [processCalls] at hmem
  split at hmem
  · cases hmem
  next t ht =>
  obtain ⟨hheeds, bConnect, s₁, s₂, hc, hr, rfl⟩ := beforeData_cases env ht
  obtain ⟨hadmits, hfit⟩ := hok hheeds
  have hs₂ : ((s₁.updateTimestamp seg).processAck env (s.now env) seg).2 = s₂ := by rw [hr]
  obtain ⟨-, -, hwin, hpass⟩ := windowed_beforeData env h hadmits hfit hc hs₂
  exact (windowed_receiveData hwin hlen hpass .none).2 c hmem

theorem windowed_openWindow (h : s.recvSide.Windowed) : (s.openWindow env).recvSide.Windowed := by
  have hcap : s.rbuf.bufferLength < 2 ^ 32 := h.cap
  have hopened : { s with
      rcvWnd := UInt32.ofNat s.rbuf.getWriteRemaining }.recvSide.Windowed := by
    refine ⟨⟨h.rbuf, h.cap, (space_toNat hcap).le, h.sorted, ?_⟩, h.ahead⟩
    intro r hr
    have hin : r.seq.toNat + r.len.toNat ≤ s.rcvNxt.toNat + s.rcvWnd.toNat := h.inside r hr
    have hwnd : s.rcvWnd.toNat ≤ s.rbuf.getWriteRemaining := h.window
    change _ ≤ s.rcvNxt.toNat + (UInt32.ofNat s.rbuf.getWriteRemaining).toNat
    rw [space_toNat hcap]
    omega
  simp only [openWindow]
  split
  · split
    · rw [recvSide_of_sending (sending_attemptSend env _ _)]
      exact hopened
    · exact hopened
  · exact h

theorem windowed_recv (h : s.recvSide.Windowed) (len : ℕ) : (s.recv env len).2.recvSide.Windowed := by
  have hwf : s.rbuf.WellFormed := h.rbuf
  rw [recv]
  split
  · exact h
  rcases Nat.eq_zero_or_pos s.rbuf.dataLength with hz | hpos
  · rw [FifoBuffer.read_of_empty hwf len hz]
    exact h
  rw [FifoBuffer.read_eq hwf len hpos]
  have hread : { s with
      rbuf := s.rbuf.consumeReadData (s.rbuf.contents.take len).length }.recvSide.Windowed := by
    have hwnd : s.rcvWnd.toNat ≤ s.rbuf.bufferLength - s.rbuf.dataLength := h.window
    refine ⟨⟨FifoBuffer.wellFormed_consumeReadData hwf _, ?_, ?_, h.sorted, h.inside⟩, h.ahead⟩
    · change (s.rbuf.consumeReadData _).bufferLength < 2 ^ 32
      rw [FifoBuffer.consumeReadData_bufferLength]
      exact h.cap
    · change s.rcvWnd.toNat ≤
        (s.rbuf.consumeReadData _).bufferLength - (s.rbuf.consumeReadData _).dataLength
      rw [FifoBuffer.consumeReadData_bufferLength, FifoBuffer.consumeReadData_dataLength]
      omega
  exact windowed_openWindow env hread

/-- The calls that keep to the window: a delivered segment that `process` heeds may pass, and a new
size of the receive buffer leaves room for the saved ranges. -/
def KeepsWindow (s : PseudoTcp) : Call → Prop
  | .notifyPacket buffer =>
    ∀ seg, Delivers buffer seg → s.Heeds seg → s.Admits seg ∧ s.ControlFits seg
  | .setOption .rcvbuf value => s.SavedFit (receiveBufferSize value.toUInt32).toNat
  | _ => True

theorem windowed_new (conv : UInt32) : (new env conv).recvSide.Windowed :=
  .of_nil (FifoBuffer.wellFormed_new _ _) (UInt32.toNat_lt _) le_rfl rfl

theorem windowed_call {c : Call} (h : s.recvSide.Windowed) (hok : s.KeepsWindow c)
    (hc : s.call env c = some s') : s'.recvSide.Windowed := by
  cases c with
  | connect =>
    cases hc
    rw [connect]
    split
    · exact h
    · rw [recvSide_of_sending (sending_attemptSend env _ _)]
      exact h
  | notifyMTU mtu =>
    cases hc
    rw [recvSide_notifyMTU]
    exact h
  | notifyClock now =>
    cases hc
    rw [recvSide_notifyClock]
    exact h
  | notifyPacket buffer =>
    obtain ⟨⟨ok, t⟩, ht, rfl⟩ := Option.map_eq_some_iff.mp hc
    obtain rfl | ⟨seg, hseg, rfl⟩ := notifyPacket_cases env ht
    · exact h
    · exact windowed_process env h (hseg.length_lt.trans (by decide)) (hok seg hseg)
  | setOption opt value =>
    cases hc
    cases opt with
    | rcvbuf => exact windowed_resizeReceiveBuffer env h hok
    | _ => exact h
  | recv len =>
    cases hc
    exact windowed_recv env h len
  | send buffer =>
    cases hc
    rw [send]
    split
    · exact h
    split
    · exact h
    · rw [recvSide_of_sending (sending_attemptSend env _ _)]
      exact h
  | close force =>
    cases hc
    exact ⟨⟨h.rbuf, h.cap, h.window, h.sorted, h.inside⟩, h.ahead⟩

/-- What the window promises: it is free, and each saved range starts behind `m_rcv_nxt` and ends
inside the free space, in the cyclic order of the sequence numbers. -/
def WindowSound (s : PseudoTcp) : Prop :=
  s.rcvWnd.toNat ≤ s.rbuf.getWriteRemaining ∧
    ∀ r ∈ s.rlist, 0 < (r.seq - s.rcvNxt).toNat ∧
      (r.seq - s.rcvNxt).toNat + r.len.toNat ≤ s.rbuf.getWriteRemaining

theorem windowSound_of_windowed (h : s.recvSide.Windowed) : s.WindowSound := by
  have hwnd : s.rcvWnd.toNat ≤ s.rbuf.getWriteRemaining := h.window
  refine ⟨hwnd, ?_⟩
  intro r hr
  have hlt : s.rcvNxt.toNat < r.seq.toNat := h.ahead r hr
  have hin : r.seq.toNat + r.len.toNat ≤ s.rcvNxt.toNat + s.rcvWnd.toNat := h.inside r hr
  rw [UInt32.toNat_sub_of_le _ _ (UInt32.le_iff_toNat_le.mpr hlt.le)]
  omega

/-- **The receive window.** In every run of calls that keep to the window, it is free and the saved ranges lie
inside the free space; and for whatever datagram that keeps to it next, the calls of `process` on the receive
buffer succeed. -/
theorem window_of_run (conv : UInt32) (calls : List Call)
    (hrun : Runs.run (call env) (new env conv) calls = some s)
    (hok : Runs.Admissible (call env) KeepsWindow (new env conv) calls) :
    s.WindowSound ∧ ∀ buffer seg, Delivers buffer seg → s.KeepsWindow (.notifyPacket buffer) →
      ∀ c ∈ s.processCalls env seg, c.Ok := by
  have hwin : s.recvSide.Windowed := Runs.invariant (P := fun s => s.recvSide.Windowed)
    (fun _ _ _ h hc hcall => windowed_call env h hc hcall) (windowed_new env conv) hok hrun
  refine ⟨windowSound_of_windowed hwin, ?_⟩
  intro buffer seg hseg hkeeps c hmem
  exact processCalls_ok env hwin (hseg.length_lt.trans (by decide)) (hkeeps seg hseg) c hmem

instance (s : PseudoTcp) (seg : Segment) : Decidable (s.Ignores seg) :=
  inferInstanceAs (Decidable (_ ∨ _))

instance (s : PseudoTcp) (seg : Segment) : Decidable (s.Admits seg) :=
  inferInstanceAs (Decidable (_ ∧ _))

/-- A datagram keeps to the window if the segment in it may pass and is a data segment, or nothing
is saved. -/
theorem keepsWindow_datagram {seq ack : UInt32} {flags : UInt8} {data : List UInt8}
    (hok : s.Admits ⟨7, seq, ack, flags, 1000, data, 1, 0⟩)
    (hfit : flags &&& FLAG_CTL = 0 ∨ s.rlist = []) :
    s.KeepsWindow (.notifyPacket (datagram seq ack flags data)) := by
  intro seg hseg _
  obtain rfl := Option.some.inj ((parseHeader_datagram _ _ _ _).symm.trans hseg.2)
  refine ⟨hok, ?_⟩
  intro hctl _ _ r hr
  rcases hfit with hdata | hnil
  · exact absurd hdata hctl
  · rw [hnil] at hr
    cases hr

/-- After the handshake, data arrives with a gap of two bytes in front of it. -/
def gapRun : List Call :=
  [.connect, .notifyPacket (datagram 0 4 FLAG_CTL [0, 3, 1, 0]),
    .notifyPacket (datagram 6 4 0 [1, 2])]

/-- The data is saved, and the bytes of the gap may come next. -/
theorem window_of_gapRun :
    ∃ s, Runs.run (call quietEnv) (new quietEnv 7) gapRun = some s ∧
      s.rlist = [⟨6, 2⟩] ∧ s.KeepsWindow (.notifyPacket (datagram 4 4 0 [3, 4])) ∧
      s.WindowSound ∧ ∀ buffer seg, Delivers buffer seg → s.KeepsWindow (.notifyPacket buffer) →
        ∀ c ∈ s.processCalls quietEnv seg, c.Ok := by
  refine ⟨_, rfl, by decide +kernel, ?_, window_of_run quietEnv 7 gapRun rfl ?_⟩
  · exact keepsWindow_datagram (by decide +kernel) (.inl rfl)
  · refine ⟨trivial, fun _ h₁ => ?_⟩
    cases h₁
    refine ⟨keepsWindow_datagram (by decide +kernel) (.inr (by decide +kernel)), fun _ h₂ => ?_⟩
    cases h₂
    exact ⟨keepsWindow_datagram (by decide +kernel) (.inl rfl), fun _ _ => trivial⟩

/-- A buffer of four bytes is filled and a byte of it is read, which is too little to open the
window again. Then another byte of data arrives. -/
def unannouncedRun : List Call :=
  [.setOption .rcvbuf 4, .connect, .notifyPacket (datagram 0 4 FLAG_CTL [0, 3, 1, 0]),
    .notifyPacket (datagram 4 4 0 [1, 2, 3, 4]), .recv 1, .notifyPacket (datagram 8 4 0 [5])]

/-- The byte fits the free space, but the window, which was closed, wraps. -/
theorem not_window_after_unannounced_data :
    ¬ ∀ (env : Env) (conv : UInt32) (calls : List Call) (s : PseudoTcp),
      Runs.run (call env) (new env conv) calls = some s →
        s.WindowSound ∧ ∀ buffer seg, Delivers buffer seg →
          ∀ c ∈ s.processCalls env seg, c.Ok := by
  intro h
  have hend : (Runs.run (call quietEnv) (new quietEnv 7) unannouncedRun).map
      (fun s => (s.rcvWnd, s.rbuf.getWriteRemaining)) = some (4294967295, 0) := by decide +kernel
  obtain ⟨s, hs, heq⟩ := Option.map_eq_some_iff.mp hend
  obtain ⟨hwnd, hfree⟩ := Prod.mk.inj heq
  have hle := (h quietEnv 7 unannouncedRun s hs).1.1
  rw [hwnd, hfree] at hle
  exact absurd hle (by decide)

end PseudoTcp

end Synciga
