import Synciga.PseudoTcp.KeptFields

/-!
# The receiving side of a connection

What was returned by `Recv` and what is committed to the ring are the data bytes of the peer's stream before
`m_rcv_nxt`, and behind them the ring has every saved range at its distance. Control bytes take sequence numbers
but no room, so that one that is consumed while ranges are saved leaves these where they were, and one without a
window scale may reallocate the ring, which copies committed bytes only.

## Main definitions

* `RecvCore.Inv` — the invariant
* `Displaces` — the two cases, and nothing else a peer sends breaks it
-/

namespace Synciga

/-! ### Steps that leave the receiving side alone -/

/-- The fields that carry incoming data. -/
structure RecvCore where
  shutdown : Shutdown
  rlist : List RSegment
  rcvNxt : UInt32
  rbuf : FifoBuffer

/-- The receiving side of a connection. -/
def PseudoTcp.recvCore (s : PseudoTcp) : RecvCore := ⟨s.shutdown, s.rlist, s.rcvNxt, s.rbuf⟩

/-- From `s` to `s'` neither the receiving side nor the stream of queued bytes has changed, and the
connection is in the same state or has been closed down. -/
structure Quiet (s s' : PseudoTcp) : Prop where
  recvCore : s'.recvCore = s.recvCore
  queued : s'.queued = s.queued
  state : s'.state = s.state ∨ s'.state = .closed

theorem Quiet.refl (s : PseudoTcp) : Quiet s s := ⟨rfl, rfl, .inl rfl⟩

theorem Quiet.trans {s₁ s₂ s₃ : PseudoTcp} (h : Quiet s₁ s₂) (h' : Quiet s₂ s₃) : Quiet s₁ s₃ := by
  refine ⟨h'.recvCore.trans h.recvCore, h'.queued.trans h.queued, ?_⟩
  rcases h'.state with heq | hclosed
  · rw [heq]
    exact h.state
  · exact .inr hclosed

/-- From `s` to `s'` packets were sent: segments may have been cut and counted, but neither side has taken in,
committed or freed a byte. -/
structure Emits (s s' : PseudoTcp) : Prop where
  recvCore : s'.recvCore = s.recvCore
  queued : s'.queued = s.queued
  state : s'.state = s.state
  sndUna : s'.sndUna = s.sndUna
  sbuf : s'.sbuf = s.sbuf

theorem Sending.emits {s s' : PseudoTcp} (h : Sending s s') : Emits s s' := by
  refine ⟨?_, congrArg Steady.queued h.steady, h.state, h.sndUna, h.sbuf⟩
  exact congrArg (fun c => (⟨c.shutdown, c.rlist, c.rcvNxt, c.rbuf⟩ : RecvCore)) h.steady

theorem Emits.quiet {s s' : PseudoTcp} (h : Emits s s') : Quiet s s' :=
  ⟨h.recvCore, h.queued, .inl h.state⟩

theorem Tends.quiet {s s' : PseudoTcp} (h : Tends s s') : Quiet s s' :=
  ⟨congrArg (fun k => (⟨k.shutdown, k.rlist, k.rcvNxt, k.rbuf⟩ : RecvCore)) h.kept,
    congrArg Kept.queued h.kept, h.state⟩

namespace PseudoTcp

variable (env : Env)

variable (s : PseudoTcp)

theorem emits_transmit (i : ℕ) (now : UInt32) : Emits s (s.transmit env i now).2 :=
  (sending_transmit env s i now).emits

theorem emits_attemptSend (sflags : SendFlags) : Emits s (s.attemptSend env sflags) :=
  (sending_attemptSend env s sflags).emits

theorem recvCore_enterEstablished (bConnect : Bool) :
    (s.enterEstablished bConnect).recvCore = s.recvCore := by
  rw [enterEstablished]
  split <;> rfl

theorem quiet_notifyWriteable : Quiet s s.notifyWriteable := by
  simp only [notifyWriteable]
  split <;> exact ⟨rfl, rfl, .inl rfl⟩

theorem quiet_notifyReadable (bNewData : Bool) : Quiet s (s.notifyReadable bNewData) := by
  rw [notifyReadable]
  split <;> exact ⟨rfl, rfl, .inl rfl⟩

theorem quiet_openWindow : Quiet s (s.openWindow env) := by
  simp only [openWindow]
  split
  · split
    · refine Quiet.trans ?_ (emits_attemptSend env _ _).quiet
      exact ⟨rfl, rfl, .inl rfl⟩
    · exact ⟨rfl, rfl, .inl rfl⟩
  · exact .refl s

end PseudoTcp

/-! ### The invariant -/

/-- The data bytes of a stretch of the stream. -/
def dataBytes (queued : List (UInt8 × Bool)) : List UInt8 :=
  (queued.filter fun x => !x.2).map Prod.fst

@[simp] theorem dataBytes_append (q₁ q₂ : List (UInt8 × Bool)) :
    dataBytes (q₁ ++ q₂) = dataBytes q₁ ++ dataBytes q₂ := by
  simp [dataBytes]

theorem dataBytes_of_data {q : List (UInt8 × Bool)} (h : ∀ x ∈ q, x.2 = false) :
    dataBytes q = q.map Prod.fst := by
  rw [dataBytes, List.filter_eq_self.mpr]
  intro x hx
  rw [h x hx]
  rfl

theorem dataBytes_of_control {q : List (UInt8 × Bool)} (h : ∀ x ∈ q, x.2 = true) : dataBytes q = [] := by
  rw [dataBytes, List.filter_eq_nil_iff.mpr, List.map_nil]
  intro x hx
  rw [h x hx]
  exact Bool.false_ne_true

namespace RecvCore

/-- Position `p` of the stream is a data byte and, unless it has been committed already, the ring
holds it at its distance from `m_rcv_nxt`. -/
def Holds (c : RecvCore) (queued : List (UInt8 × Bool)) (p : ℕ) : Prop :=
  ∃ b, queued[p]? = some (b, false) ∧ (c.rcvNxt.toNat ≤ p →
    c.rbuf.dataLength + (p - c.rcvNxt.toNat) < c.rbuf.bufferLength ∧
      c.rbuf.cell (c.rbuf.dataLength + (p - c.rcvNxt.toNat)) = b)

/-- The invariant of the receiving side, against the stream `queued` of the peer and the bytes
`returned` by `Recv` so far. -/
structure Inv (c : RecvCore) (queued : List (UInt8 × Bool)) (returned : List UInt8) : Prop where
  /-- Nobody has called `Close`. -/
  shutdown : c.shutdown = .none
  /-- The ring is well formed. -/
  rbuf : c.rbuf.WellFormed
  /-- Its length is a 32-bit number. -/
  cap : c.rbuf.bufferLength < 2 ^ 32
  /-- `m_rcv_nxt` is a position of the stream. -/
  next : c.rcvNxt.toNat ≤ queued.length
  /-- The data before it has been returned or is committed to the ring. -/
  stream : returned ++ c.rbuf.contents = dataBytes (queued.take c.rcvNxt.toNat)
  /-- No saved range is empty. -/
  nonempty : ∀ r ∈ c.rlist, r.len ≠ 0
  /-- The ring holds the saved ranges. -/
  saved : ∀ r ∈ c.rlist, ∀ p, r.seq.toNat ≤ p → p < r.seq.toNat + r.len.toNat → c.Holds queued p

variable {c : RecvCore} {queued : List (UInt8 × Bool)} {returned : List UInt8}

theorem Holds.lt_length {p : ℕ} (h : c.Holds queued p) : p < queued.length := by
  obtain ⟨b, hb, -⟩ := h
  exact (List.getElem?_eq_some_iff.mp hb).1

theorem Inv.append (h : c.Inv queued returned) (more : List (UInt8 × Bool)) :
    c.Inv (queued ++ more) returned := by
  refine ⟨h.shutdown, h.rbuf, h.cap, ?_, ?_, h.nonempty, ?_⟩
  · rw [List.length_append]
    exact h.next.trans (Nat.le_add_right _ _)
  · rw [List.take_append_of_le_length h.next]
    exact h.stream
  · intro r hr p h1 h2
    have hlt := (h.saved r hr p h1 h2).lt_length
    obtain ⟨b, hb, hcell⟩ := h.saved r hr p h1 h2
    exact ⟨b, by rw [List.getElem?_append_left hlt, hb], hcell⟩

theorem Inv.commit (h : c.Inv queued returned) (hq : queued.length < 2 ^ 32) {n : UInt32}
    (hn : ∀ p, c.rcvNxt.toNat ≤ p → p < c.rcvNxt.toNat + n.toNat → c.Holds queued p) :
    { c with rbuf := c.rbuf.consumeWriteBuffer n.toNat, rcvNxt := c.rcvNxt + n : RecvCore }.Inv
      queued returned := by
  have hnext := h.next
  have hdata := h.rbuf.data_le
  -- The last of the bytes lies inside the stream and inside the ring.
  have hbound : c.rcvNxt.toNat + n.toNat ≤ queued.length ∧
      c.rbuf.dataLength + n.toNat ≤ c.rbuf.bufferLength := by
    rcases Nat.eq_zero_or_pos n.toNat with hz | hpos
    · omega
    · have hlast := hn (c.rcvNxt.toNat + n.toNat - 1) (by omega) (by omega)
      have := hlast.lt_length
      obtain ⟨b, -, hcell⟩ := hlast
      have := (hcell (by omega)).1
      omega
  have hadd : (c.rcvNxt + n).toNat = c.rcvNxt.toNat + n.toNat := by
    rw [UInt32.toNat_add, Nat.mod_eq_of_lt (by omega)]
  have hcells : (queued.drop c.rcvNxt.toNat).take n.toNat =
      (List.range n.toNat).map fun i => (c.rbuf.cell (c.rbuf.dataLength + i), false) := by
    refine List.ext_getElem? fun i => ?_
    rw [List.getElem?_take, List.getElem?_drop, List.getElem?_map]
    split
    · next hi =>
      obtain ⟨b, hb, hcell⟩ := hn (c.rcvNxt.toNat + i) (by omega) (by omega)
      have hcell := (hcell (by omega)).2
      rw [Nat.add_sub_cancel_left] at hcell
      rw [hb, List.getElem?_range hi, Option.map_some, hcell]
    · next hi =>
      rw [List.getElem?_eq_none (by rw [List.length_range]; omega), Option.map_none]
  refine ⟨h.shutdown, FifoBuffer.wellFormed_consumeWriteBuffer h.rbuf hbound.2, ?_, ?_, ?_,
    h.nonempty, ?_⟩
  · change (c.rbuf.consumeWriteBuffer n.toNat).bufferLength < 2 ^ 32
    rw [FifoBuffer.consumeWriteBuffer_bufferLength]
    exact h.cap
  · change (c.rcvNxt + n).toNat ≤ _
    omega
  · change returned ++ (c.rbuf.consumeWriteBuffer n.toNat).contents =
      dataBytes (queued.take (c.rcvNxt + n).toNat)
    rw [hadd, List.take_add, dataBytes_append, ← h.stream, hcells, dataBytes_of_data,
      FifoBuffer.contents_consumeWriteBuffer, List.append_assoc, List.map_map]
    · rfl
    · intro x hx
      obtain ⟨i, -, rfl⟩ := List.mem_map.mp hx
      rfl
  intro r hr p h1 h2
  obtain ⟨b, hb, hcell⟩ := h.saved r hr p h1 h2
  refine ⟨b, hb, fun hp => ?_⟩
  simp only [hadd, FifoBuffer.consumeWriteBuffer_dataLength, FifoBuffer.consumeWriteBuffer_cell,
    FifoBuffer.consumeWriteBuffer_bufferLength] at hp ⊢
  have hcell := hcell (by omega)
  rw [show c.rbuf.dataLength + n.toNat + (p - (c.rcvNxt.toNat + n.toNat)) =
    c.rbuf.dataLength + (p - c.rcvNxt.toNat) by omega]
  exact hcell

/-- Storing bytes of the stream at their distance from `m_rcv_nxt` keeps the invariant, and the ring
holds them afterwards. -/
theorem Inv.store (h : c.Inv queued returned) {seq : ℕ} {data : List UInt8} (hseq : c.rcvNxt.toNat ≤ seq)
    (hfit : c.rbuf.dataLength + (seq - c.rcvNxt.toNat) + data.length ≤ c.rbuf.bufferLength)
    (hbytes : ∀ i b, data[i]? = some b → queued[seq + i]? = some (b, false)) :
    { c with
      rbuf := (c.rbuf.writeOffset data (seq - c.rcvNxt.toNat)).2.2 : RecvCore }.Inv queued returned ∧
      ∀ p, seq ≤ p → p < seq + data.length → { c with
        rbuf := (c.rbuf.writeOffset data (seq - c.rcvNxt.toNat)).2.2 : RecvCore }.Holds queued p := by
  have hcell := fun i (hi : i < c.rbuf.bufferLength) =>
    FifoBuffer.cell_writeOffset h.rbuf data hfit hi
  -- A position inside the written range, read back.
  have hnew : ∀ p, seq ≤ p → p < seq + data.length → { c with
      rbuf := (c.rbuf.writeOffset data (seq - c.rcvNxt.toNat)).2.2 : RecvCore }.Holds queued p := by
    intro p h1 h2
    have hb : data[p - seq]? = some (data.get ⟨p - seq, by omega⟩) :=
      List.getElem?_eq_getElem (by omega)
    have hqueued := hbytes (p - seq) _ hb
    rw [show seq + (p - seq) = p by omega] at hqueued
    refine ⟨_, hqueued, fun _ => ?_⟩
    simp only [FifoBuffer.writeOffset_dataLength, FifoBuffer.writeOffset_bufferLength]
    refine ⟨by omega, ?_⟩
    rw [hcell _ (by omega), if_pos (by omega), show c.rbuf.dataLength + (p - c.rcvNxt.toNat) -
      (c.rbuf.dataLength + (seq - c.rcvNxt.toNat)) = p - seq by omega, hb]
    rfl
  refine ⟨⟨h.shutdown, FifoBuffer.wellFormed_writeOffset h.rbuf _ _, ?_, h.next, ?_,
    h.nonempty, ?_⟩, hnew⟩
  · change (c.rbuf.writeOffset _ _).2.2.bufferLength < 2 ^ 32
    rw [FifoBuffer.writeOffset_bufferLength]
    exact h.cap
  · change returned ++ (c.rbuf.writeOffset _ _).2.2.contents = _
    rw [FifoBuffer.contents_writeOffset h.rbuf _ hfit]
    exact h.stream
  intro r hr p h1 h2
  by_cases hin : seq ≤ p ∧ p < seq + data.length
  · exact hnew p hin.1 hin.2
  -- Outside the written range the ring is as before.
  obtain ⟨b, hb, hold⟩ := h.saved r hr p h1 h2
  refine ⟨b, hb, fun hp => ?_⟩
  simp only [FifoBuffer.writeOffset_dataLength, FifoBuffer.writeOffset_bufferLength] at hp ⊢
  obtain ⟨hlt, hcellp⟩ := hold hp
  refine ⟨hlt, ?_⟩
  rw [hcell _ hlt]
  split
  · next hge =>
    rw [List.getElem?_eq_none (by omega)]
    exact hcellp
  · exact hcellp

theorem Inv.skip (h : c.Inv queued returned) (hq : queued.length < 2 ^ 32) (hnil : c.rlist = [])
    {n : UInt32} (hn : c.rcvNxt.toNat + n.toNat ≤ queued.length)
    (hctl : ∀ x ∈ (queued.drop c.rcvNxt.toNat).take n.toNat, x.2 = true) :
    { c with rcvNxt := c.rcvNxt + n : RecvCore }.Inv queued returned := by
  have hadd : (c.rcvNxt + n).toNat = c.rcvNxt.toNat + n.toNat := by
    rw [UInt32.toNat_add, Nat.mod_eq_of_lt (by omega)]
  refine ⟨h.shutdown, h.rbuf, h.cap, ?_, ?_, h.nonempty, ?_⟩
  · change (c.rcvNxt + n).toNat ≤ _
    rw [hadd]
    exact hn
  · change returned ++ c.rbuf.contents = dataBytes (queued.take (c.rcvNxt + n).toNat)
    rw [hadd, List.take_add, dataBytes_append, dataBytes_of_control hctl, List.append_nil]
    exact h.stream
  · intro r hr
    rw [show r ∈ c.rlist ↔ r ∈ [] by rw [hnil]] at hr
    cases hr

theorem Inv.read (h : c.Inv queued returned) {n : ℕ} (hn : n ≤ c.rbuf.dataLength) :
    { c with rbuf := c.rbuf.consumeReadData n : RecvCore }.Inv queued
      (returned ++ c.rbuf.contents.take n) := by
  refine ⟨h.shutdown, FifoBuffer.wellFormed_consumeReadData h.rbuf n, ?_, h.next, ?_,
    h.nonempty, ?_⟩
  · change (c.rbuf.consumeReadData n).bufferLength < 2 ^ 32
    rw [FifoBuffer.consumeReadData_bufferLength]
    exact h.cap
  · change _ ++ (c.rbuf.consumeReadData n).contents = _
    rw [FifoBuffer.contents_consumeReadData, List.append_assoc, List.take_append_drop]
    exact h.stream
  intro r hr p h1 h2
  obtain ⟨b, hb, hold⟩ := h.saved r hr p h1 h2
  refine ⟨b, hb, fun hp => ?_⟩
  obtain ⟨hlt, hcell⟩ := hold hp
  simp only [FifoBuffer.consumeReadData_dataLength, FifoBuffer.consumeReadData_bufferLength,
    FifoBuffer.cell_consumeReadData]
  rw [show n + (c.rbuf.dataLength - n + (p - c.rcvNxt.toNat)) =
    c.rbuf.dataLength + (p - c.rcvNxt.toNat) by omega]
  exact ⟨by omega, hcell⟩

theorem Inv.setCapacity (h : c.Inv queued returned) (hnil : c.rlist = []) (fresh : ℕ → UInt8)
    {size : ℕ} (hsize : size < 2 ^ 32) :
    { c with rbuf := (c.rbuf.setCapacity fresh size).2 : RecvCore }.Inv queued returned := by
  refine ⟨h.shutdown, FifoBuffer.wellFormed_setCapacity h.rbuf _ _, ?_, h.next, ?_,
    h.nonempty, ?_⟩
  · exact (FifoBuffer.setCapacity_bufferLength_le _ _ _).trans_lt (max_lt h.cap hsize)
  · rw [FifoBuffer.contents_setCapacity h.rbuf]
    exact h.stream
  · intro r hr
    rw [show r ∈ c.rlist ↔ r ∈ [] by rw [hnil]] at hr
    cases hr

end RecvCore

namespace PseudoTcp

variable (env : Env) {s : PseudoTcp} {queued : List (UInt8 × Bool)} {returned : List UInt8}

/-! ### Trimming an incoming segment -/

/-- A segment carries the bytes that were queued at its sequence number. -/
def Carries (queued : List (UInt8 × Bool)) (seg : Segment) : Prop :=
  ∀ i b, seg.data[i]? = some b → queued[seg.seq.toNat + i]? = some (b, decide (seg.flags &&& FLAG_CTL ≠ 0))

variable {seg : Segment}

theorem Carries.end_le (h : Carries queued seg) (hne : seg.data ≠ []) :
    seg.seq.toNat + seg.data.length ≤ queued.length := by
  have hpos := List.length_pos_iff.mpr hne
  have hlast := h (seg.data.length - 1) _ (List.getElem?_eq_getElem (by omega))
  have := (List.getElem?_eq_some_iff.mp hlast).1
  omega

theorem Carries.length_le (h : Carries queued seg) : seg.data.length ≤ queued.length := by
  rcases List.eq_nil_or_concat seg.data with hnil | ⟨_, _, hne⟩
  · rw [hnil]
    exact Nat.zero_le _
  · have := h.end_le (by rw [hne]; simp)
    omega

theorem Carries.len_toNat (h : Carries queued seg) (hq : queued.length < 2 ^ 32) :
    seg.len.toNat = seg.data.length := by
  have := h.length_le
  rw [Segment.len, UInt32.toNat_ofNat', Nat.mod_eq_of_lt (by omega)]

theorem carries_of_carriesQueued {buffer : List UInt8}
    (h : CarriesQueued queued buffer) (hq : queued.length < 2 ^ 32)
    (hseg : parseHeader buffer = some seg) : Carries queued seg := by
  obtain ⟨seg', hseg', hdata⟩ := h
  obtain rfl : seg' = seg := Option.some.inj (hseg'.symm.trans hseg)
  intro i b hb
  have hi := (List.getElem?_eq_some_iff.mp hb).1
  obtain ⟨pos, hpos, hle, hbytes⟩ := hdata (List.ne_nil_of_length_pos (by omega))
  have hseq : seg'.seq.toNat = pos := by
    rw [← hpos, UInt32.toNat_ofNat', Nat.mod_eq_of_lt (by omega)]
  have hget := congrArg (fun l => l[i]?) hbytes
  simp only [List.getElem?_map, hb, Option.map_some, List.getElem?_take, hi, if_true,
    List.getElem?_drop] at hget
  rw [hseq, ← hget]

theorem carries_trimFront (hq : queued.length < 2 ^ 32) (h : Carries queued seg) :
    Carries queued (s.trimFront seg) ∧ ((s.trimFront seg).data ≠ [] →
      s.rcvNxt.toNat ≤ (s.trimFront seg).seq.toNat ∧
      seg.seq.toNat ≤ (s.trimFront seg).seq.toNat ∧
      (s.trimFront seg).seq.toNat + (s.trimFront seg).data.length = seg.seq.toNat + seg.data.length) := by
  have hlen := h.len_toNat hq
  simp only [trimFront]
  split
  · next hlt =>
    have hsub : (s.rcvNxt - seg.seq).toNat = s.rcvNxt.toNat - seg.seq.toNat :=
      UInt32.toNat_sub_of_le _ _ (UInt32.le_of_lt hlt)
    have hlt' := UInt32.lt_iff_toNat_lt.mp hlt
    split
    · next hadj =>
      have hadj' := UInt32.lt_iff_toNat_lt.mp hadj
      have hseq : (seg.seq + (s.rcvNxt - seg.seq)).toNat = s.rcvNxt.toNat := by
        rw [show seg.seq + (s.rcvNxt - seg.seq) = s.rcvNxt by grind]
      constructor
      · intro i b hb
        simp only [List.getElem?_drop] at hb
        have := h _ _ hb
        rw [hseq, ← this]
        congr 1
        omega
      · intro _
        simp only [hseq, List.length_drop]
        omega
    · constructor
      · intro i b hb
        simp at hb
      · intro hne
        exact absurd rfl hne
  · next hge =>
    have hge' := UInt32.le_iff_toNat_le.mp (UInt32.not_lt.mp hge)
    exact ⟨h, fun _ => ⟨hge', le_rfl, rfl⟩⟩

theorem carries_trimBack (hq : queued.length < 2 ^ 32) (hwf : s.rbuf.WellFormed)
    (hcap : s.rbuf.bufferLength < 2 ^ 32) (h : Carries queued seg)
    (hseq : seg.data ≠ [] → s.rcvNxt.toNat ≤ seg.seq.toNat) :
    Carries queued (s.trimBack seg) ∧ (s.trimBack seg).seq = seg.seq ∧
      (s.trimBack seg).data.length ≤ seg.data.length ∧ ((s.trimBack seg).data ≠ [] →
      s.rbuf.dataLength + (seg.seq.toNat - s.rcvNxt.toNat) + (s.trimBack seg).data.length ≤
        s.rbuf.bufferLength) := by
  by_cases hnil : seg.data = []
  · have htrim : (s.trimBack seg).data = [] ∧ (s.trimBack seg).seq = seg.seq := by
      simp only [trimBack]
      split
      · split
        · exact ⟨by rw [hnil, List.take_nil], rfl⟩
        · exact ⟨rfl, rfl⟩
      · exact ⟨hnil, rfl⟩
    refine ⟨?_, htrim.2, by rw [htrim.1]; exact Nat.zero_le _, fun hne => absurd htrim.1 hne⟩
    intro i b hb
    rw [htrim.1] at hb
    cases hb
  -- Sequence numbers behave like positions here: the segment ends inside the stream.
  have hlen := h.len_toNat hq
  have hend := h.end_le hnil
  have hle := hseq hnil
  have hdata := hwf.data_le
  have hspace : (UInt32.ofNat s.rbuf.getWriteRemaining).toNat =
      s.rbuf.bufferLength - s.rbuf.dataLength := by
    rw [FifoBuffer.getWriteRemaining, UInt32.toNat_ofNat', Nat.mod_eq_of_lt (by omega)]
  have hsum : (seg.seq + seg.len).toNat = seg.seq.toNat + seg.data.length := by
    rw [UInt32.toNat_add, hlen, Nat.mod_eq_of_lt (by omega)]
  have hdist : (seg.seq + seg.len - s.rcvNxt).toNat = seg.seq.toNat + seg.data.length - s.rcvNxt.toNat := by
    rw [UInt32.toNat_sub_of_le _ _ (UInt32.le_iff_toNat_le.mpr (by omega)), hsum]
  simp only [trimBack]
  split
  · next hlt =>
    have hadj : (seg.seq + seg.len - s.rcvNxt - UInt32.ofNat s.rbuf.getWriteRemaining).toNat =
        seg.seq.toNat + seg.data.length - s.rcvNxt.toNat -
          (s.rbuf.bufferLength - s.rbuf.dataLength) := by
      rw [UInt32.toNat_sub_of_le _ _ (UInt32.le_of_lt hlt), hdist, hspace]
    split
    · next hfit =>
      have hfit' := UInt32.lt_iff_toNat_lt.mp hfit
      have hkeep := UInt32.toNat_sub_of_le _ _ (UInt32.le_of_lt hfit)
      refine ⟨?_, rfl, ?_, fun _ => ?_⟩
      · intro i b hb
        rw [List.getElem?_take] at hb
        split at hb
        · exact h i b hb
        · cases hb
      · rw [List.length_take]
        exact Nat.min_le_right _ _
      · rw [List.length_take, hkeep]
        omega
    · refine ⟨fun i b hb => ?_, rfl, Nat.zero_le _, fun hne => absurd rfl hne⟩
      cases hb
  · next hge =>
    have hge' := UInt32.le_iff_toNat_le.mp (UInt32.not_lt.mp hge)
    refine ⟨h, rfl, le_rfl, fun _ => ?_⟩
    omega

theorem trim_flags (s : PseudoTcp) (seg : Segment) : (s.trim seg).flags = seg.flags := by
  simp only [trim, trimBack, trimFront]
  split_ifs <;> rfl

/-- What is left of a segment after trimming: bytes of the stream that start at `m_rcv_nxt` or
behind it and fit the ring, and lie inside the segment. -/
theorem carries_trim (hq : queued.length < 2 ^ 32) (hwf : s.rbuf.WellFormed)
    (hcap : s.rbuf.bufferLength < 2 ^ 32) (h : Carries queued seg) :
    Carries queued (s.trim seg) ∧ ((s.trim seg).data ≠ [] → s.rcvNxt.toNat ≤ (s.trim seg).seq.toNat ∧
      s.rbuf.dataLength + ((s.trim seg).seq.toNat - s.rcvNxt.toNat) + (s.trim seg).data.length ≤
        s.rbuf.bufferLength ∧
      seg.seq.toNat ≤ (s.trim seg).seq.toNat ∧
      (s.trim seg).seq.toNat + (s.trim seg).data.length ≤ seg.seq.toNat + seg.data.length) := by
  obtain ⟨hfront, hpos⟩ := carries_trimFront (s := s) hq h
  obtain ⟨hback, hseq, hlen, hfit⟩ := carries_trimBack hq hwf hcap hfront fun hne => (hpos hne).1
  refine ⟨hback, fun hne => ?_⟩
  have hne' : (s.trimFront seg).data ≠ [] := by
    intro hnil
    rw [hnil] at hlen
    exact hne (List.eq_nil_of_length_eq_zero (Nat.le_zero.mp hlen))
  obtain ⟨h1, h2, h3⟩ := hpos hne'
  rw [trim, hseq]
  exact ⟨h1, hfit hne, h2, by omega⟩

/-! ### Storing an incoming segment -/

theorem recvInv_recoverSaved (hq : queued.length < 2 ^ 32) (rlist : List RSegment)
    (h : { s.recvCore with rlist := rlist }.Inv queued returned) :
    (recoverSaved rlist s).2.recvCore.Inv queued returned := by
  induction rlist generalizing s with
  | nil => exact h
  | cons r rlist ih =>
    have htail : { s.recvCore with rlist := rlist }.Inv queued returned :=
      ⟨h.shutdown, h.rbuf, h.cap, h.next, h.stream,
        fun r' hr' => h.nonempty r' (List.mem_cons_of_mem _ hr'),
        fun r' hr' => h.saved r' (List.mem_cons_of_mem _ hr')⟩
    rw [recoverSaved]
    split
    · next hle =>
      have hle' := UInt32.le_iff_toNat_le.mp hle
      split
      · next hlt =>
        have hlt' := UInt32.lt_iff_toNat_lt.mp hlt
        have hhead := h.saved r List.mem_cons_self
        have hend : (r.seq + r.len).toNat = r.seq.toNat + r.len.toNat := by
          rcases Nat.eq_zero_or_pos r.len.toNat with hz | hpos
          · rw [UInt32.toNat_add, hz, Nat.add_zero, Nat.mod_eq_of_lt (UInt32.toNat_lt _)]
          · have := (hhead (r.seq.toNat + r.len.toNat - 1) (by omega) (by omega)).lt_length
            rw [UInt32.toNat_add, Nat.mod_eq_of_lt (by omega)]
        have hadj : (r.seq + r.len - s.rcvNxt).toNat = r.seq.toNat + r.len.toNat - s.rcvNxt.toNat := by
          rw [UInt32.toNat_sub_of_le _ _ (UInt32.le_of_lt hlt), hend]
        refine ih (htail.commit hq fun p h1 h2 => ?_)
        have h1 : s.rcvNxt.toNat ≤ p := h1
        have h2 : p < s.rcvNxt.toNat + (r.seq + r.len - s.rcvNxt).toNat := h2
        exact hhead p (by omega) (by omega)
      · exact ih htail
    · exact h

theorem mem_insertSaved {r rseg : RSegment} {rlist : List RSegment}
    (h : r ∈ insertSaved rseg rlist) : r = rseg ∨ r ∈ rlist := by
  induction rlist with
  | nil => exact .inl (List.mem_singleton.mp h)
  | cons r' rlist ih =>
    rw [insertSaved] at h
    split at h
    · rcases List.mem_cons.mp h with rfl | hmem
      · exact .inr List.mem_cons_self
      · rcases ih hmem with heq | hin
        · exact .inl heq
        · exact .inr (List.mem_cons_of_mem _ hin)
    · exact List.mem_cons.mp h

/-- The data part of `process` keeps the invariant, if no control segment is consumed while ranges
are saved. -/
theorem recvInv_receiveData (h : s.recvCore.Inv queued returned) (hq : queued.length < 2 ^ 32)
    (hc : Carries queued seg) (sflags : SendFlags)
    (hctl : seg.flags &&& FLAG_CTL ≠ 0 → s.rlist ≠ [] →
      ¬ (seg.seq.toNat ≤ s.rcvNxt.toNat ∧ s.rcvNxt.toNat < seg.seq.toNat + seg.data.length)) :
    (s.receiveData (s.trim seg) sflags).2.2.recvCore.Inv queued returned := by
  obtain ⟨htrim, hpos⟩ := carries_trim hq h.rbuf h.cap hc
  have hflags := trim_flags s seg
  generalize s.trim seg = t at *
  have hlen := htrim.len_toNat hq
  simp only [receiveData]
  split
  · exact h
  next hlen0 =>
  have hne : t.data ≠ [] := by
    intro hnil
    refine hlen0 (UInt32.toNat_inj.mp ?_)
    rw [hlen, hnil]
    rfl
  obtain ⟨hseq, hfit, hge, hle⟩ := hpos hne
  have hend := htrim.end_le hne
  split
  · next hskip =>
    have hctl' : seg.flags &&& FLAG_CTL ≠ 0 := by
      rcases hskip with hf | hs
      · rwa [hflags] at hf
      · exact absurd h.shutdown hs
    split
    · next heq =>
      -- A control segment in order: no range is saved, and no data byte is passed over.
      have hposLen := List.length_pos_iff.mpr hne
      have hnil : s.rlist = [] := by
        by_contra hsaved
        rw [← heq] at hctl
        exact hctl hctl' hsaved ⟨hge, by omega⟩
      have hend' : s.rcvNxt.toNat + t.len.toNat ≤ queued.length := by
        rw [hlen, ← heq]
        exact hend
      refine h.skip hq hnil hend' fun x hx => ?_
      obtain ⟨i, hi, hget⟩ := List.mem_iff_getElem.mp hx
      rw [List.length_take, List.length_drop] at hi
      have hbyte := htrim i _ (List.getElem?_eq_getElem (by omega))
      rw [List.getElem_take, List.getElem_drop] at hget
      have hget' : queued[t.seq.toNat + i]? = some x := by
        rw [heq, ← hget]
        exact List.getElem?_eq_getElem (by omega)
      rw [hget', Option.some.injEq] at hbyte
      rw [hbyte, hflags]
      exact decide_eq_true hctl'
    · exact h
  · next hdata =>
    obtain ⟨hf, -⟩ := not_or.mp hdata
    have hoff : (t.seq - s.rcvNxt).toNat = t.seq.toNat - s.rcvNxt.toNat :=
      UInt32.toNat_sub_of_le _ _ (UInt32.le_iff_toNat_le.mpr hseq)
    have hbytes : ∀ i b, t.data[i]? = some b → queued[t.seq.toNat + i]? = some (b, false) := by
      intro i b hb
      rw [htrim i b hb, decide_eq_false hf]
    obtain ⟨hstore, hnew⟩ := h.store hseq hfit hbytes
    simp only [hoff]
    split
    · next heq =>
      refine recvInv_recoverSaved hq _ ?_
      have hcommit := hstore.commit (n := t.len) hq fun p h1 h2 => ?_
      · exact hcommit
      · have h1 : s.rcvNxt.toNat ≤ p := h1
        have h2 : p < s.rcvNxt.toNat + t.len.toNat := h2
        rw [← heq] at h1 h2
        exact hnew p h1 (by omega)
    refine ⟨hstore.shutdown, hstore.rbuf, hstore.cap, hstore.next, hstore.stream, ?_, ?_⟩
    · intro r hr
      rcases mem_insertSaved hr with rfl | hmem
      · exact hlen0
      · exact hstore.nonempty r hmem
    intro r hr p h1 h2
    rcases mem_insertSaved hr with rfl | hmem
    · exact hnew p h1 (by rw [← hlen]; exact h2)
    · exact hstore.saved r hmem p h1 h2

/-! ### The control part -/

/-- Giving up window scaling reallocates the ring: the committed bytes fit the default size, which
is a new one. -/
def Reallocates (s : PseudoTcp) (data : List UInt8) : Prop :=
  s.DropsScaling data ∧ s.rbuf.getBuffered ≤ DEFAULT_RCV_BUF_SIZE.toNat ∧
    DEFAULT_RCV_BUF_SIZE.toNat ≠ s.rbuf.bufferLength

/-- A connect message moves the saved ranges: while some are saved, it is consumed, or it
reallocates the ring. -/
def Displaces (s : PseudoTcp) (seg : Segment) : Prop :=
  seg.flags &&& FLAG_CTL ≠ 0 ∧ s.rlist ≠ [] ∧
    ((seg.seq ≤ s.rcvNxt ∧ s.rcvNxt < seg.seq + seg.len) ∨ s.Reallocates seg.data.tail)

theorem recvInv_parseOptions (h : s.recvCore.Inv queued returned) (data : List UInt8)
    (hd : s.rlist ≠ [] → ¬ s.Reallocates data) :
    (s.parseOptions env data).recvCore.Inv queued returned ∧
      (s.parseOptions env data).rlist = s.rlist ∧ (s.parseOptions env data).rcvNxt = s.rcvNxt := by
  obtain ⟨scale, hp⟩ | ⟨hdrop, scale, hp⟩ := parseOptions_cases env s data
  · rw [hp]
    exact ⟨h, rfl, rfl⟩
  rw [hp]
  refine ⟨?_, rfl, rfl⟩
  change { s.recvCore with rbuf :=
    (s.rbuf.setCapacity (env.heap s.allocs) DEFAULT_RCV_BUF_SIZE.toNat).2 }.Inv queued returned
  by_cases hnil : s.rlist = []
  · exact h.setCapacity hnil _ (UInt32.toNat_lt _)
  -- With ranges saved, the ring is not touched.
  have hsame : (s.rbuf.setCapacity (env.heap s.allocs) DEFAULT_RCV_BUF_SIZE.toNat).2 =
      s.rbuf := by
    rw [FifoBuffer.setCapacity]
    split
    · rfl
    next hfits =>
    split
    · next hne => exact absurd ⟨hdrop, Nat.not_lt.mp hfits, hne⟩ (hd hnil)
    · rfl
  rw [hsame]
  exact h

theorem recvInv_processControl (h : s.recvCore.Inv queued returned)
    (hd : ¬ s.Displaces seg) {bConnect : Bool} {s' : PseudoTcp}
    (hc : s.processControl env seg = some (bConnect, s')) :
    s'.recvCore.Inv queued returned ∧ s'.rlist = s.rlist ∧ s'.rcvNxt = s.rcvNxt := by
  obtain ⟨-, -, rfl⟩ | ⟨hctl, -, options, hdata, hcase⟩ := processControl_cases env hc
  · exact ⟨h, rfl, rfl⟩
  have hparse := recvInv_parseOptions env h options fun hne hre =>
    hd ⟨hctl, hne, .inr (by rw [hdata]; exact hre)⟩
  obtain ⟨-, rfl⟩ | ⟨-, rfl⟩ | ⟨-, -, rfl⟩ := hcase
  · exact hparse
  · exact hparse
  · exact hparse

theorem recvInv_process (h : s.recvCore.Inv queued returned) (hq : queued.length < 2 ^ 32)
    (hcar : Carries queued seg) (hd : s.Heeds seg → ¬ s.Displaces seg) :
    (s.process env seg).2.recvCore.Inv queued returned := by
  obtain (hr | hr | hr) | ⟨hheeds, bConnect, s₁, s₂, hc, hs₂, hr⟩ := process_cases env s seg
  · rw [hr]
    exact h
  · rw [hr]
    exact h
  · rw [hr]
    exact h
  have hd' := hd hheeds
  obtain ⟨hinv, hrlist, hnext⟩ := recvInv_processControl env (s := s.arrive env) h hd' hc
  have hquiet := ((tends_updateTimestamp s₁ seg).trans
    (tends_processAck env (s₁.updateTimestamp seg) (s.now env) seg)).quiet
  rw [hs₂] at hquiet
  rcases hr with hr | hr
  · rw [hr, hquiet.recvCore]
    exact hinv
  rw [hr]
  simp only [processData]
  rw [(quiet_notifyReadable _ _).recvCore, (emits_attemptSend env _ _).recvCore]
  -- Neither step before the data part touches the receiving side.
  have hcore : (s₂.enterEstablished bConnect).notifyWriteable.recvCore = s₁.recvCore := by
    rw [(quiet_notifyWriteable _).recvCore, recvCore_enterEstablished, hquiet.recvCore]
  generalize (s₂.enterEstablished bConnect).notifyWriteable = t at hcore
  have hinv' : t.recvCore.Inv queued returned := hcore.symm ▸ hinv
  simp only [recvCore, RecvCore.mk.injEq] at hcore
  refine recvInv_receiveData hinv' hq hcar _ fun hctl hsaved hin => hd' ⟨hctl, ?_, .inl ?_⟩
  · rw [hcore.2.1, hrlist] at hsaved
    exact hsaved
  rw [hcore.2.2.1, hnext] at hin
  have hne : seg.data ≠ [] := by
    intro hnil
    rw [hnil, List.length_nil] at hin
    omega
  have hend := hcar.end_le hne
  refine ⟨UInt32.le_iff_toNat_le.mpr hin.1, UInt32.lt_iff_toNat_lt.mpr ?_⟩
  rw [UInt32.toNat_add, hcar.len_toNat hq, Nat.mod_eq_of_lt (by omega)]
  exact hin.2

/-! ### The interface -/

theorem recvInv_new (conv : UInt32) : (new env conv).recvCore.Inv [] [] := by
  refine ⟨rfl, FifoBuffer.wellFormed_new _ _, UInt32.toNat_lt _, le_rfl, rfl, ?_, ?_⟩
  · intro r hr
    cases hr
  · intro r hr
    cases hr

theorem recvInv_recv (h : s.recvCore.Inv queued returned) (len : ℕ) :
    (s.recv env len).2.recvCore.Inv queued (returned ++ (s.recv env len).1.getD []) := by
  have hwf : s.rbuf.WellFormed := h.rbuf
  rw [recv]
  split
  · rw [Option.getD_none, List.append_nil]
    exact h
  rcases Nat.eq_zero_or_pos s.rbuf.dataLength with hz | hpos
  · rw [FifoBuffer.read_of_empty hwf len hz]
    simp only [Option.getD_none, List.append_nil]
    exact h
  rw [FifoBuffer.read_eq hwf len hpos]
  rw [(quiet_openWindow env _).recvCore]
  have hn : (s.rbuf.contents.take len).length ≤ s.rbuf.dataLength := by
    rw [List.length_take, FifoBuffer.length_contents]
    exact Nat.min_le_right _ _
  have hread := RecvCore.Inv.read h hn
  have htake : s.rbuf.contents.take (s.rbuf.contents.take len).length = s.rbuf.contents.take len := by
    rw [List.length_take, ← List.take_eq_take_min]
  rw [show s.recvCore.rbuf.contents = s.rbuf.contents from rfl, htake] at hread
  exact hread

theorem recvInv_setOption (h : s.recvCore.Inv queued returned) (hnil : s.rlist = [])
    (opt : TcpOption) (value : Int32) :
    (s.setOption env opt value).recvCore.Inv queued returned := by
  cases opt with
  | nodelay => exact h
  | ackdelay => exact h
  | sndbuf => exact h
  | rcvbuf => exact h.setCapacity hnil _ (UInt32.toNat_lt _)

end PseudoTcp

end Synciga
