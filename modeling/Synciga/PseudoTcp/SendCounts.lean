import Synciga.PseudoTcp.SendSteps

/-!
# The counts of the sending side

An acknowledgment that ends inside a queued segment leaves it with a wrong sequence number, but not with a wrong
length: in every run the segments are together as long as what is buffered, and those that were transmitted,
which come first, as what is in flight.

## Main definitions

* `Counted` — these counts

## Main results

* `sendingEnds_of_run` — the loops of `transmit` and `attemptSend` end after every run
-/

namespace Synciga

/-! ### Fresh segments -/

/-- The segments that have not been transmitted yet. -/
def fresh (l : List SSegment) : List SSegment := l.filter fun g => g.xmit = 0

@[simp] theorem fresh_append (l₁ l₂ : List SSegment) : fresh (l₁ ++ l₂) = fresh l₁ ++ fresh l₂ := by
  simp [fresh]

variable {g : SSegment}

theorem fresh_cons_of_fresh (l : List SSegment) (h : g.xmit = 0) : fresh (g :: l) = g :: fresh l := by
  simp [fresh, h]

theorem fresh_cons_of_xmit (l : List SSegment) (h : g.xmit ≠ 0) : fresh (g :: l) = fresh l := by
  simp [fresh, h]

variable {l : List SSegment}

theorem fresh_of_all_sent (h : ∀ g ∈ l, g.xmit ≠ 0) : fresh l = [] := by
  simpa [fresh, List.filter_eq_nil_iff] using h

theorem fresh_of_all_fresh (h : ∀ g ∈ l, g.xmit = 0) : fresh l = l := by
  simpa [fresh] using h

theorem lens_eq_add_fresh (l : List SSegment) : lens l = sentLens l + lens (fresh l) := by
  induction l with
  | nil => rfl
  | cons g l ih =>
    by_cases hg : g.xmit = 0
    · rw [sentLens_cons_of_fresh l hg, fresh_cons_of_fresh l hg, lens_cons, lens_cons, ih]
      omega
    · rw [sentLens_cons_of_xmit l hg, fresh_cons_of_xmit l hg, lens_cons, ih]
      omega

theorem SentFirst.fresh_eq (h : SentFirst l) :
    ∃ l₁, l = l₁ ++ fresh l ∧ ∀ g ∈ l₁, g.xmit ≠ 0 := by
  induction l with
  | nil => exact ⟨[], rfl, fun g hg => by cases hg⟩
  | cons g l ih =>
    obtain ⟨hg, hrest⟩ := List.pairwise_cons.mp h
    by_cases hx : g.xmit = 0
    · refine ⟨[], ?_, fun g hg => by cases hg⟩
      refine (fresh_of_all_fresh fun b hb => ?_).symm
      rcases List.mem_cons.mp hb with rfl | hmem
      · exact hx
      · exact hg b hmem hx
    obtain ⟨l₁, hl₁, hsent⟩ := ih hrest
    refine ⟨g :: l₁, ?_, ?_⟩
    · rw [fresh_cons_of_xmit l hx, List.cons_append, ← hl₁]
    · intro b hb
      rcases List.mem_cons.mp hb with rfl | hmem
      · exact hx
      · exact hsent b hmem

theorem SentFirst.xmit_head (h : SentFirst (g :: l)) (hpos : sentLens (g :: l) ≠ 0) : g.xmit ≠ 0 := by
  intro hg
  obtain ⟨hrest, -⟩ := List.pairwise_cons.mp h
  refine hpos (sentLens_of_all_fresh fun b hb => ?_)
  rcases List.mem_cons.mp hb with rfl | hmem
  · exact hg
  · exact hrest b hmem hg

/-! ### Queueing and freeing -/

theorem Queued.lens_eq {len : UInt32} {bCtrl : Bool} {l l' : List SSegment}
    (h : Queued len bCtrl l l') (hlt : lens l + len.toNat < 2 ^ 32) :
    lens l' = lens l + len.toNat := by
  cases h with
  | push _ seq _ =>
    rw [lens_append, lens_cons, lens_nil]
    rfl
  | extend init back _ _ =>
    rw [lens_append, lens_cons, lens_nil] at hlt ⊢
    rw [lens_append, lens_cons, lens_nil, UInt32.toNat_add, Nat.mod_eq_of_lt (by omega)]
    omega

theorem Queued.sent {len : UInt32} {bCtrl : Bool} {l l' : List SSegment}
    (h : Queued len bCtrl l l') (hord : SentFirst l) :
    sentLens l' = sentLens l ∧ SentFirst l' := by
  cases h with
  | push _ seq _ =>
    refine ⟨?_, ?_⟩
    · rw [sentLens_append, sentLens_cons_of_fresh _ rfl, sentLens_nil, Nat.add_zero]
    · refine List.pairwise_append.mpr ⟨hord, List.pairwise_singleton _ _, ?_⟩
      intro a _ b hb _
      rw [List.mem_singleton.mp hb]
      rfl
  | extend init back _ hback =>
    obtain ⟨hord', hsent⟩ := hord.replace_fresh hback [{ back with len := back.len + len }]
      fun b hb => by rw [List.mem_singleton.mp hb]; exact hback
    rw [List.append_nil] at hord' hsent
    exact ⟨hsent, hord'⟩

theorem freeAcked_spec {n : UInt32} (largest : UInt32) (hord : SentFirst l) (hle : n.toNat ≤ sentLens l) :
    lens (PseudoTcp.freeAcked n largest l).2 + n.toNat = lens l ∧
      sentLens (PseudoTcp.freeAcked n largest l).2 + n.toNat = sentLens l ∧
      fresh (PseudoTcp.freeAcked n largest l).2 = fresh l ∧
      SentFirst (PseudoTcp.freeAcked n largest l).2 := by
  induction l generalizing n largest with
  | nil =>
    rw [sentLens_nil] at hle
    rw [PseudoTcp.freeAcked, lens_nil, sentLens_nil]
    exact ⟨by omega, by omega, rfl, hord⟩
  | cons front l ih =>
    rw [PseudoTcp.freeAcked]
    by_cases hn : n = 0
    · rw [if_pos hn, hn]
      exact ⟨rfl, rfl, rfl, hord⟩
    rw [if_neg hn]
    have hpos : n.toNat ≠ 0 := fun hz => hn (UInt32.toNat_inj.mp hz)
    have hfront : front.xmit ≠ 0 := hord.xmit_head (by omega)
    obtain ⟨hfirst, hrest⟩ := List.pairwise_cons.mp hord
    rw [sentLens_cons_of_xmit l hfront] at hle ⊢
    split
    · next hlt =>
      have hsub := UInt32.toNat_sub_of_le _ _ (UInt32.le_of_lt hlt)
      rw [UInt32.lt_iff_toNat_lt] at hlt
      refine ⟨?_, ?_, ?_, List.pairwise_cons.mpr ⟨hfirst, hrest⟩⟩
      · rw [lens_cons, lens_cons, hsub]
        omega
      · rw [sentLens_cons_of_xmit (g := { front with len := front.len - n }) l hfront, hsub]
        omega
      · rw [fresh_cons_of_xmit (g := { front with len := front.len - n }) l hfront,
          fresh_cons_of_xmit l hfront]
    next hge =>
    have hge' := UInt32.le_iff_toNat_le.mp (UInt32.not_lt.mp hge)
    have hsub := UInt32.toNat_sub_of_le _ _ (UInt32.not_lt.mp hge)
    obtain ⟨hlens, hsent, hfresh, hord'⟩ := ih (n := n - front.len) (max largest front.len)
      hrest (by rw [hsub]; omega)
    refine ⟨?_, ?_, ?_, hord'⟩
    · rw [lens_cons]
      omega
    · omega
    · rw [hfresh, fresh_cons_of_xmit l hfront]

/-! ### The invariant -/

namespace SendState

/-- The counts of the sending side are consistent. -/
structure Counted (x : SendState) : Prop where
  /-- The ring is well formed. -/
  sbuf : x.sbuf.WellFormed
  /-- Its length is a 32-bit number. -/
  cap : x.sbuf.bufferLength < 2 ^ 32
  /-- The segments are together as long as what is buffered. -/
  lens : lens x.slist = x.sbuf.dataLength
  /-- The transmitted ones are together as long as what is in flight. -/
  sent : (x.sndNxt - x.sndUna).toNat = sentLens x.slist
  /-- Transmitted segments come first. -/
  order : SentFirst x.slist

variable {x y : SendState}

theorem Counted.lens_lt (h : x.Counted) : Synciga.lens x.slist < 2 ^ 32 := by
  rw [h.lens]
  exact h.sbuf.data_le.trans_lt h.cap

theorem Counted.inFlight_iff (h : x.Counted) : x.sndUna ≠ x.sndNxt ↔ sentLens x.slist ≠ 0 := by
  rw [← h.sent, not_iff_not]
  constructor
  · intro heq
    rw [heq, UInt32.sub_self]
    rfl
  · intro hz
    have hsub : x.sndNxt - x.sndUna = 0 := UInt32.toNat_inj.mp hz
    grind

theorem Counted.marked (h : x.Counted) {l₁ l₂ : List SSegment} {g : SSegment} {n : UInt32}
    (hl : x.slist = l₁ ++ g :: l₂) (hsent : ∀ b ∈ l₁, b.xmit ≠ 0) (hcount : g.xmit + 1 ≠ 0)
    (hle : n ≤ g.len) (rtoBase : UInt32) :
    { x with
      slist := l₁ ++ (PseudoTcp.sentPart g n :: PseudoTcp.restPart g n) ++ l₂
      sndNxt := if g.xmit = 0 then x.sndNxt + n else x.sndNxt
      rtoBase := rtoBase }.Counted := by
  have hlens := PseudoTcp.lens_restPart hle
  have hrest : ∀ b ∈ PseudoTcp.restPart g n, b.xmit = g.xmit :=
    fun b hb => (PseudoTcp.xmit_of_mem_restPart hb).1
  have hsame : Synciga.lens (l₁ ++ (PseudoTcp.sentPart g n :: PseudoTcp.restPart g n) ++ l₂) =
      Synciga.lens x.slist := by
    rw [hl, lens_append, lens_append, lens_append, lens_cons, lens_cons]
    change _ + (n.toNat + _) + _ = _
    omega
  have hmore : sentLens (l₁ ++ (PseudoTcp.sentPart g n :: PseudoTcp.restPart g n) ++ l₂) =
      sentLens x.slist + if g.xmit = 0 then n.toNat else 0 := by
    rw [hl]
    exact sentLens_transmit (a := PseudoTcp.sentPart g n) hcount hrest hlens
  refine ⟨h.sbuf, h.cap, hsame.trans h.lens, ?_, ?_⟩
  · -- The bytes in flight stay below the length of the ring, so the sum does not wrap.
    have hbound := sentLens_le_lens
      (l₁ ++ (PseudoTcp.sentPart g n :: PseudoTcp.restPart g n) ++ l₂)
    have hlt := h.lens_lt
    change ((if g.xmit = 0 then x.sndNxt + n else x.sndNxt) - x.sndUna).toNat = sentLens _
    by_cases hg : g.xmit = 0
    · rw [if_pos hg] at hmore ⊢
      have hsum : x.sndNxt + n - x.sndUna = x.sndNxt - x.sndUna + n := by grind
      rw [hsum, UInt32.toNat_add, h.sent, hmore, Nat.mod_eq_of_lt (by omega)]
    · rw [if_neg hg] at hmore ⊢
      rw [h.sent, hmore, Nat.add_zero]
  · exact (hl ▸ h.order : SentFirst (l₁ ++ g :: l₂)).transmit hsent hcount hrest

theorem Counted.queued (h : x.Counted) {data : List UInt8} {len : UInt32} {bCtrl : Bool}
    {l : List SSegment} (hlen : len.toNat = data.length)
    (hfit : data.length ≤ x.sbuf.getWriteRemaining) (hl : Queued len bCtrl x.slist l)
    (state : TcpState) :
    { x with state := state, slist := l, sbuf := (x.sbuf.write data).2.2 }.Counted := by
  obtain ⟨-, hcontents, hcap, hwf⟩ := FifoBuffer.write_eq h.sbuf data
  have hroom : x.sbuf.getWriteRemaining = x.sbuf.bufferLength - x.sbuf.dataLength := rfl
  have hdata := h.sbuf.data_le
  have hlt := h.cap
  have hbuffered : (x.sbuf.write data).2.2.dataLength = x.sbuf.dataLength + data.length := by
    rw [← FifoBuffer.length_contents, hcontents, List.length_append, FifoBuffer.length_contents,
      List.length_take, Nat.min_eq_right hfit]
  obtain ⟨hsent, hord⟩ := hl.sent h.order
  refine ⟨hwf, ?_, ?_, ?_, hord⟩
  · change (x.sbuf.write data).2.2.bufferLength < 2 ^ 32
    rw [hcap]
    exact h.cap
  · change Synciga.lens l = (x.sbuf.write data).2.2.dataLength
    rw [hl.lens_eq (by rw [h.lens]; omega), h.lens, hbuffered, hlen]
  · change (x.sndNxt - x.sndUna).toNat = sentLens l
    rw [hsent]
    exact h.sent

theorem Counted.acked_le (h : x.Counted) {ack : UInt32} (hlt : x.sndUna < ack)
    (hle : ack ≤ x.sndNxt) : (ack - x.sndUna).toNat ≤ sentLens x.slist ∧
      (x.sndNxt - ack).toNat + (ack - x.sndUna).toNat = (x.sndNxt - x.sndUna).toNat ∧
      x.sndUna.toNat + (ack - x.sndUna).toNat = ack.toNat := by
  have hlt' := UInt32.lt_iff_toNat_lt.mp hlt
  have hle' := UInt32.le_iff_toNat_le.mp hle
  have h₁ := UInt32.toNat_sub_of_le _ _ (UInt32.le_of_lt hlt)
  have h₂ := UInt32.toNat_sub_of_le _ _ hle
  have h₃ := UInt32.toNat_sub_of_le _ _ (UInt32.le_trans (UInt32.le_of_lt hlt) hle)
  have hsent := h.sent
  omega

theorem Counted.accept (h : x.Counted) {ack : UInt32} (hlt : x.sndUna < ack)
    (hle : ack ≤ x.sndNxt) (largest rtoBase : UInt32) :
    { x with
      sndUna := ack
      rtoBase := rtoBase
      sbuf := x.sbuf.consumeReadData (ack - x.sndUna).toNat
      slist := (PseudoTcp.freeAcked (ack - x.sndUna) largest x.slist).2 }.Counted := by
  obtain ⟨hacked, hflight, -⟩ := h.acked_le hlt hle
  obtain ⟨hlens, hsent, -, hord⟩ := freeAcked_spec largest h.order hacked
  refine ⟨FifoBuffer.wellFormed_consumeReadData h.sbuf _, ?_, ?_, ?_, hord⟩
  · change (x.sbuf.consumeReadData _).bufferLength < 2 ^ 32
    rw [FifoBuffer.consumeReadData_bufferLength]
    exact h.cap
  · change Synciga.lens (PseudoTcp.freeAcked _ _ _).2 = (x.sbuf.consumeReadData _).dataLength
    rw [FifoBuffer.consumeReadData_dataLength, ← h.lens]
    omega
  · change (x.sndNxt - ack).toNat = sentLens (PseudoTcp.freeAcked _ _ _).2
    have hsent' := h.sent
    omega

theorem Counted.step {clock : UInt32 → Prop} {resizable : SendState → Prop} (h : x.Counted)
    (hstep : SendStep clock resizable x y) : y.Counted := by
  cases hstep with
  | transmit l₁ g l₂ n now hl hsent hfresh havailable hle hne hnow =>
    have hcount : g.xmit + 1 ≠ 0 := by
      rw [hfresh]
      decide
    have hmarked := h.marked hl hsent hcount hle (if x.rtoBase = 0 then now else x.rtoBase)
    rw [if_pos hfresh] at hmarked
    exact hmarked
  | retransmit g l n now hl hcount hwhy hle hnow =>
    have hnone : ∀ b ∈ ([] : List SSegment), b.xmit ≠ 0 := by
      intro b hb
      cases hb
    exact h.marked hl hnone hcount hle _
  | cut l₁ g l₂ n hl hfresh hne hlt =>
    have hord : SentFirst (l₁ ++ g :: l₂) := hl ▸ h.order
    obtain ⟨hord', hsent⟩ := hord.replace_fresh hfresh
      [{ g with len := n }, SSegment.new (g.seq + n) (g.len - n) g.bCtrl] fun b hb => by
        rcases List.mem_cons.mp hb with rfl | hb
        · exact hfresh
        · rw [List.mem_singleton.mp hb]
          rfl
    refine ⟨h.sbuf, h.cap, ?_, ?_, hord'⟩
    · have hsub := UInt32.toNat_sub_of_le _ _ (UInt32.le_of_lt hlt)
      have hlt' := UInt32.lt_iff_toNat_lt.mp hlt
      have hlens := h.lens
      rw [hl, lens_append, lens_cons] at hlens
      change Synciga.lens (l₁ ++ _ ++ l₂) = x.sbuf.dataLength
      rw [lens_append, lens_append, lens_cons, lens_cons, lens_nil]
      change _ + (n.toNat + ((g.len - n).toNat + 0)) + _ = _
      omega
    · change (x.sndNxt - x.sndUna).toNat = sentLens _
      rw [hsent, ← hl]
      exact h.sent
  | send data len l hstate hroom hlen hfit hl => exact h.queued hlen hfit hl x.state
  | connect state data len l hlisten hstate hlen hfit hempty hl => exact h.queued hlen hfit hl state
  | establish hstate => exact ⟨h.sbuf, h.cap, h.lens, h.sent, h.order⟩
  | accept ack now largest hopen hlt hle hnow => exact h.accept hlt hle largest _
  | forget => exact ⟨h.sbuf, h.cap, h.lens, h.sent, h.order⟩
  | duplicate hthird => exact ⟨h.sbuf, h.cap, h.lens, h.sent, h.order⟩
  | third hthird => exact ⟨h.sbuf, h.cap, h.lens, h.sent, h.order⟩
  | restart now hrun hnow => exact ⟨h.sbuf, h.cap, h.lens, h.sent, h.order⟩
  | close dupAcks => exact ⟨h.sbuf, h.cap, h.lens, h.sent, h.order⟩
  | resize fresh size hsize hok =>
    refine ⟨FifoBuffer.wellFormed_setCapacity h.sbuf _ _, ?_, ?_, h.sent, h.order⟩
    · exact (FifoBuffer.setCapacity_bufferLength_le _ _ _).trans_lt (max_lt h.cap hsize)
    · change Synciga.lens x.slist = (x.sbuf.setCapacity fresh size).2.dataLength
      rw [FifoBuffer.setCapacity_dataLength]
      exact h.lens

end SendState

namespace PseudoTcp

variable (env : Env) {s : PseudoTcp}

theorem counted_new (conv : UInt32) : (new env conv).sendState.Counted :=
  ⟨FifoBuffer.wellFormed_new _ _, UInt32.toNat_lt _, rfl,
    show ((0 : UInt32) - 0).toNat = 0 by decide, List.Pairwise.nil⟩

theorem counted_of_run {conv : UInt32} {calls : List Call}
    (hrun : Runs.run (call env) (new env conv) calls = some s) : s.sendState.Counted := by
  have hfits : Runs.Admissible (call env)
      (fun s c => c.Fits (fun _ => True) (fun _ => True) s) (new env conv) calls := by
    refine Runs.admissible_of_forall ?_ _ _
    intro s c
    cases c with
    | setOption opt value => cases opt <;> trivial
    | _ => trivial
  exact sendState_induction env (fun _ => trivial) (fun _ h => h.cap) (fun _ _ h => h.step)
    (counted_new env conv) hfits hrun

/-! ### The sending loops -/

theorem exists_fresh_of_sendable (h : s.sendState.Counted) (hsend : s.sendable ≠ 0) :
    ∃ i, s.slist.findIdx? (fun seg => seg.xmit = 0) = some i := by
  by_contra hnone
  have hall : ∀ g ∈ s.slist, g.xmit ≠ 0 := by
    rw [← Option.ne_none_iff_exists'] at hnone
    simpa [List.findIdx?_eq_none_iff] using hnone
  refine hsend (sendable_of_all_inFlight ?_)
  -- If every segment has been transmitted, everything buffered is in flight.
  have hflight : (s.sndNxt - s.sndUna).toNat = s.sbuf.dataLength := by
    refine h.sent.trans (Eq.trans ?_ h.lens)
    have hsplit := lens_eq_add_fresh s.slist
    rw [fresh_of_all_sent hall, lens_nil, Nat.add_zero] at hsplit
    exact hsplit.symm
  rw [← UInt32.toNat_inj, hflight, UInt32.toNat_ofNat']
  exact Nat.mod_eq_of_lt (h.sbuf.data_le.trans_lt h.cap)

/-- The counts are consistent, the loops stay in the list, and they end. -/
structure SendingEnds (s : PseudoTcp) : Prop where
  lens : lens s.slist = s.sbuf.getBuffered
  order : SentFirst s.slist
  sent : (s.sndNxt - s.sndUna).toNat = sentLens s.slist
  le : sentLens s.slist ≤ s.sbuf.getBuffered
  /-- The search for a fresh segment does not reach the end of the list. -/
  found : s.sendable ≠ 0 → ∃ i, s.slist.findIdx? (fun seg => seg.xmit = 0) = some i
  /-- No loop has an endless run from here. -/
  rounds : ∀ now, Acc (AttemptSendRound env now) s
  retries : ∀ seg nTransmit, Acc (TransmitRound env seg) (nTransmit, s)
  sizes : ∀ nTransmit, Acc (LowerMssRound nTransmit) s
  /-- The bounds on the rounds are never reached. -/
  attemptSend : ∀ now sflags extra,
    attemptSendLoop env now (2 * s.sbuf.getBuffered + s.slist.length + 1 + extra) sflags s =
      attemptSendLoop env now (2 * s.sbuf.getBuffered + s.slist.length + 1) sflags s
  transmit : ∀ seg nTransmit extra,
    transmitLoop env seg (PACKET_MAXIMUMS.length + extra) nTransmit s =
      transmitLoop env seg PACKET_MAXIMUMS.length nTransmit s

/-- **The sending loops end.** After every run, and wherever the elementary steps of another call lead to. -/
theorem sendingEnds_of_run (conv : UInt32) (calls : List Call) (s t : PseudoTcp)
    (hrun : Runs.run (call env) (new env conv) calls = some s)
    (hsteps : Steps (fun _ => True) (fun _ => True) s t) : t.SendingEnds env := by
  have hcounts : t.sendState.Counted :=
    hsteps.invariant (fun _ _ h => h.step) (counted_of_run env hrun)
  have hlens : Synciga.lens t.slist = t.sbuf.getBuffered := hcounts.lens
  have hwork := freshWork_le t.slist
  exact {
    lens := hlens
    order := hcounts.order
    sent := hcounts.sent
    le := hlens ▸ sentLens_le_lens t.slist
    found := exists_fresh_of_sendable hcounts
    rounds := fun now => (wellFounded_attemptSendRound env now).apply t
    retries := fun seg nTransmit => (wellFounded_transmitRound env seg).apply (nTransmit, t)
    sizes := fun nTransmit => (wellFounded_lowerMssRound nTransmit).apply t
    attemptSend := fun now sflags => attemptSendLoop_of_le env now sflags (by omega)
    transmit := fun seg nTransmit =>
      transmitLoop_of_le env seg nTransmit (by decide) (Nat.le_add_left _ _) }

/-- Ten bytes are sent and acknowledged. -/
theorem sendingEnds_tenBytes :
    ∃ s, Runs.run (call quietEnv) (new quietEnv 7) (ackRun 14) = some s ∧ s.SendingEnds quietEnv :=
  ⟨_, rfl, sendingEnds_of_run quietEnv 7 (ackRun 14) _ _ rfl (.of_eq rfl)⟩

end PseudoTcp

end Synciga
