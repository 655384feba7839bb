import Synciga.PseudoTcp.SendCounts

/-!
# The retransmission timer

`m_rto_base` is set and cleared in `transmit`, in `NotifyClock` and in two branches for acknowledgments. A fresh
segment without bytes stays at the end of the list, where `attemptSend` does not come unless there are bytes
behind `m_snd_nxt`; the NewReno branch does not look whether anything is in flight, but `m_snd_nxt` has reached
`m_recover` before. `SetOption` asserts that the send buffer is resized in `TCP_LISTEN` only, on which the
result rests.

## Main definitions

* `Timely` — no reading of the clock is `0`, "no timer", and the send buffer is resized early

## Main results

* `timer_of_run` — the timer runs exactly while bytes are in flight
-/

namespace Synciga

/-! ### Segments without bytes -/

/-- Every segment but the last has bytes. -/
def Filled (l : List SSegment) : Prop := ∀ g ∈ l.dropLast, g.len ≠ 0

theorem Filled.append {l₁ l₂ : List SSegment} (h₁ : ∀ g ∈ l₁, g.len ≠ 0) (h₂ : Filled l₂) :
    Filled (l₁ ++ l₂) := by
  intro g hg
  by_cases hnil : l₂ = []
  · rw [hnil, List.append_nil] at hg
    exact h₁ g (List.dropLast_subset _ hg)
  · rw [List.dropLast_append_of_ne_nil hnil] at hg
    rcases List.mem_append.mp hg with hmem | hmem
    · exact h₁ g hmem
    · exact h₂ g hmem

theorem Filled.split {k l : List SSegment} (h : Filled (k ++ l)) :
    (l ≠ [] → ∀ g ∈ k, g.len ≠ 0) ∧ Filled l := by
  constructor
  · intro hne g hg
    refine h g ?_
    rw [List.dropLast_append_of_ne_nil hne]
    exact List.mem_append_left _ hg
  intro g hg
  refine h g ?_
  rw [List.dropLast_append_of_ne_nil]
  · exact List.mem_append_right _ hg
  · intro hnil
    rw [hnil] at hg
    cases hg

namespace SendState

/-- The timer runs exactly while bytes are in flight, together with what this rests on. -/
structure Timed (x : SendState) : Prop extends x.Counted where
  /-- Nothing is queued in `TCP_LISTEN`. -/
  listen : x.state = .listen → x.slist = []
  /-- Only the last fresh segment can be without bytes. -/
  filled : Filled (fresh x.slist)
  /-- A fresh control segment is without bytes only if there is no room at all. -/
  control : ∀ g ∈ fresh x.slist, g.bCtrl = true → g.len = 0 → x.sbuf.bufferLength = 0
  /-- During recovery `m_recover` is a position that `m_snd_nxt` has passed. -/
  recover : x.state ≠ .closed → 3 ≤ x.dupAcks →
    ∃ r, r ≤ x.sndUna.toNat + (x.sndNxt - x.sndUna).toNat ∧ UInt32.ofNat r = x.recover
  /-- The timer. -/
  timer : x.state ≠ .closed → (x.rtoBase ≠ 0 ↔ x.sndUna ≠ x.sndNxt)

variable {x y : SendState}

/-! ### What is outstanding has been transmitted -/

theorem Timed.inFlight (h : x.Timed) (hwhy : x.Outstanding) : x.sndUna ≠ x.sndNxt := by
  obtain ⟨hopen, hrto | hflight | ⟨hdup, hlt⟩⟩ := hwhy
  · exact (h.timer hopen).mp hrto
  · exact hflight
  intro heq
  obtain ⟨r, hr, hrecover⟩ := h.recover hopen hdup
  rw [heq, UInt32.sub_self] at hr
  have hzero : (0 : UInt32).toNat = 0 := rfl
  have hsmall : r < 2 ^ 32 := by
    have := UInt32.toNat_lt x.sndNxt
    omega
  have hval : x.recover.toNat = r := by
    rw [← hrecover, UInt32.toNat_ofNat', Nat.mod_eq_of_lt hsmall]
  rw [UInt32.lt_iff_toNat_lt, heq] at hlt
  omega

theorem Timed.head_sent (h : x.Timed) (hwhy : x.Outstanding) :
    ∃ g l, x.slist = g :: l ∧ g.xmit ≠ 0 := by
  have hsent : sentLens x.slist ≠ 0 := h.inFlight_iff.mp (h.inFlight hwhy)
  have hord := h.order
  rcases hl : x.slist with _ | ⟨g, l⟩
  · rw [hl] at hsent
    exact absurd rfl hsent
  · rw [hl] at hsent hord
    exact ⟨g, l, rfl, hord.xmit_head hsent⟩

/-! ### Every step keeps the invariant -/

variable {g : SSegment} {l₁ l₂ : List SSegment}

theorem Timed.first_fresh (h : x.Timed)
    (hl : x.slist = l₁ ++ g :: l₂) (hsent : ∀ b ∈ l₁, b.xmit ≠ 0) (hfresh : g.xmit = 0)
    (havailable : UInt32.ofNat x.sbuf.dataLength ≠ x.sndNxt - x.sndUna) : g.len ≠ 0 := by
  have hlist : fresh x.slist = g :: fresh l₂ := by
    rw [hl, fresh_append, fresh_of_all_sent hsent, fresh_cons_of_fresh _ hfresh, List.nil_append]
  by_cases hlast : fresh l₂ = []
  · intro hz
    refine havailable ?_
    have hlens := lens_eq_add_fresh x.slist
    rw [hlist, hlast, lens_cons, lens_nil, hz, h.lens, ← h.sent] at hlens
    have hzero : (0 : UInt32).toNat = 0 := rfl
    rw [hlens, hzero, Nat.add_zero, UInt32.ofNat_toNat]
  · have hfilled := h.filled
    rw [hlist] at hfilled
    exact (Filled.split (k := [g]) hfilled).1 hlast g List.mem_cons_self

theorem Timed.transmit (h : x.Timed) {n now : UInt32}
    (hl : x.slist = l₁ ++ g :: l₂) (hsent : ∀ b ∈ l₁, b.xmit ≠ 0) (hfresh : g.xmit = 0)
    (hn : n ≠ 0) (hnow : now ≠ 0)
    (hy : y = { x with
      slist := l₁ ++ (PseudoTcp.sentPart g n :: PseudoTcp.restPart g n) ++ l₂
      sndNxt := x.sndNxt + n
      rtoBase := if x.rtoBase = 0 then now else x.rtoBase }) (hcounted : y.Counted) :
    y.Timed := by
  have hcount : (PseudoTcp.sentPart g n).xmit ≠ 0 := by
    change g.xmit + 1 ≠ 0
    rw [hfresh]
    decide
  have hrest : fresh (PseudoTcp.restPart g n) = PseudoTcp.restPart g n :=
    fresh_of_all_fresh fun b hb => (PseudoTcp.xmit_of_mem_restPart hb).1.trans hfresh
  have hbefore : fresh x.slist = g :: fresh l₂ := by
    rw [hl, fresh_append, fresh_of_all_sent hsent, fresh_cons_of_fresh _ hfresh, List.nil_append]
  have hafter : fresh y.slist = PseudoTcp.restPart g n ++ fresh l₂ := by
    rw [hy]
    change fresh (l₁ ++ (PseudoTcp.sentPart g n :: PseudoTcp.restPart g n) ++ l₂) = _
    rw [fresh_append, fresh_append, fresh_of_all_sent hsent, fresh_cons_of_xmit _ hcount, hrest,
      List.nil_append]
  -- More is in flight than before.
  have hmore : (x.sndNxt - x.sndUna).toNat + n.toNat = (y.sndNxt - y.sndUna).toNat := by
    rw [hcounted.sent, h.sent, hl, hy]
    change _ = sentLens (l₁ ++ (PseudoTcp.sentPart g n :: PseudoTcp.restPart g n) ++ l₂)
    have hzero : sentLens (PseudoTcp.restPart g n) = 0 := sentLens_of_all_fresh fun b hb =>
      (PseudoTcp.xmit_of_mem_restPart hb).1.trans hfresh
    rw [sentLens_append, sentLens_append, sentLens_append, sentLens_cons_of_xmit _ hcount,
      sentLens_cons_of_fresh _ hfresh, hzero]
    change _ = _ + (n.toNat + 0) + _
    omega
  have hnpos : n.toNat ≠ 0 := fun hz => hn (UInt32.toNat_inj.mp hz)
  refine ⟨hcounted, ?_, ?_, ?_, ?_, ?_⟩
  · intro hlisten
    rw [hy] at hlisten
    have hnil := h.listen hlisten
    rw [hl] at hnil
    exact absurd hnil (by simp)
  · rw [hafter]
    have hfilled := h.filled
    rw [hbefore] at hfilled
    exact .append (fun b hb => (PseudoTcp.xmit_of_mem_restPart hb).2)
      (Filled.split (k := [g]) hfilled).2
  · rw [hafter]
    intro b hb hctrl hz
    rcases List.mem_append.mp hb with hmem | hmem
    · exact absurd hz (PseudoTcp.xmit_of_mem_restPart hmem).2
    · have hcap := h.control b (by rw [hbefore]; exact List.mem_cons_of_mem _ hmem) hctrl hz
      rw [hy]
      exact hcap
  · intro hopen hdup
    rw [hy] at hopen hdup
    obtain ⟨r, hr, hrecover⟩ := h.recover hopen hdup
    refine ⟨r, ?_, ?_⟩
    · have huna : y.sndUna = x.sndUna := by rw [hy]
      rw [← hmore, huna]
      omega
    · rw [hy]
      exact hrecover
  intro _
  refine iff_of_true ?_ ?_
  · rw [hy]
    change (if x.rtoBase = 0 then now else x.rtoBase) ≠ 0
    split
    · exact hnow
    · next hne => exact hne
  · rw [hcounted.inFlight_iff, ← hcounted.sent, ← hmore]
    omega

variable {l : List SSegment}

theorem Timed.retransmit (h : x.Timed) {n now : UInt32}
    (hl : x.slist = g :: l) (hcount : g.xmit + 1 ≠ 0) (hwhy : x.Outstanding) (hnow : now ≠ 0)
    (hy : y = { x with
      slist := PseudoTcp.sentPart g n :: PseudoTcp.restPart g n ++ l
      sndNxt := if g.xmit = 0 then x.sndNxt + n else x.sndNxt
      rtoBase := if x.rtoBase = 0 then now else x.rtoBase }) (hcounted : y.Counted) :
    y.Timed := by
  obtain ⟨g', l', hl', hsent⟩ := h.head_sent hwhy
  obtain ⟨rfl, rfl⟩ := List.cons.inj (hl'.symm.trans hl)
  rw [if_neg hsent] at hy
  have hafter : fresh y.slist = fresh x.slist := by
    rw [hy, hl]
    change fresh (PseudoTcp.sentPart g' n :: PseudoTcp.restPart g' n ++ l') = _
    have hrest : fresh (PseudoTcp.restPart g' n) = [] := fresh_of_all_sent fun b hb => by
      rw [(PseudoTcp.xmit_of_mem_restPart hb).1]
      exact hsent
    have hmark : (PseudoTcp.sentPart g' n).xmit ≠ 0 := hcount
    rw [fresh_append, fresh_cons_of_xmit _ hmark, hrest, fresh_cons_of_xmit _ hsent,
      List.nil_append]
  refine ⟨hcounted, ?_, ?_, ?_, ?_, ?_⟩
  · intro hlisten
    rw [hy] at hlisten
    have hnil := h.listen hlisten
    rw [hl] at hnil
    cases hnil
  · rw [hafter]
    exact h.filled
  · rw [hafter]
    intro b hb hctrl hz
    rw [hy]
    exact h.control b hb hctrl hz
  · intro hopen hdup
    rw [hy] at hopen hdup ⊢
    exact h.recover hopen hdup
  intro _
  have hflight := h.inFlight hwhy
  rw [hy]
  refine iff_of_true ?_ hflight
  change (if x.rtoBase = 0 then now else x.rtoBase) ≠ 0
  split
  · exact hnow
  · next hne => exact hne

theorem Timed.cut (h : x.Timed) {n : UInt32}
    (hl : x.slist = l₁ ++ g :: l₂) (hfresh : g.xmit = 0) (hne : n ≠ 0) (hlt : n < g.len)
    (hy : y = { x with
      slist := l₁ ++ [{ g with len := n }, SSegment.new (g.seq + n) (g.len - n) g.bCtrl] ++ l₂ })
    (hcounted : y.Counted) : y.Timed := by
  have hsub : g.len - n ≠ 0 := by
    intro hz
    have hz' : (g.len - n).toNat = 0 := congrArg UInt32.toNat hz
    rw [UInt32.toNat_sub_of_le _ _ (UInt32.le_of_lt hlt)] at hz'
    rw [UInt32.lt_iff_toNat_lt] at hlt
    omega
  have hparts : ∀ b ∈ [{ g with len := n }, SSegment.new (g.seq + n) (g.len - n) g.bCtrl],
      b.xmit = 0 ∧ b.len ≠ 0 := by
    intro b hb
    rcases List.mem_cons.mp hb with rfl | hb
    · exact ⟨hfresh, hne⟩
    · rw [List.mem_singleton.mp hb]
      exact ⟨rfl, hsub⟩
  have hbefore : fresh x.slist = fresh l₁ ++ g :: fresh l₂ := by
    rw [hl, fresh_append, fresh_cons_of_fresh _ hfresh]
  have hafter : fresh y.slist = fresh l₁ ++
      ([{ g with len := n }, SSegment.new (g.seq + n) (g.len - n) g.bCtrl] ++ fresh l₂) := by
    rw [hy]
    change fresh (l₁ ++ [{ g with len := n }, SSegment.new (g.seq + n) (g.len - n) g.bCtrl] ++ l₂) = _
    rw [fresh_append, fresh_append, fresh_of_all_fresh fun b hb => (hparts b hb).1,
      List.append_assoc]
  refine ⟨hcounted, ?_, ?_, ?_, ?_, ?_⟩
  · intro hlisten
    rw [hy] at hlisten
    have hnil := h.listen hlisten
    rw [hl] at hnil
    exact absurd hnil (by simp)
  · rw [hafter]
    have hfilled := h.filled
    rw [hbefore] at hfilled
    refine .append (hfilled.split.1 (List.cons_ne_nil _ _)) ?_
    exact .append (fun b hb => (hparts b hb).2) (Filled.split (k := [g]) hfilled.split.2).2
  · rw [hafter]
    intro b hb hctrl hz
    rw [hy]
    rcases List.mem_append.mp hb with hmem | hmem
    · exact h.control b (by rw [hbefore]; exact List.mem_append_left _ hmem) hctrl hz
    rcases List.mem_append.mp hmem with hmem | hmem
    · exact absurd hz (hparts b hmem).2
    · refine h.control b ?_ hctrl hz
      rw [hbefore]
      exact List.mem_append_right _ (List.mem_cons_of_mem _ hmem)
  · intro hopen hdup
    rw [hy] at hopen hdup ⊢
    exact h.recover hopen hdup
  · intro hopen
    rw [hy] at hopen ⊢
    exact h.timer hopen

theorem Timed.send (h : x.Timed) {data : List UInt8} {len : UInt32}
    (hstate : x.state = .established) (hroom : x.sbuf.getWriteRemaining ≠ 0)
    (hl : Queued len false x.slist l)
    (hy : y = { x with slist := l, sbuf := (x.sbuf.write data).2.2 }) (hcounted : y.Counted) :
    y.Timed := by
  have hcap : y.sbuf.bufferLength = x.sbuf.bufferLength := by
    rw [hy]
    exact (FifoBuffer.write_eq h.sbuf data).2.2.1
  have hbuffer : x.sbuf.bufferLength ≠ 0 := by
    intro hz
    rw [FifoBuffer.getWriteRemaining, hz, Nat.zero_sub] at hroom
    exact hroom rfl
  have hlist : Filled (fresh l) ∧ ∀ b ∈ fresh l, b.bCtrl = true → b.len = 0 → x.sbuf.bufferLength = 0 := by
    have hfilled := h.filled
    have hcontrol := h.control
    have hord := h.order
    generalize x.slist = k at hl hfilled hcontrol hord
    cases hl with
    | push _ seq hlast =>
      have hnew : fresh [SSegment.new seq len false] = [SSegment.new seq len false] :=
        fresh_of_all_fresh fun b hb => by rw [List.mem_singleton.mp hb]; rfl
      rw [fresh_append, hnew]
      refine ⟨.append ?_ (fun b hb => by cases hb), ?_⟩
      · -- The last fresh segment is a control segment, since the new one did not join it.
        intro b hb
        obtain ⟨k₁, hk, -⟩ := hord.fresh_eq
        rcases List.eq_nil_or_concat (fresh k) with hnil | ⟨init, last, hconcat⟩
        · rw [hnil] at hb
          cases hb
        rw [List.concat_eq_append] at hconcat
        rw [hconcat] at hb hfilled
        rcases List.mem_append.mp hb with hmem | hmem
        · exact hfilled.split.1 (List.cons_ne_nil _ _) b hmem
        rw [List.mem_singleton.mp hmem]
        intro hz
        have hmem' : last ∈ fresh k := by
          rw [hconcat]
          exact List.mem_append_right _ List.mem_cons_self
        have hfresh : last.xmit = 0 := of_decide_eq_true (List.mem_filter.mp hmem').2
        have hback : k.getLast? = some last := by
          rw [hk, hconcat, ← List.append_assoc, List.getLast?_concat]
        have hctrl : last.bCtrl = true := by
          by_contra hdata
          exact hlast last hback ⟨Bool.eq_false_iff.mpr hdata, hfresh⟩
        exact hbuffer (hcontrol last hmem' hctrl hz)
      · intro b hb hctrl hz
        rcases List.mem_append.mp hb with hmem | hmem
        · exact hcontrol b hmem hctrl hz
        · rw [List.mem_singleton.mp hmem] at hctrl
          cases hctrl
    | extend init back hctrl hback =>
      have hold : fresh [back] = [back] :=
        fresh_of_all_fresh fun b hb => by rw [List.mem_singleton.mp hb]; exact hback
      have hnew : fresh [{ back with len := back.len + len }] = [{ back with len := back.len + len }] :=
        fresh_of_all_fresh fun b hb => by rw [List.mem_singleton.mp hb]; exact hback
      rw [fresh_append, hold] at hfilled hcontrol
      rw [fresh_append, hnew]
      refine ⟨.append (hfilled.split.1 (List.cons_ne_nil _ _)) (fun b hb => by cases hb), ?_⟩
      intro b hb hctrl' hz
      rcases List.mem_append.mp hb with hmem | hmem
      · exact hcontrol b (List.mem_append_left _ hmem) hctrl' hz
      · rw [List.mem_singleton.mp hmem] at hctrl'
        exact absurd (hctrl.symm.trans hctrl') (by decide)
  refine ⟨hcounted, ?_, ?_, ?_, ?_, ?_⟩
  · intro hlisten
    rw [hy] at hlisten
    exact absurd (hstate.symm.trans hlisten) (by decide)
  · rw [hy]
    exact hlist.1
  · rw [hcap]
    intro b hb
    rw [hy] at hb
    exact hlist.2 b hb
  · intro hopen hdup
    rw [hy] at hopen hdup ⊢
    exact h.recover hopen hdup
  · intro hopen
    rw [hy] at hopen ⊢
    exact h.timer hopen

theorem Timed.connect (h : x.Timed) {state : TcpState} {data : List UInt8} {len : UInt32}
    (hlisten : x.state = .listen)
    (hstate : state = .synSent ∨ state = .synReceived)
    (hempty : len = 0 → x.sbuf.getWriteRemaining = 0) (hl : Queued len true x.slist l)
    (hy : y = { x with state := state, slist := l, sbuf := (x.sbuf.write data).2.2 })
    (hcounted : y.Counted) : y.Timed := by
  have hnil := h.listen hlisten
  have hopen : x.state ≠ .closed := by
    rw [hlisten]
    decide
  obtain ⟨seq, hlist⟩ : ∃ seq, l = [SSegment.new seq len true] := by
    rw [hnil] at hl
    generalize hk : ([] : List SSegment) = k at hl
    cases hl with
    | push _ seq _ => exact ⟨seq, by rw [← hk]; rfl⟩
    | extend init back _ _ => exact absurd hk (by simp)
  have hfresh : fresh l = [SSegment.new seq len true] := by
    rw [hlist]
    exact fresh_of_all_fresh fun b hb => by rw [List.mem_singleton.mp hb]; rfl
  refine ⟨hcounted, ?_, ?_, ?_, ?_, ?_⟩
  · intro hagain
    rw [hy] at hagain
    rcases hstate with rfl | rfl <;> cases hagain
  · rw [hy]
    change Filled (fresh l)
    rw [hfresh]
    intro b hb
    cases hb
  · rw [hy]
    change ∀ g ∈ fresh l, _ → _ → (x.sbuf.write data).2.2.bufferLength = 0
    rw [hfresh, (FifoBuffer.write_eq h.sbuf data).2.2.1]
    intro b hb _ hz
    rw [List.mem_singleton.mp hb] at hz
    have hroom := hempty hz
    have hlens := h.lens
    rw [hnil, lens_nil] at hlens
    rw [FifoBuffer.getWriteRemaining, ← hlens, Nat.sub_zero] at hroom
    exact hroom
  · intro _ hdup
    rw [hy] at hdup ⊢
    exact h.recover hopen hdup
  · intro _
    rw [hy]
    exact h.timer hopen

theorem Timed.accept (h : x.Timed) {ack now largest : UInt32} (hopen : x.state ≠ .closed)
    (hlt : x.sndUna < ack) (hle : ack ≤ x.sndNxt) (hnow : now ≠ 0)
    (hy : y = { x with
      sndUna := ack
      rtoBase := if ack = x.sndNxt then 0 else now
      sbuf := x.sbuf.consumeReadData (ack - x.sndUna).toNat
      slist := (PseudoTcp.freeAcked (ack - x.sndUna) largest x.slist).2 })
    (hcounted : y.Counted) : y.Timed := by
  obtain ⟨hacked, hflight, hsum⟩ := h.acked_le hlt hle
  have hfresh : fresh y.slist = fresh x.slist := by
    rw [hy]
    exact (freeAcked_spec largest h.order hacked).2.2.1
  refine ⟨hcounted, ?_, ?_, ?_, ?_, ?_⟩
  · intro hlisten
    rw [hy] at hlisten ⊢
    change (PseudoTcp.freeAcked _ _ x.slist).2 = []
    rw [h.listen hlisten]
    rfl
  · rw [hfresh]
    exact h.filled
  · rw [hfresh]
    intro b hb hctrl hz
    rw [hy]
    change (x.sbuf.consumeReadData _).bufferLength = 0
    rw [FifoBuffer.consumeReadData_bufferLength]
    exact h.control b hb hctrl hz
  · intro _ hdup
    rw [hy] at hdup
    obtain ⟨r, hr, hrecover⟩ := h.recover hopen hdup
    refine ⟨r, ?_, ?_⟩
    · rw [hy]
      change r ≤ ack.toNat + (x.sndNxt - ack).toNat
      omega
    · rw [hy]
      exact hrecover
  intro _
  rw [hy]
  change (if ack = x.sndNxt then 0 else now) ≠ 0 ↔ ack ≠ x.sndNxt
  split
  · next heq => exact iff_of_false (fun hne => hne rfl) (fun hne => hne heq)
  · next hne => exact iff_of_true hnow hne

/-- Every elementary step keeps the invariant, if clock readings are not `0` and the send buffer is
resized in `TCP_LISTEN` only. -/
theorem Timed.step (h : x.Timed)
    (hstep : SendStep (fun now => now ≠ 0) (fun x => x.state = .listen) x y) : y.Timed := by
  have hcounted := h.toCounted.step hstep
  cases hstep with
  | transmit l₁ g l₂ n now hl hsent hfresh havailable hle hne hnow =>
    have hlen := h.first_fresh hl hsent hfresh havailable
    exact h.transmit hl hsent hfresh (hne hlen) hnow rfl hcounted
  | retransmit g l n now hl hcount hwhy hle hnow =>
    exact h.retransmit hl hcount hwhy hnow rfl hcounted
  | cut l₁ g l₂ n hl hfresh hne hlt => exact h.cut hl hfresh hne hlt rfl hcounted
  | send data len l hstate hroom hlen hfit hl => exact h.send hstate hroom hl rfl hcounted
  | connect state data len l hlisten hstate hlen hfit hempty hl =>
    exact h.connect hlisten hstate hempty hl rfl hcounted
  | establish hstate =>
    have hopen : x.state ≠ .closed := by
      rcases hstate with hs | hs <;> rw [hs] <;> decide
    refine ⟨hcounted, ?_, h.filled, h.control, fun _ => h.recover hopen, fun _ => h.timer hopen⟩
    intro hlisten
    cases hlisten
  | accept ack now largest hopen hlt hle hnow => exact h.accept hopen hlt hle hnow rfl hcounted
  | forget =>
    refine ⟨hcounted, h.listen, h.filled, h.control, ?_, h.timer⟩
    intro _ hdup
    change (3 : UInt8) ≤ 0 at hdup
    exact absurd hdup (by decide)
  | duplicate hthird =>
    refine ⟨hcounted, h.listen, h.filled, h.control, ?_, h.timer⟩
    intro hopen hdup
    refine h.recover hopen ?_
    grind
  | third hthird =>
    refine ⟨hcounted, h.listen, h.filled, h.control, ?_, h.timer⟩
    intro _ _
    refine ⟨_, le_rfl, ?_⟩
    rw [UInt32.ofNat_add, UInt32.ofNat_toNat, UInt32.ofNat_toNat]
    grind
  | restart now hrun hnow =>
    refine ⟨hcounted, h.listen, h.filled, h.control, h.recover, ?_⟩
    intro hopen
    exact iff_of_true hnow ((h.timer hopen).mp hrun)
  | close dupAcks =>
    refine ⟨hcounted, ?_, h.filled, h.control, fun hopen => absurd rfl hopen,
      fun hopen => absurd rfl hopen⟩
    intro hlisten
    cases hlisten
  | resize block size hsize hok =>
    refine ⟨hcounted, h.listen, h.filled, ?_, h.recover, h.timer⟩
    intro b hb
    have hnil : x.slist = [] := h.listen hok
    rw [hnil] at hb
    cases hb

end SendState

namespace PseudoTcp

variable (env : Env) {s s' : PseudoTcp}

/-! ### What is retransmitted -/

/-- The segment lists whose first entry `NotifyClock` transmits again; the empty list stands for the
branch that asserts it is not reached. -/
def clockRetransmits (s : PseudoTcp) (now : UInt32) : List (List SSegment) :=
  if s.state ≠ .closed ∧ s.rtoBase ≠ 0 ∧ timeDiff (s.rtoBase + s.rxRto) now ≤ 0 then [s.slist]
  else []

/-- The lists whose first entry the acknowledgment part of `process` transmits again: after a valuable ack
during recovery, and on the third duplicate. -/
def ackRetransmits (s : PseudoTcp) (now : UInt32) (seg : Segment) : List (List SSegment) :=
  if s.valuableAck seg.ack then
    if 3 ≤ s.dupAcks ∧ ¬ s.recover ≤ seg.ack then [(s.acceptAck now seg).slist] else []
  else if seg.ack = s.sndUna then
    if ¬ 0 < seg.len ∧ s.sndUna ≠ s.sndNxt ∧ s.dupAcks + 1 = 3 then [s.slist] else []
  else []

/-- The same for `process`. -/
def processRetransmits (s : PseudoTcp) (seg : Segment) : List (List SSegment) :=
  if seg.conv ≠ s.conv ∨ s.state = .closed ∨ seg.flags &&& FLAG_RST ≠ 0 then []
  else
    match (s.arrive env).processControl env seg with
    | none => []
    | some (_, s₁) => (s₁.updateTimestamp seg).ackRetransmits (s.now env) seg

/-- The segment lists whose first entry a call transmits again. -/
def retransmits (s : PseudoTcp) : Call → List (List SSegment)
  | .notifyClock now => s.clockRetransmits now
  | .notifyPacket buffer =>
    match parseHeader buffer with
    | none => []
    | some seg => s.processRetransmits env seg
  | _ => []

/-! ### The timer along a run -/

/-- The calls of a run as the timer needs them: clock readings are not `0`, and the send buffer is
resized in `TCP_LISTEN` only, as `SetOption` asserts. -/
def Timely (s : PseudoTcp) (c : Call) : Prop :=
  c.Fits (fun now => now ≠ 0) (fun x => x.state = .listen) s

theorem timed_new (conv : UInt32) : (new env conv).sendState.Timed := by
  refine ⟨counted_new env conv, fun _ => rfl, ?_, ?_, ?_, fun _ => ?_⟩
  · intro g hg
    cases hg
  · intro g hg
    cases hg
  · intro _ hdup
    change (3 : UInt8) ≤ 0 at hdup
    exact absurd hdup (by decide)
  · exact iff_of_false (fun h => h rfl) (fun h => h rfl)

theorem timed_of_steps (h : s.sendState.Timed)
    (hsteps : Steps (fun now => now ≠ 0) (fun x => x.state = .listen) s s') :
    s'.sendState.Timed :=
  hsteps.invariant (fun _ _ hx => hx.step) h

theorem ackRetransmits_sent (h : s.sendState.Timed) (hopen : s.state ≠ .closed) {now : UInt32}
    (hnow : now ≠ 0) {seg : Segment} {l : List SSegment} (hl : l ∈ s.ackRetransmits now seg) :
    ∃ g rest, l = g :: rest ∧ g.xmit ≠ 0 := by
  rw [ackRetransmits] at hl
  split at hl
  · next hack =>
    split at hl
    · next hrecovery =>
      have hsteps : Steps (fun now => now ≠ 0) (fun x => x.state = .listen) s
          (s.acceptAck now seg) := by
        refine steps_acceptAck ?_ hopen seg hack
        exact hnow
      have haccept : (s.acceptAck now seg).sendState.Timed := timed_of_steps h hsteps
      have hfields : (s.acceptAck now seg).state = s.state ∧
          (s.acceptAck now seg).dupAcks = s.dupAcks ∧
          (s.acceptAck now seg).recover = s.recover := by
        simp only [acceptAck, updateRtt]
        split <;> exact ⟨rfl, rfl, rfl⟩
      rw [List.mem_singleton.mp hl]
      refine haccept.head_sent ⟨?_, .inr (.inr ⟨?_, ?_⟩)⟩
      · rw [show (s.acceptAck now seg).sendState.state = s.state from hfields.1]
        exact hopen
      · rw [show (s.acceptAck now seg).sendState.dupAcks = s.dupAcks from hfields.2.1]
        exact hrecovery.1
      · rw [show (s.acceptAck now seg).sendState.recover = s.recover from hfields.2.2]
        exact UInt32.not_le.mp hrecovery.2
    · cases hl
  split at hl
  · split at hl
    · next hthird =>
      rw [List.mem_singleton.mp hl]
      exact h.head_sent ⟨hopen, .inr (.inl hthird.2.1)⟩
    · cases hl
  · cases hl

theorem retransmits_sent (h : s.sendState.Timed) (hclock : ∀ i, env.clock i ≠ 0) {c : Call}
    {l : List SSegment} (hl : l ∈ s.retransmits env c) :
    ∃ g rest, l = g :: rest ∧ g.xmit ≠ 0 := by
  cases c with
  | notifyClock now =>
    rw [retransmits, clockRetransmits] at hl
    split at hl
    · next hdue =>
      rw [List.mem_singleton.mp hl]
      exact h.head_sent ⟨hdue.1, .inl hdue.2.1⟩
    · cases hl
  | notifyPacket buffer =>
    rw [retransmits] at hl
    split at hl
    · cases hl
    next seg _ =>
    rw [processRetransmits] at hl
    split at hl
    · cases hl
    next hheeds =>
    have hopen : s.state ≠ .closed := fun hclosed => hheeds (.inr (.inl hclosed))
    split at hl
    · cases hl
    next bConnect s₁ hc =>
    obtain ⟨hsteps, hopen₁⟩ := steps_processControl env (s := s.arrive env) h.cap hopen hc
    have hcore : (s₁.updateTimestamp seg).sendState = s₁.sendState := by
      rw [updateTimestamp]
      split <;> rfl
    have hts : (s₁.updateTimestamp seg).sendState.Timed := by
      rw [hcore]
      exact timed_of_steps (s := s.arrive env) h hsteps
    have hopen₂ : (s₁.updateTimestamp seg).state ≠ .closed := by
      rw [show (s₁.updateTimestamp seg).state = s₁.state from congrArg SendState.state hcore]
      exact hopen₁
    exact ackRetransmits_sent hts hopen₂ (hclock _) hl
  | _ => cases hl

/-- **The retransmission timer.** In every run with readings other than `0`, while the connection is not closed
down, the timer runs exactly while bytes are in flight, and what is transmitted from the front of the list has
been transmitted before. -/
theorem timer_of_run (hclock : ∀ i, env.clock i ≠ 0) (conv : UInt32) (calls : List Call)
    (s : PseudoTcp) (hrun : Runs.run (call env) (new env conv) calls = some s)
    (hok : Runs.Admissible (call env) Timely (new env conv) calls) (hopen : s.state ≠ .closed) :
    (s.rtoBase ≠ 0 ↔ s.sndUna ≠ s.sndNxt) ∧
      ∀ c, ∀ l ∈ s.retransmits env c, ∃ g rest, l = g :: rest ∧ g.xmit ≠ 0 := by
  have htimed : s.sendState.Timed := sendState_induction env hclock (fun _ h => h.cap)
    (fun _ _ h => h.step) (timed_new env conv) hok hrun
  refine ⟨htimed.timer hopen, ?_⟩
  intro c l hl
  exact retransmits_sent env htimed hclock hl

/-- A run in which ten bytes are in flight and an acknowledgment ends inside them. -/
theorem timer_of_partialAckRun :
    ∃ s, Runs.run (call quietEnv) (new quietEnv 7) (ackRun 9) = some s ∧ s.state ≠ .closed ∧
      (s.rtoBase ≠ 0 ↔ s.sndUna ≠ s.sndNxt) ∧
      ∀ c, ∀ l ∈ s.retransmits quietEnv c, ∃ g rest, l = g :: rest ∧ g.xmit ≠ 0 := by
  have hend : (Runs.run (call quietEnv) (new quietEnv 7) (ackRun 9)).map (fun s => s.state) =
      some .established := by decide +kernel
  obtain ⟨s, hs, heq⟩ := Option.map_eq_some_iff.mp hend
  have hopen : s.state ≠ .closed := by
    rw [heq]
    decide
  refine ⟨s, hs, hopen, timer_of_run quietEnv ?_ 7 (ackRun 9) s hs ?_ hopen⟩
  · intro i
    change (1 : UInt32) ≠ 0
    decide
  · exact ⟨trivial, fun _ _ => ⟨trivial, fun _ _ => ⟨trivial, fun _ _ => ⟨trivial, fun _ _ =>
      trivial⟩⟩⟩⟩

end PseudoTcp

end Synciga
