import Synciga.PseudoTcp.SendCounts

/-!
# The duty to acknowledge

`process` notes when an acknowledgment must be sent, and leaves it to `attemptSend`, which sends one, or data
that carries it, or arms the timer for a delayed one. One of its early returns does neither: where Nagle's
algorithm holds back a partial segment, nothing remembers that it is due.

## Main results

* `acknowledged_iff` — every such segment is acknowledged, exactly if no segment is held back
-/

namespace Synciga.PseudoTcp

variable (env : Env) {s s' t : PseudoTcp}

/-! ### What was written -/

/-- From `s` to `s'` packets were written, each acknowledging the `m_rcv_nxt` of `s`. -/
def Wrote (s s' : PseudoTcp) : Prop :=
  ∃ more, s'.written = more ++ s.written ∧ ∀ p ∈ more, Acknowledges s.rcvNxt p.1

theorem Wrote.of_eq (h : s'.written = s.written) : Wrote s s' :=
  ⟨[], h, fun p hp => by cases hp⟩

theorem acknowledges_unique {ack ack' : UInt32} {buffer : List UInt8}
    (h : Acknowledges ack buffer) (h' : Acknowledges ack' buffer) : ack = ack' := by
  obtain ⟨seg, hseg, rfl⟩ := h
  obtain ⟨seg', hseg', rfl⟩ := h'
  rw [Option.some.inj (hseg.symm.trans hseg')]

theorem wrote_processAck (s : PseudoTcp) (now : UInt32) (seg : Segment) :
    Wrote s (s.processAck env now seg).2 := by
  rw [processAck]
  split
  · have hfields : (s.acceptAck now seg).written = s.written ∧
        (s.acceptAck now seg).rcvNxt = s.rcvNxt := by
      simp only [acceptAck, updateRtt]
      split <;> exact ⟨rfl, rfl⟩
    generalize s.acceptAck now seg = t at hfields
    rw [afterAck]
    split
    · split
      · exact .of_eq hfields.1
      obtain ⟨more, hmore, hacks⟩ := (sending_transmit env t 0 now).packets
      rw [hfields.1] at hmore
      rw [hfields.2] at hacks
      rcases hr : t.transmit env 0 now with ⟨_ | _, t'⟩
      · rw [hr] at hmore
        exact ⟨more, hmore, hacks⟩
      · rw [hr] at hmore
        exact ⟨more, hmore, hacks⟩
    · simp only
      split <;> exact .of_eq hfields.1
  split
  · simp only [duplicateAck]
    split
    · exact .of_eq rfl
    split
    · split
      · obtain ⟨more, hmore, hacks⟩ := (sending_transmit env { s with
          sndWnd := seg.wnd.toUInt32 <<< s.swndScale.toUInt32
          dupAcks := s.dupAcks + 1 } 0 now).packets
        split
        · next hr =>
          rw [hr] at hmore
          exact ⟨more, hmore, hacks⟩
        · next hr =>
          rw [hr] at hmore
          exact ⟨more, hmore, hacks⟩
      · split <;> exact .of_eq rfl
    · exact .of_eq rfl
  · exact .of_eq rfl

/-! ### Coming to `attemptSend` -/

/-- The flags with which `process` calls `attemptSend`, whether there is new data, and the state at
that moment; `none` when it does not come there. -/
def beforeSend (s : PseudoTcp) (seg : Segment) : Option (SendFlags × Bool × PseudoTcp) :=
  (s.beforeData env seg).map fun t => t.receiveData (t.trim seg) (t.ackFlags seg)

variable {seg : Segment}

theorem rcvNxt_processControl {bConnect : Bool} (hc : s.processControl env seg = some (bConnect, s')) :
    s'.rcvNxt = s.rcvNxt ∧ s'.written = s.written := by
  obtain ⟨-, -, rfl⟩ | ⟨-, -, options, -, hcase⟩ := processControl_cases env hc
  · exact ⟨rfl, rfl⟩
  have hparse : (s.parseOptions env options).rcvNxt = s.rcvNxt ∧
      (s.parseOptions env options).written = s.written := by
    obtain ⟨scale, h⟩ | ⟨-, scale, h⟩ := parseOptions_cases env s options <;> rw [h] <;> exact ⟨rfl, rfl⟩
  obtain ⟨-, rfl⟩ | ⟨-, rfl⟩ | ⟨-, -, rfl⟩ := hcase
  · exact hparse
  · exact hparse
  · exact hparse

theorem ackFlags_ne_none (s : PseudoTcp) (seg : Segment) (h : seg.seq ≠ s.rcvNxt ∨ seg.len ≠ 0) :
    s.ackFlags seg ≠ .none := by
  rw [ackFlags]
  split
  · decide
  next hseq =>
  rw [if_pos (h.resolve_left hseq)]
  split <;> decide

theorem receiveData_flags (s : PseudoTcp) (seg : Segment) (sflags : SendFlags) :
    (s.receiveData seg sflags).1 = sflags ∨ (s.receiveData seg sflags).1 = .immediateAck := by
  rw [receiveData]
  split
  · exact .inl rfl
  split
  · split <;> exact .inl rfl
  simp only
  split
  · simp only
    split
    · exact .inr rfl
    · exact .inl rfl
  · exact .inl rfl

variable {sflags : SendFlags}

/-- What has happened when `process` comes to `attemptSend`: steps of the sending side, packets that acknowledge
the old `m_rcv_nxt`, and the flags ask for an acknowledgment where one is due. -/
theorem beforeSend_spec {bNewData : Bool}
    (hcap : s.sbuf.bufferLength < 2 ^ 32) (h : s.beforeSend env seg = some (sflags, bNewData, t)) :
    Steps (fun _ => True) (fun _ => True) s t ∧ Wrote s t ∧
      (seg.seq ≠ s.rcvNxt ∨ seg.len ≠ 0 → sflags ≠ .none) := by
  obtain ⟨u, hdata, hu⟩ := Option.map_eq_some_iff.mp h
  obtain ⟨⟨-, hopen, -⟩, bConnect, s₁, s₂, hc, hr, hlast⟩ := beforeData_cases env hdata
  have hcontrol : Steps (fun _ => True) (fun _ => True) s s₁ ∧ s₁.state ≠ .closed := by
    obtain ⟨hsteps, hopen₁⟩ := steps_processControl env (s := s.arrive env) hcap hopen hc
    exact ⟨Steps.trans (.of_eq rfl) hsteps, hopen₁⟩
  have hkeep₁ := rcvNxt_processControl env hc
  have hts : (s₁.updateTimestamp seg).sendState = s₁.sendState ∧
      (s₁.updateTimestamp seg).rcvNxt = s.rcvNxt ∧
      (s₁.updateTimestamp seg).written = s.written := by
    rw [updateTimestamp]
    split <;> exact ⟨rfl, hkeep₁⟩
  have hopen₂ : (s₁.updateTimestamp seg).state ≠ .closed := by
    rw [show (s₁.updateTimestamp seg).state = s₁.state from congrArg SendState.state hts.1]
    exact hcontrol.2
  have hack : Steps (fun _ => True) (fun _ => True) (s₁.updateTimestamp seg)
      ((s₁.updateTimestamp seg).processAck env (s.now env) seg).2 :=
    steps_processAck env trivial hopen₂ seg
  have hwrote := wrote_processAck env (s₁.updateTimestamp seg) (s.now env) seg
  have hquiet := (tends_processAck env (s₁.updateTimestamp seg) (s.now env) seg).quiet
  rw [hr] at hack hwrote hquiet
  -- The steps after the acknowledgment part write nothing and change nothing that is read here.
  have hfields : u.written = s₂.written ∧ u.rcvNxt = s₂.rcvNxt := by
    rw [hlast, enterEstablished]
    split <;> simp only [notifyWriteable] <;> split <;> exact ⟨rfl, rfl⟩
  have hsteps : Steps (fun _ => True) (fun _ => True) s u := by
    refine hcontrol.1.trans ((Steps.of_eq hts.1).trans (hack.trans ?_))
    rw [hlast]
    exact (steps_enterEstablished s₂ bConnect).trans (.of_eq (sendState_notifyWriteable _))
  have hrcv : u.rcvNxt = s.rcvNxt :=
    hfields.2.trans ((congrArg RecvCore.rcvNxt hquiet.recvCore).trans hts.2.1)
  obtain ⟨rbuf, rcvNxt, rcvWnd, rlist, heq⟩ :=
    receiveData_eq u (u.trim seg) (u.ackFlags seg)
  rw [hu] at heq
  subst heq
  refine ⟨hsteps.trans (.of_eq rfl), ?_, ?_⟩
  · obtain ⟨more, hmore, hacks⟩ := hwrote
    refine ⟨more, ?_, ?_⟩
    · rw [← hts.2.2, ← hmore]
      exact hfields.1
    · rw [← hts.2.1]
      exact hacks
  intro hdue
  have hflags := ackFlags_ne_none u seg (by rw [hrcv]; exact hdue)
  have hkept := receiveData_flags u (u.trim seg) (u.ackFlags seg)
  rw [hu] at hkept
  rcases hkept with hsame | himm
  · rw [show sflags = u.ackFlags seg from hsame]
    exact hflags
  · rw [show sflags = .immediateAck from himm]
    decide

/-! ### The first round of `attemptSend` -/

/-- The state in which `attemptSend` enters its loop. -/
def restartWindow (s : PseudoTcp) : PseudoTcp :=
  if (s.rxRto.toNat : ℤ) < timeDiff (s.now env) s.lastsend then { s.tick with cwnd := s.mss }
  else s.tick

theorem attemptSend_eq (s : PseudoTcp) (sflags : SendFlags) :
    s.attemptSend env sflags = (s.restartWindow env).attemptSendLoop env (s.now env)
      (2 * (s.restartWindow env).sbuf.getBuffered + (s.restartWindow env).slist.length + 1)
      sflags :=
  rfl

theorem restartWindow_fields (s : PseudoTcp) : (s.restartWindow env).written = s.written ∧
    (s.restartWindow env).sendState = s.sendState := by
  rw [restartWindow]
  split <;> exact ⟨rfl, rfl⟩

/-- No acknowledgment is pending, and the round ends without one: Nagle's algorithm holds back what could be
sent, or the timer of a delayed one is set to a reading of `0`, which stands for a timer that does not run. -/
def HeldBack (u : PseudoTcp) (sflags : SendFlags) : Prop :=
  u.tAck = 0 ∧
    ((u.sendable ≠ 0 ∧ u.useNagling = true ∧ u.sndUna < u.sndNxt ∧ u.sendable < u.mss) ∨
      (u.sendable = 0 ∧ sflags = .delayedAck ∧ u.now env = 0))

variable {u : PseudoTcp}

theorem attemptSendLoop_of_heldBack {fuel : ℕ} {now : UInt32} (h : u.HeldBack env sflags) :
    (u.attemptSendLoop env now (fuel + 1) sflags).written = u.written ∧
      (u.attemptSendLoop env now (fuel + 1) sflags).tAck = 0 := by
  obtain ⟨hnone, ⟨hsend, hnagle⟩ | ⟨hsend, rfl, hzero⟩⟩ := h
  · rw [attemptSendLoop]
    rw [if_neg hsend, if_pos hnagle]
    exact ⟨rfl, hnone⟩
  · rw [attemptSendLoop]
    rw [if_pos hsend, if_neg (by decide), if_neg (by simp [hnone])]
    exact ⟨rfl, hzero⟩

theorem fresh_splitSegment {i : ℕ} (hi : u.slist.findIdx? (fun seg => seg.xmit = 0) = some i) (n : UInt32) :
    ∃ g, (u.splitSegment i n).slist[i]? = some g ∧ g.xmit = 0 := by
  obtain ⟨⟨l₁, g, l₂, hl, rfl, hfresh⟩, -⟩ := sent_of_findIdx? hi
  rw [splitSegment, getElem?_of_eq_append hl]
  simp only
  split
  · refine ⟨{ g with len := n }, ?_, hfresh⟩
    have happend : replaceAt u.slist l₁.length
        [{ g with len := n }, SSegment.new (g.seq + n) (g.len - n) g.bCtrl] =
          l₁ ++ { g with len := n } :: (SSegment.new (g.seq + n) (g.len - n) g.bCtrl :: l₂) := by
      rw [hl, replaceAt_append, List.append_assoc]
      rfl
    exact getElem?_of_eq_append happend
  · exact ⟨g, getElem?_of_eq_append hl, hfresh⟩

theorem attemptSendLoop_of_not_heldBack {fuel : ℕ}
    {now : UInt32} (hcount : u.sendState.Counted) (hflags : sflags ≠ .none)
    (h : ¬ u.HeldBack env sflags) :
    u.written.length < (u.attemptSendLoop env now (fuel + 1) sflags).written.length ∨
      (u.attemptSendLoop env now (fuel + 1) sflags).tAck ≠ 0 := by
  rw [attemptSendLoop]
  split
  · next hsend =>
    split
    · obtain ⟨buffer, wres, hw, -⟩ := packet_written env u u.sndNxt 0 0 0
      rw [hw]
      exact .inl (Nat.lt_succ_self _)
    next hnow =>
    have hnone : u.tAck = 0 := by tauto
    have hdelayed : sflags = .delayedAck := by
      cases sflags with
      | none => exact absurd rfl hflags
      | immediateAck => exact absurd (.inl rfl) hnow
      | delayedAck => rfl
    exact .inr fun hzero => h ⟨hnone, .inr ⟨hsend, hdelayed, hzero⟩⟩
  next hsend =>
  split
  · next hnagle => exact .inr fun hzero => h ⟨hzero, .inl ⟨hsend, hnagle⟩⟩
  obtain ⟨i, hi⟩ := exists_fresh_of_sendable hcount hsend
  rw [hi]
  simp only
  obtain ⟨g, hg, hfresh⟩ := fresh_splitSegment hi u.sendable
  have hwritten := written_transmit_of_fresh env hg hfresh now
  have hsplit : (u.splitSegment i u.sendable).written = u.written := by
    rw [splitSegment]
    split
    · rfl
    · split <;> rfl
  rw [hsplit] at hwritten
  rcases hr : (u.splitSegment i u.sendable).transmit env i now with ⟨_ | _, u'⟩
  · rw [hr] at hwritten
    exact .inl hwritten
  · rw [hr] at hwritten
    obtain ⟨more, hmore, -⟩ := (sending_attemptSendLoop env now fuel .none u').packets
    rw [hmore, List.length_append]
    exact .inl (Nat.lt_of_lt_of_le hwritten (Nat.le_add_left _ _))

/-- What `attemptSend` does about an acknowledgment that is due. -/
theorem attemptSend_duty (hcount : t.sendState.Counted) (hflags : sflags ≠ .none) :
    ((t.restartWindow env).HeldBack env sflags → (t.attemptSend env sflags).written = t.written ∧
        (t.attemptSend env sflags).tAck = 0) ∧
      (¬ (t.restartWindow env).HeldBack env sflags →
        t.written.length < (t.attemptSend env sflags).written.length ∨
          (t.attemptSend env sflags).tAck ≠ 0) := by
  obtain ⟨hwritten, hstate⟩ := restartWindow_fields env t
  rw [attemptSend_eq, ← hwritten]
  constructor
  · intro hheld
    exact attemptSendLoop_of_heldBack env hheld
  · intro hheld
    refine attemptSendLoop_of_not_heldBack env ?_ hflags hheld
    rw [hstate]
    exact hcount

/-! ### The duty -/

/-- From `s` to `s'` a packet was written that acknowledges the `m_rcv_nxt` of `s'`, or the timer
for a delayed acknowledgment runs. -/
def Acknowledged (s s' : PseudoTcp) : Prop :=
  (∃ more, s'.written = more ++ s.written ∧ ∃ p ∈ more, Acknowledges s'.rcvNxt p.1) ∨ s'.tAck ≠ 0

/-- The acknowledgment of the segment is held back: `attemptSend` is entered with none pending and
returns without one, and no packet has carried it before. -/
def HoldsAck (s : PseudoTcp) (seg : Segment) : Prop :=
  ∃ sflags bNewData t, s.beforeSend env seg = some (sflags, bNewData, t) ∧
    (t.restartWindow env).HeldBack env sflags ∧ (t.written = s.written ∨ t.rcvNxt ≠ s.rcvNxt)

theorem acknowledged_notifyReadable (bNewData : Bool) :
    Acknowledged s (s'.notifyReadable bNewData) ↔ Acknowledged s s' := by
  rw [notifyReadable]
  split <;> exact Iff.rfl

/-- Where `process` succeeds on a segment that calls for an acknowledgment, the segment is
acknowledged exactly if the acknowledgment is not held back. -/
theorem acknowledged_process_iff (hcount : s.sendState.Counted)
    (h : s.process env seg = (true, s')) (hdue : seg.seq ≠ s.rcvNxt ∨ seg.len ≠ 0) :
    Acknowledged s s' ↔ ¬ s.HoldsAck env seg := by
  obtain ⟨u, hdata, rfl⟩ := process_true env h
  rcases hr : u.receiveData (u.trim seg) (u.ackFlags seg) with ⟨sflags, bNewData, t⟩
  have hbefore : s.beforeSend env seg = some (sflags, bNewData, t) := by
    rw [beforeSend, hdata, Option.map_some, hr]
  rw [show u.processData env seg = (t.attemptSend env sflags).notifyReadable bNewData by
    rw [processData, hr]]
  obtain ⟨hsteps, ⟨more, hmore, hacks⟩, hflags⟩ := beforeSend_spec env hcount.cap hbefore
  have hcount' : t.sendState.Counted := hsteps.invariant (fun _ _ hx => hx.step) hcount
  obtain ⟨hheldBack, hnotHeld⟩ := attemptSend_duty env hcount' (hflags hdue)
  obtain ⟨last, hlast, hlastAcks⟩ := (sending_attemptSend env t sflags).packets
  have hrcv := (sending_attemptSend env t sflags).rcvNxt
  rw [acknowledged_notifyReadable, HoldsAck, Acknowledged]
  generalize t.attemptSend env sflags = a at hheldBack hnotHeld hlast hrcv
  have hall : a.written = (last ++ more) ++ s.written := by
    rw [hlast, hmore, List.append_assoc]
  constructor
  · rintro hack ⟨sflags', bNewData', t', hbefore', hheld, hfirst⟩
    obtain ⟨rfl, rfl, rfl⟩ : sflags = sflags' ∧ bNewData = bNewData' ∧ t = t' := by
      simpa using hbefore.symm.trans hbefore'
    obtain ⟨hsame, hzero⟩ := hheldBack hheld
    obtain ⟨packets, hpackets, p, hp, hpack⟩ := hack.resolve_right (not_not_intro hzero)
    -- The packet was written before `attemptSend`, and acknowledges the old `m_rcv_nxt`.
    obtain rfl : packets = more :=
      List.append_cancel_right (hpackets.symm.trans (hsame.trans hmore))
    rw [hrcv] at hpack
    rcases hfirst with hnone | hmoved
    · obtain rfl : packets = [] := List.append_left_eq_self.mp (hmore.symm.trans hnone)
      cases hp
    · exact hmoved (acknowledges_unique hpack (hacks p hp))
  · intro hheld
    by_cases hback : (t.restartWindow env).HeldBack env sflags
    · have hfirst : ¬ (t.written = s.written ∨ t.rcvNxt ≠ s.rcvNxt) := fun hfirst =>
        hheld ⟨sflags, bNewData, t, hbefore, hback, hfirst⟩
      obtain ⟨hwritten, hkept⟩ := not_or.mp hfirst
      obtain ⟨p, hp⟩ := List.exists_mem_of_ne_nil more fun hnil =>
        hwritten (by rw [hmore, hnil]; rfl)
      refine .inl ⟨last ++ more, hall, p, List.mem_append_right _ hp, ?_⟩
      rw [hrcv, not_ne_iff.mp hkept]
      exact hacks p hp
    rcases hnotHeld hback with hlonger | hruns
    · obtain ⟨p, hp⟩ := List.exists_mem_of_ne_nil last fun hnil => by
        rw [hlast, hnil] at hlonger
        exact absurd hlonger (Nat.lt_irrefl _)
      refine .inl ⟨last ++ more, hall, p, List.mem_append_left _ hp, ?_⟩
      rw [hrcv]
      exact hlastAcks p hp
    · exact .inr hruns

/-- **The duty to acknowledge.** After every run, a segment that does not start at `m_rcv_nxt` or carries data,
and is accepted, is acknowledged exactly if its acknowledgment is not held back. -/
theorem acknowledged_iff (conv : UInt32) (calls : List Call)
    (hrun : Runs.run (call env) (new env conv) calls = some s) (buffer : List UInt8)
    (seg : Segment) (hseg : Delivers buffer seg)
    (h : s.notifyPacket env buffer = some (true, s'))
    (hdue : seg.seq ≠ s.rcvNxt ∨ seg.data ≠ []) :
    Acknowledged s s' ↔ ¬ s.HoldsAck env seg := by
  have hcount : s.sendState.Counted := counted_of_run env hrun
  have hprocess : s.process env seg = (true, s') :=
    Option.some.inj ((notifyPacket_of_parseHeader env hseg.1 hseg.2).symm.trans h)
  refine acknowledged_process_iff env hcount hprocess ?_
  rcases hdue with hseq | hdata
  · exact .inl hseq
  · refine .inr fun hzero => hdata ?_
    have hlen := len_toNat (hseg.length_lt.trans (by decide))
    rw [hzero] at hlen
    exact List.eq_nil_of_length_eq_zero hlen.symm

/-- With nothing held back, three bytes of data behind the connect message are acknowledged by a
packet. -/
theorem acknowledged_iff_after_handshake :
    ∃ s s', Runs.run (call quietEnv) (new quietEnv 7)
        [.connect, .notifyPacket (datagram 0 4 FLAG_CTL [0, 3, 1, 0])] = some s ∧
      s.notifyPacket quietEnv (datagram 4 4 0 [1, 2, 3]) = some (true, s') ∧
      s'.written.length = s.written.length + 1 ∧
      (Acknowledged s s' ↔ ¬ s.HoldsAck quietEnv ⟨7, 4, 4, 0, 1000, [1, 2, 3], 1, 0⟩) := by
  have hend : (Runs.run (call quietEnv) (new quietEnv 7)
      [.connect, .notifyPacket (datagram 0 4 FLAG_CTL [0, 3, 1, 0])]).bind (fun s =>
        (s.notifyPacket quietEnv (datagram 4 4 0 [1, 2, 3])).map fun r =>
          (r.1, decide (r.2.written.length = s.written.length + 1))) =
      some (true, true) := by decide +kernel
  obtain ⟨s, hs, hrest⟩ := Option.bind_eq_some_iff.mp hend
  obtain ⟨⟨ok, s'⟩, hpacket, heq⟩ := Option.map_eq_some_iff.mp hrest
  simp only [Prod.mk.injEq, decide_eq_true_eq] at heq
  obtain ⟨rfl, hwritten⟩ := heq
  refine ⟨s, s', hs, hpacket, hwritten, ?_⟩
  exact acknowledged_iff quietEnv 7 _ hs (datagram 4 4 0 [1, 2, 3]) _
    ⟨by decide, parseHeader_datagram 4 4 0 [1, 2, 3]⟩ hpacket (.inr (List.cons_ne_nil _ _))

/-- Connect, send ten bytes, which are in flight then, and five more, which are held back by
Nagle's algorithm. -/
def nagleRun : List Call :=
  [.connect, .notifyPacket (datagram 0 4 FLAG_CTL [0, 3, 1, 0]), .send (List.replicate 10 65),
    .send (List.replicate 5 66)]

/-- Three bytes of data then arrive, and no acknowledgment is sent or scheduled. -/
theorem not_acknowledged_behind_nagle :
    ¬ ∀ (env : Env) (conv : UInt32) (calls : List Call) (s s' : PseudoTcp) (buffer : List UInt8)
      (seg : Segment), Runs.run (call env) (new env conv) calls = some s → s.shutdown = .none →
      Delivers buffer seg → s.notifyPacket env buffer = some (true, s') →
      (seg.seq ≠ s.rcvNxt ∨ seg.data ≠ []) → Acknowledged s s' := by
  intro h
  have hend : (Runs.run (call quietEnv) (new quietEnv 7) nagleRun).bind (fun s =>
      (s.notifyPacket quietEnv (datagram 4 4 0 [1, 2, 3])).map fun r =>
        (s.shutdown, r.1, r.2.tAck, decide (r.2.written = s.written))) =
      some (.none, true, 0, true) := by decide +kernel
  obtain ⟨s, hs, hrest⟩ := Option.bind_eq_some_iff.mp hend
  obtain ⟨⟨ok, s'⟩, hpacket, heq⟩ := Option.map_eq_some_iff.mp hrest
  simp only [Prod.mk.injEq, decide_eq_true_eq] at heq
  obtain ⟨hshut, rfl, hzero, hsame⟩ := heq
  have hack := h quietEnv 7 nagleRun s s' (datagram 4 4 0 [1, 2, 3]) _ hs hshut
    ⟨by decide, parseHeader_datagram 4 4 0 [1, 2, 3]⟩ hpacket (.inr (List.cons_ne_nil _ _))
  obtain ⟨more, hmore, p, hp, -⟩ := hack.resolve_right (not_not_intro hzero)
  obtain rfl : more = [] := List.append_left_eq_self.mp (hmore.symm.trans hsame)
  cases hp

end Synciga.PseudoTcp
