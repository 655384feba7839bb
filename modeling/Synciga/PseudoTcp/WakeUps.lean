import Synciga.PseudoTcp.FastRecovery

/-!
# Waiting to read and waiting to write

`Recv` and `Send` remember in `m_bReadEnable` and `m_bWriteEnable` that they turned the caller away, and
`process` owes a notification. A caller that waits to read is told in the call that commits the next byte, and
one that waits to write when less than half of the two buffers is left to send. A send buffer without capacity
is full and empty at once: there `Send` waits with nothing to send.

## Main results

* `wakeUps_of_run` — nobody waits in vain, where the buffer has a capacity
-/

namespace Synciga.PseudoTcp

variable (env : Env) {s s' t : PseudoTcp}

/-! ### Notifications -/

/-- From `s` to `t` the notification has been given. -/
def NotifiedSince (s t : PseudoTcp) (n : Notification) : Prop :=
  ∃ more, t.notified = more ++ s.notified ∧ n ∈ more

/-- From `s` to `t` notifications were only added. -/
def Grows (s t : PseudoTcp) : Prop := ∃ more, t.notified = more ++ s.notified

theorem Grows.of_eq (h : t.notified = s.notified) : Grows s t := ⟨[], h⟩

variable {u : PseudoTcp}

theorem Grows.trans (h : Grows s t) (h' : Grows t u) : Grows s u := by
  obtain ⟨more, hmore⟩ := h
  obtain ⟨more', hmore'⟩ := h'
  exact ⟨more' ++ more, by rw [hmore', hmore, List.append_assoc]⟩

theorem NotifiedSince.later {n : Notification} (h : NotifiedSince s t n)
    (h' : Grows t u) : NotifiedSince s u n := by
  obtain ⟨more, hmore, hn⟩ := h
  obtain ⟨more', hmore'⟩ := h'
  exact ⟨more' ++ more, by rw [hmore', hmore, List.append_assoc], List.mem_append_right _ hn⟩

theorem NotifiedSince.earlier {n : Notification} (h : NotifiedSince t u n)
    (h' : Grows s t) : NotifiedSince s u n := by
  obtain ⟨more, hmore, hn⟩ := h
  obtain ⟨more', hmore'⟩ := h'
  exact ⟨more ++ more', by rw [hmore, hmore', List.append_assoc], List.mem_append_left _ hn⟩

/-! ### What leaves the flags alone -/

/-- Neither flag is touched, no byte enters or leaves the receive buffer, and the sizes are kept. -/
structure Idles (s s' : PseudoTcp) : Prop where
  bReadEnable : s'.bReadEnable = s.bReadEnable
  bWriteEnable : s'.bWriteEnable = s.bWriteEnable
  received : s'.rbuf.dataLength = s.rbuf.dataLength
  notified : Grows s s'

theorem Idles.refl (s : PseudoTcp) : Idles s s := ⟨rfl, rfl, rfl, .of_eq rfl⟩

theorem Idles.trans (h : Idles s s') (h' : Idles s' t) : Idles s t :=
  ⟨h'.bReadEnable.trans h.bReadEnable, h'.bWriteEnable.trans h.bWriteEnable,
    h'.received.trans h.received, h.notified.trans h'.notified⟩

theorem Idles.of_sending (h : Sending s s') : Idles s s' :=
  ⟨congrArg Steady.bReadEnable h.steady, congrArg Steady.bWriteEnable h.steady,
    congrArg (fun x => x.rbuf.dataLength) h.steady, .of_eq (congrArg Steady.notified h.steady)⟩

theorem Idles.of_tends (h : Tends s s') : Idles s s' :=
  ⟨h.bReadEnable, h.bWriteEnable, congrArg (fun k => k.rbuf.dataLength) h.kept, h.notified⟩

theorem idles_parseOptions (s : PseudoTcp) (data : List UInt8) : Idles s (s.parseOptions env data) := by
  obtain ⟨scale, h⟩ | ⟨-, scale, h⟩ := parseOptions_cases env s data
  · rw [h]
    exact ⟨rfl, rfl, rfl, .of_eq rfl⟩
  · rw [h]
    exact ⟨rfl, rfl, FifoBuffer.setCapacity_dataLength _ _ _, .of_eq rfl⟩

variable {bConnect : Bool} {seg : Segment}

theorem idles_processControl (hc : s.processControl env seg = some (bConnect, s')) : Idles s s' := by
  obtain ⟨-, -, rfl⟩ | ⟨-, -, options, -, hcase⟩ := processControl_cases env hc
  · exact .refl _
  have hparse := idles_parseOptions env s options
  obtain ⟨-, rfl⟩ | ⟨-, rfl⟩ | ⟨-, -, rfl⟩ := hcase
  · exact ⟨hparse.bReadEnable, hparse.bWriteEnable, hparse.received, hparse.notified⟩
  · exact ⟨hparse.bReadEnable, hparse.bWriteEnable, hparse.received,
      hparse.notified.trans ⟨[.onTcpOpen], rfl⟩⟩
  · exact hparse

theorem idles_enterEstablished (s : PseudoTcp) (bConnect : Bool) :
    Idles s (s.enterEstablished bConnect) := by
  rw [enterEstablished]
  split
  · exact ⟨rfl, rfl, rfl, [.onTcpOpen], rfl⟩
  · exact .refl s

/-! ### What is owed -/

/-- A flag is cleared only together with its notification. -/
structure Owes (s s' : PseudoTcp) : Prop where
  read : s.bReadEnable = true → s'.bReadEnable = true ∨ NotifiedSince s s' .onTcpReadable
  write : s.bWriteEnable = true → s'.bWriteEnable = true ∨ NotifiedSince s s' .onTcpWriteable
  notified : Grows s s'

theorem Idles.owes (h : Idles s s') : Owes s s' :=
  ⟨fun hread => .inl (h.bReadEnable.trans hread), fun hwrite => .inl (h.bWriteEnable.trans hwrite),
    h.notified⟩

theorem Owes.trans (h : Owes s s') (h' : Owes s' t) : Owes s t where
  read hread := by
    rcases h.read hread with hwait | htold
    · exact (h'.read hwait).imp_right fun htold => htold.earlier h.notified
    · exact .inr (htold.later h'.notified)
  write hwrite := by
    rcases h.write hwrite with hwait | htold
    · exact (h'.write hwait).imp_right fun htold => htold.earlier h.notified
    · exact .inr (htold.later h'.notified)
  notified := h.notified.trans h'.notified

/-- Who waits to read finds nothing to read, and who waits to write has something to send. -/
structure Waits (s : PseudoTcp) : Prop where
  read : s.bReadEnable = true → s.rbuf.dataLength = 0
  write : s.bWriteEnable = true → s.sbuf.dataLength ≠ 0

theorem Waits.of_idles (h : s.Waits) (hidle : Idles s s')
    (hsbuf : s.sbuf.dataLength ≠ 0 → s'.sbuf.dataLength ≠ 0) : s'.Waits where
  read hread := hidle.received.trans (h.read (hidle.bReadEnable.symm.trans hread))
  write hwrite := hsbuf (h.write (hidle.bWriteEnable.symm.trans hwrite))

/-! ### Incoming data -/

/-- What the data part leaves alone. -/
structure DataKeeps (s s' : PseudoTcp) : Prop where
  bWriteEnable : s'.bWriteEnable = s.bWriteEnable
  sbuf : s'.sbuf = s.sbuf
  sbufLen : s'.sbufLen = s.sbufLen
  rbufLen : s'.rbufLen = s.rbufLen

theorem receiveData_of_no_data (s : PseudoTcp) (seg : Segment) (sflags : SendFlags)
    (h : (s.receiveData seg sflags).2.1 = false) :
    (s.receiveData seg sflags).2.2.rbuf.dataLength = s.rbuf.dataLength := by
  rw [receiveData] at h ⊢
  split
  · rfl
  next hlen =>
  rw [if_neg hlen] at h
  split
  · split <;> rfl
  next hctl =>
  rw [if_neg hctl] at h
  simp only at h ⊢
  split
  · next heq =>
    rw [if_pos heq] at h
    cases h
  · exact FifoBuffer.writeOffset_dataLength _ _ _

theorem owes_processData (s : PseudoTcp) (seg : Segment)
    (hread : s.bReadEnable = true → s.rbuf.dataLength = 0) :
    Owes s (s.processData env seg) ∧ DataKeeps s (s.processData env seg) ∧
      ((s.processData env seg).bReadEnable = true →
        (s.processData env seg).rbuf.dataLength = 0) := by
  simp only [processData]
  have hsame := receiveData_of_no_data s (s.trim seg) (s.ackFlags seg)
  obtain ⟨rbuf, rcvNxt, rcvWnd, rlist, hr⟩ := receiveData_eq s (s.trim seg) (s.ackFlags seg)
  generalize s.receiveData (s.trim seg) (s.ackFlags seg) = r at hsame hr ⊢
  have hsend := sending_attemptSend env r.2.2 r.1
  have hidle := Idles.of_sending hsend
  generalize r.2.2.attemptSend env r.1 = u at hsend hidle ⊢
  obtain ⟨sflags, bNewData, a⟩ := r
  subst hr
  have hkeeps : DataKeeps s u :=
    ⟨hidle.bWriteEnable, hsend.sbuf, congrArg Steady.sbufLen hsend.steady,
      congrArg Steady.rbufLen hsend.steady⟩
  rw [notifyReadable]
  split
  · next hnew =>
    refine ⟨⟨fun _ => .inr ?_, fun hwrite => .inl (hidle.bWriteEnable.trans hwrite), ?_⟩, ?_,
      fun h => by cases h⟩
    · obtain ⟨more, hmore⟩ := hidle.notified
      exact ⟨.onTcpReadable :: more, congrArg (Notification.onTcpReadable :: ·) hmore,
        List.mem_cons_self⟩
    · obtain ⟨more, hmore⟩ := hidle.notified
      exact ⟨.onTcpReadable :: more, congrArg (Notification.onTcpReadable :: ·) hmore⟩
    · exact ⟨hkeeps.bWriteEnable, hkeeps.sbuf, hkeeps.sbufLen, hkeeps.rbufLen⟩
  next hold =>
  refine ⟨⟨fun h => .inl (hidle.bReadEnable.trans h), fun h => .inl (hidle.bWriteEnable.trans h),
    hidle.notified⟩, hkeeps, fun h => ?_⟩
  have hwait : s.bReadEnable = true := hidle.bReadEnable.symm.trans h
  have hnone : bNewData = false := by
    cases bNewData with
    | false => rfl
    | true => exact absurd ⟨rfl, h⟩ hold
  exact hidle.received.trans ((hsame hnone).trans (hread hwait))

/-! ### Incoming acknowledgments -/

theorem sbuf_processAck_false (htracked : s.sendState.Tracked) (hopen : s.state ≠ .closed)
    {now : UInt32} (h : s.processAck env now seg = (false, s'))
    (hne : s.sbuf.dataLength ≠ 0) : s'.sbuf.dataLength ≠ 0 := by
  rw [processAck] at h
  split at h
  · next hack =>
    have haccept : Steps (fun _ => True) (fun _ => True) s (s.acceptAck now seg) :=
      steps_acceptAck trivial hopen seg hack
    have ha : (s.acceptAck now seg).sendState.Tracked := tracked_of_steps htracked haccept
    have hstate : (s.acceptAck now seg).state = s.state :=
      congrArg SendState.state (sendState_updateRtt s now seg.tsecr)
    generalize s.acceptAck now seg = a at h ha hstate
    rw [afterAck] at h
    split at h
    · next hdup =>
      split at h
      · cases h
      next hends =>
      have hsend := sending_transmit env a 0 now
      split at h
      · next u hr =>
        cases h
        rw [hr] at hsend
        change u.sbuf.dataLength ≠ 0
        rw [hsend.sbuf]
        intro hempty
        -- With nothing left to send, nothing is left in flight, and the recovery is over.
        have hopenₐ : a.sendState.state ≠ .closed := fun hclosed => hopen (hstate.symm.trans hclosed)
        refine hends (ha.recover_le hopenₐ hdup ?_)
        by_contra hflight
        have hsent : sentLens a.slist ≠ 0 := ha.inFlight_iff.mp hflight
        have hle := sentLens_le_lens a.slist
        have hlens : lens a.slist = a.sbuf.dataLength := ha.lens
        omega
      · cases h
    · simp only at h
      split at h <;> cases h
  split at h
  · simp only [duplicateAck] at h
    split at h
    · cases h
    split at h
    · split at h
      · have hsend := sending_transmit env { s with
          sndWnd := seg.wnd.toUInt32 <<< s.swndScale.toUInt32, dupAcks := s.dupAcks + 1 } 0 now
        split at h
        · next u hr =>
          cases h
          rw [hr] at hsend
          change u.sbuf.dataLength ≠ 0
          rw [hsend.sbuf]
          exact hne
        · cases h
      · split at h <;> cases h
    · cases h
  · cases h

theorem notifyWriteable_spec (s : PseudoTcp) : Owes s s.notifyWriteable ∧
    s.notifyWriteable.bReadEnable = s.bReadEnable ∧ s.notifyWriteable.rbuf = s.rbuf ∧
    (2 ≤ s.sbufLen + s.rbufLen → s.notifyWriteable.bWriteEnable = true →
      s.notifyWriteable.sbuf.dataLength ≠ 0) ∧
    s.notifyWriteable.sbufLen = s.sbufLen ∧ s.notifyWriteable.rbufLen = s.rbufLen := by
  simp only [notifyWriteable]
  split
  · refine ⟨⟨fun h => .inl h, fun _ => .inr ⟨[.onTcpWriteable], rfl, List.mem_cons_self⟩,
      [.onTcpWriteable], rfl⟩, rfl, rfl, fun _ h => ?_, rfl, rfl⟩
    cases h
  next hfull =>
  refine ⟨(Idles.refl s).owes, rfl, rfl, fun hsum hwrite hempty => hfull ⟨hwrite, ?_⟩, rfl, rfl⟩
  have hbuffered : s.sbuf.getBuffered = 0 := hempty
  rw [hbuffered, UInt32.lt_iff_toNat_lt, UInt32.toNat_div]
  rw [UInt32.le_iff_toNat_le] at hsum
  have htwo : (2 : UInt32).toNat = 2 := rfl
  have hzero : (UInt32.ofNat 0).toNat = 0 := rfl
  rw [htwo] at hsum ⊢
  omega

/-- Behind the tests of `process` and its control part, the rest is decided by the acknowledgment
part. -/
theorem process_of_control (hheeds : s.Heeds seg) {s₁ : PseudoTcp}
    (hc : (s.arrive env).processControl env seg = some (bConnect, s₁)) :
    s.process env seg = match (s₁.updateTimestamp seg).processAck env (s.now env) seg with
      | (false, s₂) => (false, s₂)
      | (true, s₂) =>
        (true, ((s₂.enterEstablished bConnect).notifyWriteable).processData env seg) := by
  obtain ⟨hconv, hopen, hrst, -⟩ := hheeds
  have hopen' : ¬ (s.arrive env).state = .closed := hopen
  rw [process, if_neg (not_not_intro hconv)]
  rw [if_neg hopen', if_neg (not_not_intro hrst)]
  generalize (s.arrive env).processControl env seg = c at hc ⊢
  subst hc
  rfl

/-! ### Calls -/

theorem dataLength_le_write {f : FifoBuffer} (h : f.WellFormed) (data : List UInt8) :
    f.dataLength ≤ (f.write data).2.2.dataLength := by
  rw [← FifoBuffer.length_contents, ← FifoBuffer.length_contents, (FifoBuffer.write_eq h data).2.1,
    List.length_append]
  exact Nat.le_add_right _ _

theorem sbuf_processControl (hwf : s.sbuf.WellFormed)
    (hc : s.processControl env seg = some (bConnect, s')) :
    s.sbuf.dataLength ≤ s'.sbuf.dataLength := by
  obtain ⟨-, -, rfl⟩ | ⟨-, -, options, -, hcase⟩ := processControl_cases env hc
  · exact le_rfl
  have hsbuf : (s.parseOptions env options).sbuf = s.sbuf :=
    congrArg SendState.sbuf (sendState_parseOptions env s options)
  rw [← hsbuf] at hwf ⊢
  obtain ⟨-, rfl⟩ | ⟨-, rfl⟩ | ⟨-, -, rfl⟩ := hcase
  · exact dataLength_le_write hwf _
  · exact le_rfl
  · exact le_rfl

theorem waits_process (h : s.Waits) (htracked : s.sendState.Tracked) (seg : Segment)
    (hsum : 2 ≤ (s.process env seg).2.sbufLen + (s.process env seg).2.rbufLen) :
    (s.process env seg).2.Waits ∧ Owes s (s.process env seg).2 := by
  obtain (hr | hr | hr) | ⟨hheeds, bConnect, s₁, -, hc, -⟩ := process_cases env s seg
  · rw [hr]
    exact ⟨h, (Idles.refl s).owes⟩
  · rw [hr]
    have hidle : Idles s (s.arrive env) := ⟨rfl, rfl, rfl, .of_eq rfl⟩
    exact ⟨h.of_idles hidle id, hidle.owes⟩
  · rw [hr]
    have hidle : Idles s ((s.arrive env).closedown .econnreset) :=
      ⟨rfl, rfl, rfl, [.onTcpClosed .econnreset], rfl⟩
    exact ⟨h.of_idles hidle id, hidle.owes⟩
  -- Up to the acknowledgment part nothing is taken out of the send buffer.
  have hcore : (s₁.updateTimestamp seg).sendState = s₁.sendState := by
    rw [updateTimestamp]
    split <;> rfl
  have hidle : Idles s (s₁.updateTimestamp seg) := by
    have hcontrol : Idles s s₁ := by
      have hc' := idles_processControl env hc
      exact ⟨hc'.bReadEnable, hc'.bWriteEnable, hc'.received, hc'.notified⟩
    have hts : Idles s₁ (s₁.updateTimestamp seg) := by
      rw [updateTimestamp]
      split <;> exact ⟨rfl, rfl, rfl, .of_eq rfl⟩
    exact hcontrol.trans hts
  obtain ⟨hsteps, hopen⟩ : Steps (fun _ => True) (fun _ => True) (s.arrive env) s₁ ∧
      s₁.state ≠ .closed := steps_processControl env htracked.cap hheeds.2.1 hc
  have htracked' : (s₁.updateTimestamp seg).sendState.Tracked := by
    rw [hcore]
    exact tracked_of_steps (s := s.arrive env) htracked hsteps
  have hopen' : (s₁.updateTimestamp seg).state ≠ .closed := by
    rw [show (s₁.updateTimestamp seg).state = s₁.state from congrArg SendState.state hcore]
    exact hopen
  have hwaits : (s₁.updateTimestamp seg).Waits := by
    refine h.of_idles hidle fun hne => ?_
    have hle := sbuf_processControl env (s := s.arrive env) htracked.sbuf hc
    change s.sbuf.dataLength ≤ _ at hle
    rw [show (s₁.updateTimestamp seg).sbuf = s₁.sbuf from congrArg SendState.sbuf hcore]
    omega
  have hprocess := process_of_control env hheeds hc
  generalize s₁.updateTimestamp seg = a at hidle htracked' hopen' hwaits hprocess
  have hack := Idles.of_tends (tends_processAck env a (s.now env) seg)
  rcases hp : a.processAck env (s.now env) seg with ⟨_ | _, s₂⟩
  · rw [hp] at hprocess hack
    rw [hprocess]
    exact ⟨hwaits.of_idles hack (sbuf_processAck_false env htracked' hopen' hp),
      (hidle.trans hack).owes⟩
  rw [hp] at hprocess hack
  rw [hprocess] at hsum ⊢
  simp only at hsum hack ⊢
  have hbefore := (hidle.trans hack).trans (idles_enterEstablished s₂ bConnect)
  generalize s₂.enterEstablished bConnect = u at hbefore hsum ⊢
  have hread : u.bReadEnable = true → u.rbuf.dataLength = 0 := fun hb =>
    hbefore.received.trans (h.read (hbefore.bReadEnable.symm.trans hb))
  obtain ⟨howes, hflag, hrbuf, hwrite, hsbufLen, hrbufLen⟩ := notifyWriteable_spec u
  rw [← hflag, ← hrbuf] at hread
  generalize u.notifyWriteable = v at howes hread hwrite hsbufLen hrbufLen hsum ⊢
  obtain ⟨hdata, hkeeps, hdry⟩ := owes_processData env v seg hread
  refine ⟨⟨hdry, fun hb => ?_⟩, (hbefore.owes.trans howes).trans hdata⟩
  rw [hkeeps.sbuf]
  rw [hkeeps.sbufLen, hkeeps.rbufLen, hsbufLen, hrbufLen] at hsum
  exact hwrite hsum (hkeeps.bWriteEnable.symm.trans hb)

theorem dataLength_of_read_block {f rest : FifoBuffer} {bytes : ℕ} {data : List UInt8}
    (h : f.read bytes = (.block, data, rest)) : f.dataLength = 0 := by
  simp only [FifoBuffer.read, FifoBuffer.readOffset] at h
  by_cases hempty : f.dataLength ≤ 0
  · exact Nat.le_zero.mp hempty
  · rw [if_neg hempty] at h
    cases h

theorem dataLength_read_le (f : FifoBuffer) (bytes : ℕ) : (f.read bytes).2.2.dataLength ≤ f.dataLength := by
  simp only [FifoBuffer.read, FifoBuffer.readOffset]
  by_cases hempty : f.dataLength ≤ 0
  · rw [if_pos hempty]
    split
    · next heq =>
      split at heq <;> cases heq
    · exact le_rfl
  · rw [if_neg hempty]
    simp only [FifoBuffer.postEvent]
    split <;> exact Nat.sub_le _ _

theorem idles_openWindow (s : PseudoTcp) :
    Idles s (s.openWindow env) ∧ (s.openWindow env).sbuf = s.sbuf := by
  simp only [openWindow]
  split
  · split
    · have hsend := sending_attemptSend env
        { s with rcvWnd := UInt32.ofNat s.rbuf.getWriteRemaining } .immediateAck
      have hidle := Idles.of_sending hsend
      exact ⟨⟨hidle.bReadEnable, hidle.bWriteEnable, hidle.received, hidle.notified⟩, hsend.sbuf⟩
    · exact ⟨⟨rfl, rfl, rfl, .of_eq rfl⟩, rfl⟩
  · exact ⟨.refl _, rfl⟩

/-- A `Send` finds a send buffer with some capacity. -/
def SendsWithRoom (s : PseudoTcp) : Call → Prop
  | .send _ => s.sbuf.bufferLength ≠ 0
  | _ => True

theorem waits_recv (h : s.Waits) (len : ℕ) : (s.recv env len).2.Waits ∧ Owes s (s.recv env len).2 := by
  rw [recv]
  split
  · have hidle : Idles s { s with error := .enotconn } := ⟨rfl, rfl, rfl, .of_eq rfl⟩
    exact ⟨h.of_idles hidle id, hidle.owes⟩
  split
  · next hread =>
    exact ⟨⟨fun _ => dataLength_of_read_block hread, h.write⟩,
      ⟨fun _ => .inl rfl, fun hb => .inl hb, .of_eq rfl⟩⟩
  next data rbuf _ hread =>
  have hle : rbuf.dataLength ≤ s.rbuf.dataLength := by
    rw [show rbuf = (s.rbuf.read len).2.2 by rw [hread]]
    exact dataLength_read_le s.rbuf len
  obtain ⟨hidle, hsbuf⟩ := idles_openWindow env { s with rbuf := rbuf }
  refine ⟨⟨fun hb => ?_, fun hb => ?_⟩, ⟨fun hb => .inl (hidle.bReadEnable.trans hb),
    fun hb => .inl (hidle.bWriteEnable.trans hb), hidle.notified⟩⟩
  · have hempty := h.read (hidle.bReadEnable.symm.trans hb)
    rw [hidle.received]
    exact Nat.le_zero.mp (hempty ▸ hle)
  · rw [hsbuf]
    exact h.write (hidle.bWriteEnable.symm.trans hb)

theorem waits_send (h : s.Waits) (hwf : s.sbuf.WellFormed) (hroom : s.sbuf.bufferLength ≠ 0)
    (buffer : List UInt8) :
    (s.send env buffer).2.Waits ∧ Owes s (s.send env buffer).2 := by
  rw [send]
  split
  · have hidle : Idles s { s with error := .enotconn } := ⟨rfl, rfl, rfl, .of_eq rfl⟩
    exact ⟨h.of_idles hidle id, hidle.owes⟩
  split
  · next hfull =>
    refine ⟨⟨h.read, fun _ => ?_⟩, ⟨fun hb => .inl hb, fun _ => .inl rfl, .of_eq rfl⟩⟩
    -- A full buffer with some capacity is not empty.
    have hspace : s.sbuf.getWriteRemaining = s.sbuf.bufferLength - s.sbuf.dataLength := rfl
    change s.sbuf.dataLength ≠ 0
    omega
  have hqueue : Idles s (s.queue buffer (UInt32.ofNat buffer.length) false).2 :=
    ⟨rfl, rfl, rfl, .of_eq rfl⟩
  have hgrown : s.sbuf.dataLength ≤
      (s.queue buffer (UInt32.ofNat buffer.length) false).2.sbuf.dataLength :=
    dataLength_le_write hwf _
  simp only
  generalize (s.queue buffer (UInt32.ofNat buffer.length) false).2 = u at hqueue hgrown ⊢
  have hsend := sending_attemptSend env u .none
  have hidle := hqueue.trans (.of_sending hsend)
  refine ⟨h.of_idles hidle fun hne => ?_, hidle.owes⟩
  rw [hsend.sbuf]
  omega

theorem waits_connect (h : s.Waits) (hwf : s.sbuf.WellFormed) :
    (s.connect env).2.Waits ∧ Owes s (s.connect env).2 := by
  rw [connect]
  split
  · have hidle : Idles s { s with error := .einval } := ⟨rfl, rfl, rfl, .of_eq rfl⟩
    exact ⟨h.of_idles hidle id, hidle.owes⟩
  have hqueue : Idles s { s with state := .synSent }.queueConnectMessage :=
    ⟨rfl, rfl, rfl, .of_eq rfl⟩
  have hgrown : s.sbuf.dataLength ≤ { s with state := .synSent }.queueConnectMessage.sbuf.dataLength :=
    dataLength_le_write hwf _
  generalize { s with state := .synSent }.queueConnectMessage = u at hqueue hgrown ⊢
  have hsend := sending_attemptSend env u .none
  have hidle := hqueue.trans (.of_sending hsend)
  refine ⟨h.of_idles hidle fun hne => ?_, hidle.owes⟩
  rw [hsend.sbuf]
  omega

theorem idles_setOption (s : PseudoTcp) (opt : TcpOption) (value : Int32) :
    Idles s (s.setOption env opt value) ∧
      (s.setOption env opt value).sbuf.dataLength = s.sbuf.dataLength := by
  cases opt with
  | nodelay => exact ⟨⟨rfl, rfl, rfl, .of_eq rfl⟩, rfl⟩
  | ackdelay => exact ⟨⟨rfl, rfl, rfl, .of_eq rfl⟩, rfl⟩
  | rcvbuf => exact ⟨⟨rfl, rfl, FifoBuffer.setCapacity_dataLength _ _ _, .of_eq rfl⟩, rfl⟩
  | sndbuf => exact ⟨⟨rfl, rfl, rfl, .of_eq rfl⟩, FifoBuffer.setCapacity_dataLength _ _ _⟩

theorem waits_call (h : s.Waits) (htracked : s.sendState.Tracked) {c : Call}
    (hroom : s.SendsWithRoom c) (hcall : s.call env c = some s')
    (hsum : 2 ≤ s'.sbufLen + s'.rbufLen) : s'.Waits ∧ Owes s s' := by
  cases c with
  | connect =>
    cases hcall
    exact waits_connect env h htracked.sbuf
  | notifyMTU mtu =>
    cases hcall
    have hidle : Idles s (s.notifyMTU mtu) ∧ (s.notifyMTU mtu).sbuf = s.sbuf := by
      simp only [notifyMTU]
      split <;> exact ⟨⟨rfl, rfl, rfl, .of_eq rfl⟩, rfl⟩
    exact ⟨h.of_idles hidle.1 fun hne => hidle.2.symm ▸ hne, hidle.1.owes⟩
  | notifyClock now =>
    cases hcall
    have hticks := ticks_notifyClock env s now
    have hidle := Idles.of_tends hticks.toTends
    exact ⟨h.of_idles hidle fun hne => hticks.sbuf.symm ▸ hne, hidle.owes⟩
  | notifyPacket buffer =>
    obtain ⟨⟨ok, t⟩, ht, rfl⟩ := Option.map_eq_some_iff.mp hcall
    obtain rfl | ⟨seg, -, rfl⟩ := notifyPacket_cases env ht
    · exact ⟨h, (Idles.refl _).owes⟩
    · exact waits_process env h htracked seg hsum
  | setOption opt value =>
    cases hcall
    obtain ⟨hidle, hsbuf⟩ := idles_setOption env s opt value
    exact ⟨h.of_idles hidle fun hne => hsbuf.symm ▸ hne, hidle.owes⟩
  | recv len =>
    cases hcall
    exact waits_recv env h len
  | send buffer =>
    cases hcall
    exact waits_send env h htracked.sbuf hroom buffer
  | close force =>
    cases hcall
    have hidle : Idles s (s.close force) := ⟨rfl, rfl, rfl, .of_eq rfl⟩
    exact ⟨h.of_idles hidle id, hidle.owes⟩

/-! ### Runs -/

/-- `Recv` has just reported `EWOULDBLOCK`. -/
def RecvBlocked (s : PseudoTcp) : Prop :=
  ∃ u len, recv env u len = (none, s) ∧ s.error = .ewouldblock

/-- `Send` has just reported `EWOULDBLOCK`. -/
def SendBlocked (s : PseudoTcp) : Prop :=
  ∃ u buffer, send env u buffer = (none, s) ∧ s.error = .ewouldblock

theorem RecvBlocked.waits (h : s.RecvBlocked env) : s.bReadEnable = true := by
  obtain ⟨u, len, hrecv, herror⟩ := h
  rw [recv] at hrecv
  split at hrecv
  · cases hrecv
    cases herror
  split at hrecv
  · cases hrecv
    rfl
  · cases hrecv

theorem SendBlocked.waits (h : s.SendBlocked env) : s.bWriteEnable = true := by
  obtain ⟨u, buffer, hsend, herror⟩ := h
  rw [send] at hsend
  split at hsend
  · cases hsend
    cases herror
  split at hsend
  · cases hsend
    rfl
  · cases hsend

/-- The two buffer sizes, added up as the code does it, are at least two after the call. -/
def KeepsSizes (s : PseudoTcp) (c : Call) : Prop :=
  ∀ s' ∈ s.call env c, 2 ≤ s'.sbufLen + s'.rbufLen

instance (s : PseudoTcp) (c : Call) : Decidable (s.KeepsSizes env c) :=
  inferInstanceAs (Decidable (∀ s' ∈ s.call env c, 2 ≤ s'.sbufLen + s'.rbufLen))

instance (s : PseudoTcp) (c : Call) : Decidable (s.SendsWithRoom c) := by
  cases c <;> simp only [SendsWithRoom] <;> infer_instance

/-- What a caller that waits can rely on, between the states `s` and `t`. -/
structure WakesUp (s t : PseudoTcp) : Prop where
  /-- Who waits to read finds nothing to read. -/
  drained : s.bReadEnable = true → s.rbuf.getBuffered = 0
  /-- Who waits to write has something to send. -/
  filled : s.bWriteEnable = true → s.sbuf.getBuffered ≠ 0
  /-- After `Recv` has reported `EWOULDBLOCK`, there is nothing to read without a notification. -/
  readable : s.RecvBlocked env → t.rbuf.getBuffered ≠ 0 → NotifiedSince s t .onTcpReadable
  /-- After `Send` has reported `EWOULDBLOCK`, the buffer is not drained without a notification. -/
  writeable : s.SendBlocked env → t.sbuf.getBuffered = 0 → NotifiedSince s t .onTcpWriteable

theorem waits_new (conv : UInt32) : (new env conv).Waits := ⟨fun _ => rfl, fun h => by cases h⟩

theorem waits_run {calls : List Call} (h : s.Waits ∧ s.sendState.Tracked)
    (hok : Runs.Admissible (call env) (fun s c => s.SendsWithRoom c ∧ s.KeepsSizes env c) s calls)
    (hrun : Runs.run (call env) s calls = some t) :
    (t.Waits ∧ t.sendState.Tracked) ∧ Owes s t := by
  refine Runs.invariant (P := fun t => (t.Waits ∧ t.sendState.Tracked) ∧ Owes s t) ?_
    ⟨h, (Idles.refl s).owes⟩ hok hrun
  rintro u c u' ⟨⟨hwaits, htracked⟩, howes⟩ ⟨hroom, hsizes⟩ hcall
  obtain ⟨hwaits', howes'⟩ := waits_call env hwaits htracked hroom hcall (hsizes u' hcall)
  exact ⟨⟨hwaits', tracked_call env htracked hcall⟩, howes.trans howes'⟩

/-- **Wake-ups.** In every run in which the two buffer sizes are together at least two and no `Send` finds a
buffer without capacity, who waits to read finds nothing to read and who waits to write has something to send,
and both are notified before this changes. -/
theorem wakeUps_of_run (conv : UInt32) (pre mid : List Call)
    (hpre : Runs.run (call env) (new env conv) pre = some s)
    (hmid : Runs.run (call env) s mid = some t)
    (hok : Runs.Admissible (call env) (fun s c => s.SendsWithRoom c ∧ s.KeepsSizes env c)
      (new env conv) (pre ++ mid)) : WakesUp env s t := by
  obtain ⟨hokpre, hokmid⟩ := Runs.admissible_append hok
  obtain ⟨hs, -⟩ := waits_run env ⟨waits_new env conv, tracked_new env conv⟩ hokpre hpre
  obtain ⟨⟨ht, -⟩, howes⟩ := waits_run env hs (hokmid s hpre) hmid
  refine ⟨hs.1.read, hs.1.write, fun hblocked hdata => ?_, fun hblocked hempty => ?_⟩
  · exact (howes.read hblocked.waits).resolve_left fun hwait => hdata (ht.read hwait)
  · exact (howes.write hblocked.waits).resolve_left fun hwait => ht.write hwait hempty

/-- The handshake of the connecting side. -/
def openRun : List Call := [.connect, .notifyPacket (datagram 0 4 FLAG_CTL [0, 3, 1, 0])]

/-- A `Recv` finds nothing, and then three bytes arrive. -/
theorem wakeUps_of_run_data :
    ∃ s t, Runs.run (call quietEnv) (new quietEnv 7) (openRun ++ [.recv 10]) = some s ∧
      Runs.run (call quietEnv) s [.notifyPacket (datagram 4 4 0 [1, 2, 3])] = some t ∧
      s.bReadEnable = true ∧ t.rbuf.getBuffered = 3 ∧ WakesUp quietEnv s t := by
  have hend : (Runs.run (call quietEnv) (new quietEnv 7) (openRun ++ [.recv 10])).bind (fun s =>
      (Runs.run (call quietEnv) s [.notifyPacket (datagram 4 4 0 [1, 2, 3])]).map fun t =>
        (s.bReadEnable, t.rbuf.getBuffered)) = some (true, 3) := by decide +kernel
  obtain ⟨s, hs, hrest⟩ := Option.bind_eq_some_iff.mp hend
  obtain ⟨t, ht, heq⟩ := Option.map_eq_some_iff.mp hrest
  obtain ⟨hflag, hcount⟩ := Prod.mk.inj heq
  refine ⟨s, t, hs, ht, hflag, hcount, wakeUps_of_run quietEnv 7 _ _ hs ht ?_⟩
  decide +kernel

/-- With a send buffer of no capacity, `Send` waits with nothing to send. -/
theorem not_wakeUps_without_capacity : ¬ ∀ (env : Env) (conv : UInt32) (calls : List Call) (s : PseudoTcp),
      Runs.run (call env) (new env conv) calls = some s →
      Runs.Admissible (call env) (KeepsSizes env) (new env conv) calls →
      (s.bReadEnable = true → s.rbuf.getBuffered = 0) ∧
        (s.bWriteEnable = true → s.sbuf.getBuffered ≠ 0) := by
  intro h
  have hend : (Runs.run (call quietEnv) (new quietEnv 7) [.setOption .sndbuf 0,
      .notifyPacket (datagram 0 0 FLAG_CTL [0, 3, 1, 0]), .notifyPacket (datagram 4 0 0 []),
      .send [1]]).map (fun s => (s.bWriteEnable, s.sbuf.getBuffered)) = some (true, 0) := by
    decide +kernel
  obtain ⟨s, hs, heq⟩ := Option.map_eq_some_iff.mp hend
  obtain ⟨hflag, hcount⟩ := Prod.mk.inj heq
  exact (h quietEnv 7 _ s hs (by decide +kernel)).2 hflag hcount

end Synciga.PseudoTcp
