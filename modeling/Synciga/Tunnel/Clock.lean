import Synciga.Tunnel.PseudoTcpChannel

/-!
# The clock of a `PseudoTcpChannel`

A `PseudoTcp` stores deadlines, and `GetNextClock` tells how long its owner may wait before it calls
`NotifyClock`. For this the channel keeps a `MSG_WK_CLOCK` on its way, which `AdjustClock` replaces whenever a
deadline may have come nearer. By design a closed connection keeps its old deadlines, and one that has passed is
served at once, and so late. `Read` and `Write` start the retransmission timer without adjusting the clock; its
deadline is left out until that is done.

## Main definitions

* `Armed` — a clock message comes before the next deadline

## Main results

* `PseudoTcpChannel.armed_of_run` — it does in every run
-/

namespace Synciga

/-! ### The deadlines of a connection -/

/-- What a connection waits for. -/
inductive Deadline
  | ack
  | retransmit
  | probe
  deriving DecidableEq, Repr

namespace PseudoTcp

variable (env : Env) {s s' s'' : PseudoTcp}

/-- The deadlines that are stored in a connection. -/
def deadline (s : PseudoTcp) : Deadline → Option UInt32
  | .ack => if s.tAck ≠ 0 then some (s.tAck + s.ackDelay) else none
  | .retransmit => if s.rtoBase ≠ 0 then some (s.rtoBase + s.rxRto) else none
  | .probe => if s.sndWnd = 0 then some (s.lastsend + s.rxRto) else none

theorem getNextClock_le {now d : UInt32} {t : ℤ} (h : s.getNextClock now = some t)
    (hopen : s.state ≠ .closed) {k : Deadline} (hd : s.deadline k = some d) :
    t ≤ timeDiff d now := by
  rw [getNextClock] at h
  split at h
  · cases h
  split at h
  · cases h
  cases h
  rcases k with _ | _ | _
  · rw [deadline] at hd
    split at hd
    next hne =>
      cases hd
      split <;> split <;> omega
    · cases hd
  · rw [deadline] at hd
    split at hd
    next hne =>
      cases hd
      split <;> split <;> omega
    · cases hd
  rw [deadline] at hd
  split at hd
  next hzero =>
    cases hd
    simp only [if_pos hzero]
    exact min_le_right _ _
  · cases hd

/-! ### What sending does to the deadlines -/

/-- No deadline came nearer, except that the retransmission timer may have been started. -/
structure Deferred (s s' : PseudoTcp) : Prop where
  state : s'.state = s.state
  ackDelay : s'.ackDelay = s.ackDelay
  rxRto : s'.rxRto = s.rxRto
  sndWnd : s'.sndWnd = s.sndWnd
  tAck : s'.tAck = s.tAck ∨ s'.tAck = 0
  rtoBase : s.rtoBase ≠ 0 → s'.rtoBase = s.rtoBase
  lastsend : s.sndWnd = 0 → s'.lastsend = s.lastsend

theorem Deferred.refl (s : PseudoTcp) : Deferred s s :=
  ⟨rfl, rfl, rfl, rfl, .inl rfl, fun _ => rfl, fun _ => rfl⟩

theorem Deferred.trans (h : Deferred s s') (h' : Deferred s' s'') : Deferred s s'' where
  state := h'.state.trans h.state
  ackDelay := h'.ackDelay.trans h.ackDelay
  rxRto := h'.rxRto.trans h.rxRto
  sndWnd := h'.sndWnd.trans h.sndWnd
  tAck := by
    rcases h'.tAck with heq | hzero
    · rw [heq]
      exact h.tAck
    · exact .inr hzero
  rtoBase hne := (h'.rtoBase (h.rtoBase hne ▸ hne)).trans (h.rtoBase hne)
  lastsend hzero := (h'.lastsend (h.sndWnd.trans hzero)).trans (h.lastsend hzero)

theorem Deferred.deadline (h : Deferred s s') {k : Deadline} {d : UInt32}
    (hk : k = .retransmit → s'.rtoBase ≠ 0 → s.rtoBase ≠ 0) (hd : s'.deadline k = some d) :
    s.deadline k = some d := by
  rcases k with _ | _ | _
  · rw [PseudoTcp.deadline] at hd ⊢
    split at hd
    next hne =>
      have heq := h.tAck.resolve_right hne
      rwa [if_pos (heq ▸ hne), ← heq, ← h.ackDelay]
    · cases hd
  · rw [PseudoTcp.deadline] at hd ⊢
    split at hd
    next hne =>
      have hne' := hk rfl hne
      rwa [if_pos hne', ← h.rtoBase hne', ← h.rxRto]
    · cases hd
  rw [PseudoTcp.deadline] at hd ⊢
  split at hd
  next hzero =>
    have hzero' : s.sndWnd = 0 := h.sndWnd ▸ hzero
    rwa [if_pos hzero', ← h.lastsend hzero', ← h.rxRto]
  · cases hd

theorem Deferred.of_sending (h : Sending s s') (htAck : s'.tAck = s.tAck ∨ s'.tAck = 0)
    (hrto : s.rtoBase ≠ 0 → s'.rtoBase = s.rtoBase)
    (hlast : s.sndWnd = 0 → s'.lastsend = s.lastsend) : Deferred s s' :=
  ⟨h.state, congrArg Steady.ackDelay h.steady, congrArg Steady.rxRto h.steady,
    congrArg Steady.sndWnd h.steady, htAck, hrto, hlast⟩

theorem tAck_packet (s : PseudoTcp) (seq : UInt32) (flags : UInt8) (offset len : UInt32) :
    (s.packet env seq flags offset len).2.tAck = s.tAck ∨
      (s.packet env seq flags offset len).2.tAck = 0 := by
  simp only [packet]
  split
  · exact .inl rfl
  · exact .inr rfl

theorem tAck_lowerMss (nTransmit : UInt32) (fuel : ℕ) (s : PseudoTcp) :
    (s.lowerMss nTransmit fuel).2.tAck = s.tAck := by
  induction fuel generalizing s with
  | zero => rfl
  | succ fuel ih =>
    rw [lowerMss]
    split
    · rfl
    simp only
    split
    · rfl
    · exact ih _

theorem tAck_transmitLoop (seg : SSegment) (fuel : ℕ) (nTransmit : UInt32) (s : PseudoTcp) :
    (transmitLoop env seg fuel nTransmit s).2.tAck = s.tAck ∨
      (transmitLoop env seg fuel nTransmit s).2.tAck = 0 := by
  induction fuel generalizing s nTransmit with
  | zero => exact .inl rfl
  | succ fuel ih =>
    have hpacket := tAck_packet env s seg.seq (if seg.bCtrl then FLAG_CTL else 0)
      (seg.seq - s.sndUna) nTransmit
    rw [transmitLoop]
    rcases hp : s.packet env seg.seq (if seg.bCtrl then FLAG_CTL else 0) (seg.seq - s.sndUna)
      nTransmit with ⟨wres, t⟩
    rw [hp] at hpacket
    rcases wres with _ | _ | _
    · exact hpacket
    · have hlow := tAck_lowerMss nTransmit PACKET_MAXIMUMS.length t
      simp only
      rcases hm : t.lowerMss nTransmit PACKET_MAXIMUMS.length with ⟨_ | n', t'⟩
      all_goals rw [hm] at hlow
      · rw [hlow]
        exact hpacket
      · rcases ih n' t' with heq | hzero
        · rw [heq, hlow]
          exact hpacket
        · exact .inr hzero
    · exact hpacket

theorem tAck_transmit (s : PseudoTcp) (i : ℕ) (now : UInt32) :
    (s.transmit env i now).2.tAck = s.tAck ∨ (s.transmit env i now).2.tAck = 0 := by
  rw [transmit]
  split
  · exact .inl rfl
  next g _ =>
  have hloop := tAck_transmitLoop env g PACKET_MAXIMUMS.length (min g.len s.mss) s
  by_cases hlimit : (if s.state = .established then 15 else 30) ≤ g.xmit
  · rw [if_pos hlimit]
    exact .inl rfl
  rw [if_neg hlimit]
  rcases hr : transmitLoop env g PACKET_MAXIMUMS.length (min g.len s.mss) s with ⟨_ | n, t⟩
  · rw [hr] at hloop
    exact hloop
  · rw [hr] at hloop
    exact hloop

theorem deferred_transmit (hwnd : s.sndWnd ≠ 0) (i : ℕ) (now : UInt32) :
    Deferred s (s.transmit env i now).2 := by
  refine .of_sending (sending_transmit env s i now) (tAck_transmit env s i now) ?_
    fun hzero => absurd hzero hwnd
  intro hne
  rcases transmit_cases env s i now with ⟨t, heq, hmarks⟩ | ⟨t, l₁, g, l₂, n, heq, -, hsent⟩
  · rw [heq]
    exact congrArg (fun m => m.2.2) hmarks
  · rw [heq]
    exact hsent.rtoBase.trans (if_neg hne)

theorem deferred_splitSegment (s : PseudoTcp) (i : ℕ) (nAvailable : UInt32) :
    Deferred s (s.splitSegment i nAvailable) := by
  refine .of_sending (sending_splitSegment s i nAvailable) ?_ ?_ ?_ <;>
    rw [splitSegment] <;> split <;> try split
  all_goals first | exact .inl rfl | exact fun _ => rfl

theorem deferred_packet (s : PseudoTcp) (seq : UInt32) (flags : UInt8) :
    Deferred s (s.packet env seq flags 0 0).2 := by
  refine .of_sending (sending_packet env s seq flags 0 0) (tAck_packet env s seq flags 0 0) ?_ ?_
  · intro _
    exact congrArg (fun m => m.2.2) (marks_packet env s seq flags 0 0)
  · intro _
    simp [packet, tick]

theorem sendable_of_sndWnd_eq_zero (h : s.sndWnd = 0) : s.sendable = 0 := by
  have hmin (a : UInt32) : min 0 a = 0 := if_pos UInt32.zero_le
  simp only [sendable, h, hmin, UInt32.not_lt_zero, if_false, UInt32.zero_mul]
  split
  · rfl
  next hnot => exact UInt32.le_zero_iff.mp (UInt32.not_lt.mp hnot)

theorem deferred_attemptSendLoop (now : UInt32) (fuel : ℕ) (sflags : SendFlags)
    (hflags : sflags ≠ .delayedAck) (s : PseudoTcp) :
    Deferred s (attemptSendLoop env now fuel sflags s) := by
  induction fuel generalizing s sflags with
  | zero => exact .refl s
  | succ fuel ih =>
    rw [attemptSendLoop]
    split
    · split
      · exact .refl s
      next hsome =>
      have himmediate : sflags = .immediateAck := by
        rcases sflags with _ | _ | _
        · exact absurd rfl hsome
        · exact absurd rfl hflags
        · rfl
      rw [if_pos (.inl himmediate)]
      exact deferred_packet env s s.sndNxt 0
    next hsendable =>
    split
    · exact .refl s
    split
    · exact .refl s
    next i _ =>
    have hwnd : s.sndWnd ≠ 0 := fun hzero => hsendable (sendable_of_sndWnd_eq_zero hzero)
    have hsplit := deferred_splitSegment s i s.sendable
    have hsent := hsplit.trans (deferred_transmit env (hsplit.sndWnd ▸ hwnd) i now)
    rcases hr : (s.splitSegment i s.sendable).transmit env i now with ⟨_ | _, t⟩
    · rw [hr] at hsent
      exact hsent
    · rw [hr] at hsent
      exact hsent.trans (ih .none (by rintro ⟨⟩) t)

theorem deferred_attemptSend (s : PseudoTcp) {sflags : SendFlags}
    (hflags : sflags ≠ .delayedAck) : Deferred s (s.attemptSend env sflags) := by
  refine Deferred.trans ?_ (deferred_attemptSendLoop env _ _ sflags hflags _)
  split <;> exact ⟨rfl, rfl, rfl, rfl, .inl rfl, fun _ => rfl, fun _ => rfl⟩

theorem deferred_openWindow (s : PseudoTcp) : Deferred s (s.openWindow env) := by
  rw [openWindow]
  simp only
  split
  · have hopened (rcvWnd : UInt32) : Deferred s { s with rcvWnd := rcvWnd } :=
      ⟨rfl, rfl, rfl, rfl, .inl rfl, fun _ => rfl, fun _ => rfl⟩
    split
    · exact (hopened _).trans (deferred_attemptSend env _ (by rintro ⟨⟩))
    · exact hopened _
  · exact .refl s

theorem deferred_recv (s : PseudoTcp) (len : ℕ) : Deferred s (s.recv env len).2 := by
  rw [recv]
  split
  · exact ⟨rfl, rfl, rfl, rfl, .inl rfl, fun _ => rfl, fun _ => rfl⟩
  split
  · exact ⟨rfl, rfl, rfl, rfl, .inl rfl, fun _ => rfl, fun _ => rfl⟩
  next rbuf _ _ =>
  have hread : Deferred s { s with rbuf := rbuf } :=
    ⟨rfl, rfl, rfl, rfl, .inl rfl, fun _ => rfl, fun _ => rfl⟩
  exact hread.trans (deferred_openWindow env _)

theorem deferred_queue (s : PseudoTcp) (data : List UInt8) (len : UInt32) (bCtrl : Bool) :
    Deferred s (s.queue data len bCtrl).2 :=
  ⟨rfl, rfl, rfl, rfl, .inl rfl, fun _ => rfl, fun _ => rfl⟩

theorem deferred_send (s : PseudoTcp) (buffer : List UInt8) : Deferred s (s.send env buffer).2 := by
  rw [send]
  split
  · exact ⟨rfl, rfl, rfl, rfl, .inl rfl, fun _ => rfl, fun _ => rfl⟩
  split
  · exact ⟨rfl, rfl, rfl, rfl, .inl rfl, fun _ => rfl, fun _ => rfl⟩
  · exact (deferred_queue s buffer (UInt32.ofNat buffer.length) false).trans
      (deferred_attemptSend env _ (by rintro ⟨⟩))

end PseudoTcp

namespace PseudoTcpChannel

variable {env : Env} {c c' : PseudoTcpChannel}

/-! ### What the clock depends on -/

/-- The fields that the clock depends on. -/
structure ClockPart where
  tcp : Option PseudoTcp
  started : Bool
  workerQueue : List WorkerMessage
  adjustedAt : UInt32
  postedAt : UInt32
  strayTimer : Bool

/-- The part of a channel that the clock depends on. -/
def clockPart (c : PseudoTcpChannel) : ClockPart :=
  ⟨c.tcp, c.started, c.workerQueue, c.adjustedAt, c.postedAt, c.strayTimer⟩

theorem clockPart_onTcp (c : PseudoTcpChannel) (n : Notification) :
    (c.onTcp n).clockPart = c.clockPart := by
  rcases n with _ | _ | _ | error
  · rw [onTcp, onTcpOpen]
    split <;> rfl
  · rw [onTcp, onTcpReadable]
    split
    · dsimp only
      split <;> rfl
    · rfl
  · rw [onTcp, onTcpWriteable]
    split <;> rfl
  · rw [onTcp, onTcpClosed]
    split <;> rfl

theorem clockPart_afterTcp (c : PseudoTcpChannel) (tcp tcp' : PseudoTcp) :
    (c.afterTcp tcp tcp').clockPart = { c.clockPart with tcp := some tcp' } := by
  have hnotified (notified : List Notification) (c : PseudoTcpChannel) :
      (notified.foldr (fun n c => c.onTcp n) c).clockPart = c.clockPart := by
    induction notified with
    | nil => rfl
    | cons n notified ih => exact (clockPart_onTcp _ n).trans ih
  exact hnotified _ _

/-! ### The invariant -/

/-- The message that is due at `trigger` meets the deadline: it is late by the time between the two readings of
the last `AdjustClock` at most, or the deadline had passed at the first and it was due at once. -/
def Meets (c : PseudoTcpChannel) (trigger d : UInt32) : Prop :=
  timeDiff (trigger - (c.postedAt - c.adjustedAt)) d ≤ 0 ∨
    trigger = c.postedAt ∧ timeDiff d c.adjustedAt < 0

/-- Once `tcp_` has connected or received a packet, a clock message is on its way, and unless the connection is
closed, it meets every deadline but that of a timer that `Read` or `Write` has started. -/
def Armed (c : PseudoTcpChannel) : Prop :=
  ∀ tcp, c.tcp = some tcp → c.started = true → ∃ trigger, .clock trigger ∈ c.workerQueue ∧
    (tcp.state ≠ .closed → ∀ k d, tcp.deadline k = some d →
      ¬ (k = .retransmit ∧ c.strayTimer = true) → c.Meets trigger d)

theorem Armed.of_clockPart (h : c.Armed) (heq : c'.clockPart = c.clockPart) : c'.Armed := by
  have htcp : c'.tcp = c.tcp := congrArg ClockPart.tcp heq
  have hstarted : c'.started = c.started := congrArg ClockPart.started heq
  have hqueue : c'.workerQueue = c.workerQueue := congrArg ClockPart.workerQueue heq
  have hadjusted : c'.adjustedAt = c.adjustedAt := congrArg ClockPart.adjustedAt heq
  have hposted : c'.postedAt = c.postedAt := congrArg ClockPart.postedAt heq
  have hstray : c'.strayTimer = c.strayTimer := congrArg ClockPart.strayTimer heq
  simp only [Armed, Meets, htcp, hstarted, hqueue, hadjusted, hposted, hstray] at h ⊢
  exact h

theorem armed_of_tcp_eq_none (h : c.tcp = none) : c.Armed := by
  intro tcp htcp
  cases h.symm.trans htcp

theorem armed_adjustClock (c : PseudoTcpChannel) (now : Readings) (clear : Bool) :
    (c.adjustClock now clear).Armed := by
  rw [adjustClock]
  split
  next hnone => exact armed_of_tcp_eq_none hnone
  next tcp htcp =>
  split
  next timeout htimeout =>
    intro tcp' htcp' _
    cases htcp.symm.trans htcp'
    refine ⟨_, List.mem_append_right _ (List.mem_singleton.mpr rfl), fun hopen k d hd _ => ?_⟩
    have hle := PseudoTcp.getNextClock_le htimeout hopen hd
    rcases le_or_gt 0 (timeDiff d now.adjusted) with hahead | hpassed
    · left
      have hback (x : UInt32) : now.posted + x - (now.posted - now.adjusted) = now.adjusted + x := by grind
      simp only [hback]
      exact timeDiff_add_nonpos (le_max_right _ _) (max_le hle hahead)
    · right
      rw [max_eq_right (hle.trans hpassed.le)]
      exact ⟨UInt32.add_zero _, hpassed⟩
  · dsimp only
    split
    · exact armed_of_tcp_eq_none rfl
    · exact armed_of_tcp_eq_none rfl

/-- A call of the stream thread leaves the clock as it is, since no deadline comes nearer but that of
a timer it starts. -/
theorem Armed.unadjusted {tcp tcp' : PseudoTcp} (h : c.Armed) (htcp : c.tcp = some tcp)
    (hdeferred : PseudoTcp.Deferred tcp tcp') : ((c.afterTcp tcp tcp').noteTimer tcp tcp').Armed := by
  have hafter := clockPart_afterTcp c tcp tcp'
  have hpart : ((c.afterTcp tcp tcp').noteTimer tcp tcp').clockPart = { c.clockPart with
      tcp := some tcp'
      strayTimer := c.strayTimer || decide (tcp.rtoBase = 0 ∧ tcp'.rtoBase ≠ 0) } := by
    rw [noteTimer]
    split
    next hstart =>
      rw [decide_eq_true hstart, Bool.or_true]
      exact congrArg (fun p => { p with strayTimer := true }) hafter
    next hnot =>
      rw [decide_eq_false hnot, Bool.or_false]
      exact hafter
  obtain ⟨htcp₁, hstarted₁, hqueue₁, hadjusted₁, hposted₁, hstray₁⟩ := ClockPart.mk.inj hpart
  intro t ht hstarted
  cases htcp₁.symm.trans ht
  obtain ⟨trigger, hmem, hmeets⟩ := h tcp htcp (hstarted₁.symm.trans hstarted)
  refine ⟨trigger, hqueue₁ ▸ hmem, fun hopen k d hd hk => ?_⟩
  rw [hstray₁, Bool.or_eq_true, decide_eq_true_iff] at hk
  have hold : tcp.deadline k = some d := by
    refine hdeferred.deadline (fun hretransmit hne hzero => ?_) hd
    exact hk ⟨hretransmit, .inr ⟨hzero, hne⟩⟩
  have hold := hmeets (hdeferred.state ▸ hopen) k d hold fun hstray => hk ⟨hstray.1, .inl hstray.2⟩
  rw [Meets, hadjusted₁, hposted₁]
  exact hold

/-! ### Steps and runs -/

theorem Armed.read (h : c.Armed) (env : Env) (now : Readings) (len : ℕ) : (c.read env now len).2.Armed := by
  rw [PseudoTcpChannel.read]
  split
  · exact h
  next tcp htcp =>
  have hcall := Armed.unadjusted (c := { c with streamReadable := false })
    (h.of_clockPart rfl) htcp (PseudoTcp.deferred_recv (env.at now) tcp len)
  generalize tcp.recv (env.at now) len = r at hcall ⊢
  obtain ⟨result, tcp'⟩ := r
  dsimp only at hcall ⊢
  split
  · dsimp only
    split
    · exact hcall.of_clockPart rfl
    · exact hcall.of_clockPart rfl
  · split
    · exact hcall
    · exact hcall

theorem Armed.write (h : c.Armed) (env : Env) (now : Readings) (data : List UInt8) :
    (c.write env now data).2.Armed := by
  rw [PseudoTcpChannel.write]
  split
  · exact h
  next tcp htcp =>
  have hcall := h.unadjusted htcp (PseudoTcp.deferred_send (env.at now) tcp data)
  generalize tcp.send (env.at now) data = r at hcall ⊢
  dsimp only at hcall ⊢
  repeat' split
  all_goals exact hcall

theorem Armed.close (h : c.Armed) (now : Readings) : (c.close now).Armed := by
  rw [PseudoTcpChannel.close]
  split
  · exact armed_adjustClock _ now true
  · rw [checkDestroy]
    split
    · exact h.of_clockPart rfl
    · exact h.of_clockPart rfl

theorem Armed.connect (h : c.Armed) {now : Readings} {initiator : Bool}
    (hstep : (c.connect env now initiator).map Prod.snd = some c') : c'.Armed := by
  rw [PseudoTcpChannel.connect] at hstep
  split at hstep
  · cases hstep
    exact h
  split at hstep
  · cases hstep
  · cases hstep
    intro _ _ hstarted
    cases hstarted

theorem armed_onChannelDestroyed (c : PseudoTcpChannel) (now : Readings) :
    (c.onChannelDestroyed now).Armed := by
  obtain ⟨ready, events, -, heq⟩ := onChannelDestroyed_eq c now
  rw [heq]
  exact armed_of_tcp_eq_none rfl

theorem Armed.onSessionTerminate (h : c.Armed) : c.onSessionTerminate.Armed := by
  rw [PseudoTcpChannel.onSessionTerminate]
  split
  · dsimp only
    split
    · exact h.of_clockPart rfl
    · exact h.of_clockPart rfl
  · exact h

theorem Armed.onChannelWritableState (h : c.Armed) (env : Env) (now : Readings) (writable : Bool) :
    (c.onChannelWritableState env now writable).Armed := by
  rw [PseudoTcpChannel.onChannelWritableState]
  split
  · exact h
  split
  · exact h
  split
  · exact h
  · exact armed_adjustClock _ now true

theorem Armed.onChannelRead (h : c.Armed) {now : Readings} {data : List UInt8}
    (hstep : c.onChannelRead env now data = some c') : c'.Armed := by
  rw [PseudoTcpChannel.onChannelRead] at hstep
  split at hstep
  · cases hstep
    exact h
  split at hstep
  · cases hstep
    exact h
  · obtain ⟨r, -, rfl⟩ := Option.map_eq_some_iff.mp hstep
    exact armed_adjustClock _ now true

theorem Armed.onChannelConnectionChanged (h : c.Armed) (now : Readings) (mtu : UInt16) :
    (c.onChannelConnectionChanged now mtu).Armed := by
  rw [PseudoTcpChannel.onChannelConnectionChanged]
  split
  · exact h
  split
  · exact h
  · exact armed_adjustClock _ now true

theorem Armed.onWorkerMessage (h : c.Armed) {i : ℕ} {m : WorkerMessage}
    (hm : c.workerQueue[i]? = some m) (env : Env) (now : Readings) :
    ({ c with workerQueue := c.workerQueue.eraseIdx i }.onWorkerMessage env now m).Armed := by
  rcases m with trigger | _
  · rw [PseudoTcpChannel.onWorkerMessage]
    split
    next hnone => exact armed_of_tcp_eq_none hnone
    · exact armed_adjustClock _ now false
  have hpurged : Armed { c with workerQueue := c.workerQueue.eraseIdx i, workerThread := false } := by
    intro tcp htcp hstarted
    obtain ⟨trigger, hmem, hmeets⟩ := h tcp htcp hstarted
    refine ⟨trigger, ?_, hmeets⟩
    obtain ⟨hi, hpurge⟩ := List.getElem?_eq_some_iff.mp hm
    have hperm := (List.getElem_cons_eraseIdx_perm hi).mem_iff.mpr hmem
    rw [hpurge] at hperm
    have hne : WorkerMessage.clock trigger ≠ .purge := nofun
    exact List.mem_of_ne_of_mem hne hperm
  rw [PseudoTcpChannel.onWorkerMessage, checkDestroy]
  split
  · exact hpurged
  · exact hpurged.of_clockPart rfl

theorem Armed.step (h : c.Armed) {a : Readings × Action} (hstep : c.step env a = some c') : c'.Armed := by
  obtain ⟨now, action⟩ := a
  rw [PseudoTcpChannel.step] at hstep
  split at hstep
  · cases hstep
  rcases action with _ | initiator | _ | _ | len | data | _ | writable | data | mtu | i | _ | _
  · cases hstep
    exact h.of_clockPart rfl
  · exact h.connect hstep
  · dsimp only at hstep
    split at hstep
    · cases hstep
      exact armed_onChannelDestroyed c now
    · cases hstep
  · cases hstep
    exact h.onSessionTerminate
  · dsimp only at hstep
    split at hstep
    · cases hstep
      exact h.read env now len
    · cases hstep
  · dsimp only at hstep
    split at hstep
    · cases hstep
      exact h.write env now data
    · cases hstep
  · dsimp only at hstep
    split at hstep
    · cases hstep
      exact h.close now
    · cases hstep
  · cases hstep
    exact h.onChannelWritableState env now writable
  · exact h.onChannelRead hstep
  · cases hstep
    exact h.onChannelConnectionChanged now mtu
  · dsimp only at hstep
    split at hstep
    · cases hstep
    next m hm =>
      cases hstep
      exact h.onWorkerMessage hm env now
  · dsimp only at hstep
    split at hstep
    · cases hstep
    · cases hstep
      rw [onStreamMessage]
      split
      · exact h.of_clockPart rfl
      · exact h.of_clockPart rfl
  dsimp only at hstep
  split at hstep
  · cases hstep
  next m rest _ =>
    cases hstep
    rcases m with _ | _
    · exact h.of_clockPart rfl
    · exact h.of_clockPart rfl

/-- Along every run, the clock is armed. -/
theorem armed_of_run {as : List (Readings × Action)}
    (hrun : Runs.run (PseudoTcpChannel.step env) new as = some c) : c.Armed := by
  refine Runs.invariant_of_step ?_ (armed_of_tcp_eq_none rfl) hrun
  intro s a s' hs hstep
  exact hs.step hstep

/-- The connect message is sent, and the stream is read before it is answered. -/
theorem armed_of_connectRun :
    ∃ c tcp, Runs.run (PseudoTcpChannel.step PseudoTcp.quietEnv) new
        [(.still 900, .getStream), (.still 900, .connect true), (.still 1000, .writableState true),
          (.still 1100, .read 10)] = some c ∧
      c.tcp = some tcp ∧ c.started = true ∧ tcp.state ≠ .closed ∧ tcp.rtoBase ≠ 0 ∧
        c.strayTimer = false ∧ c.Armed := by
  have hend : (Runs.run (PseudoTcpChannel.step PseudoTcp.quietEnv) new
      [(.still 900, .getStream), (.still 900, .connect true), (.still 1000, .writableState true),
        (.still 1100, .read 10)]).bind (fun c => c.tcp.map fun tcp =>
      (c.started, c.strayTimer, tcp.state, tcp.rtoBase)) = some (true, false, .synSent, 1000) := by
    decide +kernel
  obtain ⟨c, hrun, htcp⟩ := Option.bind_eq_some_iff.mp hend
  obtain ⟨tcp, htcp, heq⟩ := Option.map_eq_some_iff.mp htcp
  simp only [Prod.mk.injEq] at heq
  obtain ⟨hstarted, hstray, hstate, hrto⟩ := heq
  refine ⟨c, tcp, hrun, htcp, hstarted, ?_, ?_, hstray, armed_of_run hrun⟩
  · rw [hstate]
    decide
  · rw [hrto]
    decide

/-- The route changes when the retransmission is already due: the clock message is due at once, but
after the deadline. -/
theorem not_on_time_after_delay :
    ¬ ∀ (env : Env) (as : List (Readings × Action)) (c : PseudoTcpChannel) (tcp : PseudoTcp),
      Runs.run (PseudoTcpChannel.step env) new as = some c → c.tcp = some tcp →
      c.started = true → ∃ trigger, .clock trigger ∈ c.workerQueue ∧
        ∀ k d, tcp.deadline k = some d → timeDiff trigger d ≤ 0 := by
  intro h
  have hend : (Runs.run (PseudoTcpChannel.step PseudoTcp.quietEnv) new
      [(.still 900, .connect true), (.still 1000, .writableState true),
        (.still 5000, .connectionChanged 1280)]).bind (fun c => c.tcp.map fun tcp =>
      (c.started, c.workerQueue, tcp.deadline .retransmit)) =
        some (true, [.clock 5000], some 4000) := by decide +kernel
  obtain ⟨c, hrun, htcp⟩ := Option.bind_eq_some_iff.mp hend
  obtain ⟨tcp, htcp, heq⟩ := Option.map_eq_some_iff.mp htcp
  simp only [Prod.mk.injEq] at heq
  obtain ⟨hstarted, hqueue, hdeadline⟩ := heq
  obtain ⟨trigger, hmem, hon⟩ := h _ _ c tcp hrun htcp hstarted
  rw [hqueue, List.mem_singleton] at hmem
  cases hmem
  exact absurd (hon .retransmit 4000 hdeadline) (by decide)

end PseudoTcpChannel

end Synciga
