import Synciga.PseudoTcp.RecvWindow
import Synciga.PseudoTcp.WakeUps
import Synciga.Tunnel.PseudoTcpChannel

/-!
# The readable events of a `PseudoTcpChannel`

A `PseudoTcp` notifies its owner once that there is something to read, and not again before a `Recv` has found
nothing. `OnTcpOpen`, `OnTcpReadable` and a `Read` that has found data post a `MSG_ST_EVENT` with `SE_READ`.
`pending_read_event_` is set when one is posted and cleared when one is delivered, but `OnTcpOpen` does not look
at it.

## Main definitions

* `Watched` — a channel, with what its reader was told

## Main results

* `Watched.readEvents_of_run` — a reader that goes on whenever it is told to reads all data
* `Watched.not_readEvents_of_early_data` — two events at once
-/

namespace Synciga

namespace PseudoTcp

variable (env : Env) {s s' t : PseudoTcp}

/-! ### What a call of `tcp_` owes to a reader -/

/-- A reader that waits is told of data, and one that could not read yet of the connection. -/
structure ReadStep (s s' : PseudoTcp) : Prop where
  grows : Grows s s'
  buffer : s'.rbuf.state = s.rbuf.state
  drained : (s.bReadEnable = true → s.rbuf.dataLength = 0) → s'.bReadEnable = true → s'.rbuf.dataLength = 0
  told : s.bReadEnable = true → s'.bReadEnable = true ∨ NotifiedSince s s' .onTcpReadable
  opened : s'.state = .established → s.state = .established ∨ NotifiedSince s s' .onTcpOpen

theorem ReadStep.trans (h : ReadStep s s') (h' : ReadStep s' t) : ReadStep s t where
  grows := h.grows.trans h'.grows
  buffer := h'.buffer.trans h.buffer
  drained hdry := h'.drained (h.drained hdry)
  told hwait := by
    rcases h.told hwait with hwait' | htold
    · exact (h'.told hwait').imp_right fun htold => htold.earlier h.grows
    · exact .inr (htold.later h'.grows)
  opened hopen := by
    rcases h'.opened hopen with hopen' | htold
    · exact (h.opened hopen').imp_right fun htold => htold.later h'.grows
    · exact .inr (htold.earlier h.grows)

theorem ReadStep.of_idles (h : Idles s s') (hbuf : s'.rbuf.state = s.rbuf.state)
    (hstate : s'.state = .established → s.state = .established ∨ NotifiedSince s s' .onTcpOpen) :
    ReadStep s s' :=
  ⟨h.notified, hbuf, fun hdry hwait => h.received.trans (hdry (h.bReadEnable.symm.trans hwait)),
    fun hwait => .inl (h.bReadEnable.trans hwait), hstate⟩

theorem ReadStep.of_same_state (h : Idles s s') (hbuf : s'.rbuf.state = s.rbuf.state)
    (hstate : s'.state = s.state ∨ s'.state = .closed) : ReadStep s s' := by
  refine .of_idles h hbuf fun hopen => ?_
  rcases hstate with hstate | hstate
  · exact .inl (hstate.symm.trans hopen)
  · rw [hstate] at hopen
    cases hopen

theorem rbuf_state_of_kept (h : s'.kept = s.kept) : s'.rbuf.state = s.rbuf.state :=
  congrArg (fun x : Kept => x.rbuf.state) h

theorem ReadStep.of_tends (h : Tends s s') : ReadStep s s' :=
  .of_same_state (.of_tends h) (rbuf_state_of_kept h.kept) h.state

theorem ReadStep.of_sending (h : Sending s s') : ReadStep s s' :=
  .of_tends (Ticks.of_sending h).toTends

theorem rbuf_state_parseOptions (s : PseudoTcp) (data : List UInt8) :
    (s.parseOptions env data).rbuf.state = s.rbuf.state := by
  obtain ⟨scale, h⟩ | ⟨-, scale, h⟩ := parseOptions_cases env s data
  · rw [h]
  · rw [h]
    exact FifoBuffer.setCapacity_state _ _ _

theorem readStep_processControl {seg : Segment} {bConnect : Bool}
    (hc : s.processControl env seg = some (bConnect, s')) : ReadStep s s' := by
  have hidle := idles_processControl env hc
  obtain ⟨-, -, rfl⟩ | ⟨-, -, options, -, hcase⟩ := processControl_cases env hc
  · exact .of_same_state hidle rfl (.inl rfl)
  have hstate := parseOptions_state env s options
  have hbuf := rbuf_state_parseOptions env s options
  have hparsed := idles_parseOptions env s options
  obtain ⟨-, rfl⟩ | ⟨-, rfl⟩ | ⟨-, -, rfl⟩ := hcase
  · exact .of_idles hidle hbuf nofun
  · obtain ⟨more, hmore⟩ := hparsed.notified
    exact .of_idles hidle hbuf fun _ => .inr ⟨.onTcpOpen :: more,
      congrArg (Notification.onTcpOpen :: ·) hmore, List.mem_cons_self⟩
  · exact .of_same_state hidle hbuf (.inl hstate)

theorem readStep_enterEstablished (s : PseudoTcp) (bConnect : Bool) :
    ReadStep s (s.enterEstablished bConnect) := by
  refine .of_idles (idles_enterEstablished s bConnect)
    (rbuf_state_of_kept (kept_enterEstablished s bConnect)) fun hopen => ?_
  rw [enterEstablished] at hopen ⊢
  split at hopen
  · next hsyn =>
    rw [if_pos hsyn]
    exact .inr ⟨[.onTcpOpen], rfl, List.mem_singleton_self _⟩
  · exact .inl hopen

theorem readStep_notifyWriteable (s : PseudoTcp) : ReadStep s s.notifyWriteable := by
  obtain ⟨howes, hflag, hrbuf, -⟩ := notifyWriteable_spec s
  refine ⟨howes.notified, congrArg FifoBuffer.state hrbuf, fun hdry hwait => ?_, howes.read,
    fun hopen => .inl ?_⟩
  · rw [hrbuf]
    exact hdry (hflag.symm.trans hwait)
  · rcases (quiet_notifyWriteable s).state with hstate | hstate
    · exact hstate.symm.trans hopen
    · rw [hstate] at hopen
      cases hopen

theorem rbuf_state_recoverSaved (rlist : List RSegment) (s : PseudoTcp) :
    (recoverSaved rlist s).2.rbuf.state = s.rbuf.state := by
  induction rlist generalizing s with
  | nil => rfl
  | cons r rlist ih =>
    rw [recoverSaved_cons]
    split
    · split
      · exact (ih _).trans (FifoBuffer.consumeWriteBuffer_state _ _)
      · exact ih s
    · rfl

theorem rbuf_state_processData (s : PseudoTcp) (seg : Segment) :
    (s.processData env seg).rbuf.state = s.rbuf.state := by
  have hdata (g : Segment) (sflags : SendFlags) :
      (s.receiveData g sflags).2.2.rbuf.state = s.rbuf.state := by
    rw [receiveData_snd]
    have hplace : (s.placeData g).rbuf.state = s.rbuf.state := FifoBuffer.writeOffset_state _ _ _
    split
    · rfl
    split
    · split <;> rfl
    split
    · exact (rbuf_state_recoverSaved _ _).trans
        ((FifoBuffer.consumeWriteBuffer_state _ _).trans hplace)
    · exact hplace
  refine Eq.trans ?_ (hdata (s.trim seg) (s.ackFlags seg))
  exact rbuf_state_of_kept ((kept_notifyReadable _ _).trans
    (kept_of_sending (sending_attemptSend env _ _)))

theorem readStep_processData (s : PseudoTcp) (seg : Segment)
    (hdry : s.bReadEnable = true → s.rbuf.dataLength = 0) : ReadStep s (s.processData env seg) := by
  obtain ⟨howes, -, hdry'⟩ := owes_processData env s seg hdry
  exact ⟨howes.notified, rbuf_state_processData env s seg, fun _ => hdry', howes.read,
    fun hopen => .inl ((state_processData env s seg).1.symm.trans hopen)⟩

theorem readStep_process (s : PseudoTcp) (seg : Segment)
    (hdry : s.bReadEnable = true → s.rbuf.dataLength = 0) : ReadStep s (s.process env seg).2 := by
  have harrive : ReadStep s (s.arrive env) :=
    .of_same_state ⟨rfl, rfl, rfl, .of_eq rfl⟩ rfl (.inl rfl)
  obtain (hr | hr | hr) | ⟨-, bConnect, s₁, s₂, hc, hs₂, hr⟩ := process_cases env s seg
  · rw [hr]
    exact .of_same_state (.refl s) rfl (.inl rfl)
  · rw [hr]
    exact harrive
  · rw [hr]
    exact harrive.trans (.of_tends (ticks_closedown _ _).toTends)
  have hack := tends_processAck env (s₁.updateTimestamp seg) (s.now env) seg
  rw [hs₂] at hack
  have hstep := (harrive.trans (readStep_processControl env hc)).trans
    (.of_tends ((tends_updateTimestamp s₁ seg).trans hack))
  rcases hr with hr | hr
  · rw [hr]
    exact hstep
  · rw [hr]
    have hnext := (hstep.trans (readStep_enterEstablished s₂ bConnect)).trans
      (readStep_notifyWriteable _)
    exact hnext.trans (readStep_processData env _ seg (hnext.drained hdry))

theorem readStep_connect (s : PseudoTcp) : ReadStep s (s.connect env).2 := by
  rw [connect]
  split
  · exact .of_same_state ⟨rfl, rfl, rfl, .of_eq rfl⟩ rfl (.inl rfl)
  · have hqueue : ReadStep s { s with state := .synSent }.queueConnectMessage :=
      .of_idles ⟨rfl, rfl, rfl, .of_eq rfl⟩ rfl (by rintro ⟨⟩)
    exact hqueue.trans (.of_sending (sending_attemptSend env _ _))

theorem readStep_openWindow (s : PseudoTcp) : ReadStep s (s.openWindow env) := by
  refine .of_same_state (idles_openWindow env s).1 ?_ (quiet_openWindow env s).state
  simp only [openWindow]
  split
  · split
    · have hsent := rbuf_state_of_kept (kept_of_sending (sending_attemptSend env
        { s with rcvWnd := UInt32.ofNat s.rbuf.getWriteRemaining } .immediateAck))
      exact hsent
    · rfl
  · rfl

theorem readStep_recv (s : PseudoTcp) (len : ℕ) : ReadStep s (s.recv env len).2 := by
  rw [recv]
  split
  · exact .of_same_state ⟨rfl, rfl, rfl, .of_eq rfl⟩ rfl (.inl rfl)
  split
  · next hread =>
    exact ⟨.of_eq rfl, rfl, fun _ _ => dataLength_of_read_block hread, fun _ => .inl rfl, .inl⟩
  next data rbuf _ hread =>
  have hrest : (s.rbuf.read len).2.2 = rbuf := by rw [hread]
  have hle : rbuf.dataLength ≤ s.rbuf.dataLength := hrest ▸ dataLength_read_le s.rbuf len
  have hbuf : rbuf.state = s.rbuf.state := hrest ▸ FifoBuffer.read_state s.rbuf len
  have htaken : ReadStep s { s with rbuf := rbuf } :=
    ⟨.of_eq rfl, hbuf, fun hdry hwait => Nat.le_zero.mp (hle.trans (hdry hwait).le), .inl, .inl⟩
  exact htaken.trans (readStep_openWindow env _)

theorem readStep_send (s : PseudoTcp) (buffer : List UInt8) : ReadStep s (s.send env buffer).2 := by
  rw [send]
  split
  · exact .of_same_state ⟨rfl, rfl, rfl, .of_eq rfl⟩ rfl (.inl rfl)
  split
  · exact ⟨.of_eq rfl, rfl, id, .inl, .inl⟩
  · have hqueue : ReadStep s (s.queue buffer (UInt32.ofNat buffer.length) false).2 :=
      .of_same_state ⟨rfl, rfl, rfl, .of_eq rfl⟩ rfl (.inl rfl)
    exact hqueue.trans (.of_sending (sending_attemptSend env _ _))

theorem readStep_notifyPacket {buffer : List UInt8} {ok : Bool}
    (hdry : s.bReadEnable = true → s.rbuf.dataLength = 0)
    (h : s.notifyPacket env buffer = some (ok, s')) : ReadStep s s' := by
  obtain rfl | ⟨seg, -, rfl⟩ := notifyPacket_cases env h
  · exact .of_same_state (.refl _) rfl (.inl rfl)
  · exact readStep_process env s seg hdry

theorem notified_recv (s : PseudoTcp) (len : ℕ) : (s.recv env len).2.notified = s.notified := by
  rw [recv]
  split
  · rfl
  split
  · rfl
  next data rbuf _ _ =>
  simp only [openWindow]
  split
  · split
    · exact congrArg Steady.notified (sending_attemptSend env { s with
        rbuf := rbuf, rcvWnd := UInt32.ofNat rbuf.getWriteRemaining } .immediateAck).steady
    · rfl
  · rfl

theorem read_of_data {f : FifoBuffer} (bytes : ℕ) (hdata : 0 < f.dataLength) :
    ∃ data rest, f.read bytes = (.success, data, rest) ∧ data.length = min bytes f.dataLength := by
  simp only [FifoBuffer.read, FifoBuffer.readOffset, if_neg (Nat.not_le.mpr hdata)]
  refine ⟨_, _, rfl, ?_⟩
  rw [List.length_append, RingMemory.length_readMem, RingMemory.length_readMem]
  omega

theorem recv_of_data (len : ℕ) (hopen : s.state = .established) (hdata : 0 < s.rbuf.dataLength) :
    (s.recv env len).1 = some (s.rbuf.read len).2.1 ∧
      (s.rbuf.read len).2.1.length = min len s.rbuf.dataLength := by
  obtain ⟨data, rest, hread, hlen⟩ := read_of_data len hdata
  rw [recv, if_neg (not_not.mpr hopen), hread]
  exact ⟨rfl, hlen⟩

theorem dataLength_read (f : FifoBuffer) (bytes : ℕ) :
    (f.read bytes).2.2.dataLength + (f.read bytes).2.1.length = f.dataLength := by
  rcases Nat.eq_zero_or_pos f.dataLength with hempty | hpos
  · simp only [FifoBuffer.read, FifoBuffer.readOffset, if_pos (Nat.le_zero.mpr hempty)]
    by_cases hstate : f.state ≠ .closed
    · rw [if_pos hstate]
      rfl
    · rw [if_neg hstate]
      rfl
  obtain ⟨data, rest, hread, hlen⟩ := read_of_data bytes hpos
  have hrest : rest.dataLength = f.dataLength - data.length := by
    simp only [FifoBuffer.read, FifoBuffer.readOffset, if_neg (Nat.not_le.mpr hpos)] at hread
    cases hread
    exact FifoBuffer.postEvent_dataLength ..
  rw [hread]
  change rest.dataLength + data.length = f.dataLength
  omega

theorem dataLength_recv (s : PseudoTcp) (len : ℕ) :
    (s.recv env len).2.rbuf.dataLength + ((s.recv env len).1.getD []).length =
      s.rbuf.dataLength := by
  have hcount := dataLength_read s.rbuf len
  rw [recv]
  by_cases hopen : s.state ≠ .established
  · rw [if_pos hopen]
    rfl
  rw [if_neg hopen]
  generalize s.rbuf.read len = r at hcount ⊢
  obtain ⟨result, taken, rest⟩ := r
  have hidle := (idles_openWindow env { s with rbuf := rest }).1.received
  cases result with
  | block => rfl
  | error | success | eos => exact (congrArg (· + taken.length) hidle).trans hcount

theorem recv_open (s : PseudoTcp) (len : ℕ) (h : (s.recv env len).2.state = .established) :
    s.state = .established := by
  rcases (readStep_recv env s len).opened h with hopen | ⟨more, hmore, hmem⟩
  · exact hopen
  · rw [notified_recv] at hmore
    rw [List.self_eq_append_left.mp hmore] at hmem
    cases hmem

theorem recv_of_empty {len : ℕ} (hopen : s.state = .established) (hbuf : s.rbuf.state = .opened)
    (hempty : s.rbuf.dataLength = 0) : (s.recv env len).2.bReadEnable = true := by
  have hread : s.rbuf.read len = (.block, [], s.rbuf) := by
    rw [FifoBuffer.read, FifoBuffer.readOffset, if_pos (Nat.le_zero.mpr hempty), hbuf]
    rfl
  rw [recv, if_neg (not_not.mpr hopen), hread]

end PseudoTcp

namespace PseudoTcpChannel

open PseudoTcp

variable (env : Env) {c c' : PseudoTcpChannel}

/-! ### The flag and the queue -/

/-- The queued events that carry `SE_READ`. -/
def readEvents (c : PseudoTcpChannel) : ℕ := c.streamQueue.countP fun data => data.event.read

/-- The fields that the bookkeeping is about. -/
structure EventPart where
  stream : Bool
  pendingReadEvent : Bool
  streamQueue : List EventData

/-- The part of a channel that the bookkeeping is about. -/
def eventPart (c : PseudoTcpChannel) : EventPart := ⟨c.stream, c.pendingReadEvent, c.streamQueue⟩

/-- An event that is pending is queued. -/
def Pends (c : PseudoTcpChannel) : Prop := c.pendingReadEvent = true → 0 < c.readEvents

/-- The flag counts the events. -/
def Counts (c : PseudoTcpChannel) : Prop := c.readEvents = if c.pendingReadEvent then 1 else 0

theorem Counts.iff (h : c.Counts) : c.pendingReadEvent = true ↔ 0 < c.readEvents := by
  rw [h]
  cases c.pendingReadEvent <;> decide

theorem readEvents_of_eventPart (heq : c'.eventPart = c.eventPart) : c'.readEvents = c.readEvents := by
  rw [readEvents, readEvents, show c'.streamQueue = _ from congrArg EventPart.streamQueue heq]
  rfl

theorem Pends.of_eventPart (h : c.Pends) (heq : c'.eventPart = c.eventPart) : c'.Pends := by
  simp only [eventPart, EventPart.mk.injEq] at heq
  rw [Pends, readEvents, heq.2.1, heq.2.2]
  exact h

theorem Counts.of_eventPart (h : c.Counts) (heq : c'.eventPart = c.eventPart) : c'.Counts := by
  simp only [eventPart, EventPart.mk.injEq] at heq
  rw [Counts, readEvents, heq.2.1, heq.2.2]
  exact h

theorem readEvents_postEvent (c : PseudoTcpChannel) (event : StreamEvents) (error : EventError) :
    (c.postEvent event error).readEvents = c.readEvents + if event.read then 1 else 0 := by
  rw [readEvents, postEvent, List.countP_append, List.countP_singleton]
  rfl

/-- Tell the stream to read, unless it has been told. -/
def postRead (c : PseudoTcpChannel) (readable : Bool) : PseudoTcpChannel :=
  if c.pendingReadEvent then { c with streamReadable := readable }
  else { c with streamReadable := readable, pendingReadEvent := true }.postEvent SE_READ (.code 0)

theorem postRead_spec (c : PseudoTcpChannel) (readable : Bool) : (c.postRead readable).stream = c.stream ∧
      c.readEvents ≤ (c.postRead readable).readEvents ∧
      (c.Pends → (c.postRead readable).Pends ∧ 0 < (c.postRead readable).readEvents) ∧
      (c.Counts → (c.postRead readable).Counts) := by
  rw [postRead]
  split
  · next hpending => exact ⟨rfl, le_rfl, fun h => ⟨h, h hpending⟩, id⟩
  next hclear =>
  have hposted := readEvents_postEvent
    { c with streamReadable := readable, pendingReadEvent := true } SE_READ (.code 0)
  change _ = c.readEvents + 1 at hposted
  refine ⟨rfl, by omega, fun _ => ⟨fun _ => by omega, by omega⟩, fun h => ?_⟩
  rw [Counts, if_neg hclear] at h
  rw [Counts, hposted, h]
  rfl

theorem readEvents_postEvent_of_not_read (c : PseudoTcpChannel) {event : StreamEvents} (error : EventError)
    (hevent : event.read = false) :
    (c.postEvent event error).readEvents = c.readEvents := by
  rw [readEvents_postEvent, hevent]
  rfl

/-- What a notification does to them. -/
structure Told (n : Notification) (c c' : PseudoTcpChannel) : Prop where
  stream : c'.stream = c.stream
  tcp : c'.tcp = c.tcp
  keeps : c.readEvents ≤ c'.readEvents
  pends : c.Pends → c'.Pends
  reads : c.Pends → c.stream = true → n = .onTcpOpen ∨ n = .onTcpReadable → 0 < c'.readEvents
  counts : c.Counts → (n = .onTcpOpen → c.pendingReadEvent = false) → c'.Counts

theorem told_postEvent (c : PseudoTcpChannel) {n : Notification} {event : StreamEvents}
    (error : EventError) (hevent : event.read = false) (hopen : n ≠ .onTcpOpen)
    (hread : n ≠ .onTcpReadable) : Told n c (c.postEvent event error) := by
  have hposted := readEvents_postEvent_of_not_read c error hevent
  refine ⟨rfl, rfl, hposted.ge, fun h => ?_, fun _ _ hn => ?_, fun h _ => ?_⟩
  · rw [Pends, hposted]
    exact h
  · rcases hn with hn | hn
    · exact absurd hn hopen
    · exact absurd hn hread
  · rw [Counts, hposted]
    exact h

theorem told_onTcp (c : PseudoTcpChannel) (n : Notification) : Told n c (c.onTcp n) := by
  by_cases hstream : c.stream = true
  swap
  · have hnone : c.onTcp n = c := by
      rcases n with _ | _ | _ | error
      · exact if_neg hstream
      · exact if_neg hstream
      · exact if_neg hstream
      · exact if_neg hstream
    rw [hnone]
    exact ⟨rfl, rfl, le_rfl, id, fun _ hs => absurd hs hstream, fun h _ => h⟩
  rcases n with _ | _ | _ | error
  · have hopen : c.onTcp .onTcpOpen = { c with
        streamReadable := true, pendingReadEvent := true }.postEvent
          ⟨true, true, true, false⟩ (.code 0) := if_pos hstream
    have hposted := readEvents_postEvent
      { c with streamReadable := true, pendingReadEvent := true } ⟨true, true, true, false⟩ (.code 0)
    change _ = c.readEvents + 1 at hposted
    rw [hopen]
    refine ⟨rfl, rfl, by omega, fun _ _ => by omega, fun _ _ _ => by omega, fun h hclear => ?_⟩
    rw [Counts, if_neg (by rw [hclear rfl]; decide)] at h
    rw [Counts, hposted, h]
    rfl
  · have hread : c.onTcp .onTcpReadable = c.postRead true := by
      rw [onTcp, onTcpReadable, if_pos hstream]
      rfl
    have htcp : (c.postRead true).tcp = c.tcp := by
      rw [postRead]
      split <;> rfl
    obtain ⟨hs, hle, hpends, hcounts⟩ := postRead_spec c true
    rw [hread]
    exact ⟨hs, htcp, hle, fun h => (hpends h).1, fun h _ _ => (hpends h).2, fun h _ => hcounts h⟩
  · rw [show c.onTcp .onTcpWriteable = c.postEvent SE_WRITE (.code 0) from if_pos hstream]
    exact told_postEvent c _ rfl nofun nofun
  · rw [show c.onTcp (.onTcpClosed error) = c.postEvent SE_CLOSE (.tcp error) from if_pos hstream]
    exact told_postEvent c _ rfl nofun nofun

/-- What the notifications of a whole call do, latest first. -/
theorem told_all (c : PseudoTcpChannel) (notified : List Notification) :
    (notified.foldr (fun n c => c.onTcp n) c).stream = c.stream ∧
      (notified.foldr (fun n c => c.onTcp n) c).tcp = c.tcp ∧
      c.readEvents ≤ (notified.foldr (fun n c => c.onTcp n) c).readEvents ∧
      (c.Pends → (notified.foldr (fun n c => c.onTcp n) c).Pends) ∧
      (c.Pends → c.stream = true → .onTcpOpen ∈ notified ∨ .onTcpReadable ∈ notified →
        0 < (notified.foldr (fun n c => c.onTcp n) c).readEvents) := by
  induction notified with
  | nil => exact ⟨rfl, rfl, le_rfl, id, fun _ _ hn => by rcases hn with hn | hn <;> cases hn⟩
  | cons n notified ih =>
    obtain ⟨hstream, htcp, hle, hpends, hreads⟩ := ih
    rw [List.foldr_cons]
    generalize notified.foldr (fun n c => c.onTcp n) c = u at hstream htcp hle hpends hreads ⊢
    have htold := told_onTcp u n
    refine ⟨htold.stream.trans hstream, htold.tcp.trans htcp, hle.trans htold.keeps,
      fun h => htold.pends (hpends h), fun h hs hn => ?_⟩
    by_cases hlast : n = .onTcpOpen ∨ n = .onTcpReadable
    · exact htold.reads (hpends h) (hstream.trans hs) hlast
    · refine (hreads h hs ?_).trans_le htold.keeps
      simp only [List.mem_cons, eq_comm (b := n)] at hn
      tauto

theorem afterTcp_spec (c : PseudoTcpChannel) (tcp tcp' : PseudoTcp) :
    (c.afterTcp tcp tcp').stream = c.stream ∧ (c.afterTcp tcp tcp').tcp = some tcp' ∧
      c.readEvents ≤ (c.afterTcp tcp tcp').readEvents ∧
      (c.Pends → (c.afterTcp tcp tcp').Pends) ∧
      (c.Pends → c.stream = true → NotifiedSince tcp tcp' .onTcpOpen ∨
        NotifiedSince tcp tcp' .onTcpReadable → 0 < (c.afterTcp tcp tcp').readEvents) := by
  have hmem {n : Notification} (h : NotifiedSince tcp tcp' n) :
      n ∈ tcp'.notified.take (tcp'.notified.length - tcp.notified.length) := by
    obtain ⟨more, hmore, hn⟩ := h
    rw [hmore, List.length_append, Nat.add_sub_cancel, List.take_left]
    exact hn
  obtain ⟨hstream, htcp, hle, hpends, hreads⟩ := told_all { c with
    tcp := some tcp'
    sent := (tcp'.written.take (tcp'.written.length - tcp.written.length)).map
      (fun p => (c.channel, p.1)) ++ c.sent }
    (tcp'.notified.take (tcp'.notified.length - tcp.notified.length))
  exact ⟨hstream, htcp, hle, hpends, fun h hs hn => hreads h hs (hn.imp hmem hmem)⟩

theorem eventPart_afterTcp {tcp tcp' : PseudoTcp} (h : tcp'.notified = tcp.notified) :
    (c.afterTcp tcp tcp').eventPart = c.eventPart := by
  rw [afterTcp, h, Nat.sub_self, List.take_zero]
  rfl

theorem eventPart_noteTimer (c : PseudoTcpChannel) (tcp tcp' : PseudoTcp) :
    (c.noteTimer tcp tcp').eventPart = c.eventPart ∧ (c.noteTimer tcp tcp').tcp = c.tcp := by
  rw [noteTimer]
  split <;> exact ⟨rfl, rfl⟩

theorem eventPart_adjustClock (c : PseudoTcpChannel) (now : Readings) (clear : Bool) :
    (c.adjustClock now clear).eventPart = c.eventPart ∧
      ((c.adjustClock now clear).tcp = c.tcp ∨ (c.adjustClock now clear).tcp = none) := by
  rw [adjustClock]
  split
  · exact ⟨rfl, .inl rfl⟩
  split
  · exact ⟨rfl, .inl rfl⟩
  · simp only
    split <;> exact ⟨rfl, .inr rfl⟩

/-! ### `Read` -/

/-- What `Read` does: if it has found data, it tells the stream to read again. -/
theorem read_cases (c : PseudoTcpChannel) (now : Readings) (len : ℕ) :
    c.tcp = none ∧ c.read env now len = ((.block, [], .ok), c) ∨
      ∃ tcp c₁, c.tcp = some tcp ∧ c₁.eventPart = c.eventPart ∧
        c₁.tcp = some (tcp.recv (env.at now) len).2 ∧
        ((∃ b data, (tcp.recv (env.at now) len).1 = some (b :: data) ∧
            c.read env now len = ((.success, b :: data, .ok), c₁.postRead true)) ∨
          (∀ b data, (tcp.recv (env.at now) len).1 ≠ some (b :: data)) ∧
            (c.read env now len).1.1 ≠ .success ∧ (c.read env now len).2 = c₁) := by
  rcases htcp : c.tcp with _ | tcp
  · exact .inl ⟨rfl, by rw [read, htcp]⟩
  refine .inr ⟨tcp, (({ c with streamReadable := false } : PseudoTcpChannel).afterTcp tcp
    (tcp.recv (env.at now) len).2).noteTimer tcp (tcp.recv (env.at now) len).2, rfl, ?_, ?_, ?_⟩
  · exact (eventPart_noteTimer _ _ _).1.trans
      (eventPart_afterTcp (c := { c with streamReadable := false }) (notified_recv _ _ _))
  · exact (eventPart_noteTimer _ _ _).2.trans (afterTcp_spec _ _ _).2.1
  rw [read, htcp]
  simp only
  rcases tcp.recv (env.at now) len with ⟨_ | _ | ⟨b, data⟩, tcp'⟩
  · refine .inr ⟨nofun, ?_⟩
    simp only
    split <;> exact ⟨nofun, rfl⟩
  · refine .inr ⟨nofun, ?_⟩
    simp only
    split <;> exact ⟨nofun, rfl⟩
  · exact .inl ⟨b, data, rfl, rfl⟩

theorem postRead_tcp (c : PseudoTcpChannel) (readable : Bool) : (c.postRead readable).tcp = c.tcp := by
  rw [postRead]
  split <;> rfl

/-- What this means for the flag and the queue. -/
theorem read_spec (c : PseudoTcpChannel) (now : Readings) (len : ℕ) :
    (c.read env now len).2.stream = c.stream ∧ c.readEvents ≤ (c.read env now len).2.readEvents ∧
      (c.read env now len).2.tcp = c.tcp.map (fun tcp => (tcp.recv (env.at now) len).2) ∧
      (c.Pends → (c.read env now len).2.Pends) ∧ (c.Counts → (c.read env now len).2.Counts) ∧
      (c.Pends → (c.read env now len).1.1 = .success → 0 < (c.read env now len).2.readEvents) := by
  obtain ⟨htcp, hread⟩ | ⟨tcp, c₁, htcp, hpart, htcp₁, hcase⟩ := read_cases env c now len
  · rw [hread, htcp]
    exact ⟨rfl, le_rfl, rfl, id, id, nofun⟩
  have hevents : c₁.readEvents = c.readEvents := readEvents_of_eventPart hpart
  have hstream : c₁.stream = c.stream := congrArg EventPart.stream hpart
  rw [htcp, Option.map_some, ← htcp₁, ← hevents, ← hstream]
  obtain ⟨b, data, -, hread⟩ | ⟨-, hfail, hread⟩ := hcase
  · rw [hread]
    obtain ⟨hs, hle, hpends, hcounts⟩ := postRead_spec c₁ true
    exact ⟨hs, hle, postRead_tcp c₁ true, fun h => (hpends (h.of_eventPart hpart)).1,
      fun h => hcounts (h.of_eventPart hpart), fun h _ => (hpends (h.of_eventPart hpart)).2⟩
  · rw [hread]
    exact ⟨rfl, le_rfl, rfl, fun h => h.of_eventPart hpart, fun h => h.of_eventPart hpart,
      fun _ hsuccess => absurd hsuccess hfail⟩

/-! ### The stream in any order of events -/

/-- What can happen to the stream: a notification, a `Read`, the delivery of an event; in between, anything may
happen to `tcp_`. -/
inductive StreamOp
  | onTcp (n : Notification)
  | tcp (tcp : Option PseudoTcp)
  | read (now : Readings) (len : ℕ)
  | streamMessage

/-- The channel after it; `none` when there is no event to be delivered. -/
def streamOp (c : PseudoTcpChannel) : StreamOp → Option PseudoTcpChannel
  | .onTcp n => some (c.onTcp n)
  | .tcp tcp => some { c with tcp := tcp }
  | .read now len => some (c.read env now len).2
  | .streamMessage =>
    match c.streamQueue with
    | [] => none
    | data :: rest => some ({ c with streamQueue := rest }.onStreamMessage data)

/-- `OnTcpOpen` finds the flag clear. -/
def OpensClear (c : PseudoTcpChannel) : StreamOp → Prop
  | .onTcp .onTcpOpen => c.pendingReadEvent = false
  | _ => True

theorem onStreamMessage_spec {data : EventData} {rest : List EventData}
    (hqueue : c.streamQueue = data :: rest) :
    (({ c with streamQueue := rest }.onStreamMessage data).stream = c.stream) ∧
      ({ c with streamQueue := rest }.onStreamMessage data).tcp = c.tcp ∧
      c.readEvents = ({ c with streamQueue := rest }.onStreamMessage data).readEvents +
        (if data.event.read then 1 else 0) ∧
      (c.Pends → ({ c with streamQueue := rest }.onStreamMessage data).Pends) ∧
      (c.Counts → ({ c with streamQueue := rest }.onStreamMessage data).Counts) := by
  have hevents : c.readEvents = rest.countP (fun data => data.event.read) +
      (if data.event.read then 1 else 0) := by
    rw [readEvents, hqueue, List.countP_cons]
  rw [onStreamMessage]
  split
  · next hread =>
    rw [if_pos hread] at hevents
    refine ⟨rfl, rfl, hevents, fun _ => nofun, fun h => ?_⟩
    rw [Counts, hevents] at h
    have hone : rest.countP (fun data => data.event.read) = 0 := by
      split at h <;> omega
    exact hone
  next hread =>
  rw [if_neg hread, Nat.add_zero] at hevents
  refine ⟨rfl, rfl, hevents, fun h hp => ?_, fun h => ?_⟩
  · have hpos := h hp
    rw [hevents] at hpos
    exact hpos
  · rw [Counts, hevents] at h
    exact h

/-- In any order of events, an event that is pending is queued; and as long as `OnTcpOpen` finds the
flag clear, the flag counts the events. -/
theorem pending_run {ops : List StreamOp} (h : c.Counts) (hrun : Runs.run (streamOp env) c ops = some c') :
    c'.Pends ∧ (Runs.Admissible (streamOp env) OpensClear c ops → c'.Counts) := by
  have hpends : c.Pends := fun hp => h.iff.mp hp
  constructor
  · refine Runs.invariant_of_step (P := Pends) ?_ hpends hrun
    intro u op u' hu hop
    cases op with
    | onTcp n =>
      cases hop
      exact (told_onTcp u n).pends hu
    | tcp tcp =>
      cases hop
      exact hu
    | read now len =>
      cases hop
      exact (read_spec env u now len).2.2.2.1 hu
    | streamMessage =>
      rcases hqueue : u.streamQueue with _ | ⟨data, rest⟩
      · rw [streamOp, hqueue] at hop
        cases hop
      · rw [streamOp, hqueue] at hop
        cases hop
        exact (onStreamMessage_spec hqueue).2.2.2.1 hu
  · intro hok
    refine Runs.invariant (P := Counts) ?_ h hok hrun
    intro u op u' hu hclear hop
    cases op with
    | onTcp n =>
      cases hop
      refine (told_onTcp u n).counts hu fun hn => ?_
      rw [hn] at hclear
      exact hclear
    | tcp tcp =>
      cases hop
      exact hu
    | read now len =>
      cases hop
      exact (read_spec env u now len).2.2.2.2.1 hu
    | streamMessage =>
      rcases hqueue : u.streamQueue with _ | ⟨data, rest⟩
      · rw [streamOp, hqueue] at hop
        cases hop
      · rw [streamOp, hqueue] at hop
        cases hop
        exact (onStreamMessage_spec hqueue).2.2.2.2 hu

end PseudoTcpChannel

/-! ### A reader that reads once for each event -/

/-- A channel, and whether its reader has been told to read and has not done so. -/
structure Watched where
  channel : PseudoTcpChannel
  owed : Bool

namespace Watched

open PseudoTcp PseudoTcpChannel

variable (env : Env) {w w' : Watched} {c c' : PseudoTcpChannel} {owed : Bool}

/-- In the beginning. -/
def new : Watched := ⟨.new, false⟩

/-- A step of the channel. -/
def step (w : Watched) (a : Readings × Action) : Option Watched :=
  (w.channel.step env a).map fun c => ⟨c, match a.2 with
    | .streamMessage => w.owed || (w.channel.streamQueue.head?.any fun data => data.event.read)
    | .read _ => false
    | _ => w.owed⟩

/-- The stream is there before the connection is open, and is not closed; and the reader asks for at
least one byte. -/
def Uses (w : Watched) (a : Readings × Action) : Prop :=
  match a.2 with
  | .getStream => ∀ tcp ∈ w.channel.tcp, w.channel.stream = false → tcp.state ≠ .established
  | .close => False
  | .read len => 0 < len
  | _ => True

/-- The invariant: an event that is pending is queued; and once the connection is open, `tcp_` waits to
notify of data, or an event is queued, or the reader is about to read. -/
structure Owing (w : Watched) : Prop where
  pends : w.channel.Pends
  drained : ∀ tcp ∈ w.channel.tcp, tcp.rbuf.state = .opened ∧
    (tcp.bReadEnable = true → tcp.rbuf.dataLength = 0)
  reads : ∀ tcp ∈ w.channel.tcp, w.channel.stream = true → tcp.state = .established →
    tcp.bReadEnable = false → 0 < w.channel.readEvents ∨ w.owed = true

theorem owing_new : Owing new := by
  have hflag : new.channel.pendingReadEvent = false := rfl
  have htcp : new.channel.tcp = none := rfl
  refine ⟨fun hp => ?_, fun tcp hmem => ?_, fun tcp hmem => ?_⟩
  · rw [hflag] at hp
    cases hp
  · rw [htcp] at hmem
    cases hmem
  · rw [htcp] at hmem
    cases hmem

theorem Owing.of_grows (h : Owing ⟨c, owed⟩) (hpends : c'.Pends) (hstream : c'.stream = c.stream)
    (htcp : c'.tcp = c.tcp ∨ c'.tcp = none) (hle : c.readEvents ≤ c'.readEvents) :
    Owing ⟨c', owed⟩ := by
  rcases htcp with htcp | htcp
  · refine ⟨hpends, fun tcp hmem => h.drained tcp (htcp ▸ hmem), fun tcp hmem hs hopen hflag => ?_⟩
    exact (h.reads tcp (htcp ▸ hmem) (hstream.symm.trans hs) hopen hflag).imp_left
      fun hpos => hpos.trans_le hle
  · refine ⟨hpends, fun tcp hmem => ?_, fun tcp hmem => ?_⟩
    · rw [show (Watched.channel ⟨c', owed⟩).tcp = none from htcp] at hmem
      cases hmem
    · rw [show (Watched.channel ⟨c', owed⟩).tcp = none from htcp] at hmem
      cases hmem

theorem Owing.of_eventPart (h : Owing ⟨c, owed⟩) (heq : c'.eventPart = c.eventPart)
    (htcp : c'.tcp = c.tcp ∨ c'.tcp = none) : Owing ⟨c', owed⟩ :=
  h.of_grows (h.pends.of_eventPart heq) (congrArg EventPart.stream heq) htcp
    (readEvents_of_eventPart heq).ge

theorem Owing.afterTcp (h : Owing ⟨c, owed⟩) {tcp tcp' : PseudoTcp} (htcp : c.tcp = some tcp)
    (hstep : (tcp.bReadEnable = true → tcp.rbuf.dataLength = 0) → ReadStep tcp tcp') :
    Owing ⟨c.afterTcp tcp tcp', owed⟩ := by
  obtain ⟨hopened, hdry⟩ := h.drained tcp htcp
  have hcall := hstep hdry
  obtain ⟨hstream, htcp', hle, hpends, hreads⟩ := afterTcp_spec c tcp tcp'
  refine ⟨hpends h.pends, fun u hu => ?_, fun u hu hs hopen hflag => ?_⟩
  · cases htcp'.symm.trans hu
    exact ⟨hcall.buffer.trans hopened, hcall.drained hdry⟩
  cases htcp'.symm.trans hu
  have hs' : c.stream = true := hstream.symm.trans hs
  rcases hcall.opened hopen with hopen' | htold
  · rcases Bool.eq_false_or_eq_true tcp.bReadEnable with hwait | hquiet
    · rcases hcall.told hwait with hwait' | htold
      · rw [hwait'] at hflag
        cases hflag
      · exact .inl (hreads h.pends hs' (.inr htold))
    · exact (h.reads tcp htcp hs' hopen' hquiet).imp_left fun hpos => hpos.trans_le hle
  · exact .inl (hreads h.pends hs' (.inl htold))

theorem Owing.adjustClock (h : Owing ⟨c, owed⟩) (now : Readings) (clear : Bool) :
    Owing ⟨c.adjustClock now clear, owed⟩ :=
  h.of_eventPart (eventPart_adjustClock c now clear).1 (eventPart_adjustClock c now clear).2

theorem Owing.connect (h : Owing ⟨c, owed⟩) {now : Readings} {initiator : Bool}
    (hc : (c.connect env now initiator).map Prod.snd = some c') : Owing ⟨c', owed⟩ := by
  rw [PseudoTcpChannel.connect] at hc
  split at hc
  · cases hc
    exact h
  split at hc
  · cases hc
  cases hc
  refine ⟨h.pends, fun tcp hmem => ?_, fun tcp hmem _ hopen => ?_⟩
  · cases hmem
    exact ⟨rfl, fun _ => rfl⟩
  · cases hmem
    cases hopen

theorem Owing.postEvent (h : Owing ⟨c, owed⟩) {event : StreamEvents} (error : EventError)
    (hevent : event.read = false) : Owing ⟨c.postEvent event error, owed⟩ := by
  have htold := told_postEvent c (n := .onTcpWriteable) error hevent nofun nofun
  exact h.of_grows (htold.pends h.pends) htold.stream (.inl htold.tcp) htold.keeps

theorem Owing.onSessionTerminate (h : Owing ⟨c, owed⟩) : Owing ⟨c.onSessionTerminate, owed⟩ := by
  rw [PseudoTcpChannel.onSessionTerminate]
  split
  · simp only
    have hgone : Owing ⟨{ c with session := false }, owed⟩ := h.of_eventPart rfl (.inl rfl)
    split
    · exact hgone.postEvent _ rfl
    · exact hgone
  · exact h

theorem Owing.onChannelDestroyed (h : Owing ⟨c, owed⟩) (now : Readings) :
    Owing ⟨c.onChannelDestroyed now, owed⟩ := by
  obtain ⟨ready, events, -, heq⟩ := onChannelDestroyed_eq c now
  have hle : c.readEvents ≤ (c.streamQueue ++ events).countP fun data => data.event.read := by
    rw [List.countP_append]
    exact Nat.le_add_right _ _
  rw [heq]
  exact h.of_grows (fun hp => (h.pends hp).trans_le hle) rfl (.inr rfl) hle

theorem Owing.write (h : Owing ⟨c, owed⟩) (now : Readings) (data : List UInt8) :
    Owing ⟨(c.write env now data).2, owed⟩ := by
  rw [PseudoTcpChannel.write]
  split
  · exact h
  next tcp htcp =>
  have hsent := h.afterTcp htcp fun _ => readStep_send (env.at now) tcp data
  have hnoted := hsent.of_eventPart
    (eventPart_noteTimer (c.afterTcp tcp (tcp.send (env.at now) data).2) tcp
      (tcp.send (env.at now) data).2).1
    (.inl (eventPart_noteTimer (c.afterTcp tcp (tcp.send (env.at now) data).2) tcp
      (tcp.send (env.at now) data).2).2)
  generalize tcp.send (env.at now) data = r at hnoted ⊢
  rcases r with ⟨_ | written, tcp'⟩
  · simp only
    split <;> exact hnoted
  · simp only
    split
    · exact hnoted
    · split <;> exact hnoted

theorem Owing.onChannelWritableState (h : Owing ⟨c, owed⟩) (now : Readings) (writable : Bool) :
    Owing ⟨c.onChannelWritableState env now writable, owed⟩ := by
  rw [PseudoTcpChannel.onChannelWritableState]
  split
  · exact h
  split
  · exact h
  next tcp htcp =>
  split
  · exact h
  · have hready : Owing ⟨{ c with readyToConnect := false, started := true }, owed⟩ :=
      h.of_eventPart rfl (.inl rfl)
    exact (hready.afterTcp htcp fun _ => readStep_connect (env.at now) tcp).adjustClock now true

theorem Owing.onChannelRead (h : Owing ⟨c, owed⟩) {now : Readings} {data : List UInt8}
    (hc : c.onChannelRead env now data = some c') : Owing ⟨c', owed⟩ := by
  rw [PseudoTcpChannel.onChannelRead] at hc
  split at hc
  · cases hc
    exact h
  split at hc
  · cases hc
    exact h
  next tcp htcp =>
  obtain ⟨⟨ok, tcp'⟩, hr, rfl⟩ := Option.map_eq_some_iff.mp hc
  have hstarted : Owing ⟨{ c with started := true }, owed⟩ := h.of_eventPart rfl (.inl rfl)
  exact (hstarted.afterTcp htcp fun hdry => readStep_notifyPacket (env.at now) hdry hr).adjustClock now true

theorem Owing.onChannelConnectionChanged (h : Owing ⟨c, owed⟩) (now : Readings) (mtu : UInt16) :
    Owing ⟨c.onChannelConnectionChanged now mtu, owed⟩ := by
  rw [PseudoTcpChannel.onChannelConnectionChanged]
  split
  · exact h
  split
  · exact h
  next tcp htcp =>
  exact (h.afterTcp htcp fun _ => ReadStep.of_tends (tends_notifyMTU tcp mtu)).adjustClock now true

theorem Owing.onWorkerMessage (h : Owing ⟨c, owed⟩) (now : Readings) (m : WorkerMessage)
    (queue : List WorkerMessage) :
    Owing ⟨{ c with workerQueue := queue }.onWorkerMessage env now m, owed⟩ := by
  have htaken : Owing ⟨{ c with workerQueue := queue }, owed⟩ := h.of_eventPart rfl (.inl rfl)
  cases m with
  | clock trigger =>
    rw [PseudoTcpChannel.onWorkerMessage]
    split
    · exact htaken
    next tcp htcp =>
    exact (htaken.afterTcp htcp fun _ =>
      ReadStep.of_tends (ticks_notifyClock (env.at now) tcp now.notified).toTends).adjustClock now false
  | purge =>
    rw [PseudoTcpChannel.onWorkerMessage, PseudoTcpChannel.checkDestroy]
    split
    · exact htaken.of_eventPart rfl (.inl rfl)
    · exact htaken.of_eventPart rfl (.inl rfl)

theorem Owing.onStreamMessage (h : Owing ⟨c, owed⟩) {data : EventData} {rest : List EventData}
    (hqueue : c.streamQueue = data :: rest) :
    Owing ⟨{ c with streamQueue := rest }.onStreamMessage data,
      owed || (data :: rest).head?.any fun data => data.event.read⟩ := by
  obtain ⟨hstream, htcp, hevents, hpends, -⟩ := onStreamMessage_spec hqueue
  generalize ({ c with streamQueue := rest } : PseudoTcpChannel).onStreamMessage data = c' at *
  refine ⟨hpends h.pends, fun tcp hmem => h.drained tcp (htcp ▸ hmem),
    fun tcp hmem hs hopen hflag => ?_⟩
  change 0 < c'.readEvents ∨ (owed || data.event.read) = true
  rw [Bool.or_eq_true]
  rcases h.reads tcp (htcp ▸ hmem) (hstream.symm.trans hs) hopen hflag with hpos | howed
  · change 0 < c.readEvents at hpos
    by_cases hread : data.event.read = true
    · exact .inr (.inr hread)
    · rw [if_neg hread] at hevents
      exact .inl (by omega)
  · exact .inr (.inl howed)

theorem Owing.read (h : Owing ⟨c, owed⟩) (now : Readings) {len : ℕ} (hlen : 0 < len) :
    Owing ⟨(c.read env now len).2, false⟩ := by
  obtain ⟨-, -, htcp', hpends, -, hsuccess⟩ := read_spec env c now len
  have hcases := read_cases env c now len
  generalize c.read env now len = r at htcp' hpends hsuccess hcases
  have htcp {u : PseudoTcp} (hu : r.2.tcp = some u) :
      ∃ tcp, c.tcp = some tcp ∧ (tcp.recv (env.at now) len).2 = u := by
    rw [htcp'] at hu
    exact Option.map_eq_some_iff.mp hu
  refine ⟨hpends h.pends, fun u hu => ?_, fun u hu _ hopen hflag => .inl ?_⟩
  · obtain ⟨tcp, hmem, rfl⟩ := htcp hu
    obtain ⟨hopened, hdry⟩ := h.drained tcp hmem
    have hstep := readStep_recv (env.at now) tcp len
    exact ⟨hstep.buffer.trans hopened, hstep.drained hdry⟩
  obtain ⟨tcp, hmem, rfl⟩ := htcp hu
  obtain ⟨hnone, -⟩ | ⟨tcp', c₁, hsome, -, -, hcase⟩ := hcases
  · cases hnone.symm.trans hmem
  cases hsome.symm.trans hmem
  obtain ⟨b, data, -, hr⟩ | ⟨hnothing, -, -⟩ := hcase
  · exact hsuccess h.pends (by rw [hr])
  -- Nothing was found, so the buffer was empty and `Recv` has blocked.
  exfalso
  have hstate := recv_open (env.at now) tcp len hopen
  obtain ⟨hopened, -⟩ := h.drained tcp hmem
  rcases Nat.eq_zero_or_pos tcp.rbuf.dataLength with hempty | hpos
  · rw [recv_of_empty (env.at now) hstate hopened hempty] at hflag
    cases hflag
  · obtain ⟨hrecv, hcount⟩ := recv_of_data (env.at now) len hstate hpos
    rcases hdata : (tcp.rbuf.read len).2.1 with _ | ⟨b, data⟩
    · rw [hdata, List.length_nil] at hcount
      omega
    · exact hnothing b data (hrecv.trans (congrArg some hdata))

variable {a : Readings × Action}

theorem owing_step (h : Owing w) (hok : w.Uses a) (hstep : w.step env a = some w') : Owing w' := by
  obtain ⟨c, owed⟩ := w
  obtain ⟨c', hc, rfl⟩ := Option.map_eq_some_iff.mp hstep
  obtain ⟨now, a⟩ := a
  rw [PseudoTcpChannel.step] at hc
  split at hc
  · cases hc
  cases a with
  | getStream =>
    cases hc
    refine ⟨h.pends, h.drained, fun tcp hmem _ hopen hflag => ?_⟩
    rcases Bool.eq_false_or_eq_true c.stream with hstream | hstream
    · exact h.reads tcp hmem hstream hopen hflag
    · exact absurd hopen (hok tcp hmem hstream)
  | connect initiator => exact h.connect env hc
  | channelDestroyed =>
    simp only at hc
    split at hc
    · cases hc
      exact h.onChannelDestroyed now
    · cases hc
  | sessionTerminate =>
    cases hc
    exact h.onSessionTerminate
  | read len =>
    simp only at hc
    split at hc
    · cases hc
      exact h.read env now hok
    · cases hc
  | write data =>
    simp only at hc
    split at hc
    · cases hc
      exact h.write env now data
    · cases hc
  | close => exact hok.elim
  | writableState writable =>
    cases hc
    exact h.onChannelWritableState env now writable
  | channelRead data => exact h.onChannelRead env hc
  | connectionChanged mtu =>
    cases hc
    exact h.onChannelConnectionChanged now mtu
  | workerMessage i =>
    simp only at hc
    split at hc
    · cases hc
    · cases hc
      exact h.onWorkerMessage env now _ _
  | streamMessage =>
    simp only at hc ⊢
    split at hc
    · cases hc
    next data rest hqueue =>
    cases hc
    rw [hqueue]
    exact h.onStreamMessage hqueue
  | signalMessage =>
    simp only at hc
    split at hc
    · cases hc
    next m rest _ =>
    cases hc
    cases m <;> exact h.of_eventPart rfl (.inl rfl)

/-! ### No data is stalled -/

/-- The reader reads when it has been told to, and nothing else happens but that events are
delivered. -/
def Reads (w : Watched) (a : Readings × Action) : Prop :=
  match a.2 with
  | .streamMessage => True
  | .read len => w.owed = true ∧ 0 < len
  | _ => False

/-- A bound on what is left to do until the reader has seen all data. -/
def left (w : Watched) : ℕ :=
  3 * (w.channel.tcp.elim 0 fun tcp => tcp.rbuf.dataLength) + 2 * w.channel.streamQueue.length +
    w.owed.toNat

theorem uses_of_reads (h : w.Reads a) : w.Uses a := by
  obtain ⟨now, a⟩ := a
  cases a with
  | streamMessage => trivial
  | read len => exact h.2
  | _ => exact h.elim

theorem left_read (c : PseudoTcpChannel) (now : Readings) (len : ℕ) :
    left ⟨(c.read env now len).2, false⟩ < left ⟨c, true⟩ := by
  obtain ⟨htcp, hread⟩ | ⟨tcp, c₁, htcp, hpart, htcp₁, hcase⟩ := read_cases env c now len
  · rw [hread]
    exact Nat.lt_succ_self _
  have hqueue : c₁.streamQueue = c.streamQueue := congrArg EventPart.streamQueue hpart
  have hcount := dataLength_recv (env.at now) tcp len
  obtain ⟨b, data, hrecv, hread⟩ | ⟨-, -, hread⟩ := hcase
  · rw [hrecv, Option.getD_some, List.length_cons] at hcount
    have hposted : (c₁.postRead true).streamQueue.length ≤ c.streamQueue.length + 1 := by
      rw [← hqueue, postRead]
      split
      · exact Nat.le_succ _
      · exact (List.length_append ..).le
    simp only [left, hread, postRead_tcp, htcp₁, htcp, Option.elim_some, Bool.toNat_false,
      Bool.toNat_true]
    omega
  · simp only [left, hread, htcp₁, htcp, hqueue, Option.elim_some, Bool.toNat_false,
      Bool.toNat_true]
    omega

theorem left_step (hok : w.Reads a) (hstep : w.step env a = some w') : w'.left < w.left := by
  obtain ⟨c, owed⟩ := w
  obtain ⟨c', hc, rfl⟩ := Option.map_eq_some_iff.mp hstep
  obtain ⟨now, a⟩ := a
  rw [PseudoTcpChannel.step] at hc
  split at hc
  · cases hc
  cases a with
  | streamMessage =>
    simp only at hc ⊢
    split at hc
    · cases hc
    next data rest hqueue =>
    cases hc
    have htcp := (onStreamMessage_spec hqueue).2.1
    have hrest : ({ c with streamQueue := rest }.onStreamMessage data).streamQueue = rest := by
      rw [onStreamMessage]
      split <;> rfl
    simp only [left, htcp, hrest, hqueue, List.length_cons]
    have hbit := Bool.toNat_le (owed || (data :: rest).head?.any fun data => data.event.read)
    omega
  | read len =>
    obtain ⟨howed, -⟩ : owed = true ∧ 0 < len := hok
    subst howed
    simp only at hc
    split at hc
    · cases hc
      exact left_read env c now len
    · cases hc
  | _ => exact hok.elim

theorem left_run {as : List (Readings × Action)} (hok : Runs.Admissible (step env) Reads w as)
    (hrun : Runs.run (step env) w as = some w') : as.length + w'.left ≤ w.left := by
  induction as generalizing w with
  | nil =>
    cases hrun
    exact (Nat.zero_add _).le
  | cons a as ih =>
    obtain ⟨t, ht, hrest⟩ := Runs.run_cons hrun
    have hfirst := left_step env hok.1 ht
    have hlater := ih (hok.2 t ht) hrest
    rw [List.length_cons]
    omega

/-- What is promised to the reader of a channel: a pending event is queued; and while the connection is open and
data is waiting, an event is queued or the reader is about to read, a `Read` returns data, and behind it an
event is queued. -/
structure Serves (w : Watched) : Prop where
  pends : w.channel.pendingReadEvent = true → 0 < w.channel.readEvents
  told : ∀ tcp ∈ w.channel.tcp, w.channel.stream = true → tcp.state = .established →
    0 < tcp.rbuf.dataLength → 0 < w.channel.readEvents ∨ w.owed = true
  read : ∀ tcp ∈ w.channel.tcp, tcp.state = .established → 0 < tcp.rbuf.dataLength →
    ∀ now len, 0 < len →
      (w.channel.read env now len).1 = (.success, (tcp.rbuf.read len).2.1, .ok) ∧
        (tcp.rbuf.read len).2.1.length = min len tcp.rbuf.dataLength ∧
        0 < (w.channel.read env now len).2.readEvents

theorem Owing.serves (h : Owing w) : w.Serves env := by
  refine ⟨h.pends, fun tcp hmem hs hopen hdata => ?_, fun tcp hmem hopen hdata now len hlen => ?_⟩
  · -- With data in the buffer `tcp_` does not wait.
    refine h.reads tcp hmem hs hopen ?_
    rw [Bool.eq_false_iff]
    intro hwait
    exact absurd ((h.drained tcp hmem).2 hwait) (Nat.ne_of_gt hdata)
  obtain ⟨hrecv, hcount⟩ := recv_of_data (env.at now) len hopen hdata
  obtain ⟨-, -, -, -, -, hqueued⟩ := read_spec env w.channel now len
  obtain ⟨hnone, -⟩ | ⟨tcp', c₁, hsome, -, -, hcase⟩ := read_cases env w.channel now len
  · cases hnone.symm.trans hmem
  cases hsome.symm.trans hmem
  rw [hrecv] at hcase
  obtain ⟨b, data, heq, hread⟩ | ⟨hnothing, -, -⟩ := hcase
  · refine ⟨?_, hcount, hqueued h.pends (by rw [hread])⟩
    rw [hread, Option.some.inj heq]
  · exfalso
    rcases hdata' : (tcp.rbuf.read len).2.1 with _ | ⟨b, data⟩
    · rw [hdata', List.length_nil] at hcount
      omega
    · exact hnothing b data (congrArg some hdata')

/-- **The readable events of the stream.** In any order of events, a pending event is queued, and behind a
`Read` that has found data one is; as long as `OnTcpOpen` finds the flag clear, it is set if and only if one is
queued. In every run in which the stream is there before the connection opens and is not closed, the reader is
served; and if it reads on whenever it is told to, then within a bounded number of steps it has read all data.
-/
theorem readEvents_of_run : (∀ (c c' : PseudoTcpChannel) (ops : List StreamOp), c.Counts →
      Runs.run (streamOp env) c ops = some c' →
        (c'.pendingReadEvent = true → 0 < c'.readEvents) ∧
        (∀ now len, (c'.read env now len).1.1 = .success → 0 < (c'.read env now len).2.readEvents) ∧
        (Runs.Admissible (streamOp env) OpensClear c ops →
          (c'.pendingReadEvent = true ↔ 0 < c'.readEvents))) ∧
    (∀ (as : List (Readings × Action)) (w : Watched), Runs.Admissible (step env) Uses new as →
      Runs.run (step env) new as = some w → w.Serves env ∧
        ∀ (bs : List (Readings × Action)) (w' : Watched), Runs.Admissible (step env) Reads w bs →
          Runs.run (step env) w bs = some w' → bs.length ≤ w.left ∧
            (w'.channel.streamQueue = [] → w'.owed = false → ∀ tcp ∈ w'.channel.tcp,
              w'.channel.stream = true → tcp.state = .established → tcp.rbuf.dataLength = 0)) := by
  constructor
  · intro c c' ops hcounts hrun
    obtain ⟨hpends, hok⟩ := pending_run env hcounts hrun
    refine ⟨hpends, fun now len hsuccess => ?_, fun hclear => (hok hclear).iff⟩
    exact (read_spec env c' now len).2.2.2.2.2 hpends hsuccess
  intro as w hok hrun
  have hw : Owing w := Runs.invariant (P := Owing)
    (fun _ _ _ h ha hs => owing_step env h ha hs) owing_new hok hrun
  refine ⟨hw.serves env, fun bs w' hreads hrun' => ⟨?_, fun hqueue howed tcp hmem hs hopen => ?_⟩⟩
  · have hleft := left_run env hreads hrun'
    omega
  have hw' : Owing w' := Runs.invariant (P := Owing)
    (fun _ _ _ h ha hs => owing_step env h (uses_of_reads ha) hs) hw hreads hrun'
  by_contra hdata
  have hevents : w'.channel.readEvents = 0 := by
    rw [readEvents, hqueue]
    rfl
  rcases (hw'.serves env).told tcp hmem hs hopen (Nat.pos_of_ne_zero hdata) with hpos | htrue
  · omega
  · rw [howed] at htrue
    cases htrue

/-- A packet of the conversation 0, which is that of a channel. -/
def packet (seq ack : UInt32) (flags : UInt8) (data : List UInt8) : List UInt8 :=
  longToBytes 0 ++ (datagram seq ack flags data).drop 4

/-- The initiator connects, and three bytes arrive. -/
def readerRun : List (Readings × Action) :=
  [(.still 1, .getStream), (.still 1, .connect true), (.still 1, .writableState true),
    (.still 1, .channelRead (packet 0 4 FLAG_CTL [0, 3, 1, 0])),
    (.still 1, .channelRead (packet 4 4 0 [1, 2, 3]))]

theorem admissible_getStream (as : List (Readings × Action)) (now : Readings)
    (h : ∀ a ∈ as, (match a.2 with | .getStream | .close | .read _ => false | _ => true) = true) :
    Runs.Admissible (step env) Uses new ((now, .getStream) :: as) := by
  have htcp : new.channel.tcp = none := rfl
  refine ⟨fun tcp hmem => ?_, fun w hw => ?_⟩
  · rw [htcp] at hmem
    cases hmem
  clear hw
  induction as generalizing w with
  | nil => trivial
  | cons a as ih =>
    refine ⟨?_, fun w' _ => ih (fun b hb => h b (List.mem_cons_of_mem _ hb)) w'⟩
    have ha := h a List.mem_cons_self
    obtain ⟨now, a⟩ := a
    cases a with
    | getStream | close | read => cases ha
    | _ => trivial

/-- They can be read. -/
theorem readEvents_of_readerRun :
    ∃ w, Runs.run (step quietEnv) new readerRun = some w ∧ w.channel.readEvents = 1 ∧
      (w.channel.tcp.map fun tcp => (tcp.state, tcp.rbuf.dataLength)) = some (.established, 3) ∧
      w.Serves quietEnv := by
  have hend : (Runs.run (step quietEnv) new readerRun).map (fun w => (w.channel.readEvents,
      w.channel.tcp.map fun tcp => (tcp.state, tcp.rbuf.dataLength))) =
        some (1, some (.established, 3)) := by decide +kernel
  obtain ⟨w, hw, heq⟩ := Option.map_eq_some_iff.mp hend
  obtain ⟨hevents, htcp⟩ := Prod.mk.inj heq
  have hok := admissible_getStream quietEnv readerRun.tail (.still 1) (by decide)
  exact ⟨w, hw, hevents, htcp, ((readEvents_of_run quietEnv).2 readerRun w hok hw).1⟩

/-- Three bytes arrive before the connect message and its acknowledgement; then an event is delivered. -/
def earlyRun : List (Readings × Action) :=
  [(.still 1, .getStream), (.still 1, .connect false),
    (.still 1, .channelRead (packet 0 0 0 [1, 2, 3])),
    (.still 1, .channelRead (packet 3 0 FLAG_CTL [0, 3, 1, 0])),
    (.still 1, .channelRead (packet 7 4 0 [])), (.still 1, .streamMessage)]

/-- Both `OnTcpReadable` and `OnTcpOpen` have posted an event, and the flag is cleared with the
first. -/
theorem not_readEvents_of_early_data : ¬ ∀ (env : Env) (as : List (Readings × Action)) (w : Watched),
      Runs.Admissible (step env) Uses new as → Runs.run (step env) new as = some w →
        (w.channel.pendingReadEvent = true ↔ 0 < w.channel.readEvents) := by
  intro h
  have hend : (Runs.run (step quietEnv) new earlyRun).map (fun w =>
      (w.channel.pendingReadEvent, w.channel.readEvents)) = some (false, 1) := by decide +kernel
  obtain ⟨w, hw, heq⟩ := Option.map_eq_some_iff.mp hend
  obtain ⟨hflag, hevents⟩ := Prod.mk.inj heq
  have hok := admissible_getStream quietEnv earlyRun.tail (.still 1) (by decide)
  have hiff := h quietEnv earlyRun w hok hw
  rw [hflag, hevents] at hiff
  exact absurd (hiff.mpr Nat.one_pos) (by decide)

end Watched

end Synciga
