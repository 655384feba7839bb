import Synciga.Tunnel.PseudoTcpChannel

/-!
# The lifetime of a `PseudoTcpChannel`

A `PseudoTcpChannel` deletes itself: `CheckDestroy` posts `MSG_SI_DESTROY` when `worker_thread_` and `stream_`
are gone, and the destructor asserts that every other pointer is gone too. `CheckDestroy` does not look at
`session_`, so that a stream that is closed before `Connect` destroys a channel whose session is there.

## Main definitions

* `Lifetime` — the invariant: which pointers are there together, and when `MSG_WK_PURGE` is on its way
* `Orderly` — no stream is closed before `Connect`

## Main results

* `safeTeardown_of_run` — a channel is destroyed once, when everything is gone
-/

namespace Synciga.PseudoTcpChannel

variable {env : Env} {c c' c'' : PseudoTcpChannel} {now : Readings}

/-! ### What does not matter to the lifetime -/

/-- `c'` has the pointers of `c`, but perhaps `tcp_`; it has posted neither `MSG_WK_PURGE` nor `MSG_SI_DESTROY`,
and events and packets only to what is there. -/
structure Frame (c c' : PseudoTcpChannel) : Prop where
  workerThread : c'.workerThread = c.workerThread
  session : c'.session = c.session
  channel : c'.channel = c.channel
  stream : c'.stream = c.stream
  destroyPosted : c'.destroyPosted = c.destroyPosted
  tcp : c'.tcp.isSome → c.tcp.isSome
  purge : c'.workerQueue.count .purge = c.workerQueue.count .purge
  destroy : .destroy ∈ c'.signalQueue → .destroy ∈ c.signalQueue
  event : c'.streamQueue ≠ [] → c.streamQueue ≠ [] ∨ c.stream = true
  sent : ∀ p ∈ c'.sent, p ∈ c.sent ∨ c.tcp.isSome ∧ p.1 = c.channel

theorem Frame.refl (c : PseudoTcpChannel) : Frame c c :=
  ⟨rfl, rfl, rfl, rfl, rfl, id, rfl, id, .inl, fun _ hp => .inl hp⟩

theorem Frame.trans (h : Frame c c') (h' : Frame c' c'') : Frame c c'' where
  workerThread := h'.workerThread.trans h.workerThread
  session := h'.session.trans h.session
  channel := h'.channel.trans h.channel
  stream := h'.stream.trans h.stream
  destroyPosted := h'.destroyPosted.trans h.destroyPosted
  tcp := h.tcp ∘ h'.tcp
  purge := h'.purge.trans h.purge
  destroy := h.destroy ∘ h'.destroy
  event he := by
    rcases h'.event he with hq | hs
    · exact h.event hq
    · exact .inr (h.stream ▸ hs)
  sent p hp := by
    rcases h'.sent p hp with hq | ⟨htcp, hc⟩
    · exact h.sent p hq
    · exact .inr ⟨h.tcp htcp, h.channel ▸ hc⟩

theorem frame_flags (c : PseudoTcpChannel) (readable pending : Bool) :
    Frame c { c with streamReadable := readable, pendingReadEvent := pending } :=
  ⟨rfl, rfl, rfl, rfl, rfl, id, rfl, id, .inl, fun _ hp => .inl hp⟩

theorem frame_postEvent (c : PseudoTcpChannel) (hstream : c.stream = true) (event : StreamEvents)
    (error : EventError) : Frame c (c.postEvent event error) :=
  ⟨rfl, rfl, rfl, rfl, rfl, id, rfl, id, fun _ => .inr hstream, fun _ hp => .inl hp⟩

theorem frame_onTcp (c : PseudoTcpChannel) (n : Notification) : Frame c (c.onTcp n) := by
  by_cases hstream : c.stream = true
  · have hpost (readable pending : Bool) (event : StreamEvents) (error : EventError) :
        Frame c (({ c with streamReadable := readable, pendingReadEvent := pending } :
          PseudoTcpChannel).postEvent event error) :=
      (frame_flags c readable pending).trans (frame_postEvent
        { c with streamReadable := readable, pendingReadEvent := pending } hstream event error)
    rcases n with _ | _ | _ | error
    · simp only [onTcp, onTcpOpen, if_pos hstream]
      exact hpost true true _ _
    · simp only [onTcp, onTcpReadable, if_pos hstream]
      split
      · exact frame_flags c true c.pendingReadEvent
      · exact hpost true true _ _
    · simp only [onTcp, onTcpWriteable, if_pos hstream]
      exact frame_postEvent c hstream _ _
    · simp only [onTcp, onTcpClosed, if_pos hstream]
      exact frame_postEvent c hstream _ _
  · rcases n with _ | _ | _ | error <;>
      simp only [onTcp, onTcpOpen, onTcpReadable, onTcpWriteable, onTcpClosed, if_neg hstream] <;>
      exact Frame.refl c

theorem frame_notified (c : PseudoTcpChannel) (notified : List Notification) :
    Frame c (notified.foldr (fun n c => c.onTcp n) c) := by
  induction notified with
  | nil => exact Frame.refl c
  | cons n notified ih => exact ih.trans (frame_onTcp _ n)

theorem frame_afterTcp (htcp : c.tcp.isSome) (tcp tcp' : PseudoTcp) : Frame c (c.afterTcp tcp tcp') := by
  have hsent (packets : List (List UInt8 × WriteResult)) : Frame c { c with
        tcp := some tcp'
        sent := packets.map (fun p => (c.channel, p.1)) ++ c.sent } := by
    refine ⟨rfl, rfl, rfl, rfl, rfl, fun _ => htcp, rfl, id, .inl, ?_⟩
    intro p hp
    rcases List.mem_append.mp hp with hp | hp
    · obtain ⟨packet, -, rfl⟩ := List.mem_map.mp hp
      exact .inr ⟨htcp, rfl⟩
    · exact .inl hp
  exact (hsent _).trans (frame_notified _ _)

theorem count_purge_filter (queue : List WorkerMessage) :
    (queue.filter (fun m => !m.isClock)).count .purge = queue.count .purge :=
  List.count_filter rfl

theorem frame_adjustClock (c : PseudoTcpChannel) (now : Readings) (clear : Bool) :
    Frame c (c.adjustClock now clear) := by
  rw [adjustClock]
  split
  · exact Frame.refl c
  next tcp htcp =>
  split
  next timeout _ =>
    refine ⟨rfl, rfl, rfl, rfl, rfl, id, ?_, id, .inl, fun _ hp => .inl hp⟩
    have hclock (trigger : UInt32) : List.count WorkerMessage.purge [.clock trigger] = 0 := rfl
    rw [List.count_append, hclock, Nat.add_zero]
    split
    · exact count_purge_filter c.workerQueue
    · rfl
  · have hgone : Frame c { c with tcp := none, readyToConnect := false } :=
      ⟨rfl, rfl, rfl, rfl, rfl, (by rintro ⟨⟩), rfl, id, .inl, fun _ hp => .inl hp⟩
    dsimp only
    split
    · refine hgone.trans ⟨rfl, rfl, rfl, rfl, rfl, id, rfl, ?_, .inl, fun _ hp => .inl hp⟩
      intro hmem
      rcases List.mem_append.mp hmem with hmem | hmem
      · exact hmem
      · cases List.mem_singleton.mp hmem
    · exact hgone

theorem frame_call (htcp : c.tcp.isSome) (tcp tcp' : PseudoTcp) (now : Readings) (clear : Bool) :
    Frame c ((c.afterTcp tcp tcp').adjustClock now clear) :=
  (frame_afterTcp htcp tcp tcp').trans (frame_adjustClock _ now clear)

theorem frame_noteTimer (c : PseudoTcpChannel) (tcp tcp' : PseudoTcp) : Frame c (c.noteTimer tcp tcp') := by
  rw [noteTimer]
  split
  · exact ⟨rfl, rfl, rfl, rfl, rfl, id, rfl, id, .inl, fun _ hp => .inl hp⟩
  · exact Frame.refl c

/-! ### The invariant -/

/-- How the pointers and the messages on their way belong together. -/
structure Lifetime (c : PseudoTcpChannel) : Prop where
  channel : c.channel = (c.session && c.workerThread)
  tcp : c.tcp.isSome → c.channel = true
  purge : c.workerQueue.count .purge = if c.workerThread ∧ c.session = false then 1 else 0
  alive : c.session = true ∨ c.workerThread = true ∨ c.stream = true → c.destroyPosted = 0
  once : c.destroyPosted ≤ 1
  posted : .destroy ∈ c.signalQueue → c.destroyPosted ≠ 0
  event : c.streamQueue ≠ [] → c.stream = true
  sent : ∀ p ∈ c.sent, p.1 = true

theorem lifetime_new : Lifetime new := by
  constructor <;> decide

theorem Lifetime.frame (h : Lifetime c) (hframe : Frame c c') : Lifetime c' where
  channel := by rw [hframe.channel, hframe.session, hframe.workerThread, h.channel]
  tcp hsome := hframe.channel ▸ h.tcp (hframe.tcp hsome)
  purge := by rw [hframe.purge, hframe.workerThread, hframe.session, h.purge]
  alive := by
    rw [hframe.session, hframe.workerThread, hframe.stream, hframe.destroyPosted]
    exact h.alive
  once := hframe.destroyPosted ▸ h.once
  posted hmem := hframe.destroyPosted ▸ h.posted (hframe.destroy hmem)
  event he := hframe.stream ▸ (hframe.event he).elim h.event id
  sent p hp := (hframe.sent p hp).elim (h.sent p) fun hc => hc.2.trans (h.tcp hc.1)

/-! ### The signal thread -/

theorem Lifetime.connect (h : Lifetime c) {initiator : Bool}
    (hstep : (c.connect env now initiator).map Prod.snd = some c') : Lifetime c' := by
  rw [PseudoTcpChannel.connect] at hstep
  split at hstep
  · cases hstep
    exact h
  split at hstep
  · cases hstep
  next hchannel hsession =>
  cases hstep
  rw [Bool.not_eq_false] at hsession
  -- Without `channel_` there is no `worker_thread_` either, and so no `MSG_WK_PURGE`.
  have hpurge := h.purge
  exact {
    channel := by simp [hsession]
    tcp := fun _ => rfl
    purge := by simpa [hsession] using hpurge
    alive := fun _ => h.alive (.inl hsession)
    once := h.once
    posted := h.posted
    event := h.event
    sent := h.sent }

theorem Lifetime.getStream (h : Lifetime c) (hsession : c.session = true) : Lifetime c.getStream :=
  ⟨h.channel, h.tcp, h.purge, fun _ => h.alive (.inl hsession), h.once, h.posted, fun _ => rfl,
    h.sent⟩

theorem Lifetime.onChannelDestroyed (h : Lifetime c) (hchannel : c.channel = true)
    (now : Readings) : Lifetime (c.onChannelDestroyed now) := by
  obtain ⟨ready, events, hevents, heq⟩ := onChannelDestroyed_eq c now
  have hboth : c.session = true ∧ c.workerThread = true := by
    simpa [h.channel] using hchannel
  have hpurge := h.purge
  rw [if_neg (by simp [hboth.1])] at hpurge
  rw [heq]
  exact {
    channel := rfl
    tcp := nofun
    purge := by
      rw [List.count_append, count_purge_filter, hpurge]
      simp [hboth.2]
    alive := fun _ => h.alive (.inl hboth.1)
    once := h.once
    posted := fun hmem => h.posted (List.mem_of_mem_filter hmem)
    event := by
      intro hne
      by_cases hqueue : c.streamQueue = []
      · exact hevents fun hnil => hne (by simp [hqueue, hnil])
      · exact h.event hqueue
    sent := h.sent }

theorem Lifetime.onSessionTerminate (h : Lifetime c) : Lifetime c.onSessionTerminate := by
  rw [PseudoTcpChannel.onSessionTerminate]
  split
  next hopen =>
    obtain ⟨hsession, hchannel⟩ := hopen
    have hworker : c.workerThread = false := by
      simpa [hsession, hchannel] using h.channel
    have hpurge := h.purge
    have hgone : Lifetime { c with session := false } := {
      channel := hchannel
      tcp := h.tcp
      purge := by simpa [hworker] using hpurge
      alive := fun _ => h.alive (.inl hsession)
      once := h.once
      posted := h.posted
      event := h.event
      sent := h.sent }
    dsimp only
    split
    next hstream => exact hgone.frame (frame_postEvent { c with session := false } hstream _ _)
    · exact hgone
  · exact h

/-! ### The stream thread -/

theorem frame_unadjusted (htcp : c.tcp.isSome) (tcp tcp' : PseudoTcp) :
    Frame c ((c.afterTcp tcp tcp').noteTimer tcp tcp') :=
  (frame_afterTcp htcp tcp tcp').trans (frame_noteTimer _ tcp tcp')

theorem frame_read (env : Env) (c : PseudoTcpChannel) (hstream : c.stream = true) (now : Readings)
    (len : ℕ) : Frame c (c.read env now len).2 := by
  rw [read]
  split
  · exact Frame.refl c
  next tcp htcp =>
  have hsome : c.tcp.isSome := by rw [htcp]; rfl
  have hcall := (frame_flags c false c.pendingReadEvent).trans
    (frame_unadjusted (c := { c with streamReadable := false }) hsome tcp
      (tcp.recv (env.at now) len).2)
  generalize tcp.recv (env.at now) len = r at hcall ⊢
  obtain ⟨result, tcp'⟩ := r
  dsimp only at hcall ⊢
  generalize noteTimer _ tcp tcp' = c₁ at hcall ⊢
  split
  · have hread := hcall.trans (frame_flags c₁ true c₁.pendingReadEvent)
    split
    · exact hread
    · have hstream₁ : c₁.stream = true := hcall.stream.trans hstream
      exact (hcall.trans (frame_flags c₁ true true)).trans (frame_postEvent
        { c₁ with streamReadable := true, pendingReadEvent := true } hstream₁ _ _)
  · split
    · exact hcall
    · exact hcall

theorem frame_write (env : Env) (c : PseudoTcpChannel) (now : Readings) (data : List UInt8) :
    Frame c (c.write env now data).2 := by
  rw [write]
  split
  · exact Frame.refl c
  next tcp htcp =>
  have hcall := frame_unadjusted (c := c) (by rw [htcp]; rfl) tcp (tcp.send (env.at now) data).2
  generalize tcp.send (env.at now) data = r at hcall ⊢
  dsimp only at hcall ⊢
  repeat' split
  all_goals exact hcall

theorem Lifetime.checkDestroy (h : Lifetime c) (hposted : c.destroyPosted = 0)
    (hsession : c.workerThread = true ∨ c.stream = true ∨ c.session = false) :
    Lifetime c.checkDestroy := by
  rw [PseudoTcpChannel.checkDestroy]
  split
  · exact h
  next hgone =>
  obtain ⟨hworker, hstream⟩ := not_or.mp hgone
  have hsession : c.session = false := by
    rcases hsession with hw | hs | hsession
    · exact absurd hw hworker
    · exact absurd hs hstream
    · exact hsession
  exact {
    channel := h.channel
    tcp := h.tcp
    purge := h.purge
    alive := by
      rintro (hs | hw | hst)
      · exact absurd (hs.symm.trans hsession) nofun
      · exact absurd hw hworker
      · exact absurd hst hstream
    once := by rw [hposted]
    posted := fun _ => Nat.succ_ne_zero _
    event := h.event
    sent := h.sent }

theorem Lifetime.close (h : Lifetime c) (hstream : c.stream = true)
    (hsession : c.workerThread = true ∨ c.session = false) (now : Readings) :
    Lifetime (c.close now) := by
  have hclosed : Lifetime { c with stream := false, streamQueue := [] } :=
    ⟨h.channel, h.tcp, h.purge, fun _ => h.alive (.inr (.inr hstream)), h.once, h.posted,
      fun hne => absurd rfl hne, h.sent⟩
  rw [PseudoTcpChannel.close]
  split
  next tcp htcp =>
    have hsome : c.tcp.isSome := by rw [htcp]; rfl
    exact hclosed.frame
      (frame_call (c := { c with stream := false, streamQueue := [] }) hsome tcp _ now true)
  · exact hclosed.checkDestroy (h.alive (.inr (.inr hstream))) (hsession.imp_right .inr)

/-! ### The worker thread -/

theorem frame_onChannelWritableState (env : Env) (c : PseudoTcpChannel) (now : Readings)
    (writable : Bool) : Frame c (c.onChannelWritableState env now writable) := by
  rw [onChannelWritableState]
  split
  · exact Frame.refl c
  split
  · exact Frame.refl c
  next tcp htcp =>
  split
  · exact Frame.refl c
  · have hsome : c.tcp.isSome := by rw [htcp]; rfl
    have hready : Frame c { c with readyToConnect := false, started := true } :=
      ⟨rfl, rfl, rfl, rfl, rfl, id, rfl, id, .inl, fun _ hp => .inl hp⟩
    exact hready.trans (frame_call (c := { c with readyToConnect := false, started := true })
      hsome tcp _ now true)

theorem frame_onChannelRead {data : List UInt8} (h : c.onChannelRead env now data = some c') :
    Frame c c' := by
  rw [onChannelRead] at h
  split at h
  · cases h
    exact Frame.refl c
  split at h
  · cases h
    exact Frame.refl c
  next tcp htcp =>
  obtain ⟨r, -, rfl⟩ := Option.map_eq_some_iff.mp h
  have hsome : c.tcp.isSome := by rw [htcp]; rfl
  have hstarted : Frame c { c with started := true } :=
    ⟨rfl, rfl, rfl, rfl, rfl, id, rfl, id, .inl, fun _ hp => .inl hp⟩
  exact hstarted.trans (frame_call (c := { c with started := true }) hsome tcp _ now true)

theorem frame_onChannelConnectionChanged (c : PseudoTcpChannel) (now : Readings) (mtu : UInt16) :
    Frame c (c.onChannelConnectionChanged now mtu) := by
  rw [onChannelConnectionChanged]
  split
  · exact Frame.refl c
  split
  · exact Frame.refl c
  next tcp htcp => exact frame_call (by rw [htcp]; rfl) tcp _ now true

theorem count_purge_eraseIdx {queue : List WorkerMessage} {i : ℕ} {m : WorkerMessage}
    (hm : queue[i]? = some m) :
    queue.count .purge = (queue.eraseIdx i).count .purge + if m = .purge then 1 else 0 := by
  obtain ⟨hi, rfl⟩ := List.getElem?_eq_some_iff.mp hm
  rw [← (List.getElem_cons_eraseIdx_perm hi).count_eq, List.count_cons]
  simp

theorem Lifetime.onWorkerMessage (h : Lifetime c) {i : ℕ} {m : WorkerMessage}
    (hm : c.workerQueue[i]? = some m) (env : Env) (now : Readings) :
    Lifetime ({ c with workerQueue := c.workerQueue.eraseIdx i }.onWorkerMessage env now m) := by
  have hcount := count_purge_eraseIdx hm
  rcases m with trigger | _
  · have htaken : Frame c { c with workerQueue := c.workerQueue.eraseIdx i } :=
      ⟨rfl, rfl, rfl, rfl, rfl, id, by simpa using hcount.symm, id, .inl, fun _ hp => .inl hp⟩
    rw [PseudoTcpChannel.onWorkerMessage]
    split
    · exact h.frame htaken
    next tcp htcp =>
      have hsome : c.tcp.isSome := by rw [show c.tcp = some tcp from htcp]; rfl
      exact h.frame (htaken.trans
        (frame_call (c := { c with workerQueue := c.workerQueue.eraseIdx i }) hsome tcp _ now false))
  -- The only `MSG_WK_PURGE`, so the session is over.
  have hpurge := h.purge
  rw [hcount, if_pos rfl] at hpurge
  have hover : c.workerThread = true ∧ c.session = false := by
    by_contra hnot
    rw [if_neg hnot] at hpurge
    cases hpurge
  rw [if_pos hover] at hpurge
  have hposted := h.alive (.inr (.inl hover.1))
  have hpurged : Lifetime { c with workerQueue := c.workerQueue.eraseIdx i, workerThread := false } := {
    channel := by rw [h.channel, hover.2]; rfl
    tcp := h.tcp
    purge := by simpa using hpurge
    alive := fun _ => hposted
    once := h.once
    posted := h.posted
    event := h.event
    sent := h.sent }
  exact hpurged.checkDestroy hposted (.inr (.inr hover.2))

/-! ### Messages -/

theorem frame_onStreamMessage {data : EventData} {rest : List EventData}
    (hqueue : c.streamQueue = data :: rest) :
    Frame c ({ c with streamQueue := rest }.onStreamMessage data) := by
  have htaken : Frame c { c with streamQueue := rest } :=
    ⟨rfl, rfl, rfl, rfl, rfl, id, rfl, id, fun _ => .inl (by rw [hqueue]; exact nofun),
      fun _ hp => .inl hp⟩
  rw [onStreamMessage]
  split
  · exact htaken.trans (frame_flags { c with streamQueue := rest } c.streamReadable false)
  · exact htaken

theorem frame_onSignalMessage {m : SignalMessage} {rest : List SignalMessage}
    (hqueue : c.signalQueue = m :: rest) :
    Frame c ({ c with signalQueue := rest }.onSignalMessage m) := by
  have hrest (hmem : SignalMessage.destroy ∈ rest) : .destroy ∈ c.signalQueue := by
    rw [hqueue]
    exact List.mem_cons_of_mem m hmem
  rcases m with _ | _
  · exact ⟨rfl, rfl, rfl, rfl, rfl, id, rfl, hrest, .inl, fun _ hp => .inl hp⟩
  · exact ⟨rfl, rfl, rfl, rfl, rfl, id, rfl, hrest, .inl, fun _ hp => .inl hp⟩

/-! ### Runs -/

/-- `GetStream` is called while the session is there, as it asserts, and a stream is not closed
before `Connect` while the session is still there. -/
def Orderly (c : PseudoTcpChannel) (a : Readings × Action) : Prop :=
  match a.2 with
  | .getStream => c.session = true
  | .close => c.workerThread = true ∨ c.session = false
  | _ => True

/-- What the destructor, the handler of `MSG_ST_EVENT` and `TcpWritePacket` assert: `MSG_SI_DESTROY` is posted
once at most and delivered when all pointers are gone, an event to a stream, a packet to a channel. -/
def SafeTeardown (c : PseudoTcpChannel) : Prop :=
  c.destroyPosted ≤ 1 ∧
  (c.signalQueue.head? = some .destroy →
    c.workerThread = false ∧ c.session = false ∧ c.channel = false ∧ c.stream = false ∧ c.tcp.isNone) ∧
  (c.streamQueue ≠ [] → c.stream = true) ∧
  ∀ p ∈ c.sent, p.1 = true

theorem Lifetime.gone (h : Lifetime c) (hposted : c.destroyPosted ≠ 0) :
    c.workerThread = false ∧ c.session = false ∧ c.channel = false ∧ c.stream = false ∧
      c.tcp.isNone := by
  have hsession : c.session = false := by
    by_contra hs
    exact hposted (h.alive (.inl (Bool.not_eq_false _ ▸ hs)))
  have hworker : c.workerThread = false := by
    by_contra hw
    exact hposted (h.alive (.inr (.inl (Bool.not_eq_false _ ▸ hw))))
  have hstream : c.stream = false := by
    by_contra hs
    exact hposted (h.alive (.inr (.inr (Bool.not_eq_false _ ▸ hs))))
  have hchannel : c.channel = false := by rw [h.channel, hsession]; rfl
  refine ⟨hworker, hsession, hchannel, hstream, ?_⟩
  rw [Option.isNone_iff_eq_none, ← Option.not_isSome_iff_eq_none]
  intro hsome
  exact absurd (hchannel.symm.trans (h.tcp hsome)) nofun

theorem Lifetime.safeTeardown (h : Lifetime c) : c.SafeTeardown :=
  ⟨h.once, fun hhead => h.gone (h.posted (List.mem_of_mem_head? hhead)), h.event, h.sent⟩

theorem Lifetime.step (h : Lifetime c) {a : Readings × Action} (hok : c.Orderly a)
    (hstep : c.step env a = some c') : Lifetime c' := by
  obtain ⟨now, action⟩ := a
  rw [PseudoTcpChannel.step] at hstep
  split at hstep
  · cases hstep
  rcases action with _ | initiator | _ | _ | len | data | _ | writable | data | mtu | i | _ | _
  · cases hstep
    exact h.getStream hok
  · exact h.connect hstep
  · dsimp only at hstep
    split at hstep
    next hchannel =>
      cases hstep
      exact h.onChannelDestroyed hchannel now
    · cases hstep
  · cases hstep
    exact h.onSessionTerminate
  · dsimp only at hstep
    split at hstep
    next hstream =>
      cases hstep
      exact h.frame (frame_read env c hstream now len)
    · cases hstep
  · dsimp only at hstep
    split at hstep
    · cases hstep
      exact h.frame (frame_write env c now data)
    · cases hstep
  · dsimp only at hstep
    split at hstep
    next hstream =>
      cases hstep
      exact h.close hstream hok now
    · cases hstep
  · cases hstep
    exact h.frame (frame_onChannelWritableState env c now writable)
  · exact h.frame (frame_onChannelRead hstep)
  · cases hstep
    exact h.frame (frame_onChannelConnectionChanged c now mtu)
  · dsimp only at hstep
    split at hstep
    · cases hstep
    next m hm =>
      cases hstep
      exact h.onWorkerMessage hm env now
  · dsimp only at hstep
    split at hstep
    · cases hstep
    next data rest hqueue =>
      cases hstep
      exact h.frame (frame_onStreamMessage hqueue)
  dsimp only at hstep
  split at hstep
  · cases hstep
  next m rest hqueue =>
    cases hstep
    exact h.frame (frame_onSignalMessage hqueue)

/-- Along every run of orderly steps, the channel is taken down safely. -/
theorem safeTeardown_of_run {as : List (Readings × Action)}
    (hok : Runs.Admissible (PseudoTcpChannel.step env) Orderly new as)
    (hrun : Runs.run (PseudoTcpChannel.step env) new as = some c) : c.SafeTeardown := by
  have hlife : Lifetime c := by
    refine Runs.invariant ?_ lifetime_new hok hrun
    intro s a s' hs hoka hstep
    exact hs.step hoka hstep
  exact hlife.safeTeardown

instance (c : PseudoTcpChannel) : ∀ a, Decidable (c.Orderly a)
  | (_, .getStream) => inferInstanceAs (Decidable (c.session = true))
  | (_, .close) => inferInstanceAs (Decidable (c.workerThread = true ∨ c.session = false))
  | (_, .connect _) | (_, .channelDestroyed) | (_, .sessionTerminate) | (_, .read _)
  | (_, .write _) | (_, .writableState _) | (_, .channelRead _) | (_, .connectionChanged _)
  | (_, .workerMessage _) | (_, .streamMessage) | (_, .signalMessage) => .isTrue trivial

/-- A session is opened, used and closed: the stream first, then the channel. -/
def closingRun : List (Readings × Action) :=
  [(.still 1, .getStream), (.still 2, .connect true), (.still 3, .writableState true), (.still 4, .close),
    (.still 5, .signalMessage), (.still 6, .channelDestroyed), (.still 7, .workerMessage 0)]

/-- At its end `MSG_SI_DESTROY` is on its way, for the only time and with nothing left. -/
theorem safeTeardown_of_closingRun :
    ∃ c, Runs.run (PseudoTcpChannel.step PseudoTcp.quietEnv) new closingRun = some c ∧
      c.signalQueue = [.destroy] ∧ c.sent ≠ [] ∧ c.SafeTeardown := by
  have hend : (Runs.run (PseudoTcpChannel.step PseudoTcp.quietEnv) new closingRun).map
      (fun c => (c.signalQueue, c.sent.isEmpty)) = some ([.destroy], false) := by decide +kernel
  obtain ⟨c, hrun, heq⟩ := Option.map_eq_some_iff.mp hend
  obtain ⟨hqueue, hsent⟩ := Prod.mk.inj heq
  refine ⟨c, hrun, hqueue, ?_, safeTeardown_of_run (by decide +kernel) hrun⟩
  intro hnil
  rw [hnil] at hsent
  cases hsent

/-- A stream that is closed before `Connect` has the channel destroyed under its session. -/
theorem not_safeTeardown_unconnected :
    ¬ ∀ (env : Env) (as : List (Readings × Action)) (c : PseudoTcpChannel),
      Runs.run (PseudoTcpChannel.step env) new as = some c → c.SafeTeardown := by
  intro h
  have hsafe := h PseudoTcp.quietEnv [(.still 1, .getStream), (.still 2, .close)] _ rfl
  exact absurd (hsafe.2.1 rfl).2.1 nofun

end Synciga.PseudoTcpChannel
