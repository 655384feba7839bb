import Synciga.PseudoTcp.RecvInvariant
import Synciga.Internal.Runs

/-!
# One connection, over whole runs

The interface of `PseudoTcp` as a transition system: every call with every argument, incoming datagrams
included.

## Main definitions

* `Call`, `PseudoTcp.call` — the calls
* `Progress` — what a call can do to the handshake

## Main results

* `coversBuffer_of_run` — the segments cover the send buffer, unless an acknowledgment ends inside one
-/

namespace Synciga.PseudoTcp

variable (env : Env) {s s' : PseudoTcp}

/-! ### The interface as a transition system -/

/-- A call of the interface. -/
inductive Call
  | connect
  | notifyMTU (mtu : UInt16)
  | notifyClock (now : UInt32)
  | notifyPacket (buffer : List UInt8)
  | setOption (opt : TcpOption) (value : Int32)
  | recv (len : ℕ)
  | send (buffer : List UInt8)
  | close (force : Bool)
  deriving DecidableEq, Repr

/-- The state after a call; `none` when the call reads outside the datagram. -/
def call (s : PseudoTcp) : Call → Option PseudoTcp
  | .connect => some (s.connect env).2
  | .notifyMTU mtu => some (s.notifyMTU mtu)
  | .notifyClock now => some (s.notifyClock env now)
  | .notifyPacket buffer => (s.notifyPacket env buffer).map Prod.snd
  | .setOption opt value => some (s.setOption env opt value)
  | .recv len => some (s.recv env len).2
  | .send buffer => some (s.send env buffer).2
  | .close force => some (s.close force)

/-- The datagram holds the segment, and `NotifyPacket` looks at it. -/
def Delivers (buffer : List UInt8) (seg : Segment) : Prop :=
  buffer.length ≤ MAX_PACKET.toNat ∧ parseHeader buffer = some seg

variable {seg : Segment}

theorem Delivers.length_lt {buffer : List UInt8} (h : Delivers buffer seg) : seg.data.length < 2 ^ 16 := by
  obtain ⟨hlen, hseg⟩ := h
  have hmax : MAX_PACKET.toNat = 65535 := rfl
  rw [data_of_parseHeader hseg, List.length_drop]
  omega

theorem notifyPacket_cases {buffer : List UInt8} {ok : Bool}
    (h : s.notifyPacket env buffer = some (ok, s')) :
    s' = s ∨ ∃ seg, Delivers buffer seg ∧ s' = (s.process env seg).2 := by
  rw [notifyPacket] at h
  split at h
  · cases h
    exact .inl rfl
  next hmax =>
  rw [parse] at h
  split at h
  · cases h
    exact .inl rfl
  obtain ⟨seg, hseg, hp⟩ := Option.map_eq_some_iff.mp h
  exact .inr ⟨seg, ⟨Nat.not_lt.mp hmax, hseg⟩, by rw [hp]⟩

/-! ### Coming to the data part -/

/-- The state in which `process` comes to its data part; `none` when it does not. -/
def beforeData (s : PseudoTcp) (seg : Segment) : Option PseudoTcp :=
  if seg.conv ≠ s.conv ∨ s.state = .closed ∨ seg.flags &&& FLAG_RST ≠ 0 then none
  else
    match (s.arrive env).processControl env seg with
    | none => none
    | some (bConnect, s₁) =>
      match (s₁.updateTimestamp seg).processAck env (s.now env) seg with
      | (false, _) => none
      | (true, s₂) => some (s₂.enterEstablished bConnect).notifyWriteable

theorem beforeData_cases {t : PseudoTcp} (h : s.beforeData env seg = some t) :
    s.Heeds seg ∧ ∃ bConnect s₁ s₂,
      (s.arrive env).processControl env seg = some (bConnect, s₁) ∧
      (s₁.updateTimestamp seg).processAck env (s.now env) seg = (true, s₂) ∧
      t = (s₂.enterEstablished bConnect).notifyWriteable := by
  rw [beforeData] at h
  split at h
  · cases h
  next hheeds =>
  obtain ⟨hconv, hopen, hrst⟩ := not_or.mp hheeds |>.imp_right not_or.mp
  split at h
  · cases h
  next bConnect s₁ hc =>
  refine ⟨⟨not_ne_iff.mp hconv, hopen, not_ne_iff.mp hrst, ?_⟩, ?_⟩
  · intro hctl
    obtain ⟨hflag, -⟩ | ⟨-, -, options, hdata, -⟩ := processControl_cases env hc
    · exact absurd hflag hctl
    · exact ⟨options, hdata⟩
  split at h
  · cases h
  next s₂ hr => exact ⟨bConnect, s₁, s₂, hc, hr, (Option.some.inj h).symm⟩

theorem process_true (h : s.process env seg = (true, s')) :
    ∃ t, s.beforeData env seg = some t ∧ s' = t.processData env seg := by
  rw [process] at h
  split at h
  · cases h
  next hconv =>
  simp only at h
  split at h
  · cases h
  next hopen =>
  split at h
  · cases h
  next hrst =>
  have hheeds : ¬ (seg.conv ≠ s.conv ∨ s.state = .closed ∨ seg.flags &&& FLAG_RST ≠ 0) := by
    rintro (hne | hclosed | hne)
    · exact hconv hne
    · exact hopen hclosed
    · exact hrst hne
  rw [beforeData, if_neg hheeds]
  generalize (s.arrive env).processControl env seg = c at h ⊢
  obtain _ | ⟨bConnect, s₁⟩ := c
  · cases h
  simp only at h ⊢
  generalize (s₁.updateTimestamp seg).processAck env (s.now env) seg = r at h ⊢
  obtain ⟨_ | _, s₂⟩ := r
  · cases h
  · cases h
    exact ⟨_, rfl, rfl⟩

/-! ### The handshake -/

/-- The handshake has been answered. -/
def Active (s : PseudoTcp) : Prop := s.state = .synReceived ∨ s.state = .established

/-- A connect message, or a part of one. -/
def IsControl (seg : Segment) : Prop := seg.flags &&& FLAG_CTL ≠ 0 ∧ seg.data ≠ []

/-- What a step does to the handshake: it never returns to `TCP_LISTEN`, it queues nothing but control bytes
unless the connection is established and the step `sends`, and only a connect message (`control`) answers the
handshake. -/
structure Progress (sends control : Prop) (s s' : PseudoTcp) : Prop where
  listen : s'.state = .listen → s.state = .listen ∧ s'.queued = s.queued
  queued : ∃ more, s'.queued = s.queued ++ more ∧
    ((∀ x ∈ more, x.2 = true) ∨ s.state = .established ∧ sends)
  active : s'.Active → s.Active ∨ control

variable {sends control : Prop}

theorem Progress.of_same (hstate : s'.state = s.state) (hqueued : s'.queued = s.queued) :
    Progress sends control s s' := by
  refine ⟨fun h => ⟨hstate ▸ h, hqueued⟩, ⟨[], by rw [hqueued, List.append_nil], .inl ?_⟩,
    fun h => ?_⟩
  · intro x hx
    cases hx
  · rw [Active, hstate] at h
    exact .inl h

theorem Progress.quiet {s₁ : PseudoTcp} (h : Progress sends control s s₁) (hq : Quiet s₁ s') :
    Progress sends control s s' := by
  obtain ⟨more, hmore, hctl⟩ := h.queued
  rcases hq.state with hstate | hstate
  · refine ⟨fun hl => ?_, ⟨more, hq.queued.trans hmore, hctl⟩, fun ha => h.active ?_⟩
    · obtain ⟨hl', hsame⟩ := h.listen (hstate ▸ hl)
      exact ⟨hl', hq.queued.trans hsame⟩
    · rw [Active, hstate] at ha
      exact ha
  refine ⟨fun hl => ?_, ⟨more, hq.queued.trans hmore, hctl⟩, fun ha => ?_⟩
  · rw [hstate] at hl
    cases hl
  · rcases ha with ha | ha
    · rw [hstate] at ha
      cases ha
    · rw [hstate] at ha
      cases ha

theorem progress_of_quiet (h : Quiet s s') : Progress sends control s s' :=
  (Progress.of_same rfl rfl).quiet h

theorem queue_queued (s : PseudoTcp) (data : List UInt8) (len : UInt32) (bCtrl : Bool) :
    ∃ more, (s.queue data len bCtrl).2.queued = s.queued ++ more ∧ ∀ x ∈ more, x.2 = bCtrl := by
  refine ⟨_, rfl, fun x hx => ?_⟩
  obtain ⟨b, -, rfl⟩ := List.mem_map.mp hx
  rfl

theorem queueConnectMessage_queued (s : PseudoTcp) :
    ∃ more, s.queueConnectMessage.queued = s.queued ++ more ∧ ∀ x ∈ more, x.2 = true := by
  exact queue_queued _ _ _ _

theorem parseOptions_queued (s : PseudoTcp) (data : List UInt8) :
    (s.parseOptions env data).queued = s.queued :=
  congrArg SendCore.queued (sendCore_parseOptions env s data)

theorem progress_processControl {bConnect : Bool} (hc : s.processControl env seg = some (bConnect, s')) :
    Progress sends (IsControl seg) s s' := by
  obtain ⟨-, -, rfl⟩ | ⟨hctl, -, options, hdata, hcase⟩ := processControl_cases env hc
  · exact .of_same rfl rfl
  have hcontrol : IsControl seg := ⟨hctl, by rw [hdata]; exact List.cons_ne_nil _ _⟩
  have hqueued := parseOptions_queued env s options
  have hstate := parseOptions_state env s options
  generalize s.parseOptions env options = t at hcase hqueued hstate
  obtain ⟨-, rfl⟩ | ⟨-, rfl⟩ | ⟨-, -, rfl⟩ := hcase
  · obtain ⟨more, hmore, hkind⟩ := queueConnectMessage_queued { t with state := .synReceived }
    refine ⟨fun hl => ?_, ⟨more, ?_, .inl hkind⟩, fun _ => .inr hcontrol⟩
    · cases hl
    · rw [hmore, ← hqueued]
  · refine ⟨fun hl => ?_, ⟨[], ?_, .inl fun x hx => ?_⟩, fun _ => .inr hcontrol⟩
    · cases hl
    · rw [List.append_nil, ← hqueued]
      rfl
    · cases hx
  · exact .of_same hstate hqueued

theorem receiveData_state (s : PseudoTcp) (seg : Segment) (sflags : SendFlags) :
    (s.receiveData seg sflags).2.2.state = s.state := by
  obtain ⟨rbuf, rcvNxt, rcvWnd, rlist, h⟩ := receiveData_eq s seg sflags
  rw [h]

theorem progress_process (s : PseudoTcp) (seg : Segment) :
    Progress sends (IsControl seg) s (s.process env seg).2 := by
  obtain (hr | hr | hr) | ⟨-, bConnect, s₁, s₂, hc, hs₂, hr⟩ := process_cases env s seg
  · rw [hr]
    exact .of_same rfl rfl
  · rw [hr]
    exact .of_same rfl rfl
  · rw [hr]
    exact progress_of_quiet ⟨rfl, rfl, .inr rfl⟩
  have hcontrol : Progress sends (IsControl seg) s s₁ := by
    have h : Progress sends (IsControl seg) (s.arrive env) s₁ := progress_processControl env hc
    exact ⟨h.listen, h.queued, h.active⟩
  have hack : Progress sends (IsControl seg) s s₂ := by
    rw [← hs₂]
    exact (hcontrol.quiet (tends_updateTimestamp s₁ seg).quiet).quiet (tends_processAck env _ _ seg).quiet
  rcases hr with hr | hr
  · rw [hr]
    exact hack
  rw [hr]
  -- Entering `TCP_ESTABLISHED` takes a handshake that has been answered before.
  have henter : Progress sends (IsControl seg) s (s₂.enterEstablished bConnect) := by
    rw [enterEstablished]
    split
    · next hsyn =>
      refine ⟨fun hl => ?_, hack.queued, fun _ => hack.active (.inl hsyn.1)⟩
      cases hl
    · exact hack
  have hwrite := henter.quiet (quiet_notifyWriteable _)
  generalize (s₂.enterEstablished bConnect).notifyWriteable = t at hwrite
  have hdata : Progress sends (IsControl seg) s
      (t.receiveData (t.trim seg) (t.ackFlags seg)).2.2 := by
    have hstate := receiveData_state t (t.trim seg) (t.ackFlags seg)
    have hqueued := congrArg SendCore.queued
      (sendCore_receiveData t (t.trim seg) (t.ackFlags seg))
    refine ⟨fun hl => ?_, ?_, fun ha => hwrite.active ?_⟩
    · obtain ⟨hl', hsame⟩ := hwrite.listen (hstate ▸ hl)
      exact ⟨hl', hqueued.trans hsame⟩
    · obtain ⟨more, hmore, hctl⟩ := hwrite.queued
      exact ⟨more, hqueued.trans hmore, hctl⟩
    · rw [Active, hstate] at ha
      exact ha
  exact (hdata.quiet (emits_attemptSend env _ _).quiet).quiet (quiet_notifyReadable _ _)

/-- The call brings in a connect message, or a part of one. -/
def Call.BringsControl : Call → Prop
  | .notifyPacket buffer => ∃ seg, Delivers buffer seg ∧ IsControl seg
  | _ => False

/-- The call is a `Send`. -/
def Call.Sends : Call → Prop
  | .send _ => True
  | _ => False

theorem progress_connect (s : PseudoTcp) : Progress sends control s (s.connect env).2 := by
  rw [connect]
  split
  · exact .of_same rfl rfl
  obtain ⟨more, hmore, hkind⟩ := queueConnectMessage_queued { s with state := .synSent }
  have hqueue : Progress sends control s { s with state := .synSent }.queueConnectMessage := by
    refine ⟨fun hl => ?_, ⟨more, hmore, .inl hkind⟩, fun ha => ?_⟩
    · cases hl
    · rcases ha with ha | ha <;> cases ha
  exact hqueue.quiet (emits_attemptSend env _ _).quiet

theorem progress_recv (s : PseudoTcp) (len : ℕ) : Progress sends control s (s.recv env len).2 := by
  simp only [recv]
  split
  · exact .of_same rfl rfl
  split
  · exact .of_same rfl rfl
  · refine Progress.quiet ?_ (quiet_openWindow env _)
    exact .of_same rfl rfl

theorem progress_send (s : PseudoTcp) (buffer : List UInt8) :
    Progress True control s (s.send env buffer).2 := by
  simp only [send]
  split
  · exact .of_same rfl rfl
  next hstate =>
  split
  · exact .of_same rfl rfl
  have hestablished : s.state = .established := not_ne_iff.mp hstate
  obtain ⟨more, hmore, -⟩ := queue_queued s buffer (UInt32.ofNat buffer.length) false
  have hqueue : Progress True control s
      (s.queue buffer (UInt32.ofNat buffer.length) false).2 := by
    refine ⟨fun hl => ?_, ⟨more, hmore, .inr ⟨hestablished, trivial⟩⟩, fun _ => ?_⟩
    · rw [show (s.queue buffer _ false).2.state = s.state from rfl, hestablished] at hl
      cases hl
    · exact .inl (.inr hestablished)
  exact hqueue.quiet (emits_attemptSend env _ _).quiet

theorem progress_call {c : Call} (h : s.call env c = some s') : Progress c.Sends c.BringsControl s s' := by
  cases c with
  | connect => cases h; exact progress_connect env s
  | notifyMTU mtu => cases h; exact progress_of_quiet (tends_notifyMTU s mtu).quiet
  | notifyClock now => cases h; exact progress_of_quiet (ticks_notifyClock env s now).quiet
  | notifyPacket buffer =>
    obtain ⟨⟨ok, t⟩, ht, rfl⟩ := Option.map_eq_some_iff.mp h
    obtain rfl | ⟨seg, hseg, rfl⟩ := notifyPacket_cases env ht
    · exact .of_same rfl rfl
    · have hp : Progress False (IsControl seg) s (s.process env seg).2 := progress_process env s seg
      refine ⟨hp.listen, hp.queued, fun ha => ?_⟩
      rcases hp.active ha with hact | hctl
      · exact .inl hact
      · exact .inr ⟨seg, hseg, hctl⟩
  | setOption opt value =>
    cases h
    cases opt <;> exact .of_same rfl rfl
  | recv len => cases h; exact progress_recv env s len
  | send buffer => cases h; exact progress_send env s buffer
  | close force => cases h; exact .of_same rfl rfl

/-! ### The sending side along a run -/

/-- The invariant of a connection on its own: nothing is queued in `TCP_LISTEN`, and the sending
side is in order. -/
structure Sound (s : PseudoTcp) : Prop where
  send : s.sendCore.Inv
  listen : s.state = .listen → s.queued = []

/-- The call brings in no acknowledgment that is accepted although it ends inside a queued
segment. -/
def WholeAcks (s : PseudoTcp) : Call → Prop
  | .notifyPacket buffer => ∀ seg, Delivers buffer seg → s.Heeds seg → ¬ s.EndsInside seg.ack
  | _ => True

theorem sound_new (conv : UInt32) : (new env conv).Sound := ⟨sendInv_new env conv, fun _ => rfl⟩

theorem sound_call {c : Call} (h : s.Sound) (hok : s.WholeAcks c) (hc : s.call env c = some s') :
    s'.Sound := by
  have hprogress := progress_call env hc
  refine ⟨?_, fun hl => ?_⟩
  · cases c with
    | connect => cases hc; exact sendInv_connect env h.send
    | notifyMTU mtu => cases hc; exact sendInv_notifyMTU h.send mtu
    | notifyClock now => cases hc; exact sendInv_notifyClock env h.send now
    | notifyPacket buffer =>
      obtain ⟨⟨ok, t⟩, ht, rfl⟩ := Option.map_eq_some_iff.mp hc
      obtain rfl | ⟨seg, hseg, rfl⟩ := notifyPacket_cases env ht
      · exact h.send
      · exact sendInv_process env h.send h.listen seg (hok seg hseg)
    | setOption opt value => cases hc; exact sendInv_setOption env h.send opt value
    | recv len => cases hc; exact sendInv_recv env h.send len
    | send buffer => cases hc; exact sendInv_send env h.send buffer
    | close force => cases hc; exact h.send
  · obtain ⟨hl', hsame⟩ := hprogress.listen hl
    rw [hsame, h.listen hl']

/-- The segment list covers exactly the send buffer: its entries follow each other without gap from `m_snd_una`
on, and are together as long. -/
def CoversBuffer (s : PseudoTcp) : Prop :=
  lens s.slist = s.sbuf.getBuffered ∧
    ∀ l₁ g l₂, s.slist = l₁ ++ g :: l₂ → g.seq = s.sndUna + UInt32.ofNat (lens l₁)

theorem coversBuffer_of_sendInv (h : s.sendCore.Inv) : s.CoversBuffer := by
  obtain ⟨⟨acked, pending, hs⟩, -⟩ := h
  refine ⟨hs.lens_slist, fun l₁ g l₂ hl => ?_⟩
  have hcov : Covers s.sndUna pending (l₁ ++ g :: l₂) := hl ▸ hs.covers
  exact hcov.entry.1

/-- **The send buffer.** In every run in which no acknowledgment that ends inside a queued segment is accepted,
the segment list covers the buffer, and every packet carries the bytes queued at its number. -/
theorem coversBuffer_of_run (conv : UInt32) (calls : List Call) (s : PseudoTcp)
    (hrun : Runs.run (call env) (new env conv) calls = some s)
    (hok : Runs.Admissible (call env) WholeAcks (new env conv) calls) :
    s.CoversBuffer ∧ ∀ p ∈ s.written, CarriesQueued s.queued p.1 := by
  have hsound : s.Sound := Runs.invariant (P := Sound)
    (fun _ _ _ h hc hcall => sound_call env h hc hcall) (sound_new env conv) hok hrun
  exact ⟨coversBuffer_of_sendInv hsound.send, hsound.send.packets⟩

/-- A datagram of the peer, on conversation 7. -/
def datagram (seq ack : UInt32) (flags : UInt8) (data : List UInt8) : List UInt8 :=
  longToBytes 7 ++ longToBytes seq ++ longToBytes ack ++ [0, flags] ++ shortToBytes 1000 ++
    longToBytes 1 ++ longToBytes 0 ++ data

theorem parseHeader_datagram (seq ack : UInt32) (flags : UInt8) (data : List UInt8) :
    parseHeader (datagram seq ack flags data) = some ⟨7, seq, ack, flags, 1000, data, 1, 0⟩ :=
  parseHeader_header { new quietEnv 7 with rcvNxt := ack, rcvWnd := 1000 } seq flags 1 data

/-- Connect, send ten bytes, and have the peer acknowledge up to `ack`. -/
def ackRun (ack : UInt32) : List Call :=
  [.connect, .notifyPacket (datagram 0 4 FLAG_CTL [0, 3, 1, 0]), .send (List.replicate 10 65),
    .notifyPacket (datagram 4 ack 0 [])]

/-- In a run where the peer acknowledges all ten bytes, the buffer is covered. -/
theorem coversBuffer_of_run_whole :
    ∃ s, Runs.run (call quietEnv) (new quietEnv 7) (ackRun 14) = some s ∧
      s.CoversBuffer ∧ ∀ p ∈ s.written, CarriesQueued s.queued p.1 := by
  refine ⟨_, rfl, coversBuffer_of_run quietEnv 7 (ackRun 14) _ rfl ?_⟩
  refine ⟨trivial, fun _ h₁ => ?_⟩
  cases h₁
  refine ⟨fun seg hseg _ hin => ?_, fun _ h₂ => ?_⟩
  · obtain rfl := Option.some.inj ((parseHeader_datagram _ _ _ _).symm.trans hseg.2)
    exact hin.2 ⟨1, by decide +kernel⟩
  cases h₂
  refine ⟨trivial, fun _ h₃ => ?_⟩
  cases h₃
  refine ⟨fun seg hseg _ hin => ?_, fun _ _ => trivial⟩
  obtain rfl := Option.some.inj ((parseHeader_datagram _ _ _ _).symm.trans hseg.2)
  exact hin.2 ⟨1, by decide +kernel⟩

/-- After an acknowledgment of five of the ten bytes, the first segment starts before
`m_snd_una`. -/
theorem not_coversBuffer_after_partial_ack :
    ¬ ∀ (env : Env) (conv : UInt32) (calls : List Call) (s : PseudoTcp),
      Runs.run (call env) (new env conv) calls = some s →
        s.CoversBuffer ∧ ∀ p ∈ s.written, CarriesQueued s.queued p.1 := by
  intro h
  have hend : (Runs.run (call quietEnv) (new quietEnv 7) (ackRun 9)).map
      (fun s => (s.slist, s.sndUna)) = some ([⟨4, 5, 1, false⟩], 9) := by decide +kernel
  obtain ⟨s, hs, heq⟩ := Option.map_eq_some_iff.mp hend
  obtain ⟨hslist, huna⟩ := Prod.mk.inj heq
  have hseq := (h quietEnv 7 (ackRun 9) s hs).1.2 [] ⟨4, 5, 1, false⟩ [] hslist
  rw [huna] at hseq
  exact absurd hseq (by decide)

end Synciga.PseudoTcp
