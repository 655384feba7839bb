import Synciga.PseudoTcp.Endpoint

/-!
# Two connections and the network between them

The network is the record of all packets ever handed to `TcpWritePacket`: a step may deliver any of them, any
number of times, in any order, or never. The applications call both sides in any order. `accepted` collects the
bytes that `Send` took and `returned` those that `Recv` gave. The receive invariant of a side is about the
stream of the other.

## Main definitions

* `Link.step` — a call or a delivery
* `Link.Inv` — the invariants of both sides

## Main results

* `Link.returned_prefix_of_run` — what is returned is a prefix of what was accepted
-/

namespace Synciga

open PseudoTcp

/-! ### The system -/

/-- The two ends. -/
inductive Party
  | a
  | b
  deriving DecidableEq, Repr

/-- The other end. -/
def Party.other : Party → Party
  | .a => .b
  | .b => .a

@[simp] theorem Party.other_other (p : Party) : p.other.other = p := by
  cases p <;> rfl

theorem Party.other_ne (p : Party) : p.other ≠ p := by
  cases p <;> decide

theorem Party.eq_other_of_ne {p q : Party} (h : q ≠ p) : q = p.other := by
  cases p <;> cases q <;> first | rfl | exact absurd rfl h

/-- One end: the connection, the bytes `Send` has accepted and the bytes `Recv` has returned. -/
structure Side where
  tcp : PseudoTcp
  accepted : List UInt8
  returned : List UInt8

/-- A call on one side, with its effect on the histories. -/
def Side.call (env : Env) (s : Side) : Call → Option Side
  | .send buffer =>
    some ⟨(s.tcp.send env buffer).2,
      s.accepted ++ buffer.take ((s.tcp.send env buffer).1.getD 0).toNat, s.returned⟩
  | .recv len =>
    some ⟨(s.tcp.recv env len).2, s.accepted, s.returned ++ (s.tcp.recv env len).1.getD []⟩
  | c => (s.tcp.call env c).map fun tcp => ⟨tcp, s.accepted, s.returned⟩

variable {env : Env}

theorem Side.call_tcp {s s' : Side} {c : Call}
    (h : s.call env c = some s') : s.tcp.call env c = some s'.tcp := by
  cases c with
  | send buffer => cases h; rfl
  | recv len => cases h; rfl
  | connect => cases h; rfl
  | notifyMTU mtu => cases h; rfl
  | notifyClock now => cases h; rfl
  | setOption opt value => cases h; rfl
  | close force => cases h; rfl
  | notifyPacket buffer =>
    obtain ⟨tcp, htcp, rfl⟩ := Option.map_eq_some_iff.mp h
    exact htcp

theorem send_accepted {s : PseudoTcp} (h : s.sendCore.Inv) (buffer : List UInt8) :
    dataBytes (s.send env buffer).2.queued =
      dataBytes s.queued ++ buffer.take ((s.send env buffer).1.getD 0).toNat := by
  simp only [send]
  split
  · simp
  split
  · simp
  have hlen : (UInt32.ofNat buffer.length).toNat ≤ buffer.length := by
    exact Nat.mod_le _ _
  have hqueued := (sendInv_queue h buffer (UInt32.ofNat buffer.length) false hlen).2
  rw [(emits_attemptSend env _ _).queued, hqueued, dataBytes_append]
  congr 1
  rw [dataBytes_of_data, List.map_map]
  · simp [Function.comp_def]
  · intro x hx
    obtain ⟨b, -, rfl⟩ := List.mem_map.mp hx
    rfl

theorem Side.call_accepted {s s' : Side} {c : Call} (h : s.call env c = some s')
    (hinv : s.tcp.sendCore.Inv) (hacc : s.accepted = dataBytes s.tcp.queued) :
    s'.accepted = dataBytes s'.tcp.queued := by
  by_cases hsend : c.Sends
  · cases c with
    | send buffer =>
      cases h
      rw [send_accepted hinv, ← hacc]
    | _ => exact hsend.elim
  obtain ⟨more, hmore, hkind | ⟨-, hs⟩⟩ := (progress_call env (Side.call_tcp h)).queued
  · have hsame : s'.accepted = s.accepted := by
      cases c with
      | send buffer => exact absurd trivial hsend
      | notifyPacket buffer =>
        obtain ⟨tcp, -, rfl⟩ := Option.map_eq_some_iff.mp h
        rfl
      | _ => cases h; rfl
    rw [hmore, dataBytes_append, dataBytes_of_control hkind, List.append_nil, hsame, hacc]
  · exact absurd hs hsend

/-- The two sides. -/
abbrev Link : Type := Party → Side

namespace Link

variable (env : Party → Env)

/-- Two fresh connections of one conversation. -/
def new (conv : UInt32) : Link := fun p => ⟨PseudoTcp.new (env p) conv, [], []⟩

variable (l : Link)

/-- What may be called: a packet comes from the other side, buffer sizes are positive and set in
`TCP_LISTEN`, an MTU leaves room for the headers, and nobody calls `Close`. -/
def Allowed (p : Party) : Call → Prop
  | .notifyPacket buffer => buffer ∈ (l p.other).tcp.written.map Prod.fst
  | .notifyMTU mtu => PACKET_OVERHEAD < mtu.toUInt32
  | .setOption opt value =>
    opt = .nodelay ∨ opt = .ackdelay ∨ ((l p).tcp.state = .listen ∧ 0 < value)
  | .close _ => False
  | _ => True

instance (l : Link) (p : Party) : (c : Call) → Decidable (l.Allowed p c)
  | .notifyPacket buffer =>
    inferInstanceAs (Decidable (buffer ∈ (l p.other).tcp.written.map Prod.fst))
  | .notifyMTU mtu => inferInstanceAs (Decidable (PACKET_OVERHEAD < mtu.toUInt32))
  | .setOption opt value => inferInstanceAs (Decidable
    (opt = .nodelay ∨ opt = .ackdelay ∨ ((l p).tcp.state = .listen ∧ 0 < value)))
  | .close _ => inferInstanceAs (Decidable False)
  | .connect => inferInstanceAs (Decidable True)
  | .notifyClock _ => inferInstanceAs (Decidable True)
  | .recv _ => inferInstanceAs (Decidable True)
  | .send _ => inferInstanceAs (Decidable True)

/-- A step: a call that is allowed. -/
def step (act : Party × Call) : Option Link :=
  if l.Allowed act.1 act.2 then
    ((l act.1).call (env act.1) act.2).map fun s => Function.update l act.1 s
  else none

/-- The step brings in no packet that acknowledges a part of a segment or displaces saved ranges. -/
def Harmless (act : Party × Call) : Prop :=
  match act.2 with
  | .notifyPacket buffer => ∀ seg, Delivers buffer seg → (l act.1).tcp.Heeds seg →
      ¬ (l act.1).tcp.EndsInside seg.ack ∧ ¬ (l act.1).tcp.Displaces seg
  | _ => True

/-! ### The invariant -/

/-- The invariant: each sending side is in order, each receive side holds what the other queued, and the
accepted bytes are the data of the stream. While a side listens, the other has neither been answered nor queued
data. -/
structure Inv (l : Link) : Prop where
  sound : ∀ p, (l p).tcp.Sound
  recv : ∀ p, (l p).tcp.recvCore.Inv (l p.other).tcp.queued (l p).returned
  accepted : ∀ p, (l p).accepted = dataBytes (l p).tcp.queued
  listen : ∀ p, (l p).tcp.state = .listen → ¬ (l p.other).tcp.Active ∧ dataBytes (l p.other).tcp.queued = []

theorem inv_new (conv : UInt32) : (new env conv).Inv := by
  refine ⟨fun p => sound_new (env p) conv, fun p => recvInv_new (env p) conv, fun _ => rfl,
    fun p _ => ⟨fun ha => ?_, rfl⟩⟩
  rcases ha with ha | ha <;> cases ha

variable {env} {l l' : Link}

variable {p : Party}

theorem Inv.rlist_eq_nil (h : l.Inv) (hl : (l p).tcp.state = .listen) : (l p).tcp.rlist = [] := by
  have hrecv := h.recv p
  refine List.eq_nil_iff_forall_not_mem.mpr fun r hr => ?_
  have hpos : 0 < r.len.toNat := by
    rcases Nat.eq_zero_or_pos r.len.toNat with hz | hpos
    · exact absurd (UInt32.toNat_inj.mp hz) (hrecv.nonempty r hr)
    · exact hpos
  -- A saved range would be data of the other side.
  obtain ⟨b, hb, -⟩ := hrecv.saved r hr r.seq.toNat le_rfl (by omega)
  have hmem : b ∈ dataBytes (l p.other).tcp.queued :=
    List.mem_map.mpr ⟨(b, false), List.mem_filter.mpr ⟨List.mem_of_getElem? hb, rfl⟩, rfl⟩
  rw [(h.listen p hl).2] at hmem
  cases hmem

theorem not_isControl_of_queued_eq_nil {queued : List (UInt8 × Bool)} {buffer : List UInt8}
    {seg : Segment} (h : CarriesQueued queued buffer) (hq : queued = [])
    (hseg : parseHeader buffer = some seg) : ¬ IsControl seg := by
  rintro ⟨-, hne⟩
  have hcar := carries_of_carriesQueued h (by rw [hq]; decide) hseg
  have hend := hcar.end_le hne
  rw [hq, List.length_nil] at hend
  exact hne (List.eq_nil_of_length_eq_zero (by omega))

variable {c : Call}

theorem step_cases (h : l.step env (p, c) = some l') :
    l.Allowed p c ∧ l' p.other = l p.other ∧ (l p).call (env p) c = some (l' p) := by
  rw [step] at h
  split at h
  · next hallowed =>
    obtain ⟨s, hs, rfl⟩ := Option.map_eq_some_iff.mp h
    refine ⟨hallowed, Function.update_of_ne (Party.other_ne p) _ _, ?_⟩
    simpa only [Function.update_self] using hs
  · cases h

theorem Inv.carriesQueued (h : l.Inv) {buffer : List UInt8}
    (hmem : buffer ∈ (l p.other).tcp.written.map Prod.fst) :
    CarriesQueued (l p.other).tcp.queued buffer := by
  obtain ⟨pkt, hpkt, rfl⟩ := List.mem_map.mp hmem
  exact (h.sound p.other).send.packets pkt hpkt

theorem recv_step (h : l.Inv) (hlen : (l p.other).tcp.queued.length < 2 ^ 32) (hok : l.Harmless (p, c))
    (hallowed : l.Allowed p c) (hcall : (l p).call (env p) c = some (l' p)) :
    (l' p).tcp.recvCore.Inv (l p.other).tcp.queued (l' p).returned := by
  have hrecv := h.recv p
  generalize l' p = s' at hcall
  cases c with
  | connect =>
    cases hcall
    simp only [connect]
    split
    · exact hrecv
    · rw [(emits_attemptSend (env p) _ _).recvCore]
      exact hrecv
  | notifyMTU mtu =>
    cases hcall
    rw [(tends_notifyMTU _ mtu).quiet.recvCore]
    exact hrecv
  | notifyClock now =>
    cases hcall
    rw [(ticks_notifyClock (env p) _ now).quiet.recvCore]
    exact hrecv
  | setOption opt value =>
    cases hcall
    rcases hallowed with rfl | rfl | ⟨hl, -⟩
    · exact hrecv
    · exact hrecv
    · exact recvInv_setOption (env p) hrecv (h.rlist_eq_nil hl) opt value
  | recv len =>
    cases hcall
    exact recvInv_recv (env p) hrecv len
  | send buffer =>
    cases hcall
    simp only [send]
    split
    · exact hrecv
    split
    · exact hrecv
    · rw [(emits_attemptSend (env p) _ _).recvCore]
      exact hrecv
  | close force => exact hallowed.elim
  | notifyPacket buffer =>
    obtain ⟨tcp, htcp, rfl⟩ := Option.map_eq_some_iff.mp hcall
    obtain ⟨⟨ok, t⟩, ht, rfl⟩ := Option.map_eq_some_iff.mp htcp
    obtain rfl | ⟨seg, hseg, rfl⟩ := notifyPacket_cases (env p) ht
    · exact hrecv
    · have hcar := carries_of_carriesQueued (h.carriesQueued hallowed) hlen hseg.2
      exact recvInv_process (env p) hrecv hlen hcar fun hheeds => (hok seg hseg hheeds).2

theorem inv_step (h : l.Inv) (hlen : (l p.other).tcp.queued.length < 2 ^ 32)
    (hok : l.Harmless (p, c)) (hstep : l.step env (p, c) = some l') : l'.Inv := by
  obtain ⟨hallowed, hother, hcall⟩ := step_cases hstep
  have htcp := Side.call_tcp hcall
  have hprogress := progress_call (env p) htcp
  have hwhole : (l p).tcp.WholeAcks c := by
    cases c with
    | notifyPacket buffer => exact fun seg hseg hheeds => (hok seg hseg hheeds).1
    | _ => exact trivial
  have hrecv := recv_step h hlen hok hallowed hcall
  obtain ⟨more, hmore, hkind⟩ := hprogress.queued
  refine ⟨fun q => ?_, fun q => ?_, fun q => ?_, fun q => ?_⟩
  · by_cases hq : q = p
    · subst hq
      exact sound_call (env q) (h.sound q) hwhole htcp
    · rw [Party.eq_other_of_ne hq, hother]
      exact h.sound p.other
  · by_cases hq : q = p
    · subst hq
      rw [hother]
      exact hrecv
    · rw [Party.eq_other_of_ne hq, hother, Party.other_other, hmore]
      have hold := h.recv p.other
      rw [Party.other_other] at hold
      exact hold.append more
  · by_cases hq : q = p
    · subst hq
      exact Side.call_accepted hcall (h.sound q).send (h.accepted q)
    · rw [Party.eq_other_of_ne hq, hother]
      exact h.accepted p.other
  by_cases hq : q = p
  · subst hq
    intro hl
    rw [hother]
    exact h.listen q (hprogress.listen hl).1
  rw [Party.eq_other_of_ne hq, hother, Party.other_other]
  intro hl
  -- The other side still listens: it has sent nothing that could answer the handshake.
  have hlisten := h.listen p.other hl
  rw [Party.other_other] at hlisten
  refine ⟨fun ha => ?_, ?_⟩
  · rcases hprogress.active ha with hact | hctl
    · exact hlisten.1 hact
    cases c with
    | notifyPacket buffer =>
      obtain ⟨seg, hseg, hcontrol⟩ := hctl
      exact not_isControl_of_queued_eq_nil (h.carriesQueued hallowed)
        ((h.sound p.other).listen hl) hseg.2 hcontrol
    | _ => exact hctl.elim
  · rcases hkind with hkind | ⟨hest, -⟩
    · rw [hmore, dataBytes_append, hlisten.2, dataBytes_of_control hkind, List.append_nil]
    · exact absurd (.inr hest) hlisten.1

theorem length_queued_step (hstep : l.step env (p, c) = some l')
    (q : Party) : (l q).tcp.queued.length ≤ (l' q).tcp.queued.length := by
  obtain ⟨-, hother, hcall⟩ := step_cases hstep
  by_cases hq : q = p
  · subst hq
    obtain ⟨more, hmore, -⟩ := (progress_call (env q) (Side.call_tcp hcall)).queued
    rw [hmore, List.length_append]
    exact Nat.le_add_right _ _
  · rw [Party.eq_other_of_ne hq, hother]

/-- **Reliable delivery.** Over a network that drops, duplicates, delays and reorders packets, what
one side has returned is a prefix of what the other has accepted, in every run of harmless steps in
which each side queues fewer than `2 ^ 32` bytes. -/
theorem returned_prefix_of_run (env : Party → Env) (conv : UInt32) (acts : List (Party × Call))
    (l : Link) (hrun : Runs.run (step env) (new env conv) acts = some l)
    (hlen : ∀ p, (l p).tcp.queued.length < 2 ^ 32)
    (hok : Runs.Admissible (step env) Harmless (new env conv) acts) (p : Party) :
    (l p).returned <+: (l p.other).accepted := by
  -- The bound on the final streams bounds the streams of every state before.
  have hinv : (∀ p, (l p).tcp.queued.length < 2 ^ 32) → l.Inv :=
    Runs.invariant (P := fun l : Link => (∀ p, (l p).tcp.queued.length < 2 ^ 32) → l.Inv)
      (fun l act l' h hok hstep hlen =>
        have hlen' : ∀ p, (l p).tcp.queued.length < 2 ^ 32 :=
          fun q => (length_queued_step hstep q).trans_lt (hlen q)
        inv_step (h hlen') (hlen' _) hok hstep)
      (fun _ => inv_new env conv) hok hrun
  have hrecv := (hinv hlen).recv p
  have hstream := hrecv.stream
  rw [(hinv hlen).accepted p.other, ← List.take_append_drop (l p).tcp.recvCore.rcvNxt.toNat
    (l p.other).tcp.queued, dataBytes_append, ← hstream, List.append_assoc]
  exact List.prefix_append _ _

/-! ### Two concrete runs -/

/-- A packet on conversation 7, written at time 1 with a window of 60 KiB. -/
def wire (seq ack : UInt32) (flags : UInt8) (tsecr : UInt32) (data : List UInt8) : List UInt8 :=
  longToBytes 7 ++ longToBytes seq ++ longToBytes ack ++ [0, flags] ++ shortToBytes 61440 ++
    longToBytes 1 ++ longToBytes tsecr ++ data

theorem parseHeader_wire (seq ack : UInt32) (flags : UInt8) (tsecr : UInt32) (data : List UInt8) :
    parseHeader (wire seq ack flags tsecr data) = some ⟨7, seq, ack, flags, 61440, data, 1, tsecr⟩ :=
  parseHeader_header { PseudoTcp.new quietEnv 7 with
    rcvNxt := ack, rcvWnd := 61440, tsRecent := tsecr } seq flags 1 data

/-- A packet is harmless to a side with no range saved, if its acknowledgment is not accepted or
frees `k` whole segments. -/
theorem harmless_wire {l : Link} {seq ack tsecr : UInt32} {flags : UInt8}
    {data : List UInt8} (k : ℕ) (hnil : (l p).tcp.rlist = [])
    (hack : ¬ (l p).tcp.valuableAck ack ∨ lens ((l p).tcp.slist.take k) = (ack - (l p).tcp.sndUna).toNat) :
    l.Harmless (p, .notifyPacket (wire seq ack flags tsecr data)) := by
  rintro seg ⟨-, hseg⟩ -
  obtain rfl := Option.some.inj ((parseHeader_wire _ _ _ _ _).symm.trans hseg)
  refine ⟨fun hin => ?_, fun hdis => hdis.2.1 hnil⟩
  rcases hack with hack | hack
  · exact hack hin.1
  · exact hin.2 ⟨k, hack⟩

/-- A connects and sends three bytes, nothing is lost, and B reads them. -/
def plainRun : List (Party × Call) :=
  [(.a, .connect),
    (.b, .notifyPacket (wire 0 0 FLAG_CTL 0 [0, 3, 1, 0])),
    (.a, .notifyPacket (wire 0 4 FLAG_CTL 1 [0, 3, 1, 0])),
    (.a, .send [1, 2, 3]),
    (.b, .notifyPacket (wire 4 4 0 1 [1, 2, 3])),
    (.b, .recv 10)]

/-- B answers a duplicate of the connect message, and A the answer, so B sends two segments before its own
connect message reaches A. The second comes first, then the connect message, then the first. -/
def lateConnectRun : List (Party × Call) :=
  [(.b, .notifyMTU 126),
    (.a, .connect),
    (.b, .notifyPacket (wire 0 0 FLAG_CTL 0 [0, 3, 1, 0])),
    (.b, .notifyPacket (wire 0 0 FLAG_CTL 0 [0, 3, 1, 0])),
    (.a, .notifyPacket (wire 4 4 0 1 [])),
    (.b, .notifyPacket (wire 4 0 0 0 [])),
    (.b, .send [1, 2, 3, 4, 5, 6, 7, 8, 9, 10, 11, 12, 13, 14, 15, 16, 17, 18, 19, 20]),
    (.a, .notifyPacket (wire 14 4 0 1 [11, 12, 13, 14, 15, 16, 17, 18, 19, 20])),
    (.a, .notifyPacket (wire 0 4 FLAG_CTL 1 [0, 3, 1, 0])),
    (.a, .notifyPacket (wire 4 4 0 1 [1, 2, 3, 4, 5, 6, 7, 8, 9, 10])),
    (.a, .recv 100)]

theorem returned_prefix_of_plainRun :
    ∃ l : Link, Runs.run (step fun _ => quietEnv) (new (fun _ => quietEnv) 7) plainRun = some l ∧
      (l .b).returned = [1, 2, 3] ∧ (l .b).returned <+: (l .a).accepted := by
  have hend : (Runs.run (step fun _ => quietEnv) (new (fun _ => quietEnv) 7) plainRun).map
      (fun l => ((l .b).returned, (l .a).tcp.queued.length, (l .b).tcp.queued.length)) =
        some ([1, 2, 3], 7, 4) := by decide +kernel
  obtain ⟨l, hl, heq⟩ := Option.map_eq_some_iff.mp hend
  simp only [Prod.mk.injEq] at heq
  refine ⟨l, hl, heq.1, returned_prefix_of_run _ 7 plainRun l hl (fun p => ?_) ?_ .b⟩
  · cases p
    · rw [heq.2.1]; decide
    · rw [heq.2.2]; decide
  refine ⟨trivial, fun _ h => ?_⟩
  cases h
  refine ⟨harmless_wire 0 rfl (.inl (by decide +kernel)), fun _ h => ?_⟩
  cases h
  refine ⟨harmless_wire 1 rfl (.inr (by decide +kernel)), fun _ h => ?_⟩
  cases h
  refine ⟨trivial, fun _ h => ?_⟩
  cases h
  refine ⟨harmless_wire 1 rfl (.inr (by decide +kernel)), fun _ h => ?_⟩
  cases h
  exact ⟨trivial, fun _ _ => trivial⟩

/-- After `lateConnectRun`, A has returned four bytes that nobody sent. -/
theorem returned_not_prefix_after_late_connect :
    ¬ ∀ (env : Party → Env) (conv : UInt32) (acts : List (Party × Call)) (l : Link),
      Runs.run (step env) (new env conv) acts = some l →
        (∀ p, (l p).tcp.queued.length < 2 ^ 32) → ∀ p, (l p).returned <+: (l p.other).accepted := by
  intro h
  have hend : (Runs.run (step fun _ => quietEnv) (new (fun _ => quietEnv) 7) lateConnectRun).map
      (fun l => ((l .a).returned, (l .b).accepted, (l .a).tcp.queued.length,
        (l .b).tcp.queued.length)) =
      some ([1, 2, 3, 4, 5, 6, 7, 8, 9, 10, 0, 0, 0, 0, 11, 12, 13, 14, 15, 16],
        [1, 2, 3, 4, 5, 6, 7, 8, 9, 10, 11, 12, 13, 14, 15, 16, 17, 18, 19, 20], 4, 24) := by
    decide +kernel
  obtain ⟨l, hl, heq⟩ := Option.map_eq_some_iff.mp hend
  simp only [Prod.mk.injEq] at heq
  have hprefix := h _ 7 lateConnectRun l hl
    (fun p => by
      cases p
      · rw [heq.2.2.1]; decide
      · rw [heq.2.2.2]; decide) .a
  rw [heq.1, show Party.other .a = .b from rfl, heq.2.1] at hprefix
  exact absurd hprefix (by decide)

end Link

end Synciga
