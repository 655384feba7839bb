import Synciga.PseudoTcp.Endpoint
import Synciga.PseudoTcp.SendRounds

/-!
# The steps of the sending side

Every call changes the sending side in a sequence of elementary steps, each with the tests that the code has
made when it comes there. They do not assume that acknowledgments end on boundaries: they speak of the lengths
of segments and not of the bytes they stand for.

## Main definitions

* `SendStep` — a step

## Main results

* `sendSteps_call` — the list is complete
-/

namespace Synciga

open Relation

/-! ### States and steps -/

/-- The fields that the sending side is made of. -/
structure SendState where
  state : TcpState
  sbuf : FifoBuffer
  slist : List SSegment
  sndUna : UInt32
  sndNxt : UInt32
  rtoBase : UInt32
  dupAcks : UInt8
  recover : UInt32

/-- The sending side of a connection. -/
def PseudoTcp.sendState (s : PseudoTcp) : SendState where
  state := s.state
  sbuf := s.sbuf
  slist := s.slist
  sndUna := s.sndUna
  sndNxt := s.sndNxt
  rtoBase := s.rtoBase
  dupAcks := s.dupAcks
  recover := s.recover

/-- `queue` appends a segment of length `len`, or lengthens the last one if it is fresh and of the
same kind. -/
inductive Queued (len : UInt32) (bCtrl : Bool) : List SSegment → List SSegment → Prop
  | push (l : List SSegment) (seq : UInt32)
      (hlast : ∀ back, l.getLast? = some back → ¬ (back.bCtrl = bCtrl ∧ back.xmit = 0)) :
      Queued len bCtrl l (l ++ [SSegment.new seq len bCtrl])
  | extend (l : List SSegment) (back : SSegment) (hctrl : back.bCtrl = bCtrl)
      (hfresh : back.xmit = 0) :
      Queued len bCtrl (l ++ [back]) (l ++ [{ back with len := back.len + len }])

/-- The reasons for which the code retransmits the first segment: the timer runs, something is in
flight, or a loss is being recovered from. -/
def SendState.Outstanding (x : SendState) : Prop :=
  x.state ≠ .closed ∧ (x.rtoBase ≠ 0 ∨ x.sndUna ≠ x.sndNxt ∨ (3 ≤ x.dupAcks ∧ x.sndUna < x.recover))

/-- An elementary step of the sending side. The readings of the clock that occur are in `clock`,
and the send buffer is resized in states of `resizable` only. -/
inductive SendStep (clock : UInt32 → Prop) (resizable : SendState → Prop) :
    SendState → SendState → Prop
  /-- `transmit` of the first fresh segment, by `attemptSend`, which has found bytes to send. -/
  | transmit (x : SendState) (l₁ : List SSegment) (g : SSegment) (l₂ : List SSegment)
      (n now : UInt32) (hl : x.slist = l₁ ++ g :: l₂) (hsent : ∀ b ∈ l₁, b.xmit ≠ 0)
      (hfresh : g.xmit = 0) (havailable : UInt32.ofNat x.sbuf.dataLength ≠ x.sndNxt - x.sndUna)
      (hle : n ≤ g.len) (hne : g.len ≠ 0 → n ≠ 0) (hnow : clock now) :
      SendStep clock resizable x { x with
        slist := l₁ ++ (PseudoTcp.sentPart g n :: PseudoTcp.restPart g n) ++ l₂
        sndNxt := x.sndNxt + n
        rtoBase := if x.rtoBase = 0 then now else x.rtoBase }
  /-- `transmit` of the first segment, which is outstanding. -/
  | retransmit (x : SendState) (g : SSegment) (l : List SSegment) (n now : UInt32)
      (hl : x.slist = g :: l) (hcount : g.xmit + 1 ≠ 0) (hwhy : x.Outstanding) (hle : n ≤ g.len)
      (hnow : clock now) :
      SendStep clock resizable x { x with
        slist := PseudoTcp.sentPart g n :: PseudoTcp.restPart g n ++ l
        sndNxt := if g.xmit = 0 then x.sndNxt + n else x.sndNxt
        rtoBase := if x.rtoBase = 0 then now else x.rtoBase }
  /-- `attemptSend` cuts a fresh segment. -/
  | cut (x : SendState) (l₁ : List SSegment) (g : SSegment) (l₂ : List SSegment) (n : UInt32)
      (hl : x.slist = l₁ ++ g :: l₂) (hfresh : g.xmit = 0) (hne : n ≠ 0) (hlt : n < g.len) :
      SendStep clock resizable x { x with
        slist := l₁ ++ [{ g with len := n }, SSegment.new (g.seq + n) (g.len - n) g.bCtrl] ++ l₂ }
  /-- `Send` queues data. -/
  | send (x : SendState) (data : List UInt8) (len : UInt32) (l : List SSegment)
      (hstate : x.state = .established) (hroom : x.sbuf.getWriteRemaining ≠ 0)
      (hlen : len.toNat = data.length) (hfit : data.length ≤ x.sbuf.getWriteRemaining)
      (hl : Queued len false x.slist l) :
      SendStep clock resizable x { x with slist := l, sbuf := (x.sbuf.write data).2.2 }
  /-- The connect message is queued. -/
  | connect (x : SendState) (state : TcpState) (data : List UInt8) (len : UInt32)
      (l : List SSegment) (hlisten : x.state = .listen)
      (hstate : state = .synSent ∨ state = .synReceived) (hlen : len.toNat = data.length)
      (hfit : data.length ≤ x.sbuf.getWriteRemaining)
      (hempty : len = 0 → x.sbuf.getWriteRemaining = 0) (hl : Queued len true x.slist l) :
      SendStep clock resizable x { x with
        state := state, slist := l, sbuf := (x.sbuf.write data).2.2 }
  /-- The connection is established. -/
  | establish (x : SendState) (hstate : x.state = .synSent ∨ x.state = .synReceived) :
      SendStep clock resizable x { x with state := .established }
  /-- A valuable acknowledgment. -/
  | accept (x : SendState) (ack now largest : UInt32) (hopen : x.state ≠ .closed)
      (hlt : x.sndUna < ack) (hle : ack ≤ x.sndNxt) (hnow : clock now) :
      SendStep clock resizable x { x with
        sndUna := ack
        rtoBase := if ack = x.sndNxt then 0 else now
        sbuf := x.sbuf.consumeReadData (ack - x.sndUna).toNat
        slist := (PseudoTcp.freeAcked (ack - x.sndUna) largest x.slist).2 }
  /-- The count of duplicate acknowledgments is reset. -/
  | forget (x : SendState) : SendStep clock resizable x { x with dupAcks := 0 }
  /-- A duplicate acknowledgment that is not the third one is counted. -/
  | duplicate (x : SendState) (hthird : x.dupAcks + 1 ≠ 3) :
      SendStep clock resizable x { x with dupAcks := x.dupAcks + 1 }
  /-- The third duplicate acknowledgment. -/
  | third (x : SendState) (hthird : x.dupAcks + 1 = 3) :
      SendStep clock resizable x { x with dupAcks := 3, recover := x.sndNxt }
  /-- The timer is started anew after a timeout. -/
  | restart (x : SendState) (now : UInt32) (hrun : x.rtoBase ≠ 0) (hnow : clock now) :
      SendStep clock resizable x { x with rtoBase := now }
  /-- `closedown`. -/
  | close (x : SendState) (dupAcks : UInt8) :
      SendStep clock resizable x { x with state := .closed, dupAcks := dupAcks }
  /-- The send buffer is resized. -/
  | resize (x : SendState) (fresh : ℕ → UInt8) (size : ℕ) (hsize : size < 2 ^ 32)
      (hok : resizable x) :
      SendStep clock resizable x { x with sbuf := (x.sbuf.setCapacity fresh size).2 }

namespace PseudoTcp

variable (env : Env) {s s' : PseudoTcp} {clock : UInt32 → Prop} {resizable : SendState → Prop}

/-- Elementary steps lead from one connection to the other. -/
def Steps (clock : UInt32 → Prop) (resizable : SendState → Prop) (s s' : PseudoTcp) : Prop :=
  ReflTransGen (SendStep clock resizable) s.sendState s'.sendState

theorem Steps.of_eq (h : s'.sendState = s.sendState) : Steps clock resizable s s' := by
  rw [Steps, h]

theorem Steps.trans {s₁ s₂ s₃ : PseudoTcp} (h : Steps clock resizable s₁ s₂)
    (h' : Steps clock resizable s₂ s₃) : Steps clock resizable s₁ s₃ :=
  ReflTransGen.trans h h'

theorem Steps.single {s s' : PseudoTcp} (h : SendStep clock resizable s.sendState s'.sendState) :
    Steps clock resizable s s' :=
  ReflTransGen.single h

theorem Steps.invariant {P : SendState → Prop} (h : Steps clock resizable s s')
    (hstep : ∀ x y, P x → SendStep clock resizable x y → P y) (hs : P s.sendState) :
    P s'.sendState := by
  rw [Steps] at h
  generalize s'.sendState = y at h
  induction h with
  | refl => exact hs
  | tail _ hlast ih => exact hstep _ _ ih hlast

theorem sendState_of_sending (h : Sending s s') : s'.sendState =
    { s.sendState with slist := s'.slist, sndNxt := s'.sndNxt, rtoBase := s'.rtoBase } := by
  have hstate := h.state
  have hsbuf := h.sbuf
  have huna := h.sndUna
  have hdup : s'.dupAcks = s.dupAcks := congrArg Steady.dupAcks h.steady
  have hrecover : s'.recover = s.recover := congrArg Steady.recover h.steady
  simp only [sendState, hstate, hsbuf, huna, hdup, hrecover]

theorem sendState_packet (s : PseudoTcp) (seq : UInt32) (flags : UInt8) (offset len : UInt32) :
    (s.packet env seq flags offset len).2.sendState = s.sendState := by
  simp only [packet]
  split <;> rfl

/-! ### Transmitting -/

theorem sendable_of_all_inFlight (h : UInt32.ofNat s.sbuf.getBuffered = s.sndNxt - s.sndUna) :
    s.sendable = 0 := by
  have hmin : min (0 : UInt32) s.mss = 0 := if_pos (UInt32.zero_le)
  simp only [sendable, h, UInt32.sub_self, hmin]
  exact if_neg (UInt32.not_lt_zero)

theorem sndNxt_splitSegment (s : PseudoTcp) (i : ℕ) (nAvailable : UInt32) :
    (s.splitSegment i nAvailable).sndNxt = s.sndNxt := by
  rw [splitSegment]
  split
  · rfl
  · split <;> rfl

variable {now : UInt32}

theorem sendState_transmit_false {i : ℕ}
    (h : s.transmit env i now = (false, s')) : s'.sendState = s.sendState := by
  have hsend := sending_transmit env s i now
  rw [h] at hsend
  obtain ⟨s₁, hs₁, hmarks⟩ | ⟨s₁, _, _, _, _, hs₁, -⟩ := transmit_cases env s i now
  · obtain ⟨-, rfl⟩ := Prod.mk.inj (hs₁.symm.trans h)
    simp only [marks, Prod.mk.injEq] at hmarks
    rw [sendState_of_sending hsend, hmarks.1, hmarks.2.1, hmarks.2.2]
    rfl
  · cases hs₁.symm.trans h

/-- Retransmitting the first segment, where it is outstanding. The count of duplicate
acknowledgments plays no part in it. -/
theorem sendStep_transmit_zero (hnow : clock now) (dupAcks : UInt8)
    (hwhy : { s.sendState with dupAcks := dupAcks }.Outstanding)
    (h : s.transmit env 0 now = (true, s')) :
    SendStep clock resizable { s.sendState with dupAcks := dupAcks }
      { s'.sendState with dupAcks := dupAcks } := by
  have hsend := sending_transmit env s 0 now
  rw [h] at hsend
  obtain ⟨s₁, hs₁, -⟩ | ⟨s₁, l₁, g, l₂, n, hs₁, hlen, ht⟩ := transmit_cases env s 0 now
  · cases hs₁.symm.trans h
  obtain ⟨-, rfl⟩ := Prod.mk.inj (hs₁.symm.trans h)
  obtain rfl := List.eq_nil_of_length_eq_zero hlen
  rw [sendState_of_sending hsend, ht.after, ht.sndNxt, ht.rtoBase]
  exact .retransmit { s.sendState with dupAcks := dupAcks } g l₂ n now ht.before ht.counted hwhy ht.le hnow

theorem steps_transmit_zero (hnow : clock now) (hwhy : s.sendState.Outstanding)
    (h : s.transmit env 0 now = (true, s')) : Steps clock resizable s s' := by
  have hsend := sending_transmit env s 0 now
  rw [h] at hsend
  have hdup : s'.dupAcks = s.dupAcks := congrArg Steady.dupAcks hsend.steady
  have hstep : SendStep clock resizable { s.sendState with dupAcks := s.dupAcks }
      { s'.sendState with dupAcks := s.dupAcks } := sendStep_transmit_zero env hnow _ hwhy h
  rw [← hdup] at hstep
  refine .single ?_
  rw [show s.sendState = { s.sendState with dupAcks := s'.dupAcks } by rw [hdup]; rfl]
  exact hstep

theorem steps_round (hnow : clock now) {i : ℕ} (hsend : s.sendable ≠ 0)
    (hi : s.slist.findIdx? (fun seg => seg.xmit = 0) = some i) :
    Steps clock resizable s ((s.splitSegment i s.sendable).transmit env i now).2 := by
  obtain ⟨⟨l₁, g, l₂, hl, rfl, hfresh⟩, hbefore⟩ := sent_of_findIdx? hi
  rw [hl, List.take_left] at hbefore
  -- First the cut, which leaves a fresh segment in the same place.
  obtain ⟨g', l₂', hl', hfresh', hcut⟩ : ∃ g' l₂',
      (s.splitSegment l₁.length s.sendable).slist = l₁ ++ g' :: l₂' ∧ g'.xmit = 0 ∧
        Steps clock resizable s (s.splitSegment l₁.length s.sendable) := by
    rw [splitSegment, getElem?_of_eq_append hl]
    simp only
    split
    · next hlt =>
      refine ⟨{ g with len := s.sendable },
        SSegment.new (g.seq + s.sendable) (g.len - s.sendable) g.bCtrl :: l₂, ?_, hfresh, ?_⟩
      · rw [hl, replaceAt_append, List.append_assoc]
        rfl
      · refine .single ?_
        have hstep : SendStep clock resizable s.sendState _ :=
          .cut s.sendState l₁ g l₂ s.sendable hl hfresh hsend hlt
        rw [hl, replaceAt_append]
        exact hstep
    · exact ⟨g, l₂, hl, hfresh, .of_eq rfl⟩
  have hmss : (s.splitSegment l₁.length s.sendable).mss ≠ 0 := by
    rw [mss_splitSegment]
    exact fun hz => hsend (sendable_of_mss_eq_zero hz)
  have havailable : UInt32.ofNat (s.splitSegment l₁.length s.sendable).sbuf.dataLength ≠
      (s.splitSegment l₁.length s.sendable).sndNxt -
        (s.splitSegment l₁.length s.sendable).sndUna := by
    rw [(sending_splitSegment s _ _).sbuf, (sending_splitSegment s _ _).sndUna,
      sndNxt_splitSegment]
    exact fun heq => hsend (sendable_of_all_inFlight heq)
  generalize s.splitSegment l₁.length s.sendable = t at *
  refine hcut.trans ?_
  have hsending := sending_transmit env t l₁.length now
  obtain ⟨t₁, ht₁, -⟩ | ⟨t₁, k₁, k, k₂, n, ht₁, hlen, ht⟩ := transmit_cases env t l₁.length now
  · rw [ht₁]
    exact .of_eq (sendState_transmit_false env ht₁)
  rw [ht₁] at hsending ⊢
  obtain ⟨rfl, htail⟩ := List.append_inj (ht.before.symm.trans hl') hlen
  obtain ⟨rfl, rfl⟩ := List.cons.inj htail
  refine .single ?_
  rw [sendState_of_sending hsending, ht.after, ht.sndNxt, ht.rtoBase, if_pos hfresh']
  exact .transmit t.sendState k₁ k k₂ n now ht.before hbefore hfresh' havailable ht.le
    (fun hk => ht.ne_zero hk hmss) hnow

theorem steps_attemptSendLoop (hnow : clock now) (fuel : ℕ) (sflags : SendFlags)
    (s : PseudoTcp) : Steps clock resizable s (attemptSendLoop env now fuel sflags s) := by
  induction fuel generalizing s sflags with
  | zero => exact .of_eq rfl
  | succ fuel ih =>
    rw [attemptSendLoop]
    split
    · split
      · exact .of_eq rfl
      split
      · exact .of_eq (sendState_packet env s _ _ _ _)
      · exact .of_eq rfl
    next hsend =>
    split
    · exact .of_eq rfl
    split
    · exact .of_eq rfl
    next i hi =>
    have hround : Steps clock resizable s ((s.splitSegment i s.sendable).transmit env i now).2 :=
      steps_round env hnow hsend hi
    rcases hr : (s.splitSegment i s.sendable).transmit env i now with ⟨_ | _, s'⟩
    · rw [hr] at hround
      exact hround
    · rw [hr] at hround
      exact hround.trans (ih .none s')

theorem steps_attemptSend (hclock : ∀ i, clock (env.clock i)) (s : PseudoTcp)
    (sflags : SendFlags) : Steps clock resizable s (s.attemptSend env sflags) := by
  refine Steps.trans ?_ (steps_attemptSendLoop env (hclock _) _ _ _)
  split <;> exact .of_eq rfl

/-! ### Queueing -/

theorem queued_queueSegment (s : PseudoTcp) (len : UInt32) (bCtrl : Bool) :
    Queued len bCtrl s.slist (s.queueSegment len bCtrl) := by
  simp only [queueSegment]
  rcases hlast : s.slist.getLast? with _ | back
  · refine .push _ _ ?_
    intro back hback
    rw [hlast] at hback
    cases hback
  simp only
  split
  · next hmerge =>
    have hinit : s.slist = s.slist.dropLast ++ [back] :=
      (List.dropLast_append_getLast? back (by rw [hlast]; rfl)).symm
    have hextend : Queued len bCtrl (s.slist.dropLast ++ [back]) _ :=
      .extend s.slist.dropLast back hmerge.1 hmerge.2
    rw [← hinit] at hextend
    exact hextend
  next hmerge =>
  refine .push _ _ ?_
  intro back' hback
  rw [hlast] at hback
  cases hback
  exact hmerge

theorem sendState_queue (s : PseudoTcp) (data : List UInt8) (len : UInt32) (bCtrl : Bool)
    (hcap : s.sbuf.getWriteRemaining < 2 ^ 32) (hlen : len.toNat ≤ data.length) :
    ∃ (taken : List UInt8) (n : UInt32) (l : List SSegment), n.toNat = taken.length ∧
      taken.length ≤ s.sbuf.getWriteRemaining ∧
      (len ≠ 0 → n = 0 → s.sbuf.getWriteRemaining = 0) ∧ Queued n bCtrl s.slist l ∧
      (s.queue data len bCtrl).2.sendState =
        { s.sendState with slist := l, sbuf := (s.sbuf.write taken).2.2 } := by
  have hspace : (UInt32.ofNat s.sbuf.getWriteRemaining).toNat = s.sbuf.getWriteRemaining := by
    rw [UInt32.toNat_ofNat', Nat.mod_eq_of_lt hcap]
  refine ⟨data.take (if UInt32.ofNat s.sbuf.getWriteRemaining < len then
    UInt32.ofNat s.sbuf.getWriteRemaining else len).toNat, _, _, ?_, ?_, ?_,
    queued_queueSegment s _ bCtrl, rfl⟩
  · rw [List.length_take]
    split
    · next hlt =>
      rw [UInt32.lt_iff_toNat_lt] at hlt
      omega
    · omega
  · rw [List.length_take]
    split
    · omega
    · next hge =>
      rw [UInt32.lt_iff_toNat_lt] at hge
      omega
  intro hne
  split
  · intro hz
    rw [← hspace, hz]
    rfl
  · exact fun hz => absurd hz hne

/-! ### The clock -/

theorem steps_clockRetransmit (hnow : clock now) (hopen : s.state ≠ .closed) :
    Steps clock resizable s (s.clockRetransmit env now).2 := by
  rw [clockRetransmit]
  split
  · next hrun =>
    have hwhy : s.sendState.Outstanding := ⟨hopen, .inl hrun.1⟩
    rcases hr : s.transmit env 0 now with ⟨_ | _, s₁⟩
    · refine Steps.trans (.of_eq (sendState_transmit_false env hr)) (.single ?_)
      exact .close s₁.sendState s₁.dupAcks
    have htransmit : Steps clock resizable s s₁ := steps_transmit_zero env hnow hwhy hr
    have hrun₁ : s₁.rtoBase ≠ 0 := by
      obtain ⟨t, ht, -⟩ | ⟨t, _, _, _, _, ht, -, hmarked⟩ := transmit_cases env s 0 now
      · cases ht.symm.trans hr
      · obtain ⟨-, rfl⟩ := Prod.mk.inj (ht.symm.trans hr)
        rw [hmarked.rtoBase, if_neg hrun.1]
        exact hrun.1
    refine htransmit.trans (.single ?_)
    exact .restart s₁.sendState now hrun₁ hnow
  · exact .of_eq rfl

theorem steps_clockProbe (s : PseudoTcp) (now : UInt32) :
    Steps clock resizable s (s.clockProbe env now).2 := by
  rw [clockProbe]
  split
  · split
    · exact .single (.close s.sendState s.dupAcks)
    · exact .of_eq (sendState_packet env s _ _ _ _)
  · exact .of_eq rfl

theorem sendState_clockAck (s : PseudoTcp) (now : UInt32) :
    (s.clockAck env now).sendState = s.sendState := by
  rw [clockAck]
  split
  · exact sendState_packet env s _ _ _ _
  · rfl

theorem steps_notifyClock (hnow : clock now) : Steps clock resizable s (s.notifyClock env now) := by
  rw [notifyClock]
  split
  · exact .of_eq rfl
  next hopen =>
  have hretransmit : Steps clock resizable s (s.clockRetransmit env now).2 :=
    steps_clockRetransmit env hnow hopen
  rcases hr : s.clockRetransmit env now with ⟨_ | _, s₁⟩
  · rw [hr] at hretransmit
    exact hretransmit
  rw [hr] at hretransmit
  have hprobe : Steps clock resizable s₁ (s₁.clockProbe env now).2 := steps_clockProbe env s₁ now
  simp only
  rcases hp : s₁.clockProbe env now with ⟨_ | _, s₂⟩
  · rw [hp] at hprobe
    exact hretransmit.trans hprobe
  rw [hp] at hprobe
  exact (hretransmit.trans hprobe).trans (.of_eq (sendState_clockAck env s₂ now))

/-! ### Acknowledgments -/

theorem sendState_updateRtt (s : PseudoTcp) (now tsecr : UInt32) :
    (s.updateRtt now tsecr).sendState = s.sendState := by
  simp only [updateRtt]
  split <;> rfl

theorem steps_acceptAck (hnow : clock now) (hopen : s.state ≠ .closed)
    (seg : Segment) (hack : s.valuableAck seg.ack) :
    Steps clock resizable s (s.acceptAck now seg) := by
  have hcore := sendState_updateRtt s now seg.tsecr
  simp only [acceptAck]
  generalize s.updateRtt now seg.tsecr = t at hcore ⊢
  refine Steps.trans (.of_eq hcore) (.single ?_)
  have hopen' : t.sendState.state ≠ .closed := hcore ▸ hopen
  have hack' : t.valuableAck seg.ack := by
    have huna : t.sndUna = s.sndUna := congrArg SendState.sndUna hcore
    have hnxt : t.sndNxt = s.sndNxt := congrArg SendState.sndNxt hcore
    rw [valuableAck, huna, hnxt]
    exact hack
  exact .accept t.sendState seg.ack now t.largest hopen' hack'.1 hack'.2 hnow

theorem steps_afterAck (hnow : clock now) (hopen : s.state ≠ .closed)
    (nAcked : UInt32) : Steps clock resizable s (s.afterAck env now nAcked).2 := by
  rw [afterAck]
  split
  · next hdup =>
    split
    · exact .single (.forget s.sendState)
    next hrecover =>
    have hwhy : s.sendState.Outstanding :=
      ⟨hopen, .inr (.inr ⟨hdup, UInt32.not_le.mp hrecover⟩)⟩
    rcases hr : s.transmit env 0 now with ⟨_ | _, s₁⟩
    · refine Steps.trans (.of_eq (sendState_transmit_false env hr)) (.single ?_)
      exact .close s₁.sendState s₁.dupAcks
    · have htransmit : Steps clock resizable s s₁ := steps_transmit_zero env hnow hwhy hr
      exact htransmit.trans (.of_eq rfl)
  · simp only
    split <;> exact .single (.forget s.sendState)

theorem steps_duplicateAck (hnow : clock now) (hopen : s.state ≠ .closed)
    (seg : Segment) : Steps clock resizable s (s.duplicateAck env now seg).2 := by
  simp only [duplicateAck]
  split
  · exact .of_eq rfl
  split
  · next hflight =>
    split
    · next hthird =>
      -- The count is raised before the transmission; as steps, the order does not matter.
      have hwhy : s.sendState.Outstanding := ⟨hopen, .inr (.inl hflight)⟩
      generalize hs₁ : ({ s with
        sndWnd := seg.wnd.toUInt32 <<< s.swndScale.toUInt32
        dupAcks := s.dupAcks + 1 } : PseudoTcp) = s₁
      have hcore : s.sendState = { s₁.sendState with dupAcks := s.dupAcks } := by
        rw [← hs₁]
        rfl
      have hcount : s₁.dupAcks = 3 := by
        rw [← hs₁]
        exact hthird
      rcases hr : s₁.transmit env 0 now with ⟨_ | _, s₂⟩
      · have hsame := sendState_transmit_false env hr
        refine .single ?_
        have hstep : SendStep clock resizable s.sendState _ := .close s.sendState s₂.dupAcks
        rw [hcore, ← hsame] at hstep
        rw [hcore, ← hsame]
        exact hstep
      have hfirst : SendStep clock resizable { s₁.sendState with dupAcks := s.dupAcks }
          { s₂.sendState with dupAcks := s.dupAcks } :=
        sendStep_transmit_zero env hnow _ (hcore ▸ hwhy) hr
      rw [← hcore] at hfirst
      have hsecond : SendStep clock resizable { s₂.sendState with dupAcks := s.dupAcks } _ :=
        .third _ hthird
      have hdup : s₂.dupAcks = 3 := by
        have hsend := sending_transmit env s₁ 0 now
        rw [hr] at hsend
        exact (congrArg Steady.dupAcks hsend.steady).trans hcount
      have hend : Steps clock resizable s { s₂ with recover := s₂.sndNxt } := by
        refine ReflTransGen.trans (.single hfirst) (.single ?_)
        rw [show ({ s₂ with recover := s₂.sndNxt } : PseudoTcp).sendState =
          { s₂.sendState with dupAcks := 3, recover := s₂.sndNxt } by rw [← hdup]; rfl]
        exact hsecond
      exact hend.trans (.of_eq rfl)
    · next hthird =>
      split <;> exact .single (.duplicate s.sendState hthird)
  · exact .single (.forget s.sendState)

theorem steps_processAck (hnow : clock now) (hopen : s.state ≠ .closed)
    (seg : Segment) : Steps clock resizable s (s.processAck env now seg).2 := by
  rw [processAck]
  split
  · next hack =>
    have haccept : Steps clock resizable s (s.acceptAck now seg) :=
      steps_acceptAck hnow hopen seg hack
    refine haccept.trans (steps_afterAck env hnow ?_ _)
    have hstate : (s.acceptAck now seg).state = s.state :=
      congrArg SendState.state (sendState_updateRtt s now seg.tsecr)
    rw [hstate]
    exact hopen
  split
  · exact steps_duplicateAck env hnow hopen seg
  · exact .of_eq rfl

/-! ### The control part, and `process` -/

theorem sendState_parseOptions (s : PseudoTcp) (data : List UInt8) :
    (s.parseOptions env data).sendState = s.sendState := by
  obtain ⟨scale, h⟩ | ⟨-, scale, h⟩ := parseOptions_cases env s data
  · rw [h]
    rfl
  · rw [h]
    rfl

theorem steps_queueConnectMessage {state : TcpState} (hcap : s.sbuf.bufferLength < 2 ^ 32)
    (hlisten : s.state = .listen) (hstate : state = .synSent ∨ state = .synReceived) :
    Steps clock resizable s { s with state := state }.queueConnectMessage := by
  have hspace : s.sbuf.getWriteRemaining < 2 ^ 32 := (Nat.sub_le _ _).trans_lt hcap
  simp only [queueConnectMessage]
  generalize hbuf : CTL_CONNECT :: (if s.supportWndScale = true then
    [TCP_OPT_WND_SCALE, 1, s.rwndScale] else []) = buf
  have hlen : (UInt32.ofNat buf.length).toNat = buf.length ∧ UInt32.ofNat buf.length ≠ 0 := by
    rw [← hbuf, List.length_cons]
    split
    · exact ⟨rfl, show UInt32.ofNat 4 ≠ 0 by decide⟩
    · exact ⟨rfl, show UInt32.ofNat 1 ≠ 0 by decide⟩
  obtain ⟨taken, n, l, hn, hfit, hempty, hl, hqueue⟩ := sendState_queue
    { s with state := state, sndWnd := UInt32.ofNat buf.length } buf (UInt32.ofNat buf.length) true
    hspace hlen.1.le
  refine .single ?_
  rw [hqueue]
  exact .connect s.sendState state taken n l hlisten hstate hn hfit (hempty hlen.2) hl

theorem steps_processControl (hcap : s.sbuf.bufferLength < 2 ^ 32) (hopen : s.state ≠ .closed)
    {seg : Segment} {bConnect : Bool} (hc : s.processControl env seg = some (bConnect, s')) :
    Steps clock resizable s s' ∧ s'.state ≠ .closed := by
  obtain ⟨-, -, rfl⟩ | ⟨-, -, options, -, hcase⟩ := processControl_cases env hc
  · exact ⟨.of_eq rfl, hopen⟩
  have hcore := sendState_parseOptions env s options
  generalize s.parseOptions env options = t at hcase hcore
  have hstate : t.state = s.state := congrArg SendState.state hcore
  have hcap' : t.sbuf.bufferLength < 2 ^ 32 :=
    (congrArg (fun x => x.sbuf.bufferLength) hcore).symm ▸ hcap
  obtain ⟨hlisten, rfl⟩ | ⟨hsyn, rfl⟩ | ⟨-, -, rfl⟩ := hcase
  · refine ⟨Steps.trans (.of_eq hcore)
      (steps_queueConnectMessage hcap' (hstate.trans hlisten) (.inr rfl)), ?_⟩
    intro hclosed
    cases hclosed
  · refine ⟨Steps.trans (.of_eq hcore) (.single ?_), ?_⟩
    · exact .establish t.sendState (.inl (hstate.trans hsyn))
    · intro hclosed
      cases hclosed
  · exact ⟨.of_eq hcore, hstate ▸ hopen⟩

theorem steps_enterEstablished (s : PseudoTcp) (bConnect : Bool) :
    Steps clock resizable s (s.enterEstablished bConnect) := by
  rw [enterEstablished]
  split
  · next hsyn => exact .single (.establish s.sendState (.inr hsyn.1))
  · exact .of_eq rfl

theorem sendState_notifyWriteable (s : PseudoTcp) : s.notifyWriteable.sendState = s.sendState := by
  simp only [notifyWriteable]
  split <;> rfl

theorem sendState_notifyReadable (s : PseudoTcp) (bNewData : Bool) :
    (s.notifyReadable bNewData).sendState = s.sendState := by
  rw [notifyReadable]
  split <;> rfl

theorem sendState_receiveData (s : PseudoTcp) (seg : Segment) (sflags : SendFlags) :
    (s.receiveData seg sflags).2.2.sendState = s.sendState := by
  obtain ⟨rbuf, rcvNxt, rcvWnd, rlist, h⟩ := receiveData_eq s seg sflags
  rw [h]
  rfl

theorem steps_processData (hclock : ∀ i, clock (env.clock i)) (s : PseudoTcp) (seg : Segment) :
    Steps clock resizable s (s.processData env seg) := by
  refine Steps.trans (.of_eq (sendState_receiveData s (s.trim seg) (s.ackFlags seg))) ?_
  exact (steps_attemptSend env hclock _ _).trans (.of_eq (sendState_notifyReadable _ _))

theorem steps_process (hclock : ∀ i, clock (env.clock i)) (hcap : s.sbuf.bufferLength < 2 ^ 32)
    (seg : Segment) : Steps clock resizable s (s.process env seg).2 := by
  obtain (hr | hr | hr) | ⟨hheeds, bConnect, s₁, s₂, hc, hs₂, hr⟩ := process_cases env s seg
  · rw [hr]
    exact .of_eq rfl
  · rw [hr]
    exact .of_eq rfl
  · rw [hr]
    exact .single (.close s.sendState s.dupAcks)
  have hcontrol : Steps clock resizable (s.arrive env) s₁ ∧ s₁.state ≠ .closed :=
    steps_processControl env (s := s.arrive env) hcap hheeds.2.1 hc
  have hts : Steps clock resizable s (s₁.updateTimestamp seg) ∧
      (s₁.updateTimestamp seg).state ≠ .closed := by
    have hfirst : Steps clock resizable s s₁ := Steps.trans (.of_eq rfl) hcontrol.1
    rw [updateTimestamp]
    split
    · exact ⟨hfirst.trans (.of_eq rfl), hcontrol.2⟩
    · exact ⟨hfirst, hcontrol.2⟩
  have hack : Steps clock resizable s s₂ := by
    rw [← hs₂]
    exact hts.1.trans (steps_processAck env (hclock _) hts.2 seg)
  rcases hr with hr | hr
  · rw [hr]
    exact hack
  · rw [hr]
    refine (hack.trans (steps_enterEstablished s₂ bConnect)).trans ?_
    refine Steps.trans (.of_eq (sendState_notifyWriteable _)) ?_
    exact steps_processData env hclock _ seg

/-! ### The interface -/

/-- The clock reading of a call is in `clock`, and it resizes the send buffer in a state of
`resizable` only. -/
def Call.Fits (clock : UInt32 → Prop) (resizable : SendState → Prop) (s : PseudoTcp) :
    Call → Prop
  | .notifyClock now => clock now
  | .setOption .sndbuf _ => resizable s.sendState
  | _ => True

theorem sendSteps_call (hclock : ∀ i, clock (env.clock i)) (hcap : s.sbuf.bufferLength < 2 ^ 32)
    {c : Call} (hfits : c.Fits clock resizable s) (h : s.call env c = some s') :
    Steps clock resizable s s' := by
  cases c with
  | connect =>
    cases h
    rw [connect]
    split
    · exact .of_eq rfl
    next hlisten =>
    refine Steps.trans (steps_queueConnectMessage hcap (not_ne_iff.mp hlisten) (.inl rfl)) ?_
    exact steps_attemptSend env hclock _ _
  | notifyMTU mtu =>
    cases h
    simp only [notifyMTU]
    split <;> exact .of_eq rfl
  | notifyClock now =>
    cases h
    exact steps_notifyClock env hfits
  | notifyPacket buffer =>
    obtain ⟨⟨ok, t⟩, ht, rfl⟩ := Option.map_eq_some_iff.mp h
    obtain rfl | ⟨seg, -, rfl⟩ := notifyPacket_cases env ht
    · exact .of_eq rfl
    · exact steps_process env hclock hcap seg
  | setOption opt value =>
    cases h
    cases opt with
    | nodelay => exact .of_eq rfl
    | ackdelay => exact .of_eq rfl
    | rcvbuf => exact .of_eq rfl
    | sndbuf =>
      refine .single ?_
      exact .resize s.sendState (env.heap s.allocs) value.toUInt32.toNat (UInt32.toNat_lt _) hfits
  | recv len =>
    cases h
    simp only [recv]
    split
    · exact .of_eq rfl
    split
    · exact .of_eq rfl
    simp only [openWindow]
    split
    · split
      · refine Steps.trans ?_ (steps_attemptSend env hclock _ _)
        exact .of_eq rfl
      · exact .of_eq rfl
    · exact .of_eq rfl
  | send buffer =>
    cases h
    rw [send]
    split
    · exact .of_eq rfl
    next hstate =>
    split
    · exact .of_eq rfl
    next hroom =>
    refine Steps.trans ?_ (steps_attemptSend env hclock _ _)
    obtain ⟨taken, n, l, hn, hfit, -, hl, hqueue⟩ := sendState_queue s buffer
      (UInt32.ofNat buffer.length) false ((Nat.sub_le _ _).trans_lt hcap)
      (by rw [UInt32.toNat_ofNat']; exact Nat.mod_le _ _)
    refine .single ?_
    rw [hqueue]
    exact .send s.sendState taken n l (not_ne_iff.mp hstate) hroom hn hfit hl
  | close force =>
    cases h
    exact .of_eq rfl

/-- What elementary steps keep holds after every run. -/
theorem sendState_induction {P : SendState → Prop} (hclock : ∀ i, clock (env.clock i))
    (hcap : ∀ x, P x → x.sbuf.bufferLength < 2 ^ 32)
    (hstep : ∀ x y, P x → SendStep clock resizable x y → P y) {conv : UInt32}
    (hnew : P (new env conv).sendState) {calls : List Call}
    (hok : Runs.Admissible (call env) (fun s c => c.Fits clock resizable s) (new env conv) calls)
    (hrun : Runs.run (call env) (new env conv) calls = some s) : P s.sendState := by
  refine Runs.invariant (P := fun s => P s.sendState) ?_ hnew hok hrun
  intro s c s' hs hfits hcall
  exact (sendSteps_call env hclock (hcap _ hs) hfits hcall).invariant hstep hs

end PseudoTcp

end Synciga
