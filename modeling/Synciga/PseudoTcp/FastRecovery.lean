import Synciga.PseudoTcp.SendCounts

/-!
# Fast recovery

The third duplicate acknowledgment starts a recovery: `m_recover` notes how far the connection has sent, and
until an acknowledgment reaches it, duplicates only open the window. The recovery is recognised by `m_dup_acks`,
which counts on in eight bits and is taken back by that acknowledgment only, but wraps at the 256th duplicate.

## Main results

* `recovery_of_run` — a recovery lasts until it is reached, while the counter is not full
-/

namespace Synciga

/-! ### What is in flight -/

theorem Queued.ne_nil {len : UInt32} {bCtrl : Bool} {l l' : List SSegment}
    (h : Queued len bCtrl l l') : l' ≠ [] := by
  cases h with
  | push _ _ _ => simp
  | extend _ _ _ _ => simp

namespace SendState

variable {x y : SendState} {clock : UInt32 → Prop} {resizable : SendState → Prop}

/-- The number of bytes in flight. -/
def inFlight (x : SendState) : ℕ := (x.sndNxt - x.sndUna).toNat

theorem inFlight_pos_iff : 0 < x.inFlight ↔ x.sndUna ≠ x.sndNxt := by
  rw [Nat.pos_iff_ne_zero, not_iff_not, inFlight]
  constructor
  · intro hz
    have hsub : x.sndNxt - x.sndUna = 0 := UInt32.toNat_inj.mp hz
    grind
  · intro heq
    rw [heq, UInt32.sub_self]
    rfl

theorem sentLens_le_marked {g : SSegment} {n : UInt32} (hcount : g.xmit + 1 ≠ 0) (hle : n ≤ g.len)
    (l₁ l₂ : List SSegment) : sentLens (l₁ ++ g :: l₂) ≤
      sentLens (l₁ ++ (PseudoTcp.sentPart g n :: PseudoTcp.restPart g n) ++ l₂) := by
  have hmore : sentLens (l₁ ++ (PseudoTcp.sentPart g n :: PseudoTcp.restPart g n) ++ l₂) =
      sentLens (l₁ ++ g :: l₂) + if g.xmit = 0 then n.toNat else 0 :=
    sentLens_transmit (a := PseudoTcp.sentPart g n) hcount
      (fun b hb => (PseudoTcp.xmit_of_mem_restPart hb).1) (PseudoTcp.lens_restPart hle)
  rw [hmore]
  exact Nat.le_add_right _ _

theorem sndUna_le_of_step (hstep : SendStep clock resizable x y) : x.sndUna ≤ y.sndUna := by
  cases hstep with
  | accept ack now largest hopen hlt hle hnow => exact UInt32.le_of_lt hlt
  | _ => exact UInt32.le_refl _

theorem Counted.inFlight_le (h : x.Counted) (hstep : SendStep clock resizable x y)
    (huna : y.sndUna = x.sndUna) : x.inFlight ≤ y.inFlight := by
  have hy := (h.step hstep).sent
  rw [inFlight, inFlight, h.sent, hy]
  cases hstep with
  | transmit l₁ g l₂ n now hl hsent hfresh havailable hle hne hnow =>
    have hcount : g.xmit + 1 ≠ 0 := by
      rw [hfresh]
      decide
    rw [hl]
    exact sentLens_le_marked hcount hle l₁ l₂
  | retransmit g l n now hl hcount hwhy hle hnow =>
    rw [hl]
    exact sentLens_le_marked hcount hle [] l
  | cut l₁ g l₂ n hl hfresh hne hlt =>
    have hord : SentFirst (l₁ ++ g :: l₂) := hl ▸ h.order
    have hsame := (hord.replace_fresh hfresh
      [{ g with len := n }, SSegment.new (g.seq + n) (g.len - n) g.bCtrl] fun b hb => by
        rcases List.mem_cons.mp hb with rfl | hb
        · exact hfresh
        · rw [List.mem_singleton.mp hb]
          rfl).2
    rw [hl, hsame]
  | send data len l hstate hroom hlen hfit hl => exact (hl.sent h.order).1.ge
  | connect state data len l hlisten hstate hlen hfit hempty hl => exact (hl.sent h.order).1.ge
  | accept ack now largest hopen hlt hle hnow =>
    change ack = x.sndUna at huna
    rw [huna] at hlt
    exact absurd hlt (UInt32.lt_irrefl _)
  | _ => exact le_rfl

/-- The counts, and what they say of the timer and of a recovery, whatever the clock reads. -/
structure Tracked (x : SendState) : Prop extends x.Counted where
  /-- The timer runs only while there are segments. -/
  pending : x.rtoBase ≠ 0 → x.slist ≠ []
  /-- During a recovery `m_recover` is a position that `m_snd_nxt` has passed. -/
  recover : x.state ≠ .closed → 3 ≤ x.dupAcks →
    ∃ r, r ≤ x.sndUna.toNat + x.inFlight ∧ UInt32.ofNat r = x.recover

theorem Tracked.step (h : x.Tracked) (hstep : SendStep clock resizable x y) : y.Tracked := by
  have hcounted := h.toCounted.step hstep
  have hmore := h.toCounted.inFlight_le hstep
  -- A step that keeps the numbers of the recovery keeps the position.
  have hkeep (huna : y.sndUna = x.sndUna) (hrecover : y.recover = x.recover)
      (hopen : x.state ≠ .closed) (hdup : 3 ≤ x.dupAcks) :
      ∃ r, r ≤ y.sndUna.toNat + y.inFlight ∧ UInt32.ofNat r = y.recover := by
    obtain ⟨r, hr, heq⟩ := h.recover hopen hdup
    refine ⟨r, ?_, heq.trans hrecover.symm⟩
    have := hmore huna
    rw [huna]
    omega
  cases hstep with
  | transmit l₁ g l₂ n now hl hsent hfresh havailable hle hne hnow =>
    exact ⟨hcounted, fun _ => by simp, hkeep rfl rfl⟩
  | retransmit g l n now hl hcount hwhy hle hnow =>
    exact ⟨hcounted, fun _ => by simp, hkeep rfl rfl⟩
  | cut l₁ g l₂ n hl hfresh hne hlt => exact ⟨hcounted, fun _ => by simp, hkeep rfl rfl⟩
  | send data len l hstate hroom hlen hfit hl =>
    exact ⟨hcounted, fun _ => hl.ne_nil, hkeep rfl rfl⟩
  | connect state data len l hlisten hstate hlen hfit hempty hl =>
    refine ⟨hcounted, fun _ => hl.ne_nil, fun _ => hkeep rfl rfl ?_⟩
    rw [hlisten]
    decide
  | establish hstate =>
    refine ⟨hcounted, h.pending, fun _ => hkeep rfl rfl ?_⟩
    rcases hstate with hs | hs <;> rw [hs] <;> decide
  | accept ack now largest hopen hlt hle hnow =>
    refine ⟨hcounted, fun hrun => ?_, fun _ hdup => ?_⟩
    · -- The timer is started anew if bytes are left in flight, and then so is their segment.
      intro hnil
      have hne : ack ≠ x.sndNxt := by
        rintro rfl
        exact hrun (if_pos rfl)
      refine hcounted.inFlight_iff.mp hne ?_
      rw [hnil, sentLens_nil]
    obtain ⟨r, hr, heq⟩ := h.recover hopen hdup
    obtain ⟨-, hflight, hsum⟩ := h.acked_le hlt hle
    refine ⟨r, ?_, heq⟩
    change r ≤ ack.toNat + (x.sndNxt - ack).toNat
    rw [inFlight] at hr
    omega
  | forget =>
    refine ⟨hcounted, h.pending, fun _ hdup => ?_⟩
    change (3 : UInt8) ≤ 0 at hdup
    exact absurd hdup (by decide)
  | duplicate hthird =>
    refine ⟨hcounted, h.pending, fun hopen hdup => hkeep rfl rfl hopen ?_⟩
    grind
  | third hthird =>
    refine ⟨hcounted, h.pending, fun _ _ => ⟨_, le_rfl, ?_⟩⟩
    change UInt32.ofNat (x.sndUna.toNat + (x.sndNxt - x.sndUna).toNat) = x.sndNxt
    rw [UInt32.ofNat_add, UInt32.ofNat_toNat, UInt32.ofNat_toNat]
    grind
  | restart now hrun hnow => exact ⟨hcounted, fun _ => h.pending hrun, h.recover⟩
  | close dupAcks => exact ⟨hcounted, h.pending, fun hopen => absurd rfl hopen⟩
  | resize fresh size hsize hok => exact ⟨hcounted, h.pending, h.recover⟩

theorem Tracked.recover_le (h : x.Tracked) (hopen : x.state ≠ .closed) (hdup : 3 ≤ x.dupAcks)
    (hflight : x.sndUna = x.sndNxt) : x.recover ≤ x.sndUna := by
  obtain ⟨r, hr, heq⟩ := h.recover hopen hdup
  rw [inFlight, hflight, UInt32.sub_self] at hr
  have hzero : (0 : UInt32).toNat = 0 := rfl
  have hlt := UInt32.toNat_lt x.sndNxt
  rw [UInt32.le_iff_toNat_le, ← heq, UInt32.toNat_ofNat', Nat.mod_eq_of_lt (by omega), hflight]
  omega

end SendState

namespace PseudoTcp

variable (env : Env) {s s' t : PseudoTcp} {clock : UInt32 → Prop} {resizable : SendState → Prop}

theorem tracked_new (conv : UInt32) : (new env conv).sendState.Tracked := by
  refine ⟨counted_new env conv, fun h => absurd rfl h, fun _ hdup => ?_⟩
  change (3 : UInt8) ≤ 0 at hdup
  exact absurd hdup (by decide)

theorem tracked_of_steps (h : s.sendState.Tracked) (hsteps : Steps clock resizable s s') :
    s'.sendState.Tracked :=
  hsteps.invariant (fun _ _ hx => hx.step) h

variable {c : Call}

theorem steps_call (hcap : s.sbuf.bufferLength < 2 ^ 32) (h : s.call env c = some s') :
    Steps (fun _ => True) (fun _ => True) s s' := by
  refine sendSteps_call env (fun _ => trivial) hcap ?_ h
  cases c with
  | setOption opt value => cases opt <;> trivial
  | _ => trivial

theorem Steps.closed (h : Steps clock resizable s s') (hclosed : s.state = .closed) :
    s'.state = .closed := by
  refine h.invariant (P := fun x => x.state = .closed) ?_ hclosed
  intro x y hx hstep
  cases hstep with
  | connect state data len l hlisten hstate hlen hfit hempty hl => cases hx.symm.trans hlisten
  | establish hstate =>
    rcases hstate with hs | hs
    · cases hx.symm.trans hs
    · cases hx.symm.trans hs
  | close dupAcks => rfl
  | _ => exact hx

theorem Steps.sndUna_le (h : Steps clock resizable s s') : s.sndUna ≤ s'.sndUna := by
  refine h.invariant (P := fun x => s.sndUna ≤ x.sndUna) ?_ (UInt32.le_refl _)
  intro x y hx hstep
  exact UInt32.le_trans hx (SendState.sndUna_le_of_step hstep)

theorem Steps.inFlight_le (h : Steps clock resizable s s') (hcounted : s.sendState.Counted)
    (huna : s'.sndUna = s.sndUna) : s.sendState.inFlight ≤ s'.sendState.inFlight := by
  have hinv : s'.sendState.Counted ∧ s.sndUna ≤ s'.sendState.sndUna ∧
      (s'.sendState.sndUna = s.sndUna → s.sendState.inFlight ≤ s'.sendState.inFlight) := by
    refine h.invariant (P := fun x => x.Counted ∧ s.sndUna ≤ x.sndUna ∧
      (x.sndUna = s.sndUna → s.sendState.inFlight ≤ x.inFlight)) ?_
      ⟨hcounted, UInt32.le_refl _, fun _ => le_rfl⟩
    rintro x y ⟨hx, hbelow, hflight⟩ hstep
    have hup := SendState.sndUna_le_of_step hstep
    refine ⟨hx.step hstep, UInt32.le_trans hbelow hup, fun hy => ?_⟩
    -- `m_snd_una` has not moved in this step either.
    have hsame : x.sndUna = s.sndUna := by
      rw [hy] at hup
      exact UInt32.le_antisymm hup hbelow
    exact (hflight hsame).trans (hx.inFlight_le hstep (hy.trans hsame.symm))
  exact hinv.2.2 huna

/-! ### What changes the numbers of a recovery -/

/-- The numbers of a recovery are the same. -/
structure SameRecovery (s s' : PseudoTcp) : Prop where
  sndUna : s'.sndUna = s.sndUna
  dupAcks : s'.dupAcks = s.dupAcks
  recover : s'.recover = s.recover

theorem SameRecovery.refl (s : PseudoTcp) : SameRecovery s s := ⟨rfl, rfl, rfl⟩

theorem SameRecovery.trans (h : SameRecovery s s') (h' : SameRecovery s' t) : SameRecovery s t :=
  ⟨h'.sndUna.trans h.sndUna, h'.dupAcks.trans h.dupAcks, h'.recover.trans h.recover⟩

theorem SameRecovery.of_sendState (h : s'.sendState = s.sendState) : SameRecovery s s' :=
  ⟨congrArg SendState.sndUna h, congrArg SendState.dupAcks h, congrArg SendState.recover h⟩

theorem SameRecovery.of_sending (h : Sending s s') : SameRecovery s s' :=
  ⟨h.sndUna, congrArg Steady.dupAcks h.steady, congrArg Steady.recover h.steady⟩

variable {seg : Segment}

theorem sameRecovery_processControl {bConnect : Bool}
    (hc : s.processControl env seg = some (bConnect, s')) :
    SameRecovery s s' ∧ s'.sndNxt = s.sndNxt := by
  obtain ⟨-, -, rfl⟩ | ⟨-, -, options, -, hcase⟩ := processControl_cases env hc
  · exact ⟨.refl _, rfl⟩
  have hcore := sendState_parseOptions env s options
  have hsame : SameRecovery s (s.parseOptions env options) := .of_sendState hcore
  have hnxt : (s.parseOptions env options).sndNxt = s.sndNxt := congrArg SendState.sndNxt hcore
  obtain ⟨-, rfl⟩ | ⟨-, rfl⟩ | ⟨-, -, rfl⟩ := hcase
  · exact ⟨⟨hsame.sndUna, hsame.dupAcks, hsame.recover⟩, hnxt⟩
  · exact ⟨⟨hsame.sndUna, hsame.dupAcks, hsame.recover⟩, hnxt⟩
  · exact ⟨hsame, hnxt⟩

theorem sameRecovery_recv (s : PseudoTcp) (len : ℕ) : SameRecovery s (s.recv env len).2 := by
  rw [recv]
  split
  · exact ⟨rfl, rfl, rfl⟩
  split
  · exact ⟨rfl, rfl, rfl⟩
  simp only [openWindow]
  split
  · split
    · refine SameRecovery.trans ?_ (.of_sending (sending_attemptSend env _ _))
      exact ⟨rfl, rfl, rfl⟩
    · exact ⟨rfl, rfl, rfl⟩
  · exact ⟨rfl, rfl, rfl⟩

theorem sameRecovery_call (h : s.call env c = some s')
    (hpacket : ∀ buffer, c ≠ .notifyPacket buffer) : SameRecovery s s' := by
  cases c with
  | connect =>
    cases h
    rw [connect]
    split
    · exact ⟨rfl, rfl, rfl⟩
    · have hqueue : SameRecovery s { s with state := .synSent }.queueConnectMessage := ⟨rfl, rfl, rfl⟩
      exact hqueue.trans (.of_sending (sending_attemptSend env _ _))
  | notifyMTU mtu =>
    cases h
    simp only [notifyMTU]
    split <;> exact ⟨rfl, rfl, rfl⟩
  | notifyClock now =>
    cases h
    have hticks := ticks_notifyClock env s now
    exact ⟨hticks.sndUna, hticks.dupAcks, hticks.recover⟩
  | notifyPacket buffer => exact absurd rfl (hpacket buffer)
  | setOption opt value =>
    cases h
    cases opt <;> exact ⟨rfl, rfl, rfl⟩
  | recv len =>
    cases h
    exact sameRecovery_recv env s len
  | send buffer =>
    cases h
    rw [send]
    split
    · exact ⟨rfl, rfl, rfl⟩
    split
    · exact ⟨rfl, rfl, rfl⟩
    · have hqueue : SameRecovery s (s.queue buffer (UInt32.ofNat buffer.length) false).2 :=
        ⟨rfl, rfl, rfl⟩
      exact hqueue.trans (.of_sending (sending_attemptSend env _ _))
  | close force =>
    cases h
    exact ⟨rfl, rfl, rfl⟩

/-- A segment that acknowledges `m_snd_una` once more, with nothing else, while bytes are in
flight. -/
def Duplicates (s : PseudoTcp) (seg : Segment) : Prop :=
  seg.ack = s.sndUna ∧ seg.len = 0 ∧ s.sndUna ≠ s.sndNxt

/-- What the acknowledgment part does to the numbers of a recovery. -/
inductive AckStep (s : PseudoTcp) (seg : Segment) (s' : PseudoTcp) : Prop
  /-- A valuable acknowledgment that ends the recovery, or comes outside of one. -/
  | valuable (hack : s.valuableAck seg.ack) (hends : 3 ≤ s.dupAcks → s.recover ≤ seg.ack)
      (hdup : s'.dupAcks = 0)
  /-- A valuable acknowledgment during a recovery. -/
  | partly (hack : s.valuableAck seg.ack) (hdup : 3 ≤ s.dupAcks) (hends : seg.ack < s.recover)
      (huna : s'.sndUna = seg.ack) (hsame : s'.dupAcks = s.dupAcks) (hrecover : s'.recover = s.recover)
  /-- A duplicate acknowledgment that is not the third one. -/
  | duplicate (hdup : s.Duplicates seg) (hthird : s.dupAcks + 1 ≠ 3) (huna : s'.sndUna = s.sndUna)
      (hcount : s'.dupAcks = s.dupAcks + 1) (hrecover : s'.recover = s.recover)
  /-- The third one. -/
  | third (hdup : s.Duplicates seg) (hthird : s.dupAcks + 1 = 3) (huna : s'.sndUna = s.sndUna)
      (hrecover : s'.state = .closed ∨ s'.recover = s'.sndNxt)
  /-- An acknowledgment while nothing is in flight. -/
  | idle (hidle : s.sndUna = s.sndNxt) (hdup : s'.dupAcks = 0)
  /-- Any other. -/
  | other (hsame : SameRecovery s s')

theorem ackStep_afterAck {now nAcked : UInt32} (hack : s.valuableAck seg.ack)
    {a : PseudoTcp} (huna : a.sndUna = seg.ack) (hcount : a.dupAcks = s.dupAcks)
    (hrecover : a.recover = s.recover) : s.AckStep seg (a.afterAck env now nAcked).2 := by
  rw [afterAck, hcount, hrecover, huna]
  split
  · next hdup =>
    split
    · next hends => exact .valuable hack (fun _ => hends) rfl
    next hends =>
    have hsend := SameRecovery.of_sending (sending_transmit env a 0 now)
    have hlt := UInt32.not_le.mp hends
    split
    · next hr =>
      rw [hr] at hsend
      exact .partly hack hdup hlt (hsend.sndUna.trans huna) (hsend.dupAcks.trans hcount)
        (hsend.recover.trans hrecover)
    · next hr =>
      rw [hr] at hsend
      exact .partly hack hdup hlt (hsend.sndUna.trans huna) (hsend.dupAcks.trans hcount)
        (hsend.recover.trans hrecover)
  · next hdup =>
    simp only
    split <;> exact .valuable hack (fun h => absurd h hdup) rfl

theorem ackStep_duplicateAck (s : PseudoTcp) (now : UInt32)
    (hack : seg.ack = s.sndUna) : s.AckStep seg (s.duplicateAck env now seg).2 := by
  simp only [duplicateAck]
  split
  · exact .other ⟨rfl, rfl, rfl⟩
  next hlen =>
  split
  · next hflight =>
    have hzero : seg.len = 0 := UInt32.le_zero_iff.mp (UInt32.not_lt.mp hlen)
    have hdup : s.Duplicates seg := ⟨hack, hzero, hflight⟩
    split
    · next hthird =>
      have hsend := SameRecovery.of_sending (sending_transmit env { s with
        sndWnd := seg.wnd.toUInt32 <<< s.swndScale.toUInt32
        dupAcks := s.dupAcks + 1 } 0 now)
      split
      · next hr =>
        rw [hr] at hsend
        exact .third hdup hthird hsend.sndUna (.inl rfl)
      · next hr =>
        rw [hr] at hsend
        exact .third hdup hthird hsend.sndUna (.inr rfl)
    · next hthird =>
      split <;> exact .duplicate hdup hthird rfl rfl rfl
  · next hflight => exact .idle (not_ne_iff.mp hflight) rfl

theorem ackStep_processAck (s : PseudoTcp) (now : UInt32) (seg : Segment) :
    s.AckStep seg (s.processAck env now seg).2 := by
  rw [processAck]
  split
  · next hack =>
    refine ackStep_afterAck env hack rfl ?_ ?_
    · exact congrArg SendState.dupAcks (sendState_updateRtt s now seg.tsecr)
    · exact congrArg SendState.recover (sendState_updateRtt s now seg.tsecr)
  split
  · next hack => exact ackStep_duplicateAck env s now hack
  · exact .other (.refl s)

/-! ### The position is ahead -/

/-- During a recovery, `m_recover` is ahead of `m_snd_una`, among the bytes in flight. -/
def Ahead (s : PseudoTcp) : Prop :=
  s.state ≠ .closed → 3 ≤ s.dupAcks →
    ∃ r, s.sndUna.toNat < r ∧ r ≤ s.sndUna.toNat + s.sendState.inFlight ∧ UInt32.ofNat r = s.recover

theorem Ahead.of_steps (h : s.Ahead) (hcounted : s.sendState.Counted)
    (hsteps : Steps clock resizable s s') (hsame : SameRecovery s s') : s'.Ahead := by
  intro hopen hdup
  have hopen' : s.state ≠ .closed := fun hclosed => hopen (hsteps.closed hclosed)
  obtain ⟨r, hlt, hle, heq⟩ := h hopen' (hsame.dupAcks ▸ hdup)
  have hmore := hsteps.inFlight_le hcounted hsame.sndUna
  refine ⟨r, ?_, ?_, heq.trans hsame.recover.symm⟩
  · rw [hsame.sndUna]
    exact hlt
  · rw [hsame.sndUna]
    omega

theorem Ahead.of_ackStep (h : s.Ahead) (hcounted : s.sendState.Counted)
    (hopen : s.state ≠ .closed) (hsteps : Steps clock resizable s s')
    (hafter : s'.sendState.Tracked) (hack : s.AckStep seg s') : s'.Ahead := by
  have hzero : ¬ (3 : UInt8) ≤ 0 := by decide
  cases hack with
  | valuable _ _ hdup =>
    intro _ hthree
    rw [hdup] at hthree
    exact absurd hthree hzero
  | partly hack hdup hends huna hsame hrecover =>
    intro hopen' hdup'
    obtain ⟨r, hr, heq⟩ := hafter.recover hopen' hdup'
    refine ⟨r, ?_, hr, heq⟩
    -- The position is at least `m_recover` as a number, and that is beyond the acknowledgment.
    have hmod : s.recover.toNat ≤ r := by
      have hval : s'.recover.toNat = r % 2 ^ 32 := by
        rw [show s'.recover = UInt32.ofNat r from heq.symm, UInt32.toNat_ofNat']
      rw [← hrecover, hval]
      exact Nat.mod_le _ _
    rw [huna]
    exact (UInt32.lt_iff_toNat_lt.mp hends).trans_le hmod
  | duplicate hdup hthird huna hcount hrecover =>
    intro _ hthree
    obtain ⟨r, hlt, hle, heq⟩ := h hopen (by grind)
    have hmore := hsteps.inFlight_le hcounted huna
    refine ⟨r, ?_, ?_, heq.trans hrecover.symm⟩
    · rw [huna]
      exact hlt
    · rw [huna]
      omega
  | third hdup hthird huna hrecover =>
    intro hopen' _
    have hmore := hsteps.inFlight_le hcounted huna
    have hpos : 0 < s.sendState.inFlight := SendState.inFlight_pos_iff.mpr hdup.2.2
    refine ⟨s'.sndUna.toNat + s'.sendState.inFlight, ?_, le_rfl, ?_⟩
    · omega
    · rw [hrecover.resolve_left hopen', SendState.inFlight, UInt32.ofNat_add, UInt32.ofNat_toNat,
        UInt32.ofNat_toNat]
      change s'.sndUna + (s'.sndNxt - s'.sndUna) = s'.sndNxt
      grind
  | idle _ hdup =>
    intro _ hthree
    rw [hdup] at hthree
    exact absurd hthree hzero
  | other hsame => exact h.of_steps hcounted hsteps hsame

theorem sameRecovery_processData (s : PseudoTcp) (seg : Segment) :
    SameRecovery s (s.processData env seg) := by
  simp only [processData]
  have hdata : SameRecovery s (s.receiveData (s.trim seg) (s.ackFlags seg)).2.2 :=
    .of_sendState (sendState_receiveData s (s.trim seg) (s.ackFlags seg))
  generalize s.receiveData (s.trim seg) (s.ackFlags seg) = r at hdata ⊢
  have hsend : SameRecovery r.2.2 (r.2.2.attemptSend env r.1) :=
    .of_sending (sending_attemptSend env r.2.2 r.1)
  exact (hdata.trans hsend).trans (.of_sendState (sendState_notifyReadable _ _))

/-- What `process` does to the numbers: they are the same, or the acknowledgment part comes to a state
with the same numbers, and nothing changes them behind it. -/
theorem ackStep_process (hcap : s.sbuf.bufferLength < 2 ^ 32) (seg : Segment) :
    SameRecovery s (s.process env seg).2 ∨ s.Heeds seg ∧ ∃ a s₂,
      (SameRecovery s a ∧ a.sndNxt = s.sndNxt ∧ a.state ≠ .closed) ∧ a.AckStep seg s₂ ∧
      SameRecovery s₂ (s.process env seg).2 ∧ Steps (fun _ => True) (fun _ => True) s a ∧
      Steps (fun _ => True) (fun _ => True) a s₂ ∧
      Steps (fun _ => True) (fun _ => True) s₂ (s.process env seg).2 := by
  obtain (hr | hr | hr) | ⟨hheeds, bConnect, s₁, s₂, hc, hs₂, hr⟩ := process_cases env s seg
  · rw [hr]
    exact .inl (.refl s)
  · rw [hr]
    exact .inl ⟨rfl, rfl, rfl⟩
  · rw [hr]
    exact .inl ⟨rfl, rfl, rfl⟩
  obtain ⟨hsame, hnxt⟩ := sameRecovery_processControl env hc
  obtain ⟨hcontrol, hopen⟩ : Steps (fun _ => True) (fun _ => True) (s.arrive env) s₁ ∧
      s₁.state ≠ .closed := steps_processControl env hcap hheeds.2.1 hc
  have hcore : (s₁.updateTimestamp seg).sendState = s₁.sendState := by
    rw [updateTimestamp]
    split <;> rfl
  have hts : SameRecovery s₁ (s₁.updateTimestamp seg) := .of_sendState hcore
  have hopen' : (s₁.updateTimestamp seg).state ≠ .closed := by
    rw [show (s₁.updateTimestamp seg).state = s₁.state from congrArg SendState.state hcore]
    exact hopen
  have hbefore : SameRecovery s (s₁.updateTimestamp seg) :=
    ⟨hts.sndUna.trans hsame.sndUna, hts.dupAcks.trans hsame.dupAcks,
      hts.recover.trans hsame.recover⟩
  refine .inr ⟨hheeds, s₁.updateTimestamp seg, s₂,
    ⟨hbefore, (congrArg SendState.sndNxt hcore).trans hnxt, hopen'⟩, ?_, ?_, ?_, ?_, ?_⟩
  · rw [← hs₂]
    exact ackStep_processAck env _ _ seg
  · rcases hr with hr | hr
    · rw [hr]
      exact .refl _
    rw [hr]
    have henter : SameRecovery s₂ (s₂.enterEstablished bConnect) := by
      rw [enterEstablished]
      split <;> exact ⟨rfl, rfl, rfl⟩
    refine (henter.trans (.of_sendState (sendState_notifyWriteable _))).trans ?_
    exact sameRecovery_processData env _ seg
  · exact Steps.trans (.of_eq rfl) (hcontrol.trans (.of_eq hcore))
  · rw [← hs₂]
    exact steps_processAck env trivial hopen' seg
  rcases hr with hr | hr
  · rw [hr]
    exact .of_eq rfl
  · rw [hr]
    refine (steps_enterEstablished s₂ bConnect).trans ?_
    refine Steps.trans (.of_eq (sendState_notifyWriteable _)) ?_
    exact steps_processData env (fun _ => trivial) _ seg

theorem Ahead.call (hahead : s.Ahead) (htracked : s.sendState.Tracked)
    (hcall : s.call env c = some s') : s'.Ahead := by
  have hsteps := steps_call env htracked.cap hcall
  by_cases hpacket : ∃ buffer, c = .notifyPacket buffer
  swap
  · exact hahead.of_steps htracked.toCounted hsteps
      (sameRecovery_call env hcall fun buffer heq => hpacket ⟨buffer, heq⟩)
  obtain ⟨buffer, rfl⟩ := hpacket
  obtain ⟨⟨ok, t⟩, ht, rfl⟩ := Option.map_eq_some_iff.mp hcall
  obtain rfl | ⟨seg, -, rfl⟩ := notifyPacket_cases env ht
  · exact hahead
  obtain hsame | ⟨-, a, s₂, ⟨hsame, -, hopen⟩, hack, hrest, h₁, h₂, h₃⟩ :=
    ackStep_process env htracked.cap seg
  · exact hahead.of_steps htracked.toCounted hsteps hsame
  have ha := tracked_of_steps htracked h₁
  have hs₂ := tracked_of_steps ha h₂
  have haheadₐ := hahead.of_steps htracked.toCounted h₁ hsame
  have hahead₂ := haheadₐ.of_ackStep ha.toCounted hopen h₂ hs₂ hack
  exact hahead₂.of_steps hs₂.toCounted h₃ hrest

theorem tracked_call (h : s.sendState.Tracked) (hcall : s.call env c = some s') : s'.sendState.Tracked :=
  tracked_of_steps h (steps_call env h.cap hcall)

theorem tracked_of_run {conv : UInt32} {calls : List Call}
    (hrun : Runs.run (call env) (new env conv) calls = some s) : s.sendState.Tracked :=
  Runs.invariant_of_step (P := fun s => s.sendState.Tracked)
    (fun _ _ _ h hcall => tracked_call env h hcall) (tracked_new env conv) hrun

theorem ahead_of_run {conv : UInt32} {calls : List Call}
    (hrun : Runs.run (call env) (new env conv) calls = some s) : s.Ahead := by
  have hinv : s.sendState.Tracked ∧ s.Ahead := by
    refine Runs.invariant_of_step (P := fun s => s.sendState.Tracked ∧ s.Ahead) ?_
      ⟨tracked_new env conv, fun _ hdup => ?_⟩ hrun
    · rintro s c s' ⟨htracked, hahead⟩ hcall
      exact ⟨tracked_call env htracked hcall, hahead.call env htracked hcall⟩
    · change (3 : UInt8) ≤ 0 at hdup
      exact absurd hdup (by decide)
  exact hinv.2

/-! ### An episode -/

/-- The call brings the acknowledgment that ends a recovery: `m_snd_una` moves up to `m_recover`. -/
def EndsRecovery (s : PseudoTcp) : Call → Prop
  | .notifyPacket buffer => ∃ seg, Delivers buffer seg ∧ s.Heeds seg ∧ s.valuableAck seg.ack ∧
      s.recover ≤ seg.ack
  | _ => False

/-- The call does not have a duplicate acknowledgment counted when the counter is full. -/
def CountsOn (s : PseudoTcp) : Call → Prop
  | .notifyPacket buffer => ∀ seg, Delivers buffer seg → s.Heeds seg → s.Duplicates seg → s.dupAcks ≠ 255
  | _ => True

theorem succ_ne_three {n : UInt8} (h : 3 ≤ n) : n + 1 ≠ 3 := by
  intro hn
  have htwo : n = 2 := by grind
  rw [htwo] at h
  exact absurd h (by decide)

theorem recovery_call (htracked : s.sendState.Tracked) (hahead : s.Ahead)
    (hopen : s.state ≠ .closed) (hdup : 3 ≤ s.dupAcks) (hcounts : s.CountsOn c)
    (hlast : ¬ s.EndsRecovery c) (hcall : s.call env c = some t) :
    3 ≤ t.dupAcks ∧ t.recover = s.recover := by
  have hsteady (h : SameRecovery s t) : 3 ≤ t.dupAcks ∧ t.recover = s.recover :=
    ⟨h.dupAcks ▸ hdup, h.recover⟩
  by_cases hpacket : ∃ buffer, c = .notifyPacket buffer
  swap
  · exact hsteady (sameRecovery_call env hcall fun buffer heq => hpacket ⟨buffer, heq⟩)
  obtain ⟨buffer, rfl⟩ := hpacket
  obtain ⟨⟨ok, t⟩, ht, rfl⟩ := Option.map_eq_some_iff.mp hcall
  obtain rfl | ⟨seg, hseg, rfl⟩ := notifyPacket_cases env ht
  · exact ⟨hdup, rfl⟩
  obtain hsame | ⟨hheeds, a, s₂, ⟨hsame, hnxt, -⟩, hack, hrest, -⟩ :=
    ackStep_process env htracked.cap seg
  · exact hsteady hsame
  have hvaluable (h : a.valuableAck seg.ack) : s.valuableAck seg.ack := by
    rw [valuableAck, hsame.sndUna, hnxt] at h
    exact h
  rw [hrest.dupAcks, hrest.recover]
  cases hack with
  | valuable hack hends _ =>
    rw [hsame.dupAcks, hsame.recover] at hends
    exact absurd ⟨seg, hseg, hheeds, hvaluable hack, hends hdup⟩ hlast
  | partly _ hdup' _ _ hcount hrecover =>
    exact ⟨hcount ▸ hdup', hrecover.trans hsame.recover⟩
  | duplicate hagain _ _ hcount hrecover =>
    have hfull : s.dupAcks ≠ 255 := by
      refine hcounts seg hseg hheeds ?_
      rw [Duplicates, hsame.sndUna, hnxt] at hagain
      exact hagain
    rw [hcount, hsame.dupAcks]
    refine ⟨?_, hrecover.trans hsame.recover⟩
    rw [UInt8.le_iff_toNat_le] at hdup ⊢
    have hlt := s.dupAcks.toNat_lt
    have hne : s.dupAcks.toNat ≠ 255 := fun heq => hfull (UInt8.toNat_inj.mp heq)
    have hone : (1 : UInt8).toNat = 1 := rfl
    rw [UInt8.toNat_add]
    omega
  | third _ hthird _ _ =>
    rw [hsame.dupAcks] at hthird
    exact absurd hthird (succ_ne_three hdup)
  | idle hidle _ =>
    -- As long as the position is ahead, bytes are in flight.
    obtain ⟨r, hlt, hle, -⟩ := hahead hopen hdup
    rw [hsame.sndUna, hnxt] at hidle
    have hzero : s.sendState.inFlight = 0 := Nat.eq_zero_of_not_pos fun hpos =>
      SendState.inFlight_pos_iff.mp hpos hidle
    omega
  | other hsame' => exact ⟨(hsame.trans hsame').dupAcks ▸ hdup, (hsame.trans hsame').recover⟩

theorem recovery_closed (hcap : s.sbuf.bufferLength < 2 ^ 32) (hclosed : s.state = .closed)
    (hcall : s.call env c = some t) : SameRecovery s t := by
  by_cases hpacket : ∃ buffer, c = .notifyPacket buffer
  · obtain ⟨buffer, rfl⟩ := hpacket
    obtain ⟨⟨ok, t⟩, ht, rfl⟩ := Option.map_eq_some_iff.mp hcall
    obtain rfl | ⟨seg, -, rfl⟩ := notifyPacket_cases env ht
    · exact .refl _
    obtain hsame | ⟨hheeds, -⟩ := ackStep_process env hcap seg
    · exact hsame
    · exact absurd hclosed hheeds.2.1
  · exact sameRecovery_call env hcall fun buffer heq => hpacket ⟨buffer, heq⟩

/-- **Fast recovery.** In every run, once three duplicate acknowledgments are counted, the count stays at three
or more and `m_recover` where it is, until an acknowledgment reaches it, if no duplicate is counted when the
counter is full. -/
theorem recovery_of_run (conv : UInt32) (pre mid : List Call)
    (hpre : Runs.run (call env) (new env conv) pre = some s)
    (hmid : Runs.run (call env) s mid = some t) (hdup : 3 ≤ s.dupAcks)
    (hok : Runs.Admissible (call env) (fun s c => s.CountsOn c ∧ ¬ s.EndsRecovery c) s mid) :
    3 ≤ t.dupAcks ∧ t.dupAcks + 1 ≠ 3 ∧ t.recover = s.recover := by
  have hinv : (t.sendState.Tracked ∧ t.Ahead) ∧ 3 ≤ t.dupAcks ∧ t.recover = s.recover := by
    refine Runs.invariant (P := fun t => (t.sendState.Tracked ∧ t.Ahead) ∧
      3 ≤ t.dupAcks ∧ t.recover = s.recover) ?_
      ⟨⟨tracked_of_run env hpre, ahead_of_run env hpre⟩, hdup, rfl⟩ hok hmid
    rintro u c u' ⟨⟨htracked, hahead⟩, hthree, hrecover⟩ ⟨hcounts, hlast⟩ hcall
    refine ⟨⟨tracked_call env htracked hcall, hahead.call env htracked hcall⟩, ?_⟩
    by_cases hclosed : u.state = .closed
    · have hsame := recovery_closed env htracked.cap hclosed hcall
      exact ⟨hsame.dupAcks ▸ hthree, hsame.recover.trans hrecover⟩
    · obtain ⟨hcount, hsame⟩ := recovery_call env htracked hahead hclosed hthree hcounts hlast hcall
      exact ⟨hcount, hsame.trans hrecover⟩
  exact ⟨hinv.2.1, succ_ne_three hinv.2.1, hinv.2.2⟩

/-! ### Counting duplicates -/

theorem state_processData (s : PseudoTcp) (seg : Segment) :
    (s.processData env seg).state = s.state ∧ (s.processData env seg).conv = s.conv := by
  simp only [processData]
  obtain ⟨rbuf, rcvNxt, rcvWnd, rlist, hr⟩ := receiveData_eq s (s.trim seg) (s.ackFlags seg)
  have hdata : (s.receiveData (s.trim seg) (s.ackFlags seg)).2.2.state = s.state ∧
      (s.receiveData (s.trim seg) (s.ackFlags seg)).2.2.conv = s.conv := by
    rw [hr]
    exact ⟨rfl, rfl⟩
  generalize s.receiveData (s.trim seg) (s.ackFlags seg) = r at hdata ⊢
  have hsend := sending_attemptSend env r.2.2 r.1
  generalize r.2.2.attemptSend env r.1 = u at hsend ⊢
  have hconv : u.conv = r.2.2.conv := congrArg Steady.conv hsend.steady
  have hreadable : (u.notifyReadable r.2.1).state = u.state ∧
      (u.notifyReadable r.2.1).conv = u.conv := by
    rw [notifyReadable]
    split <;> exact ⟨rfl, rfl⟩
  exact ⟨hreadable.1.trans (hsend.state.trans hdata.1),
    hreadable.2.trans (hconv.trans hdata.2)⟩

theorem processAck_duplicate (now : UInt32) (hdup : s.Duplicates seg)
    (hthird : s.dupAcks + 1 ≠ 3) : ∃ b, s.processAck env now seg = (true, b) ∧
      (b.state = s.state ∧ b.conv = s.conv) ∧ b.sndUna = s.sndUna ∧ b.dupAcks = s.dupAcks + 1 := by
  obtain ⟨hack, hlen, hflight⟩ := hdup
  have hvaluable : ¬ s.valuableAck seg.ack := fun h => UInt32.lt_irrefl _ (hack ▸ h.1)
  have hempty : ¬ 0 < seg.len := by
    rw [hlen]
    exact UInt32.lt_irrefl _
  rw [processAck, if_neg hvaluable, if_pos hack]
  simp only [duplicateAck]
  rw [if_neg hempty, if_pos hflight, if_neg hthird]
  split
  · exact ⟨_, rfl, ⟨rfl, rfl⟩, rfl, rfl⟩
  · exact ⟨_, rfl, ⟨rfl, rfl⟩, rfl, rfl⟩

/-- A duplicate acknowledgment that is not the third one is counted, and the connection goes on. -/
theorem process_duplicate (seg : Segment) (hconv : seg.conv = s.conv)
    (hstate : s.state = .established) (hrst : seg.flags &&& FLAG_RST = 0)
    (hctl : seg.flags &&& FLAG_CTL = 0) (hdup : s.Duplicates seg) (hthird : s.dupAcks + 1 ≠ 3) :
    ((s.process env seg).2.state = .established ∧ (s.process env seg).2.conv = s.conv) ∧
      (s.process env seg).2.sndUna = s.sndUna ∧
      (s.process env seg).2.dupAcks = s.dupAcks + 1 := by
  have hcontrol : (s.arrive env).processControl env seg = some (false, s.arrive env) := by
    rw [processControl, if_pos hctl]
  obtain ⟨b, hb, hopen, hsame⟩ : ∃ b, ((s.arrive env).updateTimestamp seg).processAck env
      (s.now env) seg = (true, b) ∧ (b.state = s.state ∧ b.conv = s.conv) ∧
      b.sndUna = s.sndUna ∧ b.dupAcks = s.dupAcks + 1 := by
    rw [updateTimestamp]
    split
    · exact processAck_duplicate env (s := { s.arrive env with tsRecent := seg.tsval }) _ hdup hthird
    · exact processAck_duplicate env (s := s.arrive env) _ hdup hthird
  have hprocess : (s.process env seg).2 = b.notifyWriteable.processData env seg := by
    rw [process, if_neg (not_not_intro hconv)]
    rw [if_neg (by rw [show (s.arrive env).state = s.state from rfl, hstate]; decide),
      if_neg (not_not_intro hrst), hcontrol]
    simp only
    rw [hb]
    simp only
    rw [enterEstablished, if_neg (by rw [hopen.1, hstate]; exact fun h => absurd h.1 (by rintro ⟨⟩))]
  have hwriteable : b.notifyWriteable.state = b.state ∧ b.notifyWriteable.conv = b.conv := by
    simp only [notifyWriteable]
    split <;> exact ⟨rfl, rfl⟩
  have hdata := state_processData env b.notifyWriteable seg
  have hcounted : SameRecovery b (b.notifyWriteable.processData env seg) :=
    (SameRecovery.of_sendState (sendState_notifyWriteable b)).trans
      (sameRecovery_processData env _ seg)
  rw [hprocess]
  refine ⟨⟨?_, ?_⟩, hcounted.sndUna.trans hsame.1, hcounted.dupAcks.trans hsame.2⟩
  · rw [hdata.1, hwriteable.1, hopen.1, hstate]
  · rw [hdata.2, hwriteable.2, hopen.2]

/-- Connect, send ten bytes, and have the peer acknowledge the connect message three more times. -/
def duplicateRun : List Call :=
  [.connect, .notifyPacket (datagram 0 4 FLAG_CTL [0, 3, 1, 0]), .send (List.replicate 10 65)] ++
    List.replicate 3 (.notifyPacket (datagram 4 4 0 []))

theorem duplicateRun_end : ∃ s, Runs.run (call quietEnv) (new quietEnv 7) duplicateRun = some s ∧
    s.state = .established ∧ s.conv = 7 ∧ s.sndUna = 4 ∧ s.sndNxt = 14 ∧ s.dupAcks = 3 ∧
      s.recover = 14 := by
  have hend : (Runs.run (call quietEnv) (new quietEnv 7) duplicateRun).map (fun s =>
      (s.state, s.conv, s.sndUna, s.sndNxt, s.dupAcks, s.recover)) =
      some (.established, 7, 4, 14, 3, 14) := by decide +kernel
  obtain ⟨s, hs, heq⟩ := Option.map_eq_some_iff.mp hend
  simp only [Prod.mk.injEq] at heq
  exact ⟨s, hs, heq⟩

/-- The peer goes on acknowledging the connect message. -/
theorem duplicates_counted (hs : s.sendState.Tracked) (hstate : s.state = .established)
    (hconv : s.conv = 7) (huna : s.sndUna = 4) (hflight : s.sndUna ≠ s.sndNxt)
    (hcount : s.dupAcks = 3) {n : ℕ} (hn : n ≤ 253) :
    ∃ t, Runs.run (call quietEnv) s (List.replicate n (.notifyPacket (datagram 4 4 0 []))) = some t ∧
      (t.sendState.Tracked ∧ t.state = .established ∧ t.conv = 7 ∧ t.sndUna = 4 ∧
        t.sndUna ≠ t.sndNxt) ∧ t.dupAcks = UInt8.ofNat (3 + n) := by
  induction n with
  | zero => exact ⟨s, rfl, ⟨hs, hstate, hconv, huna, hflight⟩, hcount⟩
  | succ n ih =>
    obtain ⟨t, ht, ⟨htracked, hstate, hconv, huna, hflight⟩, hcount⟩ := ih (by omega)
    have hpacket : t.notifyPacket quietEnv (datagram 4 4 0 []) =
        some (t.process quietEnv ⟨7, 4, 4, 0, 1000, [], 1, 0⟩) :=
      notifyPacket_of_parseHeader quietEnv (by decide) (parseHeader_datagram 4 4 0 [])
    have hcall : t.call quietEnv (.notifyPacket (datagram 4 4 0 [])) =
        some (t.process quietEnv ⟨7, 4, 4, 0, 1000, [], 1, 0⟩).2 := by
      rfl
    have hthird : t.dupAcks + 1 ≠ 3 := by
      rw [hcount]
      intro heq
      have hval := congrArg UInt8.toNat heq
      rw [UInt8.toNat_add, UInt8.toNat_ofNat'] at hval
      have hone : (1 : UInt8).toNat = 1 := rfl
      have hthree : (3 : UInt8).toNat = 3 := rfl
      omega
    obtain ⟨⟨hstate', hconv'⟩, huna', hcount'⟩ := process_duplicate quietEnv
      ⟨7, 4, 4, 0, 1000, [], 1, 0⟩ hconv.symm hstate rfl rfl ⟨huna.symm, rfl, hflight⟩ hthird
    have hmore := (steps_call quietEnv htracked.cap hcall).inFlight_le htracked.toCounted huna'
    have hpos : 0 < t.sendState.inFlight := SendState.inFlight_pos_iff.mpr hflight
    refine ⟨_, ?_, ⟨tracked_call quietEnv htracked hcall, hstate', hconv'.trans hconv,
      huna'.trans huna, SendState.inFlight_pos_iff.mp (hpos.trans_le hmore)⟩, ?_⟩
    · rw [List.replicate_succ', Runs.run_append, ht, Option.bind_some, Runs.run, hcall]
      rfl
    · rw [hcount', hcount, ← Nat.add_assoc, UInt8.ofNat_add (3 + n) 1]
      rfl

theorem duplicates_end_nothing (hs : s.sendState.Tracked) (huna : 4 ≤ s.sndUna) (n : ℕ) :
    Runs.Admissible (call quietEnv) (fun s c => ¬ s.EndsRecovery c) s
      (List.replicate n (.notifyPacket (datagram 4 4 0 []))) := by
  induction n generalizing s with
  | zero => trivial
  | succ n ih =>
    refine ⟨?_, fun t ht => ?_⟩
    · rintro ⟨seg, hseg, -, hack, -⟩
      obtain rfl := Option.some.inj ((parseHeader_datagram 4 4 0 []).symm.trans hseg.2)
      exact UInt32.not_lt.mpr huna hack.1
    · have hup : s.sndUna ≤ t.sndUna := (steps_call quietEnv hs.cap ht).sndUna_le
      exact ih (tracked_call quietEnv hs ht) (UInt32.le_trans huna hup)

/-- After the 256th duplicate the counter is back at `0`, with no acknowledgment of new data. -/
theorem not_recovery_after_duplicates :
    ¬ ∀ (env : Env) (conv : UInt32) (pre mid : List Call) (s t : PseudoTcp),
      Runs.run (call env) (new env conv) pre = some s → Runs.run (call env) s mid = some t →
      3 ≤ s.dupAcks → Runs.Admissible (call env) (fun s c => ¬ s.EndsRecovery c) s mid →
      3 ≤ t.dupAcks ∧ t.recover = s.recover := by
  intro h
  obtain ⟨s, hs, hstate, hconv, huna, hnxt, hcount, -⟩ := duplicateRun_end
  have hflight : s.sndUna ≠ s.sndNxt := by
    rw [huna, hnxt]
    decide
  have htracked := tracked_of_run quietEnv hs
  have hdup : 3 ≤ s.dupAcks := by
    rw [hcount]
    exact UInt8.le_refl _
  have hbelow : 4 ≤ s.sndUna := by
    rw [huna]
    exact UInt32.le_refl _
  obtain ⟨t, ht, -, hlast⟩ := duplicates_counted htracked hstate hconv huna hflight hcount
    (n := 253) le_rfl
  have hthree := (h quietEnv 7 duplicateRun _ s t hs ht hdup
    (duplicates_end_nothing htracked hbelow 253)).1
  rw [hlast] at hthree
  exact absurd hthree (by decide)

/-- One more duplicate is counted. -/
theorem recovery_of_run_duplicate :
    ∃ s t, Runs.run (call quietEnv) (new quietEnv 7) duplicateRun = some s ∧
      Runs.run (call quietEnv) s [.notifyPacket (datagram 4 4 0 [])] = some t ∧ 3 ≤ s.dupAcks ∧
      3 ≤ t.dupAcks ∧ t.dupAcks + 1 ≠ 3 ∧ t.recover = s.recover := by
  obtain ⟨s, hs, hstate, hconv, huna, hnxt, hcount, -⟩ := duplicateRun_end
  have hflight : s.sndUna ≠ s.sndNxt := by
    rw [huna, hnxt]
    decide
  have hdup : 3 ≤ s.dupAcks := by
    rw [hcount]
    exact UInt8.le_refl _
  obtain ⟨t, ht, -⟩ := duplicates_counted (tracked_of_run quietEnv hs) hstate hconv huna hflight hcount
    (n := 1) (by decide)
  refine ⟨s, t, hs, ht, hdup, recovery_of_run quietEnv 7 duplicateRun _ hs ht hdup
    ⟨⟨fun seg _ _ _ => ?_, ?_⟩, fun _ _ => trivial⟩⟩
  · rw [hcount]
    decide
  · rintro ⟨seg, hseg, -, hack, -⟩
    obtain rfl := Option.some.inj ((parseHeader_datagram 4 4 0 []).symm.trans hseg.2)
    exact absurd (huna ▸ hack.1) (by decide)

end PseudoTcp

end Synciga
