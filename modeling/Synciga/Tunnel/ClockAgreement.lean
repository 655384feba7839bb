import Synciga.PseudoTcp.FastRecovery
import Synciga.Tunnel.Clock

/-!
# `GetNextClock` and `NotifyClock`

`GetNextClock` takes the least of the remaining times of three deadlines, and `NotifyClock` tests one after the
other, on the state that serving the one before has left. Where the segment list is empty, `NotifyClock` asserts
that it is not and does nothing; but the timer never runs then.

## Main results

* `clock_of_run` — a clock before the time that was asked for finds nothing to do, one at this time serves a
  deadline
-/

namespace Synciga.PseudoTcp

variable (env : Env) {s s' : PseudoTcp}

/-! ### What `NotifyClock` serves -/

/-- The deadline has passed. -/
def due (s : PseudoTcp) (k : Deadline) (now : UInt32) : Bool :=
  (s.deadline k).any fun d => timeDiff d now ≤ 0

/-- The deadlines that `NotifyClock` serves, in the order in which it comes to them. -/
def served (s : PseudoTcp) (now : UInt32) : List Deadline :=
  if s.state = .closed then []
  else
    let first := if s.due .retransmit now ∧ s.slist ≠ [] then [.retransmit] else []
    match s.clockRetransmit env now with
    | (false, _) => first
    | (true, s₁) =>
      let second := if s₁.due .probe now then [.probe] else []
      match s₁.clockProbe env now with
      | (false, _) => first ++ second
      | (true, s₂) => first ++ second ++ if s₂.due .ack now then [.ack] else []

variable {now : UInt32}

theorem due_retransmit_iff : s.due .retransmit now = true ↔
    s.rtoBase ≠ 0 ∧ timeDiff (s.rtoBase + s.rxRto) now ≤ 0 := by
  rw [due, deadline]
  split
  · next h => simp [h]
  · next h => simp [h]

theorem due_probe_iff : s.due .probe now = true ↔
    s.sndWnd = 0 ∧ timeDiff (s.lastsend + s.rxRto) now ≤ 0 := by
  rw [due, deadline]
  split
  · next h => simp [h]
  · next h => simp [h]

theorem due_ack_iff : s.due .ack now = true ↔ s.tAck ≠ 0 ∧ timeDiff (s.tAck + s.ackDelay) now ≤ 0 := by
  rw [due, deadline]
  split
  · next h => simp [h]
  · next h => simp [h]

/-! ### A clock that comes too early -/

theorem clockRetransmit_of_not_due (h : s.due .retransmit now = false) :
    s.clockRetransmit env now = (true, s) := by
  rw [clockRetransmit, if_neg]
  rintro ⟨hrun, hpassed, -⟩
  rw [due_retransmit_iff.mpr ⟨hrun, hpassed⟩] at h
  cases h

theorem clockProbe_of_not_due (h : s.due .probe now = false) : s.clockProbe env now = (true, s) := by
  rw [clockProbe, if_neg]
  intro hpassed
  rw [due_probe_iff.mpr hpassed] at h
  cases h

theorem clockAck_of_not_due (h : s.due .ack now = false) : s.clockAck env now = s := by
  rw [clockAck, if_neg]
  intro hpassed
  rw [due_ack_iff.mpr hpassed] at h
  cases h

theorem notifyClock_of_not_due (h : ∀ k, s.due k now = false) : s.notifyClock env now = s := by
  rw [notifyClock]
  split
  · rfl
  · simp only [clockRetransmit_of_not_due env (h .retransmit), clockProbe_of_not_due env (h .probe),
      clockAck_of_not_due env (h .ack)]

/-! ### A clock that comes in time -/

theorem written_lt_of_transmit {i : ℕ} (h : s.transmit env i now = (true, s')) :
    s.written.length < s'.written.length := by
  rw [transmit] at h
  rcases hg : s.slist[i]? with _ | g
  · rw [hg] at h
    cases h
  rw [hg] at h
  simp only at h
  by_cases hlimit : (if s.state = .established then 15 else 30) ≤ g.xmit
  · rw [if_pos hlimit] at h
    cases h
  rw [if_neg hlimit] at h
  have hloop := (transmitLoop_spec env g PACKET_MAXIMUMS.length (min g.len s.mss) s).2.2.1
    (by decide)
  rcases hr : transmitLoop env g PACKET_MAXIMUMS.length (min g.len s.mss) s with ⟨_ | n, t⟩
  · rw [hr] at h
    cases h
  · rw [hr] at h hloop
    cases h
    exact hloop

theorem written_lt_packet (s : PseudoTcp) (seq : UInt32) (flags : UInt8) (offset len : UInt32) :
    s.written.length < (s.packet env seq flags offset len).2.written.length := by
  obtain ⟨buffer, wres, hw, -⟩ := packet_written env s seq flags offset len
  rw [hw, List.length_cons]
  exact Nat.lt_succ_self _

theorem clockRetransmit_acts (hdue : s.due .retransmit now = true) (hslist : s.slist ≠ []) :
    (∃ s₁, s.clockRetransmit env now = (true, s₁) ∧ s.written.length < s₁.written.length) ∨
      ∃ s₁, s.clockRetransmit env now = (false, s₁) ∧ s₁.state = .closed := by
  obtain ⟨hrun, hpassed⟩ := due_retransmit_iff.mp hdue
  rw [clockRetransmit, if_pos ⟨hrun, hpassed, hslist⟩]
  split
  · exact .inr ⟨_, rfl, rfl⟩
  · next hr =>
    have hlt := written_lt_of_transmit env hr
    exact .inl ⟨_, rfl, hlt⟩

theorem clockProbe_acts (hdue : s.due .probe now = true) :
    (∃ s₁, s.clockProbe env now = (true, s₁) ∧ s.written.length < s₁.written.length) ∨
      ∃ s₁, s.clockProbe env now = (false, s₁) ∧ s₁.state = .closed := by
  rw [clockProbe, if_pos (due_probe_iff.mp hdue)]
  split
  · exact .inr ⟨_, rfl, rfl⟩
  · exact .inl ⟨_, rfl, written_lt_packet env s (s.sndNxt - 1) 0 0 0⟩

theorem clockAck_acts (hdue : s.due .ack now = true) :
    s.written.length < (s.clockAck env now).written.length := by
  rw [clockAck, if_pos (due_ack_iff.mp hdue)]
  exact written_lt_packet env s s.sndNxt 0 0 0

theorem written_le_clockAck (s : PseudoTcp) (now : UInt32) :
    s.written.length ≤ (s.clockAck env now).written.length := by
  cases hdue : s.due .ack now with
  | false => rw [clockAck_of_not_due env hdue]
  | true => exact (clockAck_acts env hdue).le

theorem clockProbe_then {s₁ : PseudoTcp} (hopen : s.state ≠ .closed)
    (hr : s.clockRetransmit env now = (true, s₁)) :
    s₁.written.length ≤ (s.notifyClock env now).written.length ∨
      (s.notifyClock env now).state = .closed := by
  rw [notifyClock, if_neg hopen, hr]
  simp only
  cases hdue : s₁.due .probe now with
  | false =>
    rw [clockProbe_of_not_due env hdue]
    exact .inl (written_le_clockAck env s₁ now)
  | true =>
    obtain ⟨s₂, hp, hlt⟩ | ⟨s₂, hp, hclosed⟩ := clockProbe_acts env hdue
    · rw [hp]
      exact .inl (hlt.le.trans (written_le_clockAck env s₂ now))
    · rw [hp]
      exact .inr hclosed

theorem served_of_due (hopen : s.state ≠ .closed)
    (hpending : s.rtoBase ≠ 0 → s.slist ≠ []) {k : Deadline} (hdue : s.due k now = true) :
    s.served env now ≠ [] ∧ (s.written.length < (s.notifyClock env now).written.length ∨
      (s.notifyClock env now).state = .closed) := by
  cases hretransmit : s.due .retransmit now with
  | true =>
    have hslist := hpending (due_retransmit_iff.mp hretransmit).1
    rw [served, if_neg hopen, if_pos ⟨hretransmit, hslist⟩]
    obtain ⟨s₁, hr, hlt⟩ | ⟨s₁, hr, hclosed⟩ := clockRetransmit_acts env hretransmit hslist
    · rw [hr]
      refine ⟨?_, ?_⟩
      · simp only
        split <;> simp
      · exact (clockProbe_then env hopen hr).imp_left hlt.trans_le
    · rw [hr, notifyClock, if_neg hopen, hr]
      exact ⟨List.cons_ne_nil _ _, .inr hclosed⟩
  | false =>
    rw [served, if_neg hopen, notifyClock, if_neg hopen, clockRetransmit_of_not_due env hretransmit]
    simp only
    cases hprobe : s.due .probe now with
    | true =>
      obtain ⟨s₁, hp, hlt⟩ | ⟨s₁, hp, hclosed⟩ := clockProbe_acts env hprobe
      · rw [hp]
        exact ⟨by simp, .inl (hlt.trans_le (written_le_clockAck env s₁ now))⟩
      · rw [hp]
        exact ⟨by simp, .inr hclosed⟩
    | false =>
      -- The deadline is that of the delayed acknowledgment.
      have hack : s.due .ack now = true := by
        cases k with
        | ack => exact hdue
        | retransmit => cases hretransmit.symm.trans hdue
        | probe => cases hprobe.symm.trans hdue
      rw [clockProbe_of_not_due env hprobe]
      simp only [hack]
      exact ⟨by simp, .inl (clockAck_acts env hack)⟩

/-! ### The time that was asked for -/

theorem deadline_of_getNextClock {timeout : ℤ} (h : s.getNextClock now = some timeout)
    (hshort : timeout < DEFAULT_TIMEOUT) :
    s.state ≠ .closed ∧ ∃ k d, s.deadline k = some d ∧ timeDiff d now = timeout := by
  rw [getNextClock] at h
  split at h
  · cases h
  split at h
  · cases h
  split at h
  · cases h
    exact absurd hshort (by decide)
  next hopen =>
  refine ⟨hopen, ?_⟩
  -- The least of the remaining times is one of them.
  have hcases : (s.tAck ≠ 0 ∧ timeDiff (s.tAck + s.ackDelay) now = timeout) ∨
      (s.rtoBase ≠ 0 ∧ timeDiff (s.rtoBase + s.rxRto) now = timeout) ∨
      (s.sndWnd = 0 ∧ timeDiff (s.lastsend + s.rxRto) now = timeout) := by
    grind
  obtain ⟨hne, heq⟩ | ⟨hne, heq⟩ | ⟨hzero, heq⟩ := hcases
  · exact ⟨.ack, _, if_pos hne, heq⟩
  · exact ⟨.retransmit, _, if_pos hne, heq⟩
  · exact ⟨.probe, _, if_pos hzero, heq⟩

/-- **The clock.** After every run, let `GetNextClock` ask for a time. A clock before it finds nothing to do,
and changes no field; and unless it is a default, one at it serves a deadline that ends there, and sends a
packet or closes the connection down. -/
theorem clock_of_run (conv : UInt32) (calls : List Call)
    (hrun : Runs.run (call env) (new env conv) calls = some s) (now : UInt32) (timeout : ℤ)
    (hclock : s.getNextClock now = some timeout) (hpos : 0 < timeout) :
    (∀ t : ℕ, t < timeout → s.notifyClock env (now + UInt32.ofNat t) = s) ∧
      (timeout < DEFAULT_TIMEOUT → s.served env (now + UInt32.ofNat timeout.toNat) ≠ [] ∧
        (∃ k, s.deadline k = some (now + UInt32.ofNat timeout.toNat)) ∧
        (s.written.length <
            (s.notifyClock env (now + UInt32.ofNat timeout.toNat)).written.length ∨
          (s.notifyClock env (now + UInt32.ofNat timeout.toNat)).state = .closed)) := by
  constructor
  · intro t ht
    by_cases hclosed : s.state = .closed
    · rw [notifyClock, if_pos hclosed]
    refine notifyClock_of_not_due env fun k => ?_
    rw [due]
    cases hd : s.deadline k with
    | none => rfl
    | some d =>
      have hle := getNextClock_le hclock hclosed hd
      rw [Option.any_some, timeDiff_add (by omega)]
      exact decide_eq_false (by omega)
  intro hshort
  obtain ⟨hopen, k, d, hd, hdiff⟩ := deadline_of_getNextClock hclock hshort
  obtain ⟨t, rfl⟩ := Int.eq_ofNat_of_zero_le hpos.le
  have hdue : s.due k (now + UInt32.ofNat t) = true := by
    rw [due, hd, Option.any_some, timeDiff_add hdiff.ge, hdiff]
    exact decide_eq_true (by omega)
  obtain ⟨hserved, hacts⟩ := served_of_due env hopen (tracked_of_run env hrun).pending hdue
  refine ⟨hserved, ⟨k, hd.trans (congrArg some ?_)⟩, hacts⟩
  exact eq_add_of_timeDiff hdiff

/-- The connect message has been sent at time 1, and is to be sent again at 3001. -/
theorem clock_of_run_connecting :
    ∃ s, Runs.run (call quietEnv) (new quietEnv 7) [.connect] = some s ∧ s.getNextClock 1000 = some 2001 ∧
      (∀ t : ℕ, (t : ℤ) < 2001 → s.notifyClock quietEnv (1000 + UInt32.ofNat t) = s) ∧
      s.served quietEnv 3001 ≠ [] := by
  have hend : (Runs.run (call quietEnv) (new quietEnv 7) [.connect]).map
      (fun s => s.getNextClock 1000) = some (some 2001) := by decide +kernel
  obtain ⟨s, hs, hclock⟩ := Option.map_eq_some_iff.mp hend
  obtain ⟨hearly, hintime⟩ := clock_of_run quietEnv 7 [.connect] hs 1000 2001 hclock (by decide)
  exact ⟨s, hs, hclock, hearly, (hintime (by decide)).1⟩

end Synciga.PseudoTcp
