import Synciga.PseudoTcp.Sending

/-!
# What acknowledgments, timers and notifications leave alone

`process` deals with the acknowledgment of a segment before its data, and `NotifyClock` with the timers. Neither
touches the receive buffer, the scale factors or what was queued, nor the flags of the notifications; the state
changes only by closing down.

## Main definitions

* `Kept` — the fields that stay
* `Tends`, `Ticks` — what acknowledgments and timers do
-/

namespace Synciga

/-- The fields that neither an acknowledgment nor a timer nor a notification touches. -/
structure Kept where
  shutdown : Shutdown
  conv : UInt32
  rlist : List RSegment
  rbufLen : UInt32
  rcvNxt : UInt32
  rcvWnd : UInt32
  rwndScale : UInt8
  rbuf : FifoBuffer
  sbufLen : UInt32
  swndScale : UInt8
  useNagling : Bool
  ackDelay : UInt32
  supportWndScale : Bool
  allocs : ℕ
  queued : List (UInt8 × Bool)

namespace PseudoTcp

/-- The part of a connection that they keep. -/
def kept (s : PseudoTcp) : Kept where
  shutdown := s.shutdown
  conv := s.conv
  rlist := s.rlist
  rbufLen := s.rbufLen
  rcvNxt := s.rcvNxt
  rcvWnd := s.rcvWnd
  rwndScale := s.rwndScale
  rbuf := s.rbuf
  sbufLen := s.sbufLen
  swndScale := s.swndScale
  useNagling := s.useNagling
  ackDelay := s.ackDelay
  supportWndScale := s.supportWndScale
  allocs := s.allocs
  queued := s.queued

variable (env : Env) {s s' : PseudoTcp}

theorem kept_of_sending (h : Sending s s') : s'.kept = s.kept :=
  congrArg (fun c => (⟨c.shutdown, c.conv, c.rlist, c.rbufLen, c.rcvNxt, c.rcvWnd, c.rwndScale,
    c.rbuf, c.sbufLen, c.swndScale, c.useNagling, c.ackDelay, c.supportWndScale, c.allocs,
    c.queued⟩ : Kept)) h.steady

end PseudoTcp

/-- From `s` to `s'` an acknowledgment or a timer was handled: the flags are the same, the state is or has been
closed down, and notifications were only added. -/
structure Tends (s s' : PseudoTcp) : Prop where
  kept : s'.kept = s.kept
  bReadEnable : s'.bReadEnable = s.bReadEnable
  bWriteEnable : s'.bWriteEnable = s.bWriteEnable
  state : s'.state = s.state ∨ s'.state = .closed
  notified : ∃ more, s'.notified = more ++ s.notified

/-- From `s` to `s'` a timer was handled: no byte was freed, and a recovery goes on as before. -/
structure Ticks (s s' : PseudoTcp) : Prop extends Tends s s' where
  sbuf : s'.sbuf = s.sbuf
  sndUna : s'.sndUna = s.sndUna
  dupAcks : s'.dupAcks = s.dupAcks
  recover : s'.recover = s.recover

variable {s s' t : PseudoTcp}

theorem Tends.refl (s : PseudoTcp) : Tends s s := ⟨rfl, rfl, rfl, .inl rfl, [], rfl⟩

theorem Tends.trans (h : Tends s s') (h' : Tends s' t) : Tends s t := by
  obtain ⟨more, hmore⟩ := h.notified
  obtain ⟨more', hmore'⟩ := h'.notified
  refine ⟨h'.kept.trans h.kept, h'.bReadEnable.trans h.bReadEnable,
    h'.bWriteEnable.trans h.bWriteEnable, ?_, more' ++ more, ?_⟩
  · rcases h'.state with heq | hclosed
    · rw [heq]
      exact h.state
    · exact .inr hclosed
  · rw [hmore', hmore, List.append_assoc]

theorem Ticks.refl (s : PseudoTcp) : Ticks s s := ⟨.refl s, rfl, rfl, rfl, rfl⟩

theorem Ticks.trans (h : Ticks s s') (h' : Ticks s' t) : Ticks s t :=
  ⟨h.toTends.trans h'.toTends, h'.sbuf.trans h.sbuf, h'.sndUna.trans h.sndUna,
    h'.dupAcks.trans h.dupAcks, h'.recover.trans h.recover⟩

theorem Ticks.of_sending (h : Sending s s') : Ticks s s' :=
  ⟨⟨PseudoTcp.kept_of_sending h, congrArg Steady.bReadEnable h.steady,
    congrArg Steady.bWriteEnable h.steady, .inl h.state, [], congrArg Steady.notified h.steady⟩,
    h.sbuf, h.sndUna, congrArg Steady.dupAcks h.steady, congrArg Steady.recover h.steady⟩

namespace PseudoTcp

variable (env : Env)

theorem ticks_closedown (s : PseudoTcp) (err : ErrorCode) : Ticks s (s.closedown err) :=
  ⟨⟨rfl, rfl, rfl, .inr rfl, [.onTcpClosed err], rfl⟩, rfl, rfl, rfl, rfl⟩

/-! ### The acknowledgment part of `process` -/

theorem tends_acceptAck (s : PseudoTcp) (now : UInt32) (seg : Segment) : Tends s (s.acceptAck now seg) := by
  simp only [acceptAck, updateRtt]
  split <;> exact ⟨rfl, rfl, rfl, .inl rfl, [], rfl⟩

theorem tends_afterAck (s : PseudoTcp) (now nAcked : UInt32) : Tends s (s.afterAck env now nAcked).2 := by
  have htransmit := (Ticks.of_sending (sending_transmit env s 0 now)).toTends
  rw [afterAck]
  split
  · split
    · exact ⟨rfl, rfl, rfl, .inl rfl, [], rfl⟩
    rcases hr : s.transmit env 0 now with ⟨_ | _, s'⟩
    · rw [hr] at htransmit
      exact htransmit.trans (ticks_closedown s' .econnaborted).toTends
    · rw [hr] at htransmit
      exact htransmit.trans ⟨rfl, rfl, rfl, .inl rfl, [], rfl⟩
  · simp only
    split <;> exact ⟨rfl, rfl, rfl, .inl rfl, [], rfl⟩

theorem tends_duplicateAck (s : PseudoTcp) (now : UInt32) (seg : Segment) :
    Tends s (s.duplicateAck env now seg).2 := by
  simp only [duplicateAck]
  split
  · exact ⟨rfl, rfl, rfl, .inl rfl, [], rfl⟩
  split
  · split
    · have hcount : Tends s { s with
          sndWnd := seg.wnd.toUInt32 <<< s.swndScale.toUInt32, dupAcks := s.dupAcks + 1 } :=
        ⟨rfl, rfl, rfl, .inl rfl, [], rfl⟩
      have htransmit := hcount.trans (Ticks.of_sending (sending_transmit env _ 0 now)).toTends
      split
      · next s₁ hr =>
        rw [hr] at htransmit
        exact htransmit.trans (ticks_closedown s₁ .econnaborted).toTends
      · next hr =>
        rw [hr] at htransmit
        exact htransmit.trans ⟨rfl, rfl, rfl, .inl rfl, [], rfl⟩
    · split <;> exact ⟨rfl, rfl, rfl, .inl rfl, [], rfl⟩
  · exact ⟨rfl, rfl, rfl, .inl rfl, [], rfl⟩

theorem tends_processAck (s : PseudoTcp) (now : UInt32) (seg : Segment) :
    Tends s (s.processAck env now seg).2 := by
  rw [processAck]
  split
  · exact (tends_acceptAck s now seg).trans (tends_afterAck env _ now _)
  split
  · exact tends_duplicateAck env s now seg
  · exact .refl s

/-! ### The other steps of `process` -/

theorem tends_updateTimestamp (s : PseudoTcp) (seg : Segment) : Tends s (s.updateTimestamp seg) := by
  rw [updateTimestamp]
  split <;> exact ⟨rfl, rfl, rfl, .inl rfl, [], rfl⟩

theorem kept_enterEstablished (s : PseudoTcp) (bConnect : Bool) :
    (s.enterEstablished bConnect).kept = s.kept := by
  rw [enterEstablished]
  split <;> rfl

theorem kept_notifyWriteable (s : PseudoTcp) : s.notifyWriteable.kept = s.kept := by
  simp only [notifyWriteable]
  split <;> rfl

theorem kept_notifyReadable (s : PseudoTcp) (bNewData : Bool) :
    (s.notifyReadable bNewData).kept = s.kept := by
  rw [notifyReadable]
  split <;> rfl

/-! ### The MTU and the clock -/

theorem tends_notifyMTU (s : PseudoTcp) (mtu : UInt16) : Tends s (s.notifyMTU mtu) := by
  simp only [notifyMTU]
  split <;> exact ⟨rfl, rfl, rfl, .inl rfl, [], rfl⟩

theorem ticks_clockRetransmit (s : PseudoTcp) (now : UInt32) : Ticks s (s.clockRetransmit env now).2 := by
  have htransmit := Ticks.of_sending (sending_transmit env s 0 now)
  rw [clockRetransmit]
  split
  · rcases hr : s.transmit env 0 now with ⟨_ | _, s'⟩
    · rw [hr] at htransmit
      exact htransmit.trans (ticks_closedown s' .econnaborted)
    · rw [hr] at htransmit
      exact htransmit.trans ⟨⟨rfl, rfl, rfl, .inl rfl, [], rfl⟩, rfl, rfl, rfl, rfl⟩
  · exact .refl s

theorem ticks_clockProbe (s : PseudoTcp) (now : UInt32) : Ticks s (s.clockProbe env now).2 := by
  rw [clockProbe]
  split
  · split
    · exact ticks_closedown s .econnaborted
    · have hpacket := Ticks.of_sending (sending_packet env s (s.sndNxt - 1) 0 0 0)
      exact hpacket.trans ⟨⟨rfl, rfl, rfl, .inl rfl, [], rfl⟩, rfl, rfl, rfl, rfl⟩
  · exact .refl s

theorem ticks_clockAck (s : PseudoTcp) (now : UInt32) : Ticks s (s.clockAck env now) := by
  rw [clockAck]
  split
  · exact .of_sending (sending_packet env s s.sndNxt 0 0 0)
  · exact .refl s

theorem ticks_notifyClock (s : PseudoTcp) (now : UInt32) : Ticks s (s.notifyClock env now) := by
  rw [notifyClock]
  split
  · exact .refl s
  have hretransmit := ticks_clockRetransmit env s now
  split
  · next hr =>
    rw [hr] at hretransmit
    exact hretransmit
  next s₁ hr =>
  rw [hr] at hretransmit
  have hprobe := ticks_clockProbe env s₁ now
  split
  · next hp =>
    rw [hp] at hprobe
    exact hretransmit.trans hprobe
  · next s₂ hp =>
    rw [hp] at hprobe
    exact (hretransmit.trans hprobe).trans (ticks_clockAck env s₂ now)

end PseudoTcp

end Synciga
