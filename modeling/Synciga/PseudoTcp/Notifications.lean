import Synciga.PseudoTcp.WakeUps

/-!
# What the owner of a connection is told

`OnTcpReadable` can come before `OnTcpOpen`, since `process` also takes data in `TCP_LISTEN`.

## Main definitions

* `milestones` — the calls of `OnTcpOpen` and `OnTcpClosed`

## Main results

* `told_of_run` — each is called once at most, in this order, and nothing is told behind the second
-/

namespace Synciga.PseudoTcp

variable (env : Env) {s s' : PseudoTcp} {state : TcpState} {told : List Notification}

/-- The notifications of a change of the state. -/
def milestones (told : List Notification) : List Notification :=
  told.filter fun n => n ≠ .onTcpReadable ∧ n ≠ .onTcpWriteable

/-- What has been told in a state, latest first. -/
def Told : TcpState → List Notification → Prop
  | .established, told => milestones told = [.onTcpOpen]
  | .closed, .onTcpClosed _ :: told => milestones told = [] ∨ milestones told = [.onTcpOpen]
  | .closed, _ => False
  | _, told => milestones told = []

theorem Told.closedown (h : Told state told) (hopen : state ≠ .closed) (err : ErrorCode) :
    Told .closed (.onTcpClosed err :: told) := by
  cases state with
  | closed => exact absurd rfl hopen
  | established => exact .inr h
  | _ => exact .inl h

theorem Told.user (h : Told state told) (hopen : state ≠ .closed) {n : Notification}
    (hn : milestones [n] = []) : Told state (n :: told) := by
  have hsame : milestones (n :: told) = milestones told := by
    rw [← List.singleton_append, milestones, List.filter_append]
    exact congrArg (· ++ milestones told) hn
  cases state with
  | closed => exact absurd rfl hopen
  | _ => exact hsame.trans h

/-- A part of a call tells nothing, or closes the connection down and is the last one. -/
inductive Quits (s : PseudoTcp) : Bool × PseudoTcp → Prop
  | goes (ok : Bool) {s' : PseudoTcp} (hstate : s'.state = s.state) (htold : s'.notified = s.notified) :
      Quits s (ok, s')
  | quits (err : ErrorCode) {s' : PseudoTcp} (hstate : s'.state = .closed)
      (htold : s'.notified = .onTcpClosed err :: s.notified) : Quits s (false, s')

theorem Quits.after {t : PseudoTcp} {r : Bool × PseudoTcp} (h : Quits t r) (hstate : t.state = s.state)
    (htold : t.notified = s.notified) : Quits s r := by
  cases h with
  | goes ok hstate' htold' => exact .goes ok (hstate'.trans hstate) (htold'.trans htold)
  | quits err hstate' htold' => exact .quits err hstate' (htold'.trans (congrArg _ htold))

theorem Quits.tells {r : Bool × PseudoTcp} (h : Quits s r) (hs : Told s.state s.notified)
    (hopen : s.state ≠ .closed) :
    Told r.2.state r.2.notified ∧ (r.1 = true → r.2.state ≠ .closed) := by
  cases h with
  | goes ok hstate htold =>
    rw [hstate, htold]
    exact ⟨hs, fun _ => hopen⟩
  | quits err hstate htold =>
    rw [hstate, htold]
    exact ⟨hs.closedown hopen err, nofun⟩

theorem quits_transmit (s : PseudoTcp) (now : UInt32) {f : PseudoTcp → PseudoTcp}
    (hf : ∀ s, (f s).state = s.state ∧ (f s).notified = s.notified) :
    Quits s (match s.transmit env 0 now with
      | (false, s) => (false, s.closedown .econnaborted)
      | (true, s) => (true, f s)) := by
  have hsend := sending_transmit env s 0 now
  have htold := congrArg Steady.notified hsend.steady
  rcases hr : s.transmit env 0 now with ⟨_ | _, s'⟩ <;> rw [hr] at hsend htold
  · exact .quits _ rfl (congrArg (_ :: ·) htold)
  · exact .goes _ ((hf s').1.trans hsend.state) ((hf s').2.trans htold)

theorem quits_afterAck (s : PseudoTcp) (now nAcked : UInt32) : Quits s (s.afterAck env now nAcked) := by
  rw [afterAck]
  split
  · split
    · exact .goes _ rfl rfl
    · exact quits_transmit env s now fun _ => ⟨rfl, rfl⟩
  · dsimp only
    split <;> exact .goes _ rfl rfl

theorem quits_duplicateAck (s : PseudoTcp) (now : UInt32) (seg : Segment) :
    Quits s (s.duplicateAck env now seg) := by
  simp only [duplicateAck]
  split
  · exact .goes _ rfl rfl
  split
  · split
    · refine Quits.after (quits_transmit env _ now ?_) rfl rfl
      exact fun _ => ⟨rfl, rfl⟩
    · split <;> exact .goes _ rfl rfl
  · exact .goes _ rfl rfl

theorem quits_processAck (s : PseudoTcp) (now : UInt32) (seg : Segment) :
    Quits s (s.processAck env now seg) := by
  rw [processAck]
  split
  · have hsame : (s.acceptAck now seg).state = s.state ∧ (s.acceptAck now seg).notified = s.notified := by
      simp only [acceptAck, updateRtt]
      split <;> exact ⟨rfl, rfl⟩
    exact (quits_afterAck env _ now _).after hsame.1 hsame.2
  split
  · exact quits_duplicateAck env s now seg
  · exact .goes _ rfl rfl

theorem quits_clockRetransmit (s : PseudoTcp) (now : UInt32) : Quits s (s.clockRetransmit env now) := by
  rw [clockRetransmit]
  split
  · exact quits_transmit env s now fun _ => ⟨rfl, rfl⟩
  · exact .goes _ rfl rfl

theorem quits_clockProbe (s : PseudoTcp) (now : UInt32) : Quits s (s.clockProbe env now) := by
  rw [clockProbe]
  split
  · split
    · exact .quits _ rfl rfl
    · have hsend := sending_packet env s (s.sndNxt - 1) 0 0 0
      exact .goes _ hsend.state (congrArg Steady.notified hsend.steady)
  · exact .goes _ rfl rfl

/-! ### Calls -/

theorem Told.sending (h : Told s.state s.notified) (hsend : Sending s s') : Told s'.state s'.notified := by
  have htold : s'.notified = s.notified := congrArg Steady.notified hsend.steady
  rw [hsend.state, htold]
  exact h

theorem told_notifyClock (h : Told s.state s.notified) (now : UInt32) :
    Told (s.notifyClock env now).state (s.notifyClock env now).notified := by
  rw [notifyClock]
  split
  · exact h
  next hopen =>
  have hretransmit := (quits_clockRetransmit env s now).tells h hopen
  split
  · next hr =>
    rw [hr] at hretransmit
    exact hretransmit.1
  next s₁ hr =>
  rw [hr] at hretransmit
  have hprobe := (quits_clockProbe env s₁ now).tells hretransmit.1 (hretransmit.2 rfl)
  split
  · next hp =>
    rw [hp] at hprobe
    exact hprobe.1
  next s₂ hp =>
  rw [hp] at hprobe
  rw [clockAck]
  split
  · exact hprobe.1.sending (sending_packet env s₂ s₂.sndNxt 0 0 0)
  · exact hprobe.1

theorem told_processControl {seg : Segment} {bConnect : Bool} (h : Told s.state s.notified)
    (hopen : s.state ≠ .closed) (hc : s.processControl env seg = some (bConnect, s')) :
    Told s'.state s'.notified ∧ s'.state ≠ .closed := by
  obtain ⟨-, -, rfl⟩ | ⟨-, -, options, -, hcase⟩ := processControl_cases env hc
  · exact ⟨h, hopen⟩
  have hparse : (s.parseOptions env options).state = s.state ∧
      (s.parseOptions env options).notified = s.notified := by
    obtain ⟨scale, h⟩ | ⟨-, scale, h⟩ := parseOptions_cases env s options <;> rw [h] <;> exact ⟨rfl, rfl⟩
  rw [← hparse.1, ← hparse.2] at h
  rw [← hparse.1] at hcase hopen
  obtain ⟨hstate, rfl⟩ | ⟨hstate, rfl⟩ | ⟨-, -, rfl⟩ := hcase
  · rw [hstate] at h
    exact ⟨h, nofun⟩
  · rw [hstate] at h
    exact ⟨congrArg (List.cons Notification.onTcpOpen) h, nofun⟩
  · exact ⟨h, hopen⟩

theorem told_processData {seg : Segment} (h : Told s.state s.notified) (hopen : s.state ≠ .closed) :
    Told (s.processData env seg).state (s.processData env seg).notified := by
  have hdata : (s.receiveData (s.trim seg) (s.ackFlags seg)).2.2.state = s.state ∧
      (s.receiveData (s.trim seg) (s.ackFlags seg)).2.2.notified = s.notified := by
    obtain ⟨rbuf, rcvNxt, rcvWnd, rlist, hr⟩ := receiveData_eq s (s.trim seg) (s.ackFlags seg)
    rw [hr]
    exact ⟨rfl, rfl⟩
  rw [← hdata.1, ← hdata.2] at h
  rw [← hdata.1] at hopen
  simp only [processData]
  generalize s.receiveData (s.trim seg) (s.ackFlags seg) = r at h hopen ⊢
  have hsend := sending_attemptSend env r.2.2 r.1
  generalize r.2.2.attemptSend env r.1 = t at hsend ⊢
  rw [notifyReadable]
  split
  · exact (h.sending hsend).user (hsend.state ▸ hopen) rfl
  · exact h.sending hsend

theorem told_process (h : Told s.state s.notified) (seg : Segment) :
    Told (s.process env seg).2.state (s.process env seg).2.notified := by
  rw [process]
  split
  · exact h
  dsimp only
  split
  · exact h
  next hopen =>
  split
  · exact h.closedown hopen _
  obtain hc | ⟨⟨bConnect, s₁⟩, hc⟩ := Option.eq_none_or_eq_some ((s.arrive env).processControl env seg)
  · rw [hc]
    exact h
  rw [hc]
  obtain ⟨hs₁, hopen₁⟩ := told_processControl env (s := s.arrive env) h hopen hc
  have hsame : (s₁.updateTimestamp seg).state = s₁.state ∧
      (s₁.updateTimestamp seg).notified = s₁.notified := by
    rw [updateTimestamp]
    split <;> exact ⟨rfl, rfl⟩
  have hack := ((quits_processAck env _ (s.now env) seg).after hsame.1 hsame.2).tells hs₁ hopen₁
  dsimp only
  generalize (s₁.updateTimestamp seg).processAck env (s.now env) seg = r at hack ⊢
  obtain ⟨_ | _, s₂⟩ := r
  · exact hack.1
  obtain ⟨hs₂, hopen₂⟩ := hack
  dsimp only at hs₂ ⊢
  have hestablished : Told (s₂.enterEstablished bConnect).state (s₂.enterEstablished bConnect).notified ∧
      (s₂.enterEstablished bConnect).state ≠ .closed := by
    rw [enterEstablished]
    split
    · next hstate =>
      rw [hstate.1] at hs₂
      exact ⟨congrArg (List.cons Notification.onTcpOpen) hs₂, fun hclosed => by cases hclosed⟩
    · exact ⟨hs₂, hopen₂ rfl⟩
  refine told_processData env ?_ ?_ <;> simp only [notifyWriteable] <;> split
  · exact hestablished.1.user hestablished.2 rfl
  · exact hestablished.1
  · exact hestablished.2
  · exact hestablished.2

theorem told_openWindow (h : Told s.state s.notified) :
    Told (s.openWindow env).state (s.openWindow env).notified := by
  simp only [openWindow]
  split
  · have hsend := sending_attemptSend env { s with rcvWnd := UInt32.ofNat s.rbuf.getWriteRemaining } .immediateAck
    split
    · exact Told.sending (by exact h) hsend
    · exact h
  · exact h

theorem told_call {c : Call} (h : Told s.state s.notified) (hcall : s.call env c = some s') :
    Told s'.state s'.notified := by
  cases c with
  | connect =>
    cases hcall
    rw [connect]
    split
    · exact h
    next hstate =>
      rw [not_ne_iff.mp hstate] at h
      have hqueue : Told ({ s with state := .synSent }.queueConnectMessage).state
          ({ s with state := .synSent }.queueConnectMessage).notified := h
      exact hqueue.sending (sending_attemptSend env _ _)
  | notifyMTU mtu =>
    cases hcall
    rw [notifyMTU]
    dsimp only
    split <;> exact h
  | notifyClock now =>
    cases hcall
    exact told_notifyClock env h now
  | notifyPacket buffer =>
    obtain ⟨⟨ok, t⟩, ht, rfl⟩ := Option.map_eq_some_iff.mp hcall
    obtain rfl | ⟨seg, -, rfl⟩ := notifyPacket_cases env ht
    · exact h
    · exact told_process env h seg
  | setOption opt value =>
    cases hcall
    cases opt <;> exact h
  | recv len =>
    cases hcall
    simp only [recv]
    split
    · exact h
    split
    · exact h
    · exact told_openWindow env h
  | send buffer =>
    cases hcall
    simp only [send]
    split
    · exact h
    split
    · exact h
    · have hqueue : Told (s.queue buffer (UInt32.ofNat buffer.length) false).2.state
          (s.queue buffer (UInt32.ofNat buffer.length) false).2.notified := h
      exact hqueue.sending (sending_attemptSend env _ _)
  | close force =>
    cases hcall
    exact h

/-- **The notifications.** After every run the connection is open if and only if `OnTcpOpen` was called and
`OnTcpClosed` was not; each was called once at most, `OnTcpClosed` last. -/
theorem told_of_run (conv : UInt32) (calls : List Call) (hrun : Runs.run (call env) (new env conv) calls = some s) :
    Told s.state s.notified := by
  have hnew : Told (new env conv).state (new env conv).notified := rfl
  exact Runs.invariant_of_step (P := fun s : PseudoTcp => Told s.state s.notified)
    (fun _ _ _ h hcall => told_call env h hcall) hnew hrun

/-- The peer answers the handshake, and then resets the connection. -/
theorem told_of_run_reset :
    ∃ s, Runs.run (call quietEnv) (new quietEnv 7) (openRun ++
        [.notifyPacket (datagram 4 4 FLAG_RST [])]) = some s ∧
      s.notified = [.onTcpClosed .econnreset, .onTcpOpen] ∧ Told s.state s.notified := by
  have hend : (Runs.run (call quietEnv) (new quietEnv 7) (openRun ++
      [.notifyPacket (datagram 4 4 FLAG_RST [])])).map
      notified = some [.onTcpClosed .econnreset, .onTcpOpen] := by decide +kernel
  obtain ⟨s, hs, htold⟩ := Option.map_eq_some_iff.mp hend
  exact ⟨s, hs, htold, told_of_run quietEnv 7 _ hs⟩

end Synciga.PseudoTcp
