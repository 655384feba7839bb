import Synciga.Tunnel.ReadEvents
import Synciga.PseudoTcp.Notifications

/-!
# The connection of a `PseudoTcpChannel`

Whatever the threads do, `tcp_` has come from its constructor by calls of its interface, each with the readings
of its critical section.

## Main results

* `connected_of_run` — so what every call keeps holds of it
-/

namespace Synciga.PseudoTcpChannel

variable {env : Env} {c c' : PseudoTcpChannel} {now : Readings} {tcp tcp' : PseudoTcp} {call : PseudoTcp.Call}

/-- Calls lead to a connection. -/
inductive Reached (env : Env) : PseudoTcp → Prop
  | new (now : Readings) : Reached env (.new (env.at now) 0)
  | call (now : Readings) (call : PseudoTcp.Call) {tcp tcp' : PseudoTcp} (h : Reached env tcp)
      (hcall : tcp.call (env.at now) call = some tcp') : Reached env tcp'

/-- Calls lead to the connection, if there is one. -/
def Connected (env : Env) (c : PseudoTcpChannel) : Prop := ∀ tcp ∈ c.tcp, Reached env tcp

theorem Connected.none (h : c.tcp = none) : c.Connected env := fun tcp htcp => by
  rw [h] at htcp
  cases htcp

theorem Connected.after (h : c.Connected env) (htcp : c.tcp = some tcp)
    (hcall : tcp.call (env.at now) call = some tcp') (c₁ : PseudoTcpChannel) :
    (c₁.afterTcp tcp tcp').Connected env := by
  rw [Connected, (afterTcp_spec c₁ tcp tcp').2.1]
  rintro _ ⟨⟩
  exact .call now call (h tcp htcp) hcall

variable (call) in
theorem Connected.adjusted (h : c.Connected env) (htcp : c.tcp = some tcp)
    (hcall : tcp.call (env.at now) call = some tcp') (c₁ : PseudoTcpChannel) (clear : Bool) :
    ((c₁.afterTcp tcp tcp').adjustClock now clear).Connected env := by
  have hafter := h.after htcp hcall c₁
  rw [adjustClock]
  split
  · exact hafter
  split
  · exact hafter
  · dsimp only
    split <;> exact .none rfl

variable (now call) in
theorem Connected.noted (h : c.Connected env) (htcp : c.tcp = some tcp)
    (hcall : tcp.call (env.at now) call = some tcp') (c₁ : PseudoTcpChannel) :
    ((c₁.afterTcp tcp tcp').noteTimer tcp tcp').Connected env := by
  have hafter := h.after htcp hcall c₁
  rw [noteTimer]
  split <;> exact hafter

theorem Connected.checkDestroy (h : c.Connected env) : c.checkDestroy.Connected env := by
  rw [PseudoTcpChannel.checkDestroy]
  split <;> exact h

theorem Connected.step (h : c.Connected env) {a : Readings × Action} (hstep : c.step env a = some c') :
    c'.Connected env := by
  obtain ⟨now, action⟩ := a
  rw [PseudoTcpChannel.step] at hstep
  split at hstep
  · cases hstep
  cases action with
  | getStream => cases hstep; exact h
  | connect initiator =>
    dsimp only at hstep
    rw [connect] at hstep
    split at hstep
    · cases hstep; exact h
    split at hstep
    · cases hstep
    · cases hstep
      rintro _ ⟨⟩
      exact .new now
  | channelDestroyed =>
    obtain ⟨-, rfl⟩ := Runs.of_guard hstep
    obtain ⟨ready, events, -, heq⟩ := onChannelDestroyed_eq c now
    rw [heq]
    exact .none rfl
  | sessionTerminate =>
    cases hstep
    rw [onSessionTerminate]
    dsimp only
    repeat' split
    all_goals exact h
  | read len =>
    obtain ⟨-, rfl⟩ := Runs.of_guard hstep
    rw [read]
    split
    · exact h
    next tcp htcp =>
    have hcall := h.noted now (.recv len) htcp rfl { c with streamReadable := false }
    generalize tcp.recv (env.at now) len = r at hcall ⊢
    obtain ⟨result, tcp'⟩ := r
    dsimp only at hcall ⊢
    repeat' split
    all_goals exact hcall
  | write data =>
    obtain ⟨-, rfl⟩ := Runs.of_guard hstep
    rw [write]
    split
    · exact h
    next tcp htcp =>
    have hcall := h.noted now (.send data) htcp rfl c
    generalize tcp.send (env.at now) data = r at hcall ⊢
    dsimp only at hcall ⊢
    repeat' split
    all_goals exact hcall
  | close =>
    obtain ⟨-, rfl⟩ := Runs.of_guard hstep
    rw [close]
    split
    next tcp htcp => exact h.adjusted (.close false) htcp rfl _ _
    · exact Connected.checkDestroy h
  | writableState writable =>
    cases hstep
    rw [onChannelWritableState]
    split
    · exact h
    split
    · exact h
    next tcp htcp =>
    split
    · exact h
    · exact h.adjusted .connect htcp rfl _ _
  | channelRead data =>
    dsimp only at hstep
    rw [onChannelRead] at hstep
    split at hstep
    · cases hstep; exact h
    split at hstep
    · cases hstep; exact h
    next tcp htcp =>
    obtain ⟨r, hr, rfl⟩ := Option.map_eq_some_iff.mp hstep
    exact h.adjusted (.notifyPacket data) htcp (congrArg (Option.map Prod.snd) hr) _ _
  | connectionChanged mtu =>
    cases hstep
    rw [onChannelConnectionChanged]
    split
    · exact h
    split
    · exact h
    next tcp htcp => exact h.adjusted (.notifyMTU mtu) htcp rfl _ _
  | workerMessage i =>
    dsimp only at hstep
    split at hstep
    · cases hstep
    next m _ =>
    cases hstep
    cases m with
    | purge => exact Connected.checkDestroy h
    | clock trigger =>
      rw [onWorkerMessage]
      split
      · exact h
      next tcp htcp => exact h.adjusted (.notifyClock now.notified) htcp rfl _ _
  | streamMessage =>
    dsimp only at hstep
    split at hstep
    · cases hstep
    · cases hstep
      rw [onStreamMessage]
      split <;> exact h
  | signalMessage =>
    dsimp only at hstep
    split at hstep
    · cases hstep
    next m _ _ =>
    cases hstep
    cases m <;> exact h

/-- In every run, calls have led to the connection, and it has told what belongs to its state. -/
theorem connected_of_run {as : List (Readings × Action)}
    (hrun : Runs.run (PseudoTcpChannel.step env) new as = some c) :
    ∀ tcp ∈ c.tcp, Reached env tcp ∧ PseudoTcp.Told tcp.state tcp.notified := by
  intro tcp htcp
  have hreached : Reached env tcp :=
    Runs.invariant_of_step (P := Connected env) (fun _ _ _ h hstep => h.step hstep) (.none rfl) hrun tcp htcp
  refine ⟨hreached, ?_⟩
  clear htcp
  induction hreached with
  | new now => exact (rfl : PseudoTcp.milestones [] = [])
  | call now call _ hcall ih => exact PseudoTcp.told_call (env.at now) ih hcall

/-- The channel connects, and the peer resets the connection. -/
theorem connected_of_run_reset :
    let run := Runs.run (PseudoTcpChannel.step PseudoTcp.quietEnv) new [(.still 900, .connect true),
      (.still 1000, .writableState true), (.still 1100, .channelRead (Watched.packet 0 0 FLAG_RST []))]
    ∃ c tcp, run = some c ∧ tcp ∈ c.tcp ∧ tcp.notified = [.onTcpClosed .econnreset] ∧
      Reached PseudoTcp.quietEnv tcp ∧ PseudoTcp.Told tcp.state tcp.notified := by
  intro run
  have hend : (run.bind fun c => c.tcp.map (·.notified)) = some [.onTcpClosed .econnreset] := by decide +kernel
  obtain ⟨c, hc, hrest⟩ := Option.bind_eq_some_iff.mp hend
  obtain ⟨tcp, htcp, htold⟩ := Option.map_eq_some_iff.mp hrest
  exact ⟨c, tcp, hc, htcp, htold, connected_of_run hc tcp htcp⟩

end Synciga.PseudoTcpChannel
