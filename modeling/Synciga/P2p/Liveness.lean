import Synciga.P2p.ChannelMoves

/-!
# Whether a connection is alive

`Connection::UpdateState` gives a connection up that has not heard from the other side for a while. A timeout is
added to a time of 32 bits before it is compared with the time now, so that where the sum wraps around, a packet
that has just come in counts as an old one. `Watched` has what really happened, at times that do not wrap.

## Main results

* `alive_iff` — nothing is given up too soon exactly if the wrap is not in the way
-/

namespace Synciga.P2p

/-! ### Deadlines that wrap around -/

/-- The clock reads a time of the last `timeout` milliseconds before it wraps around, `t` has been
in them too. -/
def WrapsEarly (timeout t now : ℕ) : Prop := 2 ^ 32 ≤ t % 2 ^ 32 + timeout ∧ t % 2 ^ 32 ≤ now % 2 ^ 32

instance (timeout t now : ℕ) : Decidable (WrapsEarly timeout t now) := inferInstanceAs (Decidable (_ ∧ _))

section Deadlines

variable {timeout : UInt32} {t now : ℕ}

theorem deadline_le_iff (htimeout : timeout.toNat < 2 ^ 31) (hle : t ≤ now) (hnow : now < t + timeout.toNat) :
    UInt32.ofNat t + timeout ≤ UInt32.ofNat now ↔ WrapsEarly timeout.toNat t now := by
  rw [UInt32.le_iff_toNat_le, UInt32.toNat_add, UInt32.toNat_ofNat', UInt32.toNat_ofNat', WrapsEarly]
  omega

theorem deadline_lt_iff (htimeout : timeout.toNat < 2 ^ 31) (hle : t ≤ now) (hnow : now < t + timeout.toNat) :
    UInt32.ofNat t + timeout < UInt32.ofNat now ↔ WrapsEarly timeout.toNat t now := by
  rw [UInt32.lt_iff_toNat_lt, UInt32.toNat_add, UInt32.toNat_ofNat', UInt32.toNat_ofNat', WrapsEarly]
  omega

theorem deadline_le_of_wrapsEarly {s : ℕ} (hearly : WrapsEarly timeout.toNat t now)
    (hover : s + timeout.toNat ≤ now) (hhalf : now < s + 2 ^ 31) :
    UInt32.ofNat s + timeout ≤ UInt32.ofNat now := by
  obtain ⟨hwrap, hcycle⟩ := hearly
  rw [UInt32.le_iff_toNat_le, UInt32.toNat_add, UInt32.toNat_ofNat', UInt32.toNat_ofNat']
  omega

end Deadlines

/-! ### What `UpdateState` does -/

namespace Connection

variable (c : Connection) (now : UInt32)

theorem readState_checkTimeout : c.checkTimeout.readState = c.readState := by
  rw [checkTimeout]
  split
  · rfl
  · rfl

theorem readState_setReadState (value : ReadState) : (c.setReadState value).readState = value := by
  rw [setReadState]
  split
  · rename_i h
    exact h.symm
  · exact readState_checkTimeout _

variable (value : WriteState)

theorem readState_setWriteState : (c.setWriteState value).readState = c.readState := by
  rw [setWriteState]
  split
  · rfl
  · exact readState_checkTimeout _

theorem writeState_setReadState (value : ReadState) : (c.setReadState value).writeState = c.writeState := by
  rw [setReadState]
  split
  · rfl
  · exact writeState_checkTimeout _

theorem remoteIceMode_setWriteState : (c.setWriteState value).remoteIceMode = c.remoteIceMode := by
  rw [setWriteState]
  split
  · rfl
  · rw [checkTimeout]
    split
    · rfl
    · rfl

/-- The times that a connection has. -/
structure SameTimes (c d : Connection) : Prop where
  lastPingReceived : d.lastPingReceived = c.lastPingReceived
  lastDataReceived : d.lastDataReceived = c.lastDataReceived
  pings : d.pingsSinceLastResponse = c.pingsSinceLastResponse
  lastPingSent : d.lastPingSent = c.lastPingSent

theorem SameTimes.trans {c d e : Connection} (h : SameTimes c d) (h' : SameTimes d e) : SameTimes c e :=
  ⟨h'.lastPingReceived.trans h.lastPingReceived, h'.lastDataReceived.trans h.lastDataReceived,
    h'.pings.trans h.pings, h'.lastPingSent.trans h.lastPingSent⟩

theorem sameTimes_checkTimeout : SameTimes c c.checkTimeout := by
  rw [checkTimeout]
  split
  · exact ⟨rfl, rfl, rfl, rfl⟩
  · exact ⟨rfl, rfl, rfl, rfl⟩

theorem sameTimes_setReadState (value : ReadState) : SameTimes c (c.setReadState value) := by
  rw [setReadState]
  split
  · exact ⟨rfl, rfl, rfl, rfl⟩
  · have h := sameTimes_checkTimeout { c with readState := value }
    exact ⟨h.lastPingReceived, h.lastDataReceived, h.pings, h.lastPingSent⟩

theorem sameTimes_setWriteState : SameTimes c (c.setWriteState value) := by
  rw [setWriteState]
  split
  · exact ⟨rfl, rfl, rfl, rfl⟩
  · have h := sameTimes_checkTimeout { c with writeState := value }
    exact ⟨h.lastPingReceived, h.lastDataReceived, h.pings, h.lastPingSent⟩

theorem sameTimes_revive : SameTimes c c.revive := by
  rw [revive]
  split
  · exact sameTimes_setWriteState c _
  · exact ⟨rfl, rfl, rfl, rfl⟩

/-- The other side was not heard for the read timeout, as `UpdateState` sees it. -/
def Unheard (c : Connection) (now : UInt32) : Prop :=
  c.readState = .readable ∧ c.lastPingReceived + CONNECTION_READ_TIMEOUT ≤ now ∧
    c.lastDataReceived + CONNECTION_READ_TIMEOUT ≤ now

/-- Too many pings have failed, as `UpdateState` sees it with this estimate of the round trip. -/
def Failing (c : Connection) (rtt now : UInt32) : Prop :=
  c.writeState = .writable ∧
    tooManyFailures c.pingsSinceLastResponse CONNECTION_WRITE_CONNECT_FAILURES rtt now ∧
    tooLongWithoutResponse c.pingsSinceLastResponse CONNECTION_WRITE_CONNECT_TIMEOUT now

instance : Decidable (c.Unheard now) := inferInstanceAs (Decidable (_ ∧ _))

instance (rtt : UInt32) : Decidable (c.Failing rtt now) := inferInstanceAs (Decidable (_ ∧ _))

/-- The first of the two checks of writability. -/
def checkFailures (rtt now : UInt32) (c : Connection) : Connection :=
  if c.Failing rtt now then c.setWriteState .unreliable else c

/-- The second one. -/
def checkResponse (now : UInt32) (c : Connection) : Connection :=
  if (c.writeState = .unreliable ∨ c.writeState = .init) ∧
      tooLongWithoutResponse c.pingsSinceLastResponse CONNECTION_WRITE_TIMEOUT now then
    c.setWriteState .timeout
  else c

theorem updateState_eq : c.updateState now =
    checkResponse now (checkFailures (conservativeRTTEstimate c.rtt) now
      (if c.Unheard now then c.setReadState .timeout else c)) := rfl

/-- The times and the state of reading are not touched by the checks of writability. -/
structure SameReading (c d : Connection) : Prop extends SameTimes c d where
  readState : d.readState = c.readState

theorem SameReading.trans {c d e : Connection} (h : SameReading c d) (h' : SameReading d e) : SameReading c e :=
  ⟨h.toSameTimes.trans h'.toSameTimes, h'.readState.trans h.readState⟩

theorem sameReading_checkFailures (rtt : UInt32) : SameReading c (c.checkFailures rtt now) := by
  rw [checkFailures]
  split
  · exact ⟨sameTimes_setWriteState c _, readState_setWriteState c _⟩
  · exact ⟨⟨rfl, rfl, rfl, rfl⟩, rfl⟩

theorem sameReading_checkResponse : SameReading c (c.checkResponse now) := by
  rw [checkResponse]
  split
  · exact ⟨sameTimes_setWriteState c _, readState_setWriteState c _⟩
  · exact ⟨⟨rfl, rfl, rfl, rfl⟩, rfl⟩

theorem writeState_checkFailures (rtt : UInt32) :
    (c.checkFailures rtt now).writeState = if c.Failing rtt now then .unreliable else c.writeState := by
  rw [checkFailures]
  split
  · exact writeState_setWriteState c _
  · rfl

theorem writeState_checkResponse : (c.checkResponse now).writeState =
    if (c.writeState = .unreliable ∨ c.writeState = .init) ∧
      tooLongWithoutResponse c.pingsSinceLastResponse CONNECTION_WRITE_TIMEOUT now then .timeout
    else c.writeState := by
  rw [checkResponse]
  split
  · exact writeState_setWriteState c _
  · rfl

theorem sameTimes_updateState : SameTimes c (c.updateState now) := by
  have hread : SameTimes c (if c.Unheard now then c.setReadState .timeout else c) := by
    split
    · exact sameTimes_setReadState c _
    · exact ⟨rfl, rfl, rfl, rfl⟩
  have hwrite := (sameReading_checkFailures (if c.Unheard now then c.setReadState .timeout else c) now
    (conservativeRTTEstimate c.rtt)).trans (sameReading_checkResponse _ now)
  exact hread.trans hwrite.toSameTimes

theorem readState_updateState :
    (c.updateState now).readState = if c.Unheard now then .timeout else c.readState := by
  have hwrite := (sameReading_checkFailures (if c.Unheard now then c.setReadState .timeout else c) now
    (conservativeRTTEstimate c.rtt)).trans (sameReading_checkResponse _ now)
  rw [updateState_eq, hwrite.readState]
  split
  · exact readState_setReadState c _
  · rfl

/-- The connection times out if it may, which it may after it has become unreliable just now. -/
theorem writeState_updateState : (c.updateState now).writeState =
    if (c.writeState = .unreliable ∨ c.writeState = .init ∨ c.Failing (conservativeRTTEstimate c.rtt) now) ∧
        tooLongWithoutResponse c.pingsSinceLastResponse CONNECTION_WRITE_TIMEOUT now then .timeout
    else if c.Failing (conservativeRTTEstimate c.rtt) now then .unreliable else c.writeState := by
  have hread : SameTimes c (if c.Unheard now then c.setReadState .timeout else c) ∧
      (if c.Unheard now then c.setReadState .timeout else c).writeState = c.writeState := by
    split
    · exact ⟨sameTimes_setReadState c _, writeState_setReadState c _⟩
    · exact ⟨⟨rfl, rfl, rfl, rfl⟩, rfl⟩
  rw [updateState_eq]
  generalize (if c.Unheard now then c.setReadState .timeout else c) = d at hread ⊢
  obtain ⟨htimes, hwrite⟩ := hread
  have hfailing : d.Failing (conservativeRTTEstimate c.rtt) now ↔
      c.Failing (conservativeRTTEstimate c.rtt) now := by
    rw [Failing, Failing, hwrite, htimes.pings]
  rw [writeState_checkResponse, (sameReading_checkFailures d now _).pings, htimes.pings,
    writeState_checkFailures, hwrite]
  by_cases h : c.Failing (conservativeRTTEstimate c.rtt) now
  · rw [if_pos (hfailing.mpr h), if_pos h]
    exact if_congr (and_congr_left fun _ => iff_of_true (.inl rfl) (.inr (.inr h))) rfl rfl
  · rw [if_neg (mt hfailing.mp h), if_neg h]
    exact if_congr (and_congr_left fun _ => or_congr_right (or_iff_left h).symm) rfl rfl

/-- `Destroy`. -/
def destroy (c : Connection) : Connection := (c.setReadState .timeout).setWriteState .timeout

end Connection

/-! ### What really happens to a connection -/

/-- What happens to a connection. -/
inductive ConnectionEvent
  /-- A ping is sent. -/
  | ping
  | pingReceived
  /-- An indication comes in at a port that takes them. -/
  | indication
  | data
  | response (elapsed : UInt32)
  /-- A ping is answered by an error that is final. -/
  | failed
  /-- A ping times out, or is answered by an error that is not final. -/
  | retry
  | updateState
  | prune
  | destroy
  | setConnected (value : Bool)
  | setRemoteIceMode (mode : IceMode)

/-- A connection, with the times at which it last was pinged and received data, and those of its pings without
an answer. The response of a lite agent counts as its ping. -/
structure Watched where
  connection : Connection
  ping : Option ℕ := none
  data : Option ℕ := none
  unanswered : List ℕ := []

namespace Watched

/-- Something happens at a time. -/
def step (w : Watched) (t : ℕ) : ConnectionEvent → Watched
  | .ping => { w with connection := w.connection.ping (.ofNat t), unanswered := w.unanswered ++ [t] }
  | .pingReceived => { w with connection := w.connection.onPing (.ofNat t), ping := some t }
  | .indication =>
    if w.connection.readState = .readable then
      { w with connection := w.connection.receivedPing (.ofNat t), ping := some t }
    else w
  | .data =>
    if w.connection.readState = .readable then
      { w with connection := w.connection.onData (.ofNat t), data := some t }
    else w
  | .response elapsed =>
    { w with
      connection := w.connection.onRequestResponse (.ofNat t) elapsed
      ping := if w.connection.remoteIceMode = .lite then some t else w.ping
      unanswered := [] }
  | .failed => { w with connection := w.connection.onRequestFailed }
  | .retry => { w with connection := w.connection.requestOver }
  | .updateState => { w with connection := w.connection.updateState (.ofNat t) }
  | .prune => { w with connection := w.connection.prune }
  | .destroy => { w with connection := w.connection.destroy }
  | .setConnected value => { w with connection := { w.connection with connected := value } }
  | .setRemoteIceMode mode => { w with connection := { w.connection with remoteIceMode := mode } }

/-- A connection that has just been made, after all of this. -/
def run (port : ℕ) (localPriority : UInt32) (remoteCandidate : Candidate) (history : List (ℕ × ConnectionEvent)) :
    Watched :=
  history.foldl (fun w e => w.step e.1 e.2) { connection := { port, localPriority, remoteCandidate } }

/-- A ping or data came in at that time, and none of its kind since. -/
def Arrived (w : Watched) (t : ℕ) : Prop := w.ping = some t ∨ w.data = some t

/-- Reading times out only if nothing came in during the last `CONNECTION_READ_TIMEOUT` milliseconds, writing
becomes unreliable only if enough pings were sent and enough time has passed since the first one, and times out
only after even more time. -/
structure Alive (w : Watched) (now : ℕ) : Prop where
  read : w.connection.readState = .readable → (w.connection.updateState (.ofNat now)).readState = .timeout →
    ∀ t, w.Arrived t → t + CONNECTION_READ_TIMEOUT.toNat ≤ now
  write : w.connection.writeState = .writable → (w.connection.updateState (.ofNat now)).writeState ≠ .writable →
    CONNECTION_WRITE_CONNECT_FAILURES ≤ w.unanswered.length ∧
      ∀ t ∈ w.unanswered.head?, t + CONNECTION_WRITE_CONNECT_TIMEOUT.toNat ≤ now
  timeout : w.connection.writeState ≠ .timeout → (w.connection.updateState (.ofNat now)).writeState = .timeout →
    ∃ t ∈ w.unanswered.head?, t + CONNECTION_WRITE_TIMEOUT.toNat ≤ now

/-- If a ping or data came in lately, one that did so came in before the clock was that close to its wrap. If
the first ping without an answer was sent lately, it was sent before that, unless the state of writing does not
depend on it. -/
structure ClockSafe (w : Watched) (now : ℕ) : Prop where
  read : w.connection.readState = .readable →
    (∃ t, w.Arrived t ∧ now < t + CONNECTION_READ_TIMEOUT.toNat) →
      ∃ t, w.Arrived t ∧ now < t + CONNECTION_READ_TIMEOUT.toNat ∧
        ¬WrapsEarly CONNECTION_READ_TIMEOUT.toNat t now
  write : w.connection.writeState = .writable →
    tooManyFailures w.connection.pingsSinceLastResponse CONNECTION_WRITE_CONNECT_FAILURES
      (conservativeRTTEstimate w.connection.rtt) (.ofNat now) = true →
    ∀ t ∈ w.unanswered.head?, now < t + CONNECTION_WRITE_CONNECT_TIMEOUT.toNat →
      ¬WrapsEarly CONNECTION_WRITE_CONNECT_TIMEOUT.toNat t now
  timeout : (w.connection.writeState = .unreliable ∨ w.connection.writeState = .init ∨
      w.connection.Failing (conservativeRTTEstimate w.connection.rtt) (.ofNat now)) →
    ∀ t ∈ w.unanswered.head?, now < t + CONNECTION_WRITE_TIMEOUT.toNat →
      ¬WrapsEarly CONNECTION_WRITE_TIMEOUT.toNat t now

/-- The connection has these times, in 32 bits. -/
structure Tracked (w : Watched) : Prop where
  ping : w.connection.lastPingReceived = w.ping.elim 0 UInt32.ofNat
  data : w.connection.lastDataReceived = w.data.elim 0 UInt32.ofNat
  unanswered : w.connection.pingsSinceLastResponse = w.unanswered.map UInt32.ofNat

/-- The times that count are such times. -/
structure Within (P : ℕ → Prop) (w : Watched) : Prop where
  arrived : ∀ t, w.Arrived t → P t
  unanswered : ∀ t ∈ w.unanswered, P t

/-! ### The times in every history -/

variable {w : Watched} {now : ℕ}

theorem Tracked.sameTimes (h : w.Tracked) {c : Connection} (hc : w.connection.SameTimes c) :
    Tracked { w with connection := c } :=
  ⟨hc.lastPingReceived.trans h.ping, hc.lastDataReceived.trans h.data, hc.pings.trans h.unanswered⟩

theorem Tracked.receivedPing (h : w.Tracked) (t : ℕ) :
    Tracked { w with connection := w.connection.receivedPing (.ofNat t), ping := some t } := by
  have hset := Connection.sameTimes_setReadState { w.connection with lastPingReceived := .ofNat t } .readable
  exact ⟨hset.lastPingReceived, hset.lastDataReceived.trans h.data, hset.pings.trans h.unanswered⟩

theorem Tracked.step (h : w.Tracked) (t : ℕ) (e : ConnectionEvent) : (w.step t e).Tracked := by
  cases e with
  | ping =>
    refine ⟨h.ping, h.data, ?_⟩
    rw [Watched.step, List.map_append, ← h.unanswered]
    rfl
  | pingReceived => exact (h.receivedPing t).sameTimes (Connection.sameTimes_revive _)
  | indication =>
    rw [Watched.step]
    split
    · exact h.receivedPing t
    · exact h
  | data =>
    rw [Watched.step]
    split
    · rename_i hreadable
      have hrevive := Connection.sameTimes_revive { w.connection with lastDataReceived := .ofNat t }
      rw [Connection.onData, if_pos hreadable]
      exact ⟨hrevive.lastPingReceived.trans h.ping, hrevive.lastDataReceived, hrevive.pings.trans h.unanswered⟩
    · exact h
  | response elapsed =>
    have hset := Connection.sameTimes_setWriteState w.connection.requestOver .writable
    have hmode := Connection.remoteIceMode_setWriteState w.connection.requestOver .writable
    have hread := Connection.sameTimes_setReadState
      { w.connection.requestOver.setWriteState .writable with state := .succeeded, lastPingReceived := .ofNat t }
      .readable
    rw [Watched.step, Connection.onRequestResponse]
    by_cases hlite : w.connection.remoteIceMode = .lite
    · rw [if_pos (hmode.trans hlite), if_pos hlite]
      exact ⟨hread.lastPingReceived, hread.lastDataReceived.trans (hset.lastDataReceived.trans h.data), rfl⟩
    · rw [if_neg (hmode.symm ▸ hlite), if_neg hlite]
      exact ⟨hset.lastPingReceived.trans h.ping, hset.lastDataReceived.trans h.data, rfl⟩
  | failed =>
    have hset := Connection.sameTimes_setWriteState { w.connection.requestOver with state := .failed } .timeout
    exact h.sameTimes ⟨hset.lastPingReceived, hset.lastDataReceived, hset.pings, hset.lastPingSent⟩
  | retry => exact ⟨h.ping, h.data, h.unanswered⟩
  | updateState => exact h.sameTimes (Connection.sameTimes_updateState _ _)
  | prune =>
    rw [Watched.step, Connection.prune]
    split
    · exact h
    · have hset := Connection.sameTimes_setWriteState { w.connection with pruned := true, requests := 0 } .timeout
      exact h.sameTimes ⟨hset.lastPingReceived, hset.lastDataReceived, hset.pings, hset.lastPingSent⟩
  | destroy =>
    exact h.sameTimes ((Connection.sameTimes_setReadState _ _).trans (Connection.sameTimes_setWriteState _ _))
  | setConnected value => exact ⟨h.ping, h.data, h.unanswered⟩
  | setRemoteIceMode mode => exact ⟨h.ping, h.data, h.unanswered⟩

variable {t : ℕ}

theorem Within.step {P : ℕ → Prop} (h : w.Within P) (ht : P t) (e : ConnectionEvent) :
    (w.step t e).Within P := by
  have hping : ∀ s, (some t = some s ∨ w.data = some s) → P s := by
    rintro s (hs | hs)
    · cases hs
      exact ht
    · exact h.arrived s (.inr hs)
  cases e with
  | ping =>
    refine ⟨h.arrived, fun s hs => ?_⟩
    rcases List.mem_append.mp hs with hold | hnew
    · exact h.unanswered s hold
    · rw [List.mem_singleton.mp hnew]
      exact ht
  | pingReceived => exact ⟨hping, h.unanswered⟩
  | indication =>
    rw [Watched.step]
    split
    · exact ⟨hping, h.unanswered⟩
    · exact h
  | data =>
    rw [Watched.step]
    split
    · refine ⟨fun s hs => ?_, h.unanswered⟩
      rcases hs with hs | hs
      · exact h.arrived s (.inl hs)
      · cases hs
        exact ht
    · exact h
  | response elapsed =>
    refine ⟨fun s hs => ?_, List.forall_mem_nil _⟩
    rw [Watched.step, Arrived] at hs
    split at hs
    · exact hping s hs
    · exact h.arrived s hs
  | failed => exact ⟨h.arrived, h.unanswered⟩
  | retry => exact ⟨h.arrived, h.unanswered⟩
  | updateState => exact ⟨h.arrived, h.unanswered⟩
  | prune => exact ⟨h.arrived, h.unanswered⟩
  | destroy => exact ⟨h.arrived, h.unanswered⟩
  | setConnected value => exact ⟨h.arrived, h.unanswered⟩
  | setRemoteIceMode mode => exact ⟨h.arrived, h.unanswered⟩

/-! ### `UpdateState` and the clock -/

theorem tooLongWithoutResponse_iff (h : w.Tracked) (timeout : UInt32) :
    tooLongWithoutResponse w.connection.pingsSinceLastResponse timeout (.ofNat now) = true ↔
      ∃ t ∈ w.unanswered.head?, UInt32.ofNat t + timeout < UInt32.ofNat now := by
  rw [tooLongWithoutResponse, h.unanswered, List.head?_map]
  cases w.unanswered.head? with
  | none => exact iff_of_false Bool.false_ne_true fun ⟨t, ht, _⟩ => Option.not_mem_none t ht
  | some t =>
    refine decide_eq_true_iff.trans ⟨fun hlt => ⟨t, rfl, hlt⟩, fun ⟨s, hs, hlt⟩ => ?_⟩
    cases hs
    exact hlt

theorem length_of_tooManyFailures (h : w.Tracked) {rtt : UInt32}
    (hfailures : tooManyFailures w.connection.pingsSinceLastResponse CONNECTION_WRITE_CONNECT_FAILURES rtt
      (.ofNat now) = true) :
    CONNECTION_WRITE_CONNECT_FAILURES ≤ w.unanswered.length := by
  rw [tooManyFailures, h.unanswered] at hfailures
  split at hfailures
  · cases hfailures
  · rename_i ping hping
    obtain ⟨hlt, -⟩ := List.getElem?_eq_some_iff.mp hping
    rwa [List.length_map] at hlt

theorem Tracked.deadline_le (h : w.Tracked) (hunheard : w.connection.Unheard (.ofNat now))
    (ht : w.Arrived t) : UInt32.ofNat t + CONNECTION_READ_TIMEOUT ≤ .ofNat now := by
  obtain ⟨-, hping, hdata⟩ := hunheard
  rcases ht with ht | ht
  · rw [h.ping, ht] at hping
    exact hping
  · rw [h.data, ht] at hdata
    exact hdata

/-- If everything that counts has come in since the clock is close to its wrap, nothing seems to
have come in. -/
theorem Tracked.unheard (h : w.Tracked) (hpast : w.Within fun t => t ≤ now ∧ now < t + 2 ^ 31)
    (hreadable : w.connection.readState = .readable)
    (hearly : WrapsEarly CONNECTION_READ_TIMEOUT.toNat t now)
    (hall : ∀ t, w.Arrived t → now < t + CONNECTION_READ_TIMEOUT.toNat →
      WrapsEarly CONNECTION_READ_TIMEOUT.toNat t now) : w.connection.Unheard (.ofNat now) := by
  have hhalf : CONNECTION_READ_TIMEOUT.toNat < 2 ^ 31 := by decide
  have htime (o : Option ℕ) (ho : ∀ s, o = some s → w.Arrived s) :
      o.elim 0 UInt32.ofNat + CONNECTION_READ_TIMEOUT ≤ .ofNat now := by
    cases o with
    | none =>
      obtain ⟨hwrap, hcycle⟩ := hearly
      change 0 + CONNECTION_READ_TIMEOUT ≤ UInt32.ofNat now
      rw [UInt32.zero_add, UInt32.le_iff_toNat_le, UInt32.toNat_ofNat']
      omega
    | some s =>
      obtain ⟨hle, hlt⟩ := hpast.arrived s (ho s rfl)
      by_cases hrecent : now < s + CONNECTION_READ_TIMEOUT.toNat
      · exact (deadline_le_iff hhalf hle hrecent).mpr (hall s (ho s rfl) hrecent)
      · exact deadline_le_of_wrapsEarly hearly (not_lt.mp hrecent) hlt
  refine ⟨hreadable, ?_, ?_⟩
  · rw [h.ping]
    exact htime w.ping fun s hs => .inl hs
  · rw [h.data]
    exact htime w.data fun s hs => .inr hs

theorem alive_iff_of_tracked (h : w.Tracked) (hpast : w.Within fun t => t ≤ now ∧ now < t + 2 ^ 31) :
    w.Alive now ↔ w.ClockSafe now := by
  have hfirst {timeout : UInt32} (hhalf : timeout.toNat < 2 ^ 31) {t : ℕ} (ht : t ∈ w.unanswered.head?)
      (hsoon : now < t + timeout.toNat) :
      UInt32.ofNat t + timeout < UInt32.ofNat now ↔ WrapsEarly timeout.toNat t now :=
    deadline_lt_iff hhalf (hpast.unanswered t (List.mem_of_head? ht)).1 hsoon
  have hread : (w.connection.updateState (.ofNat now)).readState =
      if w.connection.Unheard (.ofNat now) then .timeout else w.connection.readState :=
    Connection.readState_updateState _ _
  have hwrite := Connection.writeState_updateState w.connection (.ofNat now)
  constructor
  · intro halive
    refine ⟨fun hreadable hrecent => ?_, fun hwritable hfailures t ht hsoon hearly => ?_,
      fun hstate t ht hsoon hearly => ?_⟩
    · by_contra hnone
      have hall : ∀ t, w.Arrived t → now < t + CONNECTION_READ_TIMEOUT.toNat →
          WrapsEarly CONNECTION_READ_TIMEOUT.toNat t now :=
        fun t ht hlt => not_not.mp fun hearly => hnone ⟨t, ht, hlt, hearly⟩
      obtain ⟨t, ht, hlt⟩ := hrecent
      have hunheard := h.unheard hpast hreadable (hall t ht hlt) hall
      rw [if_pos hunheard] at hread
      exact absurd (halive.read hreadable hread t ht) (not_le.mpr hlt)
    · have hfailing : w.connection.Failing (conservativeRTTEstimate w.connection.rtt) (.ofNat now) :=
        ⟨hwritable, hfailures, (tooLongWithoutResponse_iff h _).mpr
          ⟨t, ht, (hfirst (by decide) ht hsoon).mpr hearly⟩⟩
      have hunwritable : (w.connection.updateState (.ofNat now)).writeState ≠ .writable := by
        rw [hwrite]
        split
        · exact WriteState.noConfusion
        · exact WriteState.noConfusion
      exact absurd ((halive.write hwritable hunwritable).2 t ht) (not_le.mpr hsoon)
    have hlate : tooLongWithoutResponse w.connection.pingsSinceLastResponse CONNECTION_WRITE_TIMEOUT
        (.ofNat now) = true :=
      (tooLongWithoutResponse_iff h _).mpr ⟨t, ht, (hfirst (by decide) ht hsoon).mpr hearly⟩
    rw [if_pos ⟨hstate, hlate⟩] at hwrite
    have hnot : w.connection.writeState ≠ .timeout := by
      intro heq
      rw [Connection.Failing, heq] at hstate
      rcases hstate with hstate | hstate | ⟨hstate, -⟩ <;> cases hstate
    obtain ⟨s, hs, hover⟩ := halive.timeout hnot hwrite
    cases Option.mem_unique ht hs
    exact absurd hover (not_le.mpr hsoon)
  · intro hsafe
    refine ⟨fun hreadable htimeout t ht => ?_, fun hwritable hunwritable => ?_, fun hstate htimeout => ?_⟩
    · by_contra hover
      obtain ⟨s, hs, hlt, hnot⟩ := hsafe.read hreadable ⟨t, ht, not_le.mp hover⟩
      have hunheard : w.connection.Unheard (.ofNat now) := by
        by_contra hheard
        rw [if_neg hheard, hreadable] at hread
        exact absurd (hread.symm.trans htimeout) ReadState.noConfusion
      exact hnot ((deadline_le_iff (by decide) (hpast.arrived s hs).1 hlt).mp (h.deadline_le hunheard hs))
    · have hfailing : w.connection.Failing (conservativeRTTEstimate w.connection.rtt) (.ofNat now) := by
        by_contra hnot
        rw [if_neg hnot, hwritable, if_neg fun hstate => ?_] at hwrite
        · exact hunwritable hwrite
        · rcases hstate.1 with hstate | hstate | hstate
          · cases hstate
          · cases hstate
          · exact hnot hstate
      obtain ⟨-, hfailures, hlong⟩ := hfailing
      refine ⟨length_of_tooManyFailures h hfailures, fun t ht => ?_⟩
      by_contra hsoon
      obtain ⟨s, hs, hlt⟩ := (tooLongWithoutResponse_iff h _).mp hlong
      cases Option.mem_unique ht hs
      exact hsafe.write hwritable hfailures t ht (not_le.mp hsoon)
        ((hfirst (by decide) ht (not_le.mp hsoon)).mp hlt)
    · have hlate : (w.connection.writeState = .unreliable ∨ w.connection.writeState = .init ∨
          w.connection.Failing (conservativeRTTEstimate w.connection.rtt) (.ofNat now)) ∧
          tooLongWithoutResponse w.connection.pingsSinceLastResponse CONNECTION_WRITE_TIMEOUT
            (.ofNat now) = true := by
        by_contra hnot
        rw [if_neg hnot, htimeout] at hwrite
        split at hwrite
        · cases hwrite
        · exact hstate hwrite.symm
      obtain ⟨t, ht, hlt⟩ := (tooLongWithoutResponse_iff h _).mp hlate.2
      refine ⟨t, ht, ?_⟩
      by_contra hsoon
      exact hsafe.timeout hlate.1 t ht (not_le.mp hsoon) ((hfirst (by decide) ht (not_le.mp hsoon)).mp hlt)

theorem run_within (port : ℕ) (localPriority : UInt32) (remoteCandidate : Candidate)
    (history : List (ℕ × ConnectionEvent)) :
    (run port localPriority remoteCandidate history).Tracked ∧
      (run port localPriority remoteCandidate history).Within (· ∈ history.map Prod.fst) := by
  refine List.foldlRecOn
    (motive := fun w : Watched => w.Tracked ∧ w.Within (· ∈ history.map Prod.fst)) history _ ?_ ?_
  · refine ⟨⟨rfl, rfl, rfl⟩, fun t ht => ?_, List.forall_mem_nil _⟩
    rcases ht with ht | ht
    · cases ht
    · cases ht
  · intro w hw e he
    exact ⟨hw.1.step e.1 e.2, hw.2.step (List.mem_map_of_mem he) e.2⟩

/-- **Liveness and the wrap of the clock.** For every connection and every history less than half a cycle ago:
nothing is given up too soon, if and only if the wrap of the clock is not in the way. -/
theorem alive_iff (port : ℕ) (localPriority : UInt32) (remoteCandidate : Candidate)
    (history : List (ℕ × ConnectionEvent)) (now : ℕ) (h : ∀ e ∈ history, e.1 ≤ now ∧ now < e.1 + 2 ^ 31) :
    (run port localPriority remoteCandidate history).Alive now ↔
      (run port localPriority remoteCandidate history).ClockSafe now := by
  obtain ⟨htracked, hwithin⟩ := run_within port localPriority remoteCandidate history
  have hpast (t : ℕ) (ht : t ∈ history.map Prod.fst) : t ≤ now ∧ now < t + 2 ^ 31 := by
    obtain ⟨e, he, rfl⟩ := List.mem_map.mp ht
    exact h e he
  exact alive_iff_of_tracked htracked
    ⟨fun t ht => hpast t (hwithin.arrived t ht), fun t ht => hpast t (hwithin.unanswered t ht)⟩

/-- A connection that was pinged an hour before the clock wraps around. -/
theorem alive_before_wrap :
    (run 0 0 P2PTransportChannel.blankCandidate [(4291367296, .pingReceived),
        (4291367300, .data)]).Alive 4291367400 ↔
      (run 0 0 P2PTransportChannel.blankCandidate
        [(4291367296, .pingReceived), (4291367300, .data)]).ClockSafe 4291367400 :=
  alive_iff 0 0 P2PTransportChannel.blankCandidate [(4291367296, .pingReceived), (4291367300, .data)] 4291367400
    (by decide +kernel)

/-- A millisecond after a ping reading times out, 20 seconds before the clock wraps around. -/
theorem not_alive_close_to_wrap :
    ¬(run 0 0 P2PTransportChannel.blankCandidate [(4294947296, .pingReceived)]).Alive 4294947297 := by
  intro h
  exact absurd (h.read (by decide +kernel) (by decide +kernel) 4294947296 (.inl rfl)) (by decide +kernel)

end Watched

end Synciga.P2p
