import Synciga.P2p.BestConnection
import Synciga.P2p.Liveness

/-!
# The connections that are deleted

A connection that neither reads nor writes posts itself `MSG_DELETE`, which deletes it without another look at
its states, also if a ping or a response has brought it back to life. A port finds its connections by their
remote addresses, without the host names that count for an address of zero, and no two of its connections have
the same one.

## Main results

* `deletesDead_of_run` — each takes out itself and its own entry, and is dead unless it was revived
* `not_deletesDead_late_ping` — one that was
-/

namespace Synciga.P2p

/-! ### Connections that are to be deleted -/

namespace Connection

variable {c : Connection}

/-- Neither readable nor writable, as `CheckTimeout` sees it. -/
def Dead (c : Connection) : Prop :=
  (c.readState = .timeout ∨ c.readState = .init) ∧ c.writeState = .timeout

/-- If `MSG_DELETE` is posted, the connection is dead. -/
def Settled (c : Connection) : Prop := c.deletePosted = true → c.Dead

theorem settled_of_not_posted (h : c.deletePosted = false) : c.Settled := by
  intro hposted
  rw [h] at hposted
  cases hposted

theorem Settled.not_posted (h : c.Settled) (halive : ¬c.Dead) : c.deletePosted = false :=
  Bool.eq_false_iff.mpr fun hposted => halive (h hposted)

theorem Settled.checkTimeout (h : c.Settled) : c.checkTimeout.Settled := by
  rw [Connection.checkTimeout]
  split
  · rename_i hdead
    exact fun _ => hdead
  · exact h

theorem deletePosted_checkTimeout (halive : ¬c.Dead) : c.checkTimeout.deletePosted = c.deletePosted := by
  exact congrArg Connection.deletePosted (if_neg halive)

theorem Settled.setReadState_timeout (h : c.Settled) : (c.setReadState .timeout).Settled := by
  rw [setReadState]
  split
  · exact h
  · exact Settled.checkTimeout fun hposted => ⟨.inl rfl, (h hposted).2⟩

theorem Settled.setWriteState_timeout (h : c.Settled) : (c.setWriteState .timeout).Settled := by
  rw [setWriteState]
  split
  · exact h
  · exact Settled.checkTimeout fun hposted => ⟨(h hposted).1, rfl⟩

theorem deletePosted_setReadState_readable (c : Connection) :
    (c.setReadState .readable).deletePosted = c.deletePosted := by
  rw [setReadState]
  split
  · rfl
  · refine deletePosted_checkTimeout fun hdead => ?_
    exact hdead.1.elim ReadState.noConfusion ReadState.noConfusion

theorem deletePosted_setWriteState {value : WriteState} (hvalue : value ≠ .timeout) (c : Connection) :
    (c.setWriteState value).deletePosted = c.deletePosted := by
  rw [setWriteState]
  split
  · rfl
  · exact deletePosted_checkTimeout fun hdead => hvalue hdead.2

theorem deletePosted_receivedPing (now : UInt32) (c : Connection) :
    (c.receivedPing now).deletePosted = c.deletePosted :=
  deletePosted_setReadState_readable _

theorem deletePosted_revive (c : Connection) : c.revive.deletePosted = c.deletePosted := by
  rw [revive]
  split
  · exact deletePosted_setWriteState WriteState.noConfusion c
  · rfl

theorem deletePosted_onPing (now : UInt32) (c : Connection) :
    (c.onPing now).deletePosted = c.deletePosted :=
  (deletePosted_revive _).trans (deletePosted_receivedPing now c)

theorem deletePosted_onRequestResponse (now elapsed : UInt32) (c : Connection) :
    (c.onRequestResponse now elapsed).deletePosted = c.deletePosted := by
  have hwritable : (c.requestOver.setWriteState .writable).deletePosted = c.deletePosted :=
    deletePosted_setWriteState WriteState.noConfusion _
  rw [onRequestResponse]
  split
  · exact (deletePosted_receivedPing now _).trans hwritable
  · exact hwritable

theorem Settled.updateState (h : c.Settled) (now : UInt32) : (c.updateState now).Settled := by
  have hread : (if c.Unheard now then c.setReadState .timeout else c).Settled := by
    split
    · exact h.setReadState_timeout
    · exact h
  rw [updateState_eq]
  generalize (if c.Unheard now then c.setReadState .timeout else c) = d at hread ⊢
  have hwrite : (d.checkFailures (conservativeRTTEstimate c.rtt) now).Settled := by
    rw [checkFailures]
    split
    · rename_i hfailing
      -- it was writable, so it is not to be deleted
      have halive : ¬d.Dead := fun hdead => WriteState.noConfusion (hfailing.1.symm.trans hdead.2)
      refine settled_of_not_posted ?_
      rw [deletePosted_setWriteState WriteState.noConfusion]
      exact hread.not_posted halive
    · exact hread
  rw [checkResponse]
  split
  · exact hwrite.setWriteState_timeout
  · exact hwrite

theorem Settled.prune (h : c.Settled) : c.prune.Settled := by
  rw [Connection.prune]
  split
  · exact h
  · exact Settled.setWriteState_timeout h

theorem Settled.destroy (h : c.Settled) : c.destroy.Settled :=
  h.setReadState_timeout.setWriteState_timeout

theorem Settled.onRequestFailed (h : c.Settled) : c.onRequestFailed.Settled :=
  Settled.setWriteState_timeout h

theorem not_dead_of_readable (hreadable : c.readState = .readable) : ¬c.Dead := by
  rintro ⟨htimeout | hinit, -⟩
  · exact ReadState.noConfusion (hreadable.symm.trans htimeout)
  · exact ReadState.noConfusion (hreadable.symm.trans hinit)

theorem Settled.onData (h : c.Settled) (now : UInt32) : (c.onData now).Settled := by
  rw [Connection.onData]
  split
  · rename_i hreadable
    refine settled_of_not_posted ?_
    rw [deletePosted_revive]
    exact h.not_posted (not_dead_of_readable hreadable)
  · exact h

theorem readState_receivedPing (now : UInt32) (c : Connection) :
    (c.receivedPing now).readState = .readable :=
  readState_setReadState _ _

theorem readState_onPing (now : UInt32) (c : Connection) : (c.onPing now).readState = .readable := by
  rw [onPing, revive]
  split
  · exact (readState_setWriteState _ _).trans (readState_receivedPing now c)
  · exact readState_receivedPing now c

theorem writeState_onRequestResponse (now elapsed : UInt32) (c : Connection) :
    (c.onRequestResponse now elapsed).writeState = .writable := by
  have hwritable : (c.requestOver.setWriteState .writable).writeState = .writable :=
    writeState_setWriteState _ _
  rw [onRequestResponse]
  split
  · exact (writeState_setReadState _ _).trans hwritable
  · exact hwritable

end Connection

namespace P2PTransportChannel

open Connection (SameEnds)

variable {ch ch' : P2PTransportChannel} {P ok : Connection → Prop}

/-! ### What happens to the connections of a channel -/

/-- The connections of a channel are touched in a way that keeps `P`, and made where their port has
none to their address. -/
inductive Moves (P : Connection → Prop) : P2PTransportChannel → P2PTransportChannel → Prop
  | quiet {ch ch' : P2PTransportChannel} (hat : ch'.connectionAt = ch.connectionAt)
      (hcount : ch'.connectionCount = ch.connectionCount) (hperm : ch'.connections.Perm ch.connections) :
      Moves P ch ch'
  | touch {ch : P2PTransportChannel} (conn : ℕ) (f : Connection → Connection)
      (hends : SameEnds (ch.connectionAt conn) (f (ch.connectionAt conn)))
      (hkeeps : P (ch.connectionAt conn) → P (f (ch.connectionAt conn))) :
      Moves P ch (ch.withConnection conn f)
  | add {ch : P2PTransportChannel} (port : ℕ) (c : Candidate) (localPriority : UInt32)
      (hfree : ch.getConnection port c.address = none) :
      Moves P ch (ch.addConnection port c localPriority)
  | trans {ch mid ch' : P2PTransportChannel} (h : Moves P ch mid) (h' : Moves P mid ch') : Moves P ch ch'

theorem Moves.refl (ch : P2PTransportChannel) : Moves P ch ch := .quiet rfl rfl (.refl _)

/-- What happens to a connection keeps `P`; if it is revived, that is because it was `ok`. -/
structure Calm (P ok : Connection → Prop) : Prop where
  fresh : ∀ c, c.deletePosted = false → P c ∧ ok c
  updateState : ∀ now c, P c → P (c.updateState now)
  prune : ∀ c, P c → P c.prune
  destroy : ∀ c, P c → P c.destroy
  ping : ∀ now c, P c → P (c.ping now)
  useCandidate : ∀ c, P c → P { c with useCandidateAttr := true }
  connected : ∀ c connected, P c → P { c with connected }
  requestOver : ∀ c, P c → P c.requestOver
  onRequestFailed : ∀ c, P c → P c.onRequestFailed
  onData : ∀ now c, P c → P (c.onData now)
  indication : ∀ now c, c.readState = .readable → P c → P (c.receivedPing now)
  receivedPing : ∀ now c, ok c → P (c.receivedPing now) ∧ ok (c.receivedPing now)
  onPing : ∀ now c, ok c → P (c.onPing now)
  onRequestResponse : ∀ now elapsed c, ok c → P (c.onRequestResponse now elapsed)

theorem calm_true : Calm (fun _ => True) (fun _ => True) := by
  constructor <;> intros <;> trivial

theorem calm_settled : Calm Connection.Settled (fun c => c.deletePosted = false) where
  fresh _ h := ⟨Connection.settled_of_not_posted h, h⟩
  updateState now _ h := h.updateState now
  prune _ h := h.prune
  destroy _ h := h.destroy
  ping _ _ h := h
  useCandidate _ h := h
  connected _ _ h := h
  requestOver _ h := h
  onRequestFailed _ h := h.onRequestFailed
  onData now _ h := h.onData now
  indication now c hreadable h := by
    refine Connection.settled_of_not_posted ?_
    rw [Connection.deletePosted_receivedPing]
    exact h.not_posted (Connection.not_dead_of_readable hreadable)
  receivedPing now c h := by
    have hposted : (c.receivedPing now).deletePosted = false :=
      (Connection.deletePosted_receivedPing now c).trans h
    exact ⟨Connection.settled_of_not_posted hposted, hposted⟩
  onPing now c h := Connection.settled_of_not_posted ((Connection.deletePosted_onPing now c).trans h)
  onRequestResponse now elapsed c h :=
    Connection.settled_of_not_posted ((Connection.deletePosted_onRequestResponse now elapsed c).trans h)

/-! ### The operations of a channel -/

theorem sorting_moves (hP : Calm P ok) (now : UInt32) : Sorting now (Moves P) where
  refl := .refl
  trans := .trans
  updateState conn _ :=
    .touch conn _ (Connection.unpruned_updateState _ now).toSameEnds (hP.updateState now _)
  prune conn _ := .touch conn _ (Connection.sameEnds_prune _) (hP.prune _)
  nominate conn _ := .touch conn _ ⟨rfl, rfl, rfl⟩ fun h => hP.ping now _ (hP.useCandidate _ h)
  arrange _ _ _ _ _ _ _ _ _ hperm := .quiet rfl rfl hperm

/-- The connections of these ports to such a candidate may be revived. -/
def MayRevive (ok : Connection → Prop) (ports : List ℕ) (c : Candidate)
    (ch : P2PTransportChannel) : Prop :=
  ∀ conn ∈ ch.connections, (ch.connectionAt conn).port ∈ ports →
    c.isEquivalent (ch.connectionAt conn).remoteCandidate = true → ok (ch.connectionAt conn)

theorem getConnection_eq_some {port : ℕ} {address : SocketAddress} {conn : ℕ}
    (h : ch.getConnection port address = some conn) : conn ∈ ch.connections ∧
      (ch.connectionAt conn).port = port ∧ (ch.connectionAt conn).remoteCandidate.address = address :=
  ⟨List.mem_of_find?_eq_some h, by
    have hfound := List.find?_some h
    exact of_decide_eq_true hfound⟩

theorem MayRevive.receivedPing (hP : Calm P ok) {ports : List ℕ} {c : Candidate}
    (h : MayRevive ok ports c ch) (now : UInt32) {conn : ℕ} (hok : ok (ch.connectionAt conn)) :
    MayRevive ok ports c (ch.withConnection conn (·.receivedPing now)) := by
  have hsteady : Steady ch (ch.withConnection conn (·.receivedPing now)) :=
    steady_withConnection (fun c => (Connection.unpruned_receivedPing c now).toSameEnds) conn ch
  intro other hmem hport hequivalent
  rw [hsteady.connections] at hmem
  rw [(hsteady.ends other).port] at hport
  rw [(hsteady.ends other).remoteCandidate] at hequivalent
  rw [connectionAt_withConnection]
  by_cases hother : other = conn
  · subst hother
    rw [Function.update_self]
    exact (hP.receivedPing now _ hok).2
  · rw [Function.update_of_ne hother]
    exact h other hmem hport hequivalent

theorem MayRevive.addConnection (hP : Calm P ok) {ports : List ℕ} {c : Candidate}
    (h : MayRevive ok ports c ch) (port : ℕ) (localPriority : UInt32) :
    MayRevive ok ports c (ch.addConnection port c localPriority) := by
  intro conn hmem hport hequivalent
  change (Function.update ch.connectionAt ch.connectionCount _ conn).port ∈ ports at hport
  change c.isEquivalent (Function.update ch.connectionAt ch.connectionCount _ conn).remoteCandidate = true
    at hequivalent
  change ok (Function.update ch.connectionAt ch.connectionCount _ conn)
  by_cases hnew : conn = ch.connectionCount
  · subst hnew
    rw [Function.update_self]
    exact (hP.fresh _ rfl).2
  · rw [Function.update_of_ne hnew] at hport hequivalent ⊢
    rcases List.mem_append.mp hmem with hold | hlast
    · exact h conn hold hport hequivalent
    · exact absurd (List.mem_singleton.mp hlast) hnew

theorem moves_createConnection (hP : Calm P ok) (now : UInt32) {port : ℕ} {ports : List ℕ}
    (hport : port ∈ ports) (c : Candidate) (originPort : Option ℕ) (readable : Bool)
    (ch : P2PTransportChannel) (hmay : readable = true → MayRevive ok ports c ch) :
    Moves P ch (ch.createConnection now port c originPort readable).1 ∧
      (readable = true → MayRevive ok ports c (ch.createConnection now port c originPort readable).1) := by
  have hmark (ch : P2PTransportChannel) (conn : ℕ) (hok : readable = true → ok (ch.connectionAt conn))
      (hmay : readable = true → MayRevive ok ports c ch) :
      Moves P ch (ch.markReadable now readable conn) ∧
        (readable = true → MayRevive ok ports c (ch.markReadable now readable conn)) := by
    cases readable with
    | false => exact ⟨.refl ch, hmay⟩
    | true =>
      exact ⟨.touch conn _ (Connection.unpruned_receivedPing _ now).toSameEnds
        fun _ => (hP.receivedPing now _ (hok rfl)).1, fun _ => (hmay rfl).receivedPing hP now (hok rfl)⟩
  rw [createConnection]
  cases hconn : ch.getConnection port c.address with
  | some conn =>
    obtain ⟨hmem, hof, -⟩ := getConnection_eq_some hconn
    dsimp only
    split
    · rename_i hequivalent
      exact hmark ch conn (fun hreadable => hmay hreadable conn hmem (hof ▸ hport) hequivalent) hmay
    · exact ⟨.refl ch, hmay⟩
  | none =>
    dsimp only
    split
    · exact ⟨.refl ch, hmay⟩
    cases (ch.portAt port).creates c (getOrigin port originPort) with
    | none => exact ⟨.refl ch, hmay⟩
    | some localPriority =>
      have hnew : ok ((ch.addConnection port c localPriority).connectionAt ch.connectionCount) := by
        change ok (Function.update ch.connectionAt ch.connectionCount _ ch.connectionCount)
        rw [Function.update_self]
        exact (hP.fresh _ rfl).2
      have hadded := hmark (ch.addConnection port c localPriority) ch.connectionCount (fun _ => hnew)
        fun hreadable => (hmay hreadable).addConnection hP port localPriority
      exact ⟨(Moves.add port c localPriority hconn).trans hadded.1, hadded.2⟩

theorem moves_createConnections (hP : Calm P ok) (now : UInt32) (c : Candidate) (originPort : Option ℕ)
    (readable : Bool) (ch : P2PTransportChannel)
    (hmay : readable = true → MayRevive ok (ch.portsFor originPort) (ch.completeCandidate c) ch) :
    Moves P ch (ch.createConnections now c originPort readable).1 := by
  have hboth : Moves P ch (ch.createConnections now c originPort readable).1 ∧
      (readable = true → MayRevive ok (ch.portsFor originPort) (ch.completeCandidate c)
        (ch.createConnections now c originPort readable).1) := by
    refine createConnections_induct (P := fun ch' => Moves P ch ch' ∧
      (readable = true → MayRevive ok (ch.portsFor originPort) (ch.completeCandidate c) ch'))
        ⟨.refl ch, hmay⟩ ?_ ?_
    · intro ch' port hport hbefore
      have hmade := moves_createConnection hP now hport _ originPort readable ch' hbefore.2
      exact ⟨hbefore.1.trans hmade.1, hmade.2⟩
    · intro ch' c' hbefore
      exact ⟨hbefore.1.trans (.quiet rfl rfl (.refl _)), hbefore.2⟩
  exact hboth.1

theorem moves_connectPort (hP : Calm P ok) (now : UInt32) (port : ℕ) (ch : P2PTransportChannel) :
    Moves P ch (ch.connectPort now port) :=
  (sorting_moves hP now).foldl (fun ch (r : Candidate × Option ℕ) =>
    (moves_createConnection hP now (List.mem_singleton_self port) r.1 r.2 false ch Bool.noConfusion).1) _ _

/-- Every connection that an operation revives is `ok`. -/
def Allows (ok : Connection → Prop) (ch : P2PTransportChannel) : ChannelOp → Prop
  | .unknownAddress _ port address protocol remoteUsername fresh =>
    ∀ c ∈ ch.peerCandidate port address protocol remoteUsername fresh,
      MayRevive ok (ch.portsFor (some port)) (ch.completeCandidate c) ch
  | .connectionPing _ conn _ => ok (ch.connectionAt conn)
  | .connectionResponse _ _ conn => ok (ch.connectionAt conn)
  | _ => True

theorem moves_step (hP : Calm P ok) {op : ChannelOp} (hallows : ch.Allows ok op)
    (hstep : ch.step op = some ch') (hdestroyed : ∀ now conn, op ≠ .connectionDestroyed now conn)
    (hreset : ∀ requested, op ≠ .reset requested) :
    Moves P ch ch' := by
  have hquiet {ch ch' : P2PTransportChannel} (hat : ch'.connectionAt = ch.connectionAt)
      (hcount : ch'.connectionCount = ch.connectionCount) (hlist : ch'.connections = ch.connections) :
      Moves P ch ch' := .quiet hat hcount (hlist ▸ .refl _)
  cases op with
  | setRole role =>
    cases hstep
    rw [setRole]
    split
    · exact .refl ch
    · exact hquiet rfl rfl rfl
  | setTiebreaker tiebreaker =>
    cases hstep
    rw [setTiebreaker]
    split
    · exact .refl ch
    · exact hquiet rfl rfl rfl
  | setIceProtocolType type =>
    cases hstep
    exact hquiet rfl rfl rfl
  | setIceCredentials iceUfrag icePwd =>
    cases hstep
    simp only [setIceCredentials]
    split
    · exact hquiet rfl rfl rfl
    · exact hquiet rfl rfl rfl
  | setRemoteIceCredentials iceUfrag icePwd =>
    cases hstep
    simp only [setRemoteIceCredentials]
    split
    · exact hquiet rfl rfl rfl
    · exact hquiet rfl rfl rfl
  | setRemoteIceMode mode =>
    cases hstep
    exact hquiet rfl rfl rfl
  | connect =>
    cases hstep
    rw [connect]
    split
    · exact .refl ch
    · exact hquiet rfl rfl rfl
  | reset requested => exact absurd rfl (hreset requested)
  | signalingReady =>
    cases hstep
    rw [onSignalingReady]
    split
    · exact hquiet rfl rfl rfl
    · exact .refl ch
  | portReady now port =>
    obtain ⟨-, hsome⟩ := Option.ite_none_left_eq_some.mp hstep
    cases hsome
    have hadded : Moves P ch (ch.addPort port) := hquiet rfl rfl rfl
    exact (hadded.trans (moves_connectPort hP now _ _)).trans ((sorting_moves hP now).sortConnections _)
  | portDestroyed port =>
    obtain ⟨-, rfl⟩ := Runs.of_guard hstep
    exact hquiet rfl rfl rfl
  | unknownAddress now port address protocol remoteUsername fresh =>
    obtain ⟨-, rfl⟩ := Runs.of_guard hstep
    rw [onUnknownAddress]
    cases hc : ch.peerCandidate port address protocol remoteUsername fresh with
    | none => exact .refl ch
    | some c =>
      have hmade := moves_createConnections hP now c (some port) true ch fun _ => hallows c hc
      dsimp only [onPeerCandidate]
      split
      · exact hmade.trans ((sorting_moves hP now).sortConnections _)
      · exact hmade
  | candidate now c =>
    cases hstep
    exact (moves_createConnections hP now c none false ch Bool.noConfusion).trans
      ((sorting_moves hP now).sortConnections _)
  | sort now =>
    obtain ⟨-, rfl⟩ := Runs.of_guard hstep
    exact (sorting_moves hP now).sort ch
  | ping now =>
    cases hstep
    rw [onPing]
    have hupdated := (sorting_moves hP now).updateConnectionStates ch
    cases (ch.updateConnectionStates now).findNextPingableConnection now with
    | none => exact hupdated
    | some conn => exact hupdated.trans (.touch conn _ ⟨rfl, rfl, rfl⟩ (hP.ping now _))
  | connectionData now conn =>
    obtain ⟨-, rfl⟩ := Runs.of_guard hstep
    exact .touch conn _ (Connection.unpruned_onData _ now).toSameEnds (hP.onData now _)
  | connectionPing now conn useCandidate =>
    obtain ⟨-, rfl⟩ := Runs.of_guard hstep
    have hpinged : Moves P ch (ch.withConnection conn (·.onPing now)) :=
      .touch conn _ (Connection.unpruned_onPing _ now).toSameEnds fun _ => hP.onPing now _ hallows
    simp only [onConnectionPing, onUseCandidate]
    split
    · split
      · exact hpinged.trans ((sorting_moves hP now).switchBestConnectionTo _ _)
      · exact hpinged
    · exact hpinged
  | connectionIndication now conn =>
    obtain ⟨-, rfl⟩ := Runs.of_guard hstep
    rw [onConnectionIndication]
    split
    · rename_i hreadable
      exact .touch conn _ (Connection.unpruned_receivedPing _ now).toSameEnds
        (hP.indication now _ hreadable.2)
    · exact .refl ch
  | connectionResponse now elapsed conn =>
    obtain ⟨-, rfl⟩ := Runs.of_guard hstep
    exact .touch conn _ (Connection.unpruned_onRequestResponse _ now elapsed).toSameEnds
      fun _ => hP.onRequestResponse now elapsed _ hallows
  | connectionFailed conn =>
    obtain ⟨-, rfl⟩ := Runs.of_guard hstep
    exact .touch conn _ (Connection.unpruned_onRequestFailed _).toSameEnds (hP.onRequestFailed _)
  | connectionRetry conn =>
    obtain ⟨-, rfl⟩ := Runs.of_guard hstep
    exact .touch conn _ ⟨rfl, rfl, rfl⟩ (hP.requestOver _)
  | connectionConnected conn connected =>
    obtain ⟨-, rfl⟩ := Runs.of_guard hstep
    exact .touch conn _ ⟨rfl, rfl, rfl⟩ (hP.connected _ connected)
  | connectionDestroyed now conn => exact absurd rfl (hdestroyed now conn)

/-! ### The maps of the ports -/

/-- `AddConnection` of the port of a connection. -/
def register (ch : P2PTransportChannel) (map : ℕ → SocketAddress → Option ℕ) (conn : ℕ) :
    ℕ → SocketAddress → Option ℕ :=
  fun port address =>
    if (ch.connectionAt conn).port = port ∧
        (ch.connectionAt conn).remoteCandidate.address = address then
      some conn
    else map port address

/-- `AddConnection` of the ports, for the connections from this one on. -/
def registerFrom (ch : P2PTransportChannel) (first : ℕ) (map : ℕ → SocketAddress → Option ℕ) :
    ℕ → SocketAddress → Option ℕ :=
  (List.range' first (ch.connectionCount - first)).foldl ch.register map

/-- The map of each port has the connections of the port that there are, by their addresses. -/
structure Keyed (ch : P2PTransportChannel) (map : ℕ → SocketAddress → Option ℕ) : Prop where
  nodup : ch.connections.Nodup
  bound : ∀ conn ∈ ch.connections, conn < ch.connectionCount
  entries : ∀ port address conn, map port address = some conn ↔ conn ∈ ch.connections ∧
    (ch.connectionAt conn).port = port ∧ (ch.connectionAt conn).remoteCandidate.address = address

theorem Moves.ends (h : Moves P ch ch') : ch.connectionCount ≤ ch'.connectionCount ∧
    ∀ conn < ch.connectionCount, SameEnds (ch.connectionAt conn) (ch'.connectionAt conn) := by
  induction h with
  | quiet hat hcount _ =>
    refine ⟨Nat.le_of_eq hcount.symm, fun conn _ => ?_⟩
    rw [hat]
    exact .refl _
  | @touch ch touched f hends _ =>
    have hcount : (ch.withConnection touched f).connectionCount = ch.connectionCount := by
      rw [withConnection]
      split <;> rfl
    refine ⟨Nat.le_of_eq hcount.symm, fun conn _ => ?_⟩
    rw [connectionAt_withConnection]
    by_cases hconn : conn = touched
    · subst hconn
      rw [Function.update_self]
      exact hends
    · rw [Function.update_of_ne hconn]
      exact .refl _
  | @add ch port c localPriority _ =>
    refine ⟨Nat.le_succ _, fun conn hconn => ?_⟩
    change SameEnds _ (Function.update ch.connectionAt ch.connectionCount _ conn)
    rw [Function.update_of_ne (Nat.ne_of_lt hconn)]
    exact .refl _
  | trans _ _ ih ih' =>
    exact ⟨ih.1.trans ih'.1,
      fun conn hconn => (ih.2 conn hconn).trans (ih'.2 conn (hconn.trans_le ih.1))⟩

theorem registerFrom_of_eq {first : ℕ} (h : ch.connectionCount = first)
    (map : ℕ → SocketAddress → Option ℕ) : ch.registerFrom first map = map := by
  rw [registerFrom, h, Nat.sub_self]
  rfl

theorem registerFrom_trans {mid : P2PTransportChannel} {first : ℕ}
    (hfirst : first ≤ mid.connectionCount) (h : Moves P mid ch') (map : ℕ → SocketAddress → Option ℕ) :
    ch'.registerFrom mid.connectionCount (mid.registerFrom first map) = ch'.registerFrom first map := by
  obtain ⟨hcount, hends⟩ := h.ends
  have hsame : mid.registerFrom first map =
      (List.range' first (mid.connectionCount - first)).foldl ch'.register map := by
    refine List.foldl_ext _ _ _ fun map conn hconn => ?_
    have hlt : conn < mid.connectionCount := by
      have hmem := List.mem_range'_1.mp hconn
      omega
    funext port address
    change (if (mid.connectionAt conn).port = port ∧
      (mid.connectionAt conn).remoteCandidate.address = address
      then some conn else map port address) =
        if (ch'.connectionAt conn).port = port ∧ (ch'.connectionAt conn).remoteCandidate.address = address
        then some conn else map port address
    rw [(hends conn hlt).port, (hends conn hlt).remoteCandidate]
  have hrange : List.range' first (mid.connectionCount - first) ++
      List.range' mid.connectionCount (ch'.connectionCount - mid.connectionCount) =
        List.range' first (ch'.connectionCount - first) := by
    have happend := @List.range'_append_1 first (mid.connectionCount - first)
      (ch'.connectionCount - mid.connectionCount)
    rwa [Nat.add_sub_cancel' hfirst, show mid.connectionCount - first +
      (ch'.connectionCount - mid.connectionCount) = ch'.connectionCount - first by omega] at happend
  rw [registerFrom, hsame, ← List.foldl_append, hrange]
  rfl

theorem Keyed.addConnection {map : ℕ → SocketAddress → Option ℕ} (h : Keyed ch map) {port : ℕ}
    {c : Candidate} (hfree : ch.getConnection port c.address = none) (localPriority : UInt32) :
    Keyed (ch.addConnection port c localPriority)
      ((ch.addConnection port c localPriority).register map ch.connectionCount) := by
  have hold {conn : ℕ} (hmem : conn ∈ ch.connections) :
      (ch.addConnection port c localPriority).connectionAt conn = ch.connectionAt conn :=
    Function.update_of_ne (Nat.ne_of_lt (h.bound conn hmem)) _ _
  have hnew : ((ch.addConnection port c localPriority).connectionAt ch.connectionCount).port = port ∧
      ((ch.addConnection port c localPriority).connectionAt ch.connectionCount).remoteCandidate.address =
        c.address := by
    change (Function.update ch.connectionAt ch.connectionCount _ ch.connectionCount).port = _ ∧
      (Function.update ch.connectionAt ch.connectionCount _ ch.connectionCount).remoteCandidate.address = _
    rw [Function.update_self]
    exact ⟨rfl, rfl⟩
  have hmem (conn : ℕ) : conn ∈ (ch.addConnection port c localPriority).connections ↔
      conn ∈ ch.connections ∨ conn = ch.connectionCount := by
    change conn ∈ ch.connections ++ [ch.connectionCount] ↔ _
    rw [List.mem_append, List.mem_singleton]
  have hnone : ch.connectionCount ∉ ch.connections := fun hmem => Nat.lt_irrefl _ (h.bound _ hmem)
  refine ⟨?_, fun conn hconn => ?_, fun port' address conn => ?_⟩
  · exact List.nodup_append.mpr ⟨h.nodup, List.nodup_singleton _, fun conn hconn other hother heq =>
      hnone (List.mem_singleton.mp hother ▸ heq ▸ hconn)⟩
  · rcases (hmem conn).mp hconn with hconn | rfl
    · exact (h.bound conn hconn).trans (Nat.lt_succ_self _)
    · exact Nat.lt_succ_self _
  rw [register, hnew.1, hnew.2, hmem]
  by_cases hkey : port = port' ∧ c.address = address
  · obtain ⟨rfl, rfl⟩ := hkey
    rw [if_pos ⟨rfl, rfl⟩, Option.some_inj]
    constructor
    · rintro rfl
      exact ⟨.inr rfl, hnew⟩
    rintro ⟨hconn | rfl, hport, haddress⟩
    · -- the port had no connection to this address
      rw [hold hconn] at hport haddress
      have hfound := List.find?_eq_none.mp hfree conn hconn
      exact absurd (decide_eq_true ⟨hport, haddress⟩) hfound
    · rfl
  rw [if_neg hkey, h.entries]
  constructor
  · rintro ⟨hconn, hof⟩
    rw [hold hconn]
    exact ⟨.inl hconn, hof⟩
  · rintro ⟨hconn | rfl, hof⟩
    · rw [hold hconn] at hof
      exact ⟨hconn, hof⟩
    · rw [hnew.1, hnew.2] at hof
      exact absurd hof hkey

theorem Moves.keyed {map : ℕ → SocketAddress → Option ℕ} (h : Moves P ch ch') (hkeyed : Keyed ch map) :
    Keyed ch' (ch'.registerFrom ch.connectionCount map) := by
  induction h generalizing map with
  | quiet hat hcount hperm =>
    rw [registerFrom_of_eq hcount]
    refine ⟨hperm.nodup_iff.mpr hkeyed.nodup, fun conn hconn => ?_, fun port address conn => ?_⟩
    · rw [hcount]
      exact hkeyed.bound conn (hperm.mem_iff.mp hconn)
    · rw [hkeyed.entries, hperm.mem_iff, hat]
  | @touch ch touched f hends hkeeps =>
    have hmoves : Moves P ch (ch.withConnection touched f) := .touch touched f hends hkeeps
    have hlist : (ch.withConnection touched f).connections = ch.connections ∧
        (ch.withConnection touched f).connectionCount = ch.connectionCount := by
      rw [withConnection]
      split <;> exact ⟨rfl, rfl⟩
    rw [registerFrom_of_eq hlist.2]
    refine ⟨hlist.1 ▸ hkeyed.nodup, fun conn hconn => ?_, fun port address conn => ?_⟩
    · rw [hlist.1] at hconn
      rw [hlist.2]
      exact hkeyed.bound conn hconn
    · rw [hkeyed.entries, hlist.1]
      refine and_congr_right fun hconn => ?_
      have hsame := hmoves.ends.2 conn (hkeyed.bound conn hconn)
      rw [hsame.port, hsame.remoteCandidate]
  | @add ch port c localPriority hfree =>
    have hone : (ch.addConnection port c localPriority).registerFrom ch.connectionCount map =
        (ch.addConnection port c localPriority).register map ch.connectionCount := by
      have hcount : (ch.addConnection port c localPriority).connectionCount - ch.connectionCount = 1 :=
        Nat.add_sub_cancel_left ..
      rw [registerFrom, hcount]
      rfl
    rw [hone]
    exact hkeyed.addConnection hfree localPriority
  | trans h h' ih ih' =>
    rw [← registerFrom_trans h.ends.1 h' map]
    exact ih' (ih hkeyed)

theorem Moves.all (hP : Calm P ok) (h : Moves P ch ch') (hall : ∀ conn, P (ch.connectionAt conn)) :
    ∀ conn, P (ch'.connectionAt conn) := by
  induction h with
  | quiet hat _ _ =>
    rw [hat]
    exact hall
  | @touch ch touched f _ hkeeps =>
    intro conn
    rw [connectionAt_withConnection]
    by_cases hconn : conn = touched
    · subst hconn
      rw [Function.update_self]
      exact hkeeps (hall conn)
    · rw [Function.update_of_ne hconn]
      exact hall conn
  | @add ch port c localPriority _ =>
    intro conn
    change P (Function.update ch.connectionAt ch.connectionCount _ conn)
    by_cases hconn : conn = ch.connectionCount
    · subst hconn
      rw [Function.update_self]
      exact (hP.fresh _ rfl).1
    · rw [Function.update_of_ne hconn]
      exact hall conn
  | trans _ _ ih ih' => exact ih' (ih hall)

end P2PTransportChannel

/-! ### A channel with the maps of its ports -/

open P2PTransportChannel (Keyed Allows Moves moves_step calm_true calm_settled)

/-- A channel, and `connections_` of each of its ports, with the addresses compared as `getConnection` does. -/
structure MappedChannel where
  channel : P2PTransportChannel
  maps : ℕ → SocketAddress → Option ℕ

/-- What comes to a channel, or the connections are shaken. -/
inductive PortOp
  | channel (op : ChannelOp)
  /-- `Connection::Destroy`. -/
  | destroy (conn : ℕ)

namespace MappedChannel

/-- A channel that was just made. -/
def create (component : ℤ) : MappedChannel := ⟨.create component, fun _ _ => none⟩

/-- `Port::OnConnectionDestroyed`: the address of the connection is looked up. -/
def erase (conn : ℕ) (m : MappedChannel) : ℕ → SocketAddress → Option ℕ :=
  fun port address =>
    if (m.channel.connectionAt conn).port = port ∧
        (m.channel.connectionAt conn).remoteCandidate.address = address then none
    else m.maps port address

/-- A connection that is deleted is removed from the map of its port, a reset takes the ports away, and any
other operation adds the connections that it makes. -/
def step (m : MappedChannel) : PortOp → Option MappedChannel
  | .destroy conn =>
    if conn ∈ m.channel.connections then
      some { m with channel := m.channel.withConnection conn (·.destroy) }
    else none
  | .channel (.connectionDestroyed now conn) =>
    (m.channel.step (.connectionDestroyed now conn)).map fun ch => ⟨ch, m.erase conn⟩
  | .channel (.reset connectRequested) =>
    (m.channel.step (.reset connectRequested)).map fun ch => ⟨ch, fun _ _ => none⟩
  | .channel op =>
    (m.channel.step op).map fun ch => ⟨ch, ch.registerFrom m.channel.connectionCount m.maps⟩

/-! ### What is expected -/

/-- Where `MSG_DELETE` can be delivered to a connection, the connection is dead. -/
def DeletesDead (m : MappedChannel) : Prop :=
  ∀ now conn m', m.step (.channel (.connectionDestroyed now conn)) = some m' →
    (m.channel.connectionAt conn).Dead

/-- Where `MSG_DELETE` can be delivered, it removes the connection, and no other, from the map of its port and
from the channel. -/
def DeletesOwn (m : MappedChannel) : Prop :=
  ∀ now conn m', m.step (.channel (.connectionDestroyed now conn)) = some m' →
    (∃ port address, m.maps port address = some conn) ∧
      (∀ port address, m'.maps port address =
        if m.maps port address = some conn then none else m.maps port address) ∧
      m'.channel.connections = m.channel.connections.filter (· != conn)

/-- A connection that is revived is not to be deleted. -/
def Spares (m : MappedChannel) : PortOp → Prop
  | .channel op => m.channel.Allows (fun c => c.deletePosted = false) op
  | .destroy _ => True

/-- A ping or a response that comes to a connection that is to be deleted. -/
def Revives (m : MappedChannel) : PortOp → Prop
  | .channel (.connectionPing _ conn _) => (m.channel.connectionAt conn).deletePosted = true
  | .channel (.connectionResponse _ _ conn) => (m.channel.connectionAt conn).deletePosted = true
  | _ => False

/-! ### Runs -/

variable {m m' : MappedChannel} {op : PortOp}

theorem keyed_create (component : ℤ) : Keyed (create component).channel (create component).maps where
  nodup := List.nodup_nil
  bound _ h := absurd h List.not_mem_nil
  entries _ _ _ := ⟨fun h => absurd h (Option.some_ne_none _).symm,
    fun h => absurd h.1 List.not_mem_nil⟩

theorem step_cases (hstep : m.step op = some m') :
    (∃ now conn, op = .channel (.connectionDestroyed now conn) ∧
      m.channel.step (.connectionDestroyed now conn) = some m'.channel ∧ m'.maps = m.erase conn) ∨
    (m'.channel.connectionAt = m.channel.connectionAt ∧ m'.channel.connections = [] ∧
      m'.maps = fun _ _ => none) ∨
    (∀ P ok, P2PTransportChannel.Calm P ok → (∀ chOp, op = .channel chOp → m.channel.Allows ok chOp) →
      Moves P m.channel m'.channel) ∧
      m'.maps = m'.channel.registerFrom m.channel.connectionCount m.maps := by
  cases op with
  | destroy conn =>
    obtain ⟨-, rfl⟩ := Runs.of_guard hstep
    have hends (c : Connection) : Connection.SameEnds c c.destroy :=
      ((Connection.unpruned_setReadState c _).trans (Connection.unpruned_setWriteState _ _)).toSameEnds
    have hcount : (m.channel.withConnection conn (·.destroy)).connectionCount =
      m.channel.connectionCount := by
      rw [P2PTransportChannel.withConnection]
      split <;> rfl
    exact .inr (.inr ⟨fun P ok hP _ => .touch conn _ (hends _) (hP.destroy _),
      (P2PTransportChannel.registerFrom_of_eq hcount _).symm⟩)
  | channel op =>
    -- a deletion and a reset have their own maps
    have hother (hdestroyed : ∀ now conn, op ≠ .connectionDestroyed now conn)
        (hreset : ∀ requested, op ≠ .reset requested)
        (hmapped : (m.channel.step op).map (fun ch =>
          (⟨ch, ch.registerFrom m.channel.connectionCount m.maps⟩ : MappedChannel)) = some m') :
        (∀ P ok, P2PTransportChannel.Calm P ok →
          (∀ chOp, PortOp.channel op = .channel chOp → m.channel.Allows ok chOp) →
            Moves P m.channel m'.channel) ∧
          m'.maps = m'.channel.registerFrom m.channel.connectionCount m.maps := by
      obtain ⟨ch, hch, rfl⟩ := Option.map_eq_some_iff.mp hmapped
      exact ⟨fun P ok hP hallows => moves_step hP (hallows op rfl) hch hdestroyed hreset, rfl⟩
    cases op with
    | connectionDestroyed now conn =>
      obtain ⟨ch, hch, rfl⟩ := Option.map_eq_some_iff.mp hstep
      exact .inl ⟨now, conn, rfl, hch, rfl⟩
    | reset connectRequested =>
      have hmapped : some (⟨m.channel.reset connectRequested, fun _ _ => none⟩ : MappedChannel) =
          some m' := hstep
      cases hmapped
      refine .inr (.inl ?_)
      cases connectRequested with
      | true => exact ⟨rfl, rfl, rfl⟩
      | false => exact ⟨rfl, rfl, rfl⟩
    | _ => exact .inr (.inr (hother (fun _ _ h => by cases h) (fun _ h => by cases h) hstep))

theorem onConnectionDestroyed_spec {ch ch' : P2PTransportChannel} {now : UInt32} {conn : ℕ}
    (hstep : ch.step (.connectionDestroyed now conn) = some ch') : conn ∈ ch.connections ∧
      ch'.connections = ch.connections.erase conn ∧ ch'.connectionAt = ch.connectionAt ∧
      ch'.connectionCount = ch.connectionCount := by
  obtain ⟨hmem, rfl⟩ := Runs.of_guard hstep
  refine ⟨hmem.1, ?_⟩
  rw [P2PTransportChannel.onConnectionDestroyed]
  split
  · exact ⟨rfl, rfl, rfl⟩
  · exact ⟨rfl, rfl, rfl⟩

theorem keyed_erase (h : Keyed m.channel m.maps) {ch : P2PTransportChannel} {now : UInt32} {conn : ℕ}
    (hstep : m.channel.step (.connectionDestroyed now conn) = some ch) : Keyed ch (m.erase conn) := by
  obtain ⟨hmem, hlist, hat, hcount⟩ := onConnectionDestroyed_spec hstep
  have hleft (other : ℕ) : other ∈ ch.connections ↔ other ≠ conn ∧ other ∈ m.channel.connections := by
    rw [hlist, h.nodup.mem_erase_iff]
  refine ⟨hlist ▸ h.nodup.erase conn, fun other hother => ?_, fun port address other => ?_⟩
  · rw [hcount]
    exact h.bound other ((hleft other).mp hother).2
  rw [erase, hleft, hat]
  by_cases hkey : (m.channel.connectionAt conn).port = port ∧
      (m.channel.connectionAt conn).remoteCandidate.address = address
  · rw [if_pos hkey]
    refine ⟨fun hnone => absurd hnone (Option.some_ne_none _).symm, fun hother => ?_⟩
    -- the entry at the key of the connection is its own
    have hown := (h.entries port address conn).mpr ⟨hmem, hkey⟩
    have hsame := (h.entries port address other).mpr ⟨hother.1.2, hother.2⟩
    exact absurd (Option.some_inj.mp (hsame.symm.trans hown)) hother.1.1
  rw [if_neg hkey, h.entries]
  constructor
  · rintro ⟨hother, hof⟩
    refine ⟨⟨?_, hother⟩, hof⟩
    rintro rfl
    exact hkey hof
  · rintro ⟨⟨-, hother⟩, hof⟩
    exact ⟨hother, hof⟩

theorem keyed_step (h : Keyed m.channel m.maps) (hstep : m.step op = some m') :
    Keyed m'.channel m'.maps := by
  rcases step_cases hstep with ⟨now, conn, -, hch, hmaps⟩ | ⟨-, hnil, hmaps⟩ | ⟨hmoves, hmaps⟩
  · rw [hmaps]
    exact keyed_erase h hch
  · rw [hmaps]
    refine ⟨hnil ▸ List.nodup_nil, fun conn hconn => ?_, fun port address conn => ?_⟩
    · rw [hnil] at hconn
      exact absurd hconn List.not_mem_nil
    · rw [hnil]
      exact ⟨fun hnone => absurd hnone (Option.some_ne_none _).symm,
        fun hconn => absurd hconn.1 List.not_mem_nil⟩
  rw [hmaps]
  have hall (chOp : ChannelOp) : m.channel.Allows (fun _ => True) chOp := by
    cases chOp with
    | unknownAddress => exact fun _ _ _ _ _ _ => trivial
    | _ => exact trivial
  exact (hmoves _ _ calm_true fun chOp _ => hall chOp).keyed h

theorem keyed_of_run (component : ℤ) {ops : List PortOp} (hrun : Runs.run step (create component) ops = some m) :
    Keyed m.channel m.maps :=
  Runs.invariant_of_step (fun _ _ _ h hstep => keyed_step h hstep) (keyed_create component) hrun

theorem settled_step (h : ∀ conn, (m.channel.connectionAt conn).Settled) (hspares : m.Spares op)
    (hstep : m.step op = some m') (conn : ℕ) : (m'.channel.connectionAt conn).Settled := by
  rcases step_cases hstep with ⟨now, other, -, hch, -⟩ | ⟨hat, -, -⟩ | ⟨hmoves, -⟩
  · rw [(onConnectionDestroyed_spec hch).2.2.1]
    exact h conn
  · rw [hat]
    exact h conn
  · refine (hmoves _ _ calm_settled ?_).all calm_settled h conn
    rintro chOp rfl
    exact hspares

theorem deletesOwn_of_keyed (h : Keyed m.channel m.maps) : m.DeletesOwn := by
  intro now conn m' hstep
  obtain ⟨ch, hch, rfl⟩ := Option.map_eq_some_iff.mp hstep
  obtain ⟨hmem, hlist, -, -⟩ := onConnectionDestroyed_spec hch
  have hown := (h.entries _ _ conn).mpr ⟨hmem, rfl, rfl⟩
  refine ⟨⟨_, _, hown⟩, fun port address => ?_, hlist.trans (h.nodup.erase_eq_filter conn)⟩
  have hkey : ((m.channel.connectionAt conn).port = port ∧
      (m.channel.connectionAt conn).remoteCandidate.address = address) ↔
        m.maps port address = some conn := by
    rw [h.entries]
    exact ⟨fun hof => ⟨hmem, hof⟩, And.right⟩
  exact if_congr hkey rfl rfl

theorem deletesDead_of_settled (h : ∀ conn, (m.channel.connectionAt conn).Settled) : m.DeletesDead := by
  intro now conn m' hstep
  obtain ⟨ch, hch, -⟩ := Option.map_eq_some_iff.mp hstep
  obtain ⟨hposted, -⟩ := Option.ite_none_right_eq_some.mp hch
  exact h conn hposted.2

theorem not_deletesDead_of_alive (conn : ℕ) (hmem : conn ∈ m.channel.connections)
    (hposted : (m.channel.connectionAt conn).deletePosted = true)
    (halive : ¬(m.channel.connectionAt conn).Dead) :
    ¬m.DeletesDead := by
  intro hdead
  have hstep : m.channel.step (.connectionDestroyed 0 conn) =
      some (m.channel.onConnectionDestroyed 0 conn) :=
    if_pos ⟨hmem, hposted⟩
  exact halive (hdead 0 conn _ (Option.map_eq_some_iff.mpr ⟨_, hstep, rfl⟩))

theorem readState_switchBestConnectionTo (now : UInt32) (best : Option ℕ) (ch : P2PTransportChannel)
    (conn : ℕ) : ((ch.switchBestConnectionTo now best).connectionAt conn).readState =
        (ch.connectionAt conn).readState ∧
      ((ch.switchBestConnectionTo now best).connectionAt conn).deletePosted =
        (ch.connectionAt conn).deletePosted := by
  rw [P2PTransportChannel.switchBestConnectionTo.eq_def]
  split
  · exact ⟨rfl, rfl⟩
  rename_i best
  dsimp only
  split
  · rw [P2PTransportChannel.connectionAt_withConnection]
    by_cases hconn : conn = best
    · subst hconn
      rw [Function.update_self]
      exact ⟨rfl, rfl⟩
    · rw [Function.update_of_ne hconn]
      exact ⟨rfl, rfl⟩
  · exact ⟨rfl, rfl⟩

theorem onConnectionPing_spec (now : UInt32) (conn : ℕ) (useCandidate : Bool) (ch : P2PTransportChannel) :
    (ch.onConnectionPing now conn useCandidate).connections = ch.connections ∧
      ((ch.onConnectionPing now conn useCandidate).connectionAt conn).readState = .readable ∧
      ((ch.onConnectionPing now conn useCandidate).connectionAt conn).deletePosted =
        (ch.connectionAt conn).deletePosted := by
  set pinged := ch.withConnection conn (·.onPing now) with hpinged
  have hat : pinged.connectionAt conn = (ch.connectionAt conn).onPing now := by
    rw [hpinged, P2PTransportChannel.connectionAt_withConnection, Function.update_self]
  have hbase : pinged.connections = ch.connections ∧ (pinged.connectionAt conn).readState = .readable ∧
      (pinged.connectionAt conn).deletePosted = (ch.connectionAt conn).deletePosted := by
    rw [hat]
    exact ⟨(P2PTransportChannel.steady_withConnection
      (fun c => (Connection.unpruned_onPing c now).toSameEnds) conn ch).connections,
        Connection.readState_onPing now _, Connection.deletePosted_onPing now _⟩
  have hsteady := (P2PTransportChannel.switchBestConnectionTo_spec now (some conn) pinged).1
  have hkept := readState_switchBestConnectionTo now (some conn) pinged conn
  have hswitched : (pinged.switchBestConnectionTo now (some conn)).connections = ch.connections ∧
      ((pinged.switchBestConnectionTo now (some conn)).connectionAt conn).readState = .readable ∧
      ((pinged.switchBestConnectionTo now (some conn)).connectionAt conn).deletePosted =
        (ch.connectionAt conn).deletePosted :=
    ⟨hsteady.connections.trans hbase.1, hkept.1.trans hbase.2.1, hkept.2.trans hbase.2.2⟩
  simp only [P2PTransportChannel.onConnectionPing, P2PTransportChannel.onUseCandidate, ← hpinged]
  split
  · split
    · exact hswitched
    · exact hbase
  · exact hbase

theorem not_deletesDead_of_revives (hrevives : m.Revives op)
    (hstep : m.step op = some m') : ¬m'.DeletesDead := by
  cases op with
  | destroy conn => exact hrevives.elim
  | channel op =>
    cases op with
    | connectionPing now conn useCandidate =>
      obtain ⟨ch, hch, rfl⟩ := Option.map_eq_some_iff.mp hstep
      obtain ⟨hmem, rfl⟩ := Runs.of_guard hch
      obtain ⟨hlist, hreadable, hposted⟩ := onConnectionPing_spec now conn useCandidate m.channel
      exact not_deletesDead_of_alive conn (hlist ▸ hmem) (hposted.trans hrevives)
        (Connection.not_dead_of_readable hreadable)
    | connectionResponse now elapsed conn =>
      obtain ⟨ch, hch, rfl⟩ := Option.map_eq_some_iff.mp hstep
      obtain ⟨hmem, rfl⟩ := Runs.of_guard hch
      have hat : (m.channel.withConnection conn (·.onRequestResponse now elapsed)).connectionAt conn =
          (m.channel.connectionAt conn).onRequestResponse now elapsed := by
        rw [P2PTransportChannel.connectionAt_withConnection, Function.update_self]
      have hlist : (m.channel.withConnection conn (·.onRequestResponse now elapsed)).connections =
          m.channel.connections :=
        (P2PTransportChannel.steady_withConnection
          (fun c => (Connection.unpruned_onRequestResponse c now elapsed).toSameEnds) conn m.channel).connections
      have hwritable := Connection.writeState_onRequestResponse now elapsed (m.channel.connectionAt conn)
      refine not_deletesDead_of_alive conn (hlist ▸ hmem.1) ?_ ?_
      · rw [hat, Connection.deletePosted_onRequestResponse]
        exact hrevives
      · rw [hat]
        exact fun hdead => WriteState.noConfusion (hwritable.symm.trans hdead.2)
    | _ => exact hrevives.elim

/-! ### The connections that are deleted -/

/-- In every run a connection that is deleted takes out its own entry and itself, and nothing else. If none that
is to be deleted is revived, only dead ones are deleted; a ping or a response for one makes it one that lives
and is deleted. -/
theorem deletesDead_of_run (component : ℤ) (ops : List PortOp) (m : MappedChannel)
    (hrun : Runs.run step (create component) ops = some m) : m.DeletesOwn ∧
      (Runs.Admissible step Spares (create component) ops → m.DeletesDead) ∧
      ∀ op m', m.Revives op → m.step op = some m' → ¬m'.DeletesDead := by
  refine ⟨deletesOwn_of_keyed (keyed_of_run component hrun), fun hspares => ?_, fun op m' =>
      not_deletesDead_of_revives⟩
  have hcreated (conn : ℕ) : ((create component).channel.connectionAt conn).Settled :=
    Connection.settled_of_not_posted rfl
  have hsettled : ∀ conn, (m.channel.connectionAt conn).Settled :=
    Runs.invariant (P := fun m : MappedChannel => ∀ conn, (m.channel.connectionAt conn).Settled)
      (fun _ _ _ h hok hstep => settled_step h hok hstep) hcreated hspares hrun
  exact deletesDead_of_settled hsettled

/-- A connection that has sent a ping fails. -/
def failure : List PortOp :=
  [.setRole .controlling, .setIceCredentials "ufrag" "password", .connect, .signalingReady,
    .portReady 0 P2PTransportChannel.openPort, .candidate 0 (P2PTransportChannel.candidateOf 30),
    .ping 1000, .connectionFailed 0].map .channel

theorem exists_failed : ∃ m, Runs.run step (create 1) failure = some m ∧
    Runs.Admissible step Spares (create 1) failure ∧ 0 ∈ m.channel.connections ∧
    (m.channel.connectionAt 0).deletePosted = true := by
  have hchecked : ((Runs.run step (create 1) failure).any fun m => decide
      (0 ∈ m.channel.connections ∧ (m.channel.connectionAt 0).deletePosted = true)) = true := by
    decide +kernel
  obtain ⟨m, hrun, hfacts⟩ := (Option.any_eq_true _ _).mp hchecked
  have hspares : Runs.Admissible step Spares (create 1) failure :=
    ⟨trivial, fun _ _ => ⟨trivial, fun _ _ => ⟨trivial, fun _ _ => ⟨trivial, fun _ _ => ⟨trivial,
      fun _ _ =>
      ⟨trivial, fun _ _ => ⟨trivial, fun _ _ => ⟨trivial, fun _ _ => trivial⟩⟩⟩⟩⟩⟩⟩⟩
  exact ⟨m, hrun, hspares, of_decide_eq_true hfacts⟩

theorem deletesDead_of_run_failure : ∃ m, Runs.run step (create 1) failure = some m ∧ m.DeletesOwn ∧
    m.DeletesDead ∧ ∀ m', m.step (.channel (.connectionPing 1010 0 false)) = some m' → ¬m'.DeletesDead := by
  obtain ⟨m, hrun, hspares, -, hposted⟩ := exists_failed
  obtain ⟨hown, hdead, hrevived⟩ := deletesDead_of_run 1 failure m hrun
  exact ⟨m, hrun, hown, hdead hspares, fun m' => hrevived _ m' hposted⟩

/-- A ping that comes to a connection that failed makes it readable, and the connection is deleted.
-/
theorem not_deletesDead_late_ping : ¬ ∀ (component : ℤ) (ops : List PortOp) (m : MappedChannel),
    Runs.run step (create component) ops = some m → m.DeletesDead ∧ m.DeletesOwn := by
  intro hall
  obtain ⟨m, hrun, -, hmem, hposted⟩ := exists_failed
  obtain ⟨late, hstep⟩ : ∃ late, m.step (.channel (.connectionPing 1010 0 false)) = some late :=
    ⟨_, Option.map_eq_some_iff.mpr ⟨_, if_pos hmem, rfl⟩⟩
  have hlate : Runs.run step (create 1) (failure ++ [.channel (.connectionPing 1010 0 false)]) =
      some late := by
    rw [Runs.run_append, hrun]
    exact congrArg (fun o => o.bind some) hstep
  have hrevives : m.Revives (.channel (.connectionPing 1010 0 false)) := hposted
  exact not_deletesDead_of_revives hrevives hstep (hall 1 _ late hlate).1

end MappedChannel

end Synciga.P2p
