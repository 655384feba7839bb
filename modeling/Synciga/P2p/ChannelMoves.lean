import Synciga.Internal.Runs
import Synciga.P2p.TransportChannel

/-!
# What the operations of a channel leave alone

Most of what happens to a channel happens to single connections. It leaves the choice among them alone, and each
keeps its port and its remote candidate. Connections are made one at a time.

## Main definitions

* `Steady`, `Unpruned`, `SameEnds`, `Grown` — what stays
* `Sorting` — an operation that has the connections sorted
-/

namespace Synciga.P2p

/-! ### What happens to a connection -/

namespace Connection

/-- What a connection is made with. -/
structure SameEnds (c d : Connection) : Prop where
  port : d.port = c.port
  localPriority : d.localPriority = c.localPriority
  remoteCandidate : d.remoteCandidate = c.remoteCandidate

theorem SameEnds.refl (c : Connection) : SameEnds c c := ⟨rfl, rfl, rfl⟩

theorem SameEnds.trans {c d e : Connection} (h : SameEnds c d) (h' : SameEnds d e) : SameEnds c e where
  port := h'.port.trans h.port
  localPriority := h'.localPriority.trans h.localPriority
  remoteCandidate := h'.remoteCandidate.trans h.remoteCandidate

/-- The ends and whether the connection is pruned. -/
structure Unpruned (c d : Connection) : Prop extends SameEnds c d where
  pruned : d.pruned = c.pruned

theorem Unpruned.refl (c : Connection) : Unpruned c c := ⟨.refl c, rfl⟩

theorem Unpruned.trans {c d e : Connection} (h : Unpruned c d) (h' : Unpruned d e) : Unpruned c e :=
  ⟨h.toSameEnds.trans h'.toSameEnds, h'.pruned.trans h.pruned⟩

variable (c : Connection)

theorem unpruned_checkTimeout : Unpruned c c.checkTimeout := by
  rw [checkTimeout]
  split_ifs <;> exact ⟨⟨rfl, rfl, rfl⟩, rfl⟩

theorem unpruned_setReadState (value : ReadState) : Unpruned c (c.setReadState value) := by
  rw [setReadState]
  split_ifs
  · exact .refl c
  · obtain ⟨⟨hport, hpriority, hcandidate⟩, hpruned⟩ := unpruned_checkTimeout { c with readState := value }
    exact ⟨⟨hport, hpriority, hcandidate⟩, hpruned⟩

theorem unpruned_setWriteState (value : WriteState) : Unpruned c (c.setWriteState value) := by
  rw [setWriteState]
  split_ifs
  · exact .refl c
  · obtain ⟨⟨hport, hpriority, hcandidate⟩, hpruned⟩ := unpruned_checkTimeout { c with writeState := value }
    exact ⟨⟨hport, hpriority, hcandidate⟩, hpruned⟩

@[simp]
theorem writeState_checkTimeout : c.checkTimeout.writeState = c.writeState := by
  rw [checkTimeout]
  split_ifs <;> rfl

@[simp]
theorem writeState_setWriteState (value : WriteState) : (c.setWriteState value).writeState = value := by
  rw [setWriteState]
  split_ifs with h
  · exact h.symm
  · rw [writeState_checkTimeout]

variable (now : UInt32)

theorem unpruned_updateState : Unpruned c (c.updateState now) := by
  have hread : Unpruned c (if c.readState = .readable ∧ c.lastPingReceived + CONNECTION_READ_TIMEOUT ≤ now ∧
      c.lastDataReceived + CONNECTION_READ_TIMEOUT ≤ now then c.setReadState .timeout else c) := by
    split_ifs
    · exact unpruned_setReadState c _
    · exact .refl c
  have hset (d : Connection) (value : WriteState) (p : Prop) [Decidable p] (h : Unpruned c d) :
      Unpruned c (if p then d.setWriteState value else d) := by
    split_ifs
    · exact h.trans (unpruned_setWriteState d _)
    · exact h
  exact hset _ _ _ (hset _ _ _ hread)

theorem unpruned_receivedPing : Unpruned c (c.receivedPing now) := by
  obtain ⟨⟨hport, hpriority, hcandidate⟩, hpruned⟩ :=
    unpruned_setReadState { c with lastPingReceived := now } .readable
  exact ⟨⟨hport, hpriority, hcandidate⟩, hpruned⟩

theorem unpruned_revive : Unpruned c c.revive := by
  rw [revive]
  split_ifs
  · exact unpruned_setWriteState c _
  · exact .refl c

theorem unpruned_onPing : Unpruned c (c.onPing now) :=
  (unpruned_receivedPing c now).trans (unpruned_revive _)

theorem unpruned_onData : Unpruned c (c.onData now) := by
  rw [onData]
  split_ifs
  · obtain ⟨⟨hport, hpriority, hcandidate⟩, hpruned⟩ := unpruned_revive { c with lastDataReceived := now }
    exact ⟨⟨hport, hpriority, hcandidate⟩, hpruned⟩
  · exact .refl c

theorem unpruned_onRequestResponse (now elapsed : UInt32) : Unpruned c (c.onRequestResponse now elapsed) := by
  have hset : Unpruned c { c.requestOver.setWriteState .writable with state := .succeeded } := by
    obtain ⟨⟨hport, hpriority, hcandidate⟩, hpruned⟩ := unpruned_setWriteState c.requestOver .writable
    exact ⟨⟨hport, hpriority, hcandidate⟩, hpruned⟩
  rw [onRequestResponse]
  split_ifs
  · obtain ⟨⟨hport, hpriority, hcandidate⟩, hpruned⟩ := hset.trans (unpruned_receivedPing _ now)
    exact ⟨⟨hport, hpriority, hcandidate⟩, hpruned⟩
  · exact ⟨⟨hset.port, hset.localPriority, hset.remoteCandidate⟩, hset.pruned⟩

theorem unpruned_onRequestFailed : Unpruned c c.onRequestFailed := by
  obtain ⟨⟨hport, hpriority, hcandidate⟩, hpruned⟩ :=
    unpruned_setWriteState { c.requestOver with state := .failed } .timeout
  exact ⟨⟨hport, hpriority, hcandidate⟩, hpruned⟩

/-- A connection that was pruned before is left alone, and a connection that is pruned now is not writable. -/
theorem prune_cases : c.prune = c ∧ c.pruned = true ∨
    c.pruned = false ∧ c.prune.pruned = true ∧ c.prune.writeState = .timeout ∧ SameEnds c c.prune := by
  rw [prune]
  split_ifs with h
  · exact Or.inl ⟨rfl, h⟩
  · have hset := unpruned_setWriteState { c with pruned := true, requests := 0 } .timeout
    exact Or.inr ⟨Bool.eq_false_of_not_eq_true h, hset.pruned, writeState_setWriteState _ _,
      ⟨hset.port, hset.localPriority, hset.remoteCandidate⟩⟩

theorem sameEnds_prune : SameEnds c c.prune := by
  rcases prune_cases c with ⟨heq, -⟩ | ⟨-, -, -, h⟩
  · rw [heq]
    exact .refl c
  · exact h

end Connection

open Connection (SameEnds Unpruned)

namespace P2PTransportChannel

variable {ch ch' : P2PTransportChannel}

/-! ### What connections and their making leave alone -/

/-- The choice among the connections is not touched, and each connection keeps its ends. -/
structure Steady (ch ch' : P2PTransportChannel) : Prop where
  portAt : ch'.portAt = ch.portAt
  connections : ch'.connections = ch.connections
  bestConnection : ch'.bestConnection = ch.bestConnection
  wasWritable : ch'.wasWritable = ch.wasWritable
  writable : ch'.writable = ch.writable
  ends : ∀ conn, SameEnds (ch.connectionAt conn) (ch'.connectionAt conn)

namespace Steady

theorem refl (ch : P2PTransportChannel) : Steady ch ch := ⟨rfl, rfl, rfl, rfl, rfl, fun _ => .refl _⟩

theorem trans {ch'' : P2PTransportChannel} (h : Steady ch ch') (h' : Steady ch' ch'') : Steady ch ch'' where
  portAt := h'.portAt.trans h.portAt
  connections := h'.connections.trans h.connections
  bestConnection := h'.bestConnection.trans h.bestConnection
  wasWritable := h'.wasWritable.trans h.wasWritable
  writable := h'.writable.trans h.writable
  ends := fun conn => (h.ends conn).trans (h'.ends conn)

theorem port (h : Steady ch ch') (conn : ℕ) : (ch'.pair conn).port = (ch.pair conn).port := by
  rw [pair, pair, h.portAt, (h.ends conn).port]

theorem network (h : Steady ch ch') (conn : ℕ) : ch'.network conn = ch.network conn := by
  rw [P2PTransportChannel.network, P2PTransportChannel.network, h.port]

theorem priority (h : Steady ch ch') (conn : ℕ) : (ch'.pair conn).priority = (ch.pair conn).priority := by
  have hends := h.ends conn
  rw [Pair.priority, Pair.priority, h.port]
  simp only [pair, hends.localPriority, hends.remoteCandidate]
  rfl

theorem generation (h : Steady ch ch') (conn : ℕ) : (ch'.pair conn).generation = (ch.pair conn).generation := by
  have hends := h.ends conn
  rw [Pair.generation, Pair.generation, h.port]
  simp only [pair, hends.remoteCandidate]

theorem compare (h : Steady ch ch') (a b : ℕ) :
    compareConnectionCandidates (ch'.pair a) (ch'.pair b) =
      compareConnectionCandidates (ch.pair a) (ch.pair b) := by
  simp only [compareConnectionCandidates, h.priority, h.generation]

theorem getBestConnectionOnNetwork (h : Steady ch ch') (network : ℕ) :
    ch'.getBestConnectionOnNetwork network = ch.getBestConnectionOnNetwork network := by
  simp only [P2PTransportChannel.getBestConnectionOnNetwork, h.network, h.connections, h.bestConnection]

theorem foldl {α : Type} {f : P2PTransportChannel → α → P2PTransportChannel}
    (h : ∀ ch a, Steady ch (f ch a)) (l : List α) : Steady ch (l.foldl f ch) := by
  induction l generalizing ch with
  | nil => exact .refl ch
  | cons a l ih => exact (h ch a).trans ih

end Steady

theorem connectionAt_withConnection (conn : ℕ) (f : Connection → Connection) (ch : P2PTransportChannel) :
    (ch.withConnection conn f).connectionAt =
      Function.update ch.connectionAt conn (f (ch.connectionAt conn)) := by
  rw [withConnection]
  split_ifs <;> rfl

theorem steady_withConnection {f : Connection → Connection} (hf : ∀ c, SameEnds c (f c)) (conn : ℕ)
    (ch : P2PTransportChannel) : Steady ch (ch.withConnection conn f) := by
  have hends : ∀ i, SameEnds (ch.connectionAt i)
      (Function.update ch.connectionAt conn (f (ch.connectionAt conn)) i) := by
    intro i
    rcases eq_or_ne i conn with rfl | hne
    · rw [Function.update_self]
      exact hf _
    · rw [Function.update_of_ne hne]
      exact .refl _
  rw [withConnection]
  split_ifs <;> exact ⟨rfl, rfl, rfl, rfl, rfl, hends⟩

variable (now : UInt32)

theorem steady_updateConnectionStates (ch : P2PTransportChannel) :
    Steady ch (ch.updateConnectionStates now) :=
  Steady.foldl (fun ch conn =>
    steady_withConnection (fun c => (Connection.unpruned_updateState c now).toSameEnds) conn ch) _

theorem kept_updateConnectionStates {β : Type} {f : Connection → β}
    (hf : ∀ c : Connection, f (c.updateState now) = f c) (ch : P2PTransportChannel) (conn : ℕ) :
    f ((ch.updateConnectionStates now).connectionAt conn) = f (ch.connectionAt conn) := by
  refine List.foldlRecOn _ _
    (motive := fun ch' : P2PTransportChannel => f (ch'.connectionAt conn) = f (ch.connectionAt conn)) rfl ?_
  intro ch' h a _
  rw [connectionAt_withConnection]
  rcases eq_or_ne conn a with rfl | hne
  · rw [Function.update_self, hf, h]
  · rw [Function.update_of_ne hne, h]

/-- Connections may be added, and the choice among them is not touched. -/
structure Grown (ch ch' : P2PTransportChannel) : Prop where
  connections : ch.connections ⊆ ch'.connections
  bestConnection : ch'.bestConnection = ch.bestConnection
  wasWritable : ch'.wasWritable = ch.wasWritable
  writable : ch'.writable = ch.writable

theorem Grown.refl (ch : P2PTransportChannel) : Grown ch ch := ⟨List.Subset.refl _, rfl, rfl, rfl⟩

theorem Grown.trans {ch'' : P2PTransportChannel} (h : Grown ch ch') (h' : Grown ch' ch'') : Grown ch ch'' where
  connections := List.Subset.trans h.connections h'.connections
  bestConnection := h'.bestConnection.trans h.bestConnection
  wasWritable := h'.wasWritable.trans h.wasWritable
  writable := h'.writable.trans h.writable

theorem Grown.foldl {α : Type} {f : P2PTransportChannel → α → P2PTransportChannel}
    (h : ∀ ch a, Grown ch (f ch a)) (l : List α) : Grown ch (l.foldl f ch) := by
  induction l generalizing ch with
  | nil => exact .refl ch
  | cons a l ih => exact (h ch a).trans ih

theorem grown_withConnection (conn : ℕ) (f : Connection → Connection) (ch : P2PTransportChannel) :
    Grown ch (ch.withConnection conn f) := by
  rw [withConnection]
  split_ifs <;> exact ⟨List.Subset.refl _, rfl, rfl, rfl⟩

/-! ### Sorting -/

/-- A relation that holds of each thing that is done to a channel when its connections are sorted. -/
structure Sorting (now : UInt32) (R : P2PTransportChannel → P2PTransportChannel → Prop) : Prop where
  refl : ∀ ch, R ch ch
  trans : ∀ {ch mid ch'}, R ch mid → R mid ch' → R ch ch'
  updateState : ∀ conn ch, R ch (ch.withConnection conn (·.updateState now))
  prune : ∀ conn ch, R ch (ch.withConnection conn (·.prune))
  nominate : ∀ conn ch, R ch (ch.withConnection conn fun c => { c with useCandidateAttr := true }.ping now)
  /-- The connections are put in an order, and the channel says what it finds. -/
  arrange : ∀ (ch : P2PTransportChannel) bestConnection connections sortDirty sorts allocatorSessions
    wasWritable writable readable, connections.Perm ch.connections →
      R ch
        { ch with bestConnection, connections, sortDirty, sorts, allocatorSessions, wasWritable, writable, readable }

namespace Sorting

variable {now : UInt32} {R : P2PTransportChannel → P2PTransportChannel → Prop} (h : Sorting now R)

include h

theorem foldl {α : Type} {f : P2PTransportChannel → α → P2PTransportChannel} (hf : ∀ ch a, R ch (f ch a))
    (l : List α) (ch : P2PTransportChannel) : R ch (l.foldl f ch) := by
  induction l generalizing ch with
  | nil => exact h.refl ch
  | cons a l ih => exact h.trans (hf ch a) (ih _)

theorem updateConnectionStates (ch : P2PTransportChannel) : R ch (ch.updateConnectionStates now) :=
  h.foldl (fun ch conn => h.updateState conn ch) _ ch

theorem switchBestConnectionTo (conn : Option ℕ) (ch : P2PTransportChannel) :
    R ch (ch.switchBestConnectionTo now conn) := by
  have hbest : R ch { ch with bestConnection := conn } := h.arrange ch conn _ _ _ _ _ _ _ (.refl _)
  rw [switchBestConnectionTo.eq_def]
  split
  · exact hbest
  · dsimp only
    split
    · exact h.trans hbest (h.nominate _ _)
    · exact hbest

theorem pickBest (ch : P2PTransportChannel) : R ch (ch.pickBest now) := by
  rw [P2PTransportChannel.pickBest]
  split
  · exact h.switchBestConnectionTo _ ch
  · exact h.refl ch

theorem pruneNetwork (ch : P2PTransportChannel) (network : ℕ) : R ch (ch.pruneNetwork network) := by
  rw [P2PTransportChannel.pruneNetwork]
  split
  · exact h.refl ch
  split
  · exact h.refl ch
  · refine h.foldl (fun ch conn => ?_) _ ch
    split
    · exact h.prune conn ch
    · exact h.refl ch

theorem handleStates (ch : P2PTransportChannel) : R ch ch.handleStates := by
  have hnot : R ch ch.handleNotWritable := by
    rw [handleNotWritable]
    split
    · exact h.arrange ch _ _ _ _ _ false false _ (.refl _)
    · exact h.refl ch
  rw [P2PTransportChannel.handleStates]
  split
  · rw [handleWritable]
    split
    · exact h.arrange ch _ _ _ _ _ true true _ (.refl _)
    · exact h.arrange ch _ _ _ _ (ch.allocatorSessions.map fun _ => false) true true _ (.refl _)
  · split
    · exact hnot
    · exact hnot

theorem sortConnections (ch : P2PTransportChannel) : R ch (ch.sortConnections now) := by
  have hclean (ch : P2PTransportChannel) : R ch { ch with sortDirty := false } :=
    h.arrange ch _ _ false _ _ _ _ _ (.refl _)
  have hsorted (ch : P2PTransportChannel) : R ch ch.stableSort :=
    h.arrange ch _ _ _ _ _ _ _ _ (List.perm_insertionSort _ _)
  have hchannel (ch : P2PTransportChannel) : R ch ch.updateChannelState :=
    h.arrange ch _ _ _ _ _ _ _ _ (.refl _)
  have hupdated := h.trans (h.updateConnectionStates ch) (hclean _)
  have hpicked := h.trans hupdated (h.trans (hsorted _) (h.pickBest _))
  exact h.trans (h.trans hpicked (h.foldl h.pruneNetwork _ _)) (h.trans (h.handleStates _) (hchannel _))

theorem sort (ch : P2PTransportChannel) : R ch (ch.takeSort.sortConnections now) :=
  h.trans (h.arrange ch _ _ _ _ _ _ _ _ (.refl _)) (h.sortConnections _)

end Sorting

/-! ### Making connections -/

/-- `CreateConnection` does nothing, or finds a connection, or makes one that the port agrees to. -/
theorem createConnection_cases (port : ℕ) (c : Candidate) (originPort : Option ℕ)
    (readable : Bool) (ch : P2PTransportChannel) :
    (ch.createConnection now port c originPort readable).1 = ch ∨
      (∃ conn, (ch.createConnection now port c originPort readable).1 = ch.markReadable now readable conn) ∨
      ∃ localPriority, (ch.createConnection now port c originPort readable).1 =
        (ch.addConnection port c localPriority).markReadable now readable ch.connectionCount := by
  rw [createConnection]
  rcases ch.getConnection port c.address with _ | conn
  · dsimp only
    split_ifs
    · exact Or.inl rfl
    · rcases (ch.portAt port).creates c (getOrigin port originPort) with _ | localPriority
      · exact Or.inl rfl
      · exact Or.inr (Or.inr ⟨localPriority, rfl⟩)
  · dsimp only
    split_ifs
    · exact Or.inr (Or.inl ⟨conn, rfl⟩)
    · exact Or.inl rfl

/-- What `CreateConnection` keeps for each of the ports, and is kept when the candidate is remembered,
`CreateConnections` keeps. -/
theorem createConnections_induct {P : P2PTransportChannel → Prop} {now : UInt32} {c : Candidate}
    {originPort : Option ℕ} {readable : Bool} (h : P ch)
    (hconnect : ∀ ch' port, port ∈ ch.portsFor originPort → P ch' →
      P (ch'.createConnection now port (ch.completeCandidate c) originPort readable).1)
    (hremember : ∀ ch' c, P ch' → P (ch'.rememberRemoteCandidate c originPort)) :
    P (ch.createConnections now c originPort readable).1 := by
  refine hremember _ _ ?_
  refine List.foldlRecOn (motive := fun (acc : P2PTransportChannel × Bool) => P acc.1) _ _ h ?_
  intro acc hacc port hport
  exact hconnect acc.1 port hport hacc

theorem grown_markReadable (readable : Bool) (conn : ℕ) (ch : P2PTransportChannel) :
    Grown ch (ch.markReadable now readable conn) := by
  rw [markReadable]
  split_ifs
  · exact grown_withConnection conn _ ch
  · exact .refl ch

theorem grown_createConnection (port : ℕ) (c : Candidate) (originPort : Option ℕ)
    (readable : Bool) (ch : P2PTransportChannel) :
    Grown ch (ch.createConnection now port c originPort readable).1 := by
  rcases createConnection_cases now port c originPort readable ch with h | ⟨conn, h⟩ | ⟨localPriority, h⟩
  · rw [h]
    exact .refl ch
  · rw [h]
    exact grown_markReadable now readable conn ch
  · rw [h]
    have hadd : Grown ch (ch.addConnection port c localPriority) :=
      ⟨List.subset_append_left _ _, rfl, rfl, rfl⟩
    exact hadd.trans (grown_markReadable now readable _ _)

theorem grown_createConnections (c : Candidate) (originPort : Option ℕ) (readable : Bool)
    (ch : P2PTransportChannel) : Grown ch (ch.createConnections now c originPort readable).1 := by
  refine createConnections_induct (.refl ch) ?_ ?_
  · exact fun ch' port _ h => h.trans (grown_createConnection now port _ originPort readable ch')
  · exact fun ch' _ h => h.trans ⟨List.Subset.refl _, rfl, rfl, rfl⟩

theorem grown_connectPort (port : ℕ) (ch : P2PTransportChannel) : Grown ch (ch.connectPort now port) :=
  Grown.foldl (fun ch (r : Candidate × Option ℕ) => grown_createConnection now port r.1 r.2 false ch) _

theorem grown_updateConnectionStates (ch : P2PTransportChannel) :
    Grown ch (ch.updateConnectionStates now) :=
  Grown.foldl (fun ch conn => grown_withConnection conn _ ch) _

end P2PTransportChannel

end Synciga.P2p
