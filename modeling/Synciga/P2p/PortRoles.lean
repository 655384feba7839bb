import Synciga.P2p.ChannelMoves

/-!
# The roles of ports

A channel pushes its role and its protocol to the ports in its list. A restart of the allocation empties the
list, and the connections of the ports that were in it stay, so that a later setting does not reach these; nor a
port that was dropped without connections, which may get one when it is pinged.

## Main definitions

* `UpToDate` — the ports that own connections have the settings of the channel
* `KeepsUpToDate` — the operations that keep it so
-/

namespace Synciga.P2p

open Connection (SameEnds)

namespace P2PTransportChannel

variable {ch ch' : P2PTransportChannel}

/-- A port has the role and the protocol of the channel. -/
def IsCurrent (ch : P2PTransportChannel) (port : ℕ) : Prop :=
  (ch.portAt port).role = ch.role ∧ (ch.portAt port).iceProtocol = ch.protocolType

instance (ch : P2PTransportChannel) (port : ℕ) : Decidable (ch.IsCurrent port) :=
  inferInstanceAs (Decidable (_ ∧ _))

/-- The port of a connection. -/
def owner (ch : P2PTransportChannel) (conn : ℕ) : ℕ := (ch.connectionAt conn).port

/-- All connections belong to ports of the list. -/
def Reaches (ch : P2PTransportChannel) : Prop := ∀ conn ∈ ch.connections, ch.owner conn ∈ ch.ports

instance (ch : P2PTransportChannel) : Decidable ch.Reaches := inferInstanceAs (Decidable (∀ _ ∈ _, _))

/-- The ports in the list and the ports that own connections are current. -/
structure UpToDate (ch : P2PTransportChannel) : Prop where
  ports_lt : ∀ port ∈ ch.ports, port < ch.portCount
  connections_lt : ∀ conn ∈ ch.connections, conn < ch.connectionCount
  owners_lt : ∀ conn ∈ ch.connections, ch.owner conn < ch.portCount
  ports : ∀ port ∈ ch.ports, ch.IsCurrent port
  owners : ∀ conn ∈ ch.connections, ch.IsCurrent (ch.owner conn)

/-! ### Operations that leave the ports alone -/

/-- The ports and the settings are the same. -/
structure SameSettings (ch ch' : P2PTransportChannel) : Prop where
  portCount : ch'.portCount = ch.portCount
  portAt : ch'.portAt = ch.portAt
  ports : ch'.ports = ch.ports
  role : ch'.role = ch.role
  tiebreaker : ch'.tiebreaker = ch.tiebreaker
  protocolType : ch'.protocolType = ch.protocolType

theorem SameSettings.refl (ch : P2PTransportChannel) : SameSettings ch ch := ⟨rfl, rfl, rfl, rfl, rfl, rfl⟩

theorem SameSettings.trans {ch'' : P2PTransportChannel} (h : SameSettings ch ch') (h' : SameSettings ch' ch'') :
    SameSettings ch ch'' where
  portCount := h'.portCount.trans h.portCount
  portAt := h'.portAt.trans h.portAt
  ports := h'.ports.trans h.ports
  role := h'.role.trans h.role
  tiebreaker := h'.tiebreaker.trans h.tiebreaker
  protocolType := h'.protocolType.trans h.protocolType

theorem SameSettings.isCurrent_iff (h : SameSettings ch ch') (port : ℕ) :
    ch'.IsCurrent port ↔ ch.IsCurrent port := by
  rw [IsCurrent, IsCurrent, h.portAt, h.role, h.protocolType]

/-- Besides, no connection is added, and each keeps its port. -/
structure SameOwners (ch ch' : P2PTransportChannel) : Prop extends SameSettings ch ch' where
  connectionCount : ch'.connectionCount = ch.connectionCount
  connections : ch'.connections ⊆ ch.connections
  owner : ∀ conn, ch'.owner conn = ch.owner conn

theorem SameOwners.refl (ch : P2PTransportChannel) : SameOwners ch ch :=
  ⟨.refl ch, rfl, List.Subset.refl _, fun _ => rfl⟩

theorem SameOwners.trans {ch'' : P2PTransportChannel} (h : SameOwners ch ch') (h' : SameOwners ch' ch'') :
    SameOwners ch ch'' where
  toSameSettings := h.toSameSettings.trans h'.toSameSettings
  connectionCount := h'.connectionCount.trans h.connectionCount
  connections := List.Subset.trans h'.connections h.connections
  owner := fun conn => (h'.owner conn).trans (h.owner conn)

theorem UpToDate.sameOwners (h : UpToDate ch) (hs : SameOwners ch ch') : UpToDate ch' where
  ports_lt := by
    rw [hs.ports, hs.portCount]
    exact h.ports_lt
  connections_lt := by
    rw [hs.connectionCount]
    exact fun conn hconn => h.connections_lt conn (hs.connections hconn)
  owners_lt := by
    intro conn hconn
    rw [hs.owner, hs.portCount]
    exact h.owners_lt conn (hs.connections hconn)
  ports := by
    rw [hs.ports]
    exact fun port hport => (hs.isCurrent_iff port).mpr (h.ports port hport)
  owners := by
    intro conn hconn
    rw [hs.owner, hs.isCurrent_iff]
    exact h.owners conn (hs.connections hconn)

theorem sameOwners_withConnection {f : Connection → Connection} (hf : ∀ c, SameEnds c (f c)) (conn : ℕ)
    (ch : P2PTransportChannel) : SameOwners ch (ch.withConnection conn f) := by
  have howner (i : ℕ) : (ch.withConnection conn f).owner i = ch.owner i :=
    ((steady_withConnection hf conn ch).ends i).port
  refine ⟨?_, ?_, ?_, howner⟩
  all_goals
    rw [withConnection]
    split_ifs
  exacts [⟨rfl, rfl, rfl, rfl, rfl, rfl⟩, ⟨rfl, rfl, rfl, rfl, rfl, rfl⟩, rfl, rfl, List.Subset.refl _,
      List.Subset.refl _]

variable (now : UInt32)

theorem sameOwners_markReadable (readable : Bool) (conn : ℕ) (ch : P2PTransportChannel) :
    SameOwners ch (ch.markReadable now readable conn) := by
  rw [markReadable]
  split_ifs
  · refine sameOwners_withConnection (fun c => ?_) conn ch
    exact (Connection.unpruned_receivedPing c now).toSameEnds
  · exact .refl ch

theorem sorting_sameOwners : Sorting now SameOwners where
  refl := .refl
  trans := .trans
  updateState := sameOwners_withConnection fun c => (Connection.unpruned_updateState c now).toSameEnds
  prune := sameOwners_withConnection Connection.sameEnds_prune
  nominate := sameOwners_withConnection fun _ => ⟨rfl, rfl, rfl⟩
  arrange _ _ _ _ _ _ _ _ _ hperm := ⟨⟨rfl, rfl, rfl, rfl, rfl, rfl⟩, rfl, hperm.subset, fun _ => rfl⟩

theorem sameOwners_setIceCredentials (iceUfrag icePwd : String) (ch : P2PTransportChannel) :
    SameOwners ch (ch.setIceCredentials iceUfrag icePwd) := by
  simp only [setIceCredentials]
  split_ifs <;> exact ⟨⟨rfl, rfl, rfl, rfl, rfl, rfl⟩, rfl, List.Subset.refl _, fun _ => rfl⟩

theorem sameOwners_setRemoteIceCredentials (iceUfrag icePwd : String) (ch : P2PTransportChannel) :
    SameOwners ch (ch.setRemoteIceCredentials iceUfrag icePwd) := by
  simp only [setRemoteIceCredentials]
  split_ifs <;> exact ⟨⟨rfl, rfl, rfl, rfl, rfl, rfl⟩, rfl, List.Subset.refl _, fun _ => rfl⟩

theorem sameOwners_setRemoteIceMode (mode : IceMode) (ch : P2PTransportChannel) :
    SameOwners ch (ch.setRemoteIceMode mode) :=
  ⟨⟨rfl, rfl, rfl, rfl, rfl, rfl⟩, rfl, List.Subset.refl _, fun _ => rfl⟩

theorem sameOwners_connect (ch : P2PTransportChannel) : SameOwners ch ch.connect := by
  rw [connect]
  split_ifs <;> exact ⟨⟨rfl, rfl, rfl, rfl, rfl, rfl⟩, rfl, List.Subset.refl _, fun _ => rfl⟩

/-! ### Settings -/

theorem portAt_setPorts (f : Port → Port) (ch : P2PTransportChannel) (port : ℕ) :
    (ch.setPorts f).portAt port = if port ∈ ch.ports then f (ch.portAt port) else ch.portAt port := rfl

theorem UpToDate.setRole (h : UpToDate ch) {role : TransportRole} (hok : role = ch.role ∨ ch.Reaches) :
    UpToDate (ch.setRole role) := by
  rw [P2PTransportChannel.setRole]
  split_ifs with hsame
  · exact h
  have hreaches : ch.Reaches := hok.resolve_left (Ne.symm hsame)
  have hlisted : ∀ port ∈ ch.ports, ({ ch with role }.setPorts ({ · with role })).IsCurrent port := by
    intro port hport
    rw [IsCurrent, portAt_setPorts, if_pos hport]
    exact ⟨rfl, (h.ports port hport).2⟩
  exact
    { ports_lt := h.ports_lt
      connections_lt := h.connections_lt
      owners_lt := h.owners_lt
      ports := hlisted
      owners := fun conn hconn => hlisted _ (hreaches conn hconn) }

theorem UpToDate.setIceProtocolType (h : UpToDate ch) {type : TransportProtocol}
    (hok : type = ch.protocolType ∨ ch.Reaches) : UpToDate (ch.setIceProtocolType type) := by
  have hlisted : ∀ port ∈ ch.ports, (ch.setIceProtocolType type).IsCurrent port := by
    intro port hport
    rw [IsCurrent, P2PTransportChannel.setIceProtocolType, portAt_setPorts, if_pos hport]
    exact ⟨(h.ports port hport).1, rfl⟩
  refine
    { ports_lt := h.ports_lt
      connections_lt := h.connections_lt
      owners_lt := h.owners_lt
      ports := hlisted
      owners := fun conn hconn => ?_ }
  rcases hok with rfl | hreaches
  · by_cases hport : ch.owner conn ∈ ch.ports
    · exact hlisted _ hport
    · have hcurrent := h.owners conn hconn
      change (ch.setIceProtocolType ch.protocolType).IsCurrent (ch.owner conn)
      rw [IsCurrent, P2PTransportChannel.setIceProtocolType, portAt_setPorts, if_neg hport]
      exact hcurrent
  · exact hlisted _ (hreaches conn hconn)

theorem reaches_setRole (role : TransportRole) : (ch.setRole role).Reaches ↔ ch.Reaches := by
  rw [P2PTransportChannel.setRole]
  split_ifs <;> exact Iff.rfl

theorem protocolType_setRole (role : TransportRole) : (ch.setRole role).protocolType = ch.protocolType := by
  rw [P2PTransportChannel.setRole]
  split_ifs <;> rfl

/-! ### Making connections -/

variable {port : ℕ}

theorem UpToDate.createConnection (h : UpToDate ch) (hlt : port < ch.portCount)
    (hcurrent : ch.IsCurrent port) (now : UInt32) (c : Candidate) (originPort : Option ℕ) (readable : Bool) :
    UpToDate (ch.createConnection now port c originPort readable).1 := by
  rcases createConnection_cases now port c originPort readable ch with heq | ⟨conn, heq⟩ | ⟨localPriority, heq⟩
  · rw [heq]
    exact h
  · rw [heq]
    exact h.sameOwners (sameOwners_markReadable now readable conn ch)
  rw [heq]
  refine UpToDate.sameOwners ?_ (sameOwners_markReadable now readable _ _)
  have howner {conn : ℕ} (hconn : conn ∈ ch.connections) :
      (ch.addConnection port c localPriority).owner conn = ch.owner conn := by
    rw [owner, addConnection]
    dsimp only
    rw [Function.update_of_ne (h.connections_lt conn hconn).ne]
    rfl
  have hnew : (ch.addConnection port c localPriority).owner ch.connectionCount = port := by
    rw [owner, addConnection]
    dsimp only
    rw [Function.update_self]
  have hmem {conn : ℕ} (hconn : conn ∈ (ch.addConnection port c localPriority).connections) :
      conn ∈ ch.connections ∨ conn = ch.connectionCount := by
    simpa [addConnection] using hconn
  refine
    { ports_lt := h.ports_lt
      connections_lt := ?_
      owners_lt := ?_
      ports := h.ports
      owners := ?_ }
  · intro conn hconn
    rcases hmem hconn with hold | rfl
    · exact Nat.lt_succ_of_lt (h.connections_lt conn hold)
    · exact Nat.lt_succ_self _
  · intro conn hconn
    rcases hmem hconn with hold | rfl
    · rw [howner hold]
      exact h.owners_lt conn hold
    · rw [hnew]
      exact hlt
  intro conn hconn
  rcases hmem hconn with hold | rfl
  · rw [howner hold]
    exact h.owners conn hold
  · rw [hnew]
    exact hcurrent

theorem sameSettings_createConnection (port : ℕ) (c : Candidate) (originPort : Option ℕ)
    (readable : Bool) (ch : P2PTransportChannel) :
    SameSettings ch (ch.createConnection now port c originPort readable).1 := by
  rcases createConnection_cases now port c originPort readable ch with heq | ⟨conn, heq⟩ | ⟨localPriority, heq⟩
  · rw [heq]
    exact .refl ch
  · rw [heq]
    exact (sameOwners_markReadable now readable conn ch).toSameSettings
  · rw [heq]
    have hadd : SameSettings ch (ch.addConnection port c localPriority) := ⟨rfl, rfl, rfl, rfl, rfl, rfl⟩
    exact hadd.trans (sameOwners_markReadable now readable _ _).toSameSettings

theorem keeps_createConnection (h : SameSettings ch ch' ∧ UpToDate ch') (hlt : port < ch.portCount)
    (hcurrent : ch.IsCurrent port) (now : UInt32) (c : Candidate) (originPort : Option ℕ) (readable : Bool) :
    SameSettings ch (ch'.createConnection now port c originPort readable).1 ∧
      UpToDate (ch'.createConnection now port c originPort readable).1 := by
  refine ⟨h.1.trans (sameSettings_createConnection now port c originPort readable ch'), ?_⟩
  refine h.2.createConnection ?_ ((h.1.isCurrent_iff port).mpr hcurrent) now c originPort readable
  rw [h.1.portCount]
  exact hlt

theorem keeps_rememberRemoteCandidate (h : SameSettings ch ch' ∧ UpToDate ch') (c : Candidate)
    (originPort : Option ℕ) : SameSettings ch (ch'.rememberRemoteCandidate c originPort) ∧
      UpToDate (ch'.rememberRemoteCandidate c originPort) := by
  obtain ⟨⟨hcount, hat, hports, hrole, htiebreaker, hprotocol⟩, hup⟩ := h
  refine ⟨⟨hcount, hat, hports, hrole, htiebreaker, hprotocol⟩, ?_⟩
  exact hup.sameOwners ⟨⟨rfl, rfl, rfl, rfl, rfl, rfl⟩, rfl, List.Subset.refl _, fun _ => rfl⟩

theorem UpToDate.createConnections (h : UpToDate ch) (now : UInt32) (c : Candidate) {originPort : Option ℕ}
    (readable : Bool) (horigin : ∀ port ∈ originPort, port < ch.portCount ∧ ch.IsCurrent port) :
    SameSettings ch (ch.createConnections now c originPort readable).1 ∧
      UpToDate (ch.createConnections now c originPort readable).1 := by
  have hvisited {port : ℕ} (hport : port ∈ ch.portsFor originPort) : port < ch.portCount ∧ ch.IsCurrent port := by
    rcases List.mem_append.mp hport with hlisted | hcoming
    · have hmem := List.mem_reverse.mp hlisted
      exact ⟨h.ports_lt port hmem, h.ports port hmem⟩
    · exact horigin port (Option.mem_toList.mp (List.mem_filter.mp hcoming).1)
  refine createConnections_induct (P := fun ch' => SameSettings ch ch' ∧ UpToDate ch') ⟨.refl ch, h⟩ ?_ ?_
  · intro ch' port hport hkept
    obtain ⟨hlt, hcurrent⟩ := hvisited hport
    exact keeps_createConnection hkept hlt hcurrent now _ originPort readable
  · exact fun ch' c hkept => keeps_rememberRemoteCandidate hkept c originPort

theorem UpToDate.connectPort (h : UpToDate ch) (hlt : port < ch.portCount)
    (hcurrent : ch.IsCurrent port) (now : UInt32) :
    SameSettings ch (ch.connectPort now port) ∧ UpToDate (ch.connectPort now port) := by
  refine List.foldlRecOn (motive := fun ch' => SameSettings ch ch' ∧ UpToDate ch') _ _ ⟨.refl ch, h⟩ ?_
  exact fun ch' hkept r _ => keeps_createConnection hkept hlt hcurrent now r.1 r.2 false

theorem UpToDate.addPort (h : UpToDate ch) (port : Port) :
    UpToDate (ch.addPort port) ∧ (ch.addPort port).IsCurrent ch.portCount ∧
      ch.portCount < (ch.addPort port).portCount := by
  have hnew : (ch.addPort port).IsCurrent ch.portCount := by
    rw [IsCurrent, P2PTransportChannel.addPort]
    dsimp only
    rw [Function.update_self]
    exact ⟨rfl, rfl⟩
  have hold {p : ℕ} (hlt : p < ch.portCount) (hp : ch.IsCurrent p) : (ch.addPort port).IsCurrent p := by
    rw [IsCurrent, P2PTransportChannel.addPort]
    dsimp only
    rw [Function.update_of_ne hlt.ne]
    exact hp
  have hmem {p : ℕ} (hp : p ∈ (ch.addPort port).ports) : p ∈ ch.ports ∨ p = ch.portCount := by
    simpa [P2PTransportChannel.addPort] using hp
  refine ⟨?_, hnew, Nat.lt_succ_self _⟩
  refine
    { ports_lt := ?_
      connections_lt := h.connections_lt
      owners_lt := fun conn hconn => Nat.lt_succ_of_lt (h.owners_lt conn hconn)
      ports := ?_
      owners := fun conn hconn => hold (h.owners_lt conn hconn) (h.owners conn hconn) }
  · intro p hp
    rcases hmem hp with hp | rfl
    · exact Nat.lt_succ_of_lt (h.ports_lt p hp)
    · exact Nat.lt_succ_self _
  · intro p hp
    rcases hmem hp with hp | rfl
    · exact hold (h.ports_lt p hp) (h.ports p hp)
    · exact hnew

/-! ### One operation -/

/-- The operations behind which the ports stay up to date: a setting that changes reaches all ports that own
connections, and a port pinged from an unknown address is current, or makes no connection. -/
def KeepsUpToDate (ch : P2PTransportChannel) : ChannelOp → Prop
  | .setRole role => role = ch.role ∨ ch.Reaches
  | .setIceProtocolType type => type = ch.protocolType ∨ ch.Reaches
  | .unknownAddress _ port address protocol remoteUsername fresh =>
    ch.IsCurrent port ∨ ∀ c ∈ ch.peerCandidate port address protocol remoteUsername fresh,
      (ch.portAt port).creates (ch.completeCandidate c) .thisPort = none
  | _ => True

instance (ch : P2PTransportChannel) : DecidablePred ch.KeepsUpToDate := by
  intro op
  cases op <;> first | exact inferInstanceAs (Decidable (_ ∨ _)) | exact inferInstanceAs (Decidable True)

theorem createConnection_of_creates_none {now : UInt32} {c : Candidate} {readable : Bool}
    (hnone : (ch.portAt port).creates c .thisPort = none) :
    SameOwners ch (ch.createConnection now port c (some port) readable).1 := by
  rw [createConnection]
  rcases ch.getConnection port c.address with _ | conn
  · dsimp only
    rw [show getOrigin port (some port) = .thisPort from if_pos rfl, hnone]
    split_ifs <;> exact .refl ch
  · dsimp only
    split_ifs
    · exact sameOwners_markReadable now readable conn ch
    · exact .refl ch

theorem UpToDate.onUnknownAddress (h : UpToDate ch) (now : UInt32) {c : Candidate}
    (hlt : port < ch.portCount)
    (hok : ch.IsCurrent port ∨ (ch.portAt port).creates (ch.completeCandidate c) .thisPort = none) :
    SameSettings ch (ch.createConnections now c (some port) true).1 ∧
      UpToDate (ch.createConnections now c (some port) true).1 := by
  by_cases hcurrent : ch.IsCurrent port
  · refine h.createConnections now c true ?_
    rintro _ ⟨⟩
    exact ⟨hlt, hcurrent⟩
  have hnone := hok.resolve_left hcurrent
  refine createConnections_induct (P := fun ch' => SameSettings ch ch' ∧ UpToDate ch') ⟨.refl ch, h⟩ ?_ ?_
  · rintro ch' p hp ⟨hsame, hup⟩
    by_cases hlisted : p ∈ ch.ports
    · exact keeps_createConnection ⟨hsame, hup⟩ (h.ports_lt p hlisted) (h.ports p hlisted) now _ _ true
    -- only the origin is not in the list
    have hpo : p = port := by
      rcases List.mem_append.mp hp with hrev | hcoming
      · exact absurd (List.mem_reverse.mp hrev) hlisted
      · exact (Option.some_inj.mp (Option.mem_toList.mp (List.mem_filter.mp hcoming).1)).symm
    subst hpo
    refine ⟨hsame.trans (sameSettings_createConnection now p _ (some p) true ch'), ?_⟩
    refine hup.sameOwners (createConnection_of_creates_none ?_)
    rw [hsame.portAt]
    exact hnone
  · exact fun ch' c hkept => keeps_rememberRemoteCandidate hkept c (some port)

/-- The operations that leave the ports and what they are told alone. -/
def LeavesPorts : ChannelOp → Prop
  | .setRole _ | .setTiebreaker _ | .setIceProtocolType _ | .reset _ | .signalingReady => False
  | .portReady .. | .portDestroyed _ | .unknownAddress .. | .candidate .. => False
  | _ => True

theorem sameOwners_step {op : ChannelOp} (hstep : ch.step op = some ch') (hop : LeavesPorts op) :
    SameOwners ch ch' := by
  cases op with
  | setIceCredentials iceUfrag icePwd =>
    cases hstep
    exact sameOwners_setIceCredentials iceUfrag icePwd ch
  | setRemoteIceCredentials iceUfrag icePwd =>
    cases hstep
    exact sameOwners_setRemoteIceCredentials iceUfrag icePwd ch
  | setRemoteIceMode mode =>
    cases hstep
    exact sameOwners_setRemoteIceMode mode ch
  | connect =>
    cases hstep
    exact sameOwners_connect ch
  | sort now =>
    obtain ⟨-, rfl⟩ := Runs.of_guard hstep
    exact (sorting_sameOwners now).sort ch
  | ping now =>
    cases hstep
    rw [onPing]
    have hupdated := (sorting_sameOwners now).updateConnectionStates ch
    rcases (ch.updateConnectionStates now).findNextPingableConnection now with _ | conn
    · exact hupdated
    · refine hupdated.trans (sameOwners_withConnection ?_ conn _)
      exact fun c => ⟨rfl, rfl, rfl⟩
  | connectionData now conn =>
    obtain ⟨-, rfl⟩ := Runs.of_guard hstep
    refine sameOwners_withConnection (fun c => ?_) conn ch
    exact (Connection.unpruned_onData c now).toSameEnds
  | connectionPing now conn useCandidate =>
    obtain ⟨-, rfl⟩ := Runs.of_guard hstep
    have hpinged : SameOwners ch (ch.withConnection conn (·.onPing now)) :=
      sameOwners_withConnection (fun c => (Connection.unpruned_onPing c now).toSameEnds) conn ch
    simp only [onConnectionPing, onUseCandidate]
    split_ifs
    · exact hpinged.trans ((sorting_sameOwners now).switchBestConnectionTo _ _)
    · exact hpinged
    · exact hpinged
  | connectionIndication now conn =>
    obtain ⟨-, rfl⟩ := Runs.of_guard hstep
    rw [onConnectionIndication]
    split_ifs
    · refine sameOwners_withConnection (fun c => ?_) conn ch
      exact (Connection.unpruned_receivedPing c now).toSameEnds
    · exact .refl ch
  | connectionResponse now elapsed conn =>
    obtain ⟨-, rfl⟩ := Runs.of_guard hstep
    refine sameOwners_withConnection (fun c => ?_) conn ch
    exact (Connection.unpruned_onRequestResponse c now elapsed).toSameEnds
  | connectionFailed conn =>
    obtain ⟨-, rfl⟩ := Runs.of_guard hstep
    refine sameOwners_withConnection (fun c => ?_) conn ch
    exact (Connection.unpruned_onRequestFailed c).toSameEnds
  | connectionRetry conn =>
    obtain ⟨-, rfl⟩ := Runs.of_guard hstep
    refine sameOwners_withConnection ?_ conn ch
    exact fun c => ⟨rfl, rfl, rfl⟩
  | connectionConnected conn connected =>
    obtain ⟨-, rfl⟩ := Runs.of_guard hstep
    refine sameOwners_withConnection ?_ conn ch
    exact fun c => ⟨rfl, rfl, rfl⟩
  | connectionDestroyed now conn =>
    obtain ⟨-, rfl⟩ := Runs.of_guard hstep
    rw [onConnectionDestroyed]
    split_ifs <;> exact ⟨⟨rfl, rfl, rfl, rfl, rfl, rfl⟩, rfl, List.erase_subset, fun _ => rfl⟩
  | _ => exact hop.elim

/-- Behind an operation that keeps them so, the ports are up to date; and the role is the same, if no other one is
set. -/
theorem upToDate_step {op : ChannelOp} (h : UpToDate ch) (hok : ch.KeepsUpToDate op)
    (hstep : ch.step op = some ch') : UpToDate ch' ∧ ((∀ role, op ≠ .setRole role) → ch'.role = ch.role) := by
  have hsame {ch' : P2PTransportChannel} (hs : SameOwners ch ch') :
      UpToDate ch' ∧ ((∀ role, op ≠ .setRole role) → ch'.role = ch.role) := ⟨h.sameOwners hs, fun _ => hs.role⟩
  have hsorted (now : UInt32) {mid : P2PTransportChannel} (hrole : mid.role = ch.role) (hup : UpToDate mid) :
      UpToDate (mid.sortConnections now) ∧
        ((∀ role, op ≠ .setRole role) → (mid.sortConnections now).role = ch.role) :=
    ⟨hup.sameOwners ((sorting_sameOwners now).sortConnections mid),
      fun _ => ((sorting_sameOwners now).sortConnections mid).role.trans hrole⟩
  cases op with
  | setRole role =>
    cases hstep
    exact ⟨h.setRole hok, fun hne => absurd rfl (hne role)⟩
  | setIceProtocolType type =>
    cases hstep
    exact ⟨h.setIceProtocolType hok, fun _ => rfl⟩
  | setTiebreaker tiebreaker =>
    cases hstep
    rw [P2PTransportChannel.setTiebreaker]
    split_ifs
    · exact hsame (.refl ch)
    · exact ⟨⟨h.ports_lt, h.connections_lt, h.owners_lt, h.ports, h.owners⟩, fun _ => rfl⟩
  | reset connectRequested =>
    cases hstep
    simp only [reset]
    split_ifs <;> exact ⟨⟨nofun, nofun, nofun, nofun, nofun⟩, fun _ => rfl⟩
  | signalingReady =>
    cases hstep
    rw [onSignalingReady]
    split_ifs
    · exact ⟨⟨nofun, h.connections_lt, h.owners_lt, nofun, h.owners⟩, fun _ => rfl⟩
    · exact hsame (.refl ch)
  | portReady now port =>
    obtain ⟨-, hsome⟩ := Option.ite_none_left_eq_some.mp hstep
    cases hsome
    obtain ⟨hadded, hcurrent, hlt⟩ := h.addPort port
    obtain ⟨hsettings, hup⟩ := hadded.connectPort hlt hcurrent now
    exact hsorted now hsettings.role hup
  | portDestroyed port =>
    obtain ⟨-, rfl⟩ := Runs.of_guard hstep
    have hcurrent {p : ℕ} (hp : ch.IsCurrent p) : (ch.onPortDestroyed port).IsCurrent p := by
      rw [IsCurrent, onPortDestroyed]
      dsimp only
      rcases eq_or_ne p port with rfl | hne
      · rw [Function.update_self]
        exact hp
      · rw [Function.update_of_ne hne]
        exact hp
    refine ⟨?_, fun _ => rfl⟩
    exact
      { ports_lt := fun p hp => h.ports_lt p (List.mem_of_mem_erase hp)
        connections_lt := h.connections_lt
        owners_lt := h.owners_lt
        ports := fun p hp => hcurrent (h.ports p (List.mem_of_mem_erase hp))
        owners := fun conn hconn => hcurrent (h.owners conn hconn) }
  | unknownAddress now port address protocol remoteUsername fresh =>
    obtain ⟨⟨hlt, -, -⟩, hsome⟩ := Option.ite_none_right_eq_some.mp hstep
    cases hsome
    rw [P2PTransportChannel.onUnknownAddress]
    rcases hpeer : ch.peerCandidate port address protocol remoteUsername fresh with _ | c
    · exact hsame (.refl ch)
    obtain ⟨hsettings, hmade⟩ :=
      h.onUnknownAddress now hlt (hok.imp_right fun hnone => hnone c hpeer)
    dsimp only [onPeerCandidate]
    split_ifs
    · exact hsorted now hsettings.role hmade
    · exact ⟨hmade, fun _ => hsettings.role⟩
  | candidate now c =>
    cases hstep
    have hnone : ∀ port ∈ (none : Option ℕ), port < ch.portCount ∧ ch.IsCurrent port := nofun
    obtain ⟨hsettings, hmade⟩ := h.createConnections now c false hnone
    exact hsorted now hsettings.role hmade
  | _ => exact hsame (sameOwners_step hstep trivial)

/-! ### Roles that a port may have -/

/-- The role of the channel and of each port is one of `roles`, and the tiebreakers are `tb`. -/
structure Told (roles : TransportRole → Prop) (tb : UInt64) (ch : P2PTransportChannel) : Prop where
  role : roles ch.role
  tiebreaker : ch.tiebreaker = tb
  ports : ∀ port < ch.portCount, roles (ch.portAt port).role ∧ (ch.portAt port).tiebreaker = tb

section Told

variable {roles : TransportRole → Prop} {tb : UInt64}

theorem Told.mono {roles' : TransportRole → Prop} (h : Told roles tb ch)
    (hroles : ∀ role, roles role → roles' role) : Told roles' tb ch :=
  ⟨hroles _ h.role, h.tiebreaker, fun port hlt => (h.ports port hlt).imp_left (hroles _)⟩

theorem Told.sameSettings (h : Told roles tb ch) (hs : SameSettings ch ch') : Told roles tb ch' where
  role := by
    rw [hs.role]
    exact h.role
  tiebreaker := hs.tiebreaker.trans h.tiebreaker
  ports := by
    rw [hs.portCount, hs.portAt]
    exact h.ports

theorem Told.setRole (h : Told roles tb ch) {role : TransportRole} (hrole : roles role) :
    Told roles tb (ch.setRole role) := by
  rw [P2PTransportChannel.setRole]
  split_ifs
  · exact h
  · refine ⟨hrole, h.tiebreaker, fun port hlt => ?_⟩
    rw [portAt_setPorts]
    split_ifs
    · exact ⟨hrole, (h.ports port hlt).2⟩
    · exact h.ports port hlt

theorem Told.setIceProtocolType (h : Told roles tb ch) (type : TransportProtocol) :
    Told roles tb (ch.setIceProtocolType type) := by
  refine ⟨h.role, h.tiebreaker, fun port hlt => ?_⟩
  rw [P2PTransportChannel.setIceProtocolType, portAt_setPorts]
  split_ifs <;> exact h.ports port hlt

theorem Told.addPort (h : Told roles tb ch) (port : Port) : Told roles tb (ch.addPort port) := by
  refine ⟨h.role, h.tiebreaker, fun p hlt => ?_⟩
  rw [P2PTransportChannel.addPort]
  dsimp only
  rcases eq_or_ne p ch.portCount with rfl | hne
  · rw [Function.update_self]
    exact ⟨h.role, h.tiebreaker⟩
  · rw [Function.update_of_ne hne]
    exact h.ports p (lt_of_le_of_ne (Nat.lt_succ_iff.mp hlt) hne)

theorem Told.onPortDestroyed (h : Told roles tb ch) (port : ℕ) :
    Told roles tb (ch.onPortDestroyed port) := by
  refine ⟨h.role, h.tiebreaker, fun p hlt => ?_⟩
  rw [P2PTransportChannel.onPortDestroyed]
  dsimp only
  rcases eq_or_ne p port with rfl | hne
  · rw [Function.update_self]
    exact h.ports p hlt
  · rw [Function.update_of_ne hne]
    exact h.ports p hlt

theorem sameSettings_createConnections (now : UInt32) (c : Candidate) (originPort : Option ℕ) (readable : Bool)
    (ch : P2PTransportChannel) : SameSettings ch (ch.createConnections now c originPort readable).1 := by
  refine createConnections_induct (P := SameSettings ch) (.refl ch) ?_ ?_
  · intro ch' port _ hsame
    exact hsame.trans (sameSettings_createConnection now port _ originPort readable ch')
  · rintro ch' _ ⟨hcount, hat, hports, hrole, htiebreaker, hprotocol⟩
    exact ⟨hcount, hat, hports, hrole, htiebreaker, hprotocol⟩

theorem sameSettings_connectPort (now : UInt32) (port : ℕ) (ch : P2PTransportChannel) :
    SameSettings ch (ch.connectPort now port) := by
  refine List.foldlRecOn (motive := SameSettings ch) _ _ (.refl ch) ?_
  intro ch' hsame r _
  exact hsame.trans (sameSettings_createConnection now port r.1 r.2 false ch')

theorem told_step {op : ChannelOp} (h : Told roles tb ch) (hrole : ∀ role, op ≠ .setRole role)
    (htiebreaker : ∀ tiebreaker, op ≠ .setTiebreaker tiebreaker) (hstep : ch.step op = some ch') :
    Told roles tb ch' := by
  have hsorted (now : UInt32) {mid : P2PTransportChannel} (hmid : Told roles tb mid) :
      Told roles tb (mid.sortConnections now) :=
    hmid.sameSettings ((sorting_sameOwners now).sortConnections mid).toSameSettings
  cases op with
  | setRole role => exact absurd rfl (hrole role)
  | setTiebreaker tiebreaker => exact absurd rfl (htiebreaker tiebreaker)
  | setIceProtocolType type =>
    cases hstep
    exact h.setIceProtocolType type
  | reset connectRequested =>
    cases hstep
    simp only [reset]
    split_ifs <;> exact ⟨h.role, h.tiebreaker, h.ports⟩
  | signalingReady =>
    cases hstep
    rw [onSignalingReady]
    split_ifs
    · exact ⟨h.role, h.tiebreaker, h.ports⟩
    · exact h
  | portReady now port =>
    obtain ⟨-, hsome⟩ := Option.ite_none_left_eq_some.mp hstep
    cases hsome
    exact hsorted now ((h.addPort port).sameSettings (sameSettings_connectPort now _ _))
  | portDestroyed port =>
    obtain ⟨-, rfl⟩ := Runs.of_guard hstep
    exact h.onPortDestroyed port
  | unknownAddress now port address protocol remoteUsername fresh =>
    obtain ⟨-, rfl⟩ := Runs.of_guard hstep
    rw [P2PTransportChannel.onUnknownAddress]
    rcases ch.peerCandidate port address protocol remoteUsername fresh with _ | c
    · exact h
    · have hmade := h.sameSettings (sameSettings_createConnections now c (some port) true ch)
      dsimp only [onPeerCandidate]
      split_ifs
      · exact hsorted now hmade
      · exact hmade
  | candidate now c =>
    cases hstep
    exact hsorted now (h.sameSettings (sameSettings_createConnections now c none false ch))
  | _ => exact h.sameSettings (sameOwners_step hstep trivial).toSameSettings

end Told

end P2PTransportChannel

end Synciga.P2p
