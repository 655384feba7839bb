import Synciga.Internal.KeyedSort
import Synciga.P2p.ChannelMoves

/-!
# The best connection of a channel

Whenever the connections of a channel are sorted, the best one is chosen anew, those that it makes superfluous
are pruned, and the channel says whether it is writable. The choice keeps a connection that is about as good as
the first one, and each step changes connections that the next one looks at.

## Main definitions

* `Coherent` — the invariant

## Main results

* `wellSorted_run` — what the best connection is, and which ones are pruned
-/

namespace Synciga.P2p

open Connection (SameEnds Unpruned)

/-! ### Comparing connections as numbers -/

/-- The generations are far from the end of the range. -/
def Pair.Young (p : Pair) : Prop :=
  p.connection.remoteCandidate.generation.toNat < 2 ^ 30 ∧ p.port.generation.toNat < 2 ^ 30

instance (p : Pair) : Decidable p.Young := inferInstanceAs (Decidable (_ ∧ _))

/-- The candidates of a connection are at least as good: they have a higher priority, or the same one and a
generation that is not older. -/
def Pair.AtLeastAsGood (a b : Pair) : Prop :=
  b.priority < a.priority ∨ a.priority = b.priority ∧
    b.connection.remoteCandidate.generation.toNat + b.port.generation.toNat ≤
      a.connection.remoteCandidate.generation.toNat + a.port.generation.toNat

variable {a b : Pair}

theorem compareConnections_of_lt
    (h : a.connection.writeState.value < b.connection.writeState.value) : compareConnections a b = 1 := by
  rw [compareConnections, if_pos h]

theorem compareConnections_of_gt
    (h : b.connection.writeState.value < a.connection.writeState.value) : compareConnections a b = -1 := by
  rw [compareConnections, if_neg (Nat.lt_asymm h), if_pos h]

theorem atLeastAsGood_of_compare (ha : a.Young) (hb : b.Young)
    (h : 0 ≤ compareConnectionCandidates a b) : a.AtLeastAsGood b := by
  rw [compareConnectionCandidates] at h
  split_ifs at h with hgt hlt
  · exact Or.inl hgt
  · exact absurd h (by decide)
  refine Or.inr ⟨UInt64.le_antisymm (UInt64.not_lt.mp hgt) (UInt64.not_lt.mp hlt), ?_⟩
  obtain ⟨ha₁, ha₂⟩ := ha
  obtain ⟨hb₁, hb₂⟩ := hb
  rw [show (a.generation - b.generation).toInt32.toInt = (a.generation - b.generation).toBitVec.toInt from rfl,
    BitVec.toInt_eq_toNat_cond, show (a.generation - b.generation).toBitVec.toNat =
      (a.generation - b.generation).toNat from rfl, UInt32.toNat_sub, Pair.generation, Pair.generation,
    UInt32.toNat_add, UInt32.toNat_add] at h
  split_ifs at h <;> omega

namespace P2PTransportChannel

variable {ch ch' : P2PTransportChannel}

theorem Steady.young_iff (h : Steady ch ch') (conn : ℕ) : (ch'.pair conn).Young ↔ (ch.pair conn).Young := by
  have hends := h.ends conn
  rw [Pair.Young, Pair.Young, h.port]
  simp only [pair, hends.remoteCandidate]

variable (now : UInt32)

theorem pruned_updateConnectionStates (ch : P2PTransportChannel) (conn : ℕ) :
    ((ch.updateConnectionStates now).connectionAt conn).pruned = (ch.connectionAt conn).pruned :=
  kept_updateConnectionStates now (fun c => (Connection.unpruned_updateState c now).pruned) ch conn

/-! ### Choosing -/

/-- The best connection is one of the connections, and a channel that is writable was made so by
`HandleWritable`. -/
structure Coherent (ch : P2PTransportChannel) : Prop where
  best_mem : ∀ best, ch.bestConnection = some best → best ∈ ch.connections
  wasWritable : ch.writable = true → ch.wasWritable = true

theorem Coherent.steady (h : Coherent ch) (hs : Steady ch ch') : Coherent ch' where
  best_mem := by
    rw [hs.bestConnection, hs.connections]
    exact h.best_mem
  wasWritable := by
    rw [hs.writable, hs.wasWritable]
    exact h.wasWritable

theorem refines_writeState (ch : P2PTransportChannel) :
    KeyedSort.Refines (fun a b => ¬connectionCompare (ch.pair b) (ch.pair a))
      fun conn => (ch.connectionAt conn).writeState.value := by
  intro a b
  constructor
  · intro hab
    by_contra hlt
    have hba : (ch.pair b).connection.writeState.value < (ch.pair a).connection.writeState.value := not_le.mp hlt
    have hcompare : connectionCompare (ch.pair b) (ch.pair a) = true := by
      rw [connectionCompare, compareConnections_of_lt hba]
      rfl
    exact hab hcompare
  intro hab
  by_contra hlt
  have hba : (ch.pair a).connection.writeState.value < (ch.pair b).connection.writeState.value := not_le.mp hlt
  have hcompare : connectionCompare (ch.pair b) (ch.pair a) = false := by
    rw [connectionCompare, compareConnections_of_gt hba]
    rfl
  exact hab fun htrue => Bool.false_ne_true (hcompare.symm.trans htrue)

theorem writeState_of_not_shouldSwitch {a b : Pair} (h : P2p.shouldSwitch a b = false) :
    a.connection.writeState.value ≤ b.connection.writeState.value := by
  by_contra hlt
  rw [P2p.shouldSwitch, compareConnections_of_gt (not_le.mp hlt)] at h
  exact Bool.noConfusion h

theorem shouldSwitch_some (a b : ℕ) (ch : P2PTransportChannel) : ch.shouldSwitch (some a) (some b) =
    if a = b then false else P2p.shouldSwitch (ch.pair a) (ch.pair b) := by
  simp only [shouldSwitch, Option.some.injEq]

/-- The states that the choice looks at are kept. -/
def SameStates (ch ch' : P2PTransportChannel) : Prop :=
  ∀ conn, (ch'.connectionAt conn).writeState = (ch.connectionAt conn).writeState ∧
    (ch'.connectionAt conn).pruned = (ch.connectionAt conn).pruned

/-- Some connection is writable. -/
def AnyWritable (ch : P2PTransportChannel) : Prop :=
  ∃ conn ∈ ch.connections, (ch.connectionAt conn).writeState = .writable

/-- The best connection is writable. -/
def BestWritable (ch : P2PTransportChannel) : Prop :=
  ∃ best, ch.bestConnection = some best ∧ (ch.connectionAt best).writeState = .writable

theorem switchBestConnectionTo_spec (conn : Option ℕ) (ch : P2PTransportChannel) :
    Steady { ch with bestConnection := conn } (ch.switchBestConnectionTo now conn) ∧
      SameStates ch (ch.switchBestConnectionTo now conn) := by
  have hquiet : Steady { ch with bestConnection := conn } { ch with bestConnection := conn } ∧
      SameStates ch { ch with bestConnection := conn } := ⟨.refl _, fun _ => ⟨rfl, rfl⟩⟩
  rcases conn with _ | best
  · exact hquiet
  rw [switchBestConnectionTo]
  split_ifs
  · refine ⟨steady_withConnection ?_ best _, fun conn => ?_⟩
    · exact fun c => ⟨rfl, rfl, rfl⟩
    rw [connectionAt_withConnection]
    rcases eq_or_ne conn best with rfl | hne
    · rw [Function.update_self]
      exact ⟨rfl, rfl⟩
    · rw [Function.update_of_ne hne]
      exact ⟨rfl, rfl⟩
  · exact hquiet

theorem pickBest_spec (h : Coherent ch) :
    ∃ best, Steady { ch.stableSort with bestConnection := best } (ch.stableSort.pickBest now) ∧
      SameStates ch (ch.stableSort.pickBest now) ∧ (∀ b, best = some b → b ∈ ch.stableSort.connections) ∧
      (ch.AnyWritable → (ch.stableSort.pickBest now).BestWritable) := by
  set sorted := ch.stableSort with hsorted
  have hmem {conn : ℕ} : conn ∈ sorted.connections ↔ conn ∈ ch.connections := List.mem_insertionSort _
  -- the first connection is writable if any is
  have htop {top : ℕ} (h : sorted.connections.head? = some top) (hany : ch.AnyWritable) :
      (ch.connectionAt top).writeState = .writable := by
    obtain ⟨conn, hconn, hwritable⟩ := hany
    have hle : (ch.connectionAt top).writeState.value ≤ (ch.connectionAt conn).writeState.value :=
      KeyedSort.key_head_le (refines_writeState ch) h hconn
    rw [hwritable] at hle
    exact WriteState.value_injective (Nat.le_zero.mp hle)
  have hheadMem {top : ℕ} (h : sorted.connections.head? = some top) : top ∈ sorted.connections :=
    List.mem_of_mem_head? h
  rw [pickBest]
  dsimp only
  by_cases hswitch : sorted.shouldSwitch sorted.bestConnection sorted.connections.head? = true
  · rw [if_pos hswitch]
    obtain ⟨hsteady, hstates⟩ := switchBestConnectionTo_spec now sorted.connections.head? sorted
    refine ⟨sorted.connections.head?, hsteady, hstates, fun b => hheadMem, fun hany => ?_⟩
    obtain ⟨conn, hconn, -⟩ := id hany
    obtain ⟨top, hhead⟩ := List.isSome_head?.mpr (List.ne_nil_of_mem (hmem.mpr hconn)) |>
        Option.isSome_iff_exists.mp
    exact ⟨top, hsteady.bestConnection.trans hhead, (hstates top).1.trans (htop hhead hany)⟩
  rw [if_neg hswitch]
  refine ⟨sorted.bestConnection, .refl _, fun _ => ⟨rfl, rfl⟩, fun b hb => hmem.mpr (h.best_mem b hb), ?_⟩
  rintro ⟨conn, hconn, hwritable⟩
  obtain ⟨top, hhead⟩ :=
    List.isSome_head?.mpr (List.ne_nil_of_mem (hmem.mpr hconn)) |> Option.isSome_iff_exists.mp
  have htopWritable := htop hhead ⟨conn, hconn, hwritable⟩
  rw [hhead] at hswitch
  rcases hbest : sorted.bestConnection with _ | best
  · rw [hbest] at hswitch
    exact absurd rfl hswitch
  refine ⟨best, hbest, ?_⟩
  by_cases heq : best = top
  · rw [heq]
    exact htopWritable
  rw [hbest, shouldSwitch_some, if_neg heq] at hswitch
  have hle := writeState_of_not_shouldSwitch (Bool.eq_false_of_not_eq_true hswitch)
  have hzero : (ch.connectionAt top).writeState.value = 0 := by
    rw [htopWritable]
    rfl
  exact WriteState.value_injective (Nat.le_zero.mp (hle.trans_eq hzero))

/-! ### Pruning -/

/-- A connection is worth no more than the best one on its network. -/
structure Superfluous (ch : P2PTransportChannel) (conn primier : ℕ) : Prop where
  mem : conn ∈ ch.connections
  best : ch.getBestConnectionOnNetwork (ch.network conn) = some primier
  writable : (ch.connectionAt primier).writeState = .writable
  ne : conn ≠ primier
  compare : 0 ≤ compareConnectionCandidates (ch.pair primier) (ch.pair conn)

theorem network_of_getBest {network primier : ℕ} (h : ch.getBestConnectionOnNetwork network = some primier) :
    ch.network primier = network := by
  have htop (h : ch.connections.find? (ch.network · = network) = some primier) :
      ch.network primier = network := by simpa using List.find?_some h
  rw [getBestConnectionOnNetwork] at h
  rcases hbest : ch.bestConnection with _ | best
  · rw [hbest] at h
    exact htop h
  rw [hbest] at h
  dsimp only at h
  split_ifs at h with hon
  · cases h
    exact hon
  · exact htop h

theorem mem_of_getBest (hc : Coherent ch) {network primier : ℕ}
    (h : ch.getBestConnectionOnNetwork network = some primier) : primier ∈ ch.connections := by
  rw [getBestConnectionOnNetwork] at h
  rcases hbest : ch.bestConnection with _ | best
  · rw [hbest] at h
    exact List.mem_of_find?_eq_some h
  rw [hbest] at h
  dsimp only at h
  split_ifs at h
  · cases h
    exact hc.best_mem _ hbest
  · exact List.mem_of_find?_eq_some h

theorem Superfluous.primier {conn primier other : ℕ} (h : Superfluous ch conn primier) :
    ¬Superfluous ch primier other := by
  intro hother
  have hbest := hother.best
  rw [network_of_getBest h.best, h.best] at hbest
  cases hbest
  exact hother.ne rfl

theorem not_superfluous_best {best other : ℕ} (h : ch.bestConnection = some best) :
    ¬Superfluous ch best other := by
  intro hother
  have hbest := hother.best
  rw [getBestConnectionOnNetwork, h] at hbest
  dsimp only at hbest
  rw [if_pos rfl] at hbest
  cases hbest
  exact hother.ne rfl

/-- Superfluous connections may be pruned, and nothing else happens. -/
structure Thinned (ch ch' : P2PTransportChannel) : Prop where
  steady : Steady ch ch'
  kept : ∀ conn, ch'.connectionAt conn = ch.connectionAt conn ∨
    (∃ primier, Superfluous ch conn primier) ∧ ch'.connectionAt conn = (ch.connectionAt conn).prune

theorem Thinned.refl (ch : P2PTransportChannel) : Thinned ch ch := ⟨.refl ch, fun _ => Or.inl rfl⟩

theorem writable_of_thinned (h : Thinned ch ch') {conn : ℕ}
    (hw : (ch'.connectionAt conn).writeState = .writable) : (ch.connectionAt conn).writeState = .writable := by
  rcases h.kept conn with heq | ⟨-, heq⟩
  · rw [← heq]
    exact hw
  rw [heq] at hw
  rcases (ch.connectionAt conn).prune_cases with ⟨hid, -⟩ | ⟨-, -, htimeout, -⟩
  · rw [← hid]
    exact hw
  · rw [htimeout] at hw
    cases hw

theorem prune_prune (c : Connection) : c.prune.prune = c.prune := by
  have hpruned : c.prune.pruned = true := by
    rcases c.prune_cases with ⟨heq, h⟩ | ⟨-, h, -⟩
    · rw [heq]
      exact h
    · exact h
  rw [Connection.prune, if_pos hpruned]

theorem Thinned.prune (h : Thinned ch ch') {conn primier : ℕ} (hs : Superfluous ch conn primier) :
    Thinned ch (ch'.withConnection conn (·.prune)) := by
  refine ⟨h.steady.trans (steady_withConnection Connection.sameEnds_prune conn ch'), fun i => ?_⟩
  rw [connectionAt_withConnection]
  rcases eq_or_ne i conn with rfl | hne
  · rw [Function.update_self]
    right
    refine ⟨⟨primier, hs⟩, ?_⟩
    rcases h.kept i with heq | ⟨-, heq⟩
    · rw [heq]
    · rw [heq, prune_prune]
  · rw [Function.update_of_ne hne]
    exact h.kept i

theorem Thinned.pruneNetwork (h : Thinned ch ch') (network : ℕ) : Thinned ch (ch'.pruneNetwork network) := by
  rw [P2PTransportChannel.pruneNetwork]
  rcases hbest : ch'.getBestConnectionOnNetwork network with _ | primier
  · exact h
  dsimp only
  by_cases hw : (ch'.connectionAt primier).writeState = .writable
  · rw [if_neg (not_not.mpr hw)]
    rw [h.steady.getBestConnectionOnNetwork] at hbest
    -- the connections in the list are those of the channel the pruning started with
    have hsub : ∀ conn ∈ ch'.connections, conn ∈ ch.connections := by
      rw [h.steady.connections]
      exact fun _ => id
    have hwritable := writable_of_thinned h hw
    generalize ch'.connections = l at hsub
    clear hw
    induction l generalizing ch' with
    | nil => exact h
    | cons conn l ih =>
      rw [List.foldl_cons]
      refine ih ?_ (fun i hi => hsub i (List.mem_cons_of_mem _ hi))
      split_ifs with hcond
      · obtain ⟨hne, hnetwork, hcompare⟩ := hcond
        rw [h.steady.network] at hnetwork
        rw [h.steady.compare] at hcompare
        refine h.prune ⟨hsub conn List.mem_cons_self, ?_, hwritable, hne, hcompare⟩
        rw [hnetwork]
        exact hbest
      · exact h
  · rw [if_pos hw]
    exact h

theorem thinned_pruneNetworks (networks : List ℕ) (ch : P2PTransportChannel) :
    Thinned ch (networks.foldl P2PTransportChannel.pruneNetwork ch) := by
  have hfold : ∀ (networks : List ℕ) (ch' : P2PTransportChannel), Thinned ch ch' →
      Thinned ch (networks.foldl P2PTransportChannel.pruneNetwork ch') := by
    intro networks
    induction networks with
    | nil => exact fun _ => id
    | cons network networks ih => exact fun ch' h => ih _ (h.pruneNetwork network)
  exact hfold networks ch (.refl ch)

/-! ### Sorting -/

/-- `SortConnections` has pruned the connection. -/
def PrunedBy (before after : P2PTransportChannel) (conn : ℕ) : Prop :=
  (before.connectionAt conn).pruned = false ∧ (after.connectionAt conn).pruned = true

instance (before after : P2PTransportChannel) (conn : ℕ) : Decidable (PrunedBy before after conn) :=
  inferInstanceAs (Decidable (_ ∧ _))

/-- What holds behind `SortConnections`. -/
structure WellSorted (before after : P2PTransportChannel) : Prop where
  writable_iff : after.writable = true ↔ after.AnyWritable
  best_iff : after.AnyWritable ↔ after.BestWritable
  best_mem : ∀ best, after.bestConnection = some best → best ∈ after.connections
  best_kept : ∀ best, after.bestConnection = some best → ¬PrunedBy before after best
  /-- A connection that was pruned has a writable one on its network that was not pruned, with candidates that
  are at least as good. -/
  outdone : ∀ conn, PrunedBy before after conn → ∃ other ∈ after.connections,
    ¬PrunedBy before after other ∧ (after.connectionAt other).writeState = .writable ∧
      after.network other = after.network conn ∧ (after.pair other).AtLeastAsGood (after.pair conn)

theorem handleStates_spec (h : ch.writable = true → ch.wasWritable = true) :
    (ch.handleStates.writable = true ↔ ch.AnyWritable) ∧
      (ch.handleStates.writable = true → ch.handleStates.wasWritable = true) := by
  rw [handleStates]
  by_cases hany : ch.AnyWritable
  · have hcount :
        (ch.connections.countP fun conn => decide ((ch.connectionAt conn).writeState = .writable)) > 0 := by
      rw [gt_iff_lt, List.countP_pos_iff]
      obtain ⟨conn, hconn, hw⟩ := hany
      exact ⟨conn, hconn, decide_eq_true hw⟩
    rw [if_pos hcount]
    exact ⟨iff_of_true rfl hany, fun _ => rfl⟩
  have hcount :
      ¬(ch.connections.countP fun conn => decide ((ch.connectionAt conn).writeState = .writable)) > 0 := by
    rw [gt_iff_lt, List.countP_pos_iff]
    rintro ⟨conn, hconn, hw⟩
    exact hany ⟨conn, hconn, of_decide_eq_true hw⟩
  have hnot : ch.handleNotWritable.writable = false := by
    rw [handleNotWritable]
    split_ifs with hwas
    · rfl
    · exact Bool.eq_false_of_not_eq_true fun hw => hwas (h hw)
  rw [if_neg hcount, handleAllTimedOut, ite_self]
  constructor
  · rw [hnot]
    exact iff_of_false Bool.false_ne_true hany
  · rw [hnot]
    exact fun h => Bool.noConfusion h

/-- The channel says whether it is writable, and nothing else happens. -/
structure Announced (ch ch' : P2PTransportChannel) : Prop where
  portAt : ch'.portAt = ch.portAt
  connectionAt : ch'.connectionAt = ch.connectionAt
  connections : ch'.connections = ch.connections
  bestConnection : ch'.bestConnection = ch.bestConnection
  writable_iff : ch'.writable = true ↔ ch.AnyWritable
  wasWritable : ch'.writable = true → ch'.wasWritable = true

theorem announced_handleStates (h : ch.writable = true → ch.wasWritable = true) :
    Announced ch ch.handleStates.updateChannelState := by
  have hframe : ch.handleStates.portAt = ch.portAt ∧ ch.handleStates.connectionAt = ch.connectionAt ∧
      ch.handleStates.connections = ch.connections ∧ ch.handleStates.bestConnection = ch.bestConnection := by
    simp only [handleStates, handleWritable, handleNotWritable, handleAllTimedOut]
    split_ifs <;> exact ⟨rfl, rfl, rfl, rfl⟩
  obtain ⟨hwritable, hwas⟩ := handleStates_spec h
  exact ⟨hframe.1, hframe.2.1, hframe.2.2.1, hframe.2.2.2, hwritable, hwas⟩

theorem Announced.pair (h : Announced ch ch') (conn : ℕ) : ch'.pair conn = ch.pair conn := by
  rw [P2PTransportChannel.pair, P2PTransportChannel.pair, h.portAt, h.connectionAt]

theorem Announced.anyWritable (h : Announced ch ch') : ch'.AnyWritable ↔ ch.AnyWritable := by
  rw [AnyWritable, AnyWritable, h.connections, h.connectionAt]

theorem Announced.bestWritable (h : Announced ch ch') : ch'.BestWritable ↔ ch.BestWritable := by
  rw [BestWritable, BestWritable, h.bestConnection, h.connectionAt]

/-- The stages of `SortConnections`: the states, the best connection, what it makes superfluous, and whether the
channel is writable. -/
theorem sortConnections_stages (h : Coherent ch) : ∃ picked thinned : P2PTransportChannel,
    Coherent picked ∧ (∀ conn, conn ∈ picked.connections ↔ conn ∈ ch.connections) ∧
      (∀ conn, (picked.connectionAt conn).pruned = (ch.connectionAt conn).pruned) ∧
      (∀ conn, (picked.pair conn).Young ↔ (ch.pair conn).Young) ∧
      (picked.AnyWritable → picked.BestWritable) ∧ Thinned picked thinned ∧
      Announced thinned (ch.sortConnections now) := by
  have hupdate := steady_updateConnectionStates now ch
  set updated : P2PTransportChannel := { ch.updateConnectionStates now with sortDirty := false } with hupdated
  have hsteady : Steady ch updated :=
    ⟨hupdate.portAt, hupdate.connections, hupdate.bestConnection, hupdate.wasWritable, hupdate.writable,
        hupdate.ends⟩
  have hcoherent : Coherent updated := h.steady hsteady
  obtain ⟨best, hpick, hstates, hbestMem, hchosen⟩ := pickBest_spec now hcoherent
  have hthin := thinned_pruneNetworks updated.networks (updated.stableSort.pickBest now)
  have hsort : ch.sortConnections now = (updated.networks.foldl P2PTransportChannel.pruneNetwork
      (updated.stableSort.pickBest now)).handleStates.updateChannelState := rfl
  rw [hsort]
  have hpickedConnections : (updated.stableSort.pickBest now).connections = updated.stableSort.connections :=
    hpick.connections
  have hpickedPruned (conn : ℕ) : ((updated.stableSort.pickBest now).connectionAt conn).pruned =
      (ch.connectionAt conn).pruned :=
    (hstates conn).2.trans (pruned_updateConnectionStates now ch conn)
  have hpickedYoung (conn : ℕ) : ((updated.stableSort.pickBest now).pair conn).Young ↔ (ch.pair conn).Young :=
    (hpick.young_iff conn).trans (hsteady.young_iff conn)
  generalize updated.stableSort.pickBest now = picked at *
  have hmem (conn : ℕ) : conn ∈ picked.connections ↔ conn ∈ ch.connections := by
    rw [hpickedConnections, ← hsteady.connections]
    exact List.mem_insertionSort _
  have hpickedCoherent : Coherent picked := by
    constructor
    · intro b hb
      rw [hpickedConnections]
      exact hbestMem b (hpick.bestConnection.symm.trans hb)
    · intro hw
      rw [hpick.wasWritable]
      exact hcoherent.wasWritable (hpick.writable.symm.trans hw)
  have hany : picked.AnyWritable → picked.BestWritable := by
    rintro ⟨conn, hconn, hw⟩
    refine hchosen ⟨conn, ?_, (hstates conn).1.symm.trans hw⟩
    rw [hsteady.connections]
    exact (hmem conn).mp hconn
  exact ⟨picked, _, hpickedCoherent, hmem, hpickedPruned, hpickedYoung, hany, hthin,
    announced_handleStates (hpickedCoherent.steady hthin.steady).wasWritable⟩

/-- Behind `SortConnections` the channel is writable if and only if a connection is, if and only if the best one
is; the best one is there and was not pruned; and each that was pruned is outdone. -/
theorem wellSorted_sortConnections (h : Coherent ch) :
    Coherent (ch.sortConnections now) ∧
      ((∀ conn ∈ ch.connections, (ch.pair conn).Young) → WellSorted ch (ch.sortConnections now)) := by
  obtain ⟨picked, thinned, hcoherent, hmem, hpruned, hyoungPicked, hchosen, hthin, hannounced⟩ :=
    sortConnections_stages now h
  generalize ch.sortConnections now = after at *
  -- neither the best connection nor the best one on a network is pruned
  have hkeptBest {best : ℕ} (hbest : picked.bestConnection = some best) :
      thinned.connectionAt best = picked.connectionAt best := by
    rcases hthin.kept best with heq | ⟨⟨primier, hs⟩, -⟩
    · exact heq
    · exact absurd hs (not_superfluous_best hbest)
  have hkeptPrimier {conn primier : ℕ} (hs : Superfluous picked conn primier) :
      thinned.connectionAt primier = picked.connectionAt primier := by
    rcases hthin.kept primier with heq | ⟨⟨other, hother⟩, -⟩
    · exact heq
    · exact absurd hother hs.primier
  have hnotPruned {conn : ℕ} (hkept : thinned.connectionAt conn = picked.connectionAt conn) :
      ¬PrunedBy ch after conn := by
    rintro ⟨hbefore, hpost⟩
    rw [hannounced.connectionAt, hkept, hpruned, hbefore] at hpost
    exact Bool.false_ne_true hpost
  have hbestAfter {best : ℕ} (hbest : after.bestConnection = some best) : picked.bestConnection = some best := by
    rw [← hthin.steady.bestConnection, ← hannounced.bestConnection]
    exact hbest
  have hconnections : after.connections = picked.connections :=
    hannounced.connections.trans hthin.steady.connections
  have hbestMem : ∀ best, after.bestConnection = some best → best ∈ after.connections := by
    intro best hbest
    rw [hconnections]
    exact hcoherent.best_mem best (hbestAfter hbest)
  refine ⟨⟨hbestMem, hannounced.wasWritable⟩, fun hyoung => ?_⟩
  have hyoungAfter {conn : ℕ} (hconn : conn ∈ picked.connections) : (after.pair conn).Young := by
    rw [hannounced.pair, hthin.steady.young_iff, hyoungPicked]
    exact hyoung conn ((hmem conn).mp hconn)
  refine
    { writable_iff := hannounced.writable_iff.trans hannounced.anyWritable.symm
      best_iff := ?_
      best_mem := hbestMem
      best_kept := fun best hbest => hnotPruned (hkeptBest (hbestAfter hbest))
      outdone := ?_ }
  · rw [hannounced.anyWritable, hannounced.bestWritable]
    constructor
    · rintro ⟨conn, hconn, hw⟩
      rw [hthin.steady.connections] at hconn
      obtain ⟨best, hbest, hbw⟩ := hchosen ⟨conn, hconn, writable_of_thinned hthin hw⟩
      exact ⟨best, hthin.steady.bestConnection.trans hbest, by rw [hkeptBest hbest, hbw]⟩
    · rintro ⟨best, hbest, hbw⟩
      rw [hthin.steady.bestConnection] at hbest
      refine ⟨best, ?_, hbw⟩
      rw [hthin.steady.connections]
      exact hcoherent.best_mem best hbest
  intro conn hpost
  rcases hthin.kept conn with heq | ⟨⟨primier, hs⟩, -⟩
  · exact absurd hpost (hnotPruned heq)
  have hprimier := mem_of_getBest hcoherent hs.best
  refine ⟨primier, ?_, hnotPruned (hkeptPrimier hs), ?_, ?_, ?_⟩
  · rw [hconnections]
    exact hprimier
  · rw [hannounced.connectionAt, hkeptPrimier hs, hs.writable]
  · rw [network, network, hannounced.pair, hannounced.pair]
    exact (hthin.steady.network primier).trans
      ((network_of_getBest hs.best).trans (hthin.steady.network conn).symm)
  · refine atLeastAsGood_of_compare (hyoungAfter hprimier) (hyoungAfter hs.mem) ?_
    rw [hannounced.pair, hannounced.pair, hthin.steady.compare]
    exact hs.compare

/-! ### Other operations -/

theorem Coherent.grown (h : Coherent ch) (hg : Grown ch ch') : Coherent ch' where
  best_mem := by
    intro best hbest
    rw [hg.bestConnection] at hbest
    exact hg.connections (h.best_mem best hbest)
  wasWritable := by
    rw [hg.writable, hg.wasWritable]
    exact h.wasWritable

theorem coherent_switch (h : Coherent ch) (now : UInt32) {conn : Option ℕ}
    (hmem : ∀ best, conn = some best → best ∈ ch.connections) :
    Coherent (ch.switchBestConnectionTo now conn) := by
  have hcoherent : Coherent { ch with bestConnection := conn } := ⟨hmem, h.wasWritable⟩
  exact hcoherent.steady (switchBestConnectionTo_spec now conn ch).1

theorem coherent_step {op : ChannelOp} (h : Coherent ch) (hstep : ch.step op = some ch') : Coherent ch' := by
  have hsorted (now : UInt32) {ch : P2PTransportChannel} (h : Coherent ch) : Coherent (ch.sortConnections now) :=
    (wellSorted_sortConnections now h).1
  cases op with
  | setRole role =>
    cases hstep
    rw [setRole]
    split_ifs
    · exact h
    · exact ⟨h.best_mem, h.wasWritable⟩
  | setTiebreaker tiebreaker =>
    cases hstep
    rw [setTiebreaker]
    split_ifs <;> exact ⟨h.best_mem, h.wasWritable⟩
  | setIceProtocolType type =>
    cases hstep
    exact ⟨h.best_mem, h.wasWritable⟩
  | setIceCredentials iceUfrag icePwd =>
    cases hstep
    simp only [setIceCredentials]
    split_ifs <;> exact ⟨h.best_mem, h.wasWritable⟩
  | setRemoteIceCredentials iceUfrag icePwd =>
    cases hstep
    simp only [setRemoteIceCredentials]
    split_ifs <;> exact ⟨h.best_mem, h.wasWritable⟩
  | setRemoteIceMode mode =>
    cases hstep
    exact ⟨h.best_mem, h.wasWritable⟩
  | connect =>
    cases hstep
    rw [connect]
    split_ifs <;> exact ⟨h.best_mem, h.wasWritable⟩
  | reset connectRequested =>
    cases hstep
    simp only [reset]
    split_ifs <;> exact ⟨nofun, nofun⟩
  | signalingReady =>
    cases hstep
    rw [onSignalingReady]
    split_ifs <;> exact ⟨h.best_mem, h.wasWritable⟩
  | portReady now port =>
    obtain ⟨-, hsome⟩ := Option.ite_none_left_eq_some.mp hstep
    cases hsome
    have hadded : Coherent (ch.addPort port) := ⟨h.best_mem, h.wasWritable⟩
    exact hsorted now (hadded.grown (grown_connectPort now _ _))
  | portDestroyed port =>
    obtain ⟨-, rfl⟩ := Runs.of_guard hstep
    exact ⟨h.best_mem, h.wasWritable⟩
  | unknownAddress now port address protocol remoteUsername fresh =>
    obtain ⟨-, rfl⟩ := Runs.of_guard hstep
    rw [onUnknownAddress]
    rcases ch.peerCandidate port address protocol remoteUsername fresh with _ | c
    · exact h
    · have hmade := h.grown (grown_createConnections now c (some port) true ch)
      dsimp only [onPeerCandidate]
      split_ifs
      · exact hsorted now hmade
      · exact hmade
  | candidate now c =>
    cases hstep
    exact hsorted now (h.grown (grown_createConnections now c none false ch))
  | sort now =>
    obtain ⟨-, rfl⟩ := Runs.of_guard hstep
    have htaken : Coherent ch.takeSort := ⟨h.best_mem, h.wasWritable⟩
    exact hsorted now htaken
  | ping now =>
    cases hstep
    rw [onPing]
    have hupdated := h.grown (grown_updateConnectionStates now ch)
    rcases (ch.updateConnectionStates now).findNextPingableConnection now with _ | conn
    · exact hupdated
    · exact hupdated.grown (grown_withConnection conn _ _)
  | connectionPing now conn useCandidate =>
    obtain ⟨hmem, rfl⟩ := Runs.of_guard hstep
    have hgrown := grown_withConnection conn (·.onPing now) ch
    have hpinged := h.grown hgrown
    simp only [onConnectionPing, onUseCandidate]
    split_ifs
    · refine coherent_switch hpinged now ?_
      intro best hbest
      cases hbest
      exact hgrown.connections hmem
    · exact hpinged
    · exact hpinged
  | connectionIndication now conn =>
    obtain ⟨-, rfl⟩ := Runs.of_guard hstep
    rw [onConnectionIndication]
    split_ifs
    · exact h.grown (grown_withConnection conn _ ch)
    · exact h
  | connectionData | connectionResponse | connectionFailed | connectionRetry | connectionConnected =>
    obtain ⟨-, rfl⟩ := Runs.of_guard hstep
    exact h.grown (grown_withConnection _ _ ch)
  | connectionDestroyed now conn =>
    obtain ⟨-, rfl⟩ := Runs.of_guard hstep
    rw [onConnectionDestroyed]
    split_ifs with hbest
    · exact ⟨nofun, h.wasWritable⟩
    · refine ⟨?_, h.wasWritable⟩
      intro best hsome
      refine (List.mem_erase_of_ne ?_).mpr (h.best_mem best hsome)
      rintro rfl
      exact hbest hsome

/-! ### Runs -/

/-- The channel in which an operation calls `SortConnections`, and the time, if it does. -/
def sorting (ch : P2PTransportChannel) : ChannelOp → Option (P2PTransportChannel × UInt32)
  | .sort now => some (ch.takeSort, now)
  | .portReady now port => some ((ch.addPort port).connectPort now ch.portCount, now)
  | .candidate now c => some ((ch.createConnections now c none false).1, now)
  | .unknownAddress now port address protocol remoteUsername fresh =>
    (ch.peerCandidate port address protocol remoteUsername fresh).bind fun c =>
      let acc := ch.createConnections now c (some port) true
      if acc.2 then some (acc.1, now) else none
  | _ => none

/-- What `SortConnections` is called in comes from a coherent channel, and what it leaves is what the operation
leaves. -/
theorem sorting_spec {op : ChannelOp} {mid : P2PTransportChannel} {now : UInt32} (h : Coherent ch)
    (hstep : ch.step op = some ch') (hsorting : ch.sorting op = some (mid, now)) :
    Coherent mid ∧ ch' = mid.sortConnections now := by
  cases op with
  | sort now =>
    cases hsorting
    obtain ⟨-, rfl⟩ := Runs.of_guard hstep
    exact ⟨⟨h.best_mem, h.wasWritable⟩, rfl⟩
  | portReady now port =>
    cases hsorting
    obtain ⟨-, hsome⟩ := Option.ite_none_left_eq_some.mp hstep
    cases hsome
    have hadded : Coherent (ch.addPort port) := ⟨h.best_mem, h.wasWritable⟩
    exact ⟨hadded.grown (grown_connectPort now _ _), rfl⟩
  | candidate now c =>
    cases hsorting
    cases hstep
    exact ⟨h.grown (grown_createConnections now c none false ch), rfl⟩
  | unknownAddress now port address protocol remoteUsername fresh =>
    obtain ⟨-, rfl⟩ := Runs.of_guard hstep
    obtain ⟨c, hc, hrest⟩ := Option.bind_eq_some_iff.mp hsorting
    dsimp only at hrest
    obtain ⟨hcreated, hmid⟩ := Option.ite_none_right_eq_some.mp hrest
    cases hmid
    refine ⟨h.grown (grown_createConnections _ c (some port) true ch), ?_⟩
    rw [onUnknownAddress, hc]
    exact if_pos hcreated
  | _ => cases hsorting

/-- For every run of a new channel and every call of `SortConnections` behind it, of connections whose
generations are below `2 ^ 30`: the channel is writable if and only if a connection is, if and only if the best
one is; the best one is there and was not pruned; and every one that was pruned is outdone by a writable one
that was not. -/
theorem wellSorted_run {component : ℤ} {ops : List ChannelOp} {op : ChannelOp} {mid : P2PTransportChannel}
    {now : UInt32} (hrun : Runs.run step (create component) ops = some ch) (hstep : ch.step op = some ch')
    (hsorting : ch.sorting op = some (mid, now)) (hyoung : ∀ conn ∈ mid.connections, (mid.pair conn).Young) :
    WellSorted mid ch' := by
  have hcreated : Coherent (create component) := ⟨nofun, nofun⟩
  have hcoherent : Coherent ch :=
    Runs.invariant_of_step (fun _ _ _ h hstep => coherent_step h hstep) hcreated hrun
  obtain ⟨hmid, rfl⟩ := sorting_spec hcoherent hstep hsorting
  exact (wellSorted_sortConnections now hmid).2 hyoung

/-! ### A connection that comes back to life -/

/-- A port that connects to every candidate. -/
def openPort : Port where
  network := 0
  networkName := "eth0"
  type := "local"
  sharedSocket := false
  generation := 0
  creates := fun _ _ => some 100

/-- Candidates that differ by their priorities. -/
def candidateOf (priority : UInt32) : Candidate :=
  { blankCandidate with id := toString priority, address := ⟨.ipv4 priority, 2000⟩, priority }

/-- Of two connections the second one is pruned; the first one fails, and the second one is pinged again and
answers. -/
def revival : List ChannelOp :=
  [.setRole .controlling, .setIceCredentials "ufrag" "password", .connect, .signalingReady, .portReady 0 openPort,
    .candidate 0 (candidateOf 30), .candidate 0 (candidateOf 20), .ping 1000, .connectionResponse 1010 10 0,
    .connectionPing 1010 1 false, .sort 1020, .ping 1500, .connectionFailed 0, .sort 1520, .ping 2000,
    .connectionResponse 2010 10 1, .sort 2020]

/-- The channel behind the revival, in which a third candidate comes. -/
theorem exists_revived : ∃ ch, Runs.run step (create 1) revival = some ch ∧
    (∀ conn ∈ (ch.createConnections 2030 (candidateOf 10) none false).1.connections,
      ((ch.createConnections 2030 (candidateOf 10) none false).1.pair conn).Young) ∧
    PrunedBy (ch.createConnections 2030 (candidateOf 10) none false).1 (ch.onCandidate 2030 (candidateOf 10)) 2 ∧
    ∀ other ∈ (ch.onCandidate 2030 (candidateOf 10)).connections,
      ((ch.onCandidate 2030 (candidateOf 10)).connectionAt other).writeState = .writable →
        ((ch.onCandidate 2030 (candidateOf 10)).connectionAt other).pruned = true := by
  have hchecked : ((Runs.run step (create 1) revival).any fun ch => decide
      ((∀ conn ∈ (ch.createConnections 2030 (candidateOf 10) none false).1.connections,
        ((ch.createConnections 2030 (candidateOf 10) none false).1.pair conn).Young) ∧
      (((ch.createConnections 2030 (candidateOf 10) none false).1.connectionAt 2).pruned = false ∧
        ((ch.onCandidate 2030 (candidateOf 10)).connectionAt 2).pruned = true) ∧
      ∀ other ∈ (ch.onCandidate 2030 (candidateOf 10)).connections,
        ((ch.onCandidate 2030 (candidateOf 10)).connectionAt other).writeState = .writable →
          ((ch.onCandidate 2030 (candidateOf 10)).connectionAt other).pruned = true)) = true := by
    decide +kernel
  obtain ⟨ch, hrun, hfacts⟩ := (Option.any_eq_true _ _).mp hchecked
  exact ⟨ch, hrun, of_decide_eq_true hfacts⟩

theorem wellSorted_run_revival : ∃ ch mid, Runs.run step (create 1) revival = some ch ∧
    ch.sorting (.candidate 2030 (candidateOf 10)) = some (mid, 2030) ∧
    WellSorted mid (ch.onCandidate 2030 (candidateOf 10)) := by
  obtain ⟨ch, hrun, hyoung, -⟩ := exists_revived
  have hsorting : ch.sorting (.candidate 2030 (candidateOf 10)) =
      some ((ch.createConnections 2030 (candidateOf 10) none false).1, 2030) := rfl
  exact ⟨ch, _, hrun, hsorting, wellSorted_run hrun rfl hsorting hyoung⟩

/-- The only writable connection on the network of a connection that is pruned may be one that was pruned by an
earlier call. -/
theorem not_outdone_by_unpruned : ¬ ∀ (component : ℤ) (ops : List ChannelOp) (op : ChannelOp)
    (ch ch' mid : P2PTransportChannel) (now : UInt32), Runs.run step (create component) ops = some ch →
    ch.step op = some ch' → ch.sorting op = some (mid, now) → (∀ conn ∈ mid.connections, (mid.pair conn).Young) →
    ∀ conn, PrunedBy mid ch' conn → ∃ other ∈ ch'.connections, (ch'.connectionAt other).pruned = false ∧
      (ch'.connectionAt other).writeState = .writable ∧ ch'.network other = ch'.network conn ∧
      (ch'.pair other).AtLeastAsGood (ch'.pair conn) := by
  intro hall
  obtain ⟨ch, hrun, hyoung, hpruned, hnone⟩ := exists_revived
  obtain ⟨other, hmem, hunpruned, hwritable, -⟩ :=
    hall 1 revival (.candidate 2030 (candidateOf 10)) ch _ _ 2030 hrun rfl rfl hyoung 2 hpruned
  rw [hnone other hmem hwritable] at hunpruned
  cases hunpruned

end P2PTransportChannel

end Synciga.P2p
