import Synciga.P2p.BestConnection

/-!
# When the best connection changes

`SortConnections` asks `ShouldSwitch` whether the first connection should replace the best one.
`kMinImprovement` should keep a small difference of latencies from being a reason, but is added on the wrong
side: of two connections with equal write states and preferences, the best one is always the one that has been
faster last.

## Main results

* `steadfast_run_iff` — when the best connection stays
* `not_steadfast_jitter` — two connections that take turns
-/

namespace Synciga.P2p

namespace P2PTransportChannel

variable {ch : P2PTransportChannel} {now : UInt32}

/-- The channel that `SortConnections` sorts. -/
def updated (now : UInt32) (ch : P2PTransportChannel) : P2PTransportChannel :=
  { ch.updateConnectionStates now with sortDirty := false }

/-- The `top_connection` of `SortConnections`. -/
def topConnection (now : UInt32) (ch : P2PTransportChannel) : Option ℕ :=
  (ch.updated now).stableSort.connections.head?

/-- The latency that `ShouldSwitch` compares. -/
def latency (now : UInt32) (ch : P2PTransportChannel) (conn : ℕ) : ℕ :=
  ((ch.updated now).pair conn).connection.rtt.toNat

/-- Neither write states nor preferences decide between two connections. -/
def EquallyPreferred (now : UInt32) (ch : P2PTransportChannel) (a b : ℕ) : Prop :=
  compareConnections ((ch.updated now).pair a) ((ch.updated now).pair b) = 0

/-- A connection that replaces an equally preferred one as the best has a latency that is lower by
`kMinImprovement`. -/
def Steadfast (now : UInt32) (ch : P2PTransportChannel) : Prop :=
  ∀ a b, ch.bestConnection = some a → (ch.sortConnections now).bestConnection = some b → b ≠ a →
    ch.EquallyPreferred now a b → ch.latency now b + kMinImprovement ≤ ch.latency now a

/-- A connection that goes to the top in front of an equally preferred best one has a latency that is lower by
`kMinImprovement`, or higher by more. -/
def WellApart (now : UInt32) (ch : P2PTransportChannel) : Prop :=
  ∀ a b, ch.bestConnection = some a → ch.topConnection now = some b → b ≠ a → ch.EquallyPreferred now a b →
      ch.latency now b + kMinImprovement ≤ ch.latency now a ∨
        ch.latency now a + kMinImprovement < ch.latency now b

theorem bestConnection_handleStates (ch : P2PTransportChannel) :
    ch.handleStates.bestConnection = ch.bestConnection := by
  rw [handleStates]
  split_ifs
  · rw [handleWritable]
    split_ifs <;> rfl
  · rw [handleNotWritable]
    split_ifs <;> rfl
  · rw [handleAllTimedOut, handleNotWritable]
    split_ifs <;> rfl

theorem bestConnection_pickBest (now : UInt32) (ch : P2PTransportChannel) :
    (ch.pickBest now).bestConnection =
      if ch.shouldSwitch ch.bestConnection ch.connections.head? then ch.connections.head?
      else ch.bestConnection := by
  rw [pickBest]
  split_ifs
  · exact (switchBestConnectionTo_spec now _ ch).1.bestConnection
  · rfl

/-- The best connection is replaced by the one at the top if `ShouldSwitch` says so, and is kept otherwise. -/
theorem bestConnection_sortConnections (now : UInt32) (ch : P2PTransportChannel) :
    (ch.sortConnections now).bestConnection =
      if (ch.updated now).shouldSwitch ch.bestConnection (ch.topConnection now) then ch.topConnection now
      else ch.bestConnection := by
  have hbest : (ch.updated now).stableSort.bestConnection = ch.bestConnection :=
    (steady_updateConnectionStates now ch).bestConnection
  have hthin := (thinned_pruneNetworks (ch.updated now).networks
    ((ch.updated now).stableSort.pickBest now)).steady.bestConnection
  calc (ch.sortConnections now).bestConnection
      = ((ch.updated now).networks.foldl P2PTransportChannel.pruneNetwork
          ((ch.updated now).stableSort.pickBest now)).handleStates.bestConnection := rfl
    _ = ((ch.updated now).stableSort.pickBest now).bestConnection := by
      rw [bestConnection_handleStates, hthin]
    _ = _ := by
      rw [bestConnection_pickBest, hbest]
      rfl

theorem shouldSwitch_of_equallyPreferred {a b : ℕ} (hne : b ≠ a) (h : ch.EquallyPreferred now a b) :
    (ch.updated now).shouldSwitch (some a) (some b) = true ↔
      ch.latency now b ≤ ch.latency now a + kMinImprovement := by
  rw [shouldSwitch_some, if_neg hne.symm, P2p.shouldSwitch]
  rw [h]
  exact decide_eq_true_iff

theorem steadfast_iff : ch.Steadfast now ↔ ch.WellApart now := by
  constructor
  · intro h a b hbest htop hne hequal
    rcases Nat.lt_or_ge (ch.latency now a + kMinImprovement) (ch.latency now b) with hslower | hnear
    · exact .inr hslower
    · have hswitch := (shouldSwitch_of_equallyPreferred hne hequal).mpr hnear
      refine .inl (h a b hbest ?_ hne hequal)
      rw [bestConnection_sortConnections, hbest, htop, if_pos hswitch]
  intro h a b hbest hsorted hne hequal
  rw [bestConnection_sortConnections, hbest] at hsorted
  split_ifs at hsorted with hswitch
  · rw [hsorted] at hswitch
    have hnear := (shouldSwitch_of_equallyPreferred hne hequal).mp hswitch
    exact (h a b hbest hsorted hne hequal).resolve_right (Nat.not_lt.mpr hnear)
  · exact absurd (Option.some.inj hsorted).symm hne

/-- In a run of a new channel, every call of `SortConnections` is steadfast if and only if in each of them the
latencies are well apart. -/
theorem steadfast_run_iff (component : ℤ) (ops : List ChannelOp) :
    Runs.Admissible step (fun ch op => ∀ mid now, ch.sorting op = some (mid, now) → mid.Steadfast now)
        (create component) ops ↔
      Runs.Admissible step (fun ch op => ∀ mid now, ch.sorting op = some (mid, now) → mid.WellApart now)
        (create component) ops := by
  simp only [steadfast_iff]

/-! ### A small difference -/

/-- Two ports on two networks, which connect to one candidate with equal priorities. The best connection answers
within 100 milliseconds, the other one within 80. -/
def jitter : List ChannelOp :=
  [.setRole .controlling, .setIceCredentials "ufrag" "password", .connect, .signalingReady,
    .portReady 0 openPort, .portReady 0 { openPort with network := 1 }, .candidate 0 (candidateOf 30),
    .ping 1000, .connectionResponse 1100 100 0, .sort 1200, .ping 1500, .connectionResponse 1580 80 1]

/-- The second connection becomes the best one, and its latency is lower by five milliseconds. -/
theorem not_steadfast_jitter :
    ∃ ch, Runs.run step (create 1) jitter = some ch ∧ ch.sorting (.sort 1600) = some (ch.takeSort, 1600) ∧
      (ch.step (.sort 1600)).isSome ∧ ¬ ch.takeSort.Steadfast 1600 := by
  have hchecked : ((Runs.run step (create 1) jitter).any fun ch => decide
      (0 < ch.sorts ∧ ch.takeSort.bestConnection = some 0 ∧
        (ch.takeSort.sortConnections 1600).bestConnection = some 1 ∧
        compareConnections ((ch.takeSort.updated 1600).pair 0) ((ch.takeSort.updated 1600).pair 1) = 0 ∧
        ¬ ch.takeSort.latency 1600 1 + kMinImprovement ≤ ch.takeSort.latency 1600 0)) = true := by
    decide +kernel
  obtain ⟨ch, hrun, hfacts⟩ := (Option.any_eq_true _ _).mp hchecked
  obtain ⟨hsorts, hbest, hsorted, hequal, hnear⟩ := of_decide_eq_true hfacts
  refine ⟨ch, hrun, rfl, ?_, fun h => hnear (h 0 1 hbest hsorted (by decide) hequal)⟩
  rw [step, if_pos hsorts]
  rfl

end P2PTransportChannel

end Synciga.P2p
