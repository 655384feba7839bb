import Mathlib.Data.Finset.Max
import Synciga.P2p.Liveness

/-!
# The order of pings

`P2PTransportChannel::OnPing` pings the best connection if it is writable and was not pinged for
`MAX_CURRENT_WRITABLE_DELAY` milliseconds, and otherwise the one whose last ping is the oldest. Both compare
times of 32 bits as numbers: behind a wrap, one that has just been pinged looks like the one that has waited
longest.

## Main results

* `fair_run` — every connection is pinged in its turn, as long as the clock hides nobody
* `not_fair_across_wrap` — one that is not
-/

namespace Synciga.P2p

namespace P2PTransportChannel

variable {ch ch' : P2PTransportChannel} {now : UInt32}

/-! ### The choice -/

theorem lastPingSent_updateConnectionStates (now : UInt32) (ch : P2PTransportChannel) (conn : ℕ) :
    ((ch.updateConnectionStates now).connectionAt conn).lastPingSent = (ch.connectionAt conn).lastPingSent :=
  kept_updateConnectionStates now (fun c => (Connection.sameTimes_updateState c now).lastPingSent) ch conn

/-- The connections that can be pinged. -/
def pingable (ch : P2PTransportChannel) : List ℕ := ch.connections.filter (ch.isPingable ·)

theorem oldestPingable_spec {conn : ℕ} (h : ch.oldestPingable = some conn) :
    conn ∈ ch.pingable ∧ ∀ other ∈ ch.pingable,
      (ch.connectionAt conn).lastPingSent ≤ (ch.connectionAt other).lastPingSent := by
  set next : Option ℕ × UInt32 → ℕ → Option ℕ × UInt32 := fun acc conn =>
    if ch.isPingable conn ∧ (ch.connectionAt conn).lastPingSent < acc.2 then
      (some conn, (ch.connectionAt conn).lastPingSent)
    else acc with hnext
  -- what holds of the connections that the loop has seen
  have hloop (l seen : List ℕ) (acc : Option ℕ × UInt32)
      (hchosen : ∀ conn, acc.1 = some conn →
        conn ∈ seen ∧ ch.isPingable conn = true ∧ (ch.connectionAt conn).lastPingSent = acc.2)
      (hleast : ∀ other ∈ seen, ch.isPingable other = true → acc.2 ≤ (ch.connectionAt other).lastPingSent) :
      (∀ conn, (l.foldl next acc).1 = some conn → conn ∈ seen ++ l ∧ ch.isPingable conn = true ∧
        (ch.connectionAt conn).lastPingSent = (l.foldl next acc).2) ∧
      ∀ other ∈ seen ++ l, ch.isPingable other = true →
        (l.foldl next acc).2 ≤ (ch.connectionAt other).lastPingSent := by
    induction l generalizing seen acc with
    | nil =>
      rw [List.append_nil]
      exact ⟨hchosen, hleast⟩
    | cons a l ih =>
      rw [List.foldl_cons, ← List.singleton_append, ← List.append_assoc]
      refine ih (seen ++ [a]) (next acc a) ?_ ?_
      · intro conn hconn
        rw [hnext] at hconn ⊢
        dsimp only at hconn ⊢
        split at hconn
        · rename_i hless
          cases hconn
          rw [if_pos hless]
          exact ⟨List.mem_append_right _ (List.mem_singleton_self a), hless.1, rfl⟩
        · rename_i hnot
          rw [if_neg hnot]
          obtain ⟨hmem, hpingable, htime⟩ := hchosen conn hconn
          exact ⟨List.mem_append_left _ hmem, hpingable, htime⟩
      intro other hother hpingable
      rw [hnext]
      dsimp only
      split
      · rename_i hless
        rcases List.mem_append.mp hother with hseen | hnew
        · exact UInt32.le_of_lt (UInt32.lt_of_lt_of_le hless.2 (hleast other hseen hpingable))
        · rw [List.mem_singleton.mp hnew]
          exact UInt32.le_refl _
      · rename_i hnot
        rcases List.mem_append.mp hother with hseen | hnew
        · exact hleast other hseen hpingable
        · rw [List.mem_singleton.mp hnew] at hpingable ⊢
          exact UInt32.not_lt.mp fun hlt => hnot ⟨hpingable, hlt⟩
  obtain ⟨hmem, hleast⟩ := hloop ch.connections [] (none, 0xFFFFFFFF) (fun _ hnone => by cases hnone)
    (List.forall_mem_nil _)
  obtain ⟨hconn, hpingable, htime⟩ := hmem conn h
  refine ⟨List.mem_filter.mpr ⟨hconn, hpingable⟩, fun other hother => ?_⟩
  rw [htime]
  exact hleast other (List.mem_filter.mp hother).1 (List.mem_filter.mp hother).2

/-- The best connection has to be pinged, as `FindNextPingableConnection` sees it. -/
def BestDue (ch : P2PTransportChannel) (now : UInt32) : Prop :=
  ∃ best, ch.bestConnection = some best ∧ (ch.connectionAt best).writeState = .writable ∧
    (ch.connectionAt best).lastPingSent + MAX_CURRENT_WRITABLE_DELAY ≤ now

theorem findNext_of_not_bestDue (h : ¬ch.BestDue now) :
    ch.findNextPingableConnection now = ch.oldestPingable := by
  rw [findNextPingableConnection]
  split
  · rfl
  · rename_i best hbest
    exact if_neg fun hdue => h ⟨best, hbest, hdue⟩

end P2PTransportChannel

/-! ### Runs of `OnPing` -/

/-- A call of `OnPing`. -/
structure PingRound where
  /-- A time in milliseconds, of which the clock shows the lower 32 bits. -/
  time : ℕ
  channel : P2PTransportChannel
  /-- When a connection was pinged last, or 0. -/
  sent : ℕ → ℕ

namespace PingRound

open P2PTransportChannel

variable {r r' : PingRound}

/-- The time that the channel reads. -/
def clock (r : PingRound) : UInt32 := .ofNat r.time

/-- The channel when the connection is chosen. -/
def updated (r : PingRound) : P2PTransportChannel := r.channel.updateConnectionStates r.clock

/-- The connection that is pinged. -/
def chosen (r : PingRound) : Option ℕ := r.updated.findNextPingableConnection r.clock

/-- The channel behind `OnPing`. -/
def after (r : PingRound) : P2PTransportChannel := r.channel.onPing r.clock

/-- When each connection was pinged last, behind `OnPing`. -/
def sentAfter (r : PingRound) (conn : ℕ) : ℕ := if r.chosen = some conn then r.time else r.sent conn

/-- The times of the last pings are those of the connections, and no two pings were at the same
time. -/
structure Recorded (r : PingRound) : Prop where
  best_mem : ∀ best, r.channel.bestConnection = some best → best ∈ r.channel.connections
  lastPingSent : ∀ conn ∈ r.channel.connections,
    (r.channel.connectionAt conn).lastPingSent = .ofNat (r.sent conn)
  past : ∀ conn ∈ r.channel.connections, r.sent conn < r.time
  apart : ∀ a ∈ r.channel.connections, ∀ b ∈ r.channel.connections, 0 < r.sent a → r.sent a = r.sent b → a = b

/-- The next call of `OnPing`, with the same connections. In between, connections may be pinged by
other calls. -/
structure Follows (r r' : PingRound) : Prop where
  time : r.time < r'.time
  gap : r'.time < r.time + 2 ^ 31
  connections : r'.channel.connections.Perm r.channel.connections
  best_mem : ∀ best, r'.channel.bestConnection = some best → best ∈ r'.channel.connections
  pinged : ∀ conn ∈ r'.channel.connections,
    r'.sent conn = r.sentAfter conn ∧
      (r'.channel.connectionAt conn).lastPingSent = (r.after.connectionAt conn).lastPingSent ∨
    r.time < r'.sent conn ∧ r'.sent conn < r'.time ∧
      (r'.channel.connectionAt conn).lastPingSent = .ofNat (r'.sent conn)
  apart : ∀ a ∈ r'.channel.connections, ∀ b ∈ r'.channel.connections,
    r.time < r'.sent a → r'.sent a = r'.sent b → a = b

/-- The pings are fair: a connection is pinged again as the oldest one only when all others that can be pinged
were pinged since, and a writable best connection if it was not pinged for more than
`MAX_CURRENT_WRITABLE_DELAY` ms. -/
structure Fair (r : PingRound) : Prop where
  oldest : ¬r.updated.BestDue r.clock → ∀ conn, r.chosen = some conn → 0 < r.sent conn →
    ∀ other ∈ r.updated.pingable, other ≠ conn → r.sent conn < r.sent other
  best : ∀ best, r.updated.bestConnection = some best → (r.updated.connectionAt best).writeState = .writable →
    (0 < r.sent best → r.sent best + MAX_CURRENT_WRITABLE_DELAY.toNat < r.time) → r.chosen = some best

/-- The clock does not hide who has waited: the connection that was pinged the longest ago has the smallest
32-bit time, and the clock does not show less than at the end of the delay of the best connection. -/
structure InOrder (r : PingRound) : Prop where
  oldest : ¬r.updated.BestDue r.clock → ∀ conn ∈ r.updated.pingable,
    (∀ other ∈ r.updated.pingable, r.sent conn ≤ r.sent other) →
      ∀ other ∈ r.updated.pingable, r.sent conn < r.sent other → r.sent conn % 2 ^ 32 < r.sent other % 2 ^ 32
  best : ∀ best, r.updated.bestConnection = some best → (r.updated.connectionAt best).writeState = .writable →
    (0 < r.sent best → r.sent best + MAX_CURRENT_WRITABLE_DELAY.toNat < r.time) →
      (r.sent best + MAX_CURRENT_WRITABLE_DELAY.toNat) % 2 ^ 32 ≤ r.time % 2 ^ 32

/-! ### One call -/

theorem connections_updated (r : PingRound) : r.updated.connections = r.channel.connections :=
  (steady_updateConnectionStates r.clock r.channel).connections

theorem connections_after (r : PingRound) :
    r.after.connections = r.channel.connections ∧ r.after.bestConnection = r.channel.bestConnection := by
  have hupdated := steady_updateConnectionStates r.clock r.channel
  rw [after, onPing]
  split
  · exact ⟨hupdated.connections, hupdated.bestConnection⟩
  · rename_i conn _
    have hping : P2PTransportChannel.Steady (r.channel.updateConnectionStates r.clock)
        ((r.channel.updateConnectionStates r.clock).withConnection conn (·.ping r.clock)) :=
      steady_withConnection (by exact fun _ => ⟨rfl, rfl, rfl⟩) conn _
    exact ⟨(hupdated.trans hping).connections, (hupdated.trans hping).bestConnection⟩

theorem lastPingSent_after (r : PingRound) (conn : ℕ) : (r.after.connectionAt conn).lastPingSent =
    if r.chosen = some conn then r.clock else (r.channel.connectionAt conn).lastPingSent := by
  have hupdated := lastPingSent_updateConnectionStates r.clock r.channel conn
  rw [after, onPing, chosen, updated]
  cases (r.channel.updateConnectionStates r.clock).findNextPingableConnection r.clock with
  | none => exact hupdated
  | some a =>
    rw [connectionAt_withConnection]
    by_cases hconn : conn = a
    · subst hconn
      rw [Function.update_self, if_pos rfl]
      rfl
    · rw [Function.update_of_ne hconn, if_neg fun heq => hconn (Option.some.inj heq).symm]
      exact hupdated

theorem Recorded.lastPingSent_updated (h : r.Recorded) {conn : ℕ} (hconn : conn ∈ r.channel.connections) :
    (r.updated.connectionAt conn).lastPingSent = .ofNat (r.sent conn) :=
  (lastPingSent_updateConnectionStates r.clock r.channel conn).trans (h.lastPingSent conn hconn)

/-- **Pings are fair while the clock does not wrap around.** -/
theorem fair_of_inOrder (h : r.Recorded) (horder : r.InOrder) : r.Fair := by
  have hmem {conn : ℕ} (hconn : conn ∈ r.updated.pingable) : conn ∈ r.channel.connections := by
    have hupdated := (List.mem_filter.mp hconn).1
    rwa [connections_updated] at hupdated
  constructor
  · intro hnot conn hchosen hsent other hother hne
    rw [chosen, findNext_of_not_bestDue hnot] at hchosen
    obtain ⟨hconn, hleast⟩ := oldestPingable_spec hchosen
    by_contra hlt
    have hbefore : r.sent other < r.sent conn := by
      refine lt_of_le_of_ne (not_lt.mp hlt) fun heq => hne ?_
      exact (h.apart conn (hmem hconn) other (hmem hother) hsent heq.symm).symm
    -- the one that has waited the longest would have been chosen
    obtain ⟨first, hmemFirst, hlongest⟩ :=
      r.updated.pingable.toFinset.exists_min_image r.sent ⟨other, List.mem_toFinset.mpr hother⟩
    have hfirst := List.mem_toFinset.mp hmemFirst
    have hwaited : r.sent first < r.sent conn :=
      (hlongest other (List.mem_toFinset.mpr hother)).trans_lt hbefore
    have hclock := horder.oldest hnot first hfirst
      (fun other hother => hlongest other (List.mem_toFinset.mpr hother)) conn hconn hwaited
    have hle := hleast first hfirst
    rw [h.lastPingSent_updated (hmem hconn), h.lastPingSent_updated (hmem hfirst), UInt32.le_iff_toNat_le,
      UInt32.toNat_ofNat', UInt32.toNat_ofNat'] at hle
    exact absurd hclock (not_lt.mpr hle)
  · intro best hbest hwritable hdelay
    have hclock := horder.best best hbest hwritable hdelay
    have hdue : (r.updated.connectionAt best).lastPingSent + MAX_CURRENT_WRITABLE_DELAY ≤ r.clock := by
      have hin := h.best_mem best ((steady_updateConnectionStates r.clock r.channel).bestConnection ▸ hbest)
      rw [h.lastPingSent_updated hin, clock, UInt32.le_iff_toNat_le, UInt32.toNat_add, UInt32.toNat_ofNat',
        UInt32.toNat_ofNat', Nat.mod_add_mod]
      exact hclock
    rw [chosen, findNextPingableConnection, hbest]
    exact if_pos ⟨hwritable, hdue⟩

theorem Recorded.follows (h : r.Recorded) (hr : Follows r r') : r'.Recorded := by
  have hold {conn : ℕ} (hconn : conn ∈ r'.channel.connections) : conn ∈ r.channel.connections :=
    hr.connections.mem_iff.mp hconn
  have hafter {conn : ℕ} (hconn : conn ∈ r'.channel.connections) : r.sentAfter conn ≤ r.time := by
    rw [sentAfter]
    split
    · exact le_rfl
    · exact (h.past conn (hold hconn)).le
  refine ⟨hr.best_mem, fun conn hconn => ?_, fun conn hconn => ?_, fun a ha b hb hpos heq => ?_⟩
  · rcases hr.pinged conn hconn with ⟨hsent, hlast⟩ | ⟨-, -, hlast⟩
    · rw [hlast, hsent, lastPingSent_after, sentAfter]
      split
      · rfl
      · exact h.lastPingSent conn (hold hconn)
    · exact hlast
  · rcases hr.pinged conn hconn with ⟨hsent, -⟩ | ⟨-, hlt, -⟩
    · rw [hsent]
      exact (hafter hconn).trans_lt hr.time
    · exact hlt
  by_cases hlate : r.time < r'.sent a
  · exact hr.apart a ha b hb hlate heq
  have hkept {conn : ℕ} (hconn : conn ∈ r'.channel.connections) (hearly : ¬r.time < r'.sent conn) :
      r'.sent conn = r.sentAfter conn := by
    rcases hr.pinged conn hconn with ⟨hsent, -⟩ | ⟨hbetween, -, -⟩
    · exact hsent
    · exact absurd hbetween hearly
  have hsame : r.sentAfter a = r.sentAfter b := by
    rw [← hkept ha hlate, ← hkept hb (heq ▸ hlate), heq]
  have hpast {conn : ℕ} (hconn : conn ∈ r'.channel.connections) := h.past conn (hold hconn)
  rw [sentAfter, sentAfter] at hsame
  split at hsame
  · rename_i hchosen
    split at hsame
    · rename_i hchosen'
      exact Option.some.inj (hchosen.symm.trans hchosen')
    · exact absurd hsame (hpast hb).ne'
  · rename_i hnot
    split at hsame
    · exact absurd hsame (hpast ha).ne
    · rw [hkept ha hlate, sentAfter, if_neg hnot] at hpos
      exact h.apart a (hold ha) b (hold hb) hpos hsame

/-! ### All calls -/

/-- **Pings are fair while the clock does not wrap around**: in every run of `OnPing` whose calls all find the
times in order, every call pings fairly. -/
theorem fair_run (rounds : List PingRound) (hfirst : ∀ r ∈ rounds.head?, r.Recorded)
    (hrun : rounds.IsChain Follows) (horder : ∀ r ∈ rounds, r.InOrder) : ∀ r ∈ rounds, r.Fair := by
  have hrecorded : ∀ r ∈ rounds, r.Recorded := by
    clear horder
    induction hrun with
    | nil => exact List.forall_mem_nil _
    | singleton r => exact List.forall_mem_singleton.mpr (hfirst r rfl)
    | cons_cons hnext _ ih =>
      have hr := hfirst _ rfl
      refine List.forall_mem_cons.mpr ⟨hr, ih fun r hsome => ?_⟩
      cases hsome
      exact hr.follows hnext
  exact fun r hr => fair_of_inOrder (hrecorded r hr) (horder r hr)

/-- The next call, when nothing happens in between. -/
def next (r : PingRound) (time : ℕ) : PingRound := { time, channel := r.after, sent := r.sentAfter }

theorem follows_next (h : r.Recorded) {time : ℕ} (hlt : r.time < time) (hgap : time < r.time + 2 ^ 31) :
    Follows r (r.next time) := by
  obtain ⟨hconnections, hbest⟩ := connections_after r
  refine ⟨hlt, hgap, .of_eq hconnections, fun best hsome => ?_, fun _ _ => .inl ⟨rfl, rfl⟩, ?_⟩
  · exact hconnections ▸ h.best_mem best (hbest ▸ hsome)
  intro a ha b _ hlate
  have hpast := h.past a (hconnections ▸ ha)
  change r.time < (if r.chosen = some a then r.time else r.sent a) at hlate
  split at hlate
  · exact absurd hlate (lt_irrefl _)
  · exact absurd hlate (lt_asymm hpast)

/-- Two connections that have not been pinged. -/
def twoConnections (time : ℕ) : PingRound where
  time := time
  channel := ((create 1).addConnection 0 blankCandidate 0).addConnection 0 blankCandidate 0
  sent := fun _ => 0

theorem recorded_twoConnections {time : ℕ} (h : 0 < time) : (twoConnections time).Recorded := by
  have hzero : ∀ conn ∈ (twoConnections 0).channel.connections,
      ((twoConnections 0).channel.connectionAt conn).lastPingSent = 0 := by decide
  refine ⟨fun best hbest => ?_, hzero, fun _ _ => h, ?_⟩
  · cases hbest
  · intro a _ b _ hpos
    exact absurd hpos (lt_irrefl 0)

theorem fair_twoConnections : (twoConnections 1000).Fair ∧ ((twoConnections 1000).next 1480).Fair := by
  have hfirst : (twoConnections 1000).Recorded := recorded_twoConnections (by decide)
  have hrun := fair_run [twoConnections 1000, (twoConnections 1000).next 1480] ?_ ?_ ?_
  · exact ⟨hrun _ List.mem_cons_self, hrun _ (List.mem_cons_of_mem _ List.mem_cons_self)⟩
  · rintro r hr
    cases hr
    exact hfirst
  · exact .cons_cons (follows_next hfirst (by decide) (by decide)) (.singleton _)
  refine List.forall_mem_cons.mpr ⟨⟨fun _ => ?_, fun best hbest => ?_⟩,
    List.forall_mem_singleton.mpr ⟨fun _ => ?_, fun best hbest => ?_⟩⟩
  · decide +kernel
  · cases hbest
  · decide +kernel
  · cases hbest

/-- The first connection, pinged just behind the wrap of the clock, is pinged again before the
second one. -/
theorem not_fair_across_wrap :
    let first := twoConnections 4294947296
    let second := first.next 4294951296
    let third := second.next 4294967301
    let fourth := third.next 4294967796
    first.Recorded ∧ [first, second, third, fourth].IsChain Follows ∧ ¬fourth.Fair := by
  intro first second third fourth
  have hfirst : first.Recorded := recorded_twoConnections (by decide)
  have hsecond : Follows first second := follows_next hfirst (by decide) (by decide)
  have hthird : Follows second third := follows_next (hfirst.follows hsecond) (by decide) (by decide)
  have hfourth : Follows third fourth :=
    follows_next ((hfirst.follows hsecond).follows hthird) (by decide) (by decide)
  refine ⟨hfirst, .cons_cons hsecond (.cons_cons hthird (.cons_cons hfourth (.singleton _))), fun hfair => ?_⟩
  have hnone : fourth.updated.bestConnection = none := by decide +kernel
  have hidle : ¬fourth.updated.BestDue fourth.clock := by
    rintro ⟨best, hbest, -⟩
    rw [hnone] at hbest
    cases hbest
  exact absurd (hfair.oldest hidle 0 (by decide +kernel) (by decide +kernel) 1 (by decide +kernel) (by decide))
    (by decide +kernel)

end PingRound

end Synciga.P2p
