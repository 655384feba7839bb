import Synciga.P2p.Liveness
import Synciga.P2p.RelayUses

/-!
# The lifetime of a relay binding

A client asks for a lifetime in seconds, and a timer finds out every so often whether the last use of the
binding lies a lifetime back. The lifetime is a product of 32 bits, and the times that are compared wrap around:
a large lifetime may become a short one, and close to the wrap a binding that was just used counts as unused.

## Main definitions

* `WatchedRelay` — a server, with what really happened to its bindings

## Main results

* `livesAsUsed_iff` — when every binding lives as it is used
-/

namespace Synciga

/-! ### A server with its clock -/

/-- What happens to a server, apart from the time: a packet, `MSG_LIFETIME_TIMER` of a binding, or
that the thread disposes of it. -/
inductive RelayEvent
  | internalPacket (localAddr remoteAddr : SocketAddress) (bytes : List UInt8) (choice : Nat)
  | externalPacket (localAddr remoteAddr : SocketAddress) (bytes : List UInt8)
  | timer (username : List UInt8)
  | dispose (username : List UInt8)
  deriving DecidableEq, Repr

/-- What it is for a server whose clock reads this. -/
def RelayEvent.op (now : UInt32) : RelayEvent → RelayOp
  | .internalPacket localAddr remoteAddr bytes choice => .internalPacket localAddr remoteAddr bytes choice now
  | .externalPacket localAddr remoteAddr bytes => .externalPacket localAddr remoteAddr bytes now
  | .timer username => .timer username now
  | .dispose username => .dispose username

/-- What is known of a binding object from when it is made until it is deleted. -/
structure WatchedBinding where
  /-- The lifetime attribute, in seconds. -/
  requested : Option UInt32
  /-- When a connection of it was last made or sent through. -/
  lastUse : ℕ
  /-- How many `MSG_LIFETIME_TIMER` are posted. -/
  timers : ℕ
  /-- For each `SignalTimeout`, for how long the binding had not been used. -/
  timeouts : List ℕ
  deriving DecidableEq, Repr

/-- A server, a clock that does not wrap around, and the binding objects that there are. -/
structure WatchedRelay where
  server : RelayServer
  clock : ℕ
  bindings : List UInt8 → Option WatchedBinding

namespace WatchedRelay

/-- A server that was just made. -/
def create (externalSocket : SocketAddress) (more : List SocketAddress) (clock : ℕ) : WatchedRelay :=
  ⟨.create externalSocket more, clock, fun _ => none⟩

instance decidableUses (s : RelayServer) (op : RelayOp) (username : List UInt8) :
    Decidable (username ∈ s.uses op) :=
  decidable_of_iff ((s.uses op).any (username == ·) = true) (by simp)

/-- The binding objects behind a packet. -/
def bindingsAfter (op : RelayOp) (t : ℕ) (w : WatchedRelay) : List UInt8 → Option WatchedBinding :=
  let used (username : List UInt8) : Option WatchedBinding :=
    (w.bindings username).map fun k =>
      if username ∈ w.server.uses op then { k with lastUse := t } else k
  match w.server.newBinding op with
  | none => used
  | some (request, username) =>
    Function.update used username (some ⟨request.getUInt32 0x000d, t, 1, []⟩)

/-- The binding objects behind an event, if it is possible: a timer arrives only if it is posted,
and what is disposed of has emitted `SignalTimeout`. -/
def watch (t : ℕ) (w : WatchedRelay) : RelayEvent → Option (List UInt8 → Option WatchedBinding)
  | .internalPacket localAddr remoteAddr bytes choice =>
    some (w.bindingsAfter (.internalPacket localAddr remoteAddr bytes choice (.ofNat t)) t)
  | .externalPacket localAddr remoteAddr bytes =>
    some (w.bindingsAfter (.externalPacket localAddr remoteAddr bytes (.ofNat t)) t)
  | .timer username =>
    match w.bindings username with
    | none => none
    | some k =>
      if k.timers = 0 then none
      else if w.server.expires username (.ofNat t) then
        some (Function.update w.bindings username
          (some { k with timers := k.timers - 1, timeouts := k.timeouts ++ [t - k.lastUse] }))
      -- it is posted again
      else some w.bindings
  | .dispose username =>
    match w.bindings username with
    | none => none
    | some k => if k.timeouts = [] then none else some (Function.update w.bindings username none)

/-- A step: something happens at this time. -/
def step (w : WatchedRelay) (e : ℕ × RelayEvent) : Option WatchedRelay :=
  if e.1 < w.clock then none
  else (w.watch e.1 e.2).map fun bindings => ⟨w.server.step (e.2.op (.ofNat e.1)), e.1, bindings⟩

/-! ### What is expected -/

variable (requested : Option UInt32)

/-- The lifetime that a lifetime attribute asks for, in milliseconds. -/
def effectiveLifetime : ℕ :=
  requested.elim maxLifetime.toNat fun value => min maxLifetime.toNat (1000 * value.toNat)

/-- Every entry of `bindings_` is a binding that was not deleted, has the lifetime asked for, and has emitted
`SignalTimeout` at most once, unused for a lifetime. -/
structure LivesAsUsed (w : WatchedRelay) : Prop where
  entries : ∀ username, (w.server.bindings username).isSome → (w.bindings username).isSome
  lifetime : ∀ username b k, w.server.bindings username = some b → w.bindings username = some k →
    b.lifetime.toNat = effectiveLifetime k.requested
  unused : ∀ username b k, w.server.bindings username = some b → w.bindings username = some k →
    ∀ idle ∈ k.timeouts, b.lifetime.toNat ≤ idle
  once : ∀ username k, w.bindings username = some k → k.timeouts.length ≤ 1

/-- The lifetime in milliseconds fits into 32 bits, or what is left of it is not too short. -/
def FitsLifetime (value : UInt32) : Prop := 1000 * value.toNat < 2 ^ 32 ∨ maxLifetime ≤ value * 1000

instance instDecidableFitsLifetime (value : UInt32) : Decidable (FitsLifetime value) :=
  inferInstanceAs (Decidable (_ ∨ _))

/-- A binding is made with a lifetime that fits, and the timer of one used less than a lifetime ago does not
find the end of the lifetime wrapped around and the time now not. -/
def Keeps (w : WatchedRelay) (e : ℕ × RelayEvent) : Prop :=
  (∀ allocated ∈ w.server.newBinding (e.2.op (.ofNat e.1)),
    ∀ value ∈ allocated.1.getUInt32 0x000d, FitsLifetime value) ∧
  match e.2 with
  | .timer username => ∀ b ∈ w.server.bindings username, ∀ k ∈ w.bindings username,
      e.1 < k.lastUse + b.lifetime.toNat → ¬P2p.WrapsEarly b.lifetime.toNat k.lastUse e.1
  | _ => True

-- not by counting through all the values of 32 bits
instance instDecidableFits (w : WatchedRelay) (e : ℕ × RelayEvent) :
    Decidable (∀ allocated ∈ w.server.newBinding (e.2.op (.ofNat e.1)),
      ∀ value ∈ allocated.1.getUInt32 0x000d, FitsLifetime value) :=
  @Option.decidableForallMem _ _
    (fun (allocated : StunMessage × List UInt8) =>
      @Option.decidableForallMem _ _ instDecidableFitsLifetime (allocated.1.getUInt32 0x000d)) _

instance (w : WatchedRelay) (e : ℕ × RelayEvent) : Decidable (w.Keeps e) :=
  @instDecidableAnd _ _ (instDecidableFits w e) <|
    match e with
    | (t, .timer username) =>
      inferInstanceAs (Decidable (∀ b ∈ w.server.bindings username, ∀ k ∈ w.bindings username,
        t < k.lastUse + b.lifetime.toNat → ¬P2p.WrapsEarly b.lifetime.toNat k.lastUse t))
    | (_, .internalPacket ..) => instDecidableTrue
    | (_, .externalPacket ..) => instDecidableTrue
    | (_, .dispose _) => instDecidableTrue

/-! ### What a step does to a binding -/

variable {w w' : WatchedRelay} {e : ℕ × RelayEvent} {username : List UInt8}

/-- The lifetime of the binding that is made for a lifetime attribute. -/
def lifetimeOf : UInt32 :=
  requested.elim maxLifetime fun value => min maxLifetime (value * 1000)

theorem requestedLifetime_eq (request : StunMessage) :
    RelayServer.requestedLifetime request = lifetimeOf (request.getUInt32 0x000d) := by
  rw [RelayServer.requestedLifetime, lifetimeOf]
  cases request.getUInt32 0x000d <;> rfl

/-- A binding of the server, and what is known of the object. -/
structure Follows (clock : ℕ) (b : RelayServerBinding) (k : WatchedBinding) : Prop where
  lifetime : b.lifetime = lifetimeOf k.requested
  lastUsed : b.lastUsed = .ofNat k.lastUse
  past : k.lastUse ≤ clock
  timers : k.timers + k.timeouts.length = 1
  expired : b.expired = decide (k.timers = 0)

/-- The entries of `bindings_` are the bindings that were not deleted. -/
def Tracked (w : WatchedRelay) : Prop :=
  ∀ username, Option.Rel (Follows w.clock) ((w.server.bindings username).map (·.bare))
    (w.bindings username)

variable {b : RelayServerBinding} {k : WatchedBinding}

theorem Follows.expired_of_timeouts {clock : ℕ}
    (h : Follows clock b k) (hemitted : k.timeouts ≠ []) : b.expired = true := by
  have hlength := List.length_pos_iff.mpr hemitted
  have htimers := h.timers
  rw [h.expired, decide_eq_true_iff]
  omega

/-- What becomes of a binding, and of its object. -/
inductive Outcome (w : WatchedRelay) (e : ℕ × RelayEvent) (username : List UInt8) :
    Option RelayServerBinding → Option WatchedBinding → Prop
  | gone (hnew : ∀ request, w.server.newBinding (e.2.op (.ofNat e.1)) ≠ some (request, username))
      (htimer : e.2 = .timer username → w.bindings username = none) : Outcome w e username none none
  | made (request : StunMessage)
      (hnew : w.server.newBinding (e.2.op (.ofNat e.1)) = some (request, username)) :
      Outcome w e username (some ⟨lifetimeOf (request.getUInt32 0x000d), .ofNat e.1, [], [], false⟩)
        (some ⟨request.getUInt32 0x000d, e.1, 1, []⟩)
  | kept (b : RelayServerBinding) (k : WatchedBinding) (hb : w.server.bindings username = some b)
      (hk : w.bindings username = some k)
      (hnew : ∀ request, w.server.newBinding (e.2.op (.ofNat e.1)) ≠ some (request, username))
      (htimer : e.2 = .timer username → w.server.expires username (.ofNat e.1) = false) :
      Outcome w e username (some b.bare) (some k)
  | used (b : RelayServerBinding) (k : WatchedBinding) (hb : w.server.bindings username = some b)
      (hk : w.bindings username = some k)
      (hnew : ∀ request, w.server.newBinding (e.2.op (.ofNat e.1)) ≠ some (request, username))
      (htimer : e.2 ≠ .timer username) :
      Outcome w e username (some { b.bare with lastUsed := .ofNat e.1 }) (some { k with lastUse := e.1 })
  | timedOut (b : RelayServerBinding) (k : WatchedBinding) (hb : w.server.bindings username = some b)
      (hk : w.bindings username = some k) (htimer : e.2 = .timer username) (hposted : k.timers ≠ 0)
      (hexpires : w.server.expires username (.ofNat e.1) = true) :
      Outcome w e username (some { b.bare with expired := true })
        (some { k with timers := k.timers - 1, timeouts := k.timeouts ++ [e.1 - k.lastUse] })

theorem Tracked.cases (h : w.Tracked) (username : List UInt8) :
    (w.server.bindings username = none ∧ w.bindings username = none) ∨
      ∃ b k, w.server.bindings username = some b ∧ w.bindings username = some k ∧
        Follows w.clock b.bare k := by
  have hrel := h username
  cases hb : w.server.bindings username with
  | none =>
    cases hk : w.bindings username with
    | none => exact .inl ⟨rfl, rfl⟩
    | some k =>
      rw [hb, hk] at hrel
      cases hrel
  | some b =>
    cases hk : w.bindings username with
    | none =>
      rw [hb, hk] at hrel
      cases hrel
    | some k =>
      rw [hb, hk] at hrel
      cases hrel with
      | some hfollows => exact .inr ⟨b, k, rfl, rfl, hfollows⟩

theorem bindingsAfter_of_ne {op : RelayOp} {t : ℕ}
    (hnew : ∀ request, w.server.newBinding op ≠ some (request, username)) :
    w.bindingsAfter op t username = (w.bindings username).map (fun k =>
        if username ∈ w.server.uses op then { k with lastUse := t } else k) ∧
      (w.server.makeBinding (w.server.newBinding op) (.ofNat t)).bindings username =
        w.server.bindings username := by
  rw [bindingsAfter]
  cases hmade : w.server.newBinding op with
  | none => exact ⟨rfl, rfl⟩
  | some allocated =>
    obtain ⟨request, made⟩ := allocated
    have hne : username ≠ made := fun heq => hnew request (by rw [hmade, heq])
    exact ⟨Function.update_of_ne hne _ _, Function.update_of_ne hne _ _⟩

theorem outcome_packet (h : w.Tracked) {t : ℕ} {event : RelayEvent} (hevent : event ≠ .timer username)
    {s' : RelayServer} (hused : RelayServer.UsedBy (w.server.uses (event.op (.ofNat t))) (.ofNat t)
      (w.server.makeBinding (w.server.newBinding (event.op (.ofNat t))) (.ofNat t)) s') :
    Outcome w (t, event) username ((s'.bindings username).map (·.bare))
      (w.bindingsAfter (event.op (.ofNat t)) t username) := by
  rw [hused username]
  by_cases hnew : ∃ request, w.server.newBinding (event.op (.ofNat t)) = some (request, username)
  · obtain ⟨request, hmade⟩ := hnew
    have hserver :
        (w.server.makeBinding (w.server.newBinding (event.op (.ofNat t))) (.ofNat t)).bindings username =
          some ⟨lifetimeOf (request.getUInt32 0x000d), .ofNat t, [], [], false⟩ := by
      rw [hmade, ← requestedLifetime_eq]
      exact Function.update_self _ _ _
    have hobject : w.bindingsAfter (event.op (.ofNat t)) t username =
        some ⟨request.getUInt32 0x000d, t, 1, []⟩ := by
      rw [bindingsAfter, hmade]
      exact Function.update_self _ _ _
    rw [hserver, hobject, Option.map_some, Option.map_some, RelayServer.touch]
    split
    · exact .made request hmade
    · exact .made request hmade
  · have hne : ∀ request, w.server.newBinding (event.op (.ofNat t)) ≠ some (request, username) :=
      fun request hmade => hnew ⟨request, hmade⟩
    obtain ⟨hobject, hserver⟩ := bindingsAfter_of_ne (t := t) hne
    rw [hobject, hserver]
    rcases h.cases username with ⟨hb, hk⟩ | ⟨b, k, hb, hk, -⟩
    · rw [hb, hk]
      exact .gone hne fun heq => absurd heq hevent
    rw [hb, hk, Option.map_some, Option.map_some, Option.map_some, RelayServer.touch]
    by_cases hmem : username ∈ w.server.uses (event.op (.ofNat t))
    · rw [if_pos hmem, if_pos hmem]
      exact .used b k hb hk hne hevent
    · rw [if_neg hmem, if_neg hmem]
      exact .kept b k hb hk hne fun heq => absurd heq hevent

theorem step_eq_some (hstep : w.step e = some w') :
    w.clock ≤ e.1 ∧ ∃ bindings, w.watch e.1 e.2 = some bindings ∧
      w' = ⟨w.server.step (e.2.op (.ofNat e.1)), e.1, bindings⟩ := by
  rw [step] at hstep
  split at hstep
  · cases hstep
  · rename_i hclock
    obtain ⟨bindings, hbindings, heq⟩ := Option.map_eq_some_iff.mp hstep
    exact ⟨not_lt.mp hclock, bindings, hbindings, heq.symm⟩

theorem outcome_kept (h : w.Tracked) (hnew : w.server.newBinding (e.2.op (.ofNat e.1)) = none)
    (htimer : e.2 = .timer username → w.server.expires username (.ofNat e.1) = false) :
    Outcome w e username ((w.server.bindings username).map (·.bare)) (w.bindings username) := by
  have hne : ∀ request, w.server.newBinding (e.2.op (.ofNat e.1)) ≠ some (request, username) := by
    intro request hmade
    rw [hnew] at hmade
    cases hmade
  rcases h.cases username with ⟨hb, hk⟩ | ⟨b, k, hb, hk, -⟩
  · rw [hb, hk]
    exact .gone hne fun _ => hk
  · rw [hb, hk]
    exact .kept b k hb hk hne htimer

theorem outcome_step (h : w.Tracked) (hstep : w.step e = some w') (username : List UInt8) :
    Outcome w e username ((w'.server.bindings username).map (·.bare)) (w'.bindings username) := by
  obtain ⟨hclock, bindings, hbindings, rfl⟩ := step_eq_some hstep
  obtain ⟨t, event⟩ := e
  cases event with
  | internalPacket localAddr remoteAddr bytes choice =>
    cases hbindings
    exact outcome_packet h RelayEvent.noConfusion
      (RelayServer.usedBy_onInternalPacket localAddr remoteAddr bytes choice (.ofNat t) w.server)
  | externalPacket localAddr remoteAddr bytes =>
    cases hbindings
    exact outcome_packet h RelayEvent.noConfusion
      (RelayServer.usedBy_onExternalPacket localAddr remoteAddr bytes (.ofNat t) w.server)
  | timer timed =>
    rw [watch] at hbindings
    change Outcome w _ username (((w.server.onTimer timed (.ofNat t)).bindings username).map _) _
    rcases h.cases timed with ⟨-, hnone⟩ | ⟨b, k, hb, hk, hfollows⟩
    · rw [hnone] at hbindings
      cases hbindings
    rw [hk] at hbindings
    dsimp only at hbindings
    split at hbindings
    · cases hbindings
    rename_i hposted
    cases hexpires : w.server.expires timed (.ofNat t) with
    | false =>
      rw [hexpires, if_neg Bool.false_ne_true] at hbindings
      cases hbindings
      rw [RelayServer.onTimer_of_not_expires hexpires]
      refine outcome_kept h rfl fun heq => ?_
      cases heq
      exact hexpires
    | true =>
      rw [hexpires, if_pos rfl] at hbindings
      cases hbindings
      rw [RelayServer.onTimer_of_expires hb hexpires]
      dsimp only
      by_cases heq : username = timed
      · subst heq
        rw [Function.update_self, Function.update_self]
        exact .timedOut b k hb hk rfl hposted hexpires
      · rw [Function.update_of_ne heq, Function.update_of_ne heq]
        exact outcome_kept h rfl fun htimer => absurd (RelayEvent.timer.inj htimer).symm heq
  | dispose disposed =>
    rw [watch] at hbindings
    change Outcome w _ username (((w.server.dispose disposed).bindings username).map _) _
    rcases h.cases disposed with ⟨-, hnone⟩ | ⟨b, k, hb, hk, hfollows⟩
    · rw [hnone] at hbindings
      cases hbindings
    rw [hk] at hbindings
    dsimp only at hbindings
    split at hbindings
    · cases hbindings
    rename_i hemitted
    cases hbindings
    rw [RelayServer.bindings_dispose hb (hfollows.expired_of_timeouts hemitted)]
    dsimp only
    by_cases heq : username = disposed
    · subst heq
      rw [Function.update_self, Function.update_self]
      refine .gone (fun request hmade => ?_) RelayEvent.noConfusion
      exact absurd (show none = some (request, username) from hmade) (Option.some_ne_none _).symm
    · rw [Function.update_of_ne heq, Function.update_of_ne heq]
      exact outcome_kept h rfl RelayEvent.noConfusion

theorem Tracked.follows (h : w.Tracked)
    (hb : w.server.bindings username = some b) (hk : w.bindings username = some k) :
    Follows w.clock b.bare k := by
  rcases h.cases username with ⟨hnone, -⟩ | ⟨b', k', hb', hk', hfollows⟩
  · rw [hb] at hnone
    cases hnone
  · cases hb.symm.trans hb'
    cases hk.symm.trans hk'
    exact hfollows

theorem Outcome.follows {ob : Option RelayServerBinding} {ok : Option WatchedBinding}
    (houtcome : Outcome w e username ob ok) (h : w.Tracked) (hclock : w.clock ≤ e.1) :
    Option.Rel (Follows e.1) ob ok := by
  cases houtcome with
  | gone => exact .none
  | made request => exact .some ⟨rfl, rfl, le_rfl, rfl, rfl⟩
  | kept b k hb hk =>
    have hfollows := h.follows hb hk
    exact .some { hfollows with past := hfollows.past.trans hclock }
  | used b k hb hk =>
    have hfollows := h.follows hb hk
    exact .some ⟨hfollows.lifetime, rfl, le_rfl, hfollows.timers, hfollows.expired⟩
  | timedOut b k hb hk _ hposted =>
    have hfollows := h.follows hb hk
    have htimers := hfollows.timers
    refine .some ⟨hfollows.lifetime, hfollows.lastUsed, hfollows.past.trans hclock, ?_, ?_⟩
    · rw [List.length_append, List.length_singleton]
      dsimp only
      omega
    · exact (decide_eq_true (show k.timers - 1 = 0 by omega)).symm

theorem tracked_step (h : w.Tracked) (hstep : w.step e = some w') : w'.Tracked := by
  have houtcome := outcome_step h hstep
  obtain ⟨hclock, bindings, -, rfl⟩ := step_eq_some hstep
  exact fun username => (houtcome username).follows h hclock

theorem tracked_create (externalSocket : SocketAddress) (more : List SocketAddress) (clock : ℕ) :
    (create externalSocket more clock).Tracked :=
  fun _ => .none

/-! ### What a step keeps -/

/-- A binding has the lifetime that was asked for, and did not emit `SignalTimeout` too early. -/
structure Fair (b : RelayServerBinding) (k : WatchedBinding) : Prop where
  lifetime : b.lifetime.toNat = effectiveLifetime k.requested
  unused : ∀ idle ∈ k.timeouts, b.lifetime.toNat ≤ idle

theorem Tracked.lives_iff (h : w.Tracked) :
    w.LivesAsUsed ↔ ∀ username b k, w.server.bindings username = some b → w.bindings username = some k →
      Fair b k := by
  constructor
  · intro hlives username b k hb hk
    exact ⟨hlives.lifetime username b k hb hk, hlives.unused username b k hb hk⟩
  intro hfair
  refine ⟨fun username hb => ?_, fun username b k hb hk => (hfair username b k hb hk).lifetime,
    fun username b k hb hk => (hfair username b k hb hk).unused, fun username k hk => ?_⟩
  · rcases h.cases username with ⟨hnone, -⟩ | ⟨b, k, -, hk, -⟩
    · rw [hnone] at hb
      cases hb
    · rw [hk]
      rfl
  rcases h.cases username with ⟨-, hnone⟩ | ⟨b, k', -, hk', hfollows⟩
  · rw [hk] at hnone
    cases hnone
  · cases hk.symm.trans hk'
    have htimers := hfollows.timers
    omega

theorem toNat_lifetimeOf_some (value : UInt32) : (lifetimeOf (some value)).toNat =
      if maxLifetime ≤ value * 1000 then maxLifetime.toNat else (value * 1000).toNat := by
  change (if maxLifetime ≤ value * 1000 then maxLifetime else value * 1000).toNat = _
  split <;> rfl

theorem toNat_lifetimeOf_le : (lifetimeOf requested).toNat ≤ maxLifetime.toNat := by
  cases requested with
  | none => exact le_rfl
  | some value =>
    rw [toNat_lifetimeOf_some]
    split
    · exact le_rfl
    · rename_i hlt
      exact (not_le.mp hlt).le

theorem toNat_lifetimeOf_iff : (lifetimeOf requested).toNat = effectiveLifetime requested ↔
      ∀ value ∈ requested, FitsLifetime value := by
  have hmax : maxLifetime.toNat = 900000 := rfl
  cases requested with
  | none => exact ⟨fun _ value hvalue => absurd hvalue (Option.some_ne_none _).symm, fun _ => rfl⟩
  | some value =>
    have hall : (∀ v ∈ some value, FitsLifetime v) ↔ FitsLifetime value :=
      ⟨fun h => h value rfl, fun h v hv => Option.some.inj hv ▸ h⟩
    have hproduct : (value * 1000).toNat = value.toNat * 1000 % 2 ^ 32 := UInt32.toNat_mul value 1000
    rw [hall, toNat_lifetimeOf_some, effectiveLifetime, Option.elim_some, FitsLifetime]
    simp only [UInt32.le_iff_toNat_le, hproduct, hmax]
    rcases lt_or_ge (value.toNat * 1000) (2 ^ 32) with hfits | hwraps
    · rw [Nat.mod_eq_of_lt hfits]
      split <;> omega
    · have hrest : value.toNat * 1000 % 2 ^ 32 < 2 ^ 32 := Nat.mod_lt _ (by decide)
      split <;> omega

/-- A step keeps what is expected of this binding. -/
structure KeepsOf (w : WatchedRelay) (e : ℕ × RelayEvent) (username : List UInt8) : Prop where
  fits : ∀ request, w.server.newBinding (e.2.op (.ofNat e.1)) = some (request, username) →
    ∀ value ∈ request.getUInt32 0x000d, FitsLifetime value
  timer : e.2 = .timer username → ∀ b ∈ w.server.bindings username, ∀ k ∈ w.bindings username,
    e.1 < k.lastUse + b.lifetime.toNat → ¬P2p.WrapsEarly b.lifetime.toNat k.lastUse e.1

theorem keeps_iff : w.Keeps e ↔ ∀ username, w.KeepsOf e username := by
  constructor
  · rintro ⟨hfits, htimer⟩ username
    refine ⟨fun request hnew => hfits (request, username) hnew, fun heq => ?_⟩
    rw [heq] at htimer
    exact htimer
  intro hkeeps
  refine ⟨fun allocated hnew => (hkeeps allocated.2).fits allocated.1 hnew, ?_⟩
  split
  · rename_i username heq
    exact (hkeeps username).timer heq
  · trivial

theorem newBinding_timer {request : StunMessage} {timed : List UInt8} (htimer : e.2 = .timer timed) :
    w.server.newBinding (e.2.op (.ofNat e.1)) ≠ some (request, username) := by
  rw [htimer]
  exact Option.some_ne_none _ |>.symm

theorem Follows.expires_iff (h : Follows w.clock b.bare k)
    (hb : w.server.bindings username = some b) (hclock : w.clock ≤ e.1)
    (hrecent : e.1 < k.lastUse + b.lifetime.toNat) :
    w.server.expires username (.ofNat e.1) = true ↔ P2p.WrapsEarly b.lifetime.toNat k.lastUse e.1 := by
  have hshort : b.lifetime.toNat < 2 ^ 31 := by
    have hle := toNat_lifetimeOf_le k.requested
    rw [← h.lifetime] at hle
    exact lt_of_le_of_lt hle (by decide)
  rw [RelayServer.expires_eq hb, decide_eq_true_iff, show b.lastUsed = .ofNat k.lastUse from h.lastUsed]
  exact P2p.deadline_le_iff hshort (h.past.trans hclock) hrecent

theorem Outcome.fair_iff {ob : Option RelayServerBinding} {ok : Option WatchedBinding}
    (houtcome : Outcome w e username ob ok) (h : w.Tracked) (hlives : w.LivesAsUsed)
    (hclock : w.clock ≤ e.1) :
    (∀ b k, ob = some b → ok = some k → Fair b k) ↔ w.KeepsOf e username := by
  have hfair {b : RelayServerBinding} {k : WatchedBinding} (hb : w.server.bindings username = some b)
      (hk : w.bindings username = some k) : Fair b k := h.lives_iff.mp hlives username b k hb hk
  have hone {b : RelayServerBinding} {k : WatchedBinding} :
      (∀ b' k', some b = some b' → some k = some k' → Fair b' k') ↔ Fair b k :=
    ⟨fun hall => hall b k rfl rfl, fun hbk b' k' hb' hk' => by cases hb'; cases hk'; exact hbk⟩
  cases houtcome with
  | gone hnew htimer =>
    refine ⟨fun _ => ⟨fun request hmade => absurd hmade (hnew request), fun heq b _ k hk => ?_⟩,
      fun _ b k hb => absurd hb (Option.some_ne_none b).symm⟩
    rw [htimer heq] at hk
    exact absurd hk (Option.some_ne_none k).symm
  | made request hnew =>
    rw [hone]
    constructor
    · intro hmade
      refine ⟨fun request' hnew' => ?_, fun heq => absurd hnew (newBinding_timer heq)⟩
      cases hnew.symm.trans hnew'
      exact (toNat_lifetimeOf_iff _).mp hmade.lifetime
    · intro hkeeps
      exact ⟨(toNat_lifetimeOf_iff _).mpr (hkeeps.fits request hnew),
        fun _ hidle => absurd hidle List.not_mem_nil⟩
  | kept b k hb hk hnew htimer =>
    rw [hone]
    refine ⟨fun _ => ⟨fun request hmade => absurd hmade (hnew request),
        fun heq b' hb' k' hk' hrecent => ?_⟩,
      fun _ => ⟨(hfair hb hk).lifetime, (hfair hb hk).unused⟩⟩
    cases hb.symm.trans hb'
    cases hk.symm.trans hk'
    rw [← (h.follows hb hk).expires_iff hb hclock hrecent, htimer heq]
    exact Bool.false_ne_true
  | used b k hb hk hnew htimer =>
    rw [hone]
    exact ⟨fun _ => ⟨fun request hmade => absurd hmade (hnew request), fun heq => absurd heq htimer⟩,
      fun _ => ⟨(hfair hb hk).lifetime, (hfair hb hk).unused⟩⟩
  | timedOut b k hb hk htimer hposted hexpires =>
    have hfollows := h.follows hb hk
    have hnever (hrecent : e.1 < k.lastUse + b.lifetime.toNat) :
        P2p.WrapsEarly b.lifetime.toNat k.lastUse e.1 :=
      (hfollows.expires_iff hb hclock hrecent).mp hexpires
    rw [hone]
    constructor
    · intro htimedOut
      refine ⟨fun request hmade => absurd hmade (newBinding_timer htimer),
        fun _ b' hb' k' hk' hrecent => ?_⟩
      cases hb.symm.trans hb'
      cases hk.symm.trans hk'
      have hidle : b.lifetime.toNat ≤ e.1 - k.lastUse :=
        htimedOut.unused _ (List.mem_append_right _ (List.mem_singleton_self _))
      have hpast : k.lastUse ≤ e.1 := hfollows.past.trans hclock
      omega
    intro hkeeps
    refine ⟨(hfair hb hk).lifetime, fun idle hidle => ?_⟩
    rcases List.mem_append.mp hidle with hold | hlast
    · exact (hfair hb hk).unused idle hold
    have hlate : ¬ e.1 < k.lastUse + b.lifetime.toNat :=
      fun hrecent => hkeeps.timer htimer b hb k hk hrecent (hnever hrecent)
    rw [List.mem_singleton.mp hlast]
    change b.lifetime.toNat ≤ _
    omega

theorem livesAsUsed_step (h : w.Tracked) (hlives : w.LivesAsUsed) (hstep : w.step e = some w') :
    w'.LivesAsUsed ↔ w.Keeps e := by
  have hclock := (step_eq_some hstep).1
  rw [(tracked_step h hstep).lives_iff, keeps_iff]
  refine forall_congr' fun username => ?_
  rw [← (outcome_step h hstep username).fair_iff h hlives hclock]
  constructor
  · intro hfair b k hb hk
    obtain ⟨b', hb', rfl⟩ := Option.map_eq_some_iff.mp hb
    have hbk := hfair b' k hb' hk
    exact ⟨hbk.lifetime, hbk.unused⟩
  · intro hfair b k hb hk
    have hbk := hfair b.bare k (Option.map_eq_some_iff.mpr ⟨b, hb, rfl⟩) hk
    exact ⟨hbk.lifetime, hbk.unused⟩

/-- In every state of every possible run each binding has the lifetime asked for, was not used in that lifetime
before `SignalTimeout`, has emitted it at most once, and is in `bindings_` only until it is deleted, if and only
if all steps of the run are such. -/
theorem livesAsUsed_iff (externalSocket : SocketAddress) (more : List SocketAddress) (clock : ℕ)
    (events : List (ℕ × RelayEvent)) (w : WatchedRelay)
    (hrun : Runs.run step (create externalSocket more clock) events = some w) :
    (∀ front back v, events = front ++ back →
        Runs.run step (create externalSocket more clock) front = some v → v.LivesAsUsed) ↔
      Runs.Admissible step Keeps (create externalSocket more clock) events := by
  refine (Runs.admissible_iff_states (fun s a s' hs hstep => tracked_step hs hstep)
    (fun s a s' hs hq hstep => livesAsUsed_step hs hq hstep)
    (tracked_create externalSocket more clock) ?_ hrun).symm
  rw [(tracked_create externalSocket more clock).lives_iff]
  exact fun _ _ _ hb => absurd hb (Option.some_ne_none _).symm

/-- A client asks for ten minutes shortly before the clock wraps around, and uses its binding behind the wrap,
and when `SignalTimeout` was emitted. -/
theorem livesAsUsed_wrap :
    let inside : SocketAddress := ⟨.ipv4 0x09090909, 4000⟩
    let outside : SocketAddress := ⟨.ipv4 0x09090909, 5000⟩
    let alice : SocketAddress := ⟨.ipv4 0x01010101, 1⟩
    let allocate : List UInt8 := [0, 3, 0, 24] ++ List.replicate 16 0 ++
      [0, 15, 0, 4, 0x72, 0xC6, 0x4B, 0xC6, 0, 6, 0, 4, 97, 97, 97, 97] ++ [0, 13, 0, 4, 0, 0, 2, 88]
    let events : List (ℕ × RelayEvent) :=
      [(2 ^ 32 - 300000, .internalPacket inside alice allocate 0),
        (2 ^ 32 + 100000, .internalPacket inside alice allocate 0),
        (2 ^ 32 + 300000, .timer [97, 97, 97, 97]), (2 ^ 32 + 900000, .timer [97, 97, 97, 97]),
        (2 ^ 32 + 900001, .internalPacket inside alice allocate 0),
        (2 ^ 32 + 900002, .dispose [97, 97, 97, 97])]
    ∀ front back v, events = front ++ back →
      Runs.run step (create outside [] (2 ^ 32 - 300000)) front = some v → v.LivesAsUsed := by
  intro inside outside alice allocate events
  have hrun : (Runs.run step (create outside [] (2 ^ 32 - 300000)) events).isSome = true := by
    decide +kernel
  obtain ⟨w, hw⟩ := Option.isSome_iff_exists.mp hrun
  exact (livesAsUsed_iff outside [] (2 ^ 32 - 300000) events w hw).mpr (by decide +kernel)

/-- A client that asks for more than 49 days is given less than a second. -/
theorem not_livesAsUsed_longLifetime :
    let inside : SocketAddress := ⟨.ipv4 0x09090909, 4000⟩
    let outside : SocketAddress := ⟨.ipv4 0x09090909, 5000⟩
    let alice : SocketAddress := ⟨.ipv4 0x01010101, 1⟩
    let allocate : List UInt8 := [0, 3, 0, 16] ++ List.replicate 16 0 ++
      [0, 6, 0, 4, 97, 97, 97, 97] ++ [0, 13, 0, 4, 0, 65, 137, 56]
    ∃ v, Runs.run step (create outside [] 0) [(0, .internalPacket inside alice allocate 0)] = some v ∧
      ¬ v.LivesAsUsed := by
  intro inside outside alice allocate
  have hfound :
      ((Runs.run step (create outside [] 0) [(0, .internalPacket inside alice allocate 0)]).bind fun v =>
        (v.server.bindings [97, 97, 97, 97]).bind fun b =>
          (v.bindings [97, 97, 97, 97]).map fun k => (b.lifetime, k.requested)) =
        some (704, some 4294968) := by decide +kernel
  obtain ⟨v, hv, hb⟩ := Option.bind_eq_some_iff.mp hfound
  obtain ⟨b, hb, hk⟩ := Option.bind_eq_some_iff.mp hb
  obtain ⟨k, hk, heq⟩ := Option.map_eq_some_iff.mp hk
  obtain ⟨hlifetime, hrequested⟩ := Prod.mk.inj heq
  refine ⟨v, hv, fun hlives => ?_⟩
  have heffective := hlives.lifetime _ b k hb hk
  rw [hlifetime, hrequested] at heffective
  exact absurd heffective (by decide)

end WatchedRelay

end Synciga
