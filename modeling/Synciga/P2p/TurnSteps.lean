import Synciga.P2p.TurnPort

/-!
# What the events of a TURN port leave alone

Everything but a new connection and a destroyed one leaves the entries as they are, up to their states. An
answer makes new requests, and then its own is deleted.

## Main definitions

* `Sound` — the invariant
* `Extends` — what an event adds

## Main results

* `Sound.step` — every event keeps it
-/

namespace Synciga.P2p

/-- A request for an entry has its channel and its address. -/
def TurnRequestKind.Own (peers : List (ℕ × TalkBase.SocketAddress)) : TurnRequestKind → Prop
  | .createPermission (some entry) extAddr => (entry, extAddr) ∈ peers
  | .channelBind (some entry) channelId extAddr => entry = channelId ∧ (entry, extAddr) ∈ peers
  | _ => True

/-- `OnErrorResponse` looks at the error code. -/
def TurnRequestKind.readsErrorCode (kind : TurnRequestKind) : Bool :=
  match kind with
  | .allocate => true
  | .refresh => true
  | .createPermission entry _ => entry.isSome
  | .channelBind entry _ _ => entry.isSome

namespace TurnPort

/-- The channels and the addresses of the entries. -/
def peers (s : TurnPort) : List (ℕ × TalkBase.SocketAddress) :=
  s.entries.map fun e => (e.channelId, e.extAddr)

/-- Requests and signals are added, and the entries are those that there were. -/
structure Extends (s s' : TurnPort) : Prop where
  peers : s'.peers = s.peers
  connections : s'.connections = s.connections
  nextChannelNumber : s'.nextChannelNumber = s.nextChannelNumber
  nextConnection : s'.nextConnection = s.nextConnection
  resolver : s'.resolver = s.resolver ∨ s'.resolver = .running
  requests : ∀ r ∈ s.requests, r ∈ s'.requests
  owned : ∀ r ∈ s'.requests, r ∈ s.requests ∨ r.kind.Own s.peers
  ids : (s.requests.map (·.id)).Nodup → (s'.requests.map (·.id)).Nodup
  signals : ∀ signal ∈ s.signals, signal ∈ s'.signals
  fault : s'.fault = s.fault

variable {crypto : TurnCrypto} {s s' s'' : TurnPort} {t : ℕ} {response : StunMessage} {id : List UInt8}
  {kind : TurnRequestKind} {e : TurnEntry} {delay : Int32}

/-! ### The relation -/

theorem Extends.refl (s : TurnPort) : s.Extends s :=
  ⟨rfl, rfl, rfl, rfl, .inl rfl, fun _ h => h, fun _ => .inl, fun h => h, fun _ h => h, rfl⟩

theorem Extends.trans (h : s.Extends s') (h' : s'.Extends s'') : s.Extends s'' where
  peers := h'.peers.trans h.peers
  connections := h'.connections.trans h.connections
  nextChannelNumber := h'.nextChannelNumber.trans h.nextChannelNumber
  nextConnection := h'.nextConnection.trans h.nextConnection
  resolver := by
    rcases h'.resolver with hsame | hrunning
    · exact hsame ▸ h.resolver
    · exact .inr hrunning
  requests r hr := h'.requests r (h.requests r hr)
  owned r hr := by
    rcases h'.owned r hr with hmem | hown
    · exact h.owned r hmem
    · exact .inr (h.peers ▸ hown)
  ids hids := h'.ids (h.ids hids)
  signals signal hs := h'.signals signal (h.signals signal hs)
  fault := h'.fault.trans h.fault

theorem own_of_mem (he : e ∈ s.entries) : (e.channelId, e.extAddr) ∈ s.peers := List.mem_map_of_mem he

/-! ### The parts of an answer -/

theorem extends_emit (signal : TurnSignal) : s.Extends (s.emit signal) :=
  { Extends.refl s with signals := fun _ h => List.mem_append_left _ h }

theorem extends_setRealm (realm : List UInt8) : s.Extends (s.setRealm crypto realm) := by
  rw [setRealm]
  split
  · exact .refl s
  · exact { Extends.refl s with }

theorem extends_setNonce (nonce : List UInt8) : s.Extends (s.setNonce nonce) := { Extends.refl s with }

theorem extends_updateNonce : s.Extends (s.updateNonce crypto response).2 := by
  rw [updateNonce]
  split
  · exact .refl s
  · split
    · exact extends_setRealm _
    · exact (extends_setRealm _).trans (extends_setNonce _)

theorem extends_setState (channelId : ℕ) (state : BindState) : s.Extends (s.setState channelId state) where
  __ := Extends.refl s
  peers := by
    rw [TurnPort.peers, TurnPort.peers, setState, List.map_map]
    refine List.map_congr_left fun e _ => ?_
    rw [Function.comp_apply]
    split <;> rfl

theorem sendRequest_eq_some_iff : s.sendRequest t kind delay id = some s' ↔ (∀ r ∈ s.requests, r.id ≠ id) ∧
      s' = { s with requests := s.requests ++ [{ id, kind, delay, due := t + delay.toInt }] } := by
  have hany : (s.requests.any fun r => r.id = id) = true ↔ ¬∀ r ∈ s.requests, r.id ≠ id := by simp
  rw [sendRequest]
  split
  case isTrue hused => exact iff_of_false (Option.some_ne_none _).symm fun h => hany.mp hused h.1
  case isFalse hnew =>
    rw [Option.some_inj, eq_comm, iff_and_self]
    exact fun _ => not_not.mp (mt hany.mpr hnew)

variable {request : TurnRequest}

theorem nodup_append_request {requests : List TurnRequest}
    (hids : (requests.map (·.id)).Nodup) (hnew : ∀ r ∈ requests, r.id ≠ request.id) :
    ((requests ++ [request]).map (·.id)).Nodup := by
  rw [List.map_append, List.map_singleton]
  refine List.nodup_append.mpr ⟨hids, List.nodup_singleton _, fun a ha b hb hab => ?_⟩
  obtain ⟨r, hr, rfl⟩ := List.mem_map.mp ha
  exact hnew r hr (hab.trans (List.mem_singleton.mp hb))

theorem extends_sendRequest (h : s.sendRequest t kind delay id = some s') (hkind : kind.Own s.peers) :
    s.Extends s' := by
  obtain ⟨hnew, rfl⟩ := sendRequest_eq_some_iff.mp h
  refine { Extends.refl s with
    requests := fun r hr => List.mem_append_left _ hr
    owned := fun r hr => ?_
    ids := fun hids => ?_ }
  · rcases List.mem_append.mp hr with hold | hone
    · exact .inl hold
    · rw [List.mem_singleton.mp hone]
      exact .inr hkind
  · exact nodup_append_request hids hnew

theorem extends_scheduleRefresh {lifetime : UInt32} (h : s.scheduleRefresh t lifetime id = some s') :
    s.Extends s' := by
  rw [scheduleRefresh] at h
  split at h
  · cases h
    exact .refl s
  · exact extends_sendRequest h trivial

theorem extends_sendChannelBindRequest (hpeer : (e.channelId, e.extAddr) ∈ s.peers)
    (h : s.sendChannelBindRequest t e delay id = some s') : s.Extends s' :=
  extends_sendRequest h ⟨rfl, hpeer⟩

variable {n : ℕ}

theorem mem_of_findChannel (h : s.findChannel n = some e) : e ∈ s.entries ∧ e.channelId = n := by
  exact ⟨List.mem_of_find?_eq_some h, by simpa using List.find?_some h⟩

variable {addr : TalkBase.SocketAddress}

theorem exists_findChannel (h : (n, addr) ∈ s.peers) :
    ∃ e, s.findChannel n = some e := by
  obtain ⟨e, he, hpeer⟩ := List.mem_map.mp h
  cases hpeer
  refine Option.isSome_iff_exists.mp (List.find?_isSome.mpr ⟨e, he, ?_⟩)
  exact decide_eq_true rfl

/-- What a request does with its entry: nothing, if it was destroyed, or else what is done with the
entry. -/
theorem withEntry_cases {entry : Option ℕ} {f : TurnEntry → Option TurnPort}
    (hentry : ∀ n ∈ entry, ∃ addr, (n, addr) ∈ s.peers) (h : s.withEntry entry f = some s') :
    entry = none ∧ s' = s ∨ ∃ n e, entry = some n ∧ s.findChannel n = some e ∧ f e = some s' := by
  rw [withEntry.eq_def] at h
  split at h
  · exact .inl ⟨rfl, (Option.some.inj h).symm⟩
  · obtain ⟨addr, haddr⟩ := hentry _ rfl
    obtain ⟨e, hfind⟩ := exists_findChannel haddr
    rw [hfind] at h
    exact .inr ⟨_, e, rfl, hfind, h⟩

theorem entry_of_own {peers : List (ℕ × TalkBase.SocketAddress)} (h : kind.Own peers) :
    ∀ n ∈ kind.entry, ∃ addr, (n, addr) ∈ peers := by
  intro n hn
  rcases kind with _ | _ | ⟨_ | m, addr⟩ | ⟨_ | m, channelId, addr⟩
  case createPermission.some =>
    cases hn
    exact ⟨addr, h⟩
  case channelBind.some =>
    cases hn
    exact ⟨addr, h.2⟩
  all_goals cases hn

/-! ### Answers -/

theorem extends_allocateOnResponse (h : s.allocateOnResponse t response id = some s') : s.Extends s' := by
  rw [allocateOnResponse] at h
  split at h
  · cases h
    exact .refl s
  split at h
  · cases h
    exact .refl s
  · split at h
    · cases h
      exact .refl s
    · exact (extends_emit _).trans (extends_scheduleRefresh h)

theorem extends_onAuthChallenge (h : s.onAuthChallenge crypto t response id = some s') : s.Extends s' := by
  rw [onAuthChallenge] at h
  split at h
  · cases h
    exact extends_emit _
  split at h
  · cases h
    exact .refl s
  split at h
  · cases h
    exact extends_setRealm _
  · rename_i realm _ _ nonce _
    have hset : s.Extends ((s.setRealm crypto realm).setNonce nonce) :=
      (extends_setRealm realm).trans (extends_setNonce nonce)
    exact hset.trans (extends_sendRequest h trivial)

theorem allocateOnErrorResponse_cases (h : s.allocateOnErrorResponse crypto t response id = some s') :
    response.getErrorCode = none ∧ s' = { s with fault := true } ∨ s.Extends s' := by
  rw [allocateOnErrorResponse] at h
  split at h
  · rename_i hcode
    exact .inl ⟨hcode, (Option.some.inj h).symm⟩
  · split at h
    · exact .inr (extends_onAuthChallenge h)
    · cases h
      exact .inr (extends_emit _)

theorem extends_refreshOnResponse (h : s.refreshOnResponse t response id = some s') : s.Extends s' := by
  rw [refreshOnResponse] at h
  split at h
  · cases h
    exact .refl s
  · exact extends_scheduleRefresh h

theorem extends_of_updateNonce (h : (if (s.updateNonce crypto response).1 then
      (s.updateNonce crypto response).2.sendRequest t kind delay id
    else some (s.updateNonce crypto response).2) = some s') (hkind : kind.Own s.peers) :
    s.Extends s' := by
  have hnonce : s.Extends (s.updateNonce crypto response).2 := extends_updateNonce
  split at h
  · exact hnonce.trans (extends_sendRequest h (hnonce.peers ▸ hkind))
  · cases h
    exact hnonce

theorem refreshOnErrorResponse_cases (h : s.refreshOnErrorResponse crypto t response id = some s') :
    response.getErrorCode = none ∧ s' = { s with fault := true } ∨ s.Extends s' := by
  rw [refreshOnErrorResponse] at h
  split at h
  · rename_i hcode
    exact .inl ⟨hcode, (Option.some.inj h).symm⟩
  · split at h
    · exact .inr (extends_of_updateNonce h trivial)
    · cases h
      exact .inr (.refl s)

theorem extends_onCreatePermissionError {code : ℕ} (he : e ∈ s.entries)
    (h : s.onCreatePermissionError crypto t response id e code = some s') : s.Extends s' := by
  rw [onCreatePermissionError] at h
  split at h
  · have hown : TurnRequestKind.Own s.peers (.createPermission (some e.channelId) e.extAddr) :=
      own_of_mem he
    exact extends_of_updateNonce h hown
  · cases h
    exact extends_emit _

theorem extends_onChannelBindError {code : ℕ} (he : e ∈ s.entries)
    (h : s.onChannelBindError crypto t response id e code = some s') : s.Extends s' := by
  rw [onChannelBindError] at h
  split at h
  · have hown : TurnRequestKind.Own s.peers (.channelBind (some e.channelId) e.channelId e.extAddr) :=
      ⟨rfl, own_of_mem he⟩
    exact extends_of_updateNonce h hown
  · cases h
    exact .refl s

theorem extends_onResponse (hown : kind.Own s.peers) (h : s.onResponse t response id kind = some s') :
    s.Extends s' := by
  cases kind with
  | allocate => exact extends_allocateOnResponse h
  | refresh => exact extends_refreshOnResponse h
  | createPermission entry extAddr =>
    rcases withEntry_cases (entry_of_own hown) h with ⟨-, rfl⟩ | ⟨n, e, -, -, hdone⟩
    · exact .refl s'
    · cases hdone
      exact extends_emit _
  | channelBind entry channelId extAddr =>
    rcases withEntry_cases (entry_of_own hown) h with ⟨-, rfl⟩ | ⟨n, e, -, hfind, hdone⟩
    · exact .refl s'
    · have hstate := extends_setState (s := s) e.channelId .bound
      have he := own_of_mem (mem_of_findChannel hfind).1
      exact hstate.trans (extends_sendChannelBindRequest (hstate.peers ▸ he) hdone)

theorem onErrorResponse_cases (hown : kind.Own s.peers)
    (h : s.onErrorResponse crypto t response id kind = some s') :
    response.getErrorCode = none ∧ kind.readsErrorCode = true ∧ s' = { s with fault := true } ∨
      s.Extends s' := by
  cases kind with
  | allocate =>
    rcases allocateOnErrorResponse_cases h with ⟨hcode, hfault⟩ | hextends
    · exact .inl ⟨hcode, rfl, hfault⟩
    · exact .inr hextends
  | refresh =>
    rcases refreshOnErrorResponse_cases h with ⟨hcode, hfault⟩ | hextends
    · exact .inl ⟨hcode, rfl, hfault⟩
    · exact .inr hextends
  | createPermission entry extAddr =>
    rcases withEntry_cases (entry_of_own hown) h with ⟨-, rfl⟩ | ⟨n, e, rfl, hfind, hdone⟩
    · exact .inr (.refl s')
    · split at hdone
      · rename_i hcode
        exact .inl ⟨hcode, rfl, (Option.some.inj hdone).symm⟩
      · exact .inr (extends_onCreatePermissionError (mem_of_findChannel hfind).1 hdone)
  | channelBind entry channelId extAddr =>
    rcases withEntry_cases (entry_of_own hown) h with ⟨-, rfl⟩ | ⟨n, e, rfl, hfind, hdone⟩
    · exact .inr (.refl s')
    · split at hdone
      · rename_i hcode
        exact .inl ⟨hcode, rfl, (Option.some.inj hdone).symm⟩
      · exact .inr (extends_onChannelBindError (mem_of_findChannel hfind).1 hdone)

theorem respond_cases {success : Bool} (hown : request.kind.Own s.peers)
    (h : s.respond crypto t response id request success = some s') :
    ∃ s₁, s' = s₁.deleteRequest request.id ∧
      (success = true ∧ s.onResponse t response id request.kind = some s₁ ∨
        success = false ∧ s.onErrorResponse crypto t response id request.kind = some s₁) ∧
      (success = false ∧ response.getErrorCode = none ∧ request.kind.readsErrorCode = true ∧
          s₁ = { s with fault := true } ∨ s.Extends s₁) := by
  obtain ⟨s₁, hs₁, rfl⟩ := Option.map_eq_some_iff.mp h
  refine ⟨s₁, rfl, ?_⟩
  split at hs₁
  · rename_i hsuccess
    exact ⟨.inl ⟨hsuccess, hs₁⟩, .inr (extends_onResponse hown hs₁)⟩
  · rename_i hsuccess
    have hfalse := Bool.eq_false_of_not_eq_true hsuccess
    exact ⟨.inr ⟨hfalse, hs₁⟩, (onErrorResponse_cases hown hs₁).imp_left fun hfault => ⟨hfalse, hfault⟩⟩

/-- `OnReadPacket` does not look at the requests. -/
def Ignores (crypto : TurnCrypto) (s : TurnPort) (data : List UInt8) (beyond : ℕ → UInt8) : Prop :=
  data.length < TURN_CHANNEL_HEADER_SIZE ∨ isTurnChannelData (msgType data) ∨ msgType data = 0x0017 ∨
    isStunSuccessResponseType (msgType data) ∧ StunMessage.validateMessageIntegrity crypto.hmac
      (StunMessage.memory data beyond) data.length s.hash = false

variable {data : List UInt8}

theorem onReadPacket_cases {beyond : ℕ → UInt8} (h : s.onReadPacket crypto t data beyond id = some s') :
    s' = s ∨ ¬s.Ignores crypto data beyond ∧ ∃ request success response,
      s.answered data = some (request, success, response) ∧
        s.respond crypto t response id request success = some s' := by
  rw [onReadPacket] at h
  split at h
  · exact .inl (Option.some.inj h).symm
  split at h
  · exact .inl (Option.some.inj h).symm
  split at h
  · exact .inl (Option.some.inj h).symm
  split at h
  · exact .inl (Option.some.inj h).symm
  rename_i hlength hchannel hindication hintegrity
  split at h
  · exact .inl (Option.some.inj h).symm
  · rename_i request success response hanswered
    have hignores : ¬s.Ignores crypto data beyond :=
      not_or.mpr ⟨hlength, not_or.mpr ⟨hchannel, not_or.mpr ⟨hindication, hintegrity⟩⟩⟩
    exact .inr ⟨hignores, request, success, response, hanswered, h⟩

theorem mem_of_answered {success : Bool}
    (h : s.answered data = some (request, success, response)) : request ∈ s.requests := by
  rw [answered] at h
  split at h
  · cases h
  simp only [Option.bind_eq_bind, Option.bind_eq_some_iff] at h
  obtain ⟨-, -, ⟨read, rest⟩, -, found, hfound, hif⟩ := h
  have hmem := List.mem_of_find?_eq_some hfound
  split at hif
  · cases hif
    exact hmem
  · split at hif
    · cases hif
      exact hmem
    · cases hif

/-! ### The other events -/

theorem extends_resolveTurnAddress : s.Extends s.resolveTurnAddress := by
  rw [resolveTurnAddress]
  split
  · exact { Extends.refl s with resolver := .inr rfl }
  · exact .refl s

theorem extends_prepareAddress (h : s.prepareAddress t id = some s') : s.Extends s' := by
  have hport : s.Extends s.setDefaultPort := by
    rw [setDefaultPort]
    split
    · exact { Extends.refl s with }
    · exact .refl s
  rw [prepareAddress] at h
  split at h
  · cases h
    exact extends_emit _
  · dsimp only at h
    split at h
    · cases h
      exact hport.trans extends_resolveTurnAddress
    · exact hport.trans (extends_sendRequest h trivial)

theorem extends_onResolveResult {error : ℤ} {addresses : List IPAddress}
    (h : s.onResolveResult t error addresses id = some s') :
    { s with resolver := .done }.Extends s' := by
  rw [onResolveResult] at h
  split at h
  · cases h
    exact extends_emit _
  · refine Extends.trans ?_ (extends_prepareAddress h)
    exact { Extends.refl _ with }

theorem extends_sendTo {payload : Bool} (h : s.sendTo t addr payload id = some s') : s.Extends s' := by
  rw [sendTo] at h
  split at h
  · cases h
    exact .refl s
  rename_i e hfind
  split at h
  · obtain ⟨s₁, hs₁, rfl⟩ := Option.map_eq_some_iff.mp h
    have he : e ∈ s.entries := List.mem_of_find?_eq_some hfind
    exact (extends_sendChannelBindRequest (own_of_mem he) hs₁).trans (extends_setState _ _)
  · cases h
    exact .refl s

theorem createConnection_cases {protocol : String} (h : s.createConnection t protocol addr id = some s') :
    s.accepts protocol addr = false ∧ s' = s ∨ s.accepts protocol addr = true ∧
      (∀ r ∈ s.requests, r.id ≠ id) ∧ s' = { s with
        nextChannelNumber := s.nextChannelNumber + 1
        requests := s.requests ++
          [{ id, kind := .createPermission (some s.nextChannelNumber) addr, delay := 0,
             due := t + (0 : Int32).toInt }]
        entries := s.entries ++ [{ channelId := s.nextChannelNumber, extAddr := addr }]
        connections := s.connections ++ [(s.nextConnection, addr)]
        nextConnection := s.nextConnection + 1 } := by
  rw [createConnection] at h
  split at h
  · rename_i haccepts
    obtain ⟨s₂, hs₂, rfl⟩ := Option.map_eq_some_iff.mp h
    obtain ⟨s₁, hs₁, rfl⟩ := Option.map_eq_some_iff.mp hs₂
    obtain ⟨hnew, rfl⟩ := sendRequest_eq_some_iff.mp hs₁
    exact .inr ⟨haccepts, hnew, rfl⟩
  · rename_i haccepts
    exact .inl ⟨Bool.eq_false_of_not_eq_true haccepts, (Option.some.inj h).symm⟩

theorem onConnectionDestroyed_cases {conn : ℕ} (h : s.onConnectionDestroyed conn = some s') :
    ∃ addr, (conn, addr) ∈ s.connections ∧ ∃ e, s.findEntry addr = some e ∧ s' = { s with
      connections := s.connections.filter fun c => c.1 ≠ conn
      requests := s.requests.map fun r => { r with kind := r.kind.onEntryDestroyed e.channelId }
      entries := s.entries.filter fun e' => e'.channelId ≠ e.channelId } := by
  obtain ⟨⟨n, addr⟩, hfind, hdestroy⟩ := Option.bind_eq_some_iff.mp h
  obtain ⟨e, hentry, rfl⟩ := Option.map_eq_some_iff.mp hdestroy
  have hconn : n = conn := by simpa using List.find?_some hfind
  exact ⟨addr, hconn ▸ List.mem_of_find?_eq_some hfind, e, hentry, rfl⟩

theorem onMessage_cases (h : s.onMessage t id = some s') :
    ∃ r ∈ s.requests, r.id = id ∧ (r.timeout = true ∧ s' = s.deleteRequest id ∨ r.timeout = false ∧
        s' = { s with requests := s.requests.map fun r' => if r'.id = id then r.sent t else r' }) := by
  rw [onMessage] at h
  split at h
  · cases h
  rename_i r hfind
  have hid : r.id = id := by simpa using List.find?_some hfind
  refine ⟨r, List.mem_of_find?_eq_some hfind, hid, ?_⟩
  split at h
  · cases h
  · split at h
    · rename_i htimeout
      exact .inl ⟨htimeout, (Option.some.inj h).symm⟩
    · rename_i htimeout
      exact .inr ⟨Bool.eq_false_of_not_eq_true htimeout, (Option.some.inj h).symm⟩

/-! ### Sound requests -/

/-- The requests have different ids, and are for entries that there are. -/
structure Sound (s : TurnPort) : Prop where
  owned : ∀ r ∈ s.requests, r.kind.Own s.peers
  ids : (s.requests.map (·.id)).Nodup

theorem own_mono {l l' : List (ℕ × TalkBase.SocketAddress)} (hl : ∀ p ∈ l, p ∈ l') (h : kind.Own l) :
    kind.Own l' := by
  rcases kind with _ | _ | ⟨_ | n, a⟩ | ⟨_ | n, m, a⟩
  case createPermission.some => exact hl _ h
  case channelBind.some => exact ⟨h.1, hl _ h.2⟩
  all_goals trivial

theorem own_onEntryDestroyed {l : List (ℕ × TalkBase.SocketAddress)} (h : kind.Own l) :
    (kind.onEntryDestroyed n).Own (l.filter fun p => p.1 ≠ n) := by
  have hkeep (m : ℕ) (a : TalkBase.SocketAddress) (hne : ¬some m = some n) (hmem : (m, a) ∈ l) :
      (m, a) ∈ l.filter fun p => p.1 ≠ n :=
    List.mem_filter.mpr ⟨hmem, decide_eq_true fun heq => hne (congrArg some heq)⟩
  rcases kind with _ | _ | ⟨_ | m, a⟩ | ⟨_ | m, ch, a⟩
  case createPermission.some =>
    rw [TurnRequestKind.onEntryDestroyed]
    split
    · trivial
    · rename_i hne
      exact hkeep m a hne h
  case channelBind.some =>
    rw [TurnRequestKind.onEntryDestroyed]
    split
    · trivial
    · rename_i hne
      exact ⟨h.1, hkeep m a hne h.2⟩
  all_goals trivial

theorem Sound.extends (h : s.Sound) (hs : s.Extends s') : s'.Sound where
  owned r hr := by
    rw [hs.peers]
    exact (hs.owned r hr).elim (h.owned r) fun hown => hown
  ids := hs.ids h.ids

theorem Sound.deleteRequest (h : s.Sound) (id : List UInt8) : (s.deleteRequest id).Sound where
  owned r hr := h.owned r (List.mem_of_mem_filter hr)
  ids := h.ids.sublist (List.filter_sublist.map _)

theorem sound_fault (h : s.Sound) : { s with fault := true }.Sound := ⟨h.owned, h.ids⟩

theorem Sound.onReadPacket {beyond : ℕ → UInt8} (h : s.Sound)
    (hstep : s.onReadPacket crypto t data beyond id = some s') : s'.Sound := by
  rcases onReadPacket_cases hstep with rfl | ⟨-, request, success, response, hanswered, hrespond⟩
  · exact h
  · obtain ⟨s₁, rfl, -, hs₁⟩ := respond_cases (h.owned request (mem_of_answered hanswered)) hrespond
    rcases hs₁ with ⟨-, -, -, rfl⟩ | hextends
    · exact (sound_fault h).deleteRequest _
    · exact (h.extends hextends).deleteRequest _

theorem Sound.onMessage (h : s.Sound) (hstep : s.onMessage t id = some s') : s'.Sound := by
  obtain ⟨r, hr, hid, ⟨-, rfl⟩ | ⟨-, rfl⟩⟩ := onMessage_cases hstep
  · exact h.deleteRequest id
  constructor
  case owned =>
    intro r' hr'
    obtain ⟨old, hold, rfl⟩ := List.mem_map.mp hr'
    split
    · exact h.owned r hr
    · exact h.owned old hold
  case ids =>
    have hids : (s.requests.map fun r' => if r'.id = id then r.sent t else r').map (·.id) =
        s.requests.map (·.id) := by
      rw [List.map_map]
      refine List.map_congr_left fun old _ => ?_
      rw [Function.comp_apply]
      split
      · rename_i hold
        exact hid.trans hold.symm
      · rfl
    exact hids ▸ h.ids

theorem Sound.createConnection {protocol : String} (h : s.Sound)
    (hstep : s.createConnection t protocol addr id = some s') : s'.Sound := by
  rcases createConnection_cases hstep with ⟨-, rfl⟩ | ⟨-, hnew, rfl⟩
  · exact h
  constructor
  case owned =>
    intro r hr
    rw [peers, List.map_append]
    rcases List.mem_append.mp hr with hold | hone
    · exact own_mono (fun p hp => List.mem_append_left _ hp) (h.owned r hold)
    · rw [List.mem_singleton.mp hone]
      exact List.mem_append_right _ (List.mem_singleton_self _)
  case ids => exact nodup_append_request h.ids hnew

theorem Sound.onConnectionDestroyed {conn : ℕ} (h : s.Sound)
    (hstep : s.onConnectionDestroyed conn = some s') :
    s'.Sound := by
  obtain ⟨addr, -, e, -, rfl⟩ := onConnectionDestroyed_cases hstep
  constructor
  case owned =>
    intro r hr
    obtain ⟨old, hold, rfl⟩ := List.mem_map.mp hr
    have hown := own_onEntryDestroyed (n := e.channelId) (h.owned old hold)
    rw [peers, List.filter_map] at hown
    exact hown
  case ids =>
    rw [List.map_map]
    exact h.ids

theorem Sound.step {event : ℕ × TurnEvent} (h : s.Sound) (hstep : s.step crypto event = some s') :
    s'.Sound := by
  rw [TurnPort.step] at hstep
  split at hstep
  · cases hstep
  obtain ⟨t, event⟩ := event
  cases event with
  | prepareAddress id => exact h.extends (extends_prepareAddress hstep)
  | resolved error addresses id =>
    dsimp only at hstep
    split at hstep
    · have hdone : { s with resolver := .done }.Sound := ⟨h.owned, h.ids⟩
      exact hdone.extends (extends_onResolveResult hstep)
    · cases hstep
  | packet data beyond id => exact h.onReadPacket hstep
  | timer id => exact h.onMessage hstep
  | createConnection protocol addr id => exact h.createConnection hstep
  | connectionDestroyed conn => exact h.onConnectionDestroyed hstep
  | sendTo addr payload id => exact h.extends (extends_sendTo hstep)

theorem sound_new (ip : IPAddress) (username password : List UInt8) (server : TalkBase.SocketAddress) :
    (new ip username password server).Sound :=
  ⟨List.forall_mem_nil _, List.nodup_nil⟩

/-! ### Examples -/

/-- A port, and a peer. -/
def samplePort : TurnPort := new (.ipv4 0x0A000001) [117] [112] { ip := .ipv4 0x0A000002, port := 3478 }

/-- A peer. -/
def samplePeer : TalkBase.SocketAddress := { ip := .ipv4 0x01020304, port := 5000 }

/-- An id of a request. -/
def sampleId : List UInt8 := List.replicate 12 7

/-- A hash that takes the first bytes. -/
def sampleCrypto : TurnCrypto where
  hmac := StunMessage.firstTwenty
  credentialHash username realm password := username ++ realm ++ password

end TurnPort

end Synciga.P2p
