import Synciga.P2p.TurnSteps

/-!
# TURN channels identify peers

A channel number is given to one entry only, and below `0x8000` messages of the channel are told apart from STUN
messages. Every connection makes an entry, also one to an address that has one already, of which the first is
found and destroyed.

## Main definitions

* `Identified` — entries have their own addresses and numbers

## Main results

* `identified_iff` — they have, exactly if no connection is made to an address twice
-/

namespace Synciga

/-! ### Lists -/

theorem find?_eq_some_of_unique {α : Type*} {l : List α} {p : α → Bool} {a : α} (ha : a ∈ l)
    (hp : p a = true) (hunique : ∀ b ∈ l, p b = true → b = a) : l.find? p = some a := by
  cases hfind : l.find? p with
  | none => exact absurd hp (List.find?_eq_none.mp hfind a ha)
  | some b => rw [hunique b (List.mem_of_find?_eq_some hfind) (List.find?_some hfind)]

namespace P2p

open ByteBuffer TalkBase

namespace TurnPort

/-- What `OnReadPacket` dispatches of a packet that is channel data. -/
def dispatch (s : TurnPort) (data : List UInt8) : Option (List UInt8 × TalkBase.SocketAddress) :=
  if data.length < TURN_CHANNEL_HEADER_SIZE then none
  else if isTurnChannelData (msgType data) then s.handleChannelData (msgType data).toNat data
  else none

/-- Different entries have different addresses and channels, the messages of a channel go to its
entry, and no connection takes the entry of another one with it. -/
structure Identified (s : TurnPort) : Prop where
  addresses : s.entries.Pairwise fun e e' => e.extAddr.operatorEq e'.extAddr = false
  channels : (s.entries.map (·.channelId)).Nodup
  range : ∀ e ∈ s.entries, 0x4000 ≤ e.channelId ∧ e.channelId ≤ 0x7FFF
  sent : ∀ e ∈ s.entries, ∀ data : List UInt8, ∃ payload,
    s.dispatch (e.channelData data) = some (payload, e.extAddr) ∧
      (data.length < 2 ^ 16 → payload = data)
  received : ∀ e ∈ s.entries, ∀ data payload addr, (msgType data).toNat = e.channelId →
    s.dispatch data = some (payload, addr) → addr = e.extAddr
  bound : ∀ r ∈ s.requests, ∀ entry channelId extAddr,
    r.kind = .channelBind (some entry) channelId extAddr →
    ∃ e ∈ s.entries, e.channelId = entry ∧ e.channelId = channelId ∧ e.extAddr = extAddr
  others : ∀ conn ∈ s.connections, ∃ s', s.onConnectionDestroyed conn.1 = some s' ∧
    ∀ other ∈ s.connections, other.1 ≠ conn.1 →
      (s.findEntry other.2).isSome ∧ s'.findEntry other.2 = s.findEntry other.2

/-- A connection that is made is to an address without an entry, and there is a number for its
channel. -/
def Fresh (s : TurnPort) (event : ℕ × TurnEvent) : Prop :=
  ∀ protocol addr id, event.2 = .createConnection protocol addr id → s.accepts protocol addr →
    s.findEntry addr = none ∧ s.nextChannelNumber ≤ 0x7FFF

/-! ### The invariant -/

/-- The entries are those of the connections, in their order, and no number was given twice. -/
structure Numbered (s : TurnPort) : Prop where
  matched : s.peers.map Prod.snd = s.connections.map Prod.snd
  addresses : (s.peers.map Prod.snd).Pairwise fun a b => a.operatorEq b = false
  channels : (s.peers.map Prod.fst).Nodup
  range : ∀ p ∈ s.peers, 0x4000 ≤ p.1 ∧ p.1 ≤ 0x7FFF ∧ p.1 < s.nextChannelNumber
  start : 0x4000 ≤ s.nextChannelNumber
  connections : (s.connections.map Prod.fst).Nodup
  nextConnection : ∀ c ∈ s.connections, c.1 < s.nextConnection
  sound : s.Sound

variable {crypto : TurnCrypto} {s s' : TurnPort} {t : ℕ} {id : List UInt8} {e e' : TurnEntry}
  {addr : TalkBase.SocketAddress}

theorem numbered_new (ip : IPAddress) (username password : List UInt8) (server : TalkBase.SocketAddress) :
    (TurnPort.new ip username password server).Numbered where
  matched := rfl
  addresses := .nil
  channels := List.nodup_nil
  range := List.forall_mem_nil _
  start := le_refl _
  connections := List.nodup_nil
  nextConnection := List.forall_mem_nil _
  sound := sound_new ip username password server

theorem Numbered.extends (h : s.Numbered) (hs : s.Extends s') : s'.Numbered where
  matched := by rw [hs.peers, hs.connections, h.matched]
  addresses := by
    rw [hs.peers]
    exact h.addresses
  channels := by
    rw [hs.peers]
    exact h.channels
  range := by
    rw [hs.peers, hs.nextChannelNumber]
    exact h.range
  start := by
    rw [hs.nextChannelNumber]
    exact h.start
  connections := by
    rw [hs.connections]
    exact h.connections
  nextConnection := by
    rw [hs.connections, hs.nextConnection]
    exact h.nextConnection
  sound := h.sound.extends hs

theorem Numbered.deleteRequest (h : s.Numbered) (id : List UInt8) : (s.deleteRequest id).Numbered :=
  { h with sound := h.sound.deleteRequest id }

theorem Numbered.onMessage (h : s.Numbered) (hstep : s.onMessage t id = some s') : s'.Numbered := by
  have hsound := h.sound.onMessage hstep
  obtain ⟨r, -, -, ⟨-, rfl⟩ | ⟨-, rfl⟩⟩ := onMessage_cases hstep
  · exact h.deleteRequest id
  · exact { h with sound := hsound }

theorem Numbered.onReadPacket {data : List UInt8} {beyond : ℕ → UInt8} (h : s.Numbered)
    (hstep : s.onReadPacket crypto t data beyond id = some s') : s'.Numbered := by
  rcases onReadPacket_cases hstep with rfl | ⟨-, request, success, response, hanswered, hrespond⟩
  · exact h
  have hown := h.sound.owned request (mem_of_answered hanswered)
  obtain ⟨s₁, rfl, -, hs₁⟩ := respond_cases hown hrespond
  rcases hs₁ with ⟨-, -, -, rfl⟩ | hextends
  · have hfault : { s with fault := true }.Numbered := { h with sound := sound_fault h.sound }
    exact hfault.deleteRequest _
  · exact (h.extends hextends).deleteRequest _

/-! ### New connections -/

theorem operatorEq_false_of_findEntry (h : s.findEntry addr = none) :
    ∀ a ∈ s.peers.map Prod.snd, a.operatorEq addr = false := by
  intro a ha
  rw [peers, List.map_map] at ha
  obtain ⟨e, he, rfl⟩ := List.mem_map.mp ha
  exact Bool.eq_false_of_not_eq_true (List.find?_eq_none.mp h e he)

theorem Numbered.createConnection {protocol : String} (h : s.Numbered)
    (hfresh : s.accepts protocol addr → s.findEntry addr = none ∧ s.nextChannelNumber ≤ 0x7FFF)
    (hstep : s.createConnection t protocol addr id = some s') : s'.Numbered := by
  have hsound := h.sound.createConnection hstep
  rcases createConnection_cases hstep with ⟨-, rfl⟩ | ⟨haccepts, -, rfl⟩
  · exact h
  obtain ⟨hfind, hnext⟩ := hfresh haccepts
  constructor <;> try simp only [peers, List.map_append, List.map_singleton]
  case matched => exact congrArg (· ++ [addr]) h.matched
  case addresses =>
    refine List.pairwise_append.mpr ⟨h.addresses, List.pairwise_singleton _ _, fun a ha b hb => ?_⟩
    rw [List.mem_singleton.mp hb]
    exact operatorEq_false_of_findEntry hfind a ha
  case channels =>
    refine List.nodup_append.mpr ⟨h.channels, List.nodup_singleton _, fun n hn m hm heq => ?_⟩
    obtain ⟨p, hp, rfl⟩ := List.mem_map.mp hn
    have hlt := (h.range p hp).2.2
    rw [heq, List.mem_singleton.mp hm] at hlt
    exact lt_irrefl _ hlt
  case range =>
    intro p hp
    rcases List.mem_append.mp hp with hold | hone
    · obtain ⟨hlow, hhigh, hlt⟩ := h.range p hold
      exact ⟨hlow, hhigh, Nat.lt_succ_of_lt hlt⟩
    · rw [List.mem_singleton.mp hone]
      exact ⟨h.start, hnext, Nat.lt_succ_self _⟩
  case start => exact Nat.le_succ_of_le h.start
  case connections =>
    refine List.nodup_append.mpr ⟨h.connections, List.nodup_singleton _, fun n hn m hm heq => ?_⟩
    obtain ⟨c, hc, rfl⟩ := List.mem_map.mp hn
    have hlt := h.nextConnection c hc
    rw [heq, List.mem_singleton.mp hm] at hlt
    exact lt_irrefl _ hlt
  case nextConnection =>
    intro c hc
    rcases List.mem_append.mp hc with hold | hone
    · exact Nat.lt_succ_of_lt (h.nextConnection c hold)
    · rw [List.mem_singleton.mp hone]
      exact Nat.lt_succ_self _
  case sound => exact hsound

/-! ### Destroyed connections -/

section Pairs

variable {l : List (ℕ × TalkBase.SocketAddress)} {p q : ℕ × TalkBase.SocketAddress}
  (hfst : (l.map Prod.fst).Nodup) (hsnd : (l.map Prod.snd).Pairwise fun a b => a.operatorEq b = false)

include hfst hsnd

theorem fst_eq_iff_operatorEq (hp : p ∈ l) (hq : q ∈ l) : p.1 = q.1 ↔ p.2.operatorEq q.2 = true := by
  constructor
  · intro heq
    rw [List.inj_on_of_nodup_map hfst hp hq heq]
    exact operatorEq_refl _
  intro heq
  by_contra hne
  have hsymm : Std.Symm fun p q : ℕ × TalkBase.SocketAddress => p.2.operatorEq q.2 = false := by
    refine ⟨fun p q hpq => ?_⟩
    rw [Bool.eq_false_iff] at hpq ⊢
    exact fun hqp => hpq (operatorEq_symm hqp)
  have hfalse := (List.pairwise_map.mp hsnd).forall hp hq fun h => hne (congrArg _ h)
  rw [heq] at hfalse
  cases hfalse

theorem map_filter_fst (hq : q ∈ l) : (l.filter fun p => p.1 ≠ q.1).map Prod.snd =
      (l.map Prod.snd).filter fun a => !a.operatorEq q.2 := by
  rw [List.filter_map]
  refine congrArg _ (List.filter_congr fun p hp => ?_)
  rw [Function.comp_apply, decide_not, Bool.decide_congr (fst_eq_iff_operatorEq hfst hsnd hp hq),
    Bool.decide_eq_true]

end Pairs

theorem Numbered.findEntry (h : s.Numbered) (he : e ∈ s.entries) : s.findEntry e.extAddr = some e := by
  refine find?_eq_some_of_unique he (operatorEq_refl _) fun e' he' heq => ?_
  have hchannel :=
    (fst_eq_iff_operatorEq h.channels h.addresses (own_of_mem he') (own_of_mem he)).mpr heq
  have hnodup : (s.entries.map (·.channelId)).Nodup := by
    have hchannels := h.channels
    rw [peers, List.map_map] at hchannels
    exact hchannels
  exact List.inj_on_of_nodup_map hnodup he' he hchannel

theorem exists_entry_of_mem_peers {p : ℕ × TalkBase.SocketAddress} (hp : p ∈ s.peers) :
    ∃ e ∈ s.entries, (e.channelId, e.extAddr) = p :=
  List.mem_map.mp hp

variable {conn : ℕ}

theorem Numbered.exists_entry (h : s.Numbered) (hconn : (conn, addr) ∈ s.connections) :
    ∃ e ∈ s.entries, e.extAddr = addr := by
  have haddr : addr ∈ s.peers.map Prod.snd := h.matched ▸ List.mem_map_of_mem hconn
  obtain ⟨p, hp, rfl⟩ := List.mem_map.mp haddr
  obtain ⟨e, he, rfl⟩ := exists_entry_of_mem_peers hp
  exact ⟨e, he, rfl⟩

theorem Numbered.destroyed_cases (h : s.Numbered) (hstep : s.onConnectionDestroyed conn = some s') :
    ∃ e ∈ s.entries, (conn, e.extAddr) ∈ s.connections ∧ s' = { s with
      connections := s.connections.filter fun c => c.1 ≠ conn
      requests := s.requests.map fun r => { r with kind := r.kind.onEntryDestroyed e.channelId }
      entries := s.entries.filter fun e' => e'.channelId ≠ e.channelId } := by
  obtain ⟨addr, hmem, e, hfind, hs'⟩ := onConnectionDestroyed_cases hstep
  obtain ⟨e', he', rfl⟩ := h.exists_entry hmem
  cases hfind.symm.trans (h.findEntry he')
  exact ⟨e, he', hmem, hs'⟩

theorem Numbered.onConnectionDestroyed (h : s.Numbered)
    (hstep : s.onConnectionDestroyed conn = some s') : s'.Numbered := by
  have hsound := h.sound.onConnectionDestroyed hstep
  obtain ⟨e, he, hconn, hs'⟩ := h.destroyed_cases hstep
  have hpeer := own_of_mem he
  have hpeers : s'.peers = s.peers.filter fun p => p.1 ≠ e.channelId := by
    rw [hs', peers, peers, List.filter_map]
    rfl
  have hconnections : s'.connections = s.connections.filter fun c => c.1 ≠ conn := by rw [hs']
  have hnumbers : s'.nextChannelNumber = s.nextChannelNumber ∧ s'.nextConnection = s.nextConnection := by
    rw [hs']
    exact ⟨rfl, rfl⟩
  have hsub : (s.peers.filter fun p => p.1 ≠ e.channelId).Sublist s.peers := List.filter_sublist
  have haddresses : (s.connections.map Prod.snd).Pairwise fun a b => a.operatorEq b = false :=
    h.matched ▸ h.addresses
  constructor
  case matched =>
    have hleft := map_filter_fst h.channels h.addresses hpeer
    have hright := map_filter_fst h.connections haddresses hconn
    rw [hpeers, hconnections, hleft, hright, h.matched]
  case addresses =>
    rw [hpeers]
    exact h.addresses.sublist (hsub.map _)
  case channels =>
    rw [hpeers]
    exact h.channels.sublist (hsub.map _)
  case range =>
    rw [hpeers, hnumbers.1]
    exact fun p hp => h.range p (hsub.subset hp)
  case start =>
    rw [hnumbers.1]
    exact h.start
  case connections =>
    rw [hconnections]
    exact h.connections.sublist (List.filter_sublist.map _)
  case nextConnection =>
    rw [hconnections, hnumbers.2]
    exact fun c hc => h.nextConnection c (List.mem_of_mem_filter hc)
  case sound => exact hsound

/-! ### All events -/

theorem Numbered.step {event : ℕ × TurnEvent} (h : s.Numbered) (hfresh : s.Fresh event)
    (hstep : s.step crypto event = some s') : s'.Numbered := by
  rw [TurnPort.step] at hstep
  split at hstep
  · cases hstep
  obtain ⟨t, event⟩ := event
  cases event with
  | prepareAddress id => exact h.extends (extends_prepareAddress hstep)
  | resolved error addresses id =>
    dsimp only at hstep
    split at hstep
    · have hsound : { s with resolver := .done }.Sound := ⟨h.sound.owned, h.sound.ids⟩
      have hdone : { s with resolver := .done }.Numbered := { h with sound := hsound }
      exact hdone.extends (extends_onResolveResult hstep)
    · cases hstep
  | packet data beyond id => exact h.onReadPacket hstep
  | timer id => exact h.onMessage hstep
  | createConnection protocol addr id => exact h.createConnection (hfresh protocol addr id rfl) hstep
  | connectionDestroyed conn => exact h.onConnectionDestroyed hstep
  | sendTo addr payload id => exact h.extends (extends_sendTo hstep)

/-! ### Channel data -/

theorem and_channelMask {n : ℕ} (hn : n < 2 ^ 16) : n &&& 0xC000 = n / 2 ^ 14 * 2 ^ 14 := by
  have hmask : n &&& (3 <<< 14) = ((n >>> 14) &&& 3) <<< 14 := by
    refine Nat.eq_of_testBit_eq fun i => ?_
    rw [Nat.testBit_and, Nat.testBit_shiftLeft, Nat.testBit_shiftLeft, Nat.testBit_and,
      Nat.testBit_shiftRight]
    by_cases hi : i ≥ 14
    · rw [Nat.add_sub_cancel' hi]
      simp [hi]
    · simp [hi]
  have hthree : (n >>> 14) &&& 3 = n >>> 14 % 2 ^ 2 := Nat.and_two_pow_sub_one_eq_mod _ 2
  exact hmask.trans (by omega)

theorem isTurnChannelData_iff (type : UInt16) :
    isTurnChannelData type = true ↔ 0x4000 ≤ type.toNat ∧ type.toNat ≤ 0x7FFF := by
  have hlt := type.toNat_lt
  have hmask : (type &&& 0xC000).toNat = _ := (UInt16.toNat_and _ _).trans (and_channelMask hlt)
  rw [isTurnChannelData, decide_eq_true_eq, ← UInt16.toNat_inj, hmask]
  change type.toNat / 2 ^ 14 * 2 ^ 14 = 0x4000 ↔ _
  omega

theorem ofBytes_writeUInt16 (val : UInt16) : BigEndian.ofBytes (writeUInt16 val) = val.toNat :=
  BigEndian.ofBytes_toBytes val.toNat_lt

theorem msgType_channelData (e : TurnEntry) (data : List UInt8) :
    msgType (e.channelData data) = UInt16.ofNat e.channelId := by
  have htake : (e.channelData data).take 2 = writeUInt16 (UInt16.ofNat e.channelId) := rfl
  rw [msgType, htake, ofBytes_writeUInt16, UInt16.ofNat_toNat]

theorem dispatch_of_findChannel {data : List UInt8} (hlength : TURN_CHANNEL_HEADER_SIZE ≤ data.length)
    (hrange : 0x4000 ≤ (msgType data).toNat ∧ (msgType data).toNat ≤ 0x7FFF) :
    s.dispatch data = s.handleChannelData (msgType data).toNat data := by
  rw [dispatch, if_neg (not_lt.mpr hlength), if_pos ((isTurnChannelData_iff _).mpr hrange)]

theorem Numbered.findChannel (h : s.Numbered) (he : e ∈ s.entries) :
    s.findChannel e.channelId = some e := by
  have hnodup : (s.entries.map (·.channelId)).Nodup := by
    have hchannels := h.channels
    rw [peers, List.map_map] at hchannels
    exact hchannels
  refine find?_eq_some_of_unique he (decide_eq_true rfl) fun e' he' heq => ?_
  exact List.inj_on_of_nodup_map hnodup he' he (of_decide_eq_true heq)

theorem Numbered.dispatch_channelData (h : s.Numbered) (he : e ∈ s.entries) (data : List UInt8) :
    ∃ payload, s.dispatch (e.channelData data) = some (payload, e.extAddr) ∧
      (data.length < 2 ^ 16 → payload = data) := by
  obtain ⟨hlow, hhigh, -⟩ := h.range _ (own_of_mem he)
  have htype : (msgType (e.channelData data)).toNat = e.channelId := by
    rw [msgType_channelData]
    exact UInt16.toNat_ofNat_of_lt' (hhigh.trans_lt (by decide))
  have hlength : (e.channelData data).length = 4 + data.length := by
    rw [TurnEntry.channelData, List.length_append, List.length_append, length_writeUInt16,
      length_writeUInt16]
    omega
  have hlen : ((e.channelData data).drop 2).take 2 = writeUInt16 (UInt16.ofNat data.length) := rfl
  have hpayload : (e.channelData data).drop TURN_CHANNEL_HEADER_SIZE = data := rfl
  refine ⟨data.take (data.length % 2 ^ 16), ?_, fun hlt => ?_⟩
  · rw [dispatch_of_findChannel (by rw [hlength]; exact Nat.le_add_right _ _)
        (by rw [htype]; exact ⟨hlow, hhigh⟩),
      htype, handleChannelData, hlen, ofBytes_writeUInt16, UInt16.ofNat_toNat, UInt16.toNat_ofNat',
      h.findChannel he, hlength, hpayload]
    have hle : ¬4 + data.length - TURN_CHANNEL_HEADER_SIZE < data.length % 2 ^ 16 := by
      rw [TURN_CHANNEL_HEADER_SIZE]
      omega
    exact if_neg hle
  · rw [Nat.mod_eq_of_lt hlt, List.take_length]

/-! ### Identified peers -/

theorem Numbered.findEntry_destroyed {other : ℕ × TalkBase.SocketAddress} (h : s.Numbered)
    (hother : other ∈ s.connections) (hne : other.1 ≠ conn)
    (hstep : s.onConnectionDestroyed conn = some s') :
    (s.findEntry other.2).isSome ∧ s'.findEntry other.2 = s.findEntry other.2 := by
  have hnumbered := h.onConnectionDestroyed hstep
  obtain ⟨e, he, hconn, rfl⟩ := h.destroyed_cases hstep
  have haddresses : (s.connections.map Prod.snd).Pairwise fun a b => a.operatorEq b = false :=
    h.matched ▸ h.addresses
  have hdistinct : ¬other.2.operatorEq e.extAddr = true := fun heq =>
    hne ((fst_eq_iff_operatorEq h.connections haddresses hother hconn).mpr heq)
  obtain ⟨e', he', hentry⟩ := h.exists_entry hother
  rw [← hentry] at hdistinct ⊢
  have hchannel : e'.channelId ≠ e.channelId := fun heq =>
    hdistinct ((fst_eq_iff_operatorEq h.channels h.addresses (own_of_mem he') (own_of_mem he)).mp heq)
  have hstays : e' ∈ s.entries.filter fun e' => e'.channelId ≠ e.channelId :=
    List.mem_filter.mpr ⟨he', decide_eq_true hchannel⟩
  have hfind := h.findEntry he'
  have hfind' := hnumbered.findEntry hstays
  exact ⟨by rw [hfind]; rfl, hfind'.trans hfind.symm⟩

theorem Numbered.exists_destroyed {conn : ℕ × TalkBase.SocketAddress} (h : s.Numbered)
    (hconn : conn ∈ s.connections) : ∃ s', s.onConnectionDestroyed conn.1 = some s' := by
  have hfind : s.connections.find? (fun c => c.1 = conn.1) = some conn :=
    find?_eq_some_of_unique hconn (decide_eq_true rfl) fun c hc heq =>
      List.inj_on_of_nodup_map h.connections hc hconn (of_decide_eq_true heq)
  obtain ⟨e, he, hentry⟩ := h.exists_entry hconn
  rw [TurnPort.onConnectionDestroyed, hfind, Option.bind_some, destroyEntry, ← hentry]
  have hentries : s.findEntry e.extAddr = some e := h.findEntry he
  rw [TurnPort.findEntry] at hentries ⊢
  rw [hentries]
  exact ⟨_, rfl⟩

theorem Numbered.identified (h : s.Numbered) : s.Identified where
  addresses := by
    have haddresses := h.addresses
    rw [peers, List.map_map] at haddresses
    exact List.pairwise_map.mp haddresses
  channels := by
    have hchannels := h.channels
    rw [peers, List.map_map] at hchannels
    exact hchannels
  range e he := by
    obtain ⟨hlow, hhigh, -⟩ := h.range _ (own_of_mem he)
    exact ⟨hlow, hhigh⟩
  sent e he data := h.dispatch_channelData he data
  received e he data payload addr htype hdispatch := by
    rw [dispatch] at hdispatch
    split at hdispatch
    · cases hdispatch
    split at hdispatch
    · rw [handleChannelData, htype, h.findChannel he] at hdispatch
      split at hdispatch
      · cases hdispatch
      · cases hdispatch
        rfl
    · cases hdispatch
  bound r hr entry channelId extAddr hkind := by
    have hown := h.sound.owned r hr
    rw [hkind] at hown
    obtain ⟨rfl, hmem⟩ := hown
    obtain ⟨e, he, hpeer⟩ := exists_entry_of_mem_peers hmem
    cases hpeer
    exact ⟨e, he, rfl, rfl, rfl⟩
  others conn hconn := by
    obtain ⟨s', hstep⟩ := h.exists_destroyed hconn
    exact ⟨s', hstep, fun other hother hne => h.findEntry_destroyed hother hne hstep⟩

theorem fresh_of_identified {event : ℕ × TurnEvent} (hstep : s.step crypto event = some s')
    (h : s'.Identified) : s.Fresh event := by
  intro protocol addr id hevent haccepts
  rw [TurnPort.step, hevent] at hstep
  split at hstep
  · cases hstep
  rcases createConnection_cases hstep with ⟨hrefuses, -⟩ | ⟨-, -, rfl⟩
  · rw [haccepts] at hrefuses
    cases hrefuses
  constructor
  · by_contra hfound
    obtain ⟨e, hfind⟩ := Option.ne_none_iff_exists'.mp hfound
    have hdistinct := (List.pairwise_append.mp h.addresses).2.2 e (List.mem_of_find?_eq_some hfind) _
      (List.mem_singleton_self _)
    have hsame : e.extAddr.operatorEq addr = true := by
      simpa using List.find?_some hfind
    rw [hsame] at hdistinct
    cases hdistinct
  · exact (h.range _ (List.mem_append_right _ (List.mem_singleton_self _))).2

/-- **When TURN channels identify peers**: in every state of a run if and only if every connection is made to an
address without an entry, while there are channel numbers left. -/
theorem identified_iff (crypto : TurnCrypto) (ip : IPAddress) (username password : List UInt8)
    (server : TalkBase.SocketAddress) {events : List (ℕ × TurnEvent)} {s : TurnPort}
    (hrun : Runs.run (step crypto) (new ip username password server) events = some s) :
    Runs.Admissible (step crypto) Fresh (new ip username password server) events ↔
      ∀ before after s', events = before ++ after →
        Runs.run (step crypto) (new ip username password server) before = some s' → s'.Identified :=
  Runs.admissible_iff_shown (fun _ _ _ h hfresh hstep => h.step hfresh hstep) (fun _ h => h.identified)
    (fun _ _ _ _ hstep h => fresh_of_identified hstep h) (numbered_new ip username password server) hrun

/-- A connection to a peer is destroyed while there is another one, and made again. -/
def severalPeers : List (ℕ × TurnEvent) :=
  [(0, .createConnection "udp" samplePeer [1]),
    (1, .createConnection "udp" { samplePeer with port := 6000 } [2]), (2, .connectionDestroyed 0),
    (3, .createConnection "udp" samplePeer [3])]

theorem identified_severalPeers :
    ∃ s, Runs.run (step sampleCrypto) samplePort severalPeers = some s ∧
      s.entries.map (·.channelId) = [0x4001, 0x4002] ∧
      ∀ before after s', severalPeers = before ++ after →
        Runs.run (step sampleCrypto) samplePort before = some s' → s'.Identified := by
  refine ⟨_, rfl, rfl, (identified_iff sampleCrypto _ _ _ _ rfl).mp ?_⟩
  refine ⟨?_, fun s₁ hs₁ => ⟨?_, fun s₂ hs₂ => ⟨?_, fun s₃ hs₃ => ⟨?_, fun _ _ => trivial⟩⟩⟩⟩
  · rintro protocol addr id ⟨⟩ -
    decide
  · cases hs₁
    rintro protocol addr id ⟨⟩ -
    decide
  · rintro protocol addr id ⟨⟩
  · cases hs₁
    cases hs₂
    cases hs₃
    rintro protocol addr id ⟨⟩ -
    decide

/-- Two candidates with one address. -/
theorem not_identified_twice :
    ∃ s, Runs.run (step sampleCrypto) samplePort [(0, .createConnection "udp" samplePeer [1]),
      (1, .createConnection "udp" samplePeer [2])] = some s ∧ ¬s.Identified := by
  refine ⟨_, rfl, fun h => absurd h.addresses ?_⟩
  decide

end TurnPort

end P2p

end Synciga
