import Synciga.P2p.BestConnection
import Synciga.P2p.PortRoles
import Synciga.P2p.TransportConfig

/-!
# One role per session

A session (`talk/p2p/base/session.cc`) gives each transport the role that it starts with, and after a role
conflict the other one, once; a transport takes the controlling role by itself if the other side is ICE-lite.
From the transports the role goes to their channels and ports.

## Main definitions

* `OneRole`, `KeepsOneRole` — one role, and the operations that keep it

## Main results

* `oneRole_run` — in every run of these
* `not_oneRole_restarted` — ports that a restart has dropped keep what they had
-/

namespace Synciga.P2p

open P2PTransportChannel (SameOwners)

/-! ### Transports -/

namespace Transport

variable {t t' : Transport}

variable (component : ℤ)

/-- Something happens to a channel. -/
def withChannel (f : P2PTransportChannel → Option P2PTransportChannel) (t : Transport) :
    Option Transport :=
  (t.channels.find? (·.channel.component = component)).bind fun e => (f e.channel).map fun ch =>
    { t with channels := t.channels.map fun e' =>
        if e'.channel.component = component then { e' with channel := ch } else e' }

/-- All channels have the role of the transport, and their ports are up to date. -/
def UpToDate (t : Transport) : Prop := ∀ e ∈ t.channels, e.channel.role = t.role ∧ e.channel.UpToDate

/-- What a negotiation with this offer and this answer leads to: the protocol, and whether this side takes the
controlling role. -/
def outcome (offer answer remote : TransportDescription) (t : Transport) : Option (TransportProtocol × Bool) :=
  if mismatch offer.protocol answer.protocol then none
  else some (if answer.protocol = .hybrid then .google else answer.protocol,
    t.role = .controlled ∧ remote.iceMode = .lite)

/-- What the operation leads to, if it ends a negotiation. -/
def negotiates (t : Transport) : TransportOp → Option (TransportProtocol × Bool)
  | .setLocalTransportDescription desc action =>
    if action.isAnswer then t.remoteDescription.bind fun remote => t.outcome remote desc remote else none
  | .setRemoteTransportDescription desc action =>
    if action.isAnswer then t.localDescription.bind fun local' => t.outcome local' desc desc else none
  | _ => none

/-- What a negotiation changes reaches all ports. -/
def Spreads (t : Transport) (outcome : TransportProtocol × Bool) : Prop :=
  ∀ e ∈ t.channels, (outcome.2 = true → e.channel.role = .controlling ∨ e.channel.Reaches) ∧
    (outcome.1 = e.channel.protocolType ∨ e.channel.Reaches)

instance (t : Transport) : DecidablePred t.Spreads := fun _ => inferInstanceAs (Decidable (∀ _ ∈ t.channels, _ ∧ _))

variable {f : P2PTransportChannel → P2PTransportChannel}

theorem upToDate_mapChannels
    (h : ∀ e ∈ t.channels, (f e.channel).role = t.role ∧ (f e.channel).UpToDate) : (t.mapChannels f).UpToDate := by
  intro e he
  obtain ⟨e₀, he₀, rfl⟩ := List.mem_map.mp he
  exact h e₀ he₀

theorem UpToDate.mapSameOwners (h : t.UpToDate)
    (hf : ∀ ch, SameOwners ch (f ch)) : (t.mapChannels f).UpToDate :=
  upToDate_mapChannels fun e he =>
    ⟨(hf e.channel).role.trans (h e he).1, (h e he).2.sameOwners (hf e.channel)⟩

theorem Spreads.mapSameOwners {o : TransportProtocol × Bool} (h : t.Spreads o)
    (hf : ∀ ch, SameOwners ch (f ch)) :
    (t.mapChannels f).Spreads o := by
  intro e he
  obtain ⟨e₀, he₀, rfl⟩ := List.mem_map.mp he
  obtain ⟨hrole, hprotocol⟩ := h e₀ he₀
  have hsame := hf e₀.channel
  have hreaches (hr : e₀.channel.Reaches) : (f e₀.channel).Reaches := by
    intro conn hconn
    rw [hsame.owner, hsame.ports]
    exact hr conn (hsame.connections hconn)
  constructor
  · intro hlite
    exact (hrole hlite).imp hsame.role.trans hreaches
  · exact hprotocol.imp (fun heq => heq.trans hsame.protocolType.symm) hreaches

variable {localRole : ContentAction} {r : Transport × Bool}

theorem described_of_negotiated (h : t.negotiateTransportDescription localRole = some r) :
    (∃ local', t.localDescription = some local') ∧ ∃ remote, t.remoteDescription = some remote := by
  obtain ⟨hlocal, hremote, -⟩ := negotiate_spec h
  exact ⟨Option.isSome_iff_exists.mp hlocal, Option.isSome_iff_exists.mp hremote⟩

theorem upToDate_of_empty {ch : P2PTransportChannel} (hports : ch.ports = []) (hconnections : ch.connections = []) :
    ch.UpToDate := by
  refine ⟨?_, ?_, ?_, ?_, ?_⟩
  all_goals simp only [hports, hconnections, List.not_mem_nil, false_imp_iff, implies_true]

theorem role_setRole (role : TransportRole) (ch : P2PTransportChannel) : (ch.setRole role).role = role :=
  congrArg ChannelConfig.role (P2PTransportChannel.config_setRole ch role)

theorem create_told :
    let ch := ((P2PTransportChannel.create component).setRole t.role).setTiebreaker t.tiebreaker
    (ch.ports = [] ∧ ch.connections = []) ∧ ch.role = t.role := by
  rw [P2PTransportChannel.setTiebreaker, P2PTransportChannel.setRole]
  split_ifs with hrole hports hports <;> exact ⟨⟨rfl, rfl⟩, by first | exact hrole | rfl⟩

theorem configureChannel_create : (t.configureChannel (.create component)).role = t.role ∧
    (t.configureChannel (.create component)).UpToDate := by
  obtain ⟨hnone, hrole⟩ := create_told (t := t) component
  set ch := ((P2PTransportChannel.create component).setRole t.role).setTiebreaker t.tiebreaker with hch
  have hlocal (desc : TransportDescription) : SameOwners ch (applyLocalTransportDescription desc ch) :=
    P2PTransportChannel.sameOwners_setIceCredentials _ _ _
  have hfresh {mid : P2PTransportChannel} (hs : SameOwners ch mid) : mid.role = t.role ∧ mid.UpToDate :=
    ⟨hs.role.trans hrole, (upToDate_of_empty hnone.1 hnone.2).sameOwners hs⟩
  rw [configureChannel, ← hch]
  rcases t.localDescription with _ | local'
  · exact hfresh (.refl ch)
  rcases t.remoteDescription with _ | remote
  · exact hfresh (hlocal local')
  have hremote : SameOwners ch (applyRemoteTransportDescription remote
      (applyLocalTransportDescription local' ch)) :=
    (hlocal local').trans (P2PTransportChannel.sameOwners_setRemoteIceCredentials _ _ _)
  obtain ⟨hrole, hup⟩ := hfresh hremote
  refine ⟨hrole, (hup.setIceProtocolType (Or.inr ?_)).sameOwners
    (P2PTransportChannel.sameOwners_setRemoteIceMode _ _)⟩
  intro conn hconn
  have hmem := hremote.connections hconn
  rw [hnone.2] at hmem
  cases hmem

theorem UpToDate.createChannel (h : t.UpToDate) (component : ℤ) : (t.createChannel component).UpToDate := by
  obtain ⟨hrole, hnew⟩ := configureChannel_create (t := t) component
  have hconnect := P2PTransportChannel.sameOwners_connect (t.configureChannel (.create component))
  rw [Transport.createChannel]
  split_ifs
  · intro e he
    obtain ⟨e₀, he₀, rfl⟩ := List.mem_map.mp he
    split_ifs <;> exact h e₀ he₀
  · intro e he
    rcases List.mem_append.mp he with hold | hlast
    · exact h e hold
    · cases List.mem_singleton.mp hlast
      exact ⟨hconnect.role.trans hrole, hnew.sameOwners hconnect⟩
  · intro e he
    rcases List.mem_append.mp he with hold | hlast
    · exact h e hold
    · cases List.mem_singleton.mp hlast
      exact ⟨hrole, hnew⟩

theorem UpToDate.setRole (h : t.UpToDate) {role : TransportRole}
    (hok : ∀ e ∈ t.channels, role = e.channel.role ∨ e.channel.Reaches) : (t.setRole role).UpToDate := by
  refine upToDate_mapChannels fun e he => ?_
  exact ⟨role_setRole role e.channel, (h e he).2.setRole (hok e he)⟩

/-- The result of a negotiation reaches the ports of all channels, and the role is that of the transport or the
controlling one. -/
theorem UpToDate.adoptNegotiated (h : t.UpToDate) {answerProto : TransportProtocol} {remoteMode : IceMode}
    (hok : t.Spreads (if answerProto = .hybrid then .google else answerProto,
      t.role = .controlled ∧ remoteMode = .lite)) :
    (t.adoptNegotiated answerProto remoteMode).UpToDate ∧ (t.adoptNegotiated answerProto remoteMode).role =
      if t.role = .controlled ∧ remoteMode = .lite then .controlling else t.role := by
  rw [Transport.adoptNegotiated]
  generalize (if answerProto = .hybrid then TransportProtocol.google else answerProto) = protocol at hok ⊢
  have happly (u : Transport) {ch : P2PTransportChannel} (hch : ch.UpToDate)
      (hspread : u.protocol = ch.protocolType ∨ ch.Reaches) : (u.applyNegotiatedTransportDescription ch).UpToDate :=
    (hch.setIceProtocolType hspread).sameOwners (P2PTransportChannel.sameOwners_setRemoteIceMode _ _)
  split_ifs with hlite
  · refine ⟨upToDate_mapChannels fun e he => ?_, rfl⟩
    obtain ⟨e₀, he₀, rfl⟩ := List.mem_map.mp he
    obtain ⟨hrole, hprotocol⟩ := hok e₀ he₀
    refine ⟨role_setRole .controlling e₀.channel, ?_⟩
    refine happly _ ((h e₀ he₀).2.setRole ((hrole (decide_eq_true hlite)).imp_left Eq.symm)) ?_
    change protocol = (e₀.channel.setRole .controlling).protocolType ∨ (e₀.channel.setRole .controlling).Reaches
    rw [P2PTransportChannel.reaches_setRole, P2PTransportChannel.protocolType_setRole]
    exact hprotocol
  · refine ⟨upToDate_mapChannels fun e he => ?_, rfl⟩
    exact ⟨(h e he).1, happly _ (h e he).2 (hok e he).2⟩

theorem negotiate_outcome {local' remote : TransportDescription} (hlocal : t.localDescription = some local')
    (hremote : t.remoteDescription = some remote)
    (h : t.negotiateTransportDescription localRole = some r) :
    r.1 = t ∨ t.outcome (if localRole = .offer then local' else remote)
        (if localRole = .offer then remote else local') remote ≠ none ∧
      r.1 = t.adoptNegotiated (if localRole = .offer then remote else local').protocol remote.iceMode := by
  simp only [negotiateTransportDescription, hlocal, hremote] at h
  generalize (if localRole = .offer then local' else remote) = offer at h ⊢
  generalize (if localRole = .offer then remote else local') = answer at h ⊢
  rw [outcome]
  by_cases hmismatch : mismatch offer.protocol answer.protocol = true
  · rw [if_pos hmismatch] at h
    cases h
    exact Or.inl rfl
  · rw [if_neg hmismatch] at h ⊢
    cases h
    exact Or.inr ⟨Option.some_ne_none _, rfl⟩

theorem negotiated_step {u : Transport}
    {local' remote : TransportDescription} (h : u.negotiateTransportDescription localRole = some r)
    (hlocal : u.localDescription = some local') (hremote : u.remoteDescription = some remote)
    (hrole : u.role = t.role) (hu : u.UpToDate) (hspread : ∀ o, t.Spreads o → u.Spreads o)
    (hok : ∀ o, t.outcome (if localRole = .offer then local' else remote)
      (if localRole = .offer then remote else local') remote = some o → t.Spreads o) :
    r.1.UpToDate ∧ (r.1.role = t.role ∨ ∃ o, t.outcome (if localRole = .offer then local' else remote)
      (if localRole = .offer then remote else local') remote = some o ∧ o.2 = true ∧ r.1.role = .controlling) := by
  have houtcome (offer answer remote : TransportDescription) :
      u.outcome offer answer remote = t.outcome offer answer remote := by
    rw [outcome, outcome, hrole]
  rcases negotiate_outcome hlocal hremote h with heq | ⟨hsome, heq⟩
  · rw [heq]
    exact ⟨hu, Or.inl hrole⟩
  rw [heq]
  generalize hoffer : (if localRole = .offer then local' else remote) = offer at *
  generalize hanswer : (if localRole = .offer then remote else local') = answer at *
  rw [outcome] at hsome hok ⊢
  by_cases hmismatch : mismatch offer.protocol answer.protocol = true
  · rw [if_pos hmismatch] at hsome
    exact absurd rfl hsome
  rw [if_neg hmismatch] at hok ⊢
  have hspreads := hspread _ (hok _ rfl)
  rw [← hrole] at hspreads
  obtain ⟨hup, hadopted⟩ := hu.adoptNegotiated hspreads
  refine ⟨hup, ?_⟩
  rw [hadopted, hrole]
  by_cases hlite : t.role = .controlled ∧ remote.iceMode = .lite
  · exact Or.inr ⟨_, rfl, decide_eq_true hlite, if_pos hlite⟩
  · exact Or.inl (if_neg hlite)

/-- Behind an operation whose outcome spreads, the ports are up to date, and the role is the same, or the
operation has led to the controlling one. -/
theorem upToDate_step {op : TransportOp} (h : t.UpToDate) (hrole : ∀ role, op ≠ .setRole role)
    (hok : ∀ o, t.negotiates op = some o → t.Spreads o) (hstep : t.step op = some t') :
    t'.UpToDate ∧ (t'.role = t.role ∨ ∃ o, t.negotiates op = some o ∧ o.2 = true ∧ t'.role = .controlling) := by
  have hlocal (desc : TransportDescription) :
      ({ t with localDescription := some desc }.mapChannels (applyLocalTransportDescription desc)).UpToDate :=
    UpToDate.mapSameOwners (t := { t with localDescription := some desc }) h fun ch =>
      P2PTransportChannel.sameOwners_setIceCredentials _ _ ch
  have hremote (desc : TransportDescription) :
      ({ t with remoteDescription := some desc }.mapChannels (applyRemoteTransportDescription desc)).UpToDate :=
    UpToDate.mapSameOwners (t := { t with remoteDescription := some desc }) h fun ch =>
      P2PTransportChannel.sameOwners_setRemoteIceCredentials _ _ ch
  cases op with
  | setRole role => exact absurd rfl (hrole role)
  | setTiebreaker tiebreaker =>
    cases hstep
    exact ⟨h, Or.inl rfl⟩
  | createChannel component =>
    cases hstep
    refine ⟨h.createChannel component, Or.inl ?_⟩
    rw [createChannel]
    split_ifs <;> rfl
  | setLocalTransportDescription desc action =>
    obtain ⟨r, hr, rfl⟩ := Option.map_eq_some_iff.mp hstep
    rw [setLocalTransportDescription] at hr
    by_cases hanswer : action.isAnswer = true
    · rw [if_pos hanswer] at hr
      have hne : action ≠ .offer := by
        rintro rfl
        cases hanswer
      obtain ⟨-, remote, hsome⟩ := described_of_negotiated hr
      rw [negotiates, if_pos hanswer, show t.remoteDescription = some remote from hsome] at hok ⊢
      have hled := negotiated_step (t := t) hr rfl hsome rfl (hlocal desc) fun o ho =>
        Spreads.mapSameOwners (t := { t with localDescription := some desc }) ho fun ch =>
          P2PTransportChannel.sameOwners_setIceCredentials _ _ ch
      rw [if_neg hne, if_neg hne] at hled
      exact hled hok
    · rw [if_neg hanswer] at hr
      cases hr
      exact ⟨hlocal desc, Or.inl rfl⟩
  | setRemoteTransportDescription desc action =>
    obtain ⟨r, hr, rfl⟩ := Option.map_eq_some_iff.mp hstep
    rw [setRemoteTransportDescription] at hr
    by_cases hanswer : action.isAnswer = true
    · rw [if_pos hanswer] at hr
      obtain ⟨⟨local', hsome⟩, -⟩ := described_of_negotiated hr
      rw [negotiates, if_pos hanswer, show t.localDescription = some local' from hsome] at hok ⊢
      refine negotiated_step (t := t) hr hsome rfl rfl (hremote desc) (fun o ho => ?_) hok
      exact Spreads.mapSameOwners (t := { t with remoteDescription := some desc }) ho fun ch =>
        P2PTransportChannel.sameOwners_setRemoteIceCredentials _ _ ch
    · rw [if_neg hanswer] at hr
      cases hr
      exact ⟨hremote desc, Or.inl rfl⟩
  | connectChannels ufrag pwd =>
    have hconnect {u : Transport} (hu : u.UpToDate) : (u.mapChannels (·.connect)).UpToDate :=
      hu.mapSameOwners P2PTransportChannel.sameOwners_connect
    rcases connectChannels_cases hstep with rfl | ⟨u, rfl | ⟨desc, rfl⟩, rfl⟩
    · exact ⟨h, Or.inl rfl⟩
    · exact ⟨hconnect h, Or.inl rfl⟩
    · exact ⟨hconnect (hlocal desc), Or.inl rfl⟩

theorem upToDate_withChannel {component : ℤ} {op : ChannelOp} (h : t.UpToDate) (hrole : ∀ role, op ≠ .setRole role)
    (hok : ∀ e ∈ t.channels, e.channel.component = component → e.channel.KeepsUpToDate op)
    (hstep : t.withChannel component (·.step op) = some t') : t'.UpToDate ∧ t'.role = t.role := by
  obtain ⟨e, hfound, hsome⟩ := Option.bind_eq_some_iff.mp hstep
  obtain ⟨ch, hch, rfl⟩ := Option.map_eq_some_iff.mp hsome
  have he : e ∈ t.channels := List.mem_of_find?_eq_some hfound
  have hcomponent : e.channel.component = component := by
    simpa using List.find?_some hfound
  obtain ⟨hup, hsame⟩ := P2PTransportChannel.upToDate_step (h e he).2 (hok e he hcomponent) hch
  refine ⟨?_, rfl⟩
  intro e' he'
  obtain ⟨e₀, he₀, rfl⟩ := List.mem_map.mp he'
  split_ifs
  · exact ⟨(hsame hrole).trans (h e he).1, hup⟩
  · exact h e₀ he₀

end Transport

/-! ### Sessions -/

/-- `TransportProxy`: a transport, by the name of its content. -/
structure TransportProxy where
  contentName : String
  transport : Transport

/-- `BaseSession`: its transports and what it knows of roles. -/
structure RoleSession where
  initiator : Bool
  iceTiebreaker : UInt64
  roleSwitch : Bool := false
  transports : List TransportProxy := []

/-- What happens in a session. -/
inductive RoleOp
  | createTransport (contentName : String)
  | roleConflict
  | transport (contentName : String) (op : TransportOp)
  | channel (contentName : String) (component : ℤ) (op : ChannelOp)

namespace RoleSession

variable {s s' : RoleSession}

/-- The role that the transports of a session start with. -/
def initialRole (s : RoleSession) : TransportRole := if s.initiator then .controlling else .controlled

/-- The role behind a conflict. -/
def switchedRole (s : RoleSession) : TransportRole := if s.initiator then .controlled else .controlling

/-- `BaseSession::GetOrCreateTransportProxy`. -/
def getOrCreateTransportProxy (contentName : String) (s : RoleSession) : RoleSession :=
  if ∃ proxy ∈ s.transports, proxy.contentName = contentName then s
  else
    let transport := (Transport.create.setRole s.initialRole).setTiebreaker s.iceTiebreaker
    { s with transports := s.transports ++ [{ contentName, transport }] }

/-- `OnRoleConflict`. The role is the reverse of the first one, whatever it is now. -/
def onRoleConflict (s : RoleSession) : RoleSession :=
  if s.roleSwitch then s
  else
    { s with
      roleSwitch := true
      transports := s.transports.map fun proxy =>
        { proxy with transport := proxy.transport.setRole s.switchedRole } }

/-- Something happens to a transport. -/
def withTransport (contentName : String) (f : Transport → Option Transport) (s : RoleSession) :
    Option RoleSession :=
  (s.transports.find? (·.contentName = contentName)).bind fun proxy => (f proxy.transport).map fun transport =>
    { s with transports := s.transports.map fun proxy =>
        if proxy.contentName = contentName then { proxy with transport } else proxy }

/-- One operation. The role and the tiebreaker of a transport are set by the session only, and those of a channel
by its transport. -/
def step (s : RoleSession) : RoleOp → Option RoleSession
  | .createTransport contentName => some (s.getOrCreateTransportProxy contentName)
  | .roleConflict => some s.onRoleConflict
  | .transport _ (.setRole _) | .transport _ (.setTiebreaker _) => none
  | .transport contentName op => s.withTransport contentName (·.step op)
  | .channel _ _ (.setRole _) | .channel _ _ (.setTiebreaker _) => none
  | .channel contentName component op => s.withTransport contentName (·.withChannel component (·.step op))

variable {contentName : String}

theorem step_transport {op : TransportOp}
    (h : s.step (.transport contentName op) = some s') : (∀ role, op ≠ .setRole role) ∧
      (∀ tiebreaker, op ≠ .setTiebreaker tiebreaker) ∧ s.withTransport contentName (·.step op) = some s' := by
  refine ⟨?_, ?_, ?_⟩
  · rintro role rfl
    cases h
  · rintro tiebreaker rfl
    cases h
  · cases op <;> first | exact h | cases h

theorem step_channel {component : ℤ} {op : ChannelOp}
    (h : s.step (.channel contentName component op) = some s') : (∀ role, op ≠ .setRole role) ∧
      (∀ tiebreaker, op ≠ .setTiebreaker tiebreaker) ∧
        s.withTransport contentName (·.withChannel component (·.step op)) = some s' := by
  refine ⟨?_, ?_, ?_⟩
  · rintro role rfl
    cases h
  · rintro tiebreaker rfl
    cases h
  · cases op <;> first | exact h | cases h

/-! ### One role -/

/-- The transports have the same role, which is that of their channels; and each port that owns a connection has
the role and the protocol of its channel. -/
structure OneRole (s : RoleSession) : Prop where
  transports : ∀ p ∈ s.transports, ∀ q ∈ s.transports, p.transport.role = q.transport.role
  channels : ∀ p ∈ s.transports, ∀ e ∈ p.transport.channels, e.channel.role = p.transport.role
  owners : ∀ p ∈ s.transports, ∀ e ∈ p.transport.channels, ∀ conn ∈ e.channel.connections,
    e.channel.IsCurrent (e.channel.owner conn)

/-- `ConnectionCompare` asserts that the ports of the connections it compares have one protocol. -/
theorem OneRole.sameProtocol (h : s.OneRole) {p : TransportProxy} (hp : p ∈ s.transports) {e : ChannelMapEntry}
    (he : e ∈ p.transport.channels) {a b : ℕ} (ha : a ∈ e.channel.connections) (hb : b ∈ e.channel.connections) :
    (e.channel.pair a).port.iceProtocol = (e.channel.pair b).port.iceProtocol :=
  (h.owners p hp e he a ha).2.trans (h.owners p hp e he b hb).2.symm

/-- The operations behind which the session has one role if it had before: a transport is made while the others
have the first role; the role is switched while all connections belong to ports that it reaches; a negotiation
leads to a protocol and a role that reach all ports, and the role is that of the others; what happens to a
channel keeps its ports up to date. -/
def KeepsOneRole (s : RoleSession) : RoleOp → Prop
  | .createTransport contentName => (∃ p ∈ s.transports, p.contentName = contentName) ∨
      ∀ p ∈ s.transports, p.transport.role = s.initialRole
  | .roleConflict => s.roleSwitch = true ∨ ∀ p ∈ s.transports, ∀ e ∈ p.transport.channels,
      s.switchedRole = e.channel.role ∨ e.channel.Reaches
  | .transport contentName op => ∀ p ∈ s.transports, p.contentName = contentName →
      ∀ o ∈ p.transport.negotiates op, p.transport.Spreads o ∧ (o.2 = true →
        ∀ q ∈ s.transports, q.contentName ≠ contentName → q.transport.role = .controlling)
  | .channel contentName component op => ∀ p ∈ s.transports, p.contentName = contentName →
      ∀ e ∈ p.transport.channels, e.channel.component = component → e.channel.KeepsUpToDate op

instance (s : RoleSession) : DecidablePred s.KeepsOneRole
  | .createTransport _ => inferInstanceAs (Decidable (_ ∨ _))
  | .roleConflict => inferInstanceAs (Decidable (_ ∨ _))
  | .transport _ _ => inferInstanceAs (Decidable (∀ _ ∈ s.transports, _ → ∀ _ ∈ _, _ ∧ _))
  | .channel _ _ _ => inferInstanceAs (Decidable (∀ _ ∈ s.transports, _))

/-- What is kept: the transports have one role, and each is up to date. -/
structure Synced (s : RoleSession) : Prop where
  roles : ∀ p ∈ s.transports, ∀ q ∈ s.transports, p.transport.role = q.transport.role
  upToDate : ∀ p ∈ s.transports, p.transport.UpToDate

theorem Synced.oneRole (h : s.Synced) : s.OneRole where
  transports := h.roles
  channels := fun p hp e he => (h.upToDate p hp e he).1
  owners := fun p hp e he => (h.upToDate p hp e he).2.owners

theorem synced_of_role (role : TransportRole)
    (h : ∀ p ∈ s.transports, p.transport.role = role ∧ p.transport.UpToDate) : s.Synced :=
  ⟨fun p hp q hq => (h p hp).1.trans (h q hq).1.symm, fun p hp => (h p hp).2⟩

theorem Synced.getOrCreateTransportProxy (h : s.Synced)
    (hok : s.KeepsOneRole (.createTransport contentName)) : (s.getOrCreateTransportProxy contentName).Synced := by
  rw [RoleSession.getOrCreateTransportProxy]
  split_ifs with hexists
  · exact h
  · refine synced_of_role s.initialRole fun p hp => ?_
    rcases List.mem_append.mp hp with hold | hnew
    · exact ⟨hok.resolve_left hexists p hold, h.upToDate p hold⟩
    · cases List.mem_singleton.mp hnew
      exact ⟨rfl, List.forall_mem_nil _⟩

theorem Synced.onRoleConflict (h : s.Synced) (hok : s.KeepsOneRole .roleConflict) : s.onRoleConflict.Synced := by
  rw [RoleSession.onRoleConflict]
  split_ifs with hswitched
  · exact h
  · refine synced_of_role s.switchedRole fun p hp => ?_
    obtain ⟨q, hq, rfl⟩ := List.mem_map.mp hp
    exact ⟨rfl, (h.upToDate q hq).setRole (hok.resolve_left hswitched q hq)⟩

/-- Something happens to a transport. It stays up to date, and has the role that it had, or the role of all
others. -/
theorem Synced.withTransport (h : s.Synced) {f : Transport → Option Transport}
    (hf : ∀ p ∈ s.transports, p.contentName = contentName → ∀ t, f p.transport = some t → t.UpToDate ∧
      (t.role = p.transport.role ∨
        ∀ q ∈ s.transports, q.contentName ≠ contentName → q.transport.role = t.role))
    (hstep : s.withTransport contentName f = some s') : s'.Synced := by
  obtain ⟨p, hfound, hsome⟩ := Option.bind_eq_some_iff.mp hstep
  obtain ⟨t, ht, rfl⟩ := Option.map_eq_some_iff.mp hsome
  have hp : p ∈ s.transports := List.mem_of_find?_eq_some hfound
  have hname : p.contentName = contentName := by
    simpa using List.find?_some hfound
  obtain ⟨hup, hrole⟩ := hf p hp hname t ht
  refine synced_of_role t.role fun q hq => ?_
  obtain ⟨q₀, hq₀, rfl⟩ := List.mem_map.mp hq
  split_ifs with hother
  · exact ⟨rfl, hup⟩
  · refine ⟨?_, h.upToDate q₀ hq₀⟩
    rcases hrole with hsame | hothers
    · exact (h.roles q₀ hq₀ p hp).trans hsame.symm
    · exact hothers q₀ hq₀ hother

theorem synced_step {op : RoleOp} (h : s.Synced) (hok : s.KeepsOneRole op) (hstep : s.step op = some s') :
    s'.Synced := by
  cases op with
  | createTransport contentName =>
    cases hstep
    exact h.getOrCreateTransportProxy hok
  | roleConflict =>
    cases hstep
    exact h.onRoleConflict hok
  | transport contentName op =>
    obtain ⟨hrole, -, hwith⟩ := step_transport hstep
    refine h.withTransport (fun p hp hname t ht => ?_) hwith
    obtain ⟨hup, hsame⟩ := Transport.upToDate_step (h.upToDate p hp) hrole
      (fun o ho => (hok p hp hname o ho).1) ht
    refine ⟨hup, hsame.imp_right ?_⟩
    rintro ⟨o, ho, hlite, hcontrolling⟩ q hq hother
    rw [hcontrolling]
    exact (hok p hp hname o ho).2 hlite q hq hother
  | channel contentName component op =>
    obtain ⟨hrole, -, hwith⟩ := step_channel hstep
    refine h.withTransport (fun p hp hname t ht => ?_) hwith
    exact (Transport.upToDate_withChannel (h.upToDate p hp) hrole (hok p hp hname) ht).imp_right Or.inl

/-- In every state of every run of a new session whose operations keep one role, the transports have one role,
and each port that owns a connection has the role and the protocol of its channel. -/
theorem oneRole_run {initiator : Bool} {iceTiebreaker : UInt64} {front back : List RoleOp}
    (hok : Runs.Admissible step KeepsOneRole { initiator, iceTiebreaker } (front ++ back))
    (hrun : Runs.run step { initiator, iceTiebreaker } front = some s) : s.OneRole := by
  have hstart : Synced { initiator, iceTiebreaker } :=
    ⟨List.forall_mem_nil _, List.forall_mem_nil _⟩
  exact (Runs.invariant (fun _ _ _ h hoka hstep => synced_step h hoka hstep) hstart
    (Runs.admissible_append hok).1 hrun).oneRole

/-! ### A restart and a conflict -/

/-- A session with one transport, whose channel has a connection. -/
def connected : List RoleOp :=
  [.createTransport "audio", .transport "audio" (.createChannel 1),
    .transport "audio" (.setLocalTransportDescription (Transport.describe "ufrag" "password") .offer),
    .transport "audio" (.connectChannels "" ""), .channel "audio" 1 .signalingReady,
    .channel "audio" 1 (.portReady 0 P2PTransportChannel.openPort),
    .channel "audio" 1 (.candidate 0 (P2PTransportChannel.candidateOf 30))]

/-- Other credentials restart the allocation, and the channel drops its ports. -/
def restarted : List RoleOp :=
  [.transport "audio" (.setLocalTransportDescription (Transport.describe "other" "secret") .offer),
    .channel "audio" 1 .signalingReady]

/-- A conflict before a restart. -/
theorem oneRole_run_connected :
    ∃ s, Runs.run step { initiator := true, iceTiebreaker := 7 }
        (connected ++ .roleConflict :: restarted) = some s ∧
      s.OneRole := by
  have hok : Runs.Admissible step KeepsOneRole { initiator := true, iceTiebreaker := 7 }
      ((connected ++ .roleConflict :: restarted) ++ []) := by
    decide +kernel
  have hruns : (Runs.run step { initiator := true, iceTiebreaker := 7 }
      (connected ++ .roleConflict :: restarted)).isSome = true := by
    decide +kernel
  obtain ⟨s, hrun⟩ := Option.isSome_iff_exists.mp hruns
  exact ⟨s, hrun, oneRole_run hok hrun⟩

/-- Behind a restart the conflict does not reach the port of the connection. -/
theorem not_oneRole_restarted : ¬ ∀ (initiator : Bool) (iceTiebreaker : UInt64) (ops : List RoleOp)
    (s : RoleSession), Runs.run step { initiator, iceTiebreaker } ops = some s → s.OneRole := by
  intro hall
  have hchecked : ((Runs.run step { initiator := true, iceTiebreaker := 7 }
      (connected ++ restarted ++ [.roleConflict])).any fun s => decide (∃ p ∈ s.transports,
        ∃ e ∈ p.transport.channels, ∃ conn ∈ e.channel.connections,
          ¬ e.channel.IsCurrent (e.channel.owner conn))) = true := by
    decide +kernel
  obtain ⟨s, hrun, hfacts⟩ := (Option.any_eq_true _ _).mp hchecked
  obtain ⟨p, hp, e, he, conn, hconn, hstale⟩ := of_decide_eq_true hfacts
  exact hstale ((hall true 7 _ s hrun).owners p hp e he conn hconn)

end RoleSession

end Synciga.P2p
