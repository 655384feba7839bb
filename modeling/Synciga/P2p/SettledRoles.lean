import Synciga.P2p.SessionRoles

/-!
# The roles that a session has given

A session gives its transports one role, and behind a role conflict the other one, once. Ports that the switch
does not reach keep the first, and all have the tiebreaker of the session, as long as the other side is not
ICE-lite.

## Main definitions

* `Settled` — each port has one of the two roles
-/

namespace Synciga.P2p

/-! ### The roles in a transport -/

/-- The operation brings no description of an ICE-lite side. -/
def TransportOp.isFull : TransportOp → Bool
  | .setRemoteTransportDescription desc _ => desc.iceMode = .full
  | _ => true

namespace Transport

variable {t t' : Transport} {roles : TransportRole → Prop} {tb : UInt64}

/-- The role and the tiebreaker of a transport are those that its channels and their ports may have, and the other
side is not ICE-lite. -/
structure Told (roles : TransportRole → Prop) (tb : UInt64) (t : Transport) : Prop where
  role : roles t.role
  tiebreaker : t.tiebreaker = tb
  full : ∀ desc ∈ t.remoteDescription, desc.iceMode = .full
  channels : ∀ e ∈ t.channels, e.channel.Told roles tb

theorem Told.mapChannels (h : t.Told roles tb) {f : P2PTransportChannel → P2PTransportChannel}
    (hf : ∀ ch, ch.Told roles tb → (f ch).Told roles tb) : (t.mapChannels f).Told roles tb := by
  refine ⟨h.role, h.tiebreaker, h.full, ?_⟩
  intro e he
  obtain ⟨e₀, he₀, rfl⟩ := List.mem_map.mp he
  exact hf e₀.channel (h.channels e₀ he₀)

theorem Told.setRole (h : t.Told roles tb) {role : TransportRole} (hrole : roles role) :
    (t.setRole role).Told roles tb := by
  exact Told.mapChannels (t := { t with role }) ⟨hrole, h.tiebreaker, h.full, h.channels⟩
    fun ch hch => hch.setRole hrole

variable {ch : P2PTransportChannel}

theorem told_applyLocal (h : ch.Told roles tb) (desc : TransportDescription) :
    (applyLocalTransportDescription desc ch).Told roles tb :=
  h.sameSettings (P2PTransportChannel.sameOwners_setIceCredentials _ _ ch).toSameSettings

theorem told_applyRemote (h : ch.Told roles tb) (desc : TransportDescription) :
    (applyRemoteTransportDescription desc ch).Told roles tb :=
  h.sameSettings (P2PTransportChannel.sameOwners_setRemoteIceCredentials _ _ ch).toSameSettings

theorem told_applyNegotiated (h : ch.Told roles tb) (u : Transport) :
    (u.applyNegotiatedTransportDescription ch).Told roles tb :=
  (h.setIceProtocolType _).sameSettings (P2PTransportChannel.sameOwners_setRemoteIceMode _ _).toSameSettings

theorem Told.configureChannel (h : t.Told roles tb) (component : ℤ) :
    (t.configureChannel (.create component)).Told roles tb := by
  have hports : ((P2PTransportChannel.create component).setRole t.role).ports = [] :=
    P2PTransportChannel.ports_setRole _ _
  have htold : (((P2PTransportChannel.create component).setRole t.role).setTiebreaker t.tiebreaker).Told
      roles tb := by
    rw [P2PTransportChannel.setTiebreaker, if_neg (not_not.mpr hports)]
    refine ⟨?_, h.tiebreaker, fun port hlt => ?_⟩
    · change roles ((P2PTransportChannel.create component).setRole t.role).role
      rw [role_setRole]
      exact h.role
    · rw [P2PTransportChannel.setRole] at hlt
      split_ifs at hlt <;> exact absurd hlt (Nat.not_lt_zero port)
  rw [Transport.configureChannel]
  rcases t.localDescription with _ | local'
  · exact htold
  · rcases t.remoteDescription with _ | remote
    · exact told_applyLocal htold local'
    · exact told_applyNegotiated (told_applyRemote (told_applyLocal htold local') remote) t

theorem Told.createChannel (h : t.Told roles tb) (component : ℤ) : (t.createChannel component).Told roles tb := by
  have hnew := h.configureChannel component
  have hconnect := P2PTransportChannel.sameOwners_connect (t.configureChannel (.create component))
  rw [Transport.createChannel]
  split_ifs
  · refine ⟨h.role, h.tiebreaker, h.full, fun e he => ?_⟩
    obtain ⟨e₀, he₀, rfl⟩ := List.mem_map.mp he
    split_ifs <;> exact h.channels e₀ he₀
  · refine ⟨h.role, h.tiebreaker, h.full, List.forall_mem_append.mpr ⟨h.channels, ?_⟩⟩
    exact List.forall_mem_singleton.mpr (hnew.sameSettings hconnect.toSameSettings)
  · refine ⟨h.role, h.tiebreaker, h.full, List.forall_mem_append.mpr ⟨h.channels, ?_⟩⟩
    exact List.forall_mem_singleton.mpr hnew

theorem Told.negotiate (h : t.Told roles tb) {localRole : ContentAction} {r : Transport × Bool}
    (hr : t.negotiateTransportDescription localRole = some r) : r.1.Told roles tb ∧ r.1.role = t.role := by
  obtain ⟨⟨local', hlocal⟩, remote, hremote⟩ := described_of_negotiated hr
  rcases negotiate_outcome hlocal hremote hr with heq | ⟨-, heq⟩
  · rw [heq]
    exact ⟨h, rfl⟩
  rw [heq, adoptNegotiated]
  have hfull : remote.iceMode ≠ .lite := by
    rw [h.full remote hremote]
    decide
  simp only [hfull, and_false, if_false]
  generalize (if (if localRole = .offer then remote else local').protocol = .hybrid then TransportProtocol.google
    else (if localRole = .offer then remote else local').protocol) = protocol
  refine ⟨?_, rfl⟩
  exact Told.mapChannels (t := { t with protocol, remoteIceMode := remote.iceMode })
    ⟨h.role, h.tiebreaker, h.full, h.channels⟩ fun ch hch => told_applyNegotiated hch _

theorem told_step {op : TransportOp} (h : t.Told roles tb) (hrole : ∀ role, op ≠ .setRole role)
    (htiebreaker : ∀ tiebreaker, op ≠ .setTiebreaker tiebreaker) (hfull : op.isFull = true)
    (hstep : t.step op = some t') : t'.Told roles tb ∧ t'.role = t.role := by
  have hlocal (desc : TransportDescription) :
      ({ t with localDescription := some desc }.mapChannels (applyLocalTransportDescription desc)).Told roles tb :=
    Told.mapChannels (t := { t with localDescription := some desc })
      ⟨h.role, h.tiebreaker, h.full, h.channels⟩ fun ch hch => told_applyLocal hch desc
  cases op with
  | setRole role => exact absurd rfl (hrole role)
  | setTiebreaker tiebreaker => exact absurd rfl (htiebreaker tiebreaker)
  | createChannel component =>
    cases hstep
    refine ⟨h.createChannel component, ?_⟩
    rw [createChannel]
    split_ifs <;> rfl
  | setLocalTransportDescription desc action =>
    obtain ⟨r, hr, rfl⟩ := Option.map_eq_some_iff.mp hstep
    rw [setLocalTransportDescription] at hr
    split_ifs at hr
    · exact (hlocal desc).negotiate hr
    · cases hr
      exact ⟨hlocal desc, rfl⟩
  | setRemoteTransportDescription desc action =>
    have hremote : ({ t with remoteDescription := some desc }.mapChannels
        (applyRemoteTransportDescription desc)).Told roles tb := by
      refine Told.mapChannels (t := { t with remoteDescription := some desc })
        ⟨h.role, h.tiebreaker, ?_, h.channels⟩ fun ch hch => told_applyRemote hch desc
      rintro _ ⟨⟩
      exact of_decide_eq_true hfull
    obtain ⟨r, hr, rfl⟩ := Option.map_eq_some_iff.mp hstep
    rw [setRemoteTransportDescription] at hr
    split_ifs at hr
    · exact hremote.negotiate hr
    · cases hr
      exact ⟨hremote, rfl⟩
  | connectChannels ufrag pwd =>
    have hconnect {u : Transport} (hu : u.Told roles tb) : (u.mapChannels (·.connect)).Told roles tb :=
      hu.mapChannels fun ch hch => hch.sameSettings (P2PTransportChannel.sameOwners_connect ch).toSameSettings
    rcases connectChannels_cases hstep with rfl | ⟨u, rfl | ⟨desc, rfl⟩, rfl⟩
    · exact ⟨h, rfl⟩
    · exact ⟨hconnect ⟨h.role, h.tiebreaker, h.full, h.channels⟩, rfl⟩
    · obtain ⟨hrole', htb, hfull', hchannels⟩ := hlocal desc
      exact ⟨hconnect ⟨hrole', htb, hfull', hchannels⟩, rfl⟩

theorem told_withChannel {component : ℤ} {op : ChannelOp} (h : t.Told roles tb) (hrole : ∀ role, op ≠ .setRole role)
    (htiebreaker : ∀ tiebreaker, op ≠ .setTiebreaker tiebreaker)
    (hstep : t.withChannel component (·.step op) = some t') : t'.Told roles tb ∧ t'.role = t.role := by
  obtain ⟨e, hfound, hsome⟩ := Option.bind_eq_some_iff.mp hstep
  obtain ⟨ch, hch, rfl⟩ := Option.map_eq_some_iff.mp hsome
  have hnew := P2PTransportChannel.told_step (h.channels e (List.mem_of_find?_eq_some hfound)) hrole htiebreaker hch
  refine ⟨⟨h.role, h.tiebreaker, h.full, ?_⟩, rfl⟩
  intro e' he'
  obtain ⟨e₀, he₀, rfl⟩ := List.mem_map.mp he'
  split_ifs
  · exact hnew
  · exact h.channels e₀ he₀

end Transport

/-! ### The role of a session -/

namespace RoleSession

variable {s s' : RoleSession} {op : RoleOp}

/-- The role of the session: the first one, or the other one behind a switch. -/
def role (s : RoleSession) : TransportRole := if s.roleSwitch then s.switchedRole else s.initialRole

/-- The roles that a port of the session may have; one that was dropped may still have the first. -/
def MayHave (s : RoleSession) (role : TransportRole) : Prop :=
  role = s.initialRole ∨ s.roleSwitch = true ∧ role = s.switchedRole

/-- The transports have the role of the session, and no port has another one than it may have. -/
def Settled (s : RoleSession) : Prop :=
  ∀ p ∈ s.transports, p.transport.role = s.role ∧ p.transport.Told s.MayHave s.iceTiebreaker

/-- What may happen in a session besides the switch: descriptions of sides that are not ICE-lite, and transports
that are not made behind the switch. -/
def takes (s : RoleSession) : RoleOp → Bool
  | .createTransport contentName => s.roleSwitch = false ∨ ∃ p ∈ s.transports, p.contentName = contentName
  | .roleConflict => false
  | .transport _ op => op.isFull
  | .channel _ _ _ => true

/-- The same role has been given, of the same choice. -/
structure SameRole (s s' : RoleSession) : Prop where
  initiator : s'.initiator = s.initiator
  iceTiebreaker : s'.iceTiebreaker = s.iceTiebreaker
  roleSwitch : s'.roleSwitch = s.roleSwitch

theorem SameRole.initialRole (h : SameRole s s') : s'.initialRole = s.initialRole := by
  rw [RoleSession.initialRole, RoleSession.initialRole, h.initiator]

theorem SameRole.switchedRole (h : SameRole s s') : s'.switchedRole = s.switchedRole := by
  rw [RoleSession.switchedRole, RoleSession.switchedRole, h.initiator]

theorem SameRole.mayHave (h : SameRole s s') : s'.MayHave = s.MayHave := by
  funext role
  rw [MayHave, MayHave, h.roleSwitch, h.initialRole, h.switchedRole]

theorem Settled.withTransport (h : s.Settled) {contentName : String} {f : Transport → Option Transport}
    (hf : ∀ p ∈ s.transports, ∀ t, f p.transport = some t →
      t.Told s.MayHave s.iceTiebreaker ∧ t.role = p.transport.role)
    (hstep : s.withTransport contentName f = some s') : SameRole s s' ∧ s'.Settled := by
  obtain ⟨p, hfound, hsome⟩ := Option.bind_eq_some_iff.mp hstep
  obtain ⟨t, ht, rfl⟩ := Option.map_eq_some_iff.mp hsome
  have hp : p ∈ s.transports := List.mem_of_find?_eq_some hfound
  obtain ⟨htold, hrole⟩ := hf p hp t ht
  refine ⟨⟨rfl, rfl, rfl⟩, ?_⟩
  intro q hq
  obtain ⟨q₀, hq₀, rfl⟩ := List.mem_map.mp hq
  split_ifs
  · exact ⟨hrole.trans (h p hp).1, htold⟩
  · exact h q₀ hq₀

theorem settled_step (h : s.Settled) (htakes : s.takes op = true) (hstep : s.step op = some s') :
    SameRole s s' ∧ s'.Settled := by
  cases op with
  | createTransport contentName =>
    cases hstep
    rw [getOrCreateTransportProxy]
    split_ifs with hexists
    · exact ⟨⟨rfl, rfl, rfl⟩, h⟩
    have hswitch : s.roleSwitch = false := (of_decide_eq_true htakes).resolve_right hexists
    refine ⟨⟨rfl, rfl, rfl⟩, List.forall_mem_append.mpr ⟨h, List.forall_mem_singleton.mpr ?_⟩⟩
    have hrole : s.role = s.initialRole := by
      rw [role, hswitch]
      rfl
    exact ⟨hrole.symm, Or.inl rfl, rfl, by rintro _ ⟨⟩, List.forall_mem_nil _⟩
  | roleConflict => cases htakes
  | transport contentName op =>
    obtain ⟨hrole, htiebreaker, hwith⟩ := step_transport hstep
    exact h.withTransport
      (fun p hp t ht => Transport.told_step (h p hp).2 hrole htiebreaker htakes ht) hwith
  | channel contentName component op =>
    obtain ⟨hrole, htiebreaker, hwith⟩ := step_channel hstep
    exact h.withTransport
      (fun p hp t ht => Transport.told_withChannel (h p hp).2 hrole htiebreaker ht) hwith

theorem mayHave_onRoleConflict {role : TransportRole} (h : s.MayHave role) : s.onRoleConflict.MayHave role := by
  rw [onRoleConflict]
  split_ifs
  · exact h
  · exact h.imp_right fun hswitched => ⟨rfl, hswitched.2⟩

theorem roleSwitch_onRoleConflict (s : RoleSession) : s.onRoleConflict.roleSwitch = true := by
  rw [onRoleConflict]
  split_ifs with hswitch
  exacts [hswitch, rfl]

theorem Settled.onRoleConflict (h : s.Settled) : s.onRoleConflict.Settled := by
  have hmay {role : TransportRole} : s.MayHave role → s.onRoleConflict.MayHave role := mayHave_onRoleConflict
  rw [RoleSession.onRoleConflict] at hmay ⊢
  split_ifs at hmay ⊢
  · exact h
  intro p hp
  obtain ⟨p₀, hp₀, rfl⟩ := List.mem_map.mp hp
  have htold := (h p₀ hp₀).2
  refine ⟨rfl, Transport.Told.setRole ⟨?_, htold.tiebreaker, htold.full, ?_⟩ (Or.inr ⟨rfl, rfl⟩)⟩
  · exact hmay htold.role
  · exact fun e he => (htold.channels e he).mono fun _ => hmay

end RoleSession

end Synciga.P2p
