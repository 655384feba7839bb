import Synciga.P2p.Transport

/-!
# How the channels of a transport are configured

A setting is pushed to the channels that there are, and those there are to a channel that is made. Both ways
lead to one configuration for the role, the local description and what was negotiated. But the remote password
is that of the remote description only if it is the user fragment, a channel that is made between the two
descriptions does not hear of the remote one, and a tiebreaker only reaches channels that are made later.

## Main results

* `alike_run_iff` — when all channels are configured alike
-/

namespace Synciga.P2p

/-- What a transport tells a channel. -/
structure ChannelConfig where
  role : TransportRole
  tiebreaker : UInt64
  iceUfrag : String
  icePwd : String
  remoteIceUfrag : String
  remoteIcePwd : String
  protocolType : TransportProtocol
  remoteIceMode : IceMode
  deriving DecidableEq, Repr

namespace P2PTransportChannel

variable (ch : P2PTransportChannel)

/-- What the channel was told. -/
def config : ChannelConfig where
  role := ch.role
  tiebreaker := ch.tiebreaker
  iceUfrag := ch.iceUfrag
  icePwd := ch.icePwd
  remoteIceUfrag := ch.remoteIceUfrag
  remoteIcePwd := ch.remoteIcePwd
  protocolType := ch.protocolType
  remoteIceMode := ch.remoteIceMode

@[simp]
theorem config_setRole (role : TransportRole) : (ch.setRole role).config = { ch.config with role } := by
  rw [setRole]
  split_ifs with h
  · rw [← h]
    rfl
  · rfl

@[simp]
theorem config_setIceProtocolType (type : TransportProtocol) :
    (ch.setIceProtocolType type).config = { ch.config with protocolType := type } := rfl

@[simp]
theorem config_setRemoteIceMode (mode : IceMode) :
    (ch.setRemoteIceMode mode).config = { ch.config with remoteIceMode := mode } := rfl

@[simp]
theorem config_setIceCredentials (iceUfrag icePwd : String) :
    (ch.setIceCredentials iceUfrag icePwd).config = { ch.config with iceUfrag, icePwd } := by
  simp only [setIceCredentials]
  split_ifs <;> rfl

@[simp]
theorem config_setRemoteIceCredentials (iceUfrag icePwd : String) :
    (ch.setRemoteIceCredentials iceUfrag icePwd).config =
      { ch.config with remoteIceUfrag := iceUfrag, remoteIcePwd := icePwd } := by
  simp only [setRemoteIceCredentials]
  split_ifs <;> rfl

@[simp]
theorem config_connect : ch.connect.config = ch.config := by
  rw [connect]
  split_ifs <;> rfl

theorem config_setTiebreaker {tiebreaker : UInt64} (h : ch.ports = []) :
    (ch.setTiebreaker tiebreaker).config = { ch.config with tiebreaker } := by
  rw [setTiebreaker, if_neg (not_not.mpr h)]
  rfl

theorem ports_setRole (role : TransportRole) : (ch.setRole role).ports = ch.ports := by
  rw [setRole]
  split_ifs <;> rfl

theorem config_create (component : ℤ) : (create component).config =
    { role := .unknown, tiebreaker := 0, iceUfrag := "", icePwd := "", remoteIceUfrag := "", remoteIcePwd := ""
      protocolType := .google, remoteIceMode := .full } := rfl

end P2PTransportChannel

namespace Transport

variable {t t' : Transport}

/-! ### Channels that are alike -/

/-- A channel is configured as the transport says. A protocol is negotiated when it is not `hybrid`. -/
structure Fits (t : Transport) (c : ChannelConfig) : Prop where
  role : c.role = t.role
  tiebreaker : c.tiebreaker = t.tiebreaker
  localCredentials : ∀ desc, t.localDescription = some desc → c.iceUfrag = desc.iceUfrag ∧ c.icePwd = desc.icePwd
  remoteCredentials : ∀ desc, t.remoteDescription = some desc →
    c.remoteIceUfrag = desc.iceUfrag ∧ c.remoteIcePwd = desc.icePwd
  protocol : t.protocol ≠ .hybrid → c.protocolType = t.protocol
  remoteIceMode : c.remoteIceMode = t.remoteIceMode

/-- All channels are configured as the transport says. -/
def Alike (t : Transport) : Prop := ∀ e ∈ t.channels, t.Fits e.channel.config

/-- Nothing is negotiated without both descriptions. -/
def Described (t : Transport) : Prop :=
  t.localDescription = none ∨ t.remoteDescription = none → t.protocol = .hybrid ∧ t.remoteIceMode = .full

/-- A channel that is made learns the remote credentials: there are none yet, or there is a local description
and the password is the user fragment, or they are empty. -/
def TellsRemote (t : Transport) : Prop :=
  ∀ desc, t.remoteDescription = some desc →
    if t.localDescription.isSome then desc.iceUfrag = desc.icePwd else desc.iceUfrag = "" ∧ desc.icePwd = ""

/-- The operations behind which the channels are alike if they were before. -/
def KeepsAlike (t : Transport) : TransportOp → Prop
  | .createChannel component => t.hasChannel component = true ∨ t.TellsRemote
  | .setTiebreaker tiebreaker => t.channels = [] ∨ tiebreaker = t.tiebreaker
  | .setRemoteTransportDescription desc _ => t.channels = [] ∨ desc.iceUfrag = desc.icePwd
  | _ => True

variable {f : P2PTransportChannel → P2PTransportChannel}

theorem fits_mapChannels {c : ChannelConfig} :
    (t.mapChannels f).Fits c ↔ t.Fits c :=
  ⟨fun h => { h with }, fun h => { h with }⟩

theorem alike_mapChannels :
    (t.mapChannels f).Alike ↔ ∀ e ∈ t.channels, t.Fits (f e.channel).config := by
  simp only [Alike, fits_mapChannels]
  exact List.forall_mem_map

/-! ### Pushing settings -/

theorem Alike.setRole (h : t.Alike) (role : TransportRole) : (t.setRole role).Alike := by
  rw [Transport.setRole, alike_mapChannels]
  intro e he
  rw [P2PTransportChannel.config_setRole]
  exact { h e he with role := rfl }

theorem Alike.adoptNegotiated (h : t.Alike) (answerProto : TransportProtocol) (remoteMode : IceMode) :
    (t.adoptNegotiated answerProto remoteMode).Alike := by
  rw [Transport.adoptNegotiated, alike_mapChannels]
  -- only the protocol and the mode differ while the role is settled
  set agreed : Transport :=
    { t with protocol := if answerProto = .hybrid then .google else answerProto } with hagreed
  have hrole : ∀ e ∈ (if agreed.role = .controlled ∧ remoteMode = .lite then agreed.setRole .controlling
      else agreed).channels,
      ({ (if agreed.role = .controlled ∧ remoteMode = .lite then agreed.setRole .controlling else agreed) with
        protocol := t.protocol } : Transport).Fits e.channel.config := by
    split_ifs with hlite
    · exact h.setRole .controlling
    · exact h
  intro e he
  have hfit := hrole e he
  exact
    { role := hfit.role
      tiebreaker := hfit.tiebreaker
      localCredentials := hfit.localCredentials
      remoteCredentials := hfit.remoteCredentials
      protocol := fun _ => rfl
      remoteIceMode := rfl }

/-- The remote credentials of the channels. -/
def remoteCredentials (t : Transport) : List (String × String) :=
  t.channels.map fun e => (e.channel.config.remoteIceUfrag, e.channel.config.remoteIcePwd)

theorem remoteCredentials_mapChannels
    (h : ∀ ch, (f ch).config.remoteIceUfrag = ch.config.remoteIceUfrag ∧
      (f ch).config.remoteIcePwd = ch.config.remoteIcePwd) :
    (t.mapChannels f).remoteCredentials = t.remoteCredentials := by
  rw [remoteCredentials, mapChannels, List.map_map]
  refine List.map_congr_left fun e _ => ?_
  exact Prod.ext (h e.channel).1 (h e.channel).2

/-- What a negotiation does not touch. -/
structure SameDescriptions (t t' : Transport) : Prop where
  localDescription : t'.localDescription = t.localDescription
  remoteDescription : t'.remoteDescription = t.remoteDescription
  remoteCredentials : t'.remoteCredentials = t.remoteCredentials

theorem sameDescriptions_adoptNegotiated (answerProto : TransportProtocol) (remoteMode : IceMode) :
    t.SameDescriptions (t.adoptNegotiated answerProto remoteMode) := by
  have hpushed (u : Transport) (h : u.remoteCredentials = t.remoteCredentials) :
      (u.mapChannels u.applyNegotiatedTransportDescription).remoteCredentials = t.remoteCredentials := by
    refine (remoteCredentials_mapChannels fun ch => ?_).trans h
    simp [applyNegotiatedTransportDescription]
  have hrole (u : Transport) (h : u.remoteCredentials = t.remoteCredentials) :
      (u.setRole .controlling).remoteCredentials = t.remoteCredentials := by
    refine (remoteCredentials_mapChannels fun ch => ?_).trans h
    simp
  simp only [adoptNegotiated]
  generalize (if answerProto = .hybrid then TransportProtocol.google else answerProto) = protocol
  split_ifs with hlite
  · exact ⟨rfl, rfl, hpushed _ (hrole { t with protocol } rfl)⟩
  · exact ⟨rfl, rfl, hpushed _ rfl⟩

/-- A negotiation needs both descriptions and keeps them and the remote credentials; channels that were alike
are alike behind it. -/
theorem negotiate_spec {localRole : ContentAction} {r : Transport × Bool}
    (h : t.negotiateTransportDescription localRole = some r) :
    t.localDescription.isSome ∧ t.remoteDescription.isSome ∧ t.SameDescriptions r.1 ∧ (t.Alike → r.1.Alike) := by
  simp only [negotiateTransportDescription] at h
  split at h
  · rename_i local' remote hlocal hremote
    refine ⟨by rw [hlocal]; rfl, by rw [hremote]; rfl, ?_⟩
    have hsame : t.SameDescriptions t ∧ (t.Alike → t.Alike) := ⟨⟨rfl, rfl, rfl⟩, id⟩
    split_ifs at h <;> cases h
    exacts [hsame, ⟨sameDescriptions_adoptNegotiated _ _, fun ha => ha.adoptNegotiated _ _⟩,
      hsame, ⟨sameDescriptions_adoptNegotiated _ _, fun ha => ha.adoptNegotiated _ _⟩]
  · cases h

/-! ### New channels -/

theorem fits_configureChannel (h : t.Described) (component : ℤ) :
    t.Fits (t.configureChannel (.create component)).config ↔ t.TellsRemote := by
  have hports : ((P2PTransportChannel.create component).setRole t.role).ports = [] :=
    P2PTransportChannel.ports_setRole _ _
  have hnone : t.localDescription = none → t.protocol = .hybrid ∧ t.remoteIceMode = .full :=
    fun hlocal => h (Or.inl hlocal)
  have hhalf : t.remoteDescription = none → t.protocol = .hybrid ∧ t.remoteIceMode = .full :=
    fun hremote => h (Or.inr hremote)
  rw [configureChannel, TellsRemote]
  rcases hlocal : t.localDescription with _ | local'
  · obtain ⟨hprotocol, hmode⟩ := hnone hlocal
    rw [P2PTransportChannel.config_setTiebreaker _ hports, P2PTransportChannel.config_setRole,
      P2PTransportChannel.config_create]
    constructor
    · intro hfit desc hdesc
      obtain ⟨hufrag, hpwd⟩ := hfit.remoteCredentials desc hdesc
      exact ⟨hufrag.symm, hpwd.symm⟩
    intro htells
    exact
      { role := rfl
        tiebreaker := rfl
        localCredentials := by
          intro desc hdesc
          rw [hlocal] at hdesc
          cases hdesc
        remoteCredentials := fun desc hdesc => ⟨(htells desc hdesc).1.symm, (htells desc hdesc).2.symm⟩
        protocol := fun hne => absurd hprotocol hne
        remoteIceMode := hmode.symm }
  · have hlocalFits {c : ChannelConfig} (hc : c.iceUfrag = local'.iceUfrag ∧ c.icePwd = local'.icePwd) :
        ∀ desc, t.localDescription = some desc → c.iceUfrag = desc.iceUfrag ∧ c.icePwd = desc.icePwd := by
      intro desc hdesc
      rw [hlocal] at hdesc
      cases hdesc
      exact hc
    rcases hremote : t.remoteDescription with _ | remote
    · obtain ⟨hprotocol, hmode⟩ := hhalf hremote
      dsimp only
      rw [applyLocalTransportDescription, P2PTransportChannel.config_setIceCredentials,
        P2PTransportChannel.config_setTiebreaker _ hports, P2PTransportChannel.config_setRole,
        P2PTransportChannel.config_create]
      refine iff_of_true ?_ (fun desc hdesc => nomatch hdesc)
      exact
        { role := rfl
          tiebreaker := rfl
          localCredentials := hlocalFits ⟨rfl, rfl⟩
          remoteCredentials := by
            intro desc hdesc
            rw [hremote] at hdesc
            cases hdesc
          protocol := fun hne => absurd hprotocol hne
          remoteIceMode := hmode.symm }
    · dsimp only
      rw [applyNegotiatedTransportDescription, P2PTransportChannel.config_setRemoteIceMode,
        P2PTransportChannel.config_setIceProtocolType, applyRemoteTransportDescription,
        P2PTransportChannel.config_setRemoteIceCredentials, applyLocalTransportDescription,
        P2PTransportChannel.config_setIceCredentials, P2PTransportChannel.config_setTiebreaker _ hports,
        P2PTransportChannel.config_setRole, P2PTransportChannel.config_create]
      constructor
      · intro hfit desc hdesc
        cases hdesc
        exact (hfit.remoteCredentials remote hremote).2
      intro htells
      exact
        { role := rfl
          tiebreaker := rfl
          localCredentials := hlocalFits ⟨rfl, rfl⟩
          remoteCredentials := by
            intro desc hdesc
            rw [hremote] at hdesc
            cases hdesc
            exact ⟨rfl, htells remote rfl⟩
          protocol := fun _ => rfl
          remoteIceMode := rfl }

/-! ### One operation -/

theorem fits_channels {channels : List ChannelMapEntry} {c : ChannelConfig} :
    ({ t with channels } : Transport).Fits c ↔ t.Fits c :=
  ⟨fun h => { h with }, fun h => { h with }⟩

theorem alike_append {e : ChannelMapEntry} :
    ({ t with channels := t.channels ++ [e] } : Transport).Alike ↔ t.Alike ∧ t.Fits e.channel.config := by
  simp only [Alike, fits_channels, List.forall_mem_append, List.forall_mem_singleton]

theorem alike_createChannel_iff (hd : t.Described) (ha : t.Alike) (component : ℤ) :
    (t.createChannel component).Alike ↔ t.hasChannel component = true ∨ t.TellsRemote := by
  rw [createChannel]
  by_cases hhas : t.hasChannel component = true
  · rw [if_pos hhas]
    refine iff_of_true ?_ (Or.inl hhas)
    simp only [Alike, fits_channels, List.forall_mem_map]
    intro e he
    split_ifs <;> exact ha e he
  rw [if_neg hhas]
  have hconfig : (if t.connectRequested then (t.configureChannel (.create component)).connect
      else t.configureChannel (.create component)).config =
      (t.configureChannel (.create component)).config := by
    split_ifs
    · exact P2PTransportChannel.config_connect _
    · rfl
  rw [or_iff_right hhas, alike_append, hconfig, fits_configureChannel hd]
  exact and_iff_right ha

theorem Alike.pushLocal (h : t.Alike) (desc : TransportDescription) :
    ({ t with localDescription := some desc }.mapChannels (applyLocalTransportDescription desc)).Alike := by
  rw [alike_mapChannels]
  intro e he
  rw [applyLocalTransportDescription, P2PTransportChannel.config_setIceCredentials]
  refine { h e he with localCredentials := ?_ }
  intro d hd
  cases hd
  exact ⟨rfl, rfl⟩

theorem alike_pushRemote_iff (h : t.Alike) (desc : TransportDescription) :
    ({ t with remoteDescription := some desc }.mapChannels (applyRemoteTransportDescription desc)).Alike ↔
      t.channels = [] ∨ desc.iceUfrag = desc.icePwd := by
  rw [alike_mapChannels]
  simp only [applyRemoteTransportDescription, P2PTransportChannel.config_setRemoteIceCredentials]
  constructor
  · intro hfits
    rcases hchannels : t.channels with _ | ⟨e, rest⟩
    · exact Or.inl rfl
    · exact Or.inr ((hfits e (by rw [hchannels]; exact List.mem_cons_self)).remoteCredentials desc rfl).2
  rintro (hnone | heq) e he
  · rw [hnone] at he
    cases he
  · refine { h e he with remoteCredentials := ?_ }
    intro d hd
    cases hd
    exact ⟨rfl, heq⟩

theorem pushed_of_negotiated {desc : TransportDescription} {r : Transport × Bool}
    (hsame : ({ t with remoteDescription := some desc }.mapChannels
      (applyRemoteTransportDescription desc)).SameDescriptions r.1) (h : r.1.Alike) :
    t.channels = [] ∨ desc.iceUfrag = desc.icePwd := by
  rcases hchannels : t.channels with _ | ⟨e, rest⟩
  · exact Or.inl rfl
  right
  have hmem : (desc.iceUfrag, desc.iceUfrag) ∈ r.1.remoteCredentials := by
    rw [hsame.remoteCredentials]
    refine List.mem_map.mpr ⟨e.map (applyRemoteTransportDescription desc), ?_, ?_⟩
    · refine List.mem_map_of_mem ?_
      rw [hchannels]
      exact List.mem_cons_self
    · simp [ChannelMapEntry.map, applyRemoteTransportDescription]
  obtain ⟨e', he', hpair⟩ := List.mem_map.mp hmem
  rw [← (h e' he').remoteCredentials desc hsame.remoteDescription |>.2]
  exact (congrArg Prod.snd hpair).symm

/-- `ConnectChannels` does nothing, or connects the channels, with a description of its own if there is none. -/
theorem connectChannels_cases {ufrag pwd : String} (h : t.connectChannels ufrag pwd = some t') :
    t' = t ∨ ∃ u : Transport, (u = { t with connectRequested := true } ∨ ∃ desc, u =
      { t with connectRequested := true, localDescription := some desc }.mapChannels
        (applyLocalTransportDescription desc)) ∧ t' = u.mapChannels (·.connect) := by
  rw [connectChannels] at h
  by_cases hquiet : t.connectRequested ∨ t.channels = []
  · rw [if_pos hquiet] at h
    cases h
    exact Or.inl rfl
  rw [if_neg hquiet] at h
  right
  obtain ⟨u, hu, rfl⟩ := Option.map_eq_some_iff.mp h
  refine ⟨u, ?_, rfl⟩
  split_ifs at hu
  · cases hu
    exact Or.inr ⟨_, rfl⟩
  · cases hu
    exact Or.inl rfl

/-- Behind an operation that the program does not stop in, the channels are alike if and only if the operation
keeps them so. -/
theorem alike_step_iff {op : TransportOp} (hd : t.Described) (ha : t.Alike) (h : t.step op = some t') :
    t'.Alike ↔ t.KeepsAlike op := by
  cases op with
  | createChannel component =>
    cases h
    exact alike_createChannel_iff hd ha component
  | setRole role =>
    cases h
    exact iff_of_true (ha.setRole role) trivial
  | setTiebreaker tiebreaker =>
    cases h
    constructor
    · intro halike
      rcases hchannels : t.channels with _ | ⟨e, rest⟩
      · exact Or.inl hchannels
      · have he : e ∈ t.channels := by
          rw [hchannels]
          exact List.mem_cons_self
        exact Or.inr ((halike e he).tiebreaker.symm.trans (ha e he).tiebreaker)
    · rintro (hnone | rfl)
      · intro e he
        rw [Transport.setTiebreaker, hnone] at he
        cases he
      · exact ha
  | setLocalTransportDescription desc action =>
    refine iff_of_true ?_ trivial
    obtain ⟨r, hr, rfl⟩ := Option.map_eq_some_iff.mp h
    rw [setLocalTransportDescription] at hr
    split_ifs at hr
    · exact (negotiate_spec hr).2.2.2 (ha.pushLocal desc)
    · cases hr
      exact ha.pushLocal desc
  | setRemoteTransportDescription desc action =>
    obtain ⟨r, hr, rfl⟩ := Option.map_eq_some_iff.mp h
    rw [setRemoteTransportDescription] at hr
    split_ifs at hr
    · obtain ⟨-, -, hsame, halike⟩ := negotiate_spec hr
      exact ⟨pushed_of_negotiated hsame, fun hok => halike ((alike_pushRemote_iff ha desc).mpr hok)⟩
    · cases hr
      exact alike_pushRemote_iff ha desc
  | connectChannels ufrag pwd =>
    refine iff_of_true ?_ trivial
    have hrequested : ({ t with connectRequested := true } : Transport).Alike :=
      fun e he => { ha e he with }
    have hconnect {u : Transport} (hu : u.Alike) : (u.mapChannels (·.connect)).Alike := by
      rw [alike_mapChannels]
      intro e he
      rw [P2PTransportChannel.config_connect]
      exact hu e he
    rcases connectChannels_cases h with rfl | ⟨u, rfl | ⟨desc, rfl⟩, rfl⟩
    · exact ha
    · exact hconnect hrequested
    · exact hconnect (hrequested.pushLocal desc)

theorem described_step {op : TransportOp} (hd : t.Described) (h : t.step op = some t') : t'.Described := by
  have hpushed {u : Transport} {localRole : ContentAction} {r : Transport × Bool}
      (hr : u.negotiateTransportDescription localRole = some r) : r.1.Described := by
    obtain ⟨hlocal, hremote, hsame, -⟩ := negotiate_spec hr
    rintro (hnone | hnone)
    · rw [hsame.localDescription] at hnone
      rw [hnone] at hlocal
      cases hlocal
    · rw [hsame.remoteDescription] at hnone
      rw [hnone] at hremote
      cases hremote
  have hlocal (desc : TransportDescription) : ({ t with localDescription := some desc } : Transport).Described := by
    rintro (hnone | hnone)
    · cases hnone
    · exact hd (Or.inr hnone)
  have hremote (desc : TransportDescription) :
      ({ t with remoteDescription := some desc } : Transport).Described := by
    rintro (hnone | hnone)
    · exact hd (Or.inl hnone)
    · cases hnone
  cases op with
  | createChannel component =>
    cases h
    rw [createChannel]
    split_ifs <;> exact hd
  | setRole role =>
    cases h
    exact hd
  | setTiebreaker tiebreaker =>
    cases h
    exact hd
  | setLocalTransportDescription desc action =>
    obtain ⟨r, hr, rfl⟩ := Option.map_eq_some_iff.mp h
    rw [setLocalTransportDescription] at hr
    split_ifs at hr
    · exact hpushed hr
    · cases hr
      exact hlocal desc
  | setRemoteTransportDescription desc action =>
    obtain ⟨r, hr, rfl⟩ := Option.map_eq_some_iff.mp h
    rw [setRemoteTransportDescription] at hr
    split_ifs at hr
    · exact hpushed hr
    · cases hr
      exact hremote desc
  | connectChannels ufrag pwd =>
    rcases connectChannels_cases h with rfl | ⟨u, rfl | ⟨desc, rfl⟩, rfl⟩
    · exact hd
    · exact hd
    · exact hlocal desc

/-! ### Runs -/

/-- For every run in which the program does not stop: the channels are configured alike, as the transport says,
in every state, if and only if every operation keeps them alike. -/
theorem alike_run_iff {ops : List TransportOp} (h : Runs.run step create ops = some t) :
    (∀ front back u, ops = front ++ back → Runs.run step create front = some u → u.Alike) ↔
      Runs.Admissible step KeepsAlike create ops := by
  have hcreated : create.Described ∧ create.Alike := ⟨fun _ => ⟨rfl, rfl⟩, List.forall_mem_nil _⟩
  exact (Runs.admissible_iff_states (fun _ _ _ hd hstep => described_step hd hstep)
    (fun _ _ _ hd ha hstep => alike_step_iff hd ha hstep) hcreated.1 hcreated.2 h).symm

/-- A description with these credentials. -/
def describe (iceUfrag icePwd : String) : TransportDescription where
  transportType := NS_JINGLE_ICE_UDP
  transportOptions := []
  iceUfrag := iceUfrag
  icePwd := icePwd
  iceMode := .full
  candidates := []

/-- A call with a channel for each of two components, one made before the descriptions and one behind them. -/
def call (iceUfrag icePwd : String) : List TransportOp :=
  [.setRole .controlling, .setTiebreaker 7, .createChannel 1,
    .setLocalTransportDescription (describe "ufrag" "password") .offer,
    .setRemoteTransportDescription (describe iceUfrag icePwd) .answer, .createChannel 2, .connectChannels "" ""]

theorem alike_run_call : ∃ t, Runs.run step create (call "same" "same") = some t ∧
    ((∀ front back u, call "same" "same" = front ++ back → Runs.run step create front = some u → u.Alike) ↔
      Runs.Admissible step KeepsAlike create (call "same" "same")) :=
  ⟨_, rfl, alike_run_iff rfl⟩

/-- The channels of a call have the user fragment of the other side for its password. -/
theorem not_alike_call :
    ¬ ∀ (ops : List TransportOp) (t : Transport), Runs.run step create ops = some t → t.Alike := by
  intro hall
  have halike := hall (call "remote" "secret") _ rfl
  have hfits := halike _ List.mem_cons_self
  exact absurd (hfits.remoteCredentials (describe "remote" "secret") rfl).2 (by decide)

end Transport

end Synciga.P2p
