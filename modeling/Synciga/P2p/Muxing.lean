import Synciga.P2p.RefusedMessages

/-!
# Contents that share a transport

When contents are bundled, `BaseSession::SetSelectedProxy` has the proxies of the group take the transport of
one of them, and `TransportProxy::SetupMux` has the channels of a proxy take its implementations. It stops at
the first component that the transport does not have; what was repointed before stays so.

## Main definitions

* `WellFormed` — an invariant of proxies and transports

## Main results

* `wellFormed_of_run` — it holds in every run
* `allOrNothing_iff` — when a failure leaves the session as it was
-/

namespace Synciga.P2p

/-! ### Channels that are used -/

namespace Transport

variable {t : Transport}

/-- No channel is kept that no one uses. -/
def Counted (t : Transport) : Prop := ∀ c ∈ t.components, 0 < c.2

theorem Counted.createChannel (h : t.Counted) (component : ℤ) : (t.createChannel component).Counted := by
  rw [Counted, components_createChannel]
  split
  · intro c hc
    obtain ⟨d, hd, rfl⟩ := List.mem_map.mp hc
    have hpos := h d hd
    split
    · exact Nat.succ_pos _
    · exact hpos
  · intro c hc
    rcases List.mem_append.mp hc with hold | hnew
    · exact h c hold
    · rw [List.mem_singleton.mp hnew]
      exact Nat.one_pos

theorem Counted.destroyChannel (h : t.Counted) (component : ℤ) : (t.destroyChannel component).Counted := by
  rw [Counted, components_destroyChannel]
  intro c hc
  obtain ⟨d, hd, hkept⟩ := List.mem_filterMap.mp hc
  split at hkept
  · split at hkept
    · cases hkept
    · rename_i hshared
      cases hkept
      exact Nat.sub_pos_of_lt (Nat.lt_of_not_le hshared)
  · cases hkept
    exact h _ hd

theorem hasChannel_createChannel {component : ℤ} (h : t.hasChannel component = true) (other : ℤ) :
    (t.createChannel component).hasChannel other = t.hasChannel other := by
  rw [hasChannel_eq] at h
  rw [hasChannel_eq, components_createChannel, if_pos h, List.any_map, hasChannel_eq]
  refine congrArg (t.components.any ·) (funext fun c => ?_)
  rw [Function.comp_apply]
  split
  · rfl
  · rfl

theorem hasChannel_destroyChannel_createChannel (hcounted : t.Counted) {component : ℤ}
    (h : t.hasChannel component = true) (other : ℤ) :
    ((t.createChannel component).destroyChannel component).hasChannel other = t.hasChannel other := by
  rw [hasChannel_eq] at h
  rw [hasChannel_eq, components_destroyChannel, components_createChannel, if_pos h, List.filterMap_map,
    hasChannel_eq]
  have hsame (c : ℤ × ℕ) (hc : c ∈ t.components) : ((fun c : ℤ × ℕ =>
      if c.1 = component then if c.2 ≤ 1 then none else some (c.1, c.2 - 1) else some c) ∘
        fun c => if c.1 = component then (c.1, c.2 + 1) else c) c = some c := by
    have hpos := hcounted c hc
    rw [Function.comp_apply]
    by_cases hcomponent : c.1 = component
    · rw [if_pos hcomponent]
      rw [if_pos hcomponent, if_neg (by omega)]
      rfl
    · rw [if_neg hcomponent, if_neg hcomponent]
  rw [List.filterMap_congr hsame, List.filterMap_some]

end Transport

namespace ContentSession

variable {s t : ContentSession}

/-! ### `SetSelectedProxy` -/

/-- `SetSelectedProxy`, for these proxies. -/
def setSelectedProxies (group : ContentGroup) (target : ℕ) :
    List ContentProxy → ContentSession → ContentSession × Bool
  | [], s => (s, true)
  | p :: proxies, s =>
    if p.contentName ∈ group.contentNames then
      if (s.setupMux p target).2 then setSelectedProxies group target proxies (s.setupMux p target).1
      else ((s.setupMux p target).1, false)
    else setSelectedProxies group target proxies s

/-- `BaseSession::SetSelectedProxy`. -/
def setSelectedProxy (contentName : String) (group : ContentGroup) (s : ContentSession) : ContentSession × Bool :=
  match s.getTransportProxy contentName with
  | none => (s, false)
  | some selected => s.setSelectedProxies group selected.transport s.proxies

theorem setSelectedProxies_fst (group : ContentGroup) (target : ℕ) (proxies : List ContentProxy)
    (s : ContentSession) : (s.setSelectedProxies group target proxies).1 = s.selectProxy group target proxies := by
  induction proxies generalizing s with
  | nil => rfl
  | cons p proxies ih =>
    rw [setSelectedProxies, selectProxy]
    split
    · rcases s.setupMux p target with ⟨t, ok⟩
      cases ok
      · rfl
      · exact ih t
    · exact ih s

/-- A failure changes no proxy and no channel, and after a success the channels of the group are those of the
selected transport. -/
def AllOrNothing (contentName : String) (group : ContentGroup) (s : ContentSession) : Prop :=
  ((s.setSelectedProxy contentName group).2 = false →
    (s.setSelectedProxy contentName group).1.proxies = s.proxies) ∧
  ((s.setSelectedProxy contentName group).2 = true → ∃ selected, s.getTransportProxy contentName = some selected ∧
    ∀ p ∈ (s.setSelectedProxy contentName group).1.proxies, p.contentName ∈ group.contentNames →
      p.transport = selected.transport ∧ ∀ c ∈ p.channels, c.impl = some selected.transport ∧
        ((s.setSelectedProxy contentName group).1.transportAt selected.transport).hasChannel c.component = true)

/-- The names of the proxies differ, and no channel is kept that no one uses. -/
structure WellFormed (s : ContentSession) : Prop where
  names : (s.proxies.map ContentProxy.contentName).Nodup
  counted : ∀ transport, (s.transportAt transport).Counted

/-! ### Sessions are well formed -/

/-- The names of the proxies stay, and no channel is kept that no one uses. -/
structure Keeps (s t : ContentSession) : Prop where
  names : t.proxies.map ContentProxy.contentName = s.proxies.map ContentProxy.contentName
  counted : (∀ transport, (s.transportAt transport).Counted) → ∀ transport, (t.transportAt transport).Counted

theorem Keeps.refl (s : ContentSession) : Keeps s s := ⟨rfl, id⟩

theorem Keeps.trans {u : ContentSession} (h : Keeps s t) (h' : Keeps t u) : Keeps s u :=
  ⟨h'.names.trans h.names, h'.counted ∘ h.counted⟩

theorem Keeps.wellFormed (h : Keeps s t) (hs : s.WellFormed) : t.WellFormed :=
  ⟨h.names ▸ hs.names, h.counted hs.counted⟩

theorem Keeps.foldl {α : Type} {f : ContentSession → α → ContentSession} (h : ∀ s a, Keeps s (f s a))
    (l : List α) (s : ContentSession) : Keeps s (l.foldl f s) := by
  induction l generalizing s with
  | nil => exact .refl s
  | cons a l ih => exact (h s a).trans (ih _)

theorem counted_update {transport : ℕ} {u : Transport} (hs : ∀ transport, (s.transportAt transport).Counted)
    (hu : u.Counted) : ∀ other, (Function.update s.transportAt transport u other).Counted :=
  (Function.forall_update_iff _ fun _ => Transport.Counted).mpr ⟨hu, fun other _ => hs other⟩

theorem keeps_setTransport {transport : ℕ} {u : Transport} (h : (s.transportAt transport).Counted → u.Counted) :
    Keeps s (s.setTransport transport u) :=
  ⟨rfl, fun hs => counted_update hs (h (hs transport))⟩

theorem keeps_setProxy {f : ContentProxy → ContentProxy} {name : String}
    (hf : ∀ p, (f p).contentName = p.contentName) : Keeps s (s.setProxy name f) := by
  refine ⟨?_, fun hs => hs⟩
  rw [setProxy, List.map_map]
  refine List.map_congr_left fun p _ => ?_
  rw [Function.comp_apply]
  split
  · exact hf p
  · rfl

theorem keeps_getOrCreateChannelProxyImpl (transport : ℕ) (component : ℤ) (s : ContentSession) :
    Keeps s (s.getOrCreateChannelProxyImpl transport component) := by
  rw [getOrCreateChannelProxyImpl]
  split
  · exact .refl s
  · exact keeps_setTransport fun h => h.createChannel component

variable (name : String)

theorem keeps_setImplementation (channel : ProxyChannel) (transport : ℕ) (s : ContentSession) :
    Keeps s (s.setImplementation name channel transport) := by
  rw [setImplementation]
  cases channel.impl with
  | none => exact keeps_setProxy fun _ => rfl
  | some old =>
    exact (keeps_setTransport fun h => h.destroyChannel channel.component).trans (keeps_setProxy fun _ => rfl)

theorem keeps_setChannelProxyImpl (p : ContentProxy) (s : ContentSession) (channel : ProxyChannel) :
    Keeps s (s.setChannelProxyImpl p channel) :=
  (keeps_getOrCreateChannelProxyImpl _ _ s).trans (keeps_setImplementation _ _ _ _)

theorem keeps_completeNegotiation (s : ContentSession) : Keeps s (s.completeNegotiation name) := by
  rw [completeNegotiation]
  split
  · exact .refl s
  · split
    · exact .refl s
    · exact (Keeps.foldl (keeps_setChannelProxyImpl _) _ s).trans (keeps_setProxy fun _ => rfl)

theorem keeps_connectChannels {fresh : String → String × String} {name : String}
    (h : s.connectChannels fresh name = some t) : Keeps s t := by
  rw [connectChannels] at h
  split at h
  · cases h
    exact .refl s
  rename_i p hp
  obtain ⟨u, hu, rfl⟩ := Option.map_eq_some_iff.mp h
  refine Keeps.trans ?_ (keeps_setTransport fun hcounted => ?_)
  · refine Keeps.trans ?_ (keeps_setProxy fun _ => rfl)
    split
    · exact .refl s
    · exact Keeps.foldl (fun s c => keeps_getOrCreateChannelProxyImpl _ _ s) _ s
  · rw [Transport.Counted, Transport.components_connectChannels hu]
    exact hcounted

theorem keeps_setupMux (p : ContentProxy) (target : ℕ) (s : ContentSession) : Keeps s (s.setupMux p target).1 := by
  have hchannels (channels : List ProxyChannel) (s : ContentSession) :
      Keeps s (s.setupMuxChannels p target channels).1 := by
    induction channels generalizing s with
    | nil => exact keeps_setProxy fun _ => rfl
    | cons channel channels ih =>
      rw [setupMuxChannels]
      split
      · have hcreate : Keeps s
            (s.setTransport target ((s.transportAt target).createChannel channel.component)) :=
          keeps_setTransport fun h => h.createChannel channel.component
        exact (hcreate.trans (keeps_setImplementation p.contentName channel target _)).trans (ih _)
      · exact .refl s
  rw [setupMux]
  split
  · exact .refl s
  · exact hchannels p.channels s

theorem keeps_setSelectedProxies (group : ContentGroup) (target : ℕ) (proxies : List ContentProxy)
    (s : ContentSession) : Keeps s (s.setSelectedProxies group target proxies).1 := by
  induction proxies generalizing s with
  | nil => exact .refl s
  | cons p proxies ih =>
    rw [setSelectedProxies]
    split
    · split
      · exact (keeps_setupMux p target s).trans (ih _)
      · exact keeps_setupMux p target s
    · exact ih s

theorem keeps_setSelectedProxy (group : ContentGroup) (s : ContentSession) :
    Keeps s (s.setSelectedProxy name group).1 := by
  rw [setSelectedProxy]
  split
  · exact .refl s
  · exact keeps_setSelectedProxies group _ _ s

theorem WellFormed.getOrCreateTransportProxy (h : s.WellFormed) (name : String) :
    (s.getOrCreateTransportProxy name).WellFormed := by
  rw [ContentSession.getOrCreateTransportProxy]
  split
  · exact h
  rename_i hnone
  refine ⟨?_, counted_update h.counted (List.forall_mem_nil _)⟩
  have hperm : (s.proxies.takeWhile (·.contentName < name) ++
      ({ contentName := name, transport := s.transportCount } : ContentProxy) ::
        s.proxies.dropWhile (·.contentName < name)).Perm
      ({ contentName := name, transport := s.transportCount } :: s.proxies) :=
    List.perm_middle.trans (.cons _ (.of_eq List.takeWhile_append_dropWhile))
  refine (hperm.map ContentProxy.contentName).nodup_iff.mpr ?_
  rw [List.map_cons, List.nodup_cons]
  refine ⟨fun hmem => ?_, h.names⟩
  obtain ⟨p, hp, hname⟩ := List.mem_map.mp hmem
  exact List.find?_eq_none.mp hnone p hp (decide_eq_true hname)

theorem WellFormed.createChannel (h : s.WellFormed) (call : ChannelCall) : (s.createChannel call).WellFormed := by
  have hproxy := h.getOrCreateTransportProxy call.contentName
  rw [ContentSession.createChannel]
  split
  · exact hproxy
  have hadd : WellFormed ((s.getOrCreateTransportProxy call.contentName).setProxy call.contentName
      (·.setChannel { component := call.component })) :=
    Keeps.wellFormed (by exact keeps_setProxy fun _ => rfl) hproxy
  split
  · exact (keeps_setChannelProxyImpl _ _ _).wellFormed hadd
  · split
    · exact (keeps_getOrCreateChannelProxyImpl _ _ _).wellFormed hadd
    · exact hadd

end ContentSession

/-- What happens to the proxies of a session. -/
inductive MuxOp
  | createChannel (call : ChannelCall)
  | completeNegotiation (contentName : String)
  | connectChannels (fresh : String → String × String) (contentName : String)
  | setSelectedProxy (contentName : String) (group : ContentGroup)

namespace ContentSession

variable {s t : ContentSession}

/-- One of these operations. -/
def muxStep (s : ContentSession) : MuxOp → Option ContentSession
  | .createChannel call => some (s.createChannel call)
  | .completeNegotiation contentName => some (s.completeNegotiation contentName)
  | .connectChannels fresh contentName => s.connectChannels fresh contentName
  | .setSelectedProxy contentName group => some (s.setSelectedProxy contentName group).1

theorem wellFormed_new (session : Session SessionDescription) : WellFormed { session } :=
  ⟨List.nodup_nil, fun _ => List.forall_mem_nil _⟩

theorem wellFormed_step (h : s.WellFormed) {op : MuxOp} (hstep : s.muxStep op = some t) : t.WellFormed := by
  cases op with
  | createChannel call =>
    cases hstep
    exact h.createChannel call
  | completeNegotiation contentName =>
    cases hstep
    exact (keeps_completeNegotiation contentName s).wellFormed h
  | connectChannels fresh contentName => exact (keeps_connectChannels hstep).wellFormed h
  | setSelectedProxy contentName group =>
    cases hstep
    exact (keeps_setSelectedProxy contentName group s).wellFormed h

theorem wellFormed_of_run (session : Session SessionDescription) {ops : List MuxOp}
    (hrun : Runs.run muxStep { session } ops = some s) : s.WellFormed :=
  Runs.invariant_of_step (fun _ _ _ h hstep => wellFormed_step h hstep) (wellFormed_new session) hrun

/-- Two contents are bundled, and the channel of the second one is repointed. -/
theorem wellFormed_of_run_bundled :
    let session : Session SessionDescription := .create "a@e.net/1" "a@e.net/1" "7"
    let ops : List MuxOp := [.createChannel ⟨"audio", 1⟩, .createChannel ⟨"video", 1⟩, .completeNegotiation "video",
      .setSelectedProxy "audio" ⟨GROUP_TYPE_BUNDLE, ["audio", "video"]⟩]
    ∃ s, Runs.run muxStep { session } ops = some s ∧ s.WellFormed := by
  intro session ops
  exact ⟨_, rfl, wellFormed_of_run session (show Runs.run muxStep { session } ops = some _ from rfl)⟩

/-! ### The channels of one proxy -/

/-- The components that a transport has. -/
def carries (transport : ℕ) (s : ContentSession) (component : ℤ) : Bool :=
  (s.transportAt transport).hasChannel component

/-- These channels of a proxy are repointed. -/
def repoint (target : ℕ) (channels : List ProxyChannel) (q : ContentProxy) : ContentProxy :=
  { q with channels := q.channels.map fun c =>
      if c.component ∈ channels.map ProxyChannel.component then { c with impl := some target } else c }

/-- What is kept while the channels of a proxy are repointed. -/
structure Muxes (target : ℕ) (s t : ContentSession) : Prop where
  carries : t.carries target = s.carries target
  counted : ∀ transport, (t.transportAt transport).Counted

theorem repoint_nil (target : ℕ) (q : ContentProxy) : repoint target [] q = q := by
  have hid : (fun c : ProxyChannel => if c.component ∈ ([] : List ProxyChannel).map ProxyChannel.component then
      { c with impl := some target } else c) = id := by
    funext c
    exact if_neg List.not_mem_nil
  rw [repoint, hid, List.map_id]

theorem repoint_repoint (target : ℕ) (channel : ProxyChannel) (channels : List ProxyChannel) (q : ContentProxy) :
    repoint target channels (repoint target [channel] q) = repoint target (channel :: channels) q := by
  rw [repoint, repoint, repoint, List.map_map]
  refine congrArg (fun l => { q with channels := l }) (List.map_congr_left fun c _ => ?_)
  rw [Function.comp_apply, List.map_singleton, List.map_cons]
  by_cases hself : c.component = channel.component
  · rw [if_pos (List.mem_singleton.mpr hself), if_pos (List.mem_cons.mpr (.inl hself))]
    exact ite_self _
  · have hiff : c.component ∈ channel.component :: channels.map ProxyChannel.component ↔
        c.component ∈ channels.map ProxyChannel.component := by
      rw [List.mem_cons, or_iff_right hself]
    rw [if_neg (fun h => hself (List.mem_singleton.mp h))]
    exact (if_congr hiff rfl rfl).symm

variable {target : ℕ}

theorem muxes_setTransport (hs : ∀ transport, (s.transportAt transport).Counted) {other : ℕ}
    {u : Transport} (hcounted : u.Counted)
    (hcarries : other = target → ∀ component, u.hasChannel component = s.carries target component) :
    Muxes target s (s.setTransport other u) := by
  refine ⟨funext fun component => ?_, fun transport => ?_⟩
  · change (Function.update s.transportAt other u target).hasChannel component = _
    by_cases hother : other = target
    · subst hother
      rw [Function.update_self]
      exact hcarries rfl component
    · rw [Function.update_of_ne (Ne.symm hother)]
      rfl
  change (Function.update s.transportAt other u transport).Counted
  by_cases hother : transport = other
  · subst hother
    rw [Function.update_self]
    exact hcounted
  · rw [Function.update_of_ne hother]
    exact hs transport

theorem muxes_channel (hs : ∀ transport, (s.transportAt transport).Counted) (name : String)
    {channel : ProxyChannel} (hhas : s.carries target channel.component = true) :
    Muxes target s
      ((s.setTransport target ((s.transportAt target).createChannel channel.component)).setImplementation
        name channel target) ∧
      ((s.setTransport target ((s.transportAt target).createChannel channel.component)).setImplementation
        name channel target).proxies =
        s.proxies.map fun q => if q.contentName = name then repoint target [channel] q else q := by
  set u := s.setTransport target ((s.transportAt target).createChannel channel.component) with hu
  have hcreated : Muxes target s u := muxes_setTransport hs ((hs target).createChannel _)
    fun _ component => Transport.hasChannel_createChannel hhas component
  have hproxies : (u.setImplementation name channel target).proxies =
      s.proxies.map fun q => if q.contentName = name then repoint target [channel] q else q := by
    have hset (v : ContentSession) (hv : v.proxies = s.proxies) : (v.setProxy name fun p =>
        { p with channels := p.channels.map fun c =>
            if c.component = channel.component then { c with impl := some target } else c }).proxies =
        s.proxies.map fun q => if q.contentName = name then repoint target [channel] q else q := by
      rw [setProxy, hv]
      refine List.map_congr_left fun q _ => ?_
      refine if_congr Iff.rfl ?_ rfl
      refine congrArg (fun l => { q with channels := l }) (List.map_congr_left fun c _ => ?_)
      exact if_congr List.mem_singleton.symm rfl rfl
    rw [setImplementation]
    cases channel.impl with
    | none => exact hset u rfl
    | some old => exact hset (u.setTransport old _) rfl
  refine ⟨?_, hproxies⟩
  rw [setImplementation]
  cases channel.impl with
  | none => exact ⟨hcreated.carries, hcreated.counted⟩
  | some old =>
    have hdestroyed : Muxes target u
        (u.setTransport old ((u.transportAt old).destroyChannel channel.component)) := by
      refine muxes_setTransport hcreated.counted ((hcreated.counted old).destroyChannel _) ?_
      rintro rfl component
      rw [carries, hu, setTransport]
      dsimp only
      rw [Function.update_self, Transport.hasChannel_destroyChannel_createChannel (hs _) hhas,
        Transport.hasChannel_createChannel hhas]
    exact ⟨hdestroyed.carries.trans hcreated.carries, hdestroyed.counted⟩

/-- `SetupMux` repoints the channels in front of the first one that the transport does not have. It
succeeds if there is none. -/
theorem setupMuxChannels_spec (p : ContentProxy) (target : ℕ) (channels : List ProxyChannel)
    (hs : ∀ transport, (s.transportAt transport).Counted) :
    Muxes target s (s.setupMuxChannels p target channels).1 ∧
    ((∀ c ∈ channels, s.carries target c.component = true) →
      (s.setupMuxChannels p target channels).2 = true ∧
      (s.setupMuxChannels p target channels).1.proxies = s.proxies.map fun q =>
        if q.contentName = p.contentName then { repoint target channels q with transport := target } else q) ∧
    ((¬∀ c ∈ channels, s.carries target c.component = true) →
      (s.setupMuxChannels p target channels).2 = false ∧
      (s.setupMuxChannels p target channels).1.proxies = s.proxies.map fun q =>
        if q.contentName = p.contentName then
          repoint target (channels.takeWhile fun c => s.carries target c.component) q
        else q) := by
  induction channels generalizing s with
  | nil =>
    refine ⟨⟨rfl, hs⟩, fun _ => ⟨rfl, ?_⟩, fun h => absurd (List.forall_mem_nil _) h⟩
    refine List.map_congr_left fun q _ => ?_
    rw [repoint_nil]
  | cons channel channels ih =>
    rw [setupMuxChannels]
    by_cases hhas : (s.transportAt target).hasChannel channel.component = true
    · rw [if_pos hhas]
      dsimp only
      obtain ⟨hmuxes, hproxies⟩ := muxes_channel hs p.contentName hhas
      set u := (s.setTransport target ((s.transportAt target).createChannel channel.component)).setImplementation
        p.contentName channel target
      obtain ⟨hmuxes', htrue, hfalse⟩ := ih hmuxes.counted
      rw [hmuxes.carries] at htrue hfalse
      refine ⟨⟨hmuxes'.carries.trans hmuxes.carries, hmuxes'.counted⟩, fun hall => ?_, fun hall => ?_⟩
      · obtain ⟨hok, hmapped⟩ := htrue (List.forall_mem_cons.mp hall).2
        refine ⟨hok, ?_⟩
        rw [hmapped, hproxies, List.map_map]
        refine List.map_congr_left fun q _ => ?_
        rw [Function.comp_apply]
        by_cases hname : q.contentName = p.contentName
        · rw [if_pos hname, if_pos (show (repoint target [channel] q).contentName = _ from hname), if_pos hname,
            repoint_repoint]
        · rw [if_neg hname, if_neg hname, if_neg hname]
      have hrest : ¬∀ c ∈ channels, s.carries target c.component = true :=
        fun hrest => hall (List.forall_mem_cons.mpr ⟨hhas, hrest⟩)
      obtain ⟨hok, hmapped⟩ := hfalse hrest
      refine ⟨hok, ?_⟩
      rw [hmapped, hproxies, List.map_map,
        List.takeWhile_cons_of_pos (p := fun c : ProxyChannel => s.carries target c.component) hhas]
      refine List.map_congr_left fun q _ => ?_
      rw [Function.comp_apply]
      by_cases hname : q.contentName = p.contentName
      · rw [if_pos hname, if_pos (show (repoint target [channel] q).contentName = _ from hname), if_pos hname,
          repoint_repoint]
      · rw [if_neg hname, if_neg hname, if_neg hname]
    · rw [if_neg hhas]
      refine ⟨⟨rfl, hs⟩, fun hall => absurd (List.forall_mem_cons.mp hall).1 hhas, fun _ => ⟨rfl, ?_⟩⟩
      rw [List.takeWhile_cons_of_neg (p := fun c : ProxyChannel => s.carries target c.component) hhas]
      simp only [repoint_nil, ite_self, List.map_id']

/-! ### The proxies of a group -/

variable (group : ContentGroup)

/-- The proxy is of the group, and not on the transport that was selected. -/
def Moves (target : ℕ) (p : ContentProxy) : Prop :=
  p.contentName ∈ group.contentNames ∧ p.transport ≠ target

instance (group : ContentGroup) (target : ℕ) (p : ContentProxy) : Decidable (Moves group target p) :=
  inferInstanceAs (Decidable (_ ∧ _))

/-- A proxy of the group with all its channels on the transport that was selected. -/
def muxed (target : ℕ) (p : ContentProxy) : ContentProxy :=
  if Moves group target p then { repoint target p.channels p with transport := target } else p

theorem contentName_muxed (target : ℕ) (p : ContentProxy) :
    (muxed group target p).contentName = p.contentName := by
  rw [muxed]
  split
  · rfl
  · rfl

variable {p : ContentProxy}

theorem setSelectedProxies_of_not_moves {group : ContentGroup}
    (h : ¬Moves group target p) (proxies : List ContentProxy) (s : ContentSession) :
    s.setSelectedProxies group target (p :: proxies) = s.setSelectedProxies group target proxies := by
  rw [setSelectedProxies]
  split
  · rename_i hgroup
    have htarget : p.transport = target := not_not.mp fun hne => h ⟨hgroup, hne⟩
    rw [setupMux, if_pos htarget, if_pos rfl]
  · rfl

/-- One proxy stands for its name. -/
def Unique (proxies : List ContentProxy) (s : ContentSession) : Prop :=
  (proxies.map ContentProxy.contentName).Nodup ∧
    ∀ p ∈ proxies, ∀ q ∈ s.proxies, q.contentName = p.contentName → q = p

variable {proxies : List ContentProxy}

/-- A proxy moves if the transport has all its components, and the others stay as they are. -/
theorem setSelectedProxies_cons {group : ContentGroup}
    (hs : ∀ transport, (s.transportAt transport).Counted) (hunique : s.Unique (p :: proxies))
    (hpass : Moves group target p → ∀ c ∈ p.channels, s.carries target c.component = true) :
    ∃ t, s.setSelectedProxies group target (p :: proxies) = t.setSelectedProxies group target proxies ∧
      Muxes target s t ∧ t.proxies = s.proxies.map fun q =>
        if q.contentName = p.contentName then muxed group target q else q := by
  have hself := hunique.2 p (List.mem_cons_self ..)
  by_cases hmoves : Moves group target p
  · obtain ⟨hmuxes, htrue, -⟩ := setupMuxChannels_spec p target p.channels hs
    obtain ⟨hok, hproxies⟩ := htrue (hpass hmoves)
    refine ⟨_, ?_, hmuxes, ?_⟩
    · rw [setSelectedProxies, if_pos hmoves.1, setupMux, if_neg hmoves.2, hok, if_pos rfl]
    · rw [hproxies]
      refine List.map_congr_left fun q hq => ?_
      by_cases hname : q.contentName = p.contentName
      · rw [if_pos hname, if_pos hname, hself q hq hname, muxed, if_pos hmoves]
      · rw [if_neg hname, if_neg hname]
  refine ⟨s, setSelectedProxies_of_not_moves hmoves proxies s, ⟨rfl, hs⟩, ?_⟩
  have hid (q : ContentProxy) (hq : q ∈ s.proxies) :
      (if q.contentName = p.contentName then muxed group target q else q) = q := by
    by_cases hname : q.contentName = p.contentName
    · rw [if_pos hname, hself q hq hname, muxed, if_neg hmoves]
    · rw [if_neg hname]
  exact ((List.map_congr_left hid).trans (List.map_id' _)).symm

theorem Unique.tail {group : ContentGroup}
    (hunique : s.Unique (p :: proxies)) (ht : t.proxies = s.proxies.map fun q =>
      if q.contentName = p.contentName then muxed group target q else q) : t.Unique proxies := by
  obtain ⟨hnodup, hself⟩ := hunique
  rw [List.map_cons, List.nodup_cons] at hnodup
  refine ⟨hnodup.2, fun r hr q hq hname => ?_⟩
  rw [ht] at hq
  obtain ⟨q₀, hq₀, rfl⟩ := List.mem_map.mp hq
  by_cases hp : q₀.contentName = p.contentName
  · rw [if_pos hp, contentName_muxed, hp] at hname
    exact absurd (hname ▸ List.mem_map_of_mem hr) hnodup.1
  · rw [if_neg hp] at hname ⊢
    exact hself r (List.mem_cons_of_mem _ hr) q₀ hq₀ hname

/-- The proxies move one after the other, until there is one with a component that the transport
does not have. -/
theorem setSelectedProxies_spec (target : ℕ)
    (hs : ∀ transport, (s.transportAt transport).Counted) (hunique : s.Unique proxies) :
    Muxes target s (s.setSelectedProxies group target proxies).1 ∧
    ((∀ p ∈ proxies, Moves group target p → ∀ c ∈ p.channels, s.carries target c.component = true) →
      (s.setSelectedProxies group target proxies).2 = true ∧
      (s.setSelectedProxies group target proxies).1.proxies = s.proxies.map fun q =>
        if q.contentName ∈ proxies.map ContentProxy.contentName then muxed group target q else q) ∧
    ((¬∀ p ∈ proxies, Moves group target p → ∀ c ∈ p.channels, s.carries target c.component = true) →
      (s.setSelectedProxies group target proxies).2 = false ∧ ∃ front p back, proxies = front ++ p :: back ∧
        (∀ r ∈ front, Moves group target r → ∀ c ∈ r.channels, s.carries target c.component = true) ∧
        Moves group target p ∧ (¬∀ c ∈ p.channels, s.carries target c.component = true) ∧
        (s.setSelectedProxies group target proxies).1.proxies = s.proxies.map fun q =>
          if q.contentName ∈ front.map ContentProxy.contentName then muxed group target q
          else if q.contentName = p.contentName then
            repoint target (p.channels.takeWhile fun c => s.carries target c.component) q
          else q) := by
  induction proxies generalizing s with
  | nil =>
    refine ⟨⟨rfl, hs⟩, fun _ => ⟨rfl, ?_⟩, fun h => absurd (List.forall_mem_nil _) h⟩
    simp only [List.map_nil, List.not_mem_nil, if_false, List.map_id']
    rfl
  | cons p proxies ih =>
    have hnew : p.contentName ∉ proxies.map ContentProxy.contentName := (List.nodup_cons.mp hunique.1).1
    by_cases hpass : Moves group target p → ∀ c ∈ p.channels, s.carries target c.component = true
    · obtain ⟨t, heq, hmuxes, ht⟩ := setSelectedProxies_cons hs hunique hpass
      obtain ⟨hmuxes', htrue, hfalse⟩ := ih hmuxes.counted (hunique.tail ht)
      rw [hmuxes.carries] at htrue hfalse
      rw [heq]
      refine ⟨⟨hmuxes'.carries.trans hmuxes.carries, hmuxes'.counted⟩, fun hall => ?_, fun hall => ?_⟩
      · obtain ⟨hok, hproxies⟩ := htrue (List.forall_mem_cons.mp hall).2
        refine ⟨hok, ?_⟩
        rw [hproxies, ht, List.map_map]
        refine List.map_congr_left fun q _ => ?_
        rw [Function.comp_apply, List.map_cons]
        by_cases hname : q.contentName = p.contentName
        · rw [if_pos hname, contentName_muxed, hname, if_neg hnew, if_pos (List.mem_cons_self ..)]
        · rw [if_neg hname]
          exact if_congr (by rw [List.mem_cons, or_iff_right hname]) rfl rfl
      obtain ⟨hok, front, r, back, rfl, hfront, hmoves, hmissing, hproxies⟩ :=
        hfalse fun hrest => hall (List.forall_mem_cons.mpr ⟨hpass, hrest⟩)
      refine ⟨hok, p :: front, r, back, rfl, List.forall_mem_cons.mpr ⟨hpass, hfront⟩, hmoves, hmissing, ?_⟩
      rw [hproxies, ht, List.map_map]
      refine List.map_congr_left fun q _ => ?_
      rw [Function.comp_apply, List.map_cons]
      rw [List.map_append, List.map_cons, List.mem_append, List.mem_cons, not_or, not_or] at hnew
      by_cases hname : q.contentName = p.contentName
      · rw [if_pos hname, contentName_muxed, hname, if_neg hnew.1, if_neg hnew.2.1,
          if_pos (List.mem_cons_self ..)]
      · rw [if_neg hname]
        exact if_congr (by rw [List.mem_cons, or_iff_right hname]) rfl rfl
    · obtain ⟨hmoves, hmissing⟩ := Classical.not_imp.mp hpass
      obtain ⟨hmuxes, -, hfalse⟩ := setupMuxChannels_spec p target p.channels hs
      obtain ⟨hok, hproxies⟩ := hfalse hmissing
      have heq : s.setSelectedProxies group target (p :: proxies) =
          ((s.setupMuxChannels p target p.channels).1, false) := by
        rw [setSelectedProxies, if_pos hmoves.1, setupMux, if_neg hmoves.2, hok, if_neg Bool.false_ne_true]
      rw [heq]
      refine ⟨hmuxes, fun hall => absurd (hall p (List.mem_cons_self ..)) hpass, fun _ => ⟨rfl, [], p, proxies, rfl,
        List.forall_mem_nil _, hmoves, hmissing, ?_⟩⟩
      rw [hproxies]
      exact List.map_congr_left fun q _ => (if_neg List.not_mem_nil).symm

/-! ### All or nothing -/

/-- Either the transport has all components that would have to move, and those of the group that are on it have
their channels there. Or the first content that would have to move is the one that fails, and the channels in
front of the missing one are there already. -/
def MuxesAtOnce (contentName : String) (group : ContentGroup) (s : ContentSession) : Prop :=
  ∀ selected, s.getTransportProxy contentName = some selected →
    (∀ p ∈ s.proxies, p.contentName ∈ group.contentNames →
      (p.transport ≠ selected.transport → ∀ c ∈ p.channels, s.carries selected.transport c.component = true) ∧
      (p.transport = selected.transport → ∀ c ∈ p.channels, c.impl = some selected.transport ∧
        s.carries selected.transport c.component = true)) ∨
    ∃ front p back, s.proxies = front ++ p :: back ∧ (∀ r ∈ front, ¬Moves group selected.transport r) ∧
      Moves group selected.transport p ∧ (¬∀ c ∈ p.channels, s.carries selected.transport c.component = true) ∧
      ∀ c ∈ p.channels,
        c.component ∈ (p.channels.takeWhile fun c => s.carries selected.transport c.component).map
          ProxyChannel.component → c.impl = some selected.transport

theorem repoint_eq_self_iff {channels : List ProxyChannel} {q : ContentProxy} :
    repoint target channels q = q ↔
      ∀ c ∈ q.channels, c.component ∈ channels.map ProxyChannel.component → c.impl = some target := by
  have hiff (c : ProxyChannel) : (if c.component ∈ channels.map ProxyChannel.component then
      { c with impl := some target } else c) = c ↔
        (c.component ∈ channels.map ProxyChannel.component → c.impl = some target) := by
    by_cases hmem : c.component ∈ channels.map ProxyChannel.component
    · rw [if_pos hmem]
      refine ⟨fun h _ => ?_, fun h => ?_⟩
      · rw [← h]
      · rw [← h hmem]
    · rw [if_neg hmem]
      exact iff_of_true rfl fun h => absurd h hmem
  constructor
  · intro h c hc
    have hmap : q.channels.map (fun c => if c.component ∈ channels.map ProxyChannel.component then
        { c with impl := some target } else c) = q.channels.map id :=
      (congrArg ContentProxy.channels h).trans (List.map_id _).symm
    exact (hiff c).mp (List.map_inj_left.mp hmap c hc)
  · intro h
    rw [repoint, List.map_congr_left fun c hc => (hiff c).mpr (h c hc), List.map_id']

theorem impl_of_mem_muxed {group : ContentGroup} (h : Moves group target p)
    {c : ProxyChannel} (hc : c ∈ (muxed group target p).channels) :
    c.impl = some target ∧ ∃ d ∈ p.channels, d.component = c.component := by
  rw [muxed, if_pos h] at hc
  obtain ⟨d, hd, rfl⟩ := List.mem_map.mp hc
  rw [if_pos (List.mem_map_of_mem hd)]
  exact ⟨rfl, d, hd, rfl⟩

theorem WellFormed.unique (h : s.WellFormed) : s.Unique s.proxies :=
  ⟨h.names, fun _ hp _ hq hname => List.inj_on_of_nodup_map h.names hq hp hname⟩

/-- **Muxing is not all or nothing.** A failure changes nothing and a success repoints every channel of the
group, if and only if the selected transport has all the components, or misses the first one that would have to
move. -/
theorem allOrNothing_iff (contentName : String) (group : ContentGroup) (s : ContentSession) (h : s.WellFormed) :
    s.AllOrNothing contentName group ↔ s.MuxesAtOnce contentName group := by
  rw [AllOrNothing, setSelectedProxy]
  cases hselected : s.getTransportProxy contentName with
  | none =>
    refine iff_of_true ⟨fun _ => rfl, fun hok => by cases hok⟩ fun selected hsome => ?_
    rw [hselected] at hsome
    cases hsome
  | some selected =>
    obtain ⟨hmuxes, htrue, hfalse⟩ :=
      setSelectedProxies_spec group selected.transport h.counted h.unique
    have hcarries (component : ℤ) := congrFun hmuxes.carries component
    by_cases hall : ∀ p ∈ s.proxies, Moves group selected.transport p →
        ∀ c ∈ p.channels, s.carries selected.transport c.component = true
    · -- it succeeds, and only the contents that were there already are in question
      obtain ⟨hok, hproxies⟩ := htrue hall
      have hmapped : (s.setSelectedProxies group selected.transport s.proxies).1.proxies =
          s.proxies.map (muxed group selected.transport) :=
        hproxies.trans (List.map_congr_left fun q hq => if_pos (List.mem_map_of_mem hq))
      constructor
      · rintro ⟨-, hsuccess⟩ selected' hselected'
        rw [hselected] at hselected'
        cases hselected'
        obtain ⟨selected', hselected', hpoints⟩ := hsuccess hok
        cases hselected'
        refine .inl fun p hp hgroup => ⟨fun hne => hall p hp ⟨hgroup, hne⟩, fun htarget c hc => ?_⟩
        have hstays : muxed group selected.transport p = p := if_neg fun hmoves => hmoves.2 htarget
        have hmem : p ∈ (s.setSelectedProxies group selected.transport s.proxies).1.proxies := by
          rw [hmapped]
          exact List.mem_map.mpr ⟨p, hp, hstays⟩
        obtain ⟨himpl, hhas⟩ := (hpoints p hmem hgroup).2 c hc
        exact ⟨himpl, (hcarries c.component).symm.trans hhas⟩
      intro honce
      refine ⟨fun hfail => absurd (hok.symm.trans hfail) Bool.noConfusion, fun _ => ⟨selected, rfl, ?_⟩⟩
      intro p hp hgroup
      rw [hmapped] at hp
      obtain ⟨q, hq, rfl⟩ := List.mem_map.mp hp
      rw [contentName_muxed] at hgroup
      by_cases hmoves : Moves group selected.transport q
      · refine ⟨by rw [muxed, if_pos hmoves], fun c hc => ?_⟩
        obtain ⟨himpl, d, hd, hcomponent⟩ := impl_of_mem_muxed hmoves hc
        exact ⟨himpl, (hcarries c.component).trans (hcomponent ▸ hall q hq hmoves d hd)⟩
      have htarget : q.transport = selected.transport := not_not.mp fun hne => hmoves ⟨hgroup, hne⟩
      rw [muxed, if_neg hmoves]
      refine ⟨htarget, fun c hc => ?_⟩
      rcases honce selected hselected with hready | ⟨front, p, back, hsplit, -, hpmoves, hmissing, -⟩
      · obtain ⟨himpl, hhas⟩ := (hready q hq hgroup).2 htarget c hc
        exact ⟨himpl, (hcarries c.component).trans hhas⟩
      · exact absurd (hall p (hsplit ▸ List.mem_append_right _ (List.mem_cons_self ..)) hpmoves) hmissing
    · -- it fails, and what was changed in front of the one that fails is in question
      obtain ⟨hok, front, p, back, hsplit, hfront, hmoves, hmissing, hproxies⟩ := hfalse hall
      have hp : p ∈ s.proxies := hsplit ▸ List.mem_append_right _ (List.mem_cons_self ..)
      have hnot : p.contentName ∉ front.map ContentProxy.contentName := by
        have hnodup := h.names
        rw [hsplit, List.map_append, List.map_cons] at hnodup
        exact fun hmem => List.disjoint_of_nodup_append hnodup hmem (List.mem_cons_self ..)
      constructor
      · rintro ⟨hfailure, -⟩ selected' hselected'
        rw [hselected] at hselected'
        cases hselected'
        have hsame := hproxies.symm.trans ((hfailure hok).trans (List.map_id _).symm)
        refine .inr ⟨front, p, back, hsplit, fun r hr hrmoves => ?_, hmoves, hmissing, ?_⟩
        · have hrsame := List.map_inj_left.mp hsame r (hsplit ▸ List.mem_append_left _ hr)
          rw [if_pos (List.mem_map_of_mem hr), muxed, if_pos hrmoves] at hrsame
          exact hrmoves.2 (congrArg ContentProxy.transport hrsame).symm
        · have hpsame := List.map_inj_left.mp hsame p hp
          rw [if_neg hnot, if_pos rfl] at hpsame
          exact repoint_eq_self_iff.mp hpsame
      intro honce
      refine ⟨fun _ => ?_, fun hsuccess => absurd (hok.symm.trans hsuccess) Bool.noConfusion⟩
      rcases honce selected hselected with
        hready | ⟨front', p', back', hsplit', hstay, hmoves', hmissing', halready⟩
      · exact absurd (fun q hq hqmoves => (hready q hq hqmoves.1).1 hqmoves.2) hall
      obtain ⟨rfl, rfl⟩ : front' = front ∧ p' = p := by
        rcases List.append_eq_append_iff.mp (hsplit'.symm.trans hsplit) with ⟨l, hl, hrest⟩ | ⟨l, hl, hrest⟩
        · cases l with
          | nil => exact ⟨(hl.trans (List.append_nil _)).symm, (List.cons.inj hrest).1⟩
          | cons r l =>
            have hr : r = p' := ((List.cons.inj hrest).1).symm
            have hmem : p' ∈ front := hl ▸ List.mem_append_right _ (hr ▸ List.mem_cons_self ..)
            exact absurd (hfront p' hmem hmoves') hmissing'
        cases l with
        | nil => exact ⟨hl.trans (List.append_nil _), ((List.cons.inj hrest).1).symm⟩
        | cons r l =>
          have hr : r = p := ((List.cons.inj hrest).1).symm
          have hmem : p ∈ front' := hl ▸ List.mem_append_right _ (hr ▸ List.mem_cons_self ..)
          exact absurd hmoves (hstay p hmem)
      rw [hproxies]
      refine (List.map_congr_left fun q hq => ?_).trans (List.map_id' _)
      by_cases hqfront : q.contentName ∈ front'.map ContentProxy.contentName
      · obtain ⟨r, hr, hname⟩ := List.mem_map.mp hqfront
        have hself : q = r := h.unique.2 r (hsplit ▸ List.mem_append_left _ hr) q hq hname.symm
        rw [if_pos hqfront, muxed, if_neg (hself ▸ hstay r hr)]
      rw [if_neg hqfront]
      by_cases hqname : q.contentName = p'.contentName
      · have hself : q = p' := h.unique.2 p' hp q hq hqname
        rw [if_pos hqname, hself]
        exact repoint_eq_self_iff.mpr halready
      · rw [if_neg hqname]

/-- Two negotiated contents, of which the first one has these components. -/
def bundled (components : List ℤ) : ContentSession :=
  let s : ContentSession := { session := .create "a@e.net/1" "a@e.net/1" "7" }
  let s := components.foldl (fun s component => s.createChannel ⟨"audio", component⟩) s
  ((s.createChannel ⟨"video", 1⟩).completeNegotiation "audio").completeNegotiation "video"

theorem wellFormed_bundled (components : List ℤ) : (bundled components).WellFormed := by
  have hchannels : (components.foldl (fun s component => s.createChannel ⟨"audio", component⟩)
      ({ session := .create "a@e.net/1" "a@e.net/1" "7" } : ContentSession)).WellFormed :=
    List.foldlRecOn components _ (wellFormed_new _) fun _ h component _ => h.createChannel ⟨"audio", component⟩
  have haudio := (keeps_completeNegotiation "audio" _).wellFormed (hchannels.createChannel ⟨"video", 1⟩)
  exact (keeps_completeNegotiation "video" _).wellFormed haudio

theorem allOrNothing_one_component :
    (bundled [1]).WellFormed ∧ ((bundled [1]).AllOrNothing "video" ⟨GROUP_TYPE_BUNDLE, ["audio", "video"]⟩ ↔
      (bundled [1]).MuxesAtOnce "video" ⟨GROUP_TYPE_BUNDLE, ["audio", "video"]⟩) :=
  ⟨wellFormed_bundled [1], allOrNothing_iff _ _ _ (wellFormed_bundled [1])⟩

/-- The first content has a component more than the one that is selected. -/
theorem not_allOrNothing_two_components :
    ¬(bundled [1, 2]).AllOrNothing "video" ⟨GROUP_TYPE_BUNDLE, ["audio", "video"]⟩ := by
  intro h
  exact absurd (h.1 (by decide +kernel)) (by decide +kernel)

end ContentSession

end Synciga.P2p
