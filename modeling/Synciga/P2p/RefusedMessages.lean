import Synciga.P2p.ContentProxies
import Synciga.P2p.SessionClients
import Synciga.P2p.TransportConfig

/-!
# Messages that are refused

A session-accept and a transport-info that are answered with an error should leave the session as it was. But an
accept is applied before its candidates are looked at, the candidates of one content are handed to its transport
before those of the next one are verified, and a proxy is negotiated before its own candidates are.

## Main definitions

* `Alike` — the session is as it was

## Main results

* `untouched_iff` — which messages are refused before they do something
-/

namespace Synciga.P2p

/-! ### The components of a transport -/

namespace Transport

variable {t t' : Transport}

/-- The components of the channels, and how often they are used. -/
def components (t : Transport) : List (ℤ × ℕ) := t.channels.map fun e => (e.channel.component, e.ref)

theorem hasChannel_eq (t : Transport) (component : ℤ) :
    t.hasChannel component = t.components.any (·.1 = component) := by
  rw [hasChannel, components, List.any_map]
  rfl

theorem components_mapChannels {f : P2PTransportChannel → P2PTransportChannel}
    (hf : ∀ ch, (f ch).component = ch.component) : (t.mapChannels f).components = t.components := by
  rw [components, mapChannels, List.map_map, components]
  refine List.map_congr_left fun e _ => ?_
  exact congrArg (·, e.ref) (hf e.channel)

theorem component_connect (ch : P2PTransportChannel) : ch.connect.component = ch.component := by
  rw [P2PTransportChannel.connect]
  split_ifs <;> rfl

theorem component_applyLocal (desc : TransportDescription) (ch : P2PTransportChannel) :
    (applyLocalTransportDescription desc ch).component = ch.component := by
  simp only [applyLocalTransportDescription, P2PTransportChannel.setIceCredentials]
  split_ifs <;> rfl

variable (component : ℤ)

theorem component_configureChannel : (t.configureChannel (.create component)).component = component := by
  have htold (ch : P2PTransportChannel) : ((ch.setRole t.role).setTiebreaker t.tiebreaker).component =
      ch.component := by
    rw [P2PTransportChannel.setTiebreaker, P2PTransportChannel.setRole]
    split_ifs <;> rfl
  have hremote (desc : TransportDescription) (ch : P2PTransportChannel) :
      (t.applyNegotiatedTransportDescription (applyRemoteTransportDescription desc ch)).component =
        ch.component := by
    simp only [applyRemoteTransportDescription, P2PTransportChannel.setRemoteIceCredentials]
    split_ifs <;> rfl
  rw [configureChannel]
  rcases t.localDescription with _ | local'
  · exact htold _
  · rcases t.remoteDescription with _ | remote
    · exact (component_applyLocal local' _).trans (htold _)
    · exact ((hremote remote _).trans (component_applyLocal local' _)).trans (htold _)

theorem components_createChannel : (t.createChannel component).components =
    if t.components.any (·.1 = component) then
      t.components.map fun c => if c.1 = component then (c.1, c.2 + 1) else c
    else t.components ++ [(component, 1)] := by
  rw [createChannel, hasChannel_eq]
  split_ifs
  · rw [components, components, List.map_map, List.map_map]
    refine List.map_congr_left fun e _ => ?_
    rw [Function.comp_apply, Function.comp_apply]
    split_ifs <;> rfl
  · rw [components, List.map_append, components, List.map_singleton, component_connect, component_configureChannel]
  · rw [components, List.map_append, components, List.map_singleton, component_configureChannel]

theorem components_destroyChannel : (t.destroyChannel component).components =
    t.components.filterMap fun c =>
      if c.1 = component then if c.2 ≤ 1 then none else some (c.1, c.2 - 1) else some c := by
  rw [components, destroyChannel, List.map_filterMap, components, List.filterMap_map]
  refine List.filterMap_congr fun e _ => ?_
  rw [Function.comp_apply]
  split_ifs <;> rfl

theorem components_connectChannels {ufrag pwd : String} (h : t.connectChannels ufrag pwd = some t') :
    t'.components = t.components := by
  have hconnect {u : Transport} : (u.mapChannels (·.connect)).components = u.components :=
    components_mapChannels component_connect
  rcases connectChannels_cases h with rfl | ⟨u, rfl | ⟨desc, rfl⟩, rfl⟩
  · rfl
  · exact hconnect
  · exact hconnect.trans (components_mapChannels (component_applyLocal desc))

end Transport

namespace ContentSession

variable {s s' t t' u : ContentSession}

/-! ### Looking up a proxy -/

variable {f : ContentProxy → ContentProxy}

theorem getTransportProxy_setProxy
    (hf : ∀ p, (f p).contentName = p.contentName) (contentName name : String) (s : ContentSession) :
    (s.setProxy contentName f).getTransportProxy name =
      (s.getTransportProxy name).map fun p => if name = contentName then f p else p := by
  rw [getTransportProxy, setProxy, List.find?_map, getTransportProxy]
  have hsame : (fun p : ContentProxy => decide (p.contentName = name)) ∘
      (fun p => if p.contentName = contentName then f p else p) = fun p => decide (p.contentName = name) := by
    funext p
    rw [Function.comp_apply]
    split_ifs
    · rw [hf]
    · rfl
  rw [hsame]
  refine Option.map_congr fun p hp => ?_
  have hname : p.contentName = name := by
    simpa using List.find?_some hp
  rw [hname]

/-- The proxy with what does not matter for candidates left out. -/
def erase (p : ContentProxy) : ContentProxy := { p with connecting := false }

theorem erase_eq_iff {p q : ContentProxy} : erase p = erase q ↔ p.contentName = q.contentName ∧
    p.transport = q.transport ∧ p.negotiated = q.negotiated ∧ p.channels = q.channels := by
  simp [erase]

/-- Two sessions decide alike about candidates: the proxies are the same, but for those that are connecting, and
so are the components. -/
structure Alike (s t : ContentSession) : Prop where
  proxies : ∀ name, (t.getTransportProxy name).map erase = (s.getTransportProxy name).map erase
  components : ∀ n, (t.transportAt n).components = (s.transportAt n).components

theorem Alike.symm (h : Alike s t) : Alike t s :=
  ⟨fun name => (h.proxies name).symm, fun n => (h.components n).symm⟩

theorem Alike.trans (h : Alike s t) (h' : Alike t u) : Alike s u :=
  ⟨fun name => (h'.proxies name).trans (h.proxies name), fun n => (h'.components n).trans (h.components n)⟩

theorem Alike.hasChannel (h : Alike s t) (n : ℕ) (component : ℤ) :
    (t.transportAt n).hasChannel component = (s.transportAt n).hasChannel component := by
  rw [Transport.hasChannel_eq, Transport.hasChannel_eq, h.components]

theorem Alike.setTransport (h : Alike s t) (n : ℕ) {a b : Transport} (hab : b.components = a.components) :
    Alike (s.setTransport n a) (t.setTransport n b) := by
  refine ⟨h.proxies, fun m => ?_⟩
  rw [ContentSession.setTransport, ContentSession.setTransport]
  dsimp only
  rcases eq_or_ne m n with rfl | hne
  · rw [Function.update_self, Function.update_self]
    exact hab
  · rw [Function.update_of_ne hne, Function.update_of_ne hne]
    exact h.components m

theorem Alike.setProxy (h : Alike s t) (hf : ∀ p, (f p).contentName = p.contentName)
    (hsame : ∀ p q, erase p = erase q → erase (f p) = erase (f q)) (contentName : String) :
    Alike (s.setProxy contentName f) (t.setProxy contentName f) := by
  refine ⟨fun name => ?_, h.components⟩
  rw [getTransportProxy_setProxy hf, getTransportProxy_setProxy hf]
  have hfound := h.proxies name
  generalize s.getTransportProxy name = found at hfound ⊢
  generalize t.getTransportProxy name = found' at hfound ⊢
  rcases found with _ | p <;> rcases found' with _ | q
  · rfl
  · cases hfound
  · cases hfound
  · simp only [Option.map_some, Option.some.injEq] at hfound ⊢
    split_ifs
    · exact hsame q p hfound
    · exact hfound

theorem Alike.getOrCreateChannelProxyImpl (h : Alike s t) (n : ℕ) (component : ℤ) :
    Alike (s.getOrCreateChannelProxyImpl n component) (t.getOrCreateChannelProxyImpl n component) := by
  rw [ContentSession.getOrCreateChannelProxyImpl, ContentSession.getOrCreateChannelProxyImpl, h.hasChannel]
  split_ifs
  · exact h
  · refine h.setTransport n ?_
    rw [Transport.components_createChannel, Transport.components_createChannel, h.components]

theorem Alike.setImplementation (h : Alike s t) (contentName : String) (channel : ProxyChannel) (n : ℕ) :
    Alike (s.setImplementation contentName channel n) (t.setImplementation contentName channel n) := by
  have hset {a b : ContentSession} (hab : Alike a b) :
      Alike (a.setProxy contentName fun p => { p with channels := p.channels.map fun c =>
          if c.component = channel.component then { c with impl := some n } else c })
        (b.setProxy contentName fun p => { p with channels := p.channels.map fun c =>
          if c.component = channel.component then { c with impl := some n } else c }) := by
    refine hab.setProxy ?_ ?_ contentName
    · exact fun p => rfl
    · intro p q hpq
      obtain ⟨hname, htransport, hnegotiated, hchannels⟩ := erase_eq_iff.mp hpq
      exact erase_eq_iff.mpr ⟨hname, htransport, hnegotiated, by rw [hchannels]⟩
  rw [ContentSession.setImplementation, ContentSession.setImplementation]
  rcases channel.impl with _ | old
  · exact hset h
  · refine hset (h.setTransport old ?_)
    rw [Transport.components_destroyChannel, Transport.components_destroyChannel, h.components]

theorem Alike.completeNegotiation (h : Alike s t) (contentName : String) :
    Alike (s.completeNegotiation contentName) (t.completeNegotiation contentName) := by
  have hsame := h.proxies contentName
  rw [ContentSession.completeNegotiation, ContentSession.completeNegotiation]
  generalize s.getTransportProxy contentName = found at hsame ⊢
  generalize t.getTransportProxy contentName = found' at hsame ⊢
  rcases found with _ | p <;> rcases found' with _ | q
  · exact h
  · cases hsame
  · cases hsame
  simp only [Option.map_some, Option.some.injEq] at hsame
  obtain ⟨hname, htransport, hnegotiated, hchannels⟩ := erase_eq_iff.mp hsame
  dsimp only
  rw [hnegotiated, hchannels]
  split_ifs
  · exact h
  refine Alike.setProxy ?_ ?_ ?_ contentName
  · generalize p.channels = channels
    induction channels generalizing s t with
    | nil => exact h
    | cons c channels ih =>
      refine ih ?_
      rw [setChannelProxyImpl, setChannelProxyImpl, hname, htransport]
      exact (h.getOrCreateChannelProxyImpl _ _).setImplementation _ _ _
  · exact fun p => rfl
  · intro a b hab
    obtain ⟨hname', htransport', -, hchannels'⟩ := erase_eq_iff.mp hab
    exact erase_eq_iff.mpr ⟨hname', htransport', rfl, hchannels'⟩

/-! ### Negotiated flags -/

/-- The negotiated flag of a content that has a proxy. -/
def flag (name : String) (s : ContentSession) : Option Bool := (s.getTransportProxy name).map (·.negotiated)

theorem Alike.flag (h : Alike s t) (name : String) : t.flag name = s.flag name := by
  have hfound := congrArg (Option.map ContentProxy.negotiated) (h.proxies name)
  rw [Option.map_map, Option.map_map] at hfound
  exact hfound

/-- What is left alone when channels get their implementations. -/
structure SameFlags (s t : ContentSession) : Prop where
  handed : t.handed = s.handed
  flag : ∀ name, t.flag name = s.flag name

theorem SameFlags.trans (h : SameFlags s t) (h' : SameFlags t u) : SameFlags s u :=
  ⟨h'.handed.trans h.handed, fun name => (h'.flag name).trans (h.flag name)⟩

theorem flag_setProxy (hf : ∀ p, (f p).contentName = p.contentName)
    (contentName name : String) (s : ContentSession) : (s.setProxy contentName f).flag name =
      (s.getTransportProxy name).map fun p => if name = contentName then (f p).negotiated else p.negotiated := by
  rw [flag, getTransportProxy_setProxy hf, Option.map_map]
  refine congrArg (Option.map · _) (funext fun p => ?_)
  split_ifs <;> rfl

theorem sameFlags_setChannelProxyImpl (p : ContentProxy) (channel : ProxyChannel) (s : ContentSession) :
    SameFlags s (s.setChannelProxyImpl p channel) := by
  have hcreate : SameFlags s (s.getOrCreateChannelProxyImpl p.transport channel.component) := by
    rw [getOrCreateChannelProxyImpl]
    split_ifs <;> exact ⟨rfl, fun _ => rfl⟩
  refine hcreate.trans ?_
  rw [setChannelProxyImpl]
  simp only [setImplementation]
  refine ⟨?_, fun name => ?_⟩
  · rcases channel.impl with _ | old <;> rfl
  · rw [flag_setProxy]
    · rcases channel.impl with _ | old <;> exact congrArg (Option.map · _) (funext fun p => ite_self _)
    · exact fun p => rfl

theorem completeNegotiation_spec (contentName : String) (s : ContentSession) :
    (s.completeNegotiation contentName).handed = s.handed ∧ ∀ name,
      (s.completeNegotiation contentName).flag name =
        (s.flag name).map fun b => if name = contentName then true else b := by
  rw [completeNegotiation]
  rcases hfound : s.getTransportProxy contentName with _ | p
  · refine ⟨rfl, fun name => ?_⟩
    rcases eq_or_ne name contentName with rfl | hne
    · rw [flag, hfound]
      rfl
    · simp [hne]
  dsimp only
  split_ifs with hnegotiated
  · refine ⟨rfl, fun name => ?_⟩
    rcases eq_or_ne name contentName with rfl | hne
    · rw [flag, hfound]
      simp [hnegotiated]
    · simp [hne]
  have hfold : SameFlags s (p.channels.foldl (setChannelProxyImpl p) s) := by
    generalize p.channels = channels
    clear hfound
    induction channels generalizing s with
    | nil => exact ⟨rfl, fun _ => rfl⟩
    | cons c channels ih => exact (sameFlags_setChannelProxyImpl p c s).trans (ih _)
  refine ⟨hfold.handed, fun name => ?_⟩
  rw [flag_setProxy, ← hfold.flag name, flag, Option.map_map]
  · rfl
  · exact fun p => rfl

/-! ### Candidates of one content -/

/-- The candidates of a content may all be handed on. -/
def Accepts (info : TransportInfo) (s : ContentSession) : Prop :=
  ∃ p, s.getTransportProxy info.contentName = some p ∧ ∀ cand ∈ info.description.candidates,
    (s.completeNegotiation info.contentName).takesCandidate p cand = true

theorem Alike.takesCandidate (h : Alike s t) {p q : ContentProxy} (hpq : q.transport = p.transport)
    (cand : Candidate) : t.takesCandidate q cand = s.takesCandidate p cand := by
  rw [ContentSession.takesCandidate, ContentSession.takesCandidate, ContentSession.hasChannel,
    ContentSession.hasChannel, hpq, h.hasChannel]

variable {p : ContentProxy}

theorem Alike.getTransportProxy (h : Alike s t) {name : String}
    (hp : s.getTransportProxy name = some p) : ∃ q, t.getTransportProxy name = some q ∧ erase q = erase p := by
  have hfound := h.proxies name
  rw [hp, Option.map_some] at hfound
  obtain ⟨q, hq, heq⟩ := Option.map_eq_some_iff.mp hfound
  exact ⟨q, hq, heq⟩

variable {info : TransportInfo}

theorem Alike.accepts (h : Alike s t) (hs : s.Accepts info) : t.Accepts info := by
  obtain ⟨p, hp, hall⟩ := hs
  obtain ⟨q, hq, heq⟩ := h.getTransportProxy hp
  refine ⟨q, hq, fun cand hcand => ?_⟩
  rw [(h.completeNegotiation info.contentName).takesCandidate (erase_eq_iff.mp heq).2.1]
  exact hall cand hcand

variable {contentName : String} {fresh : String → String × String}

theorem alike_connectChannels
    (hflag : s.flag contentName = some true) (h : s.connectChannels fresh contentName = some t) :
    Alike s t ∧ t.handed = s.handed := by
  obtain ⟨p, hp, hnegotiated⟩ := Option.map_eq_some_iff.mp hflag
  rw [connectChannels, hp] at h
  dsimp only at h
  rw [if_pos (Or.inr hnegotiated)] at h
  obtain ⟨u, hu, rfl⟩ := Option.map_eq_some_iff.mp h
  have hconnecting : Alike s (s.setProxy contentName ({ · with connecting := true })) := by
    refine ⟨fun name => ?_, fun _ => rfl⟩
    rw [getTransportProxy_setProxy, Option.map_map]
    · refine congrArg (Option.map · _) (funext fun q => ?_)
      split_ifs <;> rfl
    · exact fun q => rfl
  refine ⟨hconnecting.trans ⟨fun _ => rfl, fun n => ?_⟩, rfl⟩
  rw [setTransport]
  dsimp only
  rcases eq_or_ne n p.transport with rfl | hne
  · rw [Function.update_self]
    exact Transport.components_connectChannels hu
  · rw [Function.update_of_ne hne]

/-- What becomes of a content: its proxy is negotiated, and its candidates are handed on if all of them may be. -/
theorem onRemoteCandidates_spec {ok : Bool} (h : s.onRemoteCandidates fresh info = some (t, ok)) :
    (ok = true ∧ s.Accepts info ∧ Alike (s.completeNegotiation info.contentName) t ∧
      ∃ p, s.getTransportProxy info.contentName = some p ∧
        t.handed = Function.update s.handed p.transport (s.handed p.transport ++ info.description.candidates)) ∨
    (ok = false ∧ ¬ s.Accepts info ∧ t = s.completeNegotiation info.contentName) := by
  rw [onRemoteCandidates] at h
  rcases hp : s.getTransportProxy info.contentName with _ | p
  · rw [hp] at h
    cases h
    refine Or.inr ⟨rfl, ?_, ?_⟩
    · rintro ⟨p, hsome, -⟩
      rw [hp] at hsome
      cases hsome
    · rw [completeNegotiation, hp]
  rw [hp] at h
  dsimp only at h
  obtain ⟨hhanded, hflag⟩ := completeNegotiation_spec info.contentName s
  split_ifs at h with hall
  · obtain ⟨u, hu, hpair⟩ := Option.map_eq_some_iff.mp h
    cases hpair
    have hnegotiated : ((s.completeNegotiation info.contentName).hand p info.description.candidates).flag
        info.contentName = some true := by
      refine (hflag info.contentName).trans ?_
      rw [flag, hp]
      simp
    obtain ⟨halike, hsame⟩ := alike_connectChannels hnegotiated hu
    refine Or.inl ⟨rfl, ⟨p, hp, List.all_eq_true.mp hall⟩, ⟨halike.proxies, halike.components⟩, p, rfl, ?_⟩
    rw [hsame, hand, hhanded]
  cases h
  refine Or.inr ⟨rfl, ?_, rfl⟩
  rintro ⟨q, hq, htakes⟩
  rw [hp] at hq
  cases hq
  exact hall (List.all_eq_true.mpr htakes)

/-! ### What has changed -/

/-- The negotiated flags and the sets of candidates are the same. -/
structure SameHoldings (s t : ContentSession) : Prop where
  negotiated : ∀ name, t.flag name = s.flag name
  handed : ∀ n cand, cand ∈ t.handed n ↔ cand ∈ s.handed n

/-- No flag is taken back, and no candidate. -/
structure Grows (s t : ContentSession) : Prop where
  negotiated : ∀ name, s.flag name = some true → t.flag name = some true
  proxies : ∀ name, (t.flag name).isSome = (s.flag name).isSome
  handed : ∀ n cand, cand ∈ s.handed n → cand ∈ t.handed n

theorem Grows.trans (h : Grows s t) (h' : Grows t u) : Grows s u where
  negotiated := fun name hflag => h'.negotiated name (h.negotiated name hflag)
  proxies := fun name => (h'.proxies name).trans (h.proxies name)
  handed := fun n cand hcand => h'.handed n cand (h.handed n cand hcand)

theorem SameHoldings.trans (h : SameHoldings s t) (h' : SameHoldings t u) : SameHoldings s u where
  negotiated := fun name => (h'.negotiated name).trans (h.negotiated name)
  handed := fun n cand => (h'.handed n cand).trans (h.handed n cand)

theorem Grows.between (h : Grows s t) (h' : Grows t u) (hsame : SameHoldings s u) :
    SameHoldings s t ∧ SameHoldings t u := by
  have hmiddle (name : String) : t.flag name = s.flag name := by
    have hup := h.negotiated name
    have hup' := h'.negotiated name
    have hsome := h.proxies name
    rw [hsame.negotiated name] at hup'
    generalize s.flag name = a at *
    generalize t.flag name = b at *
    rcases a with _ | _ | _ <;> rcases b with _ | _ | _ <;> simp_all
  have hhanded (n : ℕ) (cand : Candidate) : cand ∈ t.handed n ↔ cand ∈ s.handed n :=
    ⟨fun hcand => (hsame.handed n cand).mp (h'.handed n cand hcand), h.handed n cand⟩
  refine ⟨⟨hmiddle, hhanded⟩, fun name => ?_, fun n cand => ?_⟩
  · rw [hmiddle, hsame.negotiated]
  · rw [hhanded, hsame.handed]

theorem grows_completeNegotiation (contentName : String) (s : ContentSession) :
    Grows s (s.completeNegotiation contentName) := by
  obtain ⟨hhanded, hflag⟩ := completeNegotiation_spec contentName s
  refine ⟨fun name htrue => ?_, fun name => ?_, fun n cand hcand => ?_⟩
  · rw [hflag, htrue]
    simp
  · rw [hflag, Option.isSome_map]
  · rw [hhanded]
    exact hcand

theorem completeNegotiation_of_flag (h : s.flag contentName ≠ some false) :
    s.completeNegotiation contentName = s := by
  rw [completeNegotiation]
  rcases hp : s.getTransportProxy contentName with _ | p
  · rfl
  · dsimp only
    refine if_pos (Bool.eq_true_of_not_eq_false fun hfalse => h ?_)
    rw [flag, hp, Option.map_some, hfalse]

theorem flag_ne_of_same (h : SameHoldings s (s.completeNegotiation contentName)) :
    s.flag contentName ≠ some false := by
  intro hfalse
  have hflag := (completeNegotiation_spec contentName s).2 contentName
  rw [h.negotiated, hfalse] at hflag
  simp at hflag

/-- The proxy is negotiated, and the candidates may be handed on and were handed on before. -/
def Idle (info : TransportInfo) (s : ContentSession) : Prop :=
  ∃ p, s.getTransportProxy info.contentName = some p ∧ p.negotiated = true ∧
    ∀ cand ∈ info.description.candidates, s.takesCandidate p cand = true ∧ cand ∈ s.handed p.transport

/-- There is no proxy, or it is negotiated, and one of the candidates may not be handed on. -/
def RefusesAtOnce (info : TransportInfo) (s : ContentSession) : Prop :=
  ∀ p, s.getTransportProxy info.contentName = some p → p.negotiated = true ∧
    ∃ cand ∈ info.description.candidates, s.takesCandidate p cand = false

theorem flag_of_negotiated {name : String} (hp : s.getTransportProxy name = some p)
    (hnegotiated : p.negotiated = true) : s.flag name ≠ some false := by
  rw [flag, hp, Option.map_some, hnegotiated]
  decide

theorem Idle.accepts (h : s.Idle info) : s.Accepts info := by
  obtain ⟨p, hp, hnegotiated, hall⟩ := h
  rw [Accepts, completeNegotiation_of_flag (flag_of_negotiated hp hnegotiated)]
  exact ⟨p, hp, fun cand hcand => (hall cand hcand).1⟩

theorem RefusesAtOnce.not_accepts (h : s.RefusesAtOnce info) : ¬ s.Accepts info := by
  rintro ⟨p, hp, hall⟩
  obtain ⟨hnegotiated, cand, hcand, hrefused⟩ := h p hp
  have htakes := hall cand hcand
  rw [completeNegotiation_of_flag (flag_of_negotiated hp hnegotiated), hrefused] at htakes
  cases htakes

theorem taken_iff (haccepts : s.Accepts info) (halike : Alike (s.completeNegotiation info.contentName) t)
    (hp : s.getTransportProxy info.contentName = some p) (hhanded : t.handed =
      Function.update s.handed p.transport (s.handed p.transport ++ info.description.candidates)) :
    Grows s t ∧ (SameHoldings s t ↔ s.Idle info) := by
  have hsub (n : ℕ) (cand : Candidate) (hcand : cand ∈ s.handed n) : cand ∈ t.handed n := by
    rw [hhanded]
    rcases eq_or_ne n p.transport with rfl | hne
    · rw [Function.update_self]
      exact List.mem_append_left _ hcand
    · rw [Function.update_of_ne hne]
      exact hcand
  have hgrows := grows_completeNegotiation info.contentName s
  refine ⟨⟨fun name htrue => ?_, fun name => ?_, hsub⟩, ?_, ?_⟩
  · rw [halike.flag]
    exact hgrows.negotiated name htrue
  · rw [halike.flag]
    exact hgrows.proxies name
  · intro hsame
    have hflag : s.flag info.contentName ≠ some false := by
      refine flag_ne_of_same ⟨fun name => ?_, fun n cand => ?_⟩
      · rw [← halike.flag, hsame.negotiated]
      · rw [(completeNegotiation_spec _ s).1]
    have hnegotiated : p.negotiated = true := by
      rw [flag, hp, Option.map_some] at hflag
      exact Bool.eq_true_of_not_eq_false fun hfalse => hflag (by rw [hfalse])
    obtain ⟨q, hq, hall⟩ := haccepts
    rw [hp] at hq
    cases hq
    rw [completeNegotiation_of_flag hflag] at hall
    refine ⟨p, hp, hnegotiated, fun cand hcand => ⟨hall cand hcand, (hsame.handed p.transport cand).mp ?_⟩⟩
    rw [hhanded, Function.update_self]
    exact List.mem_append_right _ hcand
  · rintro ⟨q, hq, hnegotiated, hall⟩
    rw [hp] at hq
    cases hq
    rw [completeNegotiation_of_flag (flag_of_negotiated hp hnegotiated)] at halike
    refine ⟨halike.flag, fun n cand => ⟨fun hcand => ?_, hsub n cand⟩⟩
    rw [hhanded] at hcand
    rcases eq_or_ne n p.transport with rfl | hne
    · rw [Function.update_self] at hcand
      rcases List.mem_append.mp hcand with hold | hnew
      · exact hold
      · exact (hall cand hnew).2
    · rw [Function.update_of_ne hne] at hcand
      exact hcand

theorem refused_iff (hrefused : ¬ s.Accepts info) :
    SameHoldings s (s.completeNegotiation info.contentName) ↔ s.RefusesAtOnce info := by
  constructor
  · intro hsame p hp
    have hflag := flag_ne_of_same hsame
    refine ⟨?_, ?_⟩
    · rw [flag, hp, Option.map_some] at hflag
      exact Bool.eq_true_of_not_eq_false fun hfalse => hflag (by rw [hfalse])
    · by_contra hnone
      push Not at hnone
      refine hrefused ⟨p, hp, fun cand hcand => ?_⟩
      rw [completeNegotiation_of_flag hflag]
      exact Bool.eq_true_of_not_eq_false (hnone cand hcand)
  intro honce
  rw [completeNegotiation_of_flag]
  · exact ⟨fun _ => rfl, fun _ _ => Iff.rfl⟩
  · intro hfalse
    obtain ⟨p, hp, hnegotiated⟩ := Option.map_eq_some_iff.mp hfalse
    rw [(honce p hp).1] at hnegotiated
    cases hnegotiated

/-! ### Candidates of all contents -/

/-- The candidates of all contents may be handed on, one content after the other. -/
def Takes : List TransportInfo → ContentSession → Prop
  | [], _ => True
  | info :: infos, s => s.Accepts info ∧ Takes infos (s.completeNegotiation info.contentName)

/-- A content is refused at once, and those before it are idle. -/
def Harmless : List TransportInfo → ContentSession → Prop
  | [], _ => False
  | info :: infos, s => s.RefusesAtOnce info ∨ s.Idle info ∧ Harmless infos s

variable {infos : List TransportInfo}

theorem Alike.takes (h : Alike s t) (hs : s.Takes infos) : t.Takes infos := by
  induction infos generalizing s t with
  | nil => trivial
  | cons info infos ih => exact ⟨h.accepts hs.1, ih (h.completeNegotiation info.contentName) hs.2⟩

theorem Alike.harmless (h : Alike s t) (hsame : SameHoldings s t)
    (hs : s.Harmless infos) : t.Harmless infos := by
  induction infos with
  | nil => exact hs
  | cons info infos ih =>
    refine hs.imp (fun honce q hq => ?_) (And.imp ?_ ih)
    · obtain ⟨p, hp, heq⟩ := h.symm.getTransportProxy hq
      obtain ⟨-, htransport, hnegotiated, -⟩ := erase_eq_iff.mp heq
      obtain ⟨hp', cand, hcand, hrefused⟩ := honce p hp
      exact ⟨hnegotiated.symm.trans hp', cand, hcand, (h.takesCandidate htransport.symm cand).trans hrefused⟩
    rintro ⟨p, hp, hp', hall⟩
    obtain ⟨q, hq, heq⟩ := h.getTransportProxy hp
    obtain ⟨-, htransport, hnegotiated, -⟩ := erase_eq_iff.mp heq
    refine ⟨q, hq, hnegotiated.trans hp', fun cand hcand => ?_⟩
    rw [h.takesCandidate htransport, htransport, hsame.handed]
    exact hall cand hcand

/-- All candidates are taken if and only if all may be handed on; refused, they leave the session as it was if
and only if nothing new was taken before. -/
theorem onAll_spec {ok : Bool}
    (h : s.onAllRemoteCandidates fresh infos = some (t, ok)) : Grows s t ∧ (ok = true ↔ s.Takes infos) ∧
      (ok = false → (SameHoldings s t ↔ s.Harmless infos)) := by
  induction infos generalizing s with
  | nil =>
    cases h
    exact ⟨⟨fun _ => id, fun _ => rfl, fun _ _ => id⟩, iff_of_true rfl trivial, nofun⟩
  | cons info infos ih =>
    obtain ⟨⟨u, taken⟩, hu, hrest⟩ := Option.bind_eq_some_iff.mp h
    rcases onRemoteCandidates_spec hu with ⟨rfl, haccepts, halike, p, hp, hhanded⟩ | ⟨rfl, hrefused, rfl⟩
    · obtain ⟨hgrows, hidle⟩ := taken_iff haccepts halike hp hhanded
      obtain ⟨hgrows', htakes, hharmless⟩ := ih hrest
      have honce : ¬ s.RefusesAtOnce info := fun honce => honce.not_accepts haccepts
      refine ⟨hgrows.trans hgrows', ?_, fun hok => ?_⟩
      · rw [htakes, Takes, and_iff_right haccepts]
        exact ⟨halike.symm.takes, halike.takes⟩
      rw [Harmless, or_iff_right honce]
      -- an idle content changes nothing that the others depend on
      have hquiet (hsame : SameHoldings s u) : Alike s u := by
        have hflag : s.flag info.contentName ≠ some false := by
          obtain ⟨q, hq, hnegotiated, -⟩ := hidle.mp hsame
          exact flag_of_negotiated hq hnegotiated
        rw [completeNegotiation_of_flag hflag] at halike
        exact halike
      constructor
      · intro hsame
        obtain ⟨hfirst, hsecond⟩ := hgrows.between hgrows' hsame
        have hback : SameHoldings u s :=
          ⟨fun name => (hfirst.negotiated name).symm, fun n cand => (hfirst.handed n cand).symm⟩
        exact ⟨hidle.mp hfirst, (hquiet hfirst).symm.harmless hback ((hharmless hok).mp hsecond)⟩
      · rintro ⟨hfirst, hrest'⟩
        have hsame := hidle.mpr hfirst
        exact hsame.trans ((hharmless hok).mpr ((hquiet hsame).harmless hsame hrest'))
    · cases hrest
      refine ⟨grows_completeNegotiation _ s, iff_of_false Bool.false_ne_true fun htakes => hrefused htakes.1, ?_⟩
      intro _
      have hidle : ¬ s.Idle info := fun hidle => hrefused hidle.accepts
      rw [Harmless, or_iff_left fun hboth => hidle hboth.1]
      exact refused_iff hrefused

end ContentSession

/-! ### The state of the session -/

theorem Change.of_sentInitiate {old : SessionState} {sent : List ActionType}
    (h : Change old .sentInitiate sent) : old = .init := by
  cases h with
  | initiate => rfl

namespace Session

variable {D : Type} {s s' : Session D}

theorem Moves.ne_sentInitiate (h : Moves s s') (hs : s.state ≠ .init ∧ s.state ≠ .sentInitiate) :
    s'.state ≠ .init ∧ s'.state ≠ .sentInitiate := by
  induction h with
  | refl => exact hs
  | tail _ hmove ih =>
    cases hmove with
    | quiet events frame hstate =>
      rw [hstate]
      exact ih
    | takeLocal mark frame hstate =>
      rw [hstate]
      exact ih
    | takeRemote mark frame hstate =>
      rw [hstate]
      exact ih
    | change sent hchange =>
      refine ⟨hchange.ne_init, fun heq => ih.1 ?_⟩
      rw [heq] at hchange
      exact hchange.of_sentInitiate

theorem setState_ne_sentInitiate (r : Reaction D) (hstate : s.state = .sentInitiate) :
    (s.setState r.listen .receivedAccept).state ≠ .sentInitiate := by
  have hne : SessionState.receivedAccept ≠ s.state := by
    rw [hstate]
    nofun
  have hentered : (s.enter .receivedAccept).state ≠ .init ∧ (s.enter .receivedAccept).state ≠ .sentInitiate :=
    ⟨nofun, nofun⟩
  rw [setState, if_neg hne]
  exact ((r.listen_calls (s.enter .receivedAccept)).moves.ne_sentInitiate hentered).2

variable {body : Body D}

theorem onIncomingMessage_accept_state (r : Reaction D) (msg : SessionMessage) (htype : msg.type = .sessionAccept)
    {description : D} (hbody : body.description = some description)
    (hstate : s.state = .sentInitiate) : (s.onIncomingMessage r.listen msg body).state ≠ .sentInitiate := by
  have hsettled : (s.settleProtocol msg.protocol).state = .sentInitiate :=
    (settleProtocol_state msg.protocol s).trans hstate
  rw [onIncomingMessage, handleAction, htype]
  rw [onAcceptMessage, if_neg (not_not.mpr hsettled), hbody]
  refine setState_ne_sentInitiate r ?_
  exact (onInitiateAcked_state body.unsent _).trans hsettled

variable (listen : Session D → Session D)

theorem onIncomingMessage_accept_of_refused (msg : SessionMessage) (htype : msg.type = .sessionAccept)
    (h : s.state ≠ .sentInitiate ∨ body.description = none) :
    (s.onIncomingMessage listen msg body).state = s.state ∧
      (s.onIncomingMessage listen msg body).remoteDescription = s.remoteDescription := by
  have hstay : (s.settleProtocol msg.protocol).onAcceptMessage listen body =
      (s.settleProtocol msg.protocol, false) := by
    rw [onAcceptMessage]
    rcases h with hstate | hnone
    · rw [if_pos]
      rw [settleProtocol_state]
      exact hstate
    · rw [hnone]
      exact ite_self _
  rw [onIncomingMessage, handleAction, htype]
  dsimp only
  rw [hstay]
  refine ⟨settleProtocol_state msg.protocol s, ?_⟩
  rw [emit, settleProtocol]
  split_ifs <;> rfl

theorem onIncomingMessage_transportInfo (msg : SessionMessage)
    (htype : msg.type = .transportInfo) (body : Body D) (s : Session D) :
    (s.onIncomingMessage listen msg body).state = s.state ∧
      (s.onIncomingMessage listen msg body).remoteDescription = s.remoteDescription := by
  rw [onIncomingMessage, handleAction, htype]
  refine ⟨settleProtocol_state msg.protocol s, ?_⟩
  dsimp only [onTransportInfoMessage]
  rw [emit, emit, settleProtocol]
  split_ifs <;> rfl

/-- A message is answered with an error. -/
def Refused (s : Session D) : Prop := ∃ type, s.trace.getLast? = some (.refuse type)

theorem refused_iff (msg : SessionMessage) (body : Body D) (s : Session D) :
    (s.onIncomingMessage listen msg body).Refused ↔ s.takes listen msg body = false := by
  rw [Refused, onIncomingMessage_answer]
  cases s.takes listen msg body <;> simp

theorem takes_transportInfo (msg : SessionMessage)
    (htype : msg.type = .transportInfo) (body : Body D) (s : Session D) :
    s.takes listen msg body = (body.parses && body.candidates) := by
  rw [takes, handleAction, htype]
  rfl

theorem takes_accept (msg : SessionMessage) (htype : msg.type = .sessionAccept)
    {description : D} (hbody : body.description = some description)
    (hstate : s.state = .sentInitiate) : s.takes listen msg body = body.candidates := by
  rw [takes, handleAction, htype]
  rw [onAcceptMessage, if_neg (not_not.mpr ((settleProtocol_state msg.protocol s).trans hstate)), hbody]

end Session

namespace ContentSession

variable {s s' : ContentSession}

/-! ### What a refused message leaves behind -/

/-- The state and the remote description of the session are the same, and so are the flags and the candidates. -/
structure Untouched (s s' : ContentSession) : Prop where
  state : s'.session.state = s.session.state
  remoteDescription : s'.session.remoteDescription = s.session.remoteDescription
  holdings : SameHoldings s s'

/-- A message is refused before it does something, or not at all: an accept brings candidates that are taken
behind its answer, a transport-info some that are taken, or refused before anything new was. -/
def ActsAsOne (s : ContentSession) : Message → Prop
  | .accept parsed _ _ calls => s.session.state = .sentInitiate → ∀ description, parsed = some description →
      ∀ t, s.answered description calls = some t → t.Takes description.transportInfos
  | .transportInfo parsed => ∀ infos, parsed = some infos → s.Takes infos ∨ s.Harmless infos

theorem sameHoldings_withSession {t : ContentSession} (session : Session SessionDescription) :
    SameHoldings s { t with session } ↔ SameHoldings s t :=
  ⟨fun h => ⟨h.negotiated, h.handed⟩, fun h => ⟨h.negotiated, h.handed⟩⟩

theorem onAcceptMessage_iff {fresh : String → String × String} {msg : SessionMessage}
    {parsed : Option SessionDescription} {unsent : ℕ} {r : Reaction SessionDescription} {calls : List ChannelCall}
    (h : s.onAcceptMessage fresh msg parsed unsent r calls = some s') :
    (s'.session.Refused → Untouched s s') ↔ s.ActsAsOne (.accept parsed unsent r calls) := by
  simp only [onAcceptMessage] at h
  rcases parsed with _ | description
  · cases h
    have hnone : (⟨none, false, true, false, unsent⟩ : Body SessionDescription).description = none := rfl
    obtain ⟨hstate, hremote⟩ := Session.onIncomingMessage_accept_of_refused (s := s.session) r.listen
      { msg with type := .sessionAccept } rfl (Or.inr hnone)
    refine iff_of_true (fun _ => ⟨hstate, hremote, fun _ => rfl, fun _ _ => Iff.rfl⟩) ?_
    intro _ description hnone
    cases hnone
  split_ifs at h with hwaits
  · cases h
    obtain ⟨hstate, hremote⟩ := Session.onIncomingMessage_accept_of_refused r.listen
      { msg with type := .sessionAccept } rfl (Or.inl hwaits)
    exact iff_of_true (fun _ => ⟨hstate, hremote, fun _ => rfl, fun _ _ => Iff.rfl⟩)
      (fun hwait => absurd hwait hwaits)
  rw [not_not] at hwaits
  obtain ⟨t, ht, hcandidates⟩ := Option.bind_eq_some_iff.mp h
  obtain ⟨⟨u, ok⟩, hu, rfl⟩ := Option.map_eq_some_iff.mp hcandidates
  obtain ⟨-, htakes, -⟩ := onAll_spec hu
  have hacts : s.ActsAsOne (.accept (some description) unsent r calls) ↔ ok = true := by
    rw [htakes]
    constructor
    · intro hacts
      exact hacts hwaits description rfl t ht
    · intro hall _ description' hsome t' ht'
      cases hsome
      rw [ht] at ht'
      cases ht'
      exact hall
  rw [hacts, Session.refused_iff, Session.takes_accept r.listen _ rfl rfl hwaits]
  constructor
  · intro hclean
    by_contra hrefused
    have hsome : (⟨some description, true, true, ok, unsent⟩ : Body SessionDescription).description =
        some description := rfl
    have hsame := (hclean (Bool.eq_false_of_not_eq_true hrefused)).state
    exact Session.onIncomingMessage_accept_state r { msg with type := .sessionAccept } rfl hsome hwaits
      (hsame.trans hwaits)
  · intro htaken hrefused
    rw [htaken] at hrefused
    cases hrefused

theorem onTransportInfoMessage_iff {fresh : String → String × String} {msg : SessionMessage}
    {parsed : Option (List TransportInfo)} (h : s.onTransportInfoMessage fresh msg parsed = some s') :
    (s'.session.Refused → Untouched s s') ↔ s.ActsAsOne (.transportInfo parsed) := by
  rcases parsed with _ | infos
  · cases h
    obtain ⟨hstate, hremote⟩ := Session.onIncomingMessage_transportInfo id
      { msg with type := .transportInfo } rfl ⟨none, false, true, false, 0⟩ s.session
    refine iff_of_true (fun _ => ⟨hstate, hremote, fun _ => rfl, fun _ _ => Iff.rfl⟩) ?_
    intro infos hnone
    cases hnone
  obtain ⟨⟨u, ok⟩, hu, rfl⟩ := Option.map_eq_some_iff.mp h
  obtain ⟨hstate, hremote⟩ := Session.onIncomingMessage_transportInfo id
    { msg with type := .transportInfo } rfl ⟨none, true, true, ok, 0⟩ s.session
  obtain ⟨-, htakes, hharmless⟩ := onAll_spec hu
  have hacts : s.ActsAsOne (.transportInfo (some infos)) ↔ ok = true ∨ s.Harmless infos := by
    rw [htakes]
    constructor
    · intro hacts
      exact hacts infos rfl
    · intro hall infos' hsome
      cases hsome
      exact hall
  rw [hacts, Session.refused_iff, Session.takes_transportInfo id _ rfl]
  constructor
  · intro hclean
    rcases hok : ok with _ | _
    · exact Or.inr ((hharmless hok).mp ((sameHoldings_withSession _).mp (hclean hok).holdings))
    · exact Or.inl rfl
  · intro hquiet hrefused
    rcases hquiet with hok | hquiet
    · rw [hok] at hrefused
      cases hrefused
    · exact ⟨hstate, hremote, (sameHoldings_withSession _).mpr ((hharmless hrefused).mpr hquiet)⟩

/-- For every session and every accept or transport-info, an answer that is an error leaves the session as it
was if and only if the message acts as one. -/
theorem untouched_iff {fresh : String → String × String} {msg : SessionMessage} {m : Message}
    (h : s.onIncomingMessage fresh msg m = some s') :
    (s'.session.Refused → Untouched s s') ↔ s.ActsAsOne m := by
  cases m with
  | accept parsed unsent r calls => exact onAcceptMessage_iff h
  | transportInfo parsed => exact onTransportInfoMessage_iff h

/-! ### A bad candidate behind a good one -/

/-- Both contents of an initiate have a channel and wait for an answer. -/
def waiting : Option ContentSession :=
  let desc := Transport.describe "ufrag" "password"
  let session := ((Session.create "a@e.net/1" "a@e.net/1" "7").initiate id "b@e.net/1"
    ⟨["audio", "video"], [⟨"audio", desc⟩, ⟨"video", desc⟩], []⟩ true true).1
  let s := [⟨"audio", 1⟩, ⟨"video", 1⟩].foldl (fun s call => s.createChannel call) { session }
  let described (n : ℕ) (s : ContentSession) : Option ContentSession :=
    ((s.transportAt n).setLocalTransportDescription desc .offer).map fun (t, _) => s.setTransport n t
  (((described 0 s).bind (described 1)).bind (·.connectChannels (fun _ => ("", "")) "audio")).bind
    (·.connectChannels (fun _ => ("", "")) "video")

/-- A candidate that waits on this port. -/
def candidateOn (port : UInt16) : Candidate :=
  { P2PTransportChannel.blankCandidate with address := ⟨.ipv4 0x01020304, port⟩, component := 1 }

/-- A transport-info with a candidate for each content, of which the second is on a reserved port. -/
def halfGood : Message :=
  .transportInfo (some [⟨"audio", { Transport.describe "" "" with candidates := [candidateOn 5000] }⟩,
    ⟨"video", { Transport.describe "" "" with candidates := [candidateOn 22] }⟩])

/-- A transport-info. -/
def transportInfoMessage : SessionMessage :=
  { protocol := .jingle, type := .transportInfo, id := "1", sid := "7", sender := "b@e.net/1"
    recipient := "a@e.net/1", initiator := "", actionElem := .ofName qnJingle }

/-- The same message is refused again, after it was refused once. -/
theorem untouched_again : ∃ s s' s'', waiting = some s ∧
    s.onIncomingMessage (fun _ => ("", "")) transportInfoMessage halfGood = some s' ∧
    s'.onIncomingMessage (fun _ => ("", "")) transportInfoMessage halfGood = some s'' ∧
    ((s''.session.Refused → Untouched s' s'') ↔ s'.ActsAsOne halfGood) := by
  have hruns : (waiting.bind fun s =>
      (s.onIncomingMessage (fun _ => ("", "")) transportInfoMessage halfGood).bind fun s' =>
        s'.onIncomingMessage (fun _ => ("", "")) transportInfoMessage halfGood).isSome = true := by
    decide +kernel
  obtain ⟨s'', hruns⟩ := Option.isSome_iff_exists.mp hruns
  obtain ⟨s, hs, hrest⟩ := Option.bind_eq_some_iff.mp hruns
  obtain ⟨s', hs', hs''⟩ := Option.bind_eq_some_iff.mp hrest
  exact ⟨s, s', s'', hs, hs', hs'', untouched_iff hs''⟩

/-- The good candidate is handed on, and both proxies are negotiated, before the message is refused. -/
theorem not_untouched_halfGood : ¬ ∀ (fresh : String → String × String) (msg : SessionMessage)
    (s s' : ContentSession) (m : Message), s.onIncomingMessage fresh msg m = some s' →
      s'.session.Refused → Untouched s s' := by
  intro hall
  have hchecked : (waiting.any fun s =>
      (s.onIncomingMessage (fun _ => ("", "")) transportInfoMessage halfGood).any fun s' =>
        decide (s'.session.trace.getLast? = some (.refuse .transportInfo) ∧
          s'.flag "video" = some true ∧ s.flag "video" = some false)) = true := by
    decide +kernel
  obtain ⟨s, -, hmessage⟩ := (Option.any_eq_true _ _).mp hchecked
  obtain ⟨s', hs', hfacts⟩ := (Option.any_eq_true _ _).mp hmessage
  obtain ⟨hrefused, hafter, hbefore⟩ := of_decide_eq_true hfacts
  have hsame := (hall _ _ s s' halfGood hs' ⟨_, hrefused⟩).holdings.negotiated "video"
  rw [hafter, hbefore] at hsame
  cases hsame

end ContentSession

end Synciga.P2p
