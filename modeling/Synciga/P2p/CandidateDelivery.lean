import Synciga.P2p.LocalCandidates
import Synciga.P2p.SessionMoves

/-!
# Every candidate is sent once

A local candidate that was reported is in one place: in a transport-info to the address that the session has, in
the list of its proxy that waits for the initiate, or in that of its transport. A redirect sends again what the
proxy remembers, which lacks what had waited for the initiate, and is cleared by the first redirect. Bundled
contents send each candidate of their transport once for each content.

## Main results

* `delivers_run` — each is sent once, in order
* `not_delivers_redirectedLate` — one that is lost
-/

namespace Synciga.P2p

/-! ### What a session keeps -/

theorem Arrival.ne_init {type : ActionType} {old new : SessionState} (h : Arrival type old new) : new ≠ .init := by
  cases h <;> decide

namespace Session

variable {D : Type} {s s' t : Session D} {listen : Session D → Session D}

/-- The role is kept, and behind the first state also the address. -/
structure Steady (s s' : Session D) : Prop where
  initiator : s'.initiator = s.initiator
  remoteName : s.state ≠ .init → s'.remoteName = s.remoteName
  state : s.state ≠ .init → s'.state ≠ .init

theorem Steady.refl (s : Session D) : Steady s s := ⟨rfl, fun _ => rfl, id⟩

theorem Steady.trans (h : Steady s t) (h' : Steady t s') : Steady s s' where
  initiator := h'.initiator.trans h.initiator
  remoteName := fun hs => (h'.remoteName (h.state hs)).trans (h.remoteName hs)
  state := fun hs => h'.state (h.state hs)

theorem Frame.steady {events : List SessionEvent} (h : Frame s s' events)
    (hstate : s.state ≠ .init → s'.state ≠ .init) : Steady s s' :=
  ⟨h.initiator, h.remoteName, hstate⟩

theorem Move.steady (h : Move s s') : Steady s s' := by
  cases h with
  | quiet _ frame hstate => exact frame.steady fun hs => by rwa [hstate]
  | takeLocal _ frame hstate => exact frame.steady fun hs => by rwa [hstate]
  | takeRemote _ frame hstate => exact frame.steady fun hs => by rwa [hstate]
  | change _ hchange frame => exact frame.steady fun _ => hchange.ne_init

theorem Moves.steady (h : Moves s s') : Steady s s' := by
  induction h with
  | refl => exact .refl s
  | tail _ hmove ih => exact ih.trans hmove.steady

theorem Calls.steady (h : Calls s s') : Steady s s' := h.moves.steady

variable {type : ActionType}

theorem Handles.steady {body : Body D} (h : Handles type body s s') : Steady s s' := by
  cases h with
  | pass h => exact h.steady
  | arrive s0 s1 before harrive after =>
    exact (before.steady.trans (harrive.frame.steady fun _ => harrive.arrival.ne_init)).trans after.steady
  | look s0 s1 _ before _ hlook after =>
    exact (before.steady.trans (hlook.frame.steady fun hs => by rwa [hlook.stays])).trans after.steady

theorem destroy_steady (s : Session D) : Steady s s.destroy := by
  refine ⟨?_, fun _ => ?_, fun _ => ?_⟩
  · simp [destroy, emit, enter]
  · simp [destroy, emit, enter]
  · simp

/-! ### Whether the initiate was acknowledged -/

theorem destroy_acked (s : Session D) : s.destroy.initiateAcked = s.initiateAcked := by
  simp [destroy, emit, enter]

theorem setState_acked (hl : ∀ s, (listen s).initiateAcked = s.initiateAcked) (state : SessionState)
    (s : Session D) : (s.setState listen state).initiateAcked = s.initiateAcked := by
  rw [setState]
  split_ifs
  · rfl
  · exact hl _

theorem setError_acked (error : SessionError) (s : Session D) :
    (s.setError error).initiateAcked = s.initiateAcked := by
  simp only [setError]
  split_ifs <;> rfl

theorem terminateWithReason_acked (hl : ∀ s, (listen s).initiateAcked = s.initiateAcked) (s : Session D) :
    (s.terminateWithReason listen).1.initiateAcked = s.initiateAcked := by
  rw [terminateWithReason]
  split
  · rfl
  · rfl
  · exact setState_acked hl _ s
  · exact setState_acked hl _ s
  · exact setState_acked hl _ _

theorem apply_acked (hl : ∀ s, (listen s).initiateAcked = s.initiateAcked) (c : SessionCall D) (s : Session D) :
    (c.apply listen s).initiateAcked = s.initiateAcked := by
  cases c with
  | initiate recipient description transports written =>
    simp only [SessionCall.apply, initiate]
    split_ifs
    · rfl
    · rfl
    · rfl
    · exact setState_acked hl _ _
  | accept description written =>
    simp only [SessionCall.apply, accept]
    split_ifs
    · rfl
    · rfl
    · exact setState_acked hl _ _
  | reject =>
    simp only [SessionCall.apply, reject]
    split_ifs
    · rfl
    · exact setState_acked hl _ _
  | terminate => exact terminateWithReason_acked hl s
  | sendInfo => rfl
  | sendDescriptionInfo written =>
    simp only [SessionCall.apply, sendDescriptionInfoMessage]
    split_ifs <;> rfl
  | setError error => exact setError_acked error s

variable (r : Reaction D)

theorem listen_acked (s : Session D) : (r.listen s).initiateAcked = s.initiateAcked := by
  induction r generalizing s with
  | done => rfl
  | call c inner rest ihinner ihrest => exact (ihrest _).trans (apply_acked ihinner c s)

theorem sendTransportInfos_acked (n : ℕ) (s : Session D) :
    (s.sendTransportInfos n).initiateAcked = s.initiateAcked := by
  induction n generalizing s with
  | zero => rfl
  | succ n ih => exact ih _

theorem onInitiateAcked_acked (unsent : ℕ) (s : Session D) : (s.onInitiateAcked unsent).initiateAcked = true := by
  rw [onInitiateAcked]
  split_ifs with hacked
  · exact hacked
  · exact sendTransportInfos_acked unsent _

theorem onMessage_acked (message : Posted) (s : Session D) :
    (s.onMessage r.listen message).1.initiateAcked = s.initiateAcked := by
  have hbase : (s.onBaseMessage r.listen message).initiateAcked = s.initiateAcked := by
    unfold onBaseMessage
    split
    · exact setError_acked .time s
    · rfl
    · split_ifs
      · exact setState_acked (listen_acked r) _ s
      · rfl
  have hterminate := (terminateWithReason_acked (listen_acked r) (s.onBaseMessage r.listen message)).trans hbase
  simp only [onMessage]
  split
  · exact hbase
  · exact hterminate
  · split_ifs
    · exact hterminate
    · exact hbase

theorem settleProtocol_acked (protocol : SignalingProtocol) (s : Session D) :
    (s.settleProtocol protocol).initiateAcked = s.initiateAcked := by
  rw [settleProtocol]
  split_ifs <;> rfl

theorem onIncomingMessage_acked (msg : SessionMessage) (body : Body D) (s : Session D) :
    (s.onIncomingMessage r.listen msg body).initiateAcked =
      if msg.type = .sessionAccept ∧ s.state = .sentInitiate ∧ body.description.isSome then true
      else s.initiateAcked := by
  rw [onIncomingMessage, ← settleProtocol_state msg.protocol s, ← settleProtocol_acked msg.protocol s]
  generalize s.settleProtocol msg.protocol = s
  change (s.handleAction r.listen msg body).1.initiateAcked = _
  have hl := listen_acked r
  rw [handleAction]
  split <;> rename_i htype <;> rw [htype]
  · simp only [onInitiateMessage, reduceCtorEq, false_and, if_false]
    rcases body.description with _ | description
    · split_ifs <;> rfl
    · split_ifs
      · rfl
      · rfl
      · exact setState_acked hl _ _
  · rfl
  · simp only [onAcceptMessage, true_and]
    by_cases hstate : s.state = .sentInitiate
    · rcases body.description with _ | description
      · simp [hstate]
      · simp only [hstate, ne_eq, not_true_eq_false, if_false, Option.isSome_some, and_self, if_true]
        exact (setState_acked hl _ _).trans (onInitiateAcked_acked body.unsent s)
    · simp [hstate]
  · simp only [onRejectMessage, reduceCtorEq, false_and, if_false]
    split_ifs
    · rfl
    · exact setState_acked hl _ s
  · exact setState_acked hl _ s
  · rfl
  · rfl
  · simp only [onDescriptionInfoMessage, reduceCtorEq, false_and, if_false]
    split_ifs <;> rfl
  · rfl

/-! ### Redirects -/

theorem onFailedSend_unfollowed {redirect : Option String} (h : ∀ target, redirect = some target →
      ¬ (type ≠ .unknown ∧ s.state = .sentInitiate ∧ bareJidsEqual s.remoteName target = true))
    (errorType : Option String) (written : Bool) (resent : ℕ) :
    Steady s (s.onFailedSend type redirect errorType written resent) ∧
      (s.onFailedSend type redirect errorType written resent).initiateAcked = s.initiateAcked := by
  rcases redirect with _ | target
  · refine ⟨(onFailedSend_calls type errorType written resent s).steady, ?_⟩
    unfold onFailedSend
    rcases errorType with _ | error
    · exact congrArg initiateAcked (ite_self s)
    dsimp only
    split_ifs
    · rfl
    · rfl
    · exact setError_acked _ s
    · rfl
  have hrefused (htype : type ≠ .unknown) : s.onRedirectError target written resent = (s, false) := by
    rw [onRedirectError]
    split_ifs with hstate hbare
    · rfl
    · rfl
    · exact absurd ⟨htype, not_not.mp hstate, Bool.eq_true_of_not_eq_false hbare⟩ (h target rfl)
    · exact absurd ⟨htype, not_not.mp hstate, Bool.eq_true_of_not_eq_false hbare⟩ (h target rfl)
  rw [onFailedSend]
  split_ifs with htype
  · exact ⟨.refl s, rfl⟩
  · rw [hrefused htype]
    exact ⟨(setError_calls .response s).steady, setError_acked .response s⟩

theorem onFailedSend_followed {target : String} (htype : type ≠ .unknown)
    (hstate : s.state = .sentInitiate) (hbare : bareJidsEqual s.remoteName target = true)
    (errorType : Option String) (written : Bool) (resent : ℕ) :
    Steady { s with remoteName := target } (s.onFailedSend type (some target) errorType written resent) ∧
      (s.onFailedSend type (some target) errorType written resent).initiateAcked = s.initiateAcked := by
  rw [onFailedSend, if_neg htype, onRedirectError, if_neg (not_not.mpr hstate), if_neg (by rw [hbare]; decide)]
  dsimp only
  rcases written with _ | _
  · exact ⟨(setError_calls .response { s with remoteName := target }).steady, setError_acked .response _⟩
  · rw [if_neg (by decide)]
    have hsent : Steady { s with remoteName := target }
        (({ s with remoteName := target } : Session D).send .sessionInitiate) := ⟨rfl, fun _ => rfl, id⟩
    exact ⟨hsent.trans (sendTransportInfos_calls resent _).steady, sendTransportInfos_acked resent _⟩

end Session

/-! ### What was sent and what is held back -/

/-- The candidates of a content that were sent to an address, in their order. -/
def sentTo (recipient contentName : String) (outbox : List TransportInfoMessage) : List Candidate :=
  (outbox.filter fun i => i.recipient = recipient ∧ i.contentName = contentName).flatMap (·.candidates)

theorem sentTo_append (recipient contentName : String) (outbox sent : List TransportInfoMessage) :
    sentTo recipient contentName (outbox ++ sent) =
      sentTo recipient contentName outbox ++ sentTo recipient contentName sent := by
  simp [sentTo]

/-- What a list of the proxy of a content holds. -/
def heldBy (held : CandidateProxy → List Candidate) (contentName : String) (proxies : List CandidateProxy) :
    List Candidate :=
  ((proxies.find? (·.contentName = contentName)).map held).getD []

section Held

variable {held : CandidateProxy → List Candidate} {clear : CandidateProxy → CandidateProxy}
  {proxies : List CandidateProxy}

theorem sendHeld_of_writes (recipient : String) (h : ∀ p ∈ proxies, p.writes (held p) = true) :
    sendHeld held clear recipient proxies = (proxies.map fun p => if held p = [] then p else clear p,
      (proxies.filter (held · ≠ [])).map fun p => ⟨recipient, p.contentName, held p⟩, true) := by
  induction proxies with
  | nil => rfl
  | cons p proxies ih =>
    have hrest := ih fun q hq => h q (List.mem_cons_of_mem _ hq)
    rw [sendHeld, hrest, if_pos (h p List.mem_cons_self)]
    by_cases hp : held p = []
    · simp [hp]
    · simp [hp]

theorem heldBy_of_forall {contentName : String} (h : ∀ p ∈ proxies, held p = []) :
    heldBy held contentName proxies = [] := by
  rw [heldBy]
  generalize hfound : proxies.find? (·.contentName = contentName) = found
  rcases found with _ | p
  · rfl
  · exact h p (List.mem_of_find?_eq_some hfound)

theorem sentTo_held (recipient contentName : String) (hnames : (proxies.map (·.contentName)).Nodup) :
    sentTo recipient contentName ((proxies.filter (held · ≠ [])).map fun p => ⟨recipient, p.contentName, held p⟩) =
      heldBy held contentName proxies := by
  induction proxies with
  | nil => rfl
  | cons p proxies ih =>
    rw [List.map_cons, List.nodup_cons] at hnames
    have hrest := ih hnames.2
    rw [sentTo] at hrest ⊢
    rw [heldBy, List.find?_cons]
    by_cases hname : p.contentName = contentName
    · have hnone : heldBy held contentName proxies = [] := by
        rw [heldBy, List.find?_eq_none.mpr]
        · rfl
        · intro q hq hq'
          refine hnames.1 (List.mem_map.mpr ⟨q, hq, ?_⟩)
          rw [hname]
          simpa using hq'
      rw [hnone] at hrest
      by_cases hp : held p = []
      · simp only [hp, ne_eq, not_true_eq_false, decide_false, Bool.false_eq_true, not_false_eq_true,
          List.filter_cons_of_neg, hname, decide_true, Option.map_some, Option.getD_some]
        exact hrest
      · simp only [hp, ne_eq, not_false_eq_true, decide_true, List.filter_cons_of_pos, List.map_cons, hname,
          List.flatMap_cons, Option.map_some, Option.getD_some, and_self]
        rw [hrest, List.append_nil]
    · rw [heldBy] at hrest
      simp only [hname, decide_false]
      rw [← hrest]
      by_cases hp : held p = []
      · simp [hp]
      · simp [hp, hname]

end Held

namespace CandidateSession

variable {D : Type} {s s' t : CandidateSession D}

/-! ### Where the candidates are -/

/-- Each candidate of a transport was sent to the address that the session has, or waits, in the order of the
reports. An initiator sends none before the initiate is acknowledged. Once the channels are connected and
nothing is posted, nothing waits besides for the initiate. -/
structure Delivers (s : CandidateSession D) : Prop where
  once : ∀ name, sentTo s.session.remoteName name s.outbox ++
    heldBy CandidateProxy.unsentCandidates name s.proxies ++ (s.transportAt name).readyCandidates =
      (s.transportAt name).reported
  waits : s.session.initiator = true → s.session.initiateAcked = false → s.outbox = []
  arrives : (s.session.initiator = true → s.session.initiateAcked = true) →
    ∀ name, (s.transportAt name).connectRequested = true → (s.transportAt name).posted = 0 →
      sentTo s.session.remoteName name s.outbox = (s.transportAt name).reported

/-- All of what waits for the initiate can be written. -/
def WritesUnsent (s : CandidateSession D) : Prop :=
  s.session.initiateAcked = false → ∀ p ∈ s.proxies, p.writes p.unsentCandidates = true

/-- What was sent to the address is what a redirect sends to the target, which was sent nothing before. -/
def Remembers (target : String) (written : Bool) (s : CandidateSession D) : Prop :=
  (∀ name ∈ s.proxies.map (·.contentName) ++ s.outbox.map (·.contentName),
    sentTo target name s.outbox ++ (if written then heldBy CandidateProxy.sentCandidates name s.proxies else []) =
      sentTo s.session.remoteName name s.outbox) ∧
  (written = true → ∀ p ∈ s.proxies, p.writes p.sentCandidates = true)

/-- Only the content that a transport was made for listens to it, and what it is told can be written. -/
def ListensAlone (transport : String) (s : CandidateSession D) : Prop :=
  ∃ p ∈ s.listeners transport, s.listeners transport = [p] ∧ p.contentName = transport ∧
    (s.session.initiator = true ∧ s.session.initiateAcked = false ∨
      p.writes (s.transportAt transport).readyCandidates = true)

/-- Behind this step the candidates still are where they should be. -/
def KeepsDelivering (s : CandidateSession D) : CandidateOp D → Prop
  | .deliver transport => (s.transportAt transport).readyCandidates = [] ∨ s.ListensAlone transport
  | .setupMux contentName target =>
    ∀ p ∈ s.getTransportProxy contentName, ∀ q ∈ s.getTransportProxy target, p.transport ≠ q.transport →
      (∀ component ∈ p.channels, s.hasChannel q.transport component = true) →
        (∀ o ∈ s.proxies, o.contentName ≠ contentName → o.transport ≠ p.transport) →
          (s.transportAt p.transport).readyCandidates = []
  | .session (.response type _) => type = .sessionInitiate → s.session.state ≠ .init → s.WritesUnsent
  | .session (.message msg body _) => s.takesAccept msg body = true → s.WritesUnsent
  | .session (.failedSend type redirect _ written _) =>
    ∀ target ∈ s.followed type redirect, s.Remembers target written
  | _ => True

/-- What a run keeps. -/
structure Tracked (s : CandidateSession D) : Prop where
  fresh : s.session.state = .init → s.session.initiator = true ∧ s.session.initiateAcked = false
  names : (s.proxies.map (·.contentName)).Nodup
  waits : s.session.initiator = true → s.session.initiateAcked = false → s.outbox = []
  unsent : ∀ p ∈ s.proxies, p.unsentCandidates ≠ [] →
    s.session.initiator = true ∧ s.session.initiateAcked = false
  posted : ∀ name, (s.transportAt name).readyCandidates ≠ [] → (s.transportAt name).connectRequested = true →
    0 < (s.transportAt name).posted
  once : ∀ name, sentTo s.session.remoteName name s.outbox ++
    heldBy CandidateProxy.unsentCandidates name s.proxies ++ (s.transportAt name).readyCandidates =
      (s.transportAt name).reported

theorem Tracked.unsent_eq (h : s.Tracked)
    (hacked : ¬ (s.session.initiator = true ∧ s.session.initiateAcked = false))
    (name : String) : heldBy CandidateProxy.unsentCandidates name s.proxies = [] := by
  refine heldBy_of_forall fun p hp => ?_
  by_contra hne
  exact hacked (h.unsent p hp hne)

theorem Tracked.delivers (h : s.Tracked) : s.Delivers where
  once := h.once
  waits := h.waits
  arrives := by
    intro hacked name hconnect hposted
    have hwaits : ¬ (s.session.initiator = true ∧ s.session.initiateAcked = false) := by
      rintro ⟨hinitiator, hnot⟩
      rw [hacked hinitiator] at hnot
      cases hnot
    have hunsent := h.unsent_eq hwaits name
    have hready : (s.transportAt name).readyCandidates = [] := by
      by_contra hne
      exact absurd (h.posted name hne hconnect) (by rw [hposted]; decide)
    have honce := h.once name
    rw [hunsent, hready] at honce
    simpa using honce

/-! ### Transports and proxies -/

theorem Tracked.withTransport (h : s.Tracked) {transport : String} {f : CandidateTransport → CandidateTransport}
    (hposted : ((s.transportAt transport).readyCandidates ≠ [] → (s.transportAt transport).connectRequested = true →
        0 < (s.transportAt transport).posted) →
      (f (s.transportAt transport)).readyCandidates ≠ [] → (f (s.transportAt transport)).connectRequested = true →
        0 < (f (s.transportAt transport)).posted)
    (honce : ∀ front, front ++ (s.transportAt transport).readyCandidates = (s.transportAt transport).reported →
      front ++ (f (s.transportAt transport)).readyCandidates = (f (s.transportAt transport)).reported) :
    (s.withTransport transport f).Tracked where
  fresh := h.fresh
  names := h.names
  waits := h.waits
  unsent := h.unsent
  posted := by
    intro name
    rw [CandidateSession.withTransport]
    dsimp only
    rcases eq_or_ne name transport with rfl | hne
    · rw [Function.update_self]
      exact hposted (h.posted name)
    · rw [Function.update_of_ne hne]
      exact h.posted name
  once := by
    intro name
    rw [CandidateSession.withTransport]
    dsimp only
    rcases eq_or_ne name transport with rfl | hne
    · rw [Function.update_self]
      exact honce _ (h.once name)
    · rw [Function.update_of_ne hne]
      exact h.once name

variable {f : CandidateProxy → CandidateProxy}

theorem heldBy_map (held : CandidateProxy → List Candidate)
    (hf : ∀ p, (f p).contentName = p.contentName) (name : String) (proxies : List CandidateProxy) :
    heldBy held name (proxies.map f) = heldBy (held ∘ f) name proxies := by
  have hsame : (fun p : CandidateProxy => decide (p.contentName = name)) ∘ f =
      fun p => decide (p.contentName = name) := by
    funext p
    rw [Function.comp_apply, hf]
  rw [heldBy, List.find?_map, hsame, Option.map_map, heldBy]

theorem Tracked.mapProxies (h : s.Tracked)
    (hname : ∀ p, (f p).contentName = p.contentName) (hunsent : ∀ p, (f p).unsentCandidates = p.unsentCandidates) :
    Tracked { s with proxies := s.proxies.map f } where
  fresh := h.fresh
  names := by
    rw [List.map_map]
    simpa [Function.comp_def, hname] using h.names
  waits := h.waits
  unsent := by
    intro p hp hne
    obtain ⟨q, hq, rfl⟩ := List.mem_map.mp hp
    rw [hunsent] at hne
    exact h.unsent q hq hne
  posted := h.posted
  once := by
    intro name
    have hsame : CandidateProxy.unsentCandidates ∘ f = CandidateProxy.unsentCandidates := funext hunsent
    rw [heldBy_map _ hname, hsame]
    exact h.once name

theorem Tracked.setProxy (h : s.Tracked) {contentName : String}
    (hname : ∀ p, (f p).contentName = p.contentName) (hunsent : ∀ p, (f p).unsentCandidates = p.unsentCandidates) :
    (s.setProxy contentName f).Tracked := by
  refine h.mapProxies (fun p => ?_) fun p => ?_
  · split_ifs
    · exact hname p
    · rfl
  · split_ifs
    · exact hunsent p
    · rfl

theorem heldBy_insert {held : CandidateProxy → List Candidate} {p : CandidateProxy} (hp : held p = [])
    {front back : List CandidateProxy}
    (hnew : (front ++ back).find? (·.contentName = p.contentName) = none) (name : String) :
    heldBy held name (front ++ p :: back) = heldBy held name (front ++ back) := by
  rw [heldBy, heldBy, List.find?_append, List.find?_cons]
  by_cases hname : p.contentName = name
  · rw [hname] at hnew
    rw [hnew]
    rw [List.find?_append, Option.or_eq_none_iff] at hnew
    simp [hname, hnew.1, hp]
  · simp [hname, List.find?_append]

theorem Tracked.createChannel (h : s.Tracked) (contentName : String) (component : ℤ) :
    (s.createChannel contentName component).Tracked := by
  have hcreated : (s.getOrCreateTransportProxy contentName).Tracked := by
    rw [getOrCreateTransportProxy]
    generalize hfound : s.getTransportProxy contentName = found
    rcases found with _ | p
    · have hsplit : s.proxies.takeWhile (·.contentName < contentName) ++
          s.proxies.dropWhile (·.contentName < contentName) = s.proxies := List.takeWhile_append_dropWhile
      rw [getTransportProxy, ← hsplit] at hfound
      refine ⟨h.fresh, ?_, h.waits, ?_, h.posted, fun name => ?_⟩
      · have hnames := h.names
        rw [← hsplit] at hnames
        refine ((List.perm_middle.map _).nodup_iff).mpr ?_
        rw [List.map_cons, List.nodup_cons]
        refine ⟨fun hmem => ?_, hnames⟩
        obtain ⟨q, hq, hname⟩ := List.mem_map.mp hmem
        exact absurd (decide_eq_true hname) (List.find?_eq_none.mp hfound q hq)
      · intro p hp hne
        rcases List.mem_append.mp hp with hfront | hback
        · exact h.unsent p (hsplit ▸ List.mem_append_left _ hfront) hne
        · rcases List.mem_cons.mp hback with rfl | hback
          · exact absurd rfl hne
          · exact h.unsent p (hsplit ▸ List.mem_append_right _ hback) hne
      · dsimp only
        rw [heldBy_insert rfl hfound, hsplit]
        exact h.once name
    · exact h
  exact hcreated.setProxy (fun _ => rfl) fun _ => rfl

theorem Tracked.connectChannels (h : s.Tracked) (contentName : String) :
    (s.connectChannels contentName).Tracked := by
  rw [CandidateSession.connectChannels]
  rcases s.getTransportProxy contentName with _ | p
  · exact h
  dsimp only
  split_ifs
  · refine h.withTransport (fun hold => ?_) fun front hfront => ?_
    · rw [CandidateTransport.connectChannels]
      split_ifs
      · exact hold
      · intro _ _
        exact Nat.succ_pos _
    · rw [CandidateTransport.connectChannels]
      split_ifs <;> exact hfront
  · exact h

theorem Tracked.resetChannels (h : s.Tracked) (transport : String) :
    (s.withTransport transport (·.resetChannels)).Tracked := by
  refine h.withTransport (fun _ hne => absurd rfl hne) fun front hfront => ?_
  rw [CandidateTransport.resetChannels]
  simp [← hfront]

theorem Tracked.candidateReady (h : s.Tracked) (transport : String) (candidate : Candidate) :
    (s.onChannelCandidateReady transport candidate).Tracked := by
  rw [onChannelCandidateReady]
  split_ifs
  · refine h.withTransport (fun _ _ hconnect => ?_) fun front hfront => ?_
    · rw [CandidateTransport.onChannelCandidateReady] at hconnect ⊢
      rw [if_pos hconnect]
      exact Nat.succ_pos _
    · rw [CandidateTransport.onChannelCandidateReady]
      rw [← List.append_assoc, hfront]
  · exact h

theorem Tracked.setupMux (h : s.Tracked) {contentName target : String}
    (hok : s.KeepsDelivering (.setupMux contentName target)) : (s.setupMux contentName target).Tracked := by
  rw [KeepsDelivering] at hok
  rw [CandidateSession.setupMux]
  generalize s.getTransportProxy contentName = found at hok ⊢
  generalize s.getTransportProxy target = found' at hok ⊢
  rcases found with _ | p
  · exact h
  rcases found' with _ | q
  · exact h
  dsimp only
  split_ifs with hsame hchannels hused
  · exact h
  · exact h.setProxy (fun _ => rfl) fun _ => rfl
  · have hmoved : (s.setProxy contentName fun p => { p with transport := q.transport }).Tracked :=
      h.setProxy (fun _ => rfl) fun _ => rfl
    have hready : (s.transportAt p.transport).readyCandidates = [] := by
      refine hok p rfl q rfl hsame (fun c hc => List.all_eq_true.mp hchannels c hc) fun o ho hne heq => ?_
      refine hused (List.any_eq_true.mpr ⟨o, List.mem_map.mpr ⟨o, ho, if_neg hne⟩, decide_eq_true heq⟩)
    refine hmoved.withTransport (fun _ hne => absurd rfl hne) fun front hfront => ?_
    have hfront' : front ++ (s.transportAt p.transport).readyCandidates = (s.transportAt p.transport).reported :=
      hfront
    rw [hready] at hfront'
    exact hfront'
  · exact h

/-! ### Candidates are signalled -/

end CandidateSession

theorem Session.onCandidatesReady_fields {D : Type} (written : Bool) (s : Session D) :
    (s.onCandidatesReady written).state = s.state ∧ (s.onCandidatesReady written).initiator = s.initiator ∧
      (s.onCandidatesReady written).initiateAcked = s.initiateAcked ∧
      (s.onCandidatesReady written).remoteName = s.remoteName := by
  rw [Session.onCandidatesReady]
  split_ifs <;> exact ⟨rfl, rfl, rfl, rfl⟩

namespace CandidateSession

variable {D : Type} {s s' t : CandidateSession D}

theorem Tracked.heldBack (h : s.Tracked) {transport : String} (hposted : s.session.initiator = true ∧
    s.session.initiateAcked = false) (hproxy : ∃ p ∈ s.proxies, p.contentName = transport) :
    ((s.withTransport transport (·.swapReady)).setProxy transport fun p =>
      { p with unsentCandidates := p.unsentCandidates ++ (s.transportAt transport).readyCandidates }).Tracked := by
  set ready := (s.transportAt transport).readyCandidates with hready
  have hname (p : CandidateProxy) : (if p.contentName = transport then
      { p with unsentCandidates := p.unsentCandidates ++ ready } else p).contentName = p.contentName := by
    split_ifs <;> rfl
  refine ⟨h.fresh, ?_, h.waits, fun _ _ _ => hposted, fun name => ?_, fun name => ?_⟩
  · have hnames := h.names
    rw [CandidateSession.setProxy, CandidateSession.withTransport, List.map_map]
    simpa [Function.comp_def, hname] using hnames
  · rw [CandidateSession.setProxy, CandidateSession.withTransport]
    dsimp only
    rcases eq_or_ne name transport with rfl | hne
    · rw [Function.update_self]
      exact fun hne => absurd rfl hne
    · rw [Function.update_of_ne hne]
      exact h.posted name
  have honce := h.once name
  rw [CandidateSession.setProxy, CandidateSession.withTransport]
  dsimp only
  rw [heldBy_map _ hname]
  rw [heldBy] at honce ⊢
  generalize hfound : s.proxies.find? (·.contentName = name) = found at honce ⊢
  rcases eq_or_ne name transport with rfl | hne
  · rw [Function.update_self]
    rcases found with _ | p
    · obtain ⟨p, hp, hpname⟩ := hproxy
      exact absurd (decide_eq_true hpname) (List.find?_eq_none.mp hfound p hp)
    have hpname : p.contentName = name := by
      simpa using List.find?_some hfound
    simp only [Option.map_some, Function.comp_apply, hpname, if_true, Option.getD_some,
      CandidateTransport.swapReady, List.append_nil]
    rw [← List.append_assoc]
    exact honce
  rw [Function.update_of_ne hne]
  rcases found with _ | p
  · exact honce
  · have hpname : p.contentName = name := by
      simpa using List.find?_some hfound
    simp only [Option.map_some, Function.comp_apply, hpname, if_neg hne, Option.getD_some]
    exact honce

theorem Tracked.signalled (h : s.Tracked) (transport : String)
    (hready : (s.transportAt transport).readyCandidates ≠ [])
    (hposted : ¬ (s.session.initiator = true ∧ s.session.initiateAcked = false)) :
    Tracked { s.withTransport transport (·.swapReady) with
      session := s.session.onCandidatesReady true
      outbox := s.outbox ++
        [⟨s.session.remoteName, transport, (s.transportAt transport).readyCandidates⟩] } := by
  obtain ⟨hstate, hinitiator, hacked, hname⟩ := Session.onCandidatesReady_fields true s.session
  constructor
  · dsimp only
    rw [hstate, hinitiator, hacked]
    exact h.fresh
  · exact h.names
  · dsimp only
    rw [hinitiator, hacked]
    exact fun hi ha => absurd ⟨hi, ha⟩ hposted
  · dsimp only
    rw [hinitiator, hacked]
    exact h.unsent
  · intro name
    rw [CandidateSession.withTransport]
    dsimp only
    rcases eq_or_ne name transport with rfl | hne
    · rw [Function.update_self]
      exact fun hne => absurd rfl hne
    · rw [Function.update_of_ne hne]
      exact h.posted name
  intro name
  have honce := h.once name
  rw [h.unsent_eq hposted, List.append_nil] at honce
  rw [CandidateSession.withTransport]
  dsimp only
  rw [hname, h.unsent_eq hposted, List.append_nil, sentTo_append]
  rcases eq_or_ne name transport with rfl | hne
  · rw [Function.update_self]
    simpa [sentTo, CandidateTransport.swapReady] using honce
  · rw [Function.update_of_ne hne]
    simpa [sentTo, hne.symm] using honce

theorem Tracked.deliver (h : s.Tracked) {transport : String}
    (hok : (s.transportAt transport).readyCandidates = [] ∨ s.ListensAlone transport) :
    (s.onCandidatesReady transport).Tracked := by
  rw [CandidateSession.onCandidatesReady]
  split_ifs with hready
  · refine h.withTransport (fun _ hne => absurd rfl hne) fun front hfront => ?_
    rw [hready] at hfront
    exact hfront
  obtain ⟨p, hp, halone, hname, hwrites⟩ := hok.resolve_left hready
  have hproxy : ∃ p ∈ s.proxies, p.contentName = transport := by
    refine ⟨p, ?_, hname⟩
    simp only [listeners, List.mem_append, List.mem_filter] at hp
    rcases hp with hp | hp
    · exact hp.1.1
    · exact hp.1.1
  rw [halone, List.foldl_cons, List.foldl_nil, onTransportProxyCandidatesReady, hname]
  split_ifs with hposted hnegotiated hwritten
  · exact h.heldBack hposted hproxy
  · exact h.signalled transport hready hposted
  · exact absurd (hwrites.resolve_left hposted) hwritten
  · have hsent : (s.setProxy transport fun p =>
        { p with sentCandidates := p.sentCandidates ++ (s.transportAt transport).readyCandidates }).Tracked :=
      h.setProxy (fun _ => rfl) fun _ => rfl
    exact hsent.signalled transport hready hposted
  · rename_i hwritten
    exact absurd (hwrites.resolve_left hposted) hwritten

/-! ### The session -/

theorem Tracked.withSteady (h : s.Tracked) {session : Session D} (hsteady : Session.Steady s.session session)
    (hacked : session.initiateAcked = s.session.initiateAcked) : Tracked { s with session } where
  fresh := by
    intro hstate
    rw [hsteady.initiator, hacked]
    exact h.fresh (by_contra fun hne => hsteady.state hne hstate)
  names := h.names
  waits := by
    intro hinitiator hwaits
    rw [hsteady.initiator] at hinitiator
    rw [hacked] at hwaits
    exact h.waits hinitiator hwaits
  unsent := by
    intro p hp hne
    rw [hsteady.initiator, hacked]
    exact h.unsent p hp hne
  posted := h.posted
  once := by
    intro name
    have honce := h.once name
    by_cases hstate : s.session.state = .init
    · have hnone : s.outbox = [] := h.waits (h.fresh hstate).1 (h.fresh hstate).2
      rw [hnone] at honce ⊢
      exact honce
    · rw [hsteady.remoteName hstate]
      exact honce

theorem withSession_quiet (f : ℕ → Session D → Session D) (s : CandidateSession D) :
    s.withSession f s.quiet = { s with session := f 0 s.session } := by
  simp [withSession, quiet]

theorem Tracked.acknowledged (h : s.Tracked) (hwrites : s.WritesUnsent) (hstate : s.session.state ≠ .init)
    {f : ℕ → Session D → Session D}
    (hf : ∀ n, Session.Steady s.session (f n s.session) ∧ (f n s.session).initiateAcked = true) :
    (s.withSession f s.acked).Tracked := by
  rw [acked]
  split_ifs with hacked
  · obtain ⟨hsteady, hset⟩ := hf 0
    have hquiet := withSession_quiet f s
    rw [quiet] at hquiet
    rw [hquiet]
    exact h.withSteady hsteady (hset.trans hacked.symm)
  have hwaits := Bool.eq_false_of_not_eq_true hacked
  rw [sendAllUnsentTransportInfoMessages, sendHeld_of_writes _ (hwrites hwaits), withSession]
  obtain ⟨hsteady, hset⟩ := hf ((s.proxies.filter (·.unsentCandidates ≠ [])).map fun p =>
    (⟨s.session.remoteName, p.contentName, p.unsentCandidates⟩ : TransportInfoMessage)).length
  set g : CandidateProxy → CandidateProxy := fun p =>
    if p.unsentCandidates = [] then p else { p with unsentCandidates := [] } with hg
  have hname (p : CandidateProxy) : (g p).contentName = p.contentName := by
    rw [hg]
    dsimp only
    split_ifs <;> rfl
  have hempty (p : CandidateProxy) : (g p).unsentCandidates = [] := by
    rw [hg]
    dsimp only
    split_ifs with hnone
    · exact hnone
    · rfl
  refine ⟨fun hinit => absurd hinit (hsteady.state hstate), ?_, ?_, ?_, h.posted, ?_⟩
  · have hnames := h.names
    simpa [Function.comp_def, hname] using hnames
  · dsimp only
    rw [hset]
    nofun
  · intro p hp hne
    obtain ⟨q, -, rfl⟩ := List.mem_map.mp hp
    exact absurd (hempty q) hne
  intro name
  have hnone : heldBy CandidateProxy.unsentCandidates name (s.proxies.map g) = [] := by
    refine heldBy_of_forall fun p hp => ?_
    obtain ⟨q, -, rfl⟩ := List.mem_map.mp hp
    exact hempty q
  rw [hsteady.remoteName hstate, hnone, sentTo_append, sentTo_held _ _ h.names, List.append_nil]
  exact h.once name

theorem sentTo_eq_nil {recipient name : String} {outbox : List TransportInfoMessage}
    (h : name ∉ outbox.map (·.contentName)) : sentTo recipient name outbox = [] := by
  rw [sentTo, List.filter_eq_nil_iff.mpr]
  · rfl
  · intro i hi hboth
    exact h (List.mem_map.mpr ⟨i, hi, (of_decide_eq_true hboth).2⟩)

theorem heldBy_eq_nil {held : CandidateProxy → List Candidate} {name : String} {proxies : List CandidateProxy}
    (h : name ∉ proxies.map (·.contentName)) : heldBy held name proxies = [] := by
  rw [heldBy, List.find?_eq_none.mpr]
  · rfl
  · intro p hp hname
    exact h (List.mem_map.mpr ⟨p, hp, of_decide_eq_true hname⟩)

theorem Tracked.redirected (h : s.Tracked) {target : String} {written : Bool} (hok : s.Remembers target written)
    {session : Session D} (hstate : s.session.state ≠ .init)
    (hsteady : Session.Steady { s.session with remoteName := target } session)
    (hacked : session.initiateAcked = s.session.initiateAcked) :
    let sent := if written then resendAllTransportInfoMessages target s.proxies else s.quiet
    sent.2.2 = true ∧ Tracked { s with session, proxies := sent.1, outbox := s.outbox ++ sent.2.1 } := by
  obtain ⟨hsame, hwrites⟩ := hok
  have hall (name : String) : sentTo target name s.outbox ++
      (if written then heldBy CandidateProxy.sentCandidates name s.proxies else []) =
        sentTo s.session.remoteName name s.outbox := by
    by_cases hmem : name ∈ s.proxies.map (·.contentName) ++ s.outbox.map (·.contentName)
    · exact hsame name hmem
    · rw [List.mem_append, not_or] at hmem
      rw [sentTo_eq_nil hmem.2, sentTo_eq_nil hmem.2, heldBy_eq_nil hmem.1]
      exact ite_self _
  have hname : session.remoteName = target := hsteady.remoteName hstate
  have hkeeps {proxies : List CandidateProxy} {infos : List TransportInfoMessage}
      (hnames : proxies.map (·.contentName) = s.proxies.map (·.contentName))
      (hunsent : ∀ p ∈ proxies, ∃ q ∈ s.proxies, p.unsentCandidates = q.unsentCandidates)
      (hheld : ∀ name, heldBy CandidateProxy.unsentCandidates name proxies =
        heldBy CandidateProxy.unsentCandidates name s.proxies)
      (hwaits : s.outbox = [] → infos = [])
      (hsent : ∀ name, sentTo target name infos =
        if written then heldBy CandidateProxy.sentCandidates name s.proxies else []) :
      Tracked { s with session, proxies, outbox := s.outbox ++ infos } := by
    refine ⟨fun hinit => absurd hinit (hsteady.state hstate), ?_, ?_, ?_, h.posted, fun name => ?_⟩
    · dsimp only
      rw [hnames]
      exact h.names
    · intro hinitiator hnot
      rw [hsteady.initiator] at hinitiator
      rw [hacked] at hnot
      have hnone := h.waits hinitiator hnot
      dsimp only
      rw [hwaits hnone, hnone]
      rfl
    · intro p hp hne
      obtain ⟨q, hq, hsame⟩ := hunsent p hp
      rw [hsteady.initiator, hacked]
      exact h.unsent q hq (by rwa [← hsame])
    · dsimp only
      rw [hname, hheld, sentTo_append, hsent, hall]
      exact h.once name
  rcases written with _ | _
  · exact ⟨rfl, hkeeps rfl (fun p hp => ⟨p, hp, rfl⟩) (fun _ => rfl) (fun _ => rfl) fun _ => rfl⟩
  rw [if_pos rfl, resendAllTransportInfoMessages, sendHeld_of_writes _ (hwrites rfl)]
  have hclear (p : CandidateProxy) : (if p.sentCandidates = [] then p else
      { p with sentCandidates := [] }).contentName
      = p.contentName ∧ (if p.sentCandidates = [] then p else { p with sentCandidates := [] }).unsentCandidates =
        p.unsentCandidates := by
    split_ifs <;> exact ⟨rfl, rfl⟩
  refine ⟨rfl, hkeeps ?_ ?_ ?_ ?_ ?_⟩
  · rw [List.map_map]
    exact List.map_congr_left fun p _ => (hclear p).1
  · intro p hp
    obtain ⟨q, hq, rfl⟩ := List.mem_map.mp hp
    exact ⟨q, hq, (hclear q).2⟩
  · intro name
    rw [heldBy_map _ fun p => (hclear p).1]
    exact congrArg (heldBy · name s.proxies) (funext fun p => (hclear p).2)
  · intro hnone
    refine List.map_eq_nil_iff.mpr (List.filter_eq_nil_iff.mpr fun p hp hne => ?_)
    have hheld : heldBy CandidateProxy.sentCandidates p.contentName s.proxies = [] := by
      have hboth := hall p.contentName
      rw [hnone, if_pos rfl] at hboth
      exact hboth
    have hsent := (sentTo_held target p.contentName h.names).trans hheld
    rw [sentTo, List.flatMap_eq_nil_iff] at hsent
    refine of_decide_eq_true hne (hsent ⟨target, p.contentName, p.sentCandidates⟩ ?_)
    refine List.mem_filter.mpr ⟨List.mem_map.mpr ⟨p, List.mem_filter.mpr ⟨hp, hne⟩, rfl⟩, ?_⟩
    exact decide_eq_true ⟨rfl, rfl⟩
  · intro name
    exact sentTo_held target name h.names

theorem Tracked.onIncomingResponse (h : s.Tracked) {type : ActionType} (hstate : s.session.state ≠ .init)
    (hok : type = .sessionInitiate → s.WritesUnsent) : (s.onIncomingResponse type).Tracked := by
  rw [CandidateSession.onIncomingResponse]
  split_ifs with htype
  · refine h.acknowledged (hok htype) hstate fun n => ?_
    refine ⟨(Session.onIncomingResponse_calls type n s.session).steady, ?_⟩
    rw [Session.onIncomingResponse, if_pos htype]
    exact Session.onInitiateAcked_acked n s.session
  · rw [withSession_quiet]
    refine h.withSteady (Session.onIncomingResponse_calls type 0 s.session).steady ?_
    rw [Session.onIncomingResponse, if_neg htype]

theorem Tracked.onIncomingMessage (h : s.Tracked) {msg : SessionMessage} {body : Body D} (r : Reaction D)
    (hok : s.takesAccept msg body = true → s.WritesUnsent) : (s.onIncomingMessage msg body r).Tracked := by
  rw [CandidateSession.onIncomingMessage]
  have hsteady (n : ℕ) : Session.Steady s.session (s.session.onIncomingMessage r.listen msg
      { body with unsent := n }) :=
    (Session.onIncomingMessage_handles (Reaction.listen_calls r) msg _ s.session).steady
  have hacked (n : ℕ) := Session.onIncomingMessage_acked r msg { body with unsent := n } s.session
  split_ifs with htakes
  · have hboth := of_decide_eq_true htakes
    have hstate : s.session.state ≠ .init := by
      rw [hboth.2.1]
      decide
    exact h.acknowledged (hok htakes) hstate fun n => ⟨hsteady n, (hacked n).trans (if_pos hboth)⟩
  · rw [withSession_quiet]
    exact h.withSteady (hsteady 0) ((hacked 0).trans (if_neg fun hboth => htakes (decide_eq_true hboth)))

theorem Tracked.onFailedSend (h : s.Tracked) {type : ActionType} {redirect : Option String}
    (errorType : Option String) {written : Bool}
    (hok : ∀ target ∈ s.followed type redirect, s.Remembers target written) :
    (s.onFailedSend type redirect errorType written).Tracked := by
  rw [CandidateSession.onFailedSend]
  generalize hfollowed : s.followed type redirect = found at hok
  rw [followed] at hfollowed
  rcases found with _ | target
  · rw [withSession_quiet]
    have hnot (target : String) (hredirect : redirect = some target) : ¬ (type ≠ .unknown ∧
        s.session.state = .sentInitiate ∧ Session.bareJidsEqual s.session.remoteName target = true) := by
      intro hboth
      rw [Option.filter_eq_none_iff] at hfollowed
      exact hfollowed target hredirect (decide_eq_true hboth)
    obtain ⟨hsteady, hacked⟩ := Session.onFailedSend_unfollowed hnot errorType written 0
    exact h.withSteady hsteady hacked
  obtain ⟨rfl, hboth⟩ := Option.filter_eq_some_iff.mp hfollowed
  obtain ⟨htype, hstate, hbare⟩ := of_decide_eq_true hboth
  have hne : s.session.state ≠ .init := by
    rw [hstate]
    decide
  dsimp only
  obtain ⟨hsteady, hacked⟩ := Session.onFailedSend_followed htype hstate hbare errorType written
    (if written then resendAllTransportInfoMessages target s.proxies else s.quiet).2.1.length
  obtain ⟨hdone, htracked⟩ := h.redirected (hok target rfl) hne hsteady hacked
  rw [if_pos hdone]
  exact htracked

theorem Tracked.deliverMessage (h : s.Tracked) (message : Posted) (r : Reaction D) :
    Tracked { s with session := s.session.step (.deliver message r) } := by
  have htaken : Session.Steady s.session (s.session.taken message) := ⟨rfl, fun _ => rfl, id⟩
  rcases Session.step_deliver message r s.session with ⟨-, heq⟩ | ⟨-, -, heq⟩ | ⟨-, -, heq⟩
  · rw [heq]
    exact h
  · rw [heq]
    exact h.withSteady (htaken.trans (Session.destroy_steady _)) (Session.destroy_acked _)
  · rw [heq]
    refine h.withSteady (htaken.trans ?_) (Session.onMessage_acked r message _)
    exact (Session.onMessage_calls (Reaction.listen_calls r) message _).steady

theorem Tracked.onSession (h : s.Tracked) {op : SessionOp D} (hok : s.KeepsDelivering (.session op)) :
    (s.onSession op).Tracked := by
  cases op with
  | call c inner =>
    exact h.withSteady (Session.apply_calls (Reaction.listen_calls inner) c s.session).steady
      (Session.apply_acked (Session.listen_acked inner) c s.session)
  | message msg body r => exact h.onIncomingMessage r hok
  | response type unsent =>
    rw [CandidateSession.onSession]
    split_ifs with hstate
    · exact h
    · exact h.onIncomingResponse hstate fun htype => hok htype hstate
  | failedSend type redirect errorType written resent => exact h.onFailedSend errorType hok
  | deliver message r => exact h.deliverMessage message r
  | writable hasChannels writable =>
    refine h.withSteady (Session.onTransportWritable_calls hasChannels writable s.session).steady ?_
    simp only [Session.step, Session.onTransportWritable]
    split_ifs <;> rfl
  | candidates written => exact h

theorem tracked_step (h : s.Tracked) {op : CandidateOp D} (hok : s.KeepsDelivering op) : (s.step op).Tracked := by
  unfold step
  split_ifs
  · exact h
  cases op with
  | createChannel contentName component => exact h.createChannel contentName component
  | destroyChannel contentName component => exact h.setProxy (fun _ => rfl) fun _ => rfl
  | connectChannels contentName => exact h.connectChannels contentName
  | resetChannels transport => exact h.resetChannels transport
  | candidateReady transport candidate => exact h.candidateReady transport candidate
  | deliver transport =>
    dsimp only
    split_ifs
    · exact h
    · exact h.deliver hok
  | completeNegotiation contentName => exact h.setProxy (fun _ => rfl) fun _ => rfl
  | setupMux contentName target => exact h.setupMux hok
  | session op => exact h.onSession hok

/-! ### Runs -/

end CandidateSession

/-- A step acknowledges an initiate: a response to it, or an accept. -/
def CandidateOp.Acknowledges {D : Type} : CandidateOp D → Prop
  | .session (.response type _) => type = .sessionInitiate
  | .session (.message msg _ _) => msg.type = .sessionAccept
  | _ => False

namespace CandidateSession

variable {D : Type} {s s' t : CandidateSession D}

theorem acked_onCandidatesReady (transport : String) (s : CandidateSession D) :
    (s.onCandidatesReady transport).session.initiateAcked = s.session.initiateAcked := by
  have hone (candidates : List Candidate) (t : CandidateSession D) (p : CandidateProxy) :
      (onTransportProxyCandidatesReady candidates t p).session.initiateAcked = t.session.initiateAcked := by
    rw [onTransportProxyCandidatesReady]
    split_ifs
    · rfl
    · exact (Session.onCandidatesReady_fields true _).2.2.1
    · exact (Session.onCandidatesReady_fields false _).2.2.1
    · exact (Session.onCandidatesReady_fields true _).2.2.1
    · exact (Session.onCandidatesReady_fields false _).2.2.1
  have hall (candidates : List Candidate) (listeners : List CandidateProxy) (t : CandidateSession D) :
      (listeners.foldl (onTransportProxyCandidatesReady candidates) t).session.initiateAcked =
        t.session.initiateAcked := by
    induction listeners generalizing t with
    | nil => rfl
    | cons p listeners ih => exact (ih _).trans (hone candidates t p)
  rw [onCandidatesReady]
  split_ifs
  · rfl
  · exact hall _ _ _

theorem acked_onFailedSend (type : ActionType) (redirect errorType : Option String) (written : Bool)
    (s : CandidateSession D) :
    (s.onFailedSend type redirect errorType written).session.initiateAcked = s.session.initiateAcked := by
  have hsession (n : ℕ) : (s.session.onFailedSend type redirect errorType written n).initiateAcked =
      s.session.initiateAcked := by
    by_cases hfollowed : ∃ target, redirect = some target ∧ type ≠ .unknown ∧ s.session.state = .sentInitiate ∧
        Session.bareJidsEqual s.session.remoteName target = true
    · obtain ⟨target, rfl, htype, hstate, hbare⟩ := hfollowed
      exact (Session.onFailedSend_followed htype hstate hbare errorType written n).2
    · exact (Session.onFailedSend_unfollowed (fun target hredirect hboth =>
        hfollowed ⟨target, hredirect, hboth⟩) errorType written n).2
  rw [onFailedSend]
  rcases s.followed type redirect with _ | target
  · exact hsession _
  dsimp only
  split_ifs
  · exact hsession _
  · exact hsession _
  · exact (Session.setError_acked .response _).trans (hsession _)
  · exact (Session.setError_acked .response _).trans (hsession _)

theorem acked_onSession {op : SessionOp D} (h : (s.onSession op).session.initiateAcked = true) :
    s.session.initiateAcked = true ∨ (CandidateOp.session op).Acknowledges := by
  cases op with
  | call c inner => exact Or.inl ((Session.apply_acked (Session.listen_acked inner) c s.session).symm.trans h)
  | message msg body r =>
    by_cases htype : msg.type = .sessionAccept
    · exact Or.inr htype
    refine Or.inl ?_
    have hsame := Session.onIncomingMessage_acked r msg { body with unsent := 0 } s.session
    rw [if_neg fun hboth => htype hboth.1] at hsame
    dsimp only [onSession] at h
    rw [onIncomingMessage, if_neg (by simp [takesAccept, htype]), withSession_quiet] at h
    exact hsame.symm.trans h
  | response type unsent =>
    by_cases htype : type = .sessionInitiate
    · exact Or.inr htype
    · refine Or.inl ?_
      dsimp only [onSession] at h
      rw [onIncomingResponse, if_neg htype, withSession_quiet, Session.onIncomingResponse, if_neg htype] at h
      split_ifs at h <;> exact h
  | failedSend type redirect errorType written resent =>
    exact Or.inl ((acked_onFailedSend type redirect errorType written s).symm.trans h)
  | deliver message r =>
    refine Or.inl ?_
    dsimp only [onSession] at h
    rcases Session.step_deliver message r s.session with ⟨-, heq⟩ | ⟨-, -, heq⟩ | ⟨-, -, heq⟩
    · rwa [heq] at h
    · rw [heq, Session.destroy_acked] at h
      exact h
    · rw [heq, Session.onMessage_acked] at h
      exact h
  | writable hasChannels writable =>
    refine Or.inl (Eq.trans (Eq.symm ?_) h)
    simp only [onSession, Session.step, Session.onTransportWritable]
    split_ifs <;> rfl
  | candidates written => exact Or.inl h

theorem acked_step {op : CandidateOp D} (h : (s.step op).session.initiateAcked = true) :
    s.session.initiateAcked = true ∨ op.Acknowledges := by
  unfold step at h
  split_ifs at h
  · exact Or.inl h
  cases op with
  | createChannel contentName component =>
    refine Or.inl (Eq.trans (Eq.symm ?_) h)
    dsimp only
    rw [createChannel, setProxy, getOrCreateTransportProxy]
    split <;> rfl
  | destroyChannel contentName component => exact Or.inl h
  | connectChannels contentName =>
    refine Or.inl (Eq.trans (Eq.symm ?_) h)
    dsimp only
    rw [connectChannels]
    split
    · rfl
    · split_ifs <;> rfl
  | resetChannels transport => exact Or.inl h
  | candidateReady transport candidate =>
    refine Or.inl (Eq.trans (Eq.symm ?_) h)
    dsimp only
    rw [onChannelCandidateReady]
    split_ifs <;> rfl
  | deliver transport =>
    dsimp only at h
    split_ifs at h
    · exact Or.inl h
    · exact Or.inl ((acked_onCandidatesReady transport s).symm.trans h)
  | completeNegotiation contentName => exact Or.inl h
  | setupMux contentName target =>
    refine Or.inl (Eq.trans (Eq.symm ?_) h)
    simp only [setupMux]
    split
    · split_ifs <;> rfl
    · rfl
  | session op => exact acked_onSession h

theorem acked_run {ops : List (CandidateOp D)} (hrun : Runs.run next s ops = some s')
    (h : s'.session.initiateAcked = true) :
    s.session.initiateAcked = true ∨ ∃ op ∈ ops, op.Acknowledges := by
  induction ops generalizing s with
  | nil =>
    cases hrun
    exact Or.inl h
  | cons op ops ih =>
    obtain ⟨t, ht, hrest⟩ := Runs.run_cons hrun
    cases ht
    rcases ih hrest with hacked | ⟨op', hmem, hop⟩
    · rcases acked_step hacked with hacked | hop
      · exact Or.inl hacked
      · exact Or.inr ⟨op, List.mem_cons_self, hop⟩
    · exact Or.inr ⟨op', List.mem_cons_of_mem _ hmem, hop⟩

theorem tracked_start {session : Session D} (hinit : session.state = .init → session.initiator = true)
    (hacked : session.initiateAcked = false) : Tracked { session } where
  fresh := fun hstate => ⟨hinit hstate, hacked⟩
  names := List.nodup_nil
  waits := fun _ _ => rfl
  unsent := by
    intro p hp
    cases hp
  posted := fun _ hne => absurd rfl hne
  once := fun _ => rfl

/-- For every run of steps that keep delivering: each candidate that was reported is in one place, in order, and
those of an initiator are sent only behind an acknowledgment. -/
theorem delivers_run {session : Session D} (hinit : session.state = .init → session.initiator = true)
    (hacked : session.initiateAcked = false) {front back : List (CandidateOp D)}
    (hok : Runs.Admissible next KeepsDelivering { session } (front ++ back))
    (hrun : Runs.run next { session } front = some s) :
    s.Delivers ∧ (s.session.initiateAcked = true → ∃ op ∈ front, op.Acknowledges) := by
  have hkeeps : ∀ s op s', Tracked s → KeepsDelivering s op → next s op = some s' → Tracked (D := D) s' := by
    intro s op s' h hop hstep
    cases hstep
    exact tracked_step h hop
  refine ⟨(Runs.invariant hkeeps (tracked_start hinit hacked) (Runs.admissible_append hok).1 hrun).delivers, ?_⟩
  intro hafter
  refine (acked_run hrun hafter).resolve_left fun hbefore => ?_
  rw [hacked] at hbefore
  cases hbefore

/-! ### Redirects behind an acknowledgment -/

instance (s : CandidateSession D) : Decidable s.WritesUnsent :=
  inferInstanceAs (Decidable (s.session.initiateAcked = false → ∀ p ∈ s.proxies, _ = true))

instance (target : String) (written : Bool) (s : CandidateSession D) : Decidable (s.Remembers target written) :=
  inferInstanceAs (Decidable ((∀ name ∈ _, _) ∧ (written = true → ∀ p ∈ s.proxies, _ = true)))

instance (transport : String) (s : CandidateSession D) : Decidable (s.ListensAlone transport) :=
  inferInstanceAs (Decidable (∃ p ∈ s.listeners transport, _ = [p] ∧ p.contentName = transport ∧ (_ ∨ _)))

instance (s : CandidateSession D) : DecidablePred s.KeepsDelivering
  | .deliver transport => inferInstanceAs (Decidable (_ ∨ s.ListensAlone transport))
  | .setupMux contentName target =>
    inferInstanceAs (Decidable (∀ p ∈ s.getTransportProxy contentName, ∀ q ∈ s.getTransportProxy target,
      p.transport ≠ q.transport → (∀ component ∈ p.channels, s.hasChannel q.transport component = true) →
        (∀ o ∈ s.proxies, o.contentName ≠ contentName → o.transport ≠ p.transport) →
          (s.transportAt p.transport).readyCandidates = []))
  | .session (.response _ _) => inferInstanceAs (Decidable (_ = _ → _ ≠ _ → s.WritesUnsent))
  | .session (.message msg body _) => inferInstanceAs (Decidable (s.takesAccept msg body = true → s.WritesUnsent))
  | .session (.failedSend type redirect _ written _) =>
    inferInstanceAs (Decidable (∀ target ∈ s.followed type redirect, s.Remembers target written))
  | .session (.call _ _) => .isTrue trivial
  | .session (.deliver _ _) => .isTrue trivial
  | .session (.writable _ _) => .isTrue trivial
  | .session (.candidates _) => .isTrue trivial
  | .createChannel _ _ => .isTrue trivial
  | .destroyChannel _ _ => .isTrue trivial
  | .connectChannels _ => .isTrue trivial
  | .resetChannels _ => .isTrue trivial
  | .candidateReady _ _ => .isTrue trivial
  | .completeNegotiation _ => .isTrue trivial

/-- A candidate of the first component. -/
def localCandidate (port : UInt16) : Candidate where
  id := ""
  component := 1
  protocol := "udp"
  address := ⟨.ipv4 0x0A000001, port⟩
  priority := 0
  username := "ufrag"
  password := "password"
  type := "local"
  networkName := "eth0"
  generation := 0
  foundation := ""
  relatedAddress := ⟨.unspec, 0⟩

/-- A session of an initiator with one content. -/
def initiating : List (CandidateOp Unit) :=
  [.createChannel "audio" 1, .session (.call (.initiate "b@e.net/1" () true true) .done), .connectChannels "audio"]

/-- A candidate is sent behind the acknowledgment, and again behind a redirect. -/
def redirected : List (CandidateOp Unit) :=
  initiating ++ [.session (.response .sessionInitiate 0), .candidateReady "audio" (localCandidate 4000),
    .deliver "audio", .session (.failedSend .transportInfo (some "b@e.net/2") none true 0),
    .candidateReady "audio" (localCandidate 4001), .deliver "audio", .deliver "audio"]

/-- Both candidates reach the address of the redirect. -/
theorem delivers_run_redirected :
    ∃ s, Runs.run next { session := Session.create "a@e.net/1" "a@e.net/1" "7" } redirected = some s ∧
      s.Delivers ∧ (s.session.initiateAcked = true → ∃ op ∈ redirected, op.Acknowledges) := by
  have hok : Runs.Admissible next KeepsDelivering { session := Session.create "a@e.net/1" "a@e.net/1" "7" }
      (redirected ++ []) := by
    decide +kernel
  exact ⟨_, rfl, delivers_run (fun _ => by decide) rfl hok rfl⟩

/-- A candidate waits for the acknowledgment, behind which the session is redirected. -/
def redirectedLate : List (CandidateOp Unit) :=
  initiating ++ [.candidateReady "audio" (localCandidate 4000), .deliver "audio",
    .session (.response .sessionInitiate 0), .session (.failedSend .transportInfo (some "b@e.net/2") none true 0)]

/-- A candidate that has waited for the acknowledgment is not sent again behind a redirect. -/
theorem not_delivers_redirectedLate : ¬ ∀ (session : Session Unit) (ops : List (CandidateOp Unit))
    (s : CandidateSession Unit), (session.state = .init → session.initiator = true) →
      session.initiateAcked = false → Runs.run next { session } ops = some s → s.Delivers := by
  intro hall
  have hchecked : ((Runs.run next { session := Session.create "a@e.net/1" "a@e.net/1" "7" } redirectedLate).any
      fun s : CandidateSession Unit => decide (sentTo s.session.remoteName "audio" s.outbox = [] ∧
        heldBy CandidateProxy.unsentCandidates "audio" s.proxies = [] ∧
        (s.transportAt "audio").readyCandidates = [] ∧ (s.transportAt "audio").reported ≠ [])) = true := by
    decide +kernel
  obtain ⟨s, hrun, hfacts⟩ := (Option.any_eq_true _ _).mp hchecked
  obtain ⟨hsent, hunsent, hready, hreported⟩ := of_decide_eq_true hfacts
  have honce := (hall _ _ s (fun _ => by decide) rfl hrun).once "audio"
  rw [hsent, hunsent, hready] at honce
  exact hreported honce.symm

end CandidateSession

end Synciga.P2p
