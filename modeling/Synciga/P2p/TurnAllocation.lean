import Synciga.P2p.TurnSteps

/-!
# A TURN allocation concludes

An allocation waits for the resolver or for the answer to a request, and ends with a signal. Answers that lack
an attribute, and requests that time out, end it without one, and an error without a code is a fault.

## Main definitions

* `Conclusive` — an event that does nothing of this

## Main results

* `concluded_of_run` — in every run of such events it ends with one signal, or still waits
-/

namespace Synciga.P2p

namespace TurnPort

/-! ### Concluded allocations -/

variable (s : TurnPort)

/-- `SignalAddressReady` or `SignalAddressError` was raised. -/
def Reported : Prop :=
  .addressError ∈ s.signals ∨ ∃ address, .addressReady address ∈ s.signals

/-- No absent attribute was used, and where neither the resolver nor an allocate request is
outstanding, the port has said what came out. -/
def Concluded : Prop :=
  s.fault = false ∧ (s.resolver ≠ .running → (∀ r ∈ s.requests, r.kind ≠ .allocate) → s.Reported)

/-- An answer has the attributes that its request looks at. -/
def Complete (kind : TurnRequestKind) (success : Bool) (response : StunMessage) : Prop :=
  if success then
    kind = .allocate → (response.getXorAddress 0x0020).isSome ∧ (response.getXorAddress 0x0016).isSome ∧
      (response.getUInt32 0x000d).isSome
  else
    kind.readsErrorCode → response.getErrorCode.isSome ∧
      (kind = .allocate → response.getErrorCode = some 401 → s.hash = [] →
        (response.getByteString 0x0014).isSome ∧ (response.getByteString 0x0015).isSome)

/-- Answers are complete, no allocate request times out, and the resolver has an address if it has
no error. -/
def Conclusive (crypto : TurnCrypto) (s : TurnPort) (event : ℕ × TurnEvent) : Prop :=
  match event.2 with
  | .packet data beyond _ => ¬s.Ignores crypto data beyond → ∀ request success response,
    s.answered data = some (request, success, response) → s.Complete request.kind success response
  | .timer id => ∀ r ∈ s.requests, r.id = id → r.kind = .allocate → r.timeout = false
  | .resolved error addresses _ =>
    error = 0 → (resolvedAddress s.serverAddress addresses).isUnresolvedIP = false
  | _ => True

/-! ### The invariant -/

/-- Something is outstanding, or the port has said what came out. -/
def Pending : Prop :=
  s.resolver = .running ∨ (∃ r ∈ s.requests, r.kind = .allocate) ∨ s.Reported

/-- What holds also before `PrepareAddress`. -/
structure Concluding (s : TurnPort) : Prop where
  sound : s.Sound
  fault : s.fault = false
  pending : s.resolver ≠ .none → s.Pending

variable {crypto : TurnCrypto} {s s' : TurnPort} {t : ℕ} {response : StunMessage} {id : List UInt8}

theorem concluded_of_pending (hfault : s.fault = false) (h : s.Pending) : s.Concluded := by
  refine ⟨hfault, fun hresolver hrequests => ?_⟩
  rcases h with hrunning | ⟨r, hr, hkind⟩ | hreported
  · exact absurd hrunning hresolver
  · exact absurd hkind (hrequests r hr)
  · exact hreported

theorem Reported.mono (hs : ∀ signal ∈ s.signals, signal ∈ s'.signals) (h : s.Reported) : s'.Reported :=
  h.imp (hs _) fun ⟨address, haddress⟩ => ⟨address, hs _ haddress⟩

theorem Pending.extends (hs : s.Extends s') (h : s.Pending) : s'.Pending := by
  rcases h with hrunning | ⟨r, hr, hkind⟩ | hreported
  · exact .inl (hs.resolver.elim (fun hsame => hsame.trans hrunning) fun h => h)
  · exact .inr (.inl ⟨r, hs.requests r hr, hkind⟩)
  · exact .inr (.inr (hreported.mono hs.signals))

theorem Concluding.extends (h : s.Concluding) (hs : s.Extends s') : s'.Concluding where
  sound := h.sound.extends hs
  fault := hs.fault.trans h.fault
  pending hresolver := by
    rcases hs.resolver with hsame | hrunning
    · exact (h.pending (hsame ▸ hresolver)).extends hs
    · exact .inl hrunning

theorem Pending.setRequests {requests : List TurnRequest}
    (hrequests : ∀ r ∈ s.requests, r.kind = .allocate →
    ∃ r' ∈ requests, r'.kind = .allocate) (h : s.Pending) : { s with requests }.Pending := by
  rcases h with hrunning | ⟨r, hr, hkind⟩ | hreported
  · exact .inl hrunning
  · exact .inr (.inl (hrequests r hr hkind))
  · exact .inr (.inr hreported)

/-! ### Answers -/

theorem reported_emit_ready (address : SocketAddress) : (s.emit (.addressReady address)).Reported :=
  .inr ⟨address, List.mem_append_right _ (List.mem_singleton_self _)⟩

theorem reported_emit_error : (s.emit .addressError).Reported :=
  .inl (List.mem_append_right _ (List.mem_singleton_self _))

theorem exists_sent {kind : TurnRequestKind} {delay : Int32} (h : s.sendRequest t kind delay id = some s') :
    (∀ r ∈ s.requests, r.id ≠ id) ∧ ∃ r ∈ s'.requests, r.kind = kind ∧ r.id = id := by
  obtain ⟨hnew, rfl⟩ := sendRequest_eq_some_iff.mp h
  exact ⟨hnew, _, List.mem_append_right _ (List.mem_singleton_self _), rfl, rfl⟩

theorem reported_allocateOnResponse (hcomplete : s.Complete .allocate true response)
    (h : s.allocateOnResponse t response id = some s') : s'.Reported := by
  obtain ⟨hmapped, hrelayed, hlifetime⟩ := hcomplete rfl
  obtain ⟨mapped, hmapped⟩ := Option.isSome_iff_exists.mp hmapped
  obtain ⟨relayed, hrelayed⟩ := Option.isSome_iff_exists.mp hrelayed
  obtain ⟨lifetime, hlifetime⟩ := Option.isSome_iff_exists.mp hlifetime
  rw [allocateOnResponse, hmapped, hrelayed, hlifetime] at h
  exact (reported_emit_ready relayed).mono (extends_scheduleRefresh h).signals

theorem allocateOnErrorResponse_concludes (hcomplete : s.Complete .allocate false response)
    (h : s.allocateOnErrorResponse crypto t response id = some s') :
    s'.Reported ∨
      (∀ r ∈ s.requests, r.id ≠ id) ∧ ∃ r ∈ s'.requests, r.kind = .allocate ∧ r.id = id := by
  obtain ⟨hcode, hchallenge⟩ := hcomplete rfl
  obtain ⟨code, hcode⟩ := Option.isSome_iff_exists.mp hcode
  rw [allocateOnErrorResponse, hcode] at h
  dsimp only at h
  split at h
  · rename_i hunauthorized
    rw [onAuthChallenge] at h
    split at h
    · cases h
      exact .inl reported_emit_error
    rename_i hhash
    obtain ⟨hrealm, hnonce⟩ := hchallenge rfl (hunauthorized ▸ hcode) (not_not.mp hhash)
    obtain ⟨realm, hrealm⟩ := Option.isSome_iff_exists.mp hrealm
    obtain ⟨nonce, hnonce⟩ := Option.isSome_iff_exists.mp hnonce
    rw [hrealm, hnonce] at h
    have hsame : ((s.setRealm crypto realm).setNonce nonce).requests = s.requests := by
      rw [setNonce, setRealm]
      split <;> rfl
    exact .inr (hsame ▸ exists_sent h)
  · cases h
    exact .inl reported_emit_error

variable {request : TurnRequest}

theorem pending_deleteRequest (hs : s.Sound) (hrequest : request ∈ s.requests)
    (hkind : request.kind ≠ .allocate) (h : s.Pending) : (s.deleteRequest request.id).Pending := by
  refine h.setRequests fun r hr hallocate =>
    ⟨r, List.mem_filter.mpr ⟨hr, decide_eq_true fun hid => ?_⟩, hallocate⟩
  exact hkind (List.inj_on_of_nodup_map hs.ids hr hrequest hid ▸ hallocate)

theorem pending_of_allocate {success : Bool} (hrequest : request ∈ s.requests)
    (hcomplete : s.Complete .allocate success response)
    (hdone : success = true ∧ s.onResponse t response id .allocate = some s' ∨
      success = false ∧ s.onErrorResponse crypto t response id .allocate = some s') :
    (s'.deleteRequest request.id).Pending := by
  rcases hdone with ⟨rfl, hdone⟩ | ⟨rfl, hdone⟩
  · have hreported : s'.Reported := reported_allocateOnResponse hcomplete hdone
    exact .inr (.inr hreported)
  · rcases allocateOnErrorResponse_concludes hcomplete hdone with hreported | ⟨hnew, r, hr, hkind, hid⟩
    · exact .inr (.inr hreported)
    · refine .inr (.inl ⟨r, List.mem_filter.mpr ⟨hr, decide_eq_true fun hsame => ?_⟩, hkind⟩)
      exact hnew request hrequest (hsame.symm.trans hid)

theorem Concluding.respond {success : Bool} (h : s.Concluding)
    (hrequest : request ∈ s.requests) (hcomplete : s.Complete request.kind success response)
    (hstep : s.respond crypto t response id request success = some s') :
    s'.Concluding ∧ (s.Pending → s'.Pending) := by
  obtain ⟨s₁, rfl, hdone, hs₁⟩ := respond_cases (h.sound.owned request hrequest) hstep
  have hextends : s.Extends s₁ := by
    rcases hs₁ with ⟨rfl, hcode, hreads, -⟩ | hextends
    · have hpresent := (hcomplete hreads).1
      rw [hcode] at hpresent
      cases hpresent
    · exact hextends
  have hconcluding := h.extends hextends
  have hpending : s₁.Pending → (s₁.deleteRequest request.id).Pending := fun hs₁ => by
    by_cases hkind : request.kind = .allocate
    · rw [hkind] at hcomplete hdone
      exact pending_of_allocate hrequest hcomplete hdone
    · exact pending_deleteRequest hconcluding.sound (hextends.requests request hrequest) hkind hs₁
  refine ⟨⟨hconcluding.sound.deleteRequest _, hconcluding.fault, fun hresolver => ?_⟩, fun hs => ?_⟩
  · exact hpending (hconcluding.pending hresolver)
  · exact hpending (hs.extends hextends)

/-! ### The other events -/

theorem isUnresolvedIP_setDefaultPort :
    s.setDefaultPort.serverAddress.isUnresolvedIP = s.serverAddress.isUnresolvedIP := by
  rw [setDefaultPort]
  split <;> rfl

theorem pending_prepareAddress (hresolver : s.serverAddress.isUnresolvedIP = true → s.resolver ≠ .done)
    (h : s.prepareAddress t id = some s') : s'.Pending := by
  rw [prepareAddress] at h
  split at h
  · cases h
    exact .inr (.inr reported_emit_error)
  dsimp only at h
  split at h
  · rename_i hunresolved
    rw [isUnresolvedIP_setDefaultPort] at hunresolved
    have hsame : s.setDefaultPort.resolver = s.resolver := by
      rw [setDefaultPort]
      split <;> rfl
    cases h
    refine .inl ?_
    rw [resolveTurnAddress, hsame]
    split
    · rfl
    rename_i hsome
    rw [hsame]
    cases hstate : s.resolver with
    | none => exact absurd hstate hsome
    | running => rfl
    | done => exact absurd hstate (hresolver hunresolved)
  · obtain ⟨-, r, hr, hkind, -⟩ := exists_sent h
    exact .inr (.inl ⟨r, hr, hkind⟩)

theorem pending_onResolveResult {error : ℤ} {addresses : List IPAddress}
    (hresolved : error = 0 → (resolvedAddress s.serverAddress addresses).isUnresolvedIP = false)
    (h : s.onResolveResult t error addresses id = some s') : s'.Pending := by
  rw [onResolveResult] at h
  split at h
  · cases h
    exact .inr (.inr reported_emit_error)
  · rename_i herror
    refine pending_prepareAddress (fun hunresolved => ?_) h
    exact absurd (hresolved (not_not.mp herror)) (ne_true_of_eq_false · hunresolved)

theorem pending_onMessage (hs : s.Sound)
    (htimeout : ∀ r ∈ s.requests, r.id = id → r.kind = .allocate → r.timeout = false)
    (hstep : s.onMessage t id = some s') (h : s.Pending) : s'.Pending := by
  obtain ⟨r, hr, hid, ⟨hgone, rfl⟩ | ⟨-, rfl⟩⟩ := onMessage_cases hstep
  · have hkind : r.kind ≠ .allocate := fun hkind => by
      rw [htimeout r hr hid hkind] at hgone
      cases hgone
    exact hid ▸ pending_deleteRequest hs hr hkind h
  refine h.setRequests fun r' hr' hallocate => ⟨_, List.mem_map_of_mem hr', ?_⟩
  split
  · rename_i hsame
    rw [List.inj_on_of_nodup_map hs.ids hr' hr (hsame.trans hid.symm)] at hallocate
    exact hallocate
  · exact hallocate

theorem pending_createConnection {protocol : String} {addr : TalkBase.SocketAddress}
    (hstep : s.createConnection t protocol addr id = some s') (h : s.Pending) : s'.Pending := by
  rcases createConnection_cases hstep with ⟨-, rfl⟩ | ⟨-, -, rfl⟩
  · exact h
  · rcases h with hrunning | ⟨r, hr, hkind⟩ | hreported
    · exact .inl hrunning
    · exact .inr (.inl ⟨r, List.mem_append_left _ hr, hkind⟩)
    · exact .inr (.inr hreported)

theorem pending_onConnectionDestroyed {conn : ℕ} (hstep : s.onConnectionDestroyed conn = some s')
    (h : s.Pending) : s'.Pending := by
  obtain ⟨addr, -, e, -, rfl⟩ := onConnectionDestroyed_cases hstep
  rcases h with hrunning | ⟨r, hr, hkind⟩ | hreported
  · exact .inl hrunning
  · refine .inr (.inl ⟨_, List.mem_map_of_mem hr, ?_⟩)
    rw [hkind]
    rfl
  · exact .inr (.inr hreported)

theorem Concluding.step {event : ℕ × TurnEvent} (h : s.Concluding) (hok : s.Conclusive crypto event)
    (hstep : s.step crypto event = some s') : s'.Concluding ∧ (s.Pending → s'.Pending) := by
  have hsound := h.sound.step hstep
  rw [TurnPort.step] at hstep
  split at hstep
  · cases hstep
  obtain ⟨t, event⟩ := event
  cases event with
  | prepareAddress id =>
    have hs := extends_prepareAddress hstep
    exact ⟨h.extends hs, .extends hs⟩
  | resolved error addresses id =>
    dsimp only at hstep
    split at hstep
    · have hpending := pending_onResolveResult hok hstep
      have hs := extends_onResolveResult hstep
      exact ⟨⟨hsound, hs.fault.trans h.fault, fun _ => hpending⟩, fun _ => hpending⟩
    · cases hstep
  | packet data beyond id =>
    rcases onReadPacket_cases hstep with
      rfl | ⟨hignores, request, success, response, hanswered, hrespond⟩
    · exact ⟨h, fun hs => hs⟩
    · exact h.respond (mem_of_answered hanswered) (hok hignores _ _ _ hanswered) hrespond
  | timer id =>
    have hpending := pending_onMessage h.sound hok hstep
    obtain ⟨r, -, -, ⟨-, rfl⟩ | ⟨-, rfl⟩⟩ := onMessage_cases hstep <;>
      exact ⟨⟨hsound, h.fault, fun hresolver => hpending (h.pending hresolver)⟩, hpending⟩
  | createConnection protocol addr id =>
    have hpending := pending_createConnection hstep
    rcases createConnection_cases hstep with ⟨-, rfl⟩ | ⟨-, -, rfl⟩
    · exact ⟨h, fun hs => hs⟩
    · exact ⟨⟨hsound, h.fault, fun hresolver => hpending (h.pending hresolver)⟩, hpending⟩
  | connectionDestroyed conn =>
    have hpending := pending_onConnectionDestroyed hstep
    obtain ⟨addr, -, e, -, rfl⟩ := onConnectionDestroyed_cases hstep
    exact ⟨⟨hsound, h.fault, fun hresolver => hpending (h.pending hresolver)⟩, hpending⟩
  | sendTo addr payload id =>
    have hs := extends_sendTo hstep
    exact ⟨h.extends hs, .extends hs⟩

theorem concluding_new (ip : IPAddress) (username password : List UInt8) (server : TalkBase.SocketAddress) :
    (new ip username password server).Concluding :=
  ⟨sound_new ip username password server, rfl, fun h => absurd rfl h⟩

/-- **A TURN allocation concludes.** In every run of a port that prepares its address, with conclusive events
only, no absent attribute is used, and the port has said what came out unless something is outstanding. -/
theorem concluded_of_run (crypto : TurnCrypto) (ip : IPAddress) (username password : List UInt8)
    (server : TalkBase.SocketAddress) (before after : List (ℕ × TurnEvent)) (t : ℕ) (id : List UInt8)
    {s : TurnPort}
    (hrun : Runs.run (step crypto) (new ip username password server)
      (before ++ (t, .prepareAddress id) :: after) = some s)
    (hok : Runs.Admissible (step crypto) (Conclusive crypto) (new ip username password server)
      (before ++ (t, .prepareAddress id) :: after)) : s.Concluded := by
  rw [Runs.run_append] at hrun
  obtain ⟨s₁, hs₁, hrest⟩ := Option.bind_eq_some_iff.mp hrun
  obtain ⟨hbefore, hafter⟩ := Runs.admissible_append hok
  have hconcluding : s₁.Concluding :=
    Runs.invariant (fun _ _ _ h hok hstep => (h.step hok hstep).1)
      (concluding_new ip username password server) hbefore hs₁
  obtain ⟨s₂, hs₂, hlast⟩ := Runs.run_cons hrest
  obtain ⟨hok₂, hadmissible⟩ := hafter s₁ hs₁
  have hprepare : s₁.prepareAddress t id = some s₂ := by
    rw [TurnPort.step] at hs₂
    split at hs₂
    · cases hs₂
    · exact hs₂
  have hpending : s₂.Pending := by
    by_cases hresolver : s₁.resolver = .none
    · refine pending_prepareAddress (fun _ hdone => ?_) hprepare
      rw [hresolver] at hdone
      cases hdone
    · exact (hconcluding.pending hresolver).extends (extends_prepareAddress hprepare)
  have hinvariant := Runs.invariant (P := fun s : TurnPort => s.Concluding ∧ s.Pending)
    (fun _ _ _ h hok hstep => ⟨(h.1.step hok hstep).1, (h.1.step hok hstep).2 h.2⟩)
    ⟨(hconcluding.step hok₂ hs₂).1, hpending⟩ (hadmissible s₂ hs₂) hlast
  exact concluded_of_pending hinvariant.1.fault hinvariant.2

/-- The answer to a request without credentials: error 401, with a realm and a nonce. -/
def challenge : List UInt8 :=
  [0x01, 0x13, 0, 24, 0x21, 0x12, 0xA4, 0x42] ++ sampleId ++ [0, 0x09, 0, 4, 0, 0, 4, 1] ++
    [0, 0x14, 0, 1, 114, 0, 0, 0] ++ [0, 0x15, 0, 1, 110, 0, 0, 0]

/-- The header of the answer to the next request, which `sampleCrypto` signs with itself. -/
def allocatedHeader : List UInt8 := [0x01, 0x03, 0, 56, 0x21, 0x12, 0xA4, 0x42] ++ List.replicate 12 8

/-- The answer: two addresses, a lifetime and the signature. -/
def allocated : List UInt8 :=
  allocatedHeader ++ [0, 0x16, 0, 8, 0, 1, 1, 2, 3, 4, 5, 6] ++ [0, 0x20, 0, 8, 0, 1, 1, 2, 3, 4, 5, 7] ++
    [0, 0x0d, 0, 4, 0, 0, 2, 88] ++ [0, 0x08, 0, 20] ++ allocatedHeader

/-- The answers to both requests. -/
def allocationEvents : List (ℕ × TurnEvent) :=
  [(10, .packet challenge (fun _ => 0) (List.replicate 12 8)), (20, .packet allocated (fun _ => 0) [1])]

theorem conclusive_packet {data : List UInt8} {beyond : ℕ → UInt8}
    (h : (s.answered data).all (fun (_, success, response) =>
      if success then (response.getXorAddress 0x0020).isSome && (response.getXorAddress 0x0016).isSome &&
        (response.getUInt32 0x000d).isSome
      else response.getErrorCode.isSome && (response.getByteString 0x0014).isSome &&
        (response.getByteString 0x0015).isSome) = true) :
    s.Conclusive crypto (t, .packet data beyond id) := by
  rintro - request success response hanswered
  rw [hanswered] at h
  cases success with
  | true =>
    have hpresent := h
    simp only [Option.all_some, if_true, Bool.and_eq_true] at hpresent
    exact fun _ => ⟨hpresent.1.1, hpresent.1.2, hpresent.2⟩
  | false =>
    have hpresent := h
    simp only [Option.all_some, Bool.false_eq_true, if_false, Bool.and_eq_true] at hpresent
    exact fun _ => ⟨hpresent.1.1, fun _ _ _ => ⟨hpresent.1.2, hpresent.2⟩⟩

/-- The port is challenged, asks again with credentials and has an address. -/
theorem concluded_of_run_allocated :
    ∃ s, Runs.run (step sampleCrypto) samplePort
        ([] ++ (0, .prepareAddress sampleId) :: allocationEvents) = some s ∧
      s.hash ≠ [] ∧ s.resolver ≠ .running ∧ (∀ r ∈ s.requests, r.kind ≠ .allocate) ∧ s.Concluded := by
  have hdone : (Runs.run (step sampleCrypto) samplePort
      ([] ++ (0, .prepareAddress sampleId) :: allocationEvents)).any (fun s =>
        s.hash ≠ [] ∧ s.resolver ≠ .running ∧ ∀ r ∈ s.requests, r.kind ≠ .allocate) = true := by
    decide +kernel
  obtain ⟨s, hs, hdone⟩ := (Option.any_eq_true _ _).mp hdone
  obtain ⟨hhash, hresolver, hrequests⟩ := of_decide_eq_true hdone
  refine ⟨s, hs, hhash, hresolver, hrequests, ?_⟩
  refine concluded_of_run sampleCrypto samplePort.ip samplePort.username samplePort.password
    samplePort.serverAddress [] allocationEvents 0 sampleId hs
      ⟨trivial, fun s₁ hs₁ => ⟨conclusive_packet ?_, fun s₂ hs₂ => ⟨conclusive_packet ?_, fun _ _ => trivial⟩⟩⟩
  · cases hs₁
    decide +kernel
  · cases hs₁
    cases hs₂
    decide +kernel

/-- An error without an error code, to the allocate request. -/
def bareError : List UInt8 := [0x01, 0x13, 0, 0, 0x21, 0x12, 0xA4, 0x42] ++ sampleId

/-- The times at which a request is sent, and times out. -/
def sendTimes : List ℕ := [0, 100, 300, 700, 1500, 3100, 4700, 6300, 7900, 9500]

/-- A bare error is a fault, and a request that times out ends the allocation without a signal. -/
theorem not_concluded : (∃ s, Runs.run (step sampleCrypto) samplePort
      [(0, .prepareAddress sampleId), (10, .packet bareError (fun _ => 0) [1])] = some s ∧ ¬s.Concluded) ∧
    ∃ s, Runs.run (step sampleCrypto) samplePort
      ((0, .prepareAddress sampleId) :: sendTimes.map fun t => (t, .timer sampleId)) = some s ∧
        ¬s.Concluded := by
  constructor
  · exact ⟨_, rfl, fun h => absurd h.1 (by decide)⟩
  · refine ⟨_, rfl, fun h => ?_⟩
    rcases h.2 (by decide) (List.forall_mem_nil _) with herror | ⟨address, hready⟩
    · cases herror
    · cases hready

end TurnPort

end Synciga.P2p
