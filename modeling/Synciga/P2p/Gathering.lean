import Synciga.P2p.PortAllocation

/-!
# Announcing candidates

Two things make `BasicPortAllocatorSession` announce candidates (`talk/p2p/client/basicportallocator.cc`): a
candidate becomes ready whose protocol is enabled in the sequence of its port, or a protocol gets enabled. A
candidate is the number of its port, and its place among those of the port.

## Main definitions

* `Gathering.step` — ports, candidates and protocols are added, in any order

## Main results

* `Gathering.once_of_run` — each candidate is announced once
* `Gathering.traced_of_run` — the ports of an `AllocatorSession` come about in this way
-/

namespace Synciga.P2p

/-- `cricket::ProtocolType`. -/
inductive ProtocolType
  | udp
  | tcp
  | sslTcp
  deriving DecidableEq

/-- `PROTO_NAMES` -/
def protoName : ProtocolType → List UInt8
  | .udp => [117, 100, 112]
  | .tcp => [116, 99, 112]
  | .sslTcp => [115, 115, 108, 116, 99, 112]

/-- `StringToProto`. `_stricmp` ignores the case of letters. -/
def stringToProto (value : List UInt8) : Option ProtocolType :=
  [ProtocolType.udp, .tcp, .sslTcp].find? fun proto =>
    protoName proto = value.map fun b => if 65 ≤ b ∧ b ≤ 90 then b + 32 else b

/-- A port with its `PortData`. -/
structure GatheringPort where
  sequence : ℕ
  state : PortDataState := .init
  /-- The protocols of its candidates. -/
  candidates : List (List UInt8) := []

/-- `PortData::complete`. -/
def GatheringPort.complete (port : GatheringPort) : Bool := port.state = .ready || port.state = .error

/-- The session, as far as candidates go. -/
structure Gathering where
  ports : List GatheringPort := []
  /-- The protocols that are enabled in each sequence. -/
  protocols : ℕ → List ProtocolType := fun _ => []
  /-- What `SignalCandidatesReady` was raised with. -/
  announced : List (List (ℕ × ℕ)) := []

namespace Gathering

/-- What happens on ports, and in the phases. -/
inductive Move
  | addAllocatedPort (sequence : ℕ)
  | addAddress (port : ℕ) (protocol : List UInt8) (final : Bool)
  | addressReady (port : ℕ)
  | addressError (port : ℕ)
  | enableProtocol (sequence : ℕ) (proto : ProtocolType)

/-- The sequence and the protocol of a candidate. -/
def protoOf (ports : List GatheringPort) (c : ℕ × ℕ) : Option (ℕ × ProtocolType) :=
  ports[c.1]?.bind fun port => port.candidates[c.2]?.bind fun protocol =>
    (stringToProto protocol).map fun proto => (port.sequence, proto)

/-- `Candidates` of all ports. -/
def candidates (ports : List GatheringPort) : List (ℕ × ℕ) :=
  (List.range ports.length).flatMap fun p =>
    (List.range (ports[p]?.elim 0 fun port => port.candidates.length)).map fun i => (p, i)

variable (s : Gathering)

/-- `ProtocolEnabled`, for a candidate. -/
def enabled (c : ℕ × ℕ) : Bool := (protoOf s.ports c).any fun e => e.2 ∈ s.protocols e.1

/-- `candidates_.push_back` of a port. -/
def pushCandidate (p : ℕ) (protocol : List UInt8) : Gathering :=
  { s with ports := s.ports.modify p fun port => { port with candidates := port.candidates ++ [protocol] } }

/-- `SignalCandidatesReady`, if there are any. -/
def signal (candidates : List (ℕ × ℕ)) : Gathering :=
  if candidates = [] then s else { s with announced := s.announced ++ [candidates] }

/-- `OnCandidateReady` of a port that is not complete announces the candidate if its protocol is enabled. -/
def onCandidateReady (port : GatheringPort) (c : ℕ × ℕ) : Gathering :=
  if port.complete then s else s.signal (if s.enabled c then [c] else [])

/-- `OnPortReady` and `OnAddressError`. -/
def setComplete (p : ℕ) (state : PortDataState) : Gathering :=
  { s with ports := s.ports.modify p fun port => if port.complete then port else { port with state } }

/-- `OnProtocolEnabled` -/
def onProtocolEnabled (sequence : ℕ) (proto : ProtocolType) : Gathering :=
  s.signal ((candidates s.ports).filter fun c => protoOf s.ports c = some (sequence, proto))

/-- One thing happens, if the port is there. -/
def step (s : Gathering) : Move → Option Gathering
  | .addAllocatedPort sequence => some { s with ports := s.ports ++ [{ sequence }] }
  | .addAddress p protocol final => do
    let port ← s.ports[p]?
    let s := (s.pushCandidate p protocol).onCandidateReady port (p, port.candidates.length)
    return if final then s.setComplete p .ready else s
  | .addressReady p => some (s.setComplete p .ready)
  | .addressError p => some (s.setComplete p .error)
  | .enableProtocol sequence proto =>
    if proto ∈ s.protocols sequence then some s
    else
      let s := { s with protocols := Function.update s.protocols sequence (s.protocols sequence ++ [proto]) }
      some (s.onProtocolEnabled sequence proto)

/-- Candidates become ready while their port is not complete. -/
def gathers (s : Gathering) : Move → Bool
  | .addAddress p _ _ => (s.ports[p]?).all fun port => !port.complete
  | _ => true

/-! ### Each candidate once -/

/-- A candidate was announced once if its protocol is enabled, and else not at all. -/
def Once (s : Gathering) : Prop :=
  ∀ c, s.announced.flatten.count c = if s.enabled c then 1 else 0

variable {s} {t : Gathering} {move : Move}

theorem Once.of_same (h : s.Once) (hproto : ∀ c, protoOf t.ports c = protoOf s.ports c)
    (hprotocols : t.protocols = s.protocols) (hannounced : t.announced = s.announced) : t.Once := by
  intro c
  rw [hannounced, h c, enabled, enabled, hproto, hprotocols]

theorem flatten_signal (s : Gathering) (candidates : List (ℕ × ℕ)) :
    (s.signal candidates).announced.flatten = s.announced.flatten ++ candidates := by
  rw [signal]
  split
  case isTrue hnil => rw [hnil, List.append_nil]
  case isFalse => simp

theorem enabled_signal (s : Gathering) (candidates : List (ℕ × ℕ)) (c : ℕ × ℕ) :
    (s.signal candidates).enabled c = s.enabled c := by
  rw [signal]
  split <;> rfl

theorem once_setComplete (h : s.Once) (p : ℕ) (state : PortDataState) : (s.setComplete p state).Once := by
  refine h.of_same (fun c => ?_) rfl rfl
  rw [protoOf, protoOf, setComplete, List.getElem?_modify]
  rcases s.ports[c.1]? with _ | port
  · rfl
  by_cases hp : p = c.1
  · cases hcomplete : port.complete <;> simp [hp, hcomplete]
  · simp [hp]

theorem enabled_pushCandidate {p : ℕ} {port : GatheringPort} (hport : s.ports[p]? = some port)
    (protocol : List UInt8) {c : ℕ × ℕ} (hc : c ≠ (p, port.candidates.length)) :
    (s.pushCandidate p protocol).enabled c = s.enabled c := by
  obtain ⟨q, i⟩ := c
  rw [enabled, enabled, protoOf, protoOf, pushCandidate, List.getElem?_modify]
  by_cases hq : p = q
  · have hi : i ≠ port.candidates.length := fun hi => hc (by rw [hq, hi])
    have hsame : (port.candidates ++ [protocol])[i]? = port.candidates[i]? := by grind
    simp [← hq, hport, hsame]
  · simp [hq]

theorem once_addAddress (h : s.Once) {p : ℕ} {port : GatheringPort} (hport : s.ports[p]? = some port)
    (hcomplete : port.complete = false) (protocol : List UInt8) :
    ((s.pushCandidate p protocol).onCandidateReady port (p, port.candidates.length)).Once := by
  intro c
  rw [onCandidateReady, hcomplete, if_neg Bool.false_ne_true, enabled_signal, flatten_signal,
    List.count_append, pushCandidate, h c, ← pushCandidate]
  by_cases hc : c = (p, port.candidates.length)
  · have hnone : s.enabled c = false := by simp [enabled, protoOf, hport, hc]
    rw [hnone, hc]
    cases (s.pushCandidate p protocol).enabled (p, port.candidates.length) <;> simp
  · rw [enabled_pushCandidate hport protocol hc]
    cases (s.pushCandidate p protocol).enabled (p, port.candidates.length) <;> simp [Ne.symm hc]

theorem nodup_candidates (ports : List GatheringPort) : (candidates ports).Nodup := by
  rw [candidates, List.nodup_flatMap]
  refine ⟨fun p _ => List.nodup_range.map fun _ _ heq => (Prod.mk.inj heq).2, ?_⟩
  refine List.nodup_range.imp fun {p q} hne c hp hq => ?_
  obtain ⟨i, -, rfl⟩ := List.mem_map.mp hp
  obtain ⟨j, -, heq⟩ := List.mem_map.mp hq
  exact hne (Prod.mk.inj heq).1.symm

theorem count_candidates (ports : List GatheringPort) (e : ℕ × ProtocolType) (c : ℕ × ℕ) :
    ((candidates ports).filter fun c => protoOf ports c = some e).count c =
      if protoOf ports c = some e then 1 else 0 := by
  split
  case isTrue hc =>
    refine List.count_eq_one_of_mem ((nodup_candidates ports).filter _)
      (List.mem_filter.mpr ⟨?_, decide_eq_true hc⟩)
    obtain ⟨port, hport, hc⟩ := Option.bind_eq_some_iff.mp hc
    obtain ⟨protocol, hprotocol, -⟩ := Option.bind_eq_some_iff.mp hc
    have hp := (List.getElem?_eq_some_iff.mp hport).1
    have hi := (List.getElem?_eq_some_iff.mp hprotocol).1
    refine List.mem_flatMap.mpr ⟨c.1, List.mem_range.mpr hp, List.mem_map.mpr ⟨c.2, ?_, rfl⟩⟩
    rw [hport]
    exact List.mem_range.mpr hi
  case isFalse hc =>
    exact List.count_eq_zero_of_not_mem fun hmem => hc (of_decide_eq_true (List.mem_filter.mp hmem).2)

theorem once_enableProtocol (h : s.Once) {sequence : ℕ} {proto : ProtocolType}
    (hnew : proto ∉ s.protocols sequence) :
    (onProtocolEnabled { s with
      protocols := Function.update s.protocols sequence (s.protocols sequence ++ [proto]) }
      sequence proto).Once := by
  intro c
  rw [onProtocolEnabled, enabled_signal, flatten_signal, List.count_append, count_candidates, h c, enabled,
    enabled]
  dsimp only
  rcases protoOf s.ports c with _ | ⟨q, other⟩
  · rfl
  by_cases hq : q = sequence
  · by_cases hother : other = proto
    · simp [hq, hother, hnew]
    · simp [hq, hother]
  · simp [hq]

theorem Once.step (h : s.Once) (hgathers : s.gathers move = true) (hstep : s.step move = some t) :
    t.Once := by
  cases move with
  | addAllocatedPort sequence =>
    cases hstep
    refine h.of_same (fun c => ?_) rfl rfl
    rw [protoOf, protoOf, List.getElem?_append]
    split
    · rfl
    · rename_i hc
      rw [List.getElem?_eq_none (Nat.not_lt.mp hc)]
      cases c.1 - s.ports.length <;> simp
  | addAddress p protocol final =>
    obtain ⟨port, hport, hstep⟩ := Option.bind_eq_some_iff.mp hstep
    rw [gathers, hport, Option.all_some, Bool.not_eq_true'] at hgathers
    have hready := once_addAddress h hport hgathers protocol
    cases hstep
    split
    · exact once_setComplete hready _ _
    · exact hready
  | addressReady p =>
    cases hstep
    exact once_setComplete h _ _
  | addressError p =>
    cases hstep
    exact once_setComplete h _ _
  | enableProtocol sequence proto =>
    rw [Gathering.step] at hstep
    split at hstep
    · cases hstep
      exact h
    · rename_i hnew
      cases hstep
      exact once_enableProtocol h hnew

/-- **Candidates are announced once.** A candidate of a protocol that is enabled in the sequence of its port was
announced once, and any other was not. -/
theorem once_of_run (moves : List Move) (s : Gathering) (hrun : Runs.run step {} moves = some s)
    (hok : Runs.Admissible step (fun s move => s.gathers move = true) {} moves) (p i : ℕ)
    (port : GatheringPort) (hport : s.ports[p]? = some port) (protocol : List UInt8)
    (hcandidate : port.candidates[i]? = some protocol) :
    s.announced.flatten.count (p, i) =
      if (stringToProto protocol).any fun proto => proto ∈ s.protocols port.sequence then 1 else 0 := by
  have honce : s.Once := Runs.invariant (fun _ _ _ => Once.step) (fun _ => rfl) hok hrun
  rw [honce, enabled, protoOf, hport, Option.bind_some, hcandidate, Option.bind_some, Option.any_map]

/-- A candidate before its protocol is enabled, and one behind it. -/
theorem announced_twoCandidates :
    ∃ s, Runs.run step {} [.addAllocatedPort 0, .addAddress 0 [117, 100, 112] false, .enableProtocol 0 .udp,
        .addAddress 0 [85, 68, 80] true] = some s ∧ s.announced.flatten.count (0, 1) = 1 := by
  refine ⟨_, rfl, ?_⟩
  exact once_of_run [.addAllocatedPort 0, .addAddress 0 [117, 100, 112] false, .enableProtocol 0 .udp,
    .addAddress 0 [85, 68, 80] true] _ rfl (by decide) 0 1 _ rfl _ rfl

/-! ### The ports of an allocation -/

open AllocatorSession

variable {a b : AllocatorSession}

/-- The ports, with the numbers that `AddAllocatedPort` gives them. -/
def portData (s : Gathering) : List PortData := s.ports.mapIdx fun i port => ⟨i, port.state⟩

/-- The ports of an `AllocatorSession` come about by moves. -/
def Traced (a : AllocatorSession) : Prop :=
  ∃ moves s, Runs.run step {} moves = some s ∧ a.ports = s.portData ∧ a.nextPort = s.ports.length

theorem Traced.of_same (h : Traced a) (hports : b.ports = a.ports) (hnext : b.nextPort = a.nextPort) :
    Traced b := by
  obtain ⟨moves, s, hrun, hs⟩ := h
  exact ⟨moves, s, hrun, by rwa [hports, hnext]⟩

theorem Traced.snoc (h : Traced a) (move : Move)
    (hmove : ∀ s : Gathering, a.ports = s.portData → a.nextPort = s.ports.length →
      ∃ t, s.step move = some t ∧ b.ports = t.portData ∧ b.nextPort = t.ports.length) : Traced b := by
  obtain ⟨moves, s, hrun, hports, hnext⟩ := h
  obtain ⟨t, hstep, ht⟩ := hmove s hports hnext
  refine ⟨moves ++ [move], t, ?_, ht⟩
  rw [Runs.run_append, hrun, Option.bind_some, Runs.run, hstep]
  rfl

theorem findPort_eq (hports : a.ports = s.portData) (p : ℕ) :
    a.findPort p = s.ports[p]?.map fun port => ⟨p, port.state⟩ := by
  rw [findPort, hports, portData]
  cases hport : s.ports[p]? with
  | none => grind
  | some port =>
    obtain ⟨hp, hport⟩ := List.getElem?_eq_some_iff.mp hport
    refine List.find?_eq_some_iff_getElem.mpr ⟨by simp, p, by simpa using hp, by simp [hport], fun j hj => ?_⟩
    simpa using hj.ne

/-- `OnPortReady` and `OnAddressError` set the state of a port that is not complete, as `setComplete` does. -/
theorem portData_setComplete (hports : a.ports = s.portData) (p : ℕ) (state : PortDataState) :
    (s.setComplete p state).portData =
      if (a.findPort p).any (!·.complete) then (a.setPort p state).ports else a.ports := by
  rw [findPort_eq hports, Option.any_map, setPort, hports, portData, portData, setComplete]
  refine List.ext_getElem? fun i => ?_
  rw [List.getElem?_mapIdx, List.getElem?_modify, apply_ite (fun l : List PortData => l[i]?), List.getElem?_map,
    List.getElem?_mapIdx]
  by_cases hi : p = i
  · rcases hport : s.ports[p]? with _ | ⟨sequence, _ | _ | _, protocols⟩ <;>
      simp [← hi, hport, GatheringPort.complete, PortData.complete]
  · simp [hi, Ne.symm hi, Function.comp_def]

theorem traced_maybeSignal (h : Traced a) : Traced a.maybeSignalCandidatesAllocationDone := by
  unfold maybeSignalCandidatesAllocationDone
  repeat' split
  all_goals exact h

theorem traced_setPort (h : Traced a) {p : ℕ} {data : PortData} (hport : a.findPort p = some data)
    (hdata : data.complete = false) {state : PortDataState} (move : Move)
    (hmove : ∀ s : Gathering, s.step move = some (s.setComplete p state)) : Traced (a.setPort p state) := by
  refine h.snoc move fun s hports hnext => ⟨_, hmove s, ?_, ?_⟩
  · rw [portData_setComplete hports, hport, Option.any_some, hdata, Bool.not_false, if_pos rfl]
  · rw [setComplete, List.length_modify, ← hnext, setPort]

theorem traced_onPortReady (h : Traced a) (p : ℕ) : Traced (a.onPortReady p) := by
  rw [onPortReady]
  split
  · exact h
  · rename_i hport
    split
    · exact h
    · rename_i hdata
      have hset := traced_setPort h hport (eq_false_of_ne_true hdata) (.addressReady p) fun _ => rfl
      exact traced_maybeSignal (hset.of_same rfl rfl)

theorem traced_onAddressError (h : Traced a) (p : ℕ) : Traced (a.onAddressError p) := by
  rw [onAddressError]
  split
  · exact h
  · rename_i hport
    split
    · exact h
    · rename_i hdata
      exact traced_maybeSignal
        (traced_setPort h hport (eq_false_of_ne_true hdata) (.addressError p) fun _ => rfl)

theorem traced_addAllocatedPort (h : Traced a) (outcome : PortOutcome) : Traced (a.addAllocatedPort outcome) := by
  have hadded : Traced { a with ports := a.ports ++ [⟨a.nextPort, .init⟩], nextPort := a.nextPort + 1 } := by
    refine h.snoc (.addAllocatedPort 0) fun s hports hnext => ⟨_, rfl, ?_, ?_⟩
    · simp [portData, hports, hnext]
    · simp [hnext]
  cases outcome with
  | notCreated => exact h
  | pending => exact hadded
  | ready => exact traced_onPortReady hadded _
  | error => exact traced_onAddressError hadded _

theorem traced_createRelayPorts (h : Traced a) (creates : Creation) (q : AllocationSequence) :
    Traced (a.createRelayPorts creates q) := by
  rw [createRelayPorts]
  split
  · exact h
  split
  · exact h
  refine List.foldlRecOn _ _ h fun a ha relay _ => ?_
  obtain ⟨_ | udp, i⟩ := relay
  · exact traced_addAllocatedPort ha _
  · refine List.foldlRecOn _ _ ha fun a ha port _ => ?_
    split
    · exact traced_addAllocatedPort ha _
    · exact ha

theorem traced_performPhase (h : Traced a) (creates : Creation) (place : Option ℕ) (q : AllocationSequence)
    (phase : AllocationPhase) : Traced (performPhase creates place (q, a) phase).2 := by
  have hite : ∀ {c : Prop} [Decidable c] {a b : AllocatorSession}, Traced a → Traced b →
      Traced (if c then a else b) := fun ha hb => iteInduction (fun _ => ha) fun _ => hb
  cases phase with
  | udp =>
    have hudp : Traced (a.createUDPPorts creates { q with performed := q.performed ++ [.udp] }) :=
      hite h (hite h (traced_addAllocatedPort h _))
    exact hite hudp (hite hudp (hite hudp (traced_addAllocatedPort hudp _)))
  | relay => exact traced_createRelayPorts h _ _
  | tcp => exact hite h (traced_addAllocatedPort h _)
  | sslTcp =>
    have hput : ∀ q, Traced (a.put place q) := by
      cases place <;> exact fun _ => h.of_same rfl rfl
    exact hite (traced_maybeSignal (hput _)) (hput _)

theorem traced_onPhase (h : Traced a) (creates : Creation) (place : Option ℕ) (q : AllocationSequence) :
    Traced (onPhase creates place q a).2 := by
  have hphases : Traced (AllocationPhase.all.foldl (phaseRound creates place) (q, a)).2 := by
    refine List.foldlRecOn (motive := fun state : _ × AllocatorSession => Traced state.2) _ _ h
      fun state hstate phase _ => ?_
    rw [phaseRound]
    split
    · exact traced_performPhase hstate _ _ _ _
    · exact hstate
  rw [onPhase]
  generalize AllocationPhase.all.foldl _ _ = state at hphases
  cases place <;> exact hphases.of_same rfl rfl

theorem traced_doAllocate (h : Traced a) (creates : ℕ → Creation) : Traced (a.doAllocate creates) := by
  have hrounds : Traced (a.networks.zipIdx.foldl (allocateRound creates) (a, false)).1 := by
    refine List.foldlRecOn (motive := fun state : AllocatorSession × Bool => Traced state.1) _ _ h
      fun state hstate network _ => ?_
    rw [allocateRound]
    split
    · exact hstate
    split
    · exact hstate
    · rename_i hinit
      obtain ⟨-, hinit⟩ := Option.ite_none_left_eq_some.mp hinit
      have hphase := traced_onPhase hstate (creates network.2) none
        (.new network.1 state.1.configs.getLast? ‹_› state.1.best)
      rw [Option.some.inj hinit] at hphase
      exact hphase.of_same rfl rfl
  rw [doAllocate]
  split
  rename_i hfold
  have hdone : Traced ‹AllocatorSession› := by
    split at hfold
    · cases hfold
      exact h
    · rwa [hfold] at hrounds
  split
  · exact hdone.of_same rfl rfl
  · exact hdone

/-- What the session does without a port that is destroyed or stopped. -/
def keepsPorts : AllocationOp → Bool
  | .portDestroyed _ | .configStop => false
  | _ => true

theorem traced_step {op : AllocationOp} (hkeeps : keepsPorts op = true) (h : Traced a)
    (hstep : a.step op = some b) : Traced b := by
  cases op with
  | portDestroyed | configStop => cases hkeeps
  | getInitialPorts | startGetAllPorts | stopGetAllPorts | setNetworks | setBest =>
    cases hstep
    exact h.of_same rfl rfl
  | networksChanged creates =>
    cases hstep
    have hstarted : Traced { a with networkManagerStarted := true } := h.of_same rfl rfl
    exact iteInduction (fun _ => traced_doAllocate hstarted creates) fun _ => hstarted
  | configStart | sequencesCreated =>
    obtain ⟨-, hstep⟩ := Option.ite_none_left_eq_some.mp hstep
    cases hstep
    first
    | exact h.of_same rfl rfl
    | exact traced_maybeSignal (h.of_same rfl rfl)
  | configReady =>
    rw [AllocatorSession.step] at hstep
    split at hstep
    · cases hstep
    · cases hstep
      exact h.of_same rfl rfl
  | allocate creates =>
    obtain ⟨-, hstep⟩ := Option.ite_none_left_eq_some.mp hstep
    cases hstep
    have hhandled : Traced { a with allocates := a.allocates - 1 } := h.of_same rfl rfl
    have hdone : Traced (if a.networkManagerStarted then
        doAllocate creates { a with allocates := a.allocates - 1 }
        else { a with allocates := a.allocates - 1 }) :=
      iteInduction (fun _ => traced_doAllocate hhandled creates) fun _ => hhandled
    exact hdone.of_same rfl rfl
  | phase place creates =>
    rw [AllocatorSession.step] at hstep
    split at hstep
    · cases hstep
    · obtain ⟨-, hstep⟩ := Option.ite_none_left_eq_some.mp hstep
      cases hstep
      exact traced_onPhase h _ _ _
  | portReady port =>
    obtain ⟨-, hstep⟩ := Runs.of_guard hstep
    cases hstep
    exact traced_onPortReady h _
  | addressError port =>
    obtain ⟨-, hstep⟩ := Runs.of_guard hstep
    cases hstep
    exact traced_onAddressError h _

/-- **The ports are those of the allocation.** As long as no port is destroyed or stopped, all that a session
does with its ports are moves. -/
theorem traced_of_run {flags : AllocatorFlags} {stunAddress : ServerAddress} {relays : List RelayServerConfig}
    {best : Int} {ops : List AllocationOp}
    (hok : Runs.Admissible AllocatorSession.step (fun _ op => keepsPorts op = true)
      (.create flags stunAddress relays best) ops)
    (hrun : Runs.run AllocatorSession.step (.create flags stunAddress relays best) ops = some a) : Traced a :=
  Runs.invariant (fun _ _ _ h hkeeps => traced_step hkeeps h) ⟨[], {}, rfl, rfl, rfl⟩ hok hrun

end Gathering

end Synciga.P2p
