import Synciga.P2p.PortAllocation

/-!
# When the allocation is done

`Start` makes a sequence run whatever its state was. One that has performed its last phase then runs on for
ever, and the session never signals that it is done. `Handled` leaves this out, and with it the end of the last
port that the session waits for.

## Main definitions

* `InOrder` — a sequence has performed the phases of its earlier steps
* `Progress` — what a step may do

## Main results

* `allocation_of_run` — phases are performed in order, and the end is signalled
* `not_allocation` — a sequence that runs for ever
-/

namespace Synciga

/-! ### A list in steps -/

section Steps

variable {α : Type*} {f : α → Nat}

theorem filter_lt_append_filter_eq {l : List α} (hl : l.Pairwise fun x y => f x ≤ f y) (n : Nat) :
    (l.filter fun x => f x < n) ++ (l.filter fun x => f x = n) = l.filter fun x => f x < n + 1 := by
  induction hl with
  | nil => rfl
  | @cons x l hx hl ih =>
    rcases Nat.lt_trichotomy (f x) n with hlt | heq | hgt
    · have hne : f x ≠ n := by omega
      have hlt' : f x < n + 1 := by omega
      simp only [List.filter_cons, decide_eq_true hlt, decide_eq_false hne, decide_eq_true hlt',
        Bool.false_eq_true, if_true, if_false, List.cons_append, ih]
    · have hnone : (l.filter fun x => f x < n) = [] := by
        rw [List.filter_eq_nil_iff]
        intro y hy
        have := hx y hy
        simp only [decide_eq_true_eq]
        omega
      rw [hnone, List.nil_append] at ih
      simp [heq, hnone, ih]
    have hnone : (l.filter fun x => f x < n + 1) = [] := by
      rw [List.filter_eq_nil_iff]
      intro y hy
      have := hx y hy
      simp only [decide_eq_true_eq]
      omega
    rw [hnone, List.append_eq_nil_iff] at ih
    have hnlt : ¬f x < n := by omega
    have hne : f x ≠ n := by omega
    have hnlt' : ¬f x < n + 1 := by omega
    simp only [List.filter_cons, decide_eq_false hnlt, decide_eq_false hne, decide_eq_false hnlt',
      Bool.false_eq_true, if_false, ih.1, ih.2, hnone, List.nil_append]

theorem filter_lt_prefix {l : List α} (hl : l.Pairwise fun x y => f x ≤ f y) (n : Nat) :
    (l.filter fun x => f x < n) <+: l := by
  induction hl with
  | nil => exact List.prefix_refl _
  | @cons x l hx hl ih =>
    by_cases hlt : f x < n
    · simpa [hlt] using ih
    have hnone : (l.filter fun x => f x < n) = [] := by
      rw [List.filter_eq_nil_iff]
      intro y hy
      have := hx y hy
      simp only [decide_eq_true_eq]
      omega
    simp [hlt, hnone]

end Steps

namespace AllocationSequence

variable {q : AllocationSequence}

/-! ### The phases of a sequence -/

/-- The phases of the earlier steps have been performed, and no others. -/
def InOrder (q : AllocationSequence) : Prop :=
  q.performed = AllocationPhase.all.filter fun phase => q.stepOfPhase phase < q.step

/-- The state tells whether the last phase has been performed, and a message is pending while the sequence
runs. -/
structure Sound (q : AllocationSequence) : Prop where
  inOrder : q.InOrder
  completed : q.state = .completed ↔ q.stepOfPhase .sslTcp < q.step
  running : q.state = .running → 0 < q.timers
  idle : q.state ≠ .running → q.timers = 0

theorem pairwise_stepOfPhase (q : AllocationSequence) :
    AllocationPhase.all.Pairwise fun x y => q.stepOfPhase x ≤ q.stepOfPhase y := by
  have hindex : AllocationPhase.all.Pairwise fun x y => x.index ≤ y.index := by decide
  exact hindex.imp fun hle => Nat.sub_le_sub_right hle _

theorem InOrder.performed_prefix (h : q.InOrder) : q.performed <+: AllocationPhase.all := by
  rw [h]
  exact filter_lt_prefix q.pairwise_stepOfPhase q.step

theorem InOrder.mem_performed (h : q.InOrder) (phase : AllocationPhase) :
    phase ∈ q.performed ↔ q.stepOfPhase phase < q.step := by
  have hall : phase ∈ AllocationPhase.all := by cases phase <;> decide
  rw [h, List.mem_filter, decide_eq_true_eq]
  exact and_iff_right hall

theorem stepOfPhase_le (q : AllocationSequence) (phase : AllocationPhase) :
    q.stepOfPhase phase ≤ q.stepOfPhase .sslTcp := by
  have hle : phase.index ≤ AllocationPhase.index .sslTcp := by cases phase <;> decide
  exact Nat.sub_le_sub_right hle _

theorem InOrder.performed_all_iff (h : q.InOrder) :
    q.performed = AllocationPhase.all ↔ q.stepOfPhase .sslTcp < q.step := by
  constructor
  · intro hall
    rw [← h.mem_performed, hall]
    decide
  · intro hlast
    rw [h, List.filter_eq_self]
    intro phase _
    exact decide_eq_true (Nat.lt_of_le_of_lt (q.stepOfPhase_le phase) hlast)

theorem InOrder.exists_next (h : q.InOrder) (hlast : ¬q.stepOfPhase .sslTcp < q.step) :
    ∃ phase ∈ AllocationPhase.all, phase ∉ q.performed ∧ q.stepOfPhase phase = q.step := by
  have hnext : ∃ phase ∈ AllocationPhase.all, q.stepOfPhase phase = q.step := by
    have hle : ¬3 - q.lastPhaseInStepZero < q.step := hlast
    by_cases hzero : q.step = 0
    · exact ⟨.udp, by decide, (Nat.zero_sub _).trans hzero.symm⟩
    · obtain hk | hk | hk : q.step + q.lastPhaseInStepZero = 1 ∨ q.step + q.lastPhaseInStepZero = 2 ∨
          q.step + q.lastPhaseInStepZero = 3 := by omega
      · exact ⟨.relay, by decide, show 1 - q.lastPhaseInStepZero = q.step by omega⟩
      · exact ⟨.tcp, by decide, show 2 - q.lastPhaseInStepZero = q.step by omega⟩
      · exact ⟨.sslTcp, by decide, show 3 - q.lastPhaseInStepZero = q.step by omega⟩
  obtain ⟨phase, hphase, hstep⟩ := hnext
  refine ⟨phase, hphase, ?_, hstep⟩
  rw [h.mem_performed, hstep]
  exact Nat.lt_irrefl _

/-! ### The handling of a phase message -/

/-- Those of the phases are performed that are due. -/
def perform (q : AllocationSequence) (phases : List AllocationPhase) : AllocationSequence :=
  { q with performed := q.performed ++ phases.filter fun phase => q.stepOfPhase phase = q.step }

/-- The last one is among them. -/
def finish (q : AllocationSequence) : AllocationSequence :=
  { q.perform AllocationPhase.all with state := .completed, timers := 0 }

/-- The sequence after a message. -/
def advance (q : AllocationSequence) : AllocationSequence :=
  if q.stepOfPhase .sslTcp = q.step then { q.finish with step := q.step + 1 }
  else { q.perform AllocationPhase.all with
    step := q.step + 1
    timers := if q.state = .running then q.timers + 1 else q.timers }

theorem perform_append (q : AllocationSequence) (a b : List AllocationPhase) :
    q.perform (a ++ b) = (q.perform a).perform b := by
  simp only [perform, List.filter_append, List.append_assoc]
  rfl

theorem perform_due {phase : AllocationPhase} (h : q.stepOfPhase phase = q.step) :
    q.perform [phase] = { q with performed := q.performed ++ [phase] } := by
  simp [perform, h]

theorem perform_notDue {phase : AllocationPhase} (h : q.stepOfPhase phase ≠ q.step) : q.perform [phase] = q := by
  simp [perform, h]

theorem advance_performed (q : AllocationSequence) :
    q.advance.performed = (q.perform AllocationPhase.all).performed := by
  unfold advance
  split <;> rfl

theorem advance_step (q : AllocationSequence) : q.advance.step = q.step + 1 := by
  unfold advance
  split <;> rfl

theorem advance_stepOfPhase (q : AllocationSequence) : q.advance.stepOfPhase = q.stepOfPhase := by
  unfold advance
  split <;> rfl

theorem InOrder.advance (h : q.InOrder) : q.advance.InOrder := by
  rw [InOrder, advance_performed, advance_step, advance_stepOfPhase,
    ← filter_lt_append_filter_eq q.pairwise_stepOfPhase q.step, ← h]
  rfl

theorem Sound.advance (h : q.InOrder) (hlast : ¬q.stepOfPhase .sslTcp < q.step)
    (hstate : q.state ≠ .completed) (hidle : q.state ≠ .running → q.timers = 0) : q.advance.Sound := by
  refine ⟨h.advance, ?_, ?_, ?_⟩ <;> unfold AllocationSequence.advance <;> split <;> rename_i hstep
  · refine iff_of_true rfl ?_
    show q.stepOfPhase .sslTcp < q.step + 1
    omega
  · refine iff_of_false hstate ?_
    show ¬q.stepOfPhase .sslTcp < q.step + 1
    omega
  · intro hrun
    cases hrun
  · intro (hrun : q.state = .running)
    rw [if_pos hrun]
    exact Nat.succ_pos _
  · intro _
    rfl
  · intro (hrun : q.state ≠ .running)
    rw [if_neg hrun]
    exact hidle hrun

theorem Sound.start (h : q.Sound) (hstate : q.state ≠ .completed) : q.start.Sound :=
  ⟨h.inOrder, iff_of_false nofun (mt h.completed.mpr hstate), fun _ => Nat.succ_pos _, fun hrun => absurd rfl hrun⟩

theorem Sound.stop (h : q.Sound) : q.stop.Sound := by
  unfold AllocationSequence.stop
  split
  · rename_i hrun
    have hlast : ¬q.stepOfPhase .sslTcp < q.step := by
      intro hlast
      cases hrun.symm.trans (h.completed.mpr hlast)
    exact ⟨h.inOrder, iff_of_false nofun hlast, nofun, fun _ => rfl⟩
  · exact h

theorem Sound.runs (h : q.Sound) (hrun : q.state = .running) :
    0 < q.timers ∧ ∃ phase ∈ AllocationPhase.all, phase ∉ q.performed ∧ q.stepOfPhase phase = q.step := by
  refine ⟨h.running hrun, h.inOrder.exists_next fun hlast => ?_⟩
  cases hrun.symm.trans (h.completed.mpr hlast)

theorem Sound.completed_of_all (h : q.Sound) (hall : q.performed = AllocationPhase.all) :
    q.state = .completed :=
  h.completed.mpr (h.inOrder.performed_all_iff.mp hall)

end AllocationSequence

namespace AllocatorSession

open AllocationSequence

variable {s s' s'' : AllocatorSession} {q : AllocationSequence}

/-! ### What a step may change -/

/-- Ports and sequences aside, and what was signalled, nothing changes. -/
structure Alike (s s' : AllocatorSession) : Prop where
  best : s'.best = s.best
  running : s'.running = s.running
  created : s'.allocationSequencesCreated = s.allocationSequencesCreated
  pending : s'.sequencesCreated = s.sequencesCreated
  trace : s.trace <+: s'.trace

/-- Nor do the sequences. -/
structure Extends (s s' : AllocatorSession) : Prop extends Alike s s' where
  sequences : s'.sequences = s.sequences

theorem Alike.refl (s : AllocatorSession) : s.Alike s := ⟨rfl, rfl, rfl, rfl, List.prefix_refl _⟩

theorem Alike.trans (h : s.Alike s') (h' : s'.Alike s'') : s.Alike s'' :=
  ⟨h'.best.trans h.best, h'.running.trans h.running, h'.created.trans h.created, h'.pending.trans h.pending,
    h.trace.trans h'.trace⟩

theorem Extends.refl (s : AllocatorSession) : s.Extends s := ⟨.refl s, rfl⟩

theorem Extends.trans (h : s.Extends s') (h' : s'.Extends s'') : s.Extends s'' :=
  ⟨h.toAlike.trans h'.toAlike, h'.sequences.trans h.sequences⟩

theorem Extends.foldl {α : Type} {f : AllocatorSession → α → AllocatorSession}
    (hf : ∀ (s : AllocatorSession) a, s.Extends (f s a)) (l : List α) (s : AllocatorSession) :
    s.Extends (l.foldl f s) := by
  induction l generalizing s with
  | nil => exact .refl s
  | cons a l ih => exact (hf s a).trans (ih (f s a))

theorem extends_maybeSignal (s : AllocatorSession) : s.Extends s.maybeSignalCandidatesAllocationDone := by
  unfold maybeSignalCandidatesAllocationDone
  split
  · exact .refl s
  · split
    · exact .refl s
    · split
      · exact .refl s
      · exact ⟨⟨rfl, rfl, rfl, rfl, List.prefix_append _ _⟩, rfl⟩

theorem ports_maybeSignal (s : AllocatorSession) : s.maybeSignalCandidatesAllocationDone.ports = s.ports := by
  unfold maybeSignalCandidatesAllocationDone
  split
  · rfl
  · split
    · rfl
    · split <;> rfl

variable (port : Nat)

theorem extends_onPortReady (s : AllocatorSession) : s.Extends (s.onPortReady port) := by
  unfold onPortReady
  split
  · exact .refl s
  · split
    · exact .refl s
    · refine Extends.trans ?_ (extends_maybeSignal _)
      exact ⟨⟨rfl, rfl, rfl, rfl, List.prefix_append _ _⟩, rfl⟩

theorem extends_onAddressError (s : AllocatorSession) : s.Extends (s.onAddressError port) := by
  unfold onAddressError
  split
  · exact .refl s
  · split
    · exact .refl s
    · refine Extends.trans ?_ (extends_maybeSignal _)
      exact ⟨⟨rfl, rfl, rfl, rfl, List.prefix_refl _⟩, rfl⟩

theorem extends_addAllocatedPort (outcome : PortOutcome) (s : AllocatorSession) :
    s.Extends (s.addAllocatedPort outcome) := by
  have hadded : s.Extends { s with ports := s.ports ++ [⟨s.nextPort, .init⟩], nextPort := s.nextPort + 1 } :=
    ⟨⟨rfl, rfl, rfl, rfl, List.prefix_refl _⟩, rfl⟩
  cases outcome with
  | notCreated => exact .refl s
  | pending => exact hadded
  | ready => exact hadded.trans (extends_onPortReady _ _)
  | error => exact hadded.trans (extends_onAddressError _ _)

variable (creates : Creation)

theorem extends_createUDPPorts (q : AllocationSequence) (s : AllocatorSession) :
    s.Extends (createUDPPorts creates q s) := by
  unfold createUDPPorts
  split
  · exact .refl s
  · split
    · exact .refl s
    · exact extends_addAllocatedPort _ s

theorem extends_createTCPPorts (q : AllocationSequence) (s : AllocatorSession) :
    s.Extends (createTCPPorts creates q s) := by
  unfold createTCPPorts
  split
  · exact .refl s
  · exact extends_addAllocatedPort _ s

theorem extends_createStunPorts (q : AllocationSequence) (s : AllocatorSession) :
    s.Extends (createStunPorts creates q s) := by
  unfold createStunPorts
  split
  · exact .refl s
  · split
    · exact .refl s
    · split
      · exact .refl s
      · exact extends_addAllocatedPort _ s

theorem extends_createRelayPorts (q : AllocationSequence) (s : AllocatorSession) :
    s.Extends (createRelayPorts creates q s) := by
  unfold createRelayPorts
  split
  · exact .refl s
  split
  · exact .refl s
  refine Extends.foldl (fun s relay => ?_) _ s
  obtain ⟨config, i⟩ := relay
  cases config with
  | gturn => exact extends_addAllocatedPort _ s
  | turn udp =>
    refine Extends.foldl (fun s port => ?_) _ s
    split
    · exact extends_addAllocatedPort _ s
    · exact .refl s

/-! ### The handling of a phase message -/

theorem phaseRound_eq (place : Option Nat) (q : AllocationSequence) (s : AllocatorSession)
    {phase : AllocationPhase} (hphase : phase ≠ .sslTcp) :
    ∃ t, s.Extends t ∧ phaseRound creates place (q, s) phase = (q.perform [phase], t) := by
  by_cases hstep : q.stepOfPhase phase = q.step
  · rw [phaseRound, if_pos hstep, perform_due hstep]
    cases phase with
    | udp => exact ⟨_, (extends_createUDPPorts creates _ s).trans (extends_createStunPorts creates _ _), rfl⟩
    | relay => exact ⟨_, extends_createRelayPorts creates _ s, rfl⟩
    | tcp => exact ⟨_, extends_createTCPPorts creates _ s, rfl⟩
    | sslTcp => exact absurd rfl hphase
  · rw [phaseRound, if_neg hstep, perform_notDue hstep]
    exact ⟨s, .refl s, rfl⟩

theorem foldl_phaseRound_eq (place : Option Nat) {phases : List AllocationPhase}
    (hphases : AllocationPhase.sslTcp ∉ phases) (q : AllocationSequence) (s : AllocatorSession) :
    ∃ t, s.Extends t ∧ phases.foldl (phaseRound creates place) (q, s) = (q.perform phases, t) := by
  induction phases generalizing q s with
  | nil => exact ⟨s, .refl s, by rw [AllocationSequence.perform, List.filter_nil, List.append_nil]; rfl⟩
  | cons phase phases ih =>
    rw [List.mem_cons, not_or] at hphases
    obtain ⟨t, ht, hround⟩ := phaseRound_eq creates place q s (Ne.symm hphases.1)
    obtain ⟨u, hu, hrest⟩ := ih hphases.2 (q.perform [phase]) t
    refine ⟨u, ht.trans hu, ?_⟩
    rw [List.foldl_cons, hround, hrest, ← perform_append]
    rfl

/-- The ports of the phases before the last one are made first. If the last one is due, the session then looks
whether all is done. -/
theorem onPhase_eq (place : Option Nat) (q : AllocationSequence) (s : AllocatorSession) :
    ∃ t, s.Extends t ∧ onPhase creates place q s = (q.advance,
      put place q.advance (if q.stepOfPhase .sslTcp = q.step then
        if place.isSome then (put place q.finish t).maybeSignalCandidatesAllocationDone else put place q.finish t
      else t)) := by
  obtain ⟨t, ht, hfirst⟩ := foldl_phaseRound_eq creates place
    (show AllocationPhase.sslTcp ∉ [.udp, .relay, .tcp] by decide) q s
  refine ⟨t, ht, ?_⟩
  have hrounds : AllocationPhase.all.foldl (phaseRound creates place) (q, s) =
      phaseRound creates place (q.perform [.udp, .relay, .tcp], t) .sslTcp := by
    rw [← hfirst]
    rfl
  have hall : q.perform AllocationPhase.all = (q.perform [.udp, .relay, .tcp]).perform [.sslTcp] :=
    q.perform_append [.udp, .relay, .tcp] [.sslTcp]
  unfold onPhase AllocationSequence.advance finish
  rw [hrounds, hall]
  by_cases hstep : q.stepOfPhase .sslTcp = q.step
  · have hstep' : (q.perform [.udp, .relay, .tcp]).stepOfPhase .sslTcp =
        (q.perform [.udp, .relay, .tcp]).step := hstep
    rw [if_pos hstep, if_pos hstep, perform_due hstep', phaseRound, if_pos hstep']
    rfl
  · have hstep' : (q.perform [.udp, .relay, .tcp]).stepOfPhase .sslTcp ≠
        (q.perform [.udp, .relay, .tcp]).step := hstep
    rw [if_neg hstep, if_neg hstep, perform_notDue hstep', phaseRound, if_neg hstep']
    rfl

/-! ### The invariant, and what a step may do -/

/-- All there is to do has been done. -/
structure Settled (s : AllocatorSession) : Prop where
  created : s.allocationSequencesCreated = true
  pending : s.sequencesCreated = 0
  sequences : ∀ q ∈ s.sequences, q.performed = AllocationPhase.all
  ports : ∀ data ∈ s.ports, data.complete = true

/-- The sequences are sound, and the session has been told of them, or will be. -/
structure Orderly (s : AllocatorSession) : Prop where
  sound : ∀ q ∈ s.sequences, q.Sound
  announced : s.sequences ≠ [] → s.allocationSequencesCreated = true ∨ 0 < s.sequencesCreated

/-- A sequence that is completed stays so. -/
def KeepsCompleted (s s' : AllocatorSession) : Prop :=
  ∀ (i : Nat) (q : AllocationSequence), s.sequences[i]? = some q → q.state = .completed →
    ∃ q' : AllocationSequence, s'.sequences[i]? = some q' ∧ q'.state = .completed

/-- If it is only now that all has been done, this has been signalled. -/
def SignalsDone (s s' : AllocatorSession) : Prop :=
  ¬s.Settled → s'.Settled → ∃ events, s'.trace = s.trace ++ events ∧ .allocationDone ∈ events

/-- All of this. -/
structure Progress (s s' : AllocatorSession) : Prop where
  orderly : s.Orderly → s'.Orderly
  keeps : s.KeepsCompleted s'
  trace : s.trace <+: s'.trace
  signals : s.Orderly → s.SignalsDone s'

theorem KeepsCompleted.of_eq (h : s'.sequences = s.sequences) : s.KeepsCompleted s' := by
  intro i q hq hstate
  exact ⟨q, h ▸ hq, hstate⟩

theorem KeepsCompleted.trans (h : s.KeepsCompleted s') (h' : s'.KeepsCompleted s'') : s.KeepsCompleted s'' := by
  intro i q hq hstate
  obtain ⟨q', hq', hstate'⟩ := h i q hq hstate
  exact h' i q' hq' hstate'

theorem Progress.trans (h : s.Progress s') (h' : s'.Progress s'') : s.Progress s'' where
  orderly ho := h'.orderly (h.orderly ho)
  keeps := h.keeps.trans h'.keeps
  trace := h.trace.trans h'.trace
  signals ho hnot hsettled := by
    by_cases hmid : s'.Settled
    · obtain ⟨events, hevents, hmem⟩ := h.signals ho hnot hmid
      obtain ⟨rest, hrest⟩ := h'.trace
      refine ⟨events ++ rest, ?_, List.mem_append_left _ hmem⟩
      rw [← hrest, hevents, List.append_assoc]
    · obtain ⟨events, hevents, hmem⟩ := h'.signals (h.orderly ho) hmid hsettled
      obtain ⟨first, hfirst⟩ := h.trace
      refine ⟨first ++ events, ?_, List.mem_append_right _ hmem⟩
      rw [hevents, ← hfirst, List.append_assoc]

theorem Progress.of_same (hsequences : s'.sequences = s.sequences) (hports : s'.ports = s.ports)
    (hcreated : s'.allocationSequencesCreated = s.allocationSequencesCreated)
    (hpending : s'.sequencesCreated = s.sequencesCreated) (htrace : s'.trace = s.trace) : s.Progress s' where
  orderly ho := ⟨hsequences ▸ ho.sound, hsequences ▸ hcreated ▸ hpending ▸ ho.announced⟩
  keeps := .of_eq hsequences
  trace := htrace ▸ List.prefix_refl _
  signals _ hnot hsettled := by
    refine absurd ⟨?_, ?_, ?_, ?_⟩ hnot
    · exact hcreated ▸ hsettled.created
    · exact hpending ▸ hsettled.pending
    · exact hsequences ▸ hsettled.sequences
    · exact hports ▸ hsettled.ports

theorem Progress.refl (s : AllocatorSession) : s.Progress s := .of_same rfl rfl rfl rfl rfl

theorem maybeSignal_done (hcreated : s.allocationSequencesCreated = true)
    (hsequences : ∀ q ∈ s.sequences, q.state ≠ .running) (hports : ∀ data ∈ s.ports, data.complete = true) :
    s.maybeSignalCandidatesAllocationDone = { s with trace := s.trace ++ [.allocationDone] } := by
  have hrunning : ¬(s.sequences.any (·.state = .running)) = true := by
    rw [List.any_eq_true]
    rintro ⟨q, hq, hrun⟩
    exact hsequences q hq (of_decide_eq_true hrun)
  have hincomplete : ¬(s.ports.any (!·.complete)) = true := by
    rw [List.any_eq_true]
    rintro ⟨data, hdata, hnot⟩
    rw [hports data hdata] at hnot
    cases hnot
  rw [maybeSignalCandidatesAllocationDone, if_neg (by rw [hcreated]; decide), if_neg hrunning, if_neg hincomplete]

theorem Orderly.not_running (h : s.Orderly) (hs : ∀ q ∈ s.sequences, q.performed = AllocationPhase.all) :
    ∀ q ∈ s.sequences, q.state ≠ .running := by
  intro q hq hrun
  cases hrun.symm.trans ((h.sound q hq).completed_of_all (hs q hq))

theorem progress_maybeSignal {t : AllocatorSession} (horderly : s.Orderly → t.Orderly)
    (hkeeps : s.KeepsCompleted t) (htrace : s.trace <+: t.trace) :
    s.Progress t.maybeSignalCandidatesAllocationDone := by
  have hext := extends_maybeSignal t
  refine ⟨fun ho => ?_, hkeeps.trans (.of_eq hext.sequences), htrace.trans hext.trace, fun ho _ hsettled => ?_⟩
  · refine ⟨fun q hq => (horderly ho).sound q (hext.sequences ▸ hq), fun hne => ?_⟩
    rw [hext.created, hext.pending]
    exact (horderly ho).announced (hext.sequences ▸ hne)
  · obtain ⟨first, hfirst⟩ := htrace
    have hdone := maybeSignal_done (hext.created ▸ hsettled.created)
      ((horderly ho).not_running (hext.sequences ▸ hsettled.sequences)) (ports_maybeSignal t ▸ hsettled.ports)
    refine ⟨first ++ [.allocationDone], ?_, List.mem_append_right _ (List.mem_singleton_self _)⟩
    rw [hdone, ← List.append_assoc, hfirst]

/-! ### Ports, and the messages of the session -/

theorem progress_onPortReady (s : AllocatorSession) : s.Progress (s.onPortReady port) := by
  unfold onPortReady
  split
  · exact .refl s
  · split
    · exact .refl s
    · exact progress_maybeSignal (fun ho => ⟨ho.sound, ho.announced⟩) (.of_eq rfl) (List.prefix_append _ _)

theorem progress_onAddressError (s : AllocatorSession) : s.Progress (s.onAddressError port) := by
  unfold onAddressError
  split
  · exact .refl s
  · split
    · exact .refl s
    · exact progress_maybeSignal (fun ho => ⟨ho.sound, ho.announced⟩) (.of_eq rfl) (List.prefix_refl _)

theorem progress_onAllocationSequenceObjectsCreated (s : AllocatorSession) :
    s.Progress s.onAllocationSequenceObjectsCreated :=
  progress_maybeSignal (fun ho => ⟨ho.sound, fun _ => .inl rfl⟩) (.of_eq rfl) (List.prefix_refl _)

theorem progress_onConfigStop (s : AllocatorSession) : s.Progress s.onConfigStop := by
  unfold onConfigStop
  split
  · exact progress_maybeSignal (fun ho => ⟨ho.sound, ho.announced⟩) (.of_eq rfl) (List.prefix_refl _)
  rename_i hnothing
  refine .of_same rfl ?_ rfl rfl rfl
  rw [Bool.or_eq_true, not_or, List.any_eq_true] at hnothing
  refine (List.map_congr_left fun data hdata => ?_).trans (List.map_id _)
  have hcomplete : data.complete = true := by
    by_contra hnot
    exact hnothing.1 ⟨data, hdata, by simpa using hnot⟩
  exact if_pos hcomplete

theorem progress_stopGetAllPorts (s : AllocatorSession) : s.Progress s.stopGetAllPorts where
  orderly ho := by
    refine ⟨fun q hq => ?_, fun hne => ho.announced fun hnil => hne (by rw [stopGetAllPorts, hnil]; rfl)⟩
    obtain ⟨p, hp, rfl⟩ := List.mem_map.mp hq
    exact (ho.sound p hp).stop
  keeps := by
    intro i q hq hstate
    refine ⟨q, ?_, hstate⟩
    show (s.sequences.map (·.stop))[i]? = some q
    rw [List.getElem?_map, hq, Option.map_some, AllocationSequence.stop, if_neg (by rw [hstate]; decide)]
  trace := List.prefix_refl _
  signals _ hnot hsettled := by
    refine absurd ⟨hsettled.created, hsettled.pending, fun q hq => ?_, hsettled.ports⟩ hnot
    have hstop := hsettled.sequences q.stop (List.mem_map_of_mem hq)
    have hperformed : q.stop.performed = q.performed := by
      unfold AllocationSequence.stop
      split <;> rfl
    exact hperformed ▸ hstop

theorem progress_startGetAllPorts (h : ∀ q ∈ s.sequences, q.state ≠ .completed) :
    s.Progress s.startGetAllPorts where
  orderly ho := by
    refine ⟨fun q hq => ?_, fun hne => ho.announced fun hnil => hne (by rw [startGetAllPorts, hnil]; rfl)⟩
    obtain ⟨p, hp, rfl⟩ := List.mem_map.mp hq
    exact (ho.sound p hp).start (h p hp)
  keeps i q hq hstate := absurd hstate (h q (List.mem_of_getElem? hq))
  trace := List.prefix_refl _
  signals _ hnot hsettled := by
    refine absurd ⟨hsettled.created, hsettled.pending, fun q hq => ?_, hsettled.ports⟩ hnot
    exact hsettled.sequences q.start (List.mem_map_of_mem hq)

theorem progress_onPortDestroyed {port : Nat}
    (h : (s.findPort port).any (·.complete) = true ∨ ¬(s.onPortDestroyed port).Settled) :
    s.Progress (s.onPortDestroyed port) where
  orderly ho := ⟨ho.sound, ho.announced⟩
  keeps := .of_eq rfl
  trace := List.prefix_refl _
  signals _ hnot hsettled := by
    obtain hcomplete | hwaits := h
    · refine absurd ⟨hsettled.created, hsettled.pending, hsettled.sequences, ?_⟩ hnot
      obtain ⟨found, hfound, hdone⟩ := (Option.any_eq_true _ _).mp hcomplete
      obtain ⟨hport, before, after, hports, hbefore⟩ := List.find?_eq_some_iff_append.mp hfound
      have hrest : (s.onPortDestroyed port).ports = before ++ after := by
        show s.ports.eraseP _ = _
        rw [hports, List.eraseP_append_right _ (by simpa using hbefore),
            List.eraseP_cons_of_pos (p := fun data : PortData => data.port = port) hport]
      intro data hdata
      rw [hports, List.mem_append, List.mem_cons, or_left_comm, ← List.mem_append, ← hrest] at hdata
      obtain rfl | hdata := hdata
      · exact hdone
      · exact hsettled.ports data hdata
    · exact absurd hsettled hwaits

/-! ### The allocation of sequences -/

/-- A sequence would be made for this network. -/
def makesSequence (s : AllocatorSession) (network : AllocatorNetwork) : Bool :=
  match s.sequenceFlags network with
  | none => false
  | some flags => !(flags.enableSharedSocket && !flags.enableSharedUfrag)

/-- No sequence is made that performs all of its phases at once and is then started. -/
def Gradual (s : AllocatorSession) : Prop :=
  s.running = true → 3 ≤ s.best → ∀ network ∈ s.networks, s.makesSequence network = false

/-- Sequences are added, and the ports of their first step. -/
structure Allocates (a b : AllocatorSession × Bool) : Prop where
  needed : b.2 = true
  alike : a.1.Alike b.1
  sequences : ∃ new, (∀ q ∈ new, q.Sound) ∧ b.1.sequences = a.1.sequences ++ new

theorem Allocates.trans {a b c : AllocatorSession × Bool} (h : Allocates a b) (h' : Allocates b c) :
    Allocates a c := by
  obtain ⟨new, hnew, hseq⟩ := h.sequences
  obtain ⟨new', hnew', hseq'⟩ := h'.sequences
  refine ⟨h'.needed, h.alike.trans h'.alike, new ++ new', fun q hq => ?_, ?_⟩
  · exact (List.mem_append.mp hq).elim (hnew q) (hnew' q)
  · rw [hseq', hseq, List.append_assoc]

theorem sound_new (network : AllocatorNetwork) (config : Option PortConfiguration) (flags : AllocatorFlags)
    (best : Int) : (AllocationSequence.new network config flags best).advance.Sound := by
  refine Sound.advance ?_ (Nat.not_lt_zero _) nofun fun _ => rfl
  refine (List.filter_eq_nil_iff.mpr ?_).symm
  intro phase _
  simp only [decide_eq_true_eq]
  exact Nat.not_lt_zero _

theorem advance_new_not_completed (network : AllocatorNetwork) (config : Option PortConfiguration)
    (flags : AllocatorFlags) {best : Int} (hbest : best < 3) :
    (AllocationSequence.new network config flags best).advance.state ≠ .completed := by
  have hlater : (AllocationSequence.new network config flags best).stepOfPhase .sslTcp ≠
      (AllocationSequence.new network config flags best).step := by
    show 3 - (max 0 best).toNat ≠ 0
    omega
  rw [AllocationSequence.advance, if_neg hlater]
  nofun

theorem allocateRound_idle {network : AllocatorNetwork × Nat} (h : s.makesSequence network.1 = false)
    (creates : Nat → Creation) (needed : Bool) : allocateRound creates (s, needed) network = (s, needed) := by
  unfold makesSequence at h
  unfold allocateRound
  dsimp only
  generalize s.sequenceFlags network.1 = o at h ⊢
  obtain _ | flags := o
  · rfl
  · have hshared : (flags.enableSharedSocket && !flags.enableSharedUfrag) = true := by simpa using h
    have hinit : initSequence (creates network.2) (.new network.1 s.configs.getLast? flags s.best) s = none :=
      if_pos hshared
    dsimp only
    rw [hinit]

theorem onPhase_none (q : AllocationSequence) (s : AllocatorSession) :
    ∃ t, s.Extends t ∧ onPhase creates none q s = (q.advance, t) := by
  obtain ⟨t, ht, honPhase⟩ := onPhase_eq creates none q s
  refine ⟨t, ht, honPhase.trans ?_⟩
  congr 1
  exact ite_self t

theorem allocateRound_cases (hgradual : s.running = true → s.best < 3) (creates : Nat → Creation) (needed : Bool)
    (network : AllocatorNetwork × Nat) :
    allocateRound creates (s, needed) network = (s, needed) ∨
      Allocates (s, needed) (allocateRound creates (s, needed) network) := by
  unfold allocateRound
  dsimp only
  split
  · exact .inl rfl
  rename_i flags hflags
  unfold initSequence
  split
  · exact .inl rfl
  rename_i q t hinit
  split at hinit
  · cases hinit
  obtain ⟨u, hu, honPhase⟩ := onPhase_none (creates network.2)
    (.new network.1 s.configs.getLast? flags s.best) s
  rw [honPhase] at hinit
  cases hinit
  have hsound := sound_new network.1 s.configs.getLast? flags s.best
  have hstate : s.best < 3 → _ := advance_new_not_completed network.1 s.configs.getLast? flags
  generalize (AllocationSequence.new network.1 s.configs.getLast? flags s.best).advance = q at hsound hstate
  refine .inr ⟨rfl, ⟨hu.best, hu.running, hu.created, hu.pending, hu.trace⟩,
    [if t.running then q.start else q], fun p hp => ?_, by rw [← hu.sequences]⟩
  rw [List.mem_singleton.mp hp]
  split
  · rename_i hrun
    exact hsound.start (hstate (hgradual (hu.running ▸ hrun)))
  · exact hsound

theorem foldl_allocateRound_cases (hgradual : s.running = true → s.best < 3) (creates : Nat → Creation)
    (needed : Bool) (l : List (AllocatorNetwork × Nat)) :
    l.foldl (allocateRound creates) (s, needed) = (s, needed) ∨
      Allocates (s, needed) (l.foldl (allocateRound creates) (s, needed)) := by
  induction l generalizing s needed with
  | nil => exact .inl rfl
  | cons network l ih =>
    rw [List.foldl_cons]
    obtain hround | hround := allocateRound_cases hgradual creates needed network
    · rw [hround]
      exact ih hgradual needed
    refine .inr ?_
    generalize allocateRound creates (s, needed) network = state at hround
    obtain ⟨t, needed'⟩ := state
    have hgradual' : t.running = true → t.best < 3 := by
      rw [hround.alike.running, hround.alike.best]
      exact hgradual
    obtain hrest | hrest := ih hgradual' needed'
    · rw [hrest]
      exact hround
    · exact hround.trans hrest

theorem foldl_allocateRound_idle (creates : Nat → Creation) (needed : Bool) {l : List (AllocatorNetwork × Nat)}
    (h : ∀ network ∈ l, s.makesSequence network.1 = false) :
    l.foldl (allocateRound creates) (s, needed) = (s, needed) := by
  induction l with
  | nil => rfl
  | cons network l ih =>
    rw [List.foldl_cons, allocateRound_idle (h network (List.mem_cons_self ..))]
    exact ih fun network hnetwork => h network (List.mem_cons_of_mem _ hnetwork)

theorem doAllocate_cases (hgradual : s.Gradual) (creates : Nat → Creation) :
    s.doAllocate creates = s ∨ 0 < (s.doAllocate creates).sequencesCreated ∧
      s.trace <+: (s.doAllocate creates).trace ∧
        ∃ new, (∀ q ∈ new, q.Sound) ∧ (s.doAllocate creates).sequences = s.sequences ++ new := by
  unfold doAllocate
  split
  rename_i t needed hfold
  split at hfold
  · cases hfold
    exact .inr ⟨Nat.succ_pos _, List.prefix_refl _, [], fun _ hq => absurd hq List.not_mem_nil,
        (List.append_nil _).symm⟩
  have hcases : (t, needed) = (s, false) ∨ Allocates (s, false) (t, needed) := by
    rw [← hfold]
    by_cases hbest : s.running = true → s.best < 3
    · exact foldl_allocateRound_cases hbest creates false _
    · rw [Classical.not_imp, Int.not_lt] at hbest
      refine .inl (foldl_allocateRound_idle creates false fun network hnetwork => ?_)
      exact hgradual hbest.1 hbest.2 network.1 (List.fst_mem_of_mem_zipIdx hnetwork)
  obtain hsame | hmade := hcases
  · cases hsame
    exact .inl rfl
  · obtain ⟨new, hnew, hsequences⟩ := hmade.sequences
    have hneeded : needed = true := hmade.needed
    rw [hneeded, if_pos rfl]
    exact .inr ⟨Nat.succ_pos _, hmade.alike.trace, new, hnew, hsequences⟩

theorem progress_doAllocate (hgradual : s.Gradual) (creates : Nat → Creation) :
    s.Progress (s.doAllocate creates) := by
  obtain hsame | ⟨hpending, htrace, new, hnew, hsequences⟩ := doAllocate_cases hgradual creates
  · rw [hsame]
    exact .refl s
  refine ⟨fun ho => ⟨fun q hq => ?_, fun _ => .inr hpending⟩, ?_, htrace, fun _ _ hsettled => ?_⟩
  · rw [hsequences, List.mem_append] at hq
    exact hq.elim (ho.sound q) (hnew q)
  · intro i q hq hstate
    refine ⟨q, ?_, hstate⟩
    rw [hsequences, List.getElem?_append_left (List.getElem?_eq_some_iff.mp hq).1]
    exact hq
  · exact absurd hsettled.pending (Nat.pos_iff_ne_zero.mp hpending)

theorem progress_onNetworksChanged (h : s.allocationStarted = true → s.Gradual) (creates : Nat → Creation) :
    s.Progress (s.onNetworksChanged creates) := by
  have hfirst : s.Progress { s with networkManagerStarted := true } := .of_same rfl rfl rfl rfl rfl
  unfold onNetworksChanged
  dsimp only
  split
  · rename_i hstarted
    have hgradual : Gradual { s with networkManagerStarted := true } := h hstarted
    exact hfirst.trans (progress_doAllocate hgradual creates)
  · exact hfirst

theorem progress_onAllocate (h : s.networkManagerStarted = true → s.Gradual) (creates : Nat → Creation) :
    s.Progress (s.onAllocate creates) := by
  have hfirst : s.Progress { s with allocates := s.allocates - 1 } := .of_same rfl rfl rfl rfl rfl
  unfold onAllocate
  dsimp only
  split
  · rename_i hstarted
    have hgradual : Gradual { s with allocates := s.allocates - 1 } := h hstarted
    exact (hfirst.trans (progress_doAllocate hgradual creates)).trans (.of_same rfl rfl rfl rfl rfl)
  · exact .of_same rfl rfl rfl rfl rfl

/-! ### A phase message -/

variable {place : Nat}

theorem Orderly.running_of_timers (h : s.Orderly) (hq : s.sequences[place]? = some q)
    (htimers : q.timers ≠ 0) : q.Sound ∧ q.state = .running := by
  have hsound := h.sound q (List.mem_of_getElem? hq)
  refine ⟨hsound, ?_⟩
  by_contra hstate
  exact htimers (hsound.idle hstate)

theorem sound_advance_of_timers (h : s.Orderly) (hq : s.sequences[place]? = some q)
    (htimers : q.timers ≠ 0) : AllocationSequence.Sound (advance { q with timers := q.timers - 1 }) := by
  obtain ⟨hsound, hrun⟩ := h.running_of_timers hq htimers
  have hlast : ¬q.stepOfPhase .sslTcp < q.step := by
    intro hlast
    cases hrun.symm.trans (hsound.completed.mpr hlast)
  refine Sound.advance hsound.inOrder hlast ?_ fun hnot => absurd hrun hnot
  rw [hrun]
  nofun

/-- What a message of a sequence that the session knows of changes, and that the session looks whether all is
done when the last phase is due. -/
structure Phased (q : AllocationSequence) (place : Nat) (s s' : AllocatorSession) : Prop where
  sequences : s'.sequences = s.sequences.set place q.advance
  alike : s.Alike s'
  looks : q.stepOfPhase .sslTcp = q.step → ∃ t, s.Extends t ∧ s'.ports = t.ports ∧
    s'.trace = (put (some place) q.finish t).maybeSignalCandidatesAllocationDone.trace

theorem phased_onPhase (place : Nat) (q : AllocationSequence) (s : AllocatorSession) :
    Phased q place s (onPhase creates (some place) q s).2 := by
  obtain ⟨t, ht, honPhase⟩ := onPhase_eq creates (some place) q s
  have hput : ∀ p (u : AllocatorSession), u.Alike (put (some place) p u) := fun _ _ =>
      ⟨rfl, rfl, rfl, rfl, List.prefix_refl _⟩
  rw [honPhase]
  by_cases hdue : q.stepOfPhase .sslTcp = q.step
  · rw [if_pos hdue]
    show Phased q place s
        (put (some place) q.advance (put (some place) q.finish t).maybeSignalCandidatesAllocationDone)
    have hext := extends_maybeSignal (put (some place) q.finish t)
    refine ⟨?_, ((ht.toAlike.trans (hput _ _)).trans hext.toAlike).trans (hput _ _), fun _ => ?_⟩
    · show List.set _ place q.advance = s.sequences.set place q.advance
      rw [hext.sequences]
      show (t.sequences.set place q.finish).set place q.advance = s.sequences.set place q.advance
      rw [List.set_set, ht.sequences]
    · exact ⟨t, ht, ports_maybeSignal _, rfl⟩
  · rw [if_neg hdue]
    refine ⟨?_, ht.toAlike.trans (hput _ _), fun h => absurd h hdue⟩
    show t.sequences.set place q.advance = _
    rw [ht.sequences]

theorem progress_onPhase (ho : s.Orderly) (hq : s.sequences[place]? = some q) (htimers : q.timers ≠ 0)
    (creates : Creation) :
    s.Progress (onPhase creates (some place) { q with timers := q.timers - 1 } s).2 := by
  obtain ⟨hsound, hrun⟩ := ho.running_of_timers hq htimers
  have hadvance := sound_advance_of_timers ho hq htimers
  have hinOrder : AllocationSequence.InOrder { q with timers := q.timers - 1 } := hsound.inOrder
  have hphased := phased_onPhase creates place { q with timers := q.timers - 1 } s
  generalize (onPhase creates (some place) { q with timers := q.timers - 1 } s).2 = s' at hphased
  have hlast : ¬q.stepOfPhase .sslTcp < q.step := by
    intro hlast
    cases hrun.symm.trans (hsound.completed.mpr hlast)
  refine ⟨fun _ => ⟨fun p hp => ?_, fun hne => ?_⟩, ?_, hphased.alike.trace, fun _ _ hsettled => ?_⟩
  · rw [hphased.sequences] at hp
    obtain hp | rfl := List.mem_or_eq_of_mem_set hp
    · exact ho.sound p hp
    · exact hadvance
  · rw [hphased.alike.created, hphased.alike.pending]
    refine ho.announced fun hnil => hne ?_
    rw [hphased.sequences, hnil, List.set_nil]
  · intro i p hp hstate
    have hi : place ≠ i := by
      rintro rfl
      cases hq.symm.trans hp
      cases hrun.symm.trans hstate
    refine ⟨p, ?_, hstate⟩
    rw [hphased.sequences, List.getElem?_set_ne hi]
    exact hp
  have hmem : advance { q with timers := q.timers - 1 } ∈ s'.sequences := by
    rw [hphased.sequences]
    exact List.mem_set (List.getElem?_eq_some_iff.mp hq).1 _
  have hperformed := hinOrder.advance.performed_all_iff.mp (hsettled.sequences _ hmem)
  rw [advance_step, advance_stepOfPhase] at hperformed
  have hdue : q.stepOfPhase .sslTcp = q.step :=
    Nat.le_antisymm (Nat.le_of_lt_succ hperformed) (Nat.not_lt.mp hlast)
  obtain ⟨t, ht, hports, htrace⟩ := hphased.looks hdue
  obtain ⟨events, hevents⟩ := ht.trace
  have hdone := maybeSignal_done (s := put (some place) (finish { q with timers := q.timers - 1 }) t) ?_ ?_ ?_
  · rw [htrace, hdone]
    refine ⟨events ++ [.allocationDone], ?_, List.mem_append_right _ (List.mem_singleton_self _)⟩
    show t.trace ++ [.allocationDone] = s.trace ++ (events ++ [.allocationDone])
    rw [← hevents, List.append_assoc]
  · exact ht.created.trans (hphased.alike.created.symm.trans hsettled.created)
  · intro p hp hrunning
    obtain ⟨i, hi⟩ := List.mem_iff_getElem?.mp hp
    have hi : (s.sequences.set place (finish { q with timers := q.timers - 1 }))[i]? = some p := ht.sequences ▸ hi
    by_cases hplace : place = i
    · subst hplace
      rw [List.getElem?_set_self (List.getElem?_eq_some_iff.mp hq).1] at hi
      cases hi
      cases hrunning
    rw [List.getElem?_set_ne hplace] at hi
    have hp' : p ∈ s'.sequences := by
      refine List.mem_of_getElem? (i := i) ?_
      rw [hphased.sequences, List.getElem?_set_ne hplace]
      exact hi
    have hcompleted := (ho.sound p (List.mem_of_getElem? hi)).completed_of_all (hsettled.sequences p hp')
    cases hrunning.symm.trans hcompleted
  · exact hports ▸ hsettled.ports

/-! ### Runs -/

/-- No sequence is started that has performed its last phase, and the last port that the session waits for is
not destroyed. -/
def Handled (s : AllocatorSession) : AllocationOp → Prop
  | .startGetAllPorts => ∀ q ∈ s.sequences, q.state ≠ .completed
  | .networksChanged _ => s.allocationStarted = true → s.Gradual
  | .allocate _ => s.networkManagerStarted = true → s.Gradual
  | .portDestroyed port =>
    (s.findPort port).any (·.complete) = true ∨ s.allocationSequencesCreated = false ∨ s.sequencesCreated ≠ 0 ∨
      (∃ q ∈ s.sequences, q.performed ≠ AllocationPhase.all) ∨
        ∃ data ∈ s.ports.eraseP (·.port = port), data.complete = false
  | _ => True

instance (s : AllocatorSession) : Decidable s.Gradual :=
  inferInstanceAs (Decidable (_ → _ → _))

instance (s : AllocatorSession) : ∀ op, Decidable (s.Handled op)
  | .startGetAllPorts => inferInstanceAs (Decidable (∀ q ∈ s.sequences, q.state ≠ .completed))
  | .networksChanged _ => inferInstanceAs (Decidable (s.allocationStarted = true → s.Gradual))
  | .allocate _ => inferInstanceAs (Decidable (s.networkManagerStarted = true → s.Gradual))
  | .portDestroyed port => inferInstanceAs (Decidable
      ((s.findPort port).any (·.complete) = true ∨ s.allocationSequencesCreated = false ∨ s.sequencesCreated ≠ 0 ∨
        (∃ q ∈ s.sequences, q.performed ≠ AllocationPhase.all) ∨
          ∃ data ∈ s.ports.eraseP (·.port = port), data.complete = false))
  | .getInitialPorts | .stopGetAllPorts | .setNetworks _ | .setBest _ | .configStart | .configReady
  | .sequencesCreated | .configStop | .phase _ _ | .portReady _ | .addressError _ => .isTrue trivial

theorem not_settled_onPortDestroyed {port : Nat}
    (h : s.allocationSequencesCreated = false ∨ s.sequencesCreated ≠ 0 ∨
      (∃ q ∈ s.sequences, q.performed ≠ AllocationPhase.all) ∨
        ∃ data ∈ s.ports.eraseP (·.port = port), data.complete = false) :
    ¬(s.onPortDestroyed port).Settled := by
  intro hsettled
  obtain hcreated | hpending | ⟨q, hq, hperformed⟩ | ⟨data, hdata, hcomplete⟩ := h
  · cases hcreated.symm.trans hsettled.created
  · exact hpending hsettled.pending
  · exact hperformed (hsettled.sequences q hq)
  · cases hcomplete.symm.trans (hsettled.ports data hdata)

theorem progress_step {op : AllocationOp} (ho : s.Orderly) (h : s.Handled op) (hstep : s.step op = some s') :
    s.Progress s' := by
  unfold step at hstep
  split at hstep
  · cases hstep
    exact .of_same rfl rfl rfl rfl rfl
  · cases hstep
    exact progress_startGetAllPorts h
  · cases hstep
    exact progress_stopGetAllPorts s
  · cases hstep
    exact .of_same rfl rfl rfl rfl rfl
  · cases hstep
    exact progress_onNetworksChanged h _
  · cases hstep
    exact .of_same rfl rfl rfl rfl rfl
  · split at hstep <;> cases hstep
    exact .of_same rfl rfl rfl rfl rfl
  · split at hstep <;> cases hstep
    exact .of_same rfl rfl rfl rfl rfl
  · split at hstep <;> cases hstep
    exact progress_onAllocate h _
  · split at hstep <;> cases hstep
    exact progress_onAllocationSequenceObjectsCreated s
  · split at hstep <;> cases hstep
    exact progress_onConfigStop s
  · split at hstep
    · cases hstep
    rename_i q hq
    split at hstep
    · cases hstep
    · rename_i htimers
      cases hstep
      exact progress_onPhase ho hq htimers _
  · split at hstep <;> cases hstep
    exact progress_onPortReady _ s
  · split at hstep <;> cases hstep
    exact progress_onAddressError _ s
  · split at hstep <;> cases hstep
    exact progress_onPortDestroyed (h.imp id not_settled_onPortDestroyed)

theorem orderly_create (flags : AllocatorFlags) (stunAddress : ServerAddress) (relays : List RelayServerConfig)
    (best : Int) : (create flags stunAddress relays best).Orderly :=
  ⟨fun _ hq => absurd hq List.not_mem_nil, fun hne => absurd rfl hne⟩

variable {flags : AllocatorFlags} {stunAddress : ServerAddress} {relays : List RelayServerConfig} {best : Int}
  {ops : List AllocationOp}

/-- In a run of such steps, the sequences perform their phases in order and do not run without something to do,
and every time all has been done the session signals it. -/
theorem allocation_of_run (hok : Runs.Admissible step Handled (create flags stunAddress relays best) ops)
    (hrun : Runs.run step (create flags stunAddress relays best) ops = some s) :
    (∀ q ∈ s.sequences, q.performed <+: AllocationPhase.all ∧
      (q.state = .running → 0 < q.timers ∧
        ∃ phase ∈ AllocationPhase.all, phase ∉ q.performed ∧ q.stepOfPhase phase = q.step) ∧
      (q.performed = AllocationPhase.all → q.state = .completed ∧ q.timers = 0)) ∧
    (s.sequences ≠ [] → s.allocationSequencesCreated = true ∨ 0 < s.sequencesCreated) ∧
    ∀ op s', s.Handled op → s.step op = some s' → s.KeepsCompleted s' ∧ s.SignalsDone s' := by
  have ho : s.Orderly := Runs.invariant (fun s op s' ho h hstep => (progress_step ho h hstep).orderly ho)
    (orderly_create flags stunAddress relays best) hok hrun
  refine ⟨fun q hq => ?_, ho.announced, fun op s' h hstep => ?_⟩
  · have hsound := ho.sound q hq
    refine ⟨hsound.inOrder.performed_prefix, hsound.runs, fun hall => ?_⟩
    have hcompleted := hsound.completed_of_all hall
    exact ⟨hcompleted, hsound.idle (by rw [hcompleted]; nofun)⟩
  · have hprogress := progress_step ho h hstep
    exact ⟨hprogress.keeps, hprogress.signals ho⟩

/-- The session is configured, there is one network, and ports are got. -/
def allocating (outcome : PortOutcome) : List AllocationOp :=
  [.getInitialPorts, .configStart, .configReady, .setNetworks [⟨0, .ipv4 1⟩], .networksChanged fun _ _ => outcome,
    .startGetAllPorts, .allocate fun _ _ => outcome, .sequencesCreated]

/-- None of the flags. -/
def noFlags : AllocatorFlags := ⟨false, false, false, false, false, false, false⟩

theorem allocation_of_run_allocating : ∃ s,
    Runs.run step (create noFlags ⟨"", ⟨.unspec, 0⟩⟩ [.gturn] (-1))
      (allocating .pending ++ [.phase 0 fun _ => .ready, .phase 0 fun _ => .error, .portReady 0,
        .phase 0 fun _ => .ready]) = some s ∧
    (∀ q ∈ s.sequences, q.performed <+: AllocationPhase.all ∧
      (q.state = .running → 0 < q.timers ∧
        ∃ phase ∈ AllocationPhase.all, phase ∉ q.performed ∧ q.stepOfPhase phase = q.step) ∧
      (q.performed = AllocationPhase.all → q.state = .completed ∧ q.timers = 0)) ∧
    (s.sequences ≠ [] → s.allocationSequencesCreated = true ∨ 0 < s.sequencesCreated) ∧
    ∀ op s', s.Handled op → s.step op = some s' → s.KeepsCompleted s' ∧ s.SignalsDone s' := by
  obtain ⟨s, hs⟩ : ∃ s, Runs.run step (create noFlags ⟨"", ⟨.unspec, 0⟩⟩ [.gturn] (-1))
      (allocating .pending ++ [.phase 0 fun _ => .ready, .phase 0 fun _ => .error, .portReady 0,
        .phase 0 fun _ => .ready]) = some s :=
    Option.isSome_iff_exists.mp (by decide +kernel)
  exact ⟨s, hs, allocation_of_run (by decide +kernel) hs⟩

/-- With the last phase the best writable one, all phases are performed before the sequence is started. It then
runs for ever, and the session has not signalled that it is done. -/
theorem not_allocation : (Runs.run step (create noFlags ⟨"", ⟨.unspec, 0⟩⟩ [.gturn] 3)
    (allocating .ready ++ [.phase 0 fun _ => .ready, .phase 0 fun _ => .ready])).any (fun s =>
      s.sequences.any (fun q => q.performed = AllocationPhase.all ∧ q.state = .running ∧ 0 < q.timers) &&
        s.allocationSequencesCreated && s.sequencesCreated = 0 && s.ports.all (·.complete) &&
        !s.trace.contains .allocationDone) = true := by
  decide +kernel

end AllocatorSession

end Synciga
