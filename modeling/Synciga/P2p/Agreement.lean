import Synciga.P2p.SessionLink
import Synciga.P2p.SessionMoves

/-!
# Agreement on a session

Two sides of a session agree as soon as everything is delivered. What carries this is an invariant about their
states and four kinds of messages on their way, the signals: if one side is about to end, the other one is too
or a signal on its way tells it; if one has accepted, the other one has or the accept is on its way.

## Main definitions

* `Agree` — both are in progress, or the initiate is not answered, or both are destroyed
* `Met` — the invariant

## Main results

* `Agree.settled` — what is agreed once nothing is on its way
-/

namespace Synciga.P2p

/-! ### Signals -/

/-- The actions that change the state of the other side. -/
def ActionType.isSignal : ActionType → Bool
  | sessionInitiate => true
  | sessionAccept => true
  | sessionReject => true
  | sessionTerminate => true
  | _ => false

/-- The signal that a stanza carries. -/
def Packet.signal : Packet → Option ActionType
  | message _ type => if type.isSignal then some type else none
  | _ => none

/-- The signals among the stanzas, in their order. -/
def signals (packets : List Packet) : List ActionType := packets.filterMap Packet.signal

theorem signals_append (packets packets' : List Packet) :
    signals (packets ++ packets') = signals packets ++ signals packets' := List.filterMap_append

/-! ### The states of a side -/

/-- A session that is not there any more or is about to end. -/
def Ending : Option SessionState → Prop
  | none => True
  | some state => state = .sentReject ∨ state = .receivedReject ∨ state.Terminated

/-- A session whose offer was accepted. -/
def Accepted : Option SessionState → Prop
  | none => False
  | some state => state = .sentAccept ∨ state = .receivedAccept ∨ state = .inProgress

theorem not_accepted_of_ending {state : Option SessionState} (h : Ending state) : ¬ Accepted state := by
  cases state with
  | none => exact id
  | some state => rcases h with rfl | rfl | rfl | rfl <;> rintro (h | h | h) <;> cases h

/-! ### The invariant -/

/-- The invariant behind the arrival of the initiate. -/
structure Met (a b : Option SessionState) (ab ba : List ActionType) : Prop where
  stateA : a = some .sentInitiate ∨ Accepted a ∨ Ending a
  stateB : b = some .receivedInitiate ∨ Accepted b ∨ Ending b
  initiateAB : .sessionInitiate ∉ ab
  initiateBA : .sessionInitiate ∉ ba
  /-- If one side ends, the other one does or will be told. -/
  endingA : Ending a → Ending b ∨ .sessionTerminate ∈ ab
  endingB : Ending b → Ending a ∨ .sessionTerminate ∈ ba ∨ .sessionReject ∈ ba
  /-- If one side has accepted, the other one has, or ends, or will be told. -/
  acceptedB : Accepted b → (a = some .sentInitiate ∧ .sessionAccept ∈ ba) ∨ Accepted a ∨ Ending a
  acceptedA : Accepted a → Accepted b ∨ Ending b
  /-- Signals that end a session come from a side that ends. -/
  terminateAB : .sessionTerminate ∈ ab → Ending a
  terminateBA : .sessionTerminate ∈ ba ∨ .sessionReject ∈ ba → Ending b
  /-- A reject, or no answer at all, means that nothing was accepted. -/
  reject : .sessionReject ∈ ba → .sessionAccept ∉ ba ∧ ¬ Accepted a
  unanswered : b = some .receivedInitiate → .sessionAccept ∉ ba ∧ ¬ Accepted a
  accept : .sessionAccept ∈ ba → Accepted b ∨ Ending b

/-- The invariant: the initiate is on its way, or it has arrived. -/
inductive Agree (a b : Option SessionState) (ab ba : List ActionType) : Prop
  | offered (rest : List ActionType) (hab : ab = .sessionInitiate :: rest)
      (hrest : .sessionInitiate ∉ rest) (hba : ba = []) (hb : b = none)
      (ha : a = some .sentInitiate ∨ Ending a) (hending : Ending a ↔ .sessionTerminate ∈ rest)
  | met (h : Met a b ab ba)

section States

variable {a a' b b' : Option SessionState} {ab ab' ba ba' : List ActionType} {type : ActionType}

theorem not_ending_of_accepted (h : Accepted a) : ¬ Ending a := fun hending =>
  not_accepted_of_ending hending h

theorem Met.endA (h : Met a b ab ba) (hnew : Ending a') (htold : Ending b ∨ .sessionTerminate ∈ ab')
    (hab : .sessionInitiate ∉ ab') (hba : ba' ⊆ ba) : Met a' b ab' ba' where
  stateA := .inr (.inr hnew)
  stateB := h.stateB
  initiateAB := hab
  initiateBA := fun hmem => h.initiateBA (hba hmem)
  endingA := fun _ => htold
  endingB := fun _ => .inl hnew
  acceptedB := fun _ => .inr (.inr hnew)
  acceptedA := fun haccepted => absurd haccepted (not_accepted_of_ending hnew)
  terminateAB := fun _ => hnew
  terminateBA := fun hmem => h.terminateBA (hmem.imp (@hba _) (@hba _))
  reject := fun hmem => ⟨fun haccept => (h.reject (hba hmem)).1 (hba haccept), not_accepted_of_ending hnew⟩
  unanswered := fun hb => ⟨fun haccept => (h.unanswered hb).1 (hba haccept), not_accepted_of_ending hnew⟩
  accept := fun hmem => h.accept (hba hmem)

theorem Met.endB (h : Met a b ab ba) (hnew : Ending b')
    (htold : Ending a ∨ .sessionTerminate ∈ ba' ∨ .sessionReject ∈ ba')
    (hba : .sessionInitiate ∉ ba') (hab : ab' ⊆ ab)
    (hreject : .sessionReject ∈ ba' → .sessionAccept ∉ ba' ∧ ¬ Accepted a) : Met a b' ab' ba' where
  stateA := h.stateA
  stateB := .inr (.inr hnew)
  initiateAB := fun hmem => h.initiateAB (hab hmem)
  initiateBA := hba
  endingA := fun _ => .inl hnew
  endingB := fun _ => htold
  acceptedB := fun haccepted => absurd haccepted (not_accepted_of_ending hnew)
  acceptedA := fun _ => .inr hnew
  terminateAB := fun hmem => h.terminateAB (hab hmem)
  terminateBA := fun _ => hnew
  reject := hreject
  unanswered := by
    rintro rfl
    rcases hnew with h | h | h | h <;> cases h
  accept := fun _ => .inr hnew

theorem Met.acceptA (h : Met (some .sentInitiate) b ab (.sessionAccept :: ba)) :
    Met (some .receivedAccept) b ab ba := by
  have hnot : ¬ Ending (some .sentInitiate) := by
    rintro (h | h | h | h) <;> cases h
  have haccepted : Accepted (some .receivedAccept) := .inr (.inl rfl)
  have hnone (hmem : .sessionAccept ∉ ActionType.sessionAccept :: ba) : False := hmem List.mem_cons_self
  exact {
    stateA := .inr (.inl haccepted)
    stateB := h.stateB
    initiateAB := h.initiateAB
    initiateBA := fun hmem => h.initiateBA (List.mem_cons_of_mem _ hmem)
    endingA := fun hending => absurd hending (not_ending_of_accepted haccepted)
    endingB := fun hending => .inr (by simpa using (h.endingB hending).resolve_left hnot)
    acceptedB := fun _ => .inr (.inl haccepted)
    acceptedA := fun _ => h.accept List.mem_cons_self
    terminateAB := fun hmem => absurd (h.terminateAB hmem) hnot
    terminateBA := fun hmem =>
      h.terminateBA (hmem.imp (List.mem_cons_of_mem _) (List.mem_cons_of_mem _))
    reject := fun hmem => (hnone (h.reject (List.mem_cons_of_mem _ hmem)).1).elim
    unanswered := fun hb => (hnone (h.unanswered hb).1).elim
    accept := fun hmem => h.accept (List.mem_cons_of_mem _ hmem) }

theorem Met.acceptB (h : Met a (some .receivedInitiate) ab ba) :
    Met a (some .sentAccept) ab (ba ++ [.sessionAccept]) := by
  have hnot : ¬ Ending (some .receivedInitiate) := by
    rintro (h | h | h | h) <;> cases h
  have haccepted : Accepted (some .sentAccept) := .inl rfl
  have hunanswered := (h.unanswered rfl).2
  have hends (hmem : .sessionTerminate ∈ ba ++ [.sessionAccept] ∨
      .sessionReject ∈ ba ++ [.sessionAccept]) : False := hnot (h.terminateBA (by simpa using hmem))
  exact {
    stateA := h.stateA
    stateB := .inr (.inl haccepted)
    initiateAB := h.initiateAB
    initiateBA := by simpa using h.initiateBA
    endingA := fun hending => .inr ((h.endingA hending).resolve_left hnot)
    endingB := fun hending => absurd hending (not_ending_of_accepted haccepted)
    acceptedB := fun _ => h.stateA.imp (fun ha => ⟨ha, by simp⟩) (Or.imp_left fun ha => absurd ha hunanswered)
    acceptedA := fun _ => .inl haccepted
    terminateAB := h.terminateAB
    terminateBA := fun hmem => (hends hmem).elim
    reject := fun hmem => (hends (.inr hmem)).elim
    unanswered := nofun
    accept := fun _ => .inl haccepted }

theorem Met.proceedA (h : Met a b ab ba) (ha : Accepted a) (ha' : Accepted a') : Met a' b ab ba where
  stateA := .inr (.inl ha')
  stateB := h.stateB
  initiateAB := h.initiateAB
  initiateBA := h.initiateBA
  endingA := fun hending => absurd hending (not_ending_of_accepted ha')
  endingB := fun hending => .inr ((h.endingB hending).resolve_left (not_ending_of_accepted ha))
  acceptedB := fun _ => .inr (.inl ha')
  acceptedA := fun _ => h.acceptedA ha
  terminateAB := fun hmem => absurd (h.terminateAB hmem) (not_ending_of_accepted ha)
  terminateBA := h.terminateBA
  reject := fun hmem => absurd ha (h.reject hmem).2
  unanswered := fun hb => absurd ha (h.unanswered hb).2
  accept := h.accept

theorem Met.proceedB (h : Met a b ab ba) (hb : Accepted b) (hb' : Accepted b') : Met a b' ab ba where
  stateA := h.stateA
  stateB := .inr (.inl hb')
  initiateAB := h.initiateAB
  initiateBA := h.initiateBA
  endingA := fun hending => .inr ((h.endingA hending).resolve_left (not_ending_of_accepted hb))
  endingB := fun hending => absurd hending (not_ending_of_accepted hb')
  acceptedB := fun _ => h.acceptedB hb
  acceptedA := fun _ => .inl hb'
  terminateAB := h.terminateAB
  terminateBA := fun hmem => absurd (h.terminateBA hmem) (not_ending_of_accepted hb)
  reject := h.reject
  unanswered := by
    rintro rfl
    rcases hb' with h | h | h <;> cases h
  accept := fun _ => .inl hb'

theorem ending_of_terminate {state : Option SessionState}
    (hpass : ∀ old, state = some old → ∀ new, ¬ Arrival .sessionTerminate old new) : Ending state := by
  cases state with
  | none => trivial
  | some old =>
    by_contra hnot
    refine hpass old rfl .receivedTerminate (.terminate fun h => hnot ?_)
    exact .inr (.inr (.inr h))

theorem Met.passA (h : Met a b ab (type :: ba))
    (hpass : ∀ old, a = some old → ∀ new, ¬ Arrival type old new) : Met a b ab ba where
  stateA := h.stateA
  stateB := h.stateB
  initiateAB := h.initiateAB
  initiateBA := fun hmem => h.initiateBA (List.mem_cons_of_mem _ hmem)
  endingA := h.endingA
  endingB := by
    intro hending
    rcases h.endingB hending with ha | hmem | hmem
    · exact .inl ha
    · rcases List.mem_cons.mp hmem with rfl | hmem
      · exact .inl (ending_of_terminate hpass)
      · exact .inr (.inl hmem)
    · rcases List.mem_cons.mp hmem with rfl | hmem
      · -- a reject is missed only by a session that has not initiated any more
        refine .inl ((h.stateA.resolve_left fun ha => ?_).resolve_left (h.reject List.mem_cons_self).2)
        exact hpass _ ha _ .reject
      · exact .inr (.inr hmem)
  acceptedB := by
    intro haccepted
    rcases h.acceptedB haccepted with ⟨ha, hmem⟩ | ha
    · rcases List.mem_cons.mp hmem with rfl | hmem
      · exact (hpass _ ha _ .accept).elim
      · exact .inl ⟨ha, hmem⟩
    · exact .inr ha
  acceptedA := h.acceptedA
  terminateAB := h.terminateAB
  terminateBA := fun hmem => h.terminateBA (hmem.imp (List.mem_cons_of_mem _) (List.mem_cons_of_mem _))
  reject := fun hmem => (h.reject (List.mem_cons_of_mem _ hmem)).imp_left
    fun hnone haccept => hnone (List.mem_cons_of_mem _ haccept)
  unanswered := fun hb => (h.unanswered hb).imp_left
    fun hnone haccept => hnone (List.mem_cons_of_mem _ haccept)
  accept := fun hmem => h.accept (List.mem_cons_of_mem _ hmem)

theorem Met.passB (h : Met a b (type :: ab) ba)
    (hpass : ∀ old, b = some old → ∀ new, ¬ Arrival type old new) : Met a b ab ba := by
  refine { h with
    initiateAB := fun hmem => h.initiateAB (List.mem_cons_of_mem _ hmem)
    endingA := fun hending => ?_
    terminateAB := fun hmem => h.terminateAB (List.mem_cons_of_mem _ hmem) }
  rcases h.endingA hending with hb | hmem
  · exact .inl hb
  · rcases List.mem_cons.mp hmem with rfl | hmem
    · exact .inl (ending_of_terminate hpass)
    · exact .inr hmem

/-! ### Changes of one side -/

variable (protocol : SignalingProtocol)

theorem onWire_sessionTerminate : ActionType.onWire protocol .sessionTerminate = .sessionTerminate := by
  cases protocol <;> rfl

theorem onWire_sessionAccept : ActionType.onWire protocol .sessionAccept = .sessionAccept := by
  cases protocol <;> rfl

theorem onWire_sessionReject : ActionType.onWire protocol .sessionReject = .sessionTerminate ∨
      ActionType.onWire protocol .sessionReject = .sessionReject := by
  cases protocol
  · exact .inl rfl
  · exact .inr rfl
  · exact .inl rfl

variable {old new : SessionState} {sent : List ActionType} {protocol : SignalingProtocol}

theorem ending_sentTerminate : Ending (some .sentTerminate) := .inr (.inr (.inl rfl))

theorem ending_of_conclude (h : old = .sentReject ∨ old = .receivedReject) : Ending (some old) :=
  h.elim .inl fun h => .inr (.inl h)

theorem accepted_of_proceed (h : old = .sentAccept ∨ old = .receivedAccept) : Accepted (some old) :=
  h.elim .inl fun h => .inr (.inl h)

theorem Met.changeA (h : Met (some old) b ab ba) (hchange : Change old new sent) :
    Met (some new) b (ab ++ sent.map (·.onWire protocol)) ba := by
  have hnot (h1 : old ≠ .sentInitiate) (h2 : ¬ Accepted (some old)) (h3 : ¬ Ending (some old)) : False := by
    rcases h.stateA with h | h | h
    · exact h1 (by injection h)
    · exact h2 h
    · exact h3 h
  cases hchange with
  | initiate => exact (hnot nofun (by rintro (h | h | h) <;> cases h)
      (by rintro (h | h | h | h) <;> cases h)).elim
  | accept => exact (hnot nofun (by rintro (h | h | h) <;> cases h)
      (by rintro (h | h | h | h) <;> cases h)).elim
  | reject hold =>
    rcases hold with rfl | rfl <;> exact (hnot nofun (by rintro (h | h | h) <;> cases h)
      (by rintro (h | h | h | h) <;> cases h)).elim
  | terminate =>
    rw [List.map_singleton, onWire_sessionTerminate]
    exact h.endA ending_sentTerminate (.inr (by simp)) (by simpa using h.initiateAB) (List.Subset.refl ba)
  | conclude hold =>
    rw [List.map_nil, List.append_nil]
    exact h.endA ending_sentTerminate (h.endingA (ending_of_conclude hold)) h.initiateAB
      (List.Subset.refl ba)
  | proceed hold =>
    rw [List.map_nil, List.append_nil]
    exact h.proceedA (accepted_of_proceed hold) (.inr (.inr rfl))

theorem Met.changeB (h : Met a (some old) ab ba) (hchange : Change old new sent) :
    Met a (some new) ab (ba ++ sent.map (·.onWire protocol)) := by
  have hnot (h1 : old ≠ .receivedInitiate) (h2 : ¬ Accepted (some old)) (h3 : ¬ Ending (some old)) :
      False := by
    rcases h.stateB with h | h | h
    · exact h1 (by injection h)
    · exact h2 h
    · exact h3 h
  cases hchange with
  | initiate => exact (hnot nofun (by rintro (h | h | h) <;> cases h)
      (by rintro (h | h | h | h) <;> cases h)).elim
  | accept =>
    rw [List.map_singleton, onWire_sessionAccept]
    exact h.acceptB
  | reject hold =>
    rcases hold with rfl | rfl
    · have hunanswered := h.unanswered rfl
      rw [List.map_singleton]
      rcases onWire_sessionReject protocol with hwire | hwire <;> rw [hwire]
      · refine h.endB (.inl rfl) (.inr (.inl (by simp))) (by simpa using h.initiateBA)
          (List.Subset.refl ab) fun _ => ⟨by simpa using hunanswered.1, hunanswered.2⟩
      · refine h.endB (.inl rfl) (.inr (.inr (by simp))) (by simpa using h.initiateBA)
          (List.Subset.refl ab) fun _ => ⟨by simpa using hunanswered.1, hunanswered.2⟩
    · exact (hnot nofun (by rintro (h | h | h) <;> cases h)
        (by rintro (h | h | h | h) <;> cases h)).elim
  | terminate =>
    rw [List.map_singleton, onWire_sessionTerminate]
    refine h.endB ending_sentTerminate (.inr (.inl (by simp))) (by simpa using h.initiateBA)
      (List.Subset.refl ab) fun hmem => ?_
    have hreject := h.reject (by simpa using hmem)
    exact ⟨by simpa using hreject.1, hreject.2⟩
  | conclude hold =>
    rw [List.map_nil, List.append_nil]
    exact h.endB ending_sentTerminate (h.endingB (ending_of_conclude hold)) h.initiateBA
      (List.Subset.refl ab) h.reject
  | proceed hold =>
    rw [List.map_nil, List.append_nil]
    exact h.proceedB (accepted_of_proceed hold) (.inr (.inr rfl))

theorem Agree.changeA (h : Agree (some old) b ab ba) (hchange : Change old new sent) :
    Agree (some new) b (ab ++ sent.map (·.onWire protocol)) ba := by
  cases h with
  | met h => exact .met (h.changeA hchange)
  | offered rest hab hrest hba hb ha hending =>
    cases hchange with
    | terminate =>
      refine .offered (rest ++ [.sessionTerminate]) ?_ (by simpa using hrest) hba hb
        (.inr ending_sentTerminate) (iff_of_true ending_sentTerminate (by simp))
      rw [hab, List.map_singleton, onWire_sessionTerminate, List.cons_append]
    | conclude hold =>
      refine .offered rest (by simpa using hab) hrest hba hb (.inr ending_sentTerminate)
        (iff_of_true ending_sentTerminate (hending.mp (ending_of_conclude hold)))
    | initiate => rcases ha with h | h | h | h | h <;> cases h
    | accept => rcases ha with h | h | h | h | h <;> cases h
    | reject hold => rcases hold with rfl | rfl <;> rcases ha with h | h | h | h | h <;> cases h
    | proceed hold => rcases hold with rfl | rfl <;> rcases ha with h | h | h | h | h <;> cases h

theorem Agree.changeB (h : Agree a (some old) ab ba) (hchange : Change old new sent) :
    Agree a (some new) ab (ba ++ sent.map (·.onWire protocol)) := by
  cases h with
  | met h => exact .met (h.changeB hchange)
  | offered _ _ _ _ hb => cases hb

theorem Agree.destroyA (h : Agree (some old) b ab ba) (hold : old.Terminated) : Agree none b ab ba := by
  have hending : Ending (some old) := .inr (.inr hold)
  cases h with
  | met h => exact .met (h.endA trivial (h.endingA hending) h.initiateAB (List.Subset.refl ba))
  | offered rest hab hrest hba hb _ hiff =>
    exact .offered rest hab hrest hba hb (.inr trivial) (iff_of_true trivial (hiff.mp hending))

theorem Agree.destroyB (h : Agree a (some old) ab ba) (hold : old.Terminated) : Agree a none ab ba := by
  have hending : Ending (some old) := .inr (.inr hold)
  cases h with
  | met h =>
    exact .met (h.endB trivial (h.endingB hending) h.initiateBA (List.Subset.refl ab) h.reject)
  | offered _ _ _ _ hb => cases hb

/-! ### Signals that arrive -/

theorem Agree.arriveA (h : Agree (some old) b ab (type :: ba)) (harrival : Arrival type old new) :
    Agree (some new) b ab ba := by
  cases h with
  | offered _ _ _ hba => cases hba
  | met h =>
    have hends (hnew : Ending (some new)) (hb : Ending b) : Agree (some new) b ab ba :=
      .met (h.endA hnew (.inl hb) h.initiateAB (List.subset_cons_self type ba))
    cases harrival with
    | initiate => exact absurd List.mem_cons_self h.initiateBA
    | accept => exact .met h.acceptA
    | reject => exact hends (.inr (.inl rfl)) (h.terminateBA (.inr List.mem_cons_self))
    | terminate _ => exact hends (.inr (.inr (.inr rfl))) (h.terminateBA (.inl List.mem_cons_self))

theorem Agree.arriveB (h : Agree a (some old) (type :: ab) ba) (harrival : Arrival type old new) :
    Agree a (some new) ab ba := by
  cases h with
  | offered _ _ _ _ hb => cases hb
  | met h =>
    -- the side that was offered the session has never initiated it
    have hnot (hold : old = .sentInitiate) : False := by
      subst hold
      rcases h.stateB with h | (h | h | h) | (h | h | h | h) <;> cases h
    cases harrival with
    | initiate => exact absurd List.mem_cons_self h.initiateAB
    | accept => exact (hnot rfl).elim
    | reject => exact (hnot rfl).elim
    | terminate _ =>
      exact .met (h.endB (.inr (.inr (.inr rfl))) (.inl (h.terminateAB List.mem_cons_self)) h.initiateBA
        (List.subset_cons_self _ ab) h.reject)

theorem Agree.passA (h : Agree a b ab (type :: ba))
    (hpass : ∀ old, a = some old → ∀ new, ¬ Arrival type old new) : Agree a b ab ba := by
  cases h with
  | offered _ _ _ hba => cases hba
  | met h => exact .met (h.passA hpass)

theorem Agree.passB (h : Agree a b (type :: ab) ba) (htype : type ≠ .sessionInitiate)
    (hpass : ∀ old, b = some old → ∀ new, ¬ Arrival type old new) : Agree a b ab ba := by
  cases h with
  | offered _ hab =>
    injection hab with hab
    exact absurd hab htype
  | met h => exact .met (h.passB hpass)

theorem Agree.create (h : Agree a b (.sessionInitiate :: ab) ba) :
    b = none ∧ Agree a (some .receivedInitiate) ab ba := by
  cases h with
  | met h => exact absurd List.mem_cons_self h.initiateAB
  | offered rest hab hrest hba hb ha hending =>
    obtain rfl : ab = rest := by
      injection hab
    subst hba
    have hnot : ¬ Ending (some .receivedInitiate) := by
      rintro (h | h | h | h) <;> cases h
    have haccepted : ¬ Accepted a := by
      rcases ha with rfl | ha
      · rintro (h | h | h) <;> cases h
      · exact not_accepted_of_ending ha
    refine ⟨hb, .met ?_⟩
    exact {
      stateA := ha.imp_right .inr
      stateB := .inl rfl
      initiateAB := hrest
      initiateBA := List.not_mem_nil
      endingA := fun h => .inr (hending.mp h)
      endingB := fun h => absurd h hnot
      acceptedB := by
        rintro (h | h | h) <;> cases h
      acceptedA := fun h => absurd h haccepted
      terminateAB := hending.mpr
      terminateBA := by simp
      reject := by simp
      unanswered := fun _ => ⟨List.not_mem_nil, haccepted⟩
      accept := by simp }

theorem Agree.settled (h : Agree a b [] []) :
    (a = some .sentInitiate ∧ b = some .receivedInitiate) ∨ (Accepted a ∧ Accepted b) ∨
      (Ending a ∧ Ending b) := by
  cases h with
  | offered _ hab => cases hab
  | met h =>
    have hboth (hend : Ending a ∨ Ending b) : Ending a ∧ Ending b := by
      rcases hend with ha | hb
      · exact ⟨ha, by simpa using h.endingA ha⟩
      · exact ⟨by simpa using h.endingB hb, hb⟩
    rcases h.stateA with ha | ha | ha
    · rcases h.stateB with hb | hb | hb
      · exact .inl ⟨ha, hb⟩
      · refine .inr ?_
        rcases h.acceptedB hb with ⟨-, hmem⟩ | ha | ha
        · exact absurd hmem List.not_mem_nil
        · exact .inl ⟨ha, hb⟩
        · exact .inr (hboth (.inl ha))
      · exact .inr (.inr (hboth (.inr hb)))
    · exact .inr ((h.acceptedA ha).imp (fun hb => ⟨ha, hb⟩) fun hb => hboth (.inr hb))
    · exact .inr (.inr (hboth (.inl ha)))

end States

end Synciga.P2p
