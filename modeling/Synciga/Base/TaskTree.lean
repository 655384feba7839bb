import Mathlib.Logic.Relation
import Synciga.Base.TaskRunner

/-!
# The tree of tasks while tasks are stopped

While a task is being stopped, it is done but its children are not yet, and it is still in its parent's list.
The invariant of the tree leaves out a list of tasks, those whose `Stop` is at work. A child that is in its
`Process` is done only once that returns.

## Main definitions

* `Stable` — the invariant
* `Aborts` — what `Abort` does

## Main results

* `Stable.leave`, `Stable.abortWithin` — a `Stop` ends, and `Abort` keeps the invariant
-/

namespace Synciga.TaskRunner

/-! ### The invariants -/

variable (r : TaskRunner)

/-- The task is gone, or done. -/
def Finished (id : TaskId) : Prop := ∀ t, r.heap id = some t → t.done = true

/-- The task was aborted in its `Process`. -/
def Leaving (id : TaskId) : Prop :=
  ∃ t, r.heap id = some t ∧ t.busy = true ∧ t.aborted = true

/-- `child` was made with the parent. -/
def Child (parent child : TaskId) : Prop := .created (some parent) child ∈ r.trace

/-- `id` is below `top` in the tree. -/
def Below : TaskId → TaskId → Prop := Relation.TransGen r.Child

/-- The tree. `stopping` is the list of the tasks whose `Stop` is at work. -/
structure Tree (stopping : List TaskId) (r : TaskRunner) : Prop where
  alive : ∀ {id t}, r.heap id = some t → id < r.nextId ∧ .created t.parent id ∈ r.trace
  created : ∀ {parent id}, .created parent id ∈ r.trace →
    id < r.nextId ∧ (∀ above, parent = some above → above < id) ∧ ∀ t, r.heap id = some t → t.parent = parent
  child : ∀ {parent id}, id ∈ r.childrenOf parent →
    ∃ t, r.heap id = some t ∧ t.parent = parent ∧ (t.done = false ∨ id ∈ stopping)
  listed : ∀ {id t}, r.heap id = some t → t.done = false → id ∈ r.childrenOf t.parent
  finished : ∀ {parent id}, parent < r.nextId → parent ∉ stopping → r.Finished parent → r.Child parent id →
    r.Finished id ∨ r.Leaving id

/-- The flags of a task fit together. `lost` says that the error flag may be lost. -/
structure TaskFlags (lost : Prop) (t : Task) : Prop where
  aborted : t.aborted = true → t.done = true ∨ t.busy = true
  busy : t.busy = true → t.done = false
  error : t.error = true → t.done = true ∨ t.blocked = false ∨ lost

/-- The flags of the tasks, and the task that is in its `Process`. -/
structure Flags (lost : Prop) (r : TaskRunner) : Prop where
  ok : ∀ {id t}, r.heap id = some t → TaskFlags lost t
  busy : ∀ {id t}, r.heap id = some t → (t.busy = true ↔ ∃ pass, r.phase = .processing pass id)
  running : ∀ {pass id}, r.phase = .processing pass id → ∃ t, r.heap id = some t

/-- What may be recorded behind what was recorded before. -/
def Lawful (before : List TaskEvent) : TaskEvent → Prop
  | .process id _ => .stopped id ∉ before ∧ .aborted id ∉ before
  | .stopped id => .stopped id ∉ before
  | .deleted id => .deleted id ∉ before ∧ .stopped id ∈ before
  | _ => True

/-- The task that an event is about. -/
def about : TaskEvent → Option TaskId
  | .created _ id => some id
  | .started id => some id
  | .process id _ => some id
  | .woken id => some id
  | .aborted id => some id
  | .stopped id => some id
  | .deleted id => some id
  | .timeoutChange => none

/-- The record. -/
structure Log (r : TaskRunner) : Prop where
  lawful : Runs.Lawful Lawful r.trace
  known : ∀ {event id}, event ∈ r.trace → about event = some id → id < r.nextId
  stopped : ∀ {id t}, r.heap id = some t → (.stopped id ∈ r.trace ↔ t.done = true)
  aborted : ∀ {id t}, r.heap id = some t → .aborted id ∈ r.trace → t.aborted = true
  kept : ∀ {id t}, r.heap id = some t → .deleted id ∉ r.trace
  gone : ∀ {id}, r.heap id = none → id < r.nextId → .stopped id ∈ r.trace ∧ .deleted id ∈ r.trace

/-- All of them. -/
structure Stable (lost : Prop) (stopping : List TaskId) (r : TaskRunner) : Prop where
  tree : r.Tree stopping
  flags : r.Flags lost
  log : r.Log

/-! ### Changing one task -/

/-- One task is changed, and events are recorded. -/
structure Replaces (r r' : TaskRunner) (id : TaskId) (t t' : Task) (events : List TaskEvent) : Prop where
  before : r.heap id = some t
  heap : r'.heap = Function.update r.heap id (some t')
  nextId : r'.nextId = r.nextId
  children : r'.children = r.children
  trace : r'.trace = r.trace ++ events
  parent : t'.parent = t.parent
  kids : t'.children = t.children
  created : ∀ parent child, .created parent child ∉ events

section replaces

variable {lost : Prop} {r r' : TaskRunner} {id : TaskId} {t t' : Task} {events : List TaskEvent}
  {stopping : List TaskId}

theorem Replaces.self (h : Replaces r r' id t t' events) : r'.heap id = some t' := by
  rw [h.heap, Function.update_self]

theorem Replaces.other (h : Replaces r r' id t t' events) {x : TaskId} (hx : x ≠ id) :
    r'.heap x = r.heap x := by
  rw [h.heap, Function.update_of_ne hx]

theorem Replaces.cases (h : Replaces r r' id t t' events) {x : TaskId} {u : Task} (hu : r'.heap x = some u) :
    (x = id ∧ u = t') ∨ (x ≠ id ∧ r.heap x = some u) := by
  by_cases hx : x = id
  · rw [hx, h.self] at hu
    exact .inl ⟨hx, (Option.some.inj hu).symm⟩
  · rw [h.other hx] at hu
    exact .inr ⟨hx, hu⟩

theorem Replaces.childrenOf (h : Replaces r r' id t t' events) (parent : Option TaskId) :
    r'.childrenOf parent = r.childrenOf parent := by
  cases parent with
  | none => exact h.children
  | some x =>
    by_cases hx : x = id
    · rw [hx, TaskRunner.childrenOf, TaskRunner.childrenOf, h.self, h.before]
      exact h.kids
    · rw [TaskRunner.childrenOf, TaskRunner.childrenOf, h.other hx]

theorem Replaces.created_iff (h : Replaces r r' id t t' events) {parent : Option TaskId} {child : TaskId} :
    .created parent child ∈ r'.trace ↔ .created parent child ∈ r.trace := by
  rw [h.trace, List.mem_append, or_iff_left (h.created parent child)]

theorem Tree.replaces (htree : r.Tree stopping) (h : Replaces r r' id t t' events)
    {stopping' : List TaskId} (hstopping : ∀ x ∈ stopping, x ∈ stopping')
    (hmore : ∀ x ∈ stopping', x ∈ stopping ∨ x = id)
    (hdone : t'.done = t.done ∧ id ∉ stopping' ∨ t'.done = true ∧ id ∈ stopping')
    (hleaving : t.busy = true → t.aborted = true → t'.done = true ∨ (t'.busy = true ∧ t'.aborted = true)) :
    r'.Tree stopping' where
  alive {x u} hu := by
    rw [h.nextId, h.created_iff]
    rcases h.cases hu with ⟨rfl, rfl⟩ | ⟨-, hu⟩
    · rw [h.parent]
      exact htree.alive h.before
    · exact htree.alive hu
  created {parent x} hx := by
    rw [h.created_iff] at hx
    obtain ⟨hlt, habove, hparent⟩ := htree.created hx
    refine ⟨h.nextId ▸ hlt, habove, fun u hu => ?_⟩
    rcases h.cases hu with ⟨rfl, rfl⟩ | ⟨-, hu⟩
    · rw [h.parent]
      exact hparent t h.before
    · exact hparent u hu
  child {parent x} hx := by
    rw [h.childrenOf] at hx
    obtain ⟨u, hu, hparent, hstate⟩ := htree.child hx
    by_cases hxid : x = id
    · subst hxid
      cases h.before.symm.trans hu
      refine ⟨t', h.self, h.parent.trans hparent, ?_⟩
      rcases hdone with ⟨heq, -⟩ | ⟨-, hmem⟩
      · rw [heq]
        exact hstate.imp_right (hstopping x)
      · exact .inr hmem
    · exact ⟨u, (h.other hxid).trans hu, hparent, hstate.imp_right (hstopping x)⟩
  listed {x u} hu hnot := by
    rw [h.childrenOf]
    rcases h.cases hu with ⟨rfl, rfl⟩ | ⟨-, hu⟩
    · rw [h.parent]
      rcases hdone with ⟨heq, -⟩ | ⟨htrue, -⟩
      · exact htree.listed h.before (heq ▸ hnot)
      · rw [htrue] at hnot
        cases hnot
    · exact htree.listed hu hnot
  finished {parent x} hlt hnot hfinished hchild := by
    rw [h.nextId] at hlt
    rw [Child, h.created_iff] at hchild
    have hbefore : r.Finished parent := by
      intro u hu
      by_cases hp : parent = id
      · subst hp
        cases h.before.symm.trans hu
        rcases hdone with ⟨heq, -⟩ | ⟨-, hmem⟩
        · rw [← heq]
          exact hfinished t' h.self
        · exact absurd hmem hnot
      · exact hfinished u ((h.other hp).trans hu)
    rcases htree.finished hlt (fun hmem => hnot (hstopping _ hmem)) hbefore hchild with hx | hx
    · refine .inl fun u hu => ?_
      rcases h.cases hu with ⟨rfl, rfl⟩ | ⟨-, hu⟩
      · rcases hdone with ⟨heq, -⟩ | ⟨htrue, -⟩
        · rw [heq]
          exact hx t h.before
        · exact htrue
      · exact hx u hu
    obtain ⟨u, hu, hbusy, haborted⟩ := hx
    by_cases hxid : x = id
    · subst hxid
      cases h.before.symm.trans hu
      rcases hleaving hbusy haborted with hdone' | hboth
      · refine .inl fun u' hu' => ?_
        cases h.self.symm.trans hu'
        exact hdone'
      · exact .inr ⟨t', h.self, hboth⟩
    · exact .inr ⟨u, (h.other hxid).trans hu, hbusy, haborted⟩

theorem Log.replaces (hlog : r.Log) (htree : r.Tree stopping) (h : Replaces r r' id t t' events)
    (hlawful : Runs.Lawful Lawful (r.trace ++ events))
    (habout : ∀ event ∈ events, ∀ x, about event = some x → x = id)
    (hstopped : t'.done = true ↔ t.done = true ∨ .stopped id ∈ events)
    (haborted : (t.aborted = true ∨ .aborted id ∈ events) → t'.aborted = true)
    (hdeleted : .deleted id ∉ events) : r'.Log := by
  have hid : id < r.nextId := (htree.alive h.before).1
  have hmem : ∀ {event x}, about event = some x → x ≠ id → (event ∈ r'.trace ↔ event ∈ r.trace) := by
    intro event x hx hne
    rw [h.trace, List.mem_append, or_iff_left]
    exact fun hevent => hne (habout event hevent x hx)
  refine ⟨h.trace ▸ hlawful, ?_, ?_, ?_, ?_, ?_⟩
  · intro event x hevent hx
    rw [h.nextId]
    rw [h.trace] at hevent
    rcases List.mem_append.mp hevent with hevent | hevent
    · exact hlog.known hevent hx
    · rw [habout event hevent x hx]
      exact hid
  · intro x u hu
    rcases h.cases hu with ⟨rfl, rfl⟩ | ⟨hne, hu⟩
    · rw [h.trace, List.mem_append, hlog.stopped h.before, hstopped]
    · rw [hmem rfl hne, hlog.stopped hu]
  · intro x u hu hevent
    rcases h.cases hu with ⟨rfl, rfl⟩ | ⟨hne, hu⟩
    · rw [h.trace] at hevent
      exact haborted ((List.mem_append.mp hevent).imp_left (hlog.aborted h.before))
    · exact hlog.aborted hu ((hmem rfl hne).mp hevent)
  · intro x u hu hevent
    rcases h.cases hu with ⟨rfl, rfl⟩ | ⟨hne, hu⟩
    · rw [h.trace] at hevent
      exact (List.mem_append.mp hevent).elim (hlog.kept h.before) hdeleted
    · exact hlog.kept hu ((hmem rfl hne).mp hevent)
  intro x hx hlt
  have hne : x ≠ id := by
    rintro rfl
    rw [h.self] at hx
    cases hx
  rw [h.other hne] at hx
  rw [hmem rfl hne, hmem rfl hne]
  exact hlog.gone hx (h.nextId ▸ hlt)

theorem Flags.replaces (hflags : r.Flags lost) (h : Replaces r r' id t t' events) (hok : TaskFlags lost t')
    (hself : t'.busy = true ↔ ∃ pass, r'.phase = .processing pass id)
    (hothers : ∀ x pass, x ≠ id → r'.phase = .processing pass x → r.phase = .processing pass x)
    (hback : ∀ x pass, x ≠ id → r.phase = .processing pass x → r'.phase = .processing pass x) : r'.Flags lost where
  ok {x u} hu := by
    rcases h.cases hu with ⟨rfl, rfl⟩ | ⟨-, hu⟩
    · exact hok
    · exact hflags.ok hu
  busy {x u} hu := by
    rcases h.cases hu with ⟨rfl, rfl⟩ | ⟨hne, hu⟩
    · exact hself
    · refine (hflags.busy hu).trans ⟨fun ⟨pass, hpass⟩ => ⟨pass, hback x pass hne hpass⟩, ?_⟩
      exact fun ⟨pass, hpass⟩ => ⟨pass, hothers x pass hne hpass⟩
  running {pass x} hpass := by
    by_cases hx : x = id
    · rw [hx]
      exact ⟨t', h.self⟩
    · obtain ⟨u, hu⟩ := hflags.running (hothers x pass hx hpass)
      exact ⟨u, (h.other hx).trans hu⟩

theorem Flags.replaces_same (hflags : r.Flags lost) (h : Replaces r r' id t t' events) (hok : TaskFlags lost t')
    (hbusy : t'.busy = t.busy) (hphase : r'.phase = r.phase) : r'.Flags lost := by
  refine hflags.replaces h hok ?_ ?_ ?_
  · rw [hbusy, hphase]
    exact hflags.busy h.before
  · intro x pass _ hpass
    rwa [hphase] at hpass
  · intro x pass _ hpass
    rwa [hphase]

end replaces

/-! ### What the invariants do not look at -/

/-- The tasks differ in their children and timeouts at most. -/
structure Task.Alike (t t' : Task) : Prop where
  parent : t'.parent = t.parent
  state : t'.state = t.state
  blocked : t'.blocked = t.blocked
  done : t'.done = t.done
  aborted : t'.aborted = t.aborted
  busy : t'.busy = t.busy
  error : t'.error = t.error

theorem Task.Alike.refl (t : Task) : Task.Alike t t := ⟨rfl, rfl, rfl, rfl, rfl, rfl, rfl⟩

theorem Task.Alike.trans {t t' t'' : Task} (h : Task.Alike t t') (h' : Task.Alike t' t'') :
    Task.Alike t t'' :=
  ⟨h'.parent.trans h.parent, h'.state.trans h.state, h'.blocked.trans h.blocked, h'.done.trans h.done,
    h'.aborted.trans h.aborted, h'.busy.trans h.busy, h'.error.trans h.error⟩

/-- All tasks are alike, and only changes of the timeout were recorded. -/
structure Alike (r r' : TaskRunner) : Prop where
  nextId : r'.nextId = r.nextId
  tasks : r'.tasks = r.tasks
  phase : r'.phase = r.phase
  heap : ∀ {id t}, r.heap id = some t → ∃ t', r'.heap id = some t' ∧ Task.Alike t t'
  back : ∀ {id t'}, r'.heap id = some t' → ∃ t, r.heap id = some t ∧ Task.Alike t t'
  trace : ∃ events, r'.trace = r.trace ++ events ∧ ∀ event ∈ events, event = .timeoutChange

section alike

variable {lost : Prop} {r r' r'' : TaskRunner}

theorem Alike.refl (r : TaskRunner) : Alike r r :=
  ⟨rfl, rfl, rfl, fun h => ⟨_, h, .refl _⟩, fun h => ⟨_, h, .refl _⟩, [], (List.append_nil _).symm,
    fun _ hmem => nomatch hmem⟩

theorem Alike.trans (h : Alike r r') (h' : Alike r' r'') : Alike r r'' := by
  obtain ⟨events, htrace, hevents⟩ := h.trace
  obtain ⟨events', htrace', hevents'⟩ := h'.trace
  refine ⟨h'.nextId.trans h.nextId, h'.tasks.trans h.tasks, h'.phase.trans h.phase, ?_, ?_,
    events ++ events', by rw [htrace', htrace, List.append_assoc], ?_⟩
  · intro x t ht
    obtain ⟨t', ht', halike⟩ := h.heap ht
    obtain ⟨t'', ht'', halike'⟩ := h'.heap ht'
    exact ⟨t'', ht'', halike.trans halike'⟩
  · intro x t'' ht''
    obtain ⟨t', ht', halike'⟩ := h'.back ht''
    obtain ⟨t, ht, halike⟩ := h.back ht'
    exact ⟨t, ht, halike.trans halike'⟩
  · intro event hevent
    exact (List.mem_append.mp hevent).elim (hevents event) (hevents' event)

theorem Alike.mem_trace (h : Alike r r') (event : TaskEvent) (hevent : event ≠ .timeoutChange) :
    event ∈ r'.trace ↔ event ∈ r.trace := by
  obtain ⟨events, htrace, hevents⟩ := h.trace
  rw [htrace, List.mem_append, or_iff_left]
  exact fun hmem => hevent (hevents _ hmem)

variable {id : TaskId}

theorem Alike.heap_none (h : Alike r r') (hid : r'.heap id = none) : r.heap id = none := by
  cases ht : r.heap id with
  | none => rfl
  | some t =>
    obtain ⟨t', ht', -⟩ := h.heap ht
    rw [hid] at ht'
    cases ht'

theorem Flags.alike (hflags : r.Flags lost) (h : Alike r r') : r'.Flags lost where
  ok {id t'} ht' := by
    obtain ⟨t, ht, halike⟩ := h.back ht'
    obtain ⟨haborted, hbusy, herror⟩ := hflags.ok ht
    refine ⟨?_, ?_, ?_⟩
    · rw [halike.aborted, halike.done, halike.busy]
      exact haborted
    · rw [halike.busy, halike.done]
      exact hbusy
    · rw [halike.error, halike.done, halike.blocked]
      exact herror
  busy {id t'} ht' := by
    obtain ⟨t, ht, halike⟩ := h.back ht'
    rw [halike.busy, h.phase]
    exact hflags.busy ht
  running {pass id} hpass := by
    rw [h.phase] at hpass
    obtain ⟨t, ht⟩ := hflags.running hpass
    obtain ⟨t', ht', -⟩ := h.heap ht
    exact ⟨t', ht'⟩

theorem Log.alike (hlog : r.Log) (h : Alike r r') : r'.Log where
  lawful := by
    obtain ⟨events, htrace, hevents⟩ := h.trace
    rw [htrace]
    clear htrace
    induction events using List.reverseRecOn with
    | nil =>
      rw [List.append_nil]
      exact hlog.lawful
    | append_singleton events event ih =>
      rw [← List.append_assoc]
      refine (ih fun e he => hevents e (List.mem_append_left _ he)).append ?_
      rw [hevents event (List.mem_append_right _ List.mem_cons_self)]
      trivial
  known {event id} hevent habout := by
    have hne : event ≠ .timeoutChange := by
      rintro rfl
      cases habout
    rw [h.nextId]
    exact hlog.known ((h.mem_trace event hne).mp hevent) habout
  stopped {id t'} ht' := by
    obtain ⟨t, ht, halike⟩ := h.back ht'
    rw [h.mem_trace (.stopped id) nofun, halike.done]
    exact hlog.stopped ht
  aborted {id t'} ht' hevent := by
    obtain ⟨t, ht, halike⟩ := h.back ht'
    rw [halike.aborted]
    exact hlog.aborted ht ((h.mem_trace (.aborted id) nofun).mp hevent)
  kept {id t'} ht' hevent := by
    obtain ⟨t, ht, -⟩ := h.back ht'
    exact hlog.kept ht ((h.mem_trace (.deleted id) nofun).mp hevent)
  gone {id} hid hlt := by
    rw [h.mem_trace (.stopped id) nofun, h.mem_trace (.deleted id) nofun]
    exact hlog.gone (h.heap_none hid) (h.nextId ▸ hlt)

theorem Alike.finished (h : Alike r r') : r'.Finished id ↔ r.Finished id := by
  constructor
  · intro hfinished t ht
    obtain ⟨t', ht', halike⟩ := h.heap ht
    rw [← halike.done]
    exact hfinished t' ht'
  · intro hfinished t' ht'
    obtain ⟨t, ht, halike⟩ := h.back ht'
    rw [halike.done]
    exact hfinished t ht

theorem Alike.leaving (h : Alike r r') (hleaving : r.Leaving id) : r'.Leaving id := by
  obtain ⟨t, ht, hbusy, haborted⟩ := hleaving
  obtain ⟨t', ht', halike⟩ := h.heap ht
  exact ⟨t', ht', halike.busy.trans hbusy, halike.aborted.trans haborted⟩

theorem Tree.alike {stopping : List TaskId} (htree : r.Tree stopping) (h : Alike r r')
    (hlists : ∀ parent, r'.childrenOf parent = r.childrenOf parent) : r'.Tree stopping where
  alive {id t'} ht' := by
    obtain ⟨t, ht, halike⟩ := h.back ht'
    rw [h.nextId, h.mem_trace (.created _ id) nofun, halike.parent]
    exact htree.alive ht
  created {parent id} hid := by
    rw [h.mem_trace (.created parent id) nofun] at hid
    obtain ⟨hlt, habove, hparent⟩ := htree.created hid
    refine ⟨h.nextId ▸ hlt, habove, fun t' ht' => ?_⟩
    obtain ⟨t, ht, halike⟩ := h.back ht'
    rw [halike.parent]
    exact hparent t ht
  child {parent id} hid := by
    rw [hlists] at hid
    obtain ⟨t, ht, hparent, hstate⟩ := htree.child hid
    obtain ⟨t', ht', halike⟩ := h.heap ht
    exact ⟨t', ht', halike.parent.trans hparent, by rw [halike.done]; exact hstate⟩
  listed {id t'} ht' hnot := by
    obtain ⟨t, ht, halike⟩ := h.back ht'
    rw [hlists, halike.parent]
    exact htree.listed ht (halike.done ▸ hnot)
  finished {parent id} hlt hnot hfinished hchild := by
    rw [h.finished] at hfinished
    rw [Child, h.mem_trace (.created _ id) nofun] at hchild
    exact (htree.finished (h.nextId ▸ hlt) hnot hfinished hchild).imp h.finished.mpr h.leaving

theorem Stable.alike {stopping : List TaskId} (hstable : r.Stable lost stopping)
    (h : Alike r r') (hlists : ∀ parent, r'.childrenOf parent = r.childrenOf parent) :
    r'.Stable lost stopping :=
  ⟨hstable.tree.alike h hlists, hstable.flags.alike h, hstable.log.alike h⟩

end alike

/-! ### What `Abort` does -/

/-- A task may be aborted, and loses children. -/
structure Task.Later (t t' : Task) : Prop where
  parent : t'.parent = t.parent
  children : ∀ x ∈ t'.children, x ∈ t.children
  state : t'.state = t.state
  busy : t'.busy = t.busy
  timeoutTime : t'.timeoutTime = t.timeoutTime
  timeoutSeconds : t'.timeoutSeconds = t.timeoutSeconds
  timeoutSuspended : t'.timeoutSuspended = t.timeoutSuspended
  done : t.done = true → t'.done = true
  aborted : t.aborted = true → t'.aborted = true

theorem Task.Later.refl (t : Task) : Task.Later t t :=
  ⟨rfl, fun _ => id, rfl, rfl, rfl, rfl, rfl, id, id⟩

theorem Task.Later.trans {t t' t'' : Task} (h : Task.Later t t') (h' : Task.Later t' t'') :
    Task.Later t t'' where
  parent := h'.parent.trans h.parent
  children x hx := h.children x (h'.children x hx)
  state := h'.state.trans h.state
  busy := h'.busy.trans h.busy
  timeoutTime := h'.timeoutTime.trans h.timeoutTime
  timeoutSeconds := h'.timeoutSeconds.trans h.timeoutSeconds
  timeoutSuspended := h'.timeoutSuspended.trans h.timeoutSuspended
  done hdone := h'.done (h.done hdone)
  aborted haborted := h'.aborted (h.aborted haborted)

/-- Tasks may be aborted and lose children, and nothing else happens. -/
structure Aborts (r r' : TaskRunner) : Prop where
  nextId : r'.nextId = r.nextId
  tasks : r'.tasks = r.tasks
  nextTimeout : r'.nextTimeout = r.nextTimeout
  phase : r'.phase = r.phase
  now : r'.now = r.now
  heap : ∀ {id t}, r.heap id = some t → ∃ t', r'.heap id = some t' ∧ Task.Later t t'
  back : ∀ {id t'}, r'.heap id = some t' → ∃ t, r.heap id = some t ∧ Task.Later t t'
  children : ∀ x ∈ r'.children, x ∈ r.children
  trace : ∃ events, r'.trace = r.trace ++ events ∧
    ∀ event ∈ events, ∃ id, event = .aborted id ∨ event = .stopped id

section aborts

variable {r r' r'' : TaskRunner} {id : TaskId}

theorem Aborts.refl (r : TaskRunner) : Aborts r r :=
  ⟨rfl, rfl, rfl, rfl, rfl, fun h => ⟨_, h, .refl _⟩, fun h => ⟨_, h, .refl _⟩, fun _ => id, [],
    (List.append_nil _).symm, fun _ hmem => nomatch hmem⟩

theorem Aborts.trans (h : Aborts r r') (h' : Aborts r' r'') : Aborts r r'' := by
  obtain ⟨events, htrace, hevents⟩ := h.trace
  obtain ⟨events', htrace', hevents'⟩ := h'.trace
  refine ⟨h'.nextId.trans h.nextId, h'.tasks.trans h.tasks, h'.nextTimeout.trans h.nextTimeout,
    h'.phase.trans h.phase, h'.now.trans h.now, ?_, ?_, fun x hx => h.children x (h'.children x hx),
    events ++ events', by rw [htrace', htrace, List.append_assoc], ?_⟩
  · intro x t ht
    obtain ⟨t', ht', hlater⟩ := h.heap ht
    obtain ⟨t'', ht'', hlater'⟩ := h'.heap ht'
    exact ⟨t'', ht'', hlater.trans hlater'⟩
  · intro x t'' ht''
    obtain ⟨t', ht', hlater'⟩ := h'.back ht''
    obtain ⟨t, ht, hlater⟩ := h.back ht'
    exact ⟨t, ht, hlater.trans hlater'⟩
  · intro event hevent
    exact (List.mem_append.mp hevent).elim (hevents event) (hevents' event)

variable {x : TaskId}

theorem Aborts.childrenOf (h : Aborts r r') {parent : Option TaskId}
    (hx : x ∈ r'.childrenOf parent) : x ∈ r.childrenOf parent := by
  cases parent with
  | none => exact h.children x hx
  | some p =>
    rw [TaskRunner.childrenOf] at hx ⊢
    cases hp : r'.heap p with
    | none =>
      rw [hp] at hx
      cases hx
    | some t' =>
      rw [hp] at hx
      obtain ⟨t, ht, hlater⟩ := h.back hp
      rw [ht]
      exact hlater.children x hx

theorem Aborts.created_iff (h : Aborts r r') {parent : Option TaskId} {child : TaskId} :
    .created parent child ∈ r'.trace ↔ .created parent child ∈ r.trace := by
  obtain ⟨events, htrace, hevents⟩ := h.trace
  rw [htrace, List.mem_append, or_iff_left]
  intro hmem
  obtain ⟨x, hx | hx⟩ := hevents _ hmem
  · cases hx
  · cases hx

theorem Aborts.leaving (h : Aborts r r') (hx : r.Leaving x) : r'.Leaving x := by
  obtain ⟨t, ht, hbusy, haborted⟩ := hx
  obtain ⟨t', ht', hlater⟩ := h.heap ht
  exact ⟨t', ht', hlater.busy.trans hbusy, hlater.aborted haborted⟩

theorem Aborts.finished (h : Aborts r r') (hx : r.Finished x) : r'.Finished x := by
  intro t' ht'
  obtain ⟨t, ht, hlater⟩ := h.back ht'
  exact hlater.done (hx t ht)

theorem Replaces.aborts {t t' : Task} {events : List TaskEvent} (h : Replaces r r' id t t' events)
    (hlater : Task.Later t t') (htasks : r'.tasks = r.tasks) (hnext : r'.nextTimeout = r.nextTimeout)
    (hphase : r'.phase = r.phase) (hnow : r'.now = r.now)
    (hevents : ∀ event ∈ events, ∃ id, event = .aborted id ∨ event = .stopped id) : Aborts r r' := by
  refine ⟨h.nextId, htasks, hnext, hphase, hnow, ?_, ?_, fun x hx => h.children ▸ hx, events, h.trace, hevents⟩
  · intro x u hu
    by_cases hx : x = id
    · subst hx
      cases h.before.symm.trans hu
      exact ⟨t', h.self, hlater⟩
    · exact ⟨u, (h.other hx).trans hu, .refl u⟩
  · intro x u hu
    rcases h.cases hu with ⟨rfl, rfl⟩ | ⟨-, hu⟩
    · exact ⟨t, h.before, hlater⟩
    · exact ⟨u, hu, .refl u⟩

theorem heap_modify_self (r : TaskRunner) (id : TaskId) (f : Task → Task) :
    (r.modify id f).heap id = (r.heap id).map f := Function.update_self ..

theorem heap_modify_of_ne (hx : x ≠ id) (r : TaskRunner) (f : Task → Task) :
    (r.modify id f).heap x = r.heap x := Function.update_of_ne hx ..

theorem modify_spec {R : TaskId → Task → Task → Prop} (hrefl : ∀ x t, R x t t) {f : Task → Task}
    (hf : ∀ t, R id t (f t)) (r : TaskRunner) :
    (∀ {x t}, r.heap x = some t → ∃ t', (r.modify id f).heap x = some t' ∧ R x t t') ∧
      ∀ {x t'}, (r.modify id f).heap x = some t' → ∃ t, r.heap x = some t ∧ R x t t' := by
  constructor
  · intro x t ht
    by_cases hx : x = id
    · subst hx
      rw [heap_modify_self, ht]
      exact ⟨f t, rfl, hf t⟩
    · rw [heap_modify_of_ne hx]
      exact ⟨t, ht, hrefl x t⟩
  intro x t' ht'
  by_cases hx : x = id
  · subst hx
    rw [heap_modify_self] at ht'
    obtain ⟨t, ht, rfl⟩ := Option.map_eq_some_iff.mp ht'
    exact ⟨t, ht, hf t⟩
  · rw [heap_modify_of_ne hx] at ht'
    exact ⟨t', ht', hrefl x t'⟩

theorem aborts_modify {f : Task → Task} (hf : ∀ t, Task.Later t (f t)) (id : TaskId) (r : TaskRunner) :
    Aborts r (r.modify id f) := by
  obtain ⟨hheap, hback⟩ := modify_spec (fun _ => Task.Later.refl) hf r
  exact ⟨rfl, rfl, rfl, rfl, rfl, hheap, hback, fun _ h => h, [], (List.append_nil _).symm,
    fun _ hmem => nomatch hmem⟩

theorem aborts_onChildStopped (parent : Option TaskId) (id : TaskId) (r : TaskRunner) :
    Aborts r (r.onChildStopped parent id) := by
  cases parent with
  | none =>
    exact ⟨rfl, rfl, rfl, rfl, rfl, fun h => ⟨_, h, .refl _⟩, fun h => ⟨_, h, .refl _⟩,
      fun x hx => (List.mem_filter.mp hx).1, [], (List.append_nil _).symm, fun _ hmem => nomatch hmem⟩
  | some p =>
    have hlater : ∀ t : Task, Task.Later t { t with children := t.children.filter (· ≠ id) } := fun t =>
      ⟨rfl, fun x hx => (List.mem_filter.mp hx).1, rfl, rfl, rfl, rfl, rfl, fun h => h, fun h => h⟩
    exact aborts_modify hlater p r

end aborts

/-! ### `Stop` -/

section stop

variable {lost : Prop} {stopping : List TaskId} {r r' : TaskRunner} {id : TaskId} {t : Task}

theorem mem_childrenOf_onChildStopped {parent q : Option TaskId} {x : TaskId} :
    x ∈ (r.onChildStopped parent id).childrenOf q ↔ x ∈ r.childrenOf q ∧ (q = parent → x ≠ id) := by
  cases parent with
  | none =>
    cases q with
    | none => simp [onChildStopped, childrenOf]
    | some q => simp [onChildStopped, childrenOf]
  | some p =>
    cases q with
    | none => simp [onChildStopped, childrenOf, modify]
    | some q =>
      by_cases hq : q = p
      · subst hq
        rw [onChildStopped, childrenOf, heap_modify_self, childrenOf]
        cases r.heap q <;> simp
      · rw [onChildStopped, childrenOf, heap_modify_of_ne hq, childrenOf]
        simp [hq]

theorem alike_modify {f : Task → Task} (hf : ∀ t, Task.Alike t (f t)) (id : TaskId) (r : TaskRunner) :
    Alike r (r.modify id f) := by
  obtain ⟨hheap, hback⟩ := modify_spec (fun _ => Task.Alike.refl) hf r
  exact ⟨rfl, rfl, rfl, hheap, hback, [], (List.append_nil _).symm, fun _ hmem => nomatch hmem⟩

theorem alike_onChildStopped (parent : Option TaskId) (id : TaskId) (r : TaskRunner) :
    Alike r (r.onChildStopped parent id) := by
  cases parent with
  | none =>
    exact ⟨rfl, rfl, rfl, fun h => ⟨_, h, .refl _⟩, fun h => ⟨_, h, .refl _⟩, [], (List.append_nil _).symm,
      fun _ hmem => nomatch hmem⟩
  | some p =>
    have halike : ∀ t : Task, Task.Alike t { t with children := t.children.filter (· ≠ id) } :=
      fun _ => ⟨rfl, rfl, rfl, rfl, rfl, rfl, rfl⟩
    exact alike_modify halike p r

theorem Stable.onChildStopped (h : r.Stable lost (id :: stopping)) (ht : r.heap id = some t)
    (hdone : t.done = true) (hchildren : ∀ x ∈ r.childrenOf (some id), r.Finished x ∨ r.Leaving x) :
    (r.onChildStopped t.parent id).Stable lost stopping := by
  have halike := alike_onChildStopped t.parent id r
  refine ⟨?_, h.flags.alike halike, h.log.alike halike⟩
  constructor
  · intro x u' hu'
    obtain ⟨u, hu, hsame⟩ := halike.back hu'
    rw [halike.nextId, halike.mem_trace (.created _ x) nofun, hsame.parent]
    exact h.tree.alive hu
  · intro parent x hx
    rw [halike.mem_trace (.created parent x) nofun] at hx
    obtain ⟨hlt, habove, hparent⟩ := h.tree.created hx
    refine ⟨halike.nextId ▸ hlt, habove, fun u' hu' => ?_⟩
    obtain ⟨u, hu, hsame⟩ := halike.back hu'
    rw [hsame.parent]
    exact hparent u hu
  · intro parent x hx
    obtain ⟨hx, hne⟩ := mem_childrenOf_onChildStopped.mp hx
    obtain ⟨u, hu, hparent, hstate⟩ := h.tree.child hx
    obtain ⟨u', hu', hsame⟩ := halike.heap hu
    refine ⟨u', hu', hsame.parent.trans hparent, ?_⟩
    rw [hsame.done]
    refine hstate.imp_right fun hmem => ?_
    rcases List.mem_cons.mp hmem with rfl | hmem
    · -- the task is on its own parent's list only
      cases ht.symm.trans hu
      exact absurd rfl (hne hparent.symm)
    · exact hmem
  · intro x u' hu' hnot
    obtain ⟨u, hu, hsame⟩ := halike.back hu'
    rw [hsame.done] at hnot
    rw [hsame.parent]
    refine mem_childrenOf_onChildStopped.mpr ⟨h.tree.listed hu hnot, fun _ => ?_⟩
    rintro rfl
    cases ht.symm.trans hu
    rw [hdone] at hnot
    cases hnot
  intro parent x hlt hnot hfinished hchild
  rw [halike.nextId] at hlt
  rw [Child, halike.mem_trace (.created _ x) nofun] at hchild
  rw [halike.finished] at hfinished
  rw [halike.finished]
  by_cases hp : parent = id
  · subst hp
    by_cases hx : r.Finished x
    · exact .inl hx
    obtain ⟨u, hu⟩ := not_forall.mp hx
    obtain ⟨hu, hlive⟩ := Classical.not_imp.mp hu
    have hlisted := h.tree.listed hu (Bool.eq_false_iff.mpr hlive)
    rw [(h.tree.created hchild).2.2 u hu] at hlisted
    rcases hchildren x hlisted with hx' | hleaving
    · exact .inl hx'
    · exact .inr (halike.leaving hleaving)
  · have hnot' : parent ∉ id :: stopping := by
      rw [List.mem_cons, not_or]
      exact ⟨hp, hnot⟩
    exact (h.tree.finished hlt hnot' hfinished hchild).imp_right halike.leaving

/-- Children are aborted one after the other, in a way that keeps the invariants. -/
theorem Stable.foldl_abort {abort : TaskId → TaskRunner → TaskRunner} {parent : Option TaskId} {n : TaskId}
    (habort : ∀ {r : TaskRunner} {x : TaskId}, r.nextId = n → r.Stable lost stopping → .created parent x ∈ r.trace →
      (abort x r).Stable lost stopping ∧ Aborts r (abort x r) ∧ ((abort x r).Finished x ∨ (abort x r).Leaving x))
    {l : List TaskId} (hn : r.nextId = n) (h : r.Stable lost stopping)
    (hl : ∀ x ∈ l, .created parent x ∈ r.trace) :
    (l.foldl (fun r x => abort x r) r).Stable lost stopping ∧ Aborts r (l.foldl (fun r x => abort x r) r) ∧
      ∀ x ∈ l, (l.foldl (fun r x => abort x r) r).Finished x ∨ (l.foldl (fun r x => abort x r) r).Leaving x := by
  induction l generalizing r with
  | nil => exact ⟨h, .refl r, fun _ hmem => nomatch hmem⟩
  | cons x l ih =>
    obtain ⟨hfirst, haborts, hx⟩ := habort hn h (hl x List.mem_cons_self)
    have hl' : ∀ y ∈ l, .created parent y ∈ (abort x r).trace := fun y hy =>
      haborts.created_iff.mpr (hl y (List.mem_cons_of_mem _ hy))
    obtain ⟨hrest, haborts', hl''⟩ := ih (haborts.nextId.trans hn) hfirst hl'
    refine ⟨hrest, haborts.trans haborts', fun y hy => ?_⟩
    rcases List.mem_cons.mp hy with rfl | hy
    · exact hx.imp haborts'.finished haborts'.leaving
    · exact hl'' y hy

/-- A task that is done stops, its children being aborted in a way that keeps the invariants. -/
theorem Stable.stopWith {abort : TaskId → TaskRunner → TaskRunner}
    (habort : ∀ {r' : TaskRunner} {x : TaskId}, r'.nextId = r.nextId → r'.Stable lost (id :: stopping) →
      .created (some id) x ∈ r'.trace → (abort x r').Stable lost (id :: stopping) ∧ Aborts r' (abort x r') ∧
        ((abort x r').Finished x ∨ (abort x r').Leaving x))
    (h : (r.emit (.stopped id)).Stable lost (id :: stopping)) (ht : r.heap id = some t) (hdone : t.done = true) :
    (r.stopWith abort t.parent id).Stable lost stopping ∧
      Aborts (r.emit (.stopped id)) (r.stopWith abort t.parent id) ∧
      (r.stopWith abort t.parent id).Finished id := by
  have hl : ∀ x ∈ (r.emit (.stopped id)).childrenOf (some id),
      .created (some id) x ∈ (r.emit (.stopped id)).trace := by
    intro x hx
    obtain ⟨u, hu, hparent, -⟩ := h.tree.child hx
    rw [← hparent]
    exact (h.tree.alive hu).2
  obtain ⟨hfold, haborts, hhandled⟩ := Stable.foldl_abort (r := r.emit (.stopped id)) habort rfl h hl
  rw [TaskRunner.stopWith]
  generalize hr' : ((r.emit (.stopped id)).childrenOf (some id)).foldl (fun r x => abort x r)
    (r.emit (.stopped id)) = r' at hfold haborts hhandled
  obtain ⟨t', ht', hlater⟩ := haborts.heap (show (r.emit (.stopped id)).heap id = some t from ht)
  have halike := alike_onChildStopped t'.parent id r'
  rw [← hlater.parent]
  refine ⟨hfold.onChildStopped ht' (hlater.done hdone) fun x hx => hhandled x (haborts.childrenOf hx),
    haborts.trans (aborts_onChildStopped _ _ _), ?_⟩
  rw [halike.finished]
  intro u hu
  cases ht'.symm.trans hu
  exact hlater.done hdone

theorem Stable.mark {t' : Task} {events : List TaskEvent} (h : r.Stable lost stopping)
    (hreplaces : Replaces r r' id t t' (events ++ [.stopped id])) (hdone : t.done = false)
    (hdone' : t'.done = true) (hbusy : t'.busy = false)
    (hphase : ∀ x pass, r'.phase = .processing pass x ↔ x ≠ id ∧ r.phase = .processing pass x)
    (hevents : ∀ event ∈ events, event = .aborted id)
    (haborted : (t.aborted = true ∨ events ≠ []) → t'.aborted = true) : r'.Stable lost (id :: stopping) := by
  have hnew : .stopped id ∉ r.trace := by
    rw [h.log.stopped hreplaces.before, hdone]
    exact nofun
  have hlawful : ∀ {l : List TaskEvent}, (∀ event ∈ l, event = .aborted id) →
      Runs.Lawful Lawful (r.trace ++ l) := by
    intro l hl
    induction l using List.reverseRecOn with
    | nil =>
      rw [List.append_nil]
      exact h.log.lawful
    | append_singleton l event ih =>
      rw [← List.append_assoc]
      refine (ih fun e he => hl e (List.mem_append_left _ he)).append ?_
      rw [hl event (List.mem_append_right _ List.mem_cons_self)]
      trivial
  have hnot : .stopped id ∉ events := fun hmem => nomatch hevents _ hmem
  refine ⟨?_, ?_, ?_⟩
  · exact h.tree.replaces hreplaces (fun x hx => List.mem_cons_of_mem _ hx)
      (fun x hx => (List.mem_cons.mp hx).symm) (.inr ⟨hdone', List.mem_cons_self⟩) fun _ _ => .inl hdone'
  · refine h.flags.replaces hreplaces ⟨fun _ => .inl hdone', fun hb => ?_, fun _ => .inl hdone'⟩ ?_ ?_ ?_
    · rw [hbusy] at hb
      cases hb
    · rw [hbusy]
      refine ⟨nofun, ?_⟩
      rintro ⟨pass, hpass⟩
      exact absurd rfl ((hphase id pass).mp hpass).1
    · exact fun x pass _ hpass => ((hphase x pass).mp hpass).2
    · exact fun x pass hne hpass => (hphase x pass).mpr ⟨hne, hpass⟩
  refine h.log.replaces h.tree hreplaces ?_ ?_ ?_ ?_ ?_
  · rw [← List.append_assoc]
    refine (hlawful hevents).append fun hmem => ?_
    exact (List.mem_append.mp hmem).elim hnew hnot
  · intro event hevent x hx
    rcases List.mem_append.mp hevent with hevent | hevent
    · rw [hevents event hevent] at hx
      exact (Option.some.inj hx).symm
    · rw [List.mem_singleton.mp hevent] at hx
      exact (Option.some.inj hx).symm
  · rw [hdone']
    exact ⟨fun _ => .inr (List.mem_append_right _ List.mem_cons_self), fun _ => rfl⟩
  · refine fun hor => haborted (hor.imp_right fun hmem => ?_)
    rcases List.mem_append.mp hmem with hmem | hmem
    · exact List.ne_nil_of_mem hmem
    · cases List.mem_singleton.mp hmem
  · intro hmem
    rcases List.mem_append.mp hmem with hmem | hmem
    · cases hevents _ hmem
    · cases List.mem_singleton.mp hmem

theorem Stable.leave (h : r.Stable lost stopping) (ht : r.heap id = some t) (hnot : id ∉ stopping)
    (hdone : t.done = false) (hbusy : t.busy = true) :
    ((r.modify id fun t => { t with aborted := true }).emit (.aborted id)).Stable lost stopping ∧
      Aborts r ((r.modify id fun t => { t with aborted := true }).emit (.aborted id)) ∧
      ((r.modify id fun t => { t with aborted := true }).emit (.aborted id)).Leaving id := by
  have hreplaces : Replaces r ((r.modify id fun t => { t with aborted := true }).emit (.aborted id))
      id t { t with aborted := true } [.aborted id] := by
    refine ⟨ht, ?_, rfl, rfl, rfl, rfl, rfl, fun _ _ hmem => nomatch List.mem_singleton.mp hmem⟩
    rw [emit, modify, ht]
    rfl
  have haborts := hreplaces.aborts ⟨rfl, fun _ h => h, rfl, rfl, rfl, rfl, rfl, fun h => h, fun _ => rfl⟩
    rfl rfl rfl rfl fun event hevent => ⟨id, .inl (List.mem_singleton.mp hevent)⟩
  refine ⟨⟨?_, ?_, ?_⟩, haborts, _, hreplaces.self, hbusy, rfl⟩
  · exact h.tree.replaces hreplaces (fun _ hx => hx) (fun _ hx => .inl hx) (.inl ⟨rfl, hnot⟩)
      fun _ _ => .inr ⟨hbusy, rfl⟩
  · exact h.flags.replaces_same hreplaces
      ⟨fun _ => .inr hbusy, fun _ => hdone, (h.flags.ok ht).error⟩ rfl rfl
  refine h.log.replaces h.tree hreplaces (h.log.lawful.append trivial) ?_ ?_ (fun _ => rfl) ?_
  · rintro event hevent x hx
    cases List.mem_singleton.mp hevent
    exact (Option.some.inj hx).symm
  · show t.done = true ↔ _
    rw [or_iff_left]
    exact fun hmem => nomatch List.mem_singleton.mp hmem
  · exact fun hmem => nomatch List.mem_singleton.mp hmem

theorem Stable.abortWithin {n : Nat} (h : r.Stable lost stopping) (hn : r.nextId ≤ id + n)
    (hstopping : ∀ x ∈ stopping, x < id) :
    (abortWithin n id r).Stable lost stopping ∧ Aborts r (abortWithin n id r) ∧
      ((abortWithin n id r).Finished id ∨ (abortWithin n id r).Leaving id) := by
  induction n generalizing id r stopping with
  | zero =>
    refine ⟨h, .refl r, .inl fun t ht => ?_⟩
    exact absurd (h.tree.alive ht).1 (Nat.not_lt.mpr hn)
  | succ n ih =>
    rw [TaskRunner.abortWithin]
    split
    next hnone =>
      refine ⟨h, .refl r, .inl fun t ht => ?_⟩
      rw [hnone] at ht
      cases ht
    next t ht =>
      split
      next hdone =>
        refine ⟨h, .refl r, .inl fun u hu => ?_⟩
        cases ht.symm.trans hu
        exact hdone
      next hdone =>
        rw [Bool.not_eq_true] at hdone
        split
        next hrunning =>
          obtain ⟨hstable, haborts, hleaving⟩ := h.leave ht
            (fun hmem => Nat.lt_irrefl id (hstopping id hmem)) hdone hrunning
          exact ⟨hstable, haborts, .inr hleaving⟩
        next hrunning =>
          rw [Bool.not_eq_true] at hrunning
          generalize hr₁ : (r.modify id fun t =>
            { t with aborted := true, done := true, blocked := true, error := true }).emit (.aborted id) = r₁
          have hreplaces : Replaces r (r₁.emit (.stopped id)) id t
              { t with aborted := true, done := true, blocked := true, error := true }
              ([.aborted id] ++ [.stopped id]) := by
            rw [← hr₁]
            refine ⟨ht, ?_, rfl, rfl, List.append_assoc _ _ _, rfl, rfl, fun _ _ hmem => by simp at hmem⟩
            rw [emit, emit, modify, ht]
            rfl
          have haborts : Aborts r (r₁.emit (.stopped id)) := by
            refine hreplaces.aborts ?_ (by rw [← hr₁]; rfl) (by rw [← hr₁]; rfl) (by rw [← hr₁]; rfl)
              (by rw [← hr₁]; rfl) fun event hevent => ⟨id, by simpa using hevent⟩
            exact ⟨rfl, fun _ h => h, rfl, rfl, rfl, rfl, rfl, fun _ => rfl, fun _ => rfl⟩
          have hstable : (r₁.emit (.stopped id)).Stable lost (id :: stopping) := by
            refine h.mark hreplaces hdone rfl hrunning (fun x pass => ?_)
              (fun event hevent => List.mem_singleton.mp hevent) fun _ => rfl
            rw [haborts.phase, iff_and_self]
            rintro hpass rfl
            rw [(h.flags.busy ht).mpr ⟨pass, hpass⟩] at hrunning
            cases hrunning
          have habort : ∀ {r' : TaskRunner} {x : TaskId}, r'.nextId = r₁.nextId →
              r'.Stable lost (id :: stopping) → .created (some id) x ∈ r'.trace →
              (TaskRunner.abortWithin n x r').Stable lost (id :: stopping) ∧
                Aborts r' (TaskRunner.abortWithin n x r') ∧
                ((TaskRunner.abortWithin n x r').Finished x ∨ (TaskRunner.abortWithin n x r').Leaving x) := by
            intro r' x hn' hstable' hcreated
            have hlt : id < x := (hstable'.tree.created hcreated).2.1 id rfl
            have hnext : r₁.nextId = r.nextId := haborts.nextId
            refine ih hstable' ?_ ?_
            · rw [hn', hnext]
              calc r.nextId ≤ id + (n + 1) := hn
                _ = id + 1 + n := Nat.add_right_comm id n 1
                _ ≤ x + n := Nat.add_le_add_right hlt n
            · intro y hy
              rcases List.mem_cons.mp hy with rfl | hy
              · exact hlt
              · exact Nat.lt_trans (hstopping y hy) hlt
          have hself : r₁.heap id =
              some { t with aborted := true, done := true, blocked := true, error := true } := hreplaces.self
          obtain ⟨hstopped, haborts', hfinished⟩ := Stable.stopWith habort hstable hself rfl
          exact ⟨hstopped, haborts.trans haborts', .inl hfinished⟩

theorem Stable.abort (h : r.Stable lost stopping) (hstopping : ∀ x ∈ stopping, x < id) :
    (r.abort id).Stable lost stopping ∧ Aborts r (r.abort id) ∧
      ((r.abort id).Finished id ∨ (r.abort id).Leaving id) :=
  h.abortWithin (Nat.le_add_left _ _) hstopping

/-- The `Stop` of a task that was just marked, if it aborts the children deep enough. -/
theorem Stable.stopMarked {abort : TaskId → TaskRunner → TaskRunner}
    (hdeep : ∀ (r' : TaskRunner) (x : TaskId), r'.nextId = r.nextId → id < x →
      ∃ n, r'.nextId ≤ x + n ∧ abort x r' = TaskRunner.abortWithin n x r')
    (h : (r.emit (.stopped id)).Stable lost [id]) (ht : r.heap id = some t) (hdone : t.done = true) :
    (r.stopWith abort t.parent id).Stable lost [] ∧
      Aborts (r.emit (.stopped id)) (r.stopWith abort t.parent id) ∧
      (r.stopWith abort t.parent id).Finished id := by
  refine Stable.stopWith ?_ h ht hdone
  intro r' x hnextId hstable' hcreated
  have hlt : id < x := (hstable'.tree.created hcreated).2.1 id rfl
  obtain ⟨n, hn, heq⟩ := hdeep r' x hnextId hlt
  rw [heq]
  refine hstable'.abortWithin hn fun y hy => ?_
  rw [List.mem_singleton.mp hy]
  exact hlt

end stop

end Synciga.TaskRunner
