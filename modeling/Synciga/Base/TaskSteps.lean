import Synciga.Base.TaskTree

/-!
# What one step does to the tasks

Every function of a task, and every step of the runner, keeps the invariants of `TaskTree` and what the runner
knows of its own list.

## Main definitions

* `Sane` — the invariant
* `Makes` — what a step makes of the tasks
-/

namespace Synciga.TaskRunner

variable {lost : Prop} {stopping : List TaskId} {r r' : TaskRunner} {id : TaskId} {t : Task}

/-! ### Timeouts are of no concern -/

/-- Tasks are alike, and the lists are the same. -/
structure Quiet (r r' : TaskRunner) : Prop extends Alike r r' where
  lists : ∀ parent, r'.childrenOf parent = r.childrenOf parent

theorem Quiet.refl (r : TaskRunner) : Quiet r r := ⟨.refl r, fun _ => rfl⟩

theorem Quiet.trans {r'' : TaskRunner} (h : Quiet r r') (h' : Quiet r' r'') : Quiet r r'' :=
  ⟨h.toAlike.trans h'.toAlike, fun parent => (h'.lists parent).trans (h.lists parent)⟩

theorem quiet_of_eq (hnextId : r'.nextId = r.nextId) (htasks : r'.tasks = r.tasks) (hphase : r'.phase = r.phase)
    (hheap : r'.heap = r.heap) (hchildren : r'.children = r.children)
    (htrace : r'.trace = r.trace ∨ r'.trace = r.trace ++ [.timeoutChange]) : Quiet r r' := by
  refine ⟨⟨hnextId, htasks, hphase, ?_, ?_, ?_⟩, ?_⟩
  · intro x u hu
    exact ⟨u, hheap ▸ hu, .refl u⟩
  · intro x u hu
    exact ⟨u, hheap ▸ hu, .refl u⟩
  · rcases htrace with heq | heq
    · exact ⟨[], by rw [heq, List.append_nil], fun _ hmem => nomatch hmem⟩
    · exact ⟨[.timeoutChange], heq, fun event hevent => List.mem_singleton.mp hevent⟩
  · intro parent
    cases parent with
    | none => exact hchildren
    | some p => rw [childrenOf, childrenOf, hheap]

theorem quiet_modify {f : Task → Task} (hf : ∀ t, Task.Alike t (f t)) (hkids : ∀ t, (f t).children = t.children)
    (id : TaskId) (r : TaskRunner) : Quiet r (r.modify id f) := by
  refine ⟨alike_modify hf id r, ?_⟩
  intro parent
  cases parent with
  | none => rfl
  | some p =>
    by_cases hp : p = id
    · subst hp
      rw [childrenOf, heap_modify_self, childrenOf]
      cases r.heap p with
      | none => rfl
      | some u => exact hkids u
    · rw [childrenOf, heap_modify_of_ne hp, childrenOf]

theorem quiet_recalcNextTimeout (exclude : Option TaskId) (r : TaskRunner) :
    Quiet r (r.recalcNextTimeout exclude) :=
  quiet_of_eq rfl rfl rfl rfl rfl (.inl rfl)

theorem quiet_checkForTimeoutChange (previous : Int) (r : TaskRunner) :
    Quiet r (r.checkForTimeoutChange previous) := by
  rw [checkForTimeoutChange]
  split
  · exact quiet_of_eq rfl rfl rfl rfl rfl (.inr rfl)
  · exact .refl r

theorem quiet_updateTaskTimeout (id : TaskId) (previous : Int) (r : TaskRunner) :
    Quiet r (r.updateTaskTimeout id previous) := by
  have hnext : Quiet r (if r.timeoutTime id ≠ 0 then
      if r.nextTimeout = none ∨ r.timeoutTime id ≤ r.nextTaskTimeout then { r with nextTimeout := some id } else r
      else if r.nextTimeout = some id then r.recalcNextTimeout (some id) else r) := by
    split
    · split
      · exact quiet_of_eq rfl rfl rfl rfl rfl (.inl rfl)
      · exact .refl r
    · split
      · exact quiet_recalcNextTimeout _ r
      · exact .refl r
  rw [updateTaskTimeout]
  split
  · exact hnext
  · exact hnext.trans (quiet_checkForTimeoutChange _ _)

theorem quiet_resetTimeout (id : TaskId) (r : TaskRunner) : Quiet r (r.resetTimeout id) := by
  have halike : ∀ t : Task, Task.Alike t { t with timeoutTime := newTimeout r.now t } :=
    fun _ => ⟨rfl, rfl, rfl, rfl, rfl, rfl, rfl⟩
  have hmodify : Quiet r (r.modify id fun t => { t with timeoutTime := newTimeout r.now t }) :=
    quiet_modify halike (fun _ => rfl) id r
  exact hmodify.trans (quiet_updateTaskTimeout id _ _)

theorem quiet_clearTimeout (id : TaskId) (r : TaskRunner) : Quiet r (r.clearTimeout id) := by
  have halike : ∀ t : Task, Task.Alike t { t with timeoutTime := 0 } :=
    fun _ => ⟨rfl, rfl, rfl, rfl, rfl, rfl, rfl⟩
  have hmodify : Quiet r (r.modify id fun t => { t with timeoutTime := 0 }) :=
    quiet_modify halike (fun _ => rfl) id r
  exact hmodify.trans (quiet_updateTaskTimeout id _ _)

theorem quiet_setTimeoutSeconds (seconds : Int) (id : TaskId) (r : TaskRunner) :
    Quiet r (r.setTimeoutSeconds seconds id) := by
  have halike : ∀ t : Task, Task.Alike t { t with timeoutSeconds := seconds } :=
    fun _ => ⟨rfl, rfl, rfl, rfl, rfl, rfl, rfl⟩
  have hmodify : Quiet r (r.modify id fun t => { t with timeoutSeconds := seconds }) :=
    quiet_modify halike (fun _ => rfl) id r
  exact hmodify.trans (quiet_resetTimeout id _)

theorem quiet_suspendTimeout (suspend : Bool) (id : TaskId) (r : TaskRunner) :
    Quiet r (r.suspendTimeout suspend id) := by
  have halike : ∀ t : Task, Task.Alike t { t with timeoutSuspended := suspend } :=
    fun _ => ⟨rfl, rfl, rfl, rfl, rfl, rfl, rfl⟩
  have hmodify : Quiet r (r.modify id fun t => { t with timeoutSuspended := suspend }) :=
    quiet_modify halike (fun _ => rfl) id r
  rw [suspendTimeout]
  split
  · exact .refl r
  · split
    · exact .refl r
    · exact hmodify.trans (quiet_resetTimeout id _)

/-! ### The list of the runner -/

/-- A task was started. -/
def Started (r : TaskRunner) (id : TaskId) : Prop := .started id ∈ r.trace

/-- The tasks that were started and still exist are in `tasks_` once. In a pass in which no task did run, those
that were looked at are blocked. -/
structure Listed (r : TaskRunner) : Prop where
  nodup : r.tasks.Nodup
  mem : ∀ {id}, id ∈ r.tasks ↔ r.Started id ∧ ∃ t, r.heap id = some t
  blocked : ∀ {pass}, r.phase = .looping pass → pass.didRun = false → ∀ i < pass.index, ∀ id t,
    r.tasks[i]? = some id → r.heap id = some t → t.blocked = true

/-- The same tasks exist, and those that were started are the same. -/
structure SameTasks (r r' : TaskRunner) : Prop where
  tasks : r'.tasks = r.tasks
  exist : ∀ id, (∃ t, r'.heap id = some t) ↔ ∃ t, r.heap id = some t
  started : ∀ id, r'.Started id ↔ r.Started id

theorem Listed.same (hlisted : r.Listed) (h : SameTasks r r')
    (hphase : ∀ pass, r'.phase = .looping pass → pass.didRun = true) : r'.Listed where
  nodup := h.tasks ▸ hlisted.nodup
  mem {id} := by
    rw [h.tasks, h.exist, h.started]
    exact hlisted.mem
  blocked {pass} hpass hrun := by
    rw [hphase pass hpass] at hrun
    cases hrun

theorem Alike.sameTasks (h : Alike r r') : SameTasks r r' where
  tasks := h.tasks
  exist id := by
    constructor
    · rintro ⟨t', ht'⟩
      obtain ⟨t, ht, -⟩ := h.back ht'
      exact ⟨t, ht⟩
    · rintro ⟨t, ht⟩
      obtain ⟨t', ht', -⟩ := h.heap ht
      exact ⟨t', ht'⟩
  started id := h.mem_trace (.started id) nofun

theorem Aborts.sameTasks (h : Aborts r r') : SameTasks r r' where
  tasks := h.tasks
  exist id := by
    constructor
    · rintro ⟨t', ht'⟩
      obtain ⟨t, ht, -⟩ := h.back ht'
      exact ⟨t, ht⟩
    · rintro ⟨t, ht⟩
      obtain ⟨t', ht', -⟩ := h.heap ht
      exact ⟨t', ht'⟩
  started id := by
    obtain ⟨events, htrace, hevents⟩ := h.trace
    rw [Started, Started, htrace, List.mem_append, or_iff_left]
    intro hmem
    obtain ⟨x, hx | hx⟩ := hevents _ hmem
    · cases hx
    · cases hx

variable {events : List TaskEvent} {t' : Task}

theorem Replaces.sameTasks (h : Replaces r r' id t t' events)
    (htasks : r'.tasks = r.tasks) (hevents : ∀ x, .started x ∉ events) : SameTasks r r' where
  tasks := htasks
  exist x := by
    by_cases hx : x = id
    · rw [hx, h.self, h.before]
      simp
    · rw [h.other hx]
  started x := by
    rw [Started, Started, h.trace, List.mem_append, or_iff_left (hevents x)]

/-- The whole invariant. -/
structure Sane (lost : Prop) (r : TaskRunner) : Prop where
  stable : r.Stable lost []
  listed : r.Listed

theorem Sane.quiet (h : r.Sane lost) (hquiet : Quiet r r') : r'.Sane lost := by
  refine ⟨h.stable.alike hquiet.toAlike hquiet.lists, ?_⟩
  have hsame := hquiet.toAlike.sameTasks
  refine ⟨hsame.tasks ▸ h.listed.nodup, ?_, ?_⟩
  · intro x
    rw [hsame.tasks, hsame.exist, hsame.started]
    exact h.listed.mem
  intro pass hpass hrun i hi x u' hx hu'
  rw [hquiet.phase] at hpass
  rw [hsame.tasks] at hx
  obtain ⟨u, hu, halike⟩ := hquiet.back hu'
  rw [halike.blocked]
  exact h.listed.blocked hpass hrun i hi x u hx hu

/-! ### Functions of a task -/

/-- A task is changed in a way that does not make it done, and something harmless is recorded. -/
theorem Stable.replaces (h : r.Stable lost [])
    (hreplaces : Replaces r r' id t t' events)
    (hevents : events = [] ∨ events = [.woken id] ∨ events = [.started id])
    (hdone : t'.done = t.done) (haborted : t'.aborted = t.aborted)
    (hbusy : t.busy = true → t.aborted = true → t'.busy = true) (hflags : r'.Flags lost) : r'.Stable lost [] := by
  have hharmless : ∀ event ∈ events, event = .woken id ∨ event = .started id := by
    intro event hevent
    rcases hevents with rfl | rfl | rfl
    · cases hevent
    · exact .inl (List.mem_singleton.mp hevent)
    · exact .inr (List.mem_singleton.mp hevent)
  have hnot : ∀ event, event ≠ .woken id → event ≠ .started id → event ∉ events :=
    fun event hwoken hstarted hmem => (hharmless event hmem).elim hwoken hstarted
  refine ⟨?_, hflags, ?_⟩
  · refine h.tree.replaces hreplaces (fun _ hx => hx) (fun _ hx => .inl hx)
      (.inl ⟨hdone, List.not_mem_nil⟩) fun hb ha => .inr ⟨hbusy hb ha, haborted.trans ha⟩
  refine h.log.replaces h.tree hreplaces ?_ ?_ ?_ ?_ (hnot (.deleted id) nofun nofun)
  · rcases hevents with rfl | rfl | rfl
    · rw [List.append_nil]
      exact h.log.lawful
    · exact h.log.lawful.append trivial
    · exact h.log.lawful.append trivial
  · intro event hevent x hx
    rcases hharmless event hevent with rfl | rfl
    · exact (Option.some.inj hx).symm
    · exact (Option.some.inj hx).symm
  · rw [hdone, or_iff_left (hnot (.stopped id) nofun nofun)]
  · rw [haborted]
    exact fun hor => hor.resolve_right (hnot (.aborted id) nofun nofun)

/-- A function of a task that is not in the loops keeps the invariant. -/
theorem Sane.replaces (h : r.Sane lost)
    (hreplaces : Replaces r r' id t t' events) (hevents : events = [] ∨ events = [.woken id])
    (htasks : r'.tasks = r.tasks) (hphase : r'.phase = r.phase) (hpass : ∀ pass, r.phase ≠ .looping pass)
    (hdone : t'.done = t.done) (haborted : t'.aborted = t.aborted) (hbusy : t'.busy = t.busy)
    (hok : TaskFlags lost t') : r'.Sane lost where
  stable := by
    refine h.stable.replaces hreplaces (hevents.imp_right .inl) hdone haborted (fun hb _ => hbusy.trans hb) ?_
    exact h.stable.flags.replaces_same hreplaces hok hbusy hphase
  listed := by
    have hstarted : ∀ x, .started x ∉ events := by
      intro x hmem
      rcases hevents with rfl | rfl
      · cases hmem
      · cases List.mem_singleton.mp hmem
    exact h.listed.same (hreplaces.sameTasks htasks hstarted) fun pass heq => absurd (hphase ▸ heq) (hpass pass)

theorem Sane.wake (h : r.Sane lost) (hpass : ∀ pass, r.phase ≠ .looping pass) (id : TaskId) :
    (r.wake id).Sane lost := by
  rw [TaskRunner.wake]
  split
  · exact h
  next t ht =>
    have hflags := h.stable.flags.ok ht
    split
    · exact h
    split
    · have hreplaces : Replaces r ((r.modify id fun t => { t with blocked := false }).emit (.woken id)) id t
          { t with blocked := false } [.woken id] := by
        refine ⟨ht, ?_, rfl, rfl, rfl, rfl, rfl, fun _ _ hmem => nomatch List.mem_singleton.mp hmem⟩
        rw [emit, modify, ht]
        rfl
      exact h.replaces hreplaces (.inr rfl) rfl rfl hpass rfl rfl rfl
        ⟨hflags.aborted, hflags.busy, fun _ => .inr (.inl rfl)⟩
    · have hreplaces : Replaces r (r.emit (.woken id)) id t t [.woken id] := by
        refine ⟨ht, ?_, rfl, rfl, rfl, rfl, rfl, fun _ _ hmem => nomatch List.mem_singleton.mp hmem⟩
        rw [emit, ← ht, Function.update_eq_self]
      exact h.replaces hreplaces (.inr rfl) rfl rfl hpass rfl rfl rfl hflags

theorem Sane.error (h : r.Sane lost) (hpass : ∀ pass, r.phase ≠ .looping pass) (id : TaskId) :
    (r.error id).Sane lost := by
  rw [TaskRunner.error]
  split
  · exact h
  next t ht =>
    have hflags := h.stable.flags.ok ht
    split
    · exact h
    next hnot =>
      have hdone : t.done = false := by
        rw [not_or, Bool.not_eq_true] at hnot
        exact Bool.eq_false_iff.mpr hnot.2
      have hself : (r.modify id fun t => { t with error := true }).heap id = some { t with error := true } := by
        rw [heap_modify_self, ht]
        rfl
      rw [TaskRunner.wake, hself]
      dsimp only
      rw [if_neg (by rw [hdone]; exact nofun)]
      split
      · have hreplaces : Replaces r (((r.modify id fun t => { t with error := true }).modify id fun t =>
            { t with blocked := false }).emit (.woken id)) id t { t with error := true, blocked := false }
            [.woken id] := by
          refine ⟨ht, ?_, rfl, rfl, rfl, rfl, rfl, fun _ _ hmem => nomatch List.mem_singleton.mp hmem⟩
          rw [emit, modify, modify, ht]
          dsimp only
          rw [Function.update_self, Function.update_idem]
          rfl
        exact h.replaces hreplaces (.inr rfl) rfl rfl hpass rfl rfl rfl
          ⟨hflags.aborted, hflags.busy, fun _ => .inr (.inl rfl)⟩
      next hblocked =>
        have hreplaces : Replaces r ((r.modify id fun t => { t with error := true }).emit (.woken id)) id t
            { t with error := true } [.woken id] := by
          refine ⟨ht, ?_, rfl, rfl, rfl, rfl, rfl, fun _ _ hmem => nomatch List.mem_singleton.mp hmem⟩
          rw [emit, modify, ht]
          rfl
        exact h.replaces hreplaces (.inr rfl) rfl rfl hpass rfl rfl rfl
          ⟨hflags.aborted, hflags.busy, fun _ => .inr (.inl (Bool.eq_false_iff.mpr hblocked))⟩

theorem Sane.start (h : r.Sane lost) (hpass : ∀ pass, r.phase ≠ .looping pass)
    (honce : ∀ t, r.heap id = some t → t.state = .init → id ∉ r.tasks) : (r.start id).Sane lost := by
  rw [TaskRunner.start]
  split
  · exact h
  next t ht =>
    split
    · exact h
    next hinit =>
      have hnew : id ∉ r.tasks := honce t ht (Classical.not_not.mp hinit)
      generalize hr' : ({ r.emit (.started id) with tasks := r.tasks ++ [id] } : TaskRunner) = r'
      have hreplaces : Replaces r r' id t t [.started id] := by
        rw [← hr']
        refine ⟨ht, ?_, rfl, rfl, rfl, rfl, rfl, fun _ _ hmem => nomatch List.mem_singleton.mp hmem⟩
        rw [emit, ← ht, Function.update_eq_self]
      have hphase : r'.phase = r.phase := by rw [← hr']; rfl
      have htasks : r'.tasks = r.tasks ++ [id] := by rw [← hr']
      have hstarted : ∀ x, r'.Started x ↔ r.Started x ∨ x = id := by
        intro x
        rw [Started, hreplaces.trace, List.mem_append, List.mem_singleton, TaskEvent.started.injEq]
        rfl
      have hsane : r'.Sane lost := by
        constructor
        · refine h.stable.replaces hreplaces (.inr (.inr rfl)) rfl rfl (fun hb _ => hb) ?_
          exact h.stable.flags.replaces_same hreplaces (h.stable.flags.ok ht) rfl hphase
        refine ⟨?_, ?_, fun {pass} heq => absurd (hphase ▸ heq) (hpass pass)⟩
        · rw [htasks]
          refine List.nodup_append.mpr ⟨h.listed.nodup, by simp, ?_⟩
          rintro x hx y hy rfl
          rw [List.mem_singleton.mp hy] at hx
          exact hnew hx
        intro x
        rw [htasks, List.mem_append, List.mem_singleton, hstarted, h.listed.mem]
        by_cases hx : x = id
        · subst hx
          exact ⟨fun _ => ⟨.inr rfl, t, hreplaces.self⟩, fun _ => .inr rfl⟩
        · rw [hreplaces.other hx, or_iff_left hx, or_iff_left hx]
      rw [startTask, hr']
      exact hsane.quiet (quiet_updateTaskTimeout id 0 r')

theorem Sane.abort (h : r.Sane lost) (hpass : ∀ pass, r.phase ≠ .looping pass)
    (id : TaskId) : (r.abort id).Sane lost := by
  obtain ⟨hstable, haborts, -⟩ := h.stable.abort (show ∀ x ∈ [], x < id from fun _ hx => nomatch hx)
  exact ⟨hstable, h.listed.same haborts.sameTasks fun pass heq => absurd (haborts.phase ▸ heq) (hpass pass)⟩

/-! ### New tasks -/

theorem childrenOf_addChild (parent : Option TaskId) (id : TaskId) (r : TaskRunner) (q : Option TaskId)
    (hparent : ∀ p, parent = some p → ∃ t, r.heap p = some t) :
    (r.addChild parent id).childrenOf q = if q = parent then r.childrenOf q ++ [id] else r.childrenOf q := by
  cases parent with
  | none =>
    cases q with
    | none => rfl
    | some q => rfl
  | some p =>
    obtain ⟨t, ht⟩ := hparent p rfl
    cases q with
    | none => rfl
    | some q =>
      by_cases hq : q = p
      · subst hq
        rw [if_pos rfl, addChild, childrenOf, heap_modify_self, childrenOf, ht]
        rfl
      · rw [if_neg (fun heq => hq (Option.some.inj heq)), addChild, childrenOf, heap_modify_of_ne hq, childrenOf]

theorem alike_addChild (parent : Option TaskId) (id : TaskId) (r : TaskRunner) :
    Alike r (r.addChild parent id) := by
  cases parent with
  | none =>
    exact ⟨rfl, rfl, rfl, fun h => ⟨_, h, .refl _⟩, fun h => ⟨_, h, .refl _⟩, [], (List.append_nil _).symm,
      fun _ hmem => nomatch hmem⟩
  | some p =>
    have halike : ∀ t : Task, Task.Alike t { t with children := t.children ++ [id] } :=
      fun _ => ⟨rfl, rfl, rfl, rfl, rfl, rfl, rfl⟩
    exact alike_modify halike p r

/-- A task is made, but is on no list yet. -/
structure Makes (r r' : TaskRunner) (parent : Option TaskId) (task : Task) : Prop where
  fresh : r.heap r.nextId = none
  heap : r'.heap = Function.update r.heap r.nextId (some task)
  nextId : r'.nextId = r.nextId + 1
  children : r'.children = r.children
  tasks : r'.tasks = r.tasks
  phase : r'.phase = r.phase
  trace : r'.trace = r.trace ++ [.created parent r.nextId]
  parent : task.parent = parent
  kids : task.children = []
  done : task.done = false
  aborted : task.aborted = false
  busy : task.busy = false
  error : task.error = false

section makes

variable {parent : Option TaskId} {task : Task}

theorem Makes.self (h : Makes r r' parent task) : r'.heap r.nextId = some task := by
  rw [h.heap, Function.update_self]

variable {x : TaskId}

theorem Makes.other (h : Makes r r' parent task) (hx : x ≠ r.nextId) : r'.heap x = r.heap x := by
  rw [h.heap, Function.update_of_ne hx]

theorem Makes.cases (h : Makes r r' parent task) {u : Task} (hu : r'.heap x = some u) :
    (x = r.nextId ∧ u = task) ∨ (x ≠ r.nextId ∧ r.heap x = some u) := by
  by_cases hx : x = r.nextId
  · rw [hx, h.self] at hu
    exact .inl ⟨hx, (Option.some.inj hu).symm⟩
  · rw [h.other hx] at hu
    exact .inr ⟨hx, hu⟩

theorem Makes.ne (h : Makes r r' parent task) {u : Task} (hu : r.heap x = some u) : x ≠ r.nextId := by
  rintro rfl
  rw [h.fresh] at hu
  cases hu

theorem Makes.mem_trace (h : Makes r r' parent task) (event : TaskEvent)
    (hevent : event ≠ .created parent r.nextId) : event ∈ r'.trace ↔ event ∈ r.trace := by
  rw [h.trace, List.mem_append, or_iff_left]
  exact fun hmem => hevent (List.mem_singleton.mp hmem)

theorem Makes.flags (h : Makes r r' parent task) (hflags : r.Flags lost) : r'.Flags lost where
  ok {x u} hu := by
    rcases h.cases hu with ⟨-, rfl⟩ | ⟨-, hu⟩
    · refine ⟨?_, ?_, ?_⟩
      · rw [h.aborted]
        exact nofun
      · rw [h.busy]
        exact nofun
      · rw [h.error]
        exact nofun
    · exact hflags.ok hu
  busy {x u} hu := by
    rw [h.phase]
    rcases h.cases hu with ⟨rfl, rfl⟩ | ⟨-, hu⟩
    · rw [h.busy]
      refine ⟨nofun, fun ⟨pass, hpass⟩ => ?_⟩
      obtain ⟨u, hu⟩ := hflags.running hpass
      exact absurd rfl (h.ne hu)
    · exact hflags.busy hu
  running {pass x} hpass := by
    rw [h.phase] at hpass
    obtain ⟨u, hu⟩ := hflags.running hpass
    exact ⟨u, (h.other (h.ne hu)).trans hu⟩

theorem Makes.log (h : Makes r r' parent task) (hlog : r.Log) : r'.Log where
  lawful := by
    rw [h.trace]
    exact hlog.lawful.append trivial
  known {event x} hevent hx := by
    rw [h.nextId]
    rw [h.trace] at hevent
    rcases List.mem_append.mp hevent with hevent | hevent
    · exact Nat.lt_succ_of_lt (hlog.known hevent hx)
    · rw [List.mem_singleton.mp hevent] at hx
      rw [← Option.some.inj hx]
      exact Nat.lt_succ_self _
  stopped {x u} hu := by
    rw [h.mem_trace (.stopped x) nofun]
    rcases h.cases hu with ⟨rfl, rfl⟩ | ⟨-, hu⟩
    · rw [h.done]
      exact ⟨fun hmem => absurd (hlog.known hmem rfl) (Nat.lt_irrefl _), nofun⟩
    · exact hlog.stopped hu
  aborted {x u} hu hevent := by
    rw [h.mem_trace (.aborted x) nofun] at hevent
    rcases h.cases hu with ⟨rfl, rfl⟩ | ⟨-, hu⟩
    · exact absurd (hlog.known hevent rfl) (Nat.lt_irrefl _)
    · exact hlog.aborted hu hevent
  kept {x u} hu hevent := by
    rw [h.mem_trace (.deleted x) nofun] at hevent
    rcases h.cases hu with ⟨rfl, rfl⟩ | ⟨-, hu⟩
    · exact absurd (hlog.known hevent rfl) (Nat.lt_irrefl _)
    · exact hlog.kept hu hevent
  gone {x} hx hlt := by
    have hne : x ≠ r.nextId := by
      rintro rfl
      rw [h.self] at hx
      cases hx
    rw [h.mem_trace (.stopped x) nofun, h.mem_trace (.deleted x) nofun]
    rw [h.other hne] at hx
    rw [h.nextId] at hlt
    exact hlog.gone hx (Nat.lt_of_le_of_ne (Nat.le_of_lt_succ hlt) hne)

theorem Makes.childrenOf (h : Makes r r' parent task) (q : Option TaskId) :
    r'.childrenOf q = r.childrenOf q := by
  cases q with
  | none => exact h.children
  | some q =>
    by_cases hq : q = r.nextId
    · rw [hq, TaskRunner.childrenOf, TaskRunner.childrenOf, h.self, h.fresh]
      exact h.kids
    · rw [TaskRunner.childrenOf, TaskRunner.childrenOf, h.other hq]

theorem Makes.tree (h : Makes r r' parent task) (htree : r.Tree [])
    (hparent : ∀ p, parent = some p → ∃ t, r.heap p = some t ∧ t.done = false) :
    (r'.addChild parent r.nextId).Tree [] := by
  have halike := alike_addChild parent r.nextId r'
  have hexists : ∀ p, parent = some p → ∃ t, r'.heap p = some t := by
    intro p hp
    obtain ⟨t, ht, -⟩ := hparent p hp
    exact ⟨t, (h.other (h.ne ht)).trans ht⟩
  have hlists : ∀ q x, x ∈ (r'.addChild parent r.nextId).childrenOf q ↔
      x ∈ r.childrenOf q ∨ (q = parent ∧ x = r.nextId) := by
    intro q x
    rw [childrenOf_addChild parent r.nextId r' q hexists, ← h.childrenOf]
    split
    next hq => simp [hq]
    next hq => simp [hq]
  have hcreated : ∀ q x, .created q x ∈ (r'.addChild parent r.nextId).trace ↔
      .created q x ∈ r.trace ∨ (q = parent ∧ x = r.nextId) := by
    intro q x
    rw [halike.mem_trace (.created q x) nofun, h.trace, List.mem_append, List.mem_singleton,
      TaskEvent.created.injEq]
  have hnextId : (r'.addChild parent r.nextId).nextId = r.nextId + 1 := halike.nextId.trans h.nextId
  have hold : ∀ q x, .created q x ∈ r.trace → x ≠ r.nextId := by
    rintro q x hx rfl
    exact Nat.lt_irrefl _ (htree.created hx).1
  constructor
  · intro x u' hu'
    obtain ⟨u, hu, hsame⟩ := halike.back hu'
    rw [hnextId, hcreated, hsame.parent]
    rcases h.cases hu with ⟨rfl, rfl⟩ | ⟨-, hu⟩
    · exact ⟨Nat.lt_succ_self _, .inr ⟨h.parent, rfl⟩⟩
    · exact ⟨Nat.lt_succ_of_lt (htree.alive hu).1, .inl (htree.alive hu).2⟩
  · intro q x hx
    rw [hnextId]
    rcases (hcreated q x).mp hx with hx | ⟨rfl, rfl⟩
    · obtain ⟨hlt, habove, hq⟩ := htree.created hx
      refine ⟨Nat.lt_succ_of_lt hlt, habove, fun u' hu' => ?_⟩
      obtain ⟨u, hu, hsame⟩ := halike.back hu'
      rw [h.other (hold q x hx)] at hu
      exact hsame.parent.trans (hq u hu)
    refine ⟨Nat.lt_succ_self _, fun p hp => ?_, fun u' hu' => ?_⟩
    · obtain ⟨t, ht, -⟩ := hparent p hp
      exact (htree.alive ht).1
    · obtain ⟨u, hu, hsame⟩ := halike.back hu'
      cases h.self.symm.trans hu
      exact hsame.parent.trans h.parent
  · intro q x hx
    rcases (hlists q x).mp hx with hx | ⟨rfl, rfl⟩
    · obtain ⟨u, hu, hq, hstate⟩ := htree.child hx
      obtain ⟨u', hu', hsame⟩ := halike.heap ((h.other (h.ne hu)).trans hu)
      exact ⟨u', hu', hsame.parent.trans hq, hstate.imp_left hsame.done.trans⟩
    · obtain ⟨u', hu', hsame⟩ := halike.heap h.self
      exact ⟨u', hu', hsame.parent.trans h.parent, .inl (hsame.done.trans h.done)⟩
  · intro x u' hu' hnot
    obtain ⟨u, hu, hsame⟩ := halike.back hu'
    rw [hlists, hsame.parent]
    rcases h.cases hu with ⟨rfl, rfl⟩ | ⟨-, hu⟩
    · exact .inr ⟨h.parent, rfl⟩
    · exact .inl (htree.listed hu (hsame.done ▸ hnot))
  intro p x hlt _ hfinished hchild
  have hbefore : p ≠ r.nextId → r.Finished p := by
    intro hp u hu
    obtain ⟨u', hu', hsame⟩ := halike.heap ((h.other hp).trans hu)
    rw [← hsame.done]
    exact hfinished u' hu'
  rcases (hcreated (some p) x).mp hchild with hx | ⟨hp, -⟩
  · have hp : p < r.nextId := Nat.lt_trans ((htree.created hx).2.1 p rfl) (htree.created hx).1
    have hxne : x ≠ r.nextId := hold _ x hx
    rcases htree.finished hp List.not_mem_nil (hbefore (Nat.ne_of_lt hp)) hx with hdone | hleaving
    · refine .inl fun u' hu' => ?_
      obtain ⟨u, hu, hsame⟩ := halike.back hu'
      rw [h.other hxne] at hu
      exact hsame.done.trans (hdone u hu)
    · obtain ⟨u, hu, hbusy, haborted⟩ := hleaving
      obtain ⟨u', hu', hsame⟩ := halike.heap ((h.other hxne).trans hu)
      exact .inr ⟨u', hu', hsame.busy.trans hbusy, hsame.aborted.trans haborted⟩
  · -- the parent is not done
    obtain ⟨t, ht, hdone⟩ := hparent p hp.symm
    have hdone' := hbefore (h.ne ht) t ht
    rw [hdone] at hdone'
    cases hdone'

end makes

theorem Sane.newTask {parent : Option TaskId} (h : r.Sane lost) (hpass : ∀ pass, r.phase ≠ .looping pass)
    (hparent : ∀ p, parent = some p → ∃ t, r.heap p = some t ∧ t.done = false) :
    (r.newTask parent).Sane lost := by
  have hfresh : r.heap r.nextId = none := by
    cases hnext : r.heap r.nextId with
    | none => rfl
    | some t => exact absurd (h.stable.tree.alive hnext).1 (Nat.lt_irrefl _)
  rw [TaskRunner.newTask]
  generalize hr' : ({ r.emit (.created parent r.nextId) with
    heap := Function.update r.heap r.nextId
      (some ⟨parent, [], .init, false, false, false, false, false, 0, 0, false⟩),
    nextId := r.nextId + 1 } : TaskRunner) = r'
  have hmakes : Makes r r' parent ⟨parent, [], .init, false, false, false, false, false, 0, 0, false⟩ := by
    rw [← hr']
    exact ⟨hfresh, rfl, rfl, rfl, rfl, rfl, rfl, rfl, rfl, rfl, rfl, rfl, rfl⟩
  have halike := alike_addChild parent r.nextId r'
  refine ⟨⟨hmakes.tree h.stable.tree hparent, (hmakes.flags h.stable.flags).alike halike,
    (hmakes.log h.stable.log).alike halike⟩, ?_⟩
  have hphase : (r'.addChild parent r.nextId).phase = r.phase := halike.phase.trans hmakes.phase
  have htasks : (r'.addChild parent r.nextId).tasks = r.tasks := halike.tasks.trans hmakes.tasks
  refine ⟨htasks ▸ h.listed.nodup, ?_, fun {pass} heq => absurd (hphase ▸ heq) (hpass pass)⟩
  intro x
  rw [htasks, halike.sameTasks.exist, halike.sameTasks.started, Started, hmakes.mem_trace (.started x) nofun,
    h.listed.mem]
  by_cases hx : x = r.nextId
  · subst hx
    constructor
    · rintro ⟨-, t, ht⟩
      exact absurd rfl (hmakes.ne ht)
    · rintro ⟨hstarted, -⟩
      exact absurd (h.stable.log.known hstarted rfl) (Nat.lt_irrefl _)
  · rw [hmakes.other hx]
    rfl

end Synciga.TaskRunner
