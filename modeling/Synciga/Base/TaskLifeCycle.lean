import Synciga.Base.TaskSteps

/-!
# The life of a task

The steps of `InternalRunTasks` keep the invariant. Left out are runs in which a task is started again before it
left `STATE_INIT`, or raises an error in its own `Process` and then returns `STATE_BLOCKED`.

## Main results

* `lifeCycle_of_run` — a task that was started is on `tasks_` once and deleted once, nothing happens to it after
  it stopped, and none is left behind `RunTasks` that should not be there
* `not_lifeCycle` — a task that is started twice, an error in `Process`, and a child without its parent
-/

namespace Synciga.TaskRunner

variable {lost : Prop} {stopping : List TaskId} {r r' : TaskRunner} {id : TaskId} {t : Task}

/-! ### Places where no task is in its `Process` -/

theorem Flags.notBusy (hflags : r.Flags lost) (hphase : ∀ pass id, r.phase ≠ .processing pass id) {u : Task}
    (hu : r.heap id = some u) : u.busy = false := by
  rw [← Bool.not_eq_true, hflags.busy hu]
  rintro ⟨pass, hpass⟩
  exact hphase pass id hpass

theorem Stable.elsewhere (h : r.Stable lost stopping) (hheap : r'.heap = r.heap) (hnextId : r'.nextId = r.nextId)
    (hchildren : r'.children = r.children) (htrace : r'.trace = r.trace)
    (hphase : ∀ pass id, r.phase ≠ .processing pass id) (hphase' : ∀ pass id, r'.phase ≠ .processing pass id) :
    r'.Stable lost stopping := by
  obtain ⟨heap', nextId', children', tasks', nextTimeout', phase', now', trace'⟩ := r'
  dsimp only at hheap hnextId hchildren htrace
  subst hheap hnextId hchildren htrace
  have hflags := h.flags
  refine ⟨⟨h.tree.alive, h.tree.created, h.tree.child, h.tree.listed, h.tree.finished⟩, ⟨h.flags.ok, ?_, ?_⟩,
    ⟨h.log.lawful, h.log.known, h.log.stopped, h.log.aborted, h.log.kept, h.log.gone⟩⟩
  · intro x u hu
    have hnot : u.busy = false := hflags.notBusy hphase hu
    rw [hnot]
    exact ⟨nofun, fun ⟨pass, hpass⟩ => absurd hpass (hphase' pass x)⟩
  · intro pass x hpass
    exact absurd hpass (hphase' pass x)

theorem Stable.delete (h : r.Stable lost []) (ht : r.heap id = some t) (hdone : t.done = true)
    (hidle : ∀ x u, r.heap x = some u → u.busy = false) (hheap : r'.heap = Function.update r.heap id none)
    (hnextId : r'.nextId = r.nextId) (hchildren : r'.children = r.children) (hphase : r'.phase = r.phase)
    (htrace : r'.trace = r.trace ++ [.deleted id]) : r'.Stable lost [] := by
  have hself : r'.heap id = none := by rw [hheap, Function.update_self]
  have hother : ∀ {x}, x ≠ id → r'.heap x = r.heap x := fun hx => by rw [hheap, Function.update_of_ne hx]
  have hback : ∀ {x u}, r'.heap x = some u → x ≠ id ∧ r.heap x = some u := by
    intro x u hu
    have hx : x ≠ id := by
      rintro rfl
      rw [hself] at hu
      cases hu
    exact ⟨hx, hother hx ▸ hu⟩
  have hmem : ∀ event, event ≠ .deleted id → (event ∈ r'.trace ↔ event ∈ r.trace) := by
    intro event hne
    rw [htrace, List.mem_append, or_iff_left]
    exact fun hevent => hne (List.mem_singleton.mp hevent)
  have hfinished : ∀ x, r'.Finished x ↔ r.Finished x := by
    intro x
    constructor
    · intro hx u hu
      by_cases heq : x = id
      · subst heq
        cases ht.symm.trans hu
        exact hdone
      · exact hx u ((hother heq).trans hu)
    · exact fun hx u hu => hx u (hback hu).2
  have hnotLeaving : ∀ x, ¬r.Leaving x := by
    rintro x ⟨u, hu, hbusy, -⟩
    rw [hidle x u hu] at hbusy
    cases hbusy
  have hlists : ∀ q x, x ∈ r'.childrenOf q ↔ x ∈ r.childrenOf q ∧ q ≠ some id := by
    intro q x
    cases q with
    | none =>
      rw [childrenOf, childrenOf, hchildren]
      simp
    | some q =>
      by_cases hq : q = id
      · rw [hq, childrenOf, hself]
        simp
      · rw [childrenOf, hother hq, childrenOf]
        simp [hq]
  refine ⟨⟨?_, ?_, ?_, ?_, ?_⟩, ⟨?_, ?_, ?_⟩, ⟨?_, ?_, ?_, ?_, ?_, ?_⟩⟩
  · intro x u hu
    rw [hnextId, hmem (.created u.parent x) (by rintro ⟨⟩)]
    exact h.tree.alive (hback hu).2
  · intro q x hx
    rw [hmem (.created q x) (by rintro ⟨⟩)] at hx
    obtain ⟨hlt, habove, hq⟩ := h.tree.created hx
    exact ⟨hnextId ▸ hlt, habove, fun u hu => hq u (hback hu).2⟩
  · intro q x hx
    obtain ⟨hx, -⟩ := (hlists q x).mp hx
    obtain ⟨u, hu, hq, hstate⟩ := h.tree.child hx
    have hne : x ≠ id := by
      rintro rfl
      cases ht.symm.trans hu
      rw [hdone] at hstate
      exact hstate.elim (by rintro ⟨⟩) (by rintro ⟨⟩)
    exact ⟨u, (hother hne).trans hu, hq, hstate⟩
  · intro x u hu hnot
    obtain ⟨-, hu⟩ := hback hu
    refine (hlists u.parent x).mpr ⟨h.tree.listed hu hnot, fun hq => ?_⟩
    -- the children of a task that is done are done
    obtain ⟨-, hcreated⟩ := h.tree.alive hu
    rw [hq] at hcreated
    rcases h.tree.finished (h.tree.alive ht).1 List.not_mem_nil
        (fun _ ht' => by cases ht.symm.trans ht'; exact hdone)
      hcreated with hx | hx
    · rw [hx u hu] at hnot
      cases hnot
    · exact hnotLeaving x hx
  · intro p x hlt hnot hp hchild
    rw [hfinished] at hp ⊢
    rw [Child, hmem (.created (some p) x) (by rintro ⟨⟩)] at hchild
    rcases h.tree.finished (hnextId ▸ hlt) hnot hp hchild with hx | hx
    · exact .inl hx
    · exact absurd hx (hnotLeaving x)
  · intro x u hu
    exact h.flags.ok (hback hu).2
  · intro x u hu
    rw [hphase]
    exact h.flags.busy (hback hu).2
  · intro pass x hpass
    rw [hphase] at hpass
    obtain ⟨u, hu⟩ := h.flags.running hpass
    have hbusy := (h.flags.busy hu).mpr ⟨pass, hpass⟩
    rw [hidle x u hu] at hbusy
    cases hbusy
  · rw [htrace]
    exact h.log.lawful.append ⟨h.log.kept ht, (h.log.stopped ht).mpr hdone⟩
  · intro event x hevent hx
    rw [hnextId]
    rw [htrace] at hevent
    rcases List.mem_append.mp hevent with hevent | hevent
    · exact h.log.known hevent hx
    · rw [List.mem_singleton.mp hevent] at hx
      rw [← Option.some.inj hx]
      exact (h.tree.alive ht).1
  · intro x u hu
    rw [hmem (.stopped x) (by rintro ⟨⟩)]
    exact h.log.stopped (hback hu).2
  · intro x u hu hevent
    exact h.log.aborted (hback hu).2 ((hmem (.aborted x) (by rintro ⟨⟩)).mp hevent)
  · intro x u hu hevent
    obtain ⟨hne, hu⟩ := hback hu
    rw [hmem (.deleted x) fun heq => hne (TaskEvent.deleted.inj heq)] at hevent
    exact h.log.kept hu hevent
  intro x hx hlt
  by_cases hne : x = id
  · subst hne
    refine ⟨(hmem (.stopped x) (by rintro ⟨⟩)).mpr ((h.log.stopped ht).mpr hdone), ?_⟩
    rw [htrace]
    exact List.mem_append_right _ List.mem_cons_self
  · rw [hother hne] at hx
    obtain ⟨hstopped, hdeleted⟩ := h.log.gone hx (hnextId ▸ hlt)
    exact ⟨(hmem (.stopped x) (by rintro ⟨⟩)).mpr hstopped, htrace ▸ List.mem_append_left _ hdeleted⟩

/-! ### The end of a run -/

/-- Tasks that are done are deleted, and nothing else happens. -/
structure Deletes (r r' : TaskRunner) : Prop where
  nextId : r'.nextId = r.nextId
  tasks : r'.tasks = r.tasks
  phase : r'.phase = r.phase
  heap : ∀ id, r'.heap id = r.heap id ∨ (r'.heap id = none ∧ r.Finished id)
  started : ∀ id, r'.Started id ↔ r.Started id

theorem Deletes.refl (r : TaskRunner) : Deletes r r := ⟨rfl, rfl, rfl, fun _ => .inl rfl, fun _ => .rfl⟩

theorem Deletes.trans {r'' : TaskRunner} (h : Deletes r r') (h' : Deletes r' r'') : Deletes r r'' := by
  refine ⟨h'.nextId.trans h.nextId, h'.tasks.trans h.tasks, h'.phase.trans h.phase, ?_,
    fun x => (h'.started x).trans (h.started x)⟩
  intro x
  rcases h.heap x with heq | ⟨hnone, hfinished⟩
  · rcases h'.heap x with heq' | ⟨hnone', hfinished'⟩
    · exact .inl (heq'.trans heq)
    · exact .inr ⟨hnone', fun u hu => hfinished' u (heq.trans hu)⟩
  · rcases h'.heap x with heq' | ⟨hnone', -⟩
    · exact .inr ⟨heq'.trans hnone, hfinished⟩
    · exact .inr ⟨hnone', hfinished⟩

theorem Stable.deleteRound (h : r.Stable lost []) (hphase : ∀ pass id, r.phase ≠ .processing pass id)
    (recalc : Bool) (id : TaskId) :
    (TaskRunner.deleteRound (r, recalc) id).1.Stable lost [] ∧ Deletes r (TaskRunner.deleteRound (r, recalc) id).1 ∧
      ∀ t, (TaskRunner.deleteRound (r, recalc) id).1.heap id = some t → t.done = false := by
  simp only [TaskRunner.deleteRound]
  split
  next hnone =>
    refine ⟨h, .refl r, fun t ht => ?_⟩
    rw [hnone] at ht
    cases ht
  next t ht =>
    split
    next hdone =>
      refine ⟨h.delete ht hdone (fun x u hu => h.flags.notBusy hphase hu) rfl rfl rfl rfl rfl,
        ⟨rfl, rfl, rfl, fun x => ?_, fun x => ?_⟩, fun u hu => ?_⟩
      · by_cases hx : x = id
        · subst hx
          refine .inr ⟨Function.update_self .., fun u hu => ?_⟩
          cases ht.symm.trans hu
          exact hdone
        · exact .inl (Function.update_of_ne hx ..)
      · simp [Started, emit]
      · have hnone : Function.update r.heap id none id = some u := hu
        rw [Function.update_self] at hnone
        cases hnone
    next hdone =>
      refine ⟨h, .refl r, fun u hu => ?_⟩
      cases ht.symm.trans hu
      exact Bool.eq_false_iff.mpr hdone

theorem Stable.foldl_deleteRound {l : List TaskId} (h : r.Stable lost [])
    (hphase : ∀ pass id, r.phase ≠ .processing pass id) (recalc : Bool) :
    (l.foldl TaskRunner.deleteRound (r, recalc)).1.Stable lost [] ∧
      Deletes r (l.foldl TaskRunner.deleteRound (r, recalc)).1 ∧
      ∀ x ∈ l, ∀ t, (l.foldl TaskRunner.deleteRound (r, recalc)).1.heap x = some t → t.done = false := by
  induction l generalizing r recalc with
  | nil => exact ⟨h, .refl r, fun _ hmem => nomatch hmem⟩
  | cons x l ih =>
    obtain ⟨hfirst, hdeletes, hx⟩ := h.deleteRound hphase recalc x
    rw [List.foldl_cons]
    generalize TaskRunner.deleteRound (r, recalc) x = round at hfirst hdeletes hx
    obtain ⟨r₁, recalc₁⟩ := round
    obtain ⟨hrest, hdeletes', hl⟩ := ih hfirst (fun pass y => hdeletes.phase ▸ hphase pass y) recalc₁
    refine ⟨hrest, hdeletes.trans hdeletes', fun y hy u hu => ?_⟩
    rcases List.mem_cons.mp hy with rfl | hy
    · rcases hdeletes'.heap y with heq | ⟨hnone, -⟩
      · exact hx u (heq.symm.trans hu)
      · rw [hnone] at hu
        cases hu
    · exact hl y hy u hu

theorem Sane.finish (h : r.Sane lost) (hphase : ∀ pass id, r.phase ≠ .processing pass id) (pass : Pass) :
    (r.finish pass).Sane lost ∧ (r.finish pass).phase = .idle ∧
      ∀ id ∈ (r.finish pass).tasks, ∀ t, (r.finish pass).heap id = some t →
        t.done = false ∧ id ∈ r.tasks ∧ ∃ u, r.heap id = some u ∧ Task.Alike u t := by
  obtain ⟨hstable, hdeletes, hdone⟩ := h.stable.foldl_deleteRound (l := r.tasks) hphase false
  rw [TaskRunner.finish]
  generalize r.tasks.foldl TaskRunner.deleteRound (r, false) = state at hstable hdeletes hdone
  obtain ⟨r₁, recalc⟩ := state
  dsimp only at hstable hdeletes hdone ⊢
  have hphase₁ : ∀ pass id, r₁.phase ≠ .processing pass id := fun pass x => hdeletes.phase ▸ hphase pass x
  generalize hr₂ : ({ r₁ with tasks := r₁.tasks.filter fun id => (r₁.heap id).isSome } : TaskRunner) = r₂
  have hstable₂ : r₂.Stable lost [] := by
    rw [← hr₂]
    exact hstable.elsewhere rfl rfl rfl rfl hphase₁ hphase₁
  have htasks₂ : ∀ x, x ∈ r₂.tasks ↔ x ∈ r.tasks ∧ ∃ t, r₂.heap x = some t := by
    intro x
    rw [← hr₂, List.mem_filter, hdeletes.tasks, Option.isSome_iff_exists]
  generalize hr₃ : (if recalc then r₂.recalcNextTimeout none else r₂) = r₃
  have hquiet₃ : Quiet r₂ r₃ := by
    rw [← hr₃]
    split
    · exact quiet_recalcNextTimeout none r₂
    · exact .refl r₂
  generalize hr₄ : (if pass.inDestructor then r₃ else r₃.checkForTimeoutChange pass.previous) = r₄
  have hquiet : Quiet r₂ r₄ := by
    rw [← hr₄]
    split
    · exact hquiet₃
    · exact hquiet₃.trans (quiet_checkForTimeoutChange pass.previous r₃)
  have hsame := hquiet.toAlike.sameTasks
  have hphase₄ : ∀ pass id, r₄.phase ≠ .processing pass id := by
    intro pass x
    rw [hquiet.phase, ← hr₂]
    exact hphase₁ pass x
  refine ⟨⟨?_, ?_, ?_, nofun⟩, rfl, ?_⟩
  · exact (hstable₂.alike hquiet.toAlike hquiet.lists).elsewhere rfl rfl rfl rfl hphase₄ nofun
  · show r₄.tasks.Nodup
    rw [hsame.tasks, ← hr₂]
    exact (hdeletes.tasks ▸ h.listed.nodup).filter _
  · intro x
    show x ∈ r₄.tasks ↔ r₄.Started x ∧ ∃ t, r₄.heap x = some t
    rw [hsame.tasks, hsame.started, hsame.exist, htasks₂, h.listed.mem]
    have hstarted : r₂.Started x ↔ r.Started x := by
      rw [← hr₂]
      exact hdeletes.started x
    rw [hstarted]
    constructor
    · rintro ⟨⟨hx, -⟩, halive⟩
      exact ⟨hx, halive⟩
    rintro ⟨hx, u, hu⟩
    refine ⟨⟨hx, ?_⟩, u, hu⟩
    rw [← hr₂] at hu
    rcases hdeletes.heap x with heq | ⟨hnone, -⟩
    · exact ⟨u, heq.symm.trans hu⟩
    · rw [hnone] at hu
      cases hu
  · intro x hx u' hu'
    obtain ⟨u, hu, halike⟩ := hquiet.back hu'
    have hmem : x ∈ r.tasks := ((htasks₂ x).mp (hsame.tasks ▸ hx)).1
    rw [← hr₂] at hu
    refine ⟨halike.done.trans (hdone x hmem u hu), hmem, u, ?_, halike⟩
    rcases hdeletes.heap x with heq | ⟨hnone, -⟩
    · exact heq.symm.trans hu
    · rw [hnone] at hu
      cases hu

/-! ### The loops -/

theorem Sane.elsewhere {phase : Phase} (h : r.Sane lost) (hphase : ∀ pass id, r.phase ≠ .processing pass id)
    (hphase' : ∀ pass id, phase ≠ .processing pass id)
    (hblocked : ∀ {pass}, phase = .looping pass → pass.didRun = false → ∀ i < pass.index, ∀ id t,
      r.tasks[i]? = some id → r.heap id = some t → t.blocked = true) :
    ({ r with phase } : TaskRunner).Sane lost :=
  ⟨h.stable.elsewhere rfl rfl rfl rfl hphase hphase', h.listed.nodup, h.listed.mem, hblocked⟩

theorem SameTasks.trans {r'' : TaskRunner} (h : SameTasks r r') (h' : SameTasks r' r'') : SameTasks r r'' :=
  ⟨h'.tasks.trans h.tasks, fun x => (h'.exist x).trans (h.exist x), fun x => (h'.started x).trans (h.started x)⟩

theorem Sane.stopWith {abort : TaskId → TaskRunner → TaskRunner} {r₁ : TaskRunner} {t' : Task}
    {events : List TaskEvent} (hstable : r.Stable lost []) (hlisted : r.Listed)
    (hdeep : ∀ (r' : TaskRunner) (x : TaskId), r'.nextId = r₁.nextId → id < x →
      ∃ n, r'.nextId ≤ x + n ∧ abort x r' = abortWithin n x r')
    (hreplaces : Replaces r (r₁.emit (.stopped id)) id t t' (events ++ [.stopped id])) (htasks : r₁.tasks = r.tasks)
    (hdone : t.done = false) (hdone' : t'.done = true) (hbusy : t'.busy = false)
    (hphase : ∀ x pass, r₁.phase = .processing pass x ↔ x ≠ id ∧ r.phase = .processing pass x)
    (hpass : ∀ pass, r₁.phase = .looping pass → pass.didRun = true)
    (hevents : ∀ event ∈ events, event = .aborted id)
    (haborted : (t.aborted = true ∨ events ≠ []) → t'.aborted = true) :
    (r₁.stopWith abort t'.parent id).Sane lost ∧
      Aborts (r₁.emit (.stopped id)) (r₁.stopWith abort t'.parent id) := by
  have hmarked : (r₁.emit (.stopped id)).Stable lost [id] :=
    hstable.mark hreplaces hdone hdone' hbusy hphase hevents haborted
  obtain ⟨hstopped, haborts, -⟩ := Stable.stopMarked hdeep hmarked hreplaces.self hdone'
  have hsame : SameTasks r (r₁.emit (.stopped id)) := by
    refine hreplaces.sameTasks htasks fun x hmem => ?_
    rcases List.mem_append.mp hmem with hmem | hmem
    · cases hevents _ hmem
    · cases List.mem_singleton.mp hmem
  exact ⟨⟨hstopped, hlisted.same (hsame.trans haborts.sameTasks)
    fun pass heq => hpass pass (haborts.phase ▸ heq)⟩, haborts⟩

theorem Sane.stop {r₁ : TaskRunner} {t' : Task} (hstable : r.Stable lost []) (hlisted : r.Listed)
    (hreplaces : Replaces r (r₁.emit (.stopped id)) id t t' [.stopped id]) (htasks : r₁.tasks = r.tasks)
    (hdone : t.done = false) (hdone' : t'.done = true) (hbusy : t'.busy = false)
    (hphase : ∀ pass x, r.phase ≠ .processing pass x) (hphase' : ∀ pass x, r₁.phase ≠ .processing pass x)
    (hpass : ∀ pass, r₁.phase = .looping pass → pass.didRun = true)
    (haborted : t.aborted = true → t'.aborted = true) :
    (r₁.stop id).Sane lost ∧ Aborts (r₁.emit (.stopped id)) (r₁.stop id) := by
  have hself : r₁.heap id = some t' := hreplaces.self
  have hreplaces : Replaces r (r₁.emit (.stopped id)) id t t' ([] ++ [.stopped id]) := hreplaces
  rw [TaskRunner.stop, hself]
  refine Sane.stopWith hstable hlisted (fun r' x _ _ => ⟨r'.nextId, Nat.le_add_left _ _, rfl⟩) hreplaces htasks
    hdone hdone' hbusy (fun x pass => ?_) hpass (fun _ hmem => nomatch hmem)
    (fun hor => haborted (hor.resolve_right fun hne => hne rfl))
  exact ⟨fun heq => absurd heq (hphase' pass x), fun heq => absurd heq.2 (hphase pass x)⟩

variable {pass : Pass}

theorem Sane.advance (h : r.Sane lost) (hpass : r.phase = .looping pass) :
    (r.advance pass).Sane lost ∧ ((r.advance pass).phase = .idle → ∀ id ∈ (r.advance pass).tasks, ∀ t,
      (r.advance pass).heap id = some t → t.done = false ∧ t.aborted = false ∧ (t.error = true → lost)) := by
  have hphase : ∀ pass' id, r.phase ≠ .processing pass' id := by
    rw [hpass]
    exact nofun
  have hidle : ∀ {x u}, r.heap x = some u → u.busy = false := fun hu => h.stable.flags.notBusy hphase hu
  rw [TaskRunner.advance]
  split
  next hend =>
    have hindex : r.tasks.length ≤ pass.index := List.getElem?_eq_none_iff.mp hend
    split
    · refine ⟨h.elsewhere hphase nofun fun {pass'} heq _ i hi => ?_, nofun⟩
      rw [← Phase.looping.inj heq] at hi
      exact absurd hi (Nat.not_lt_zero i)
    next hrun =>
      obtain ⟨hsane, -, hleft⟩ := h.finish hphase pass
      refine ⟨hsane, fun _ x hx t ht => ?_⟩
      obtain ⟨hdone, hmem, u, hu, halike⟩ := hleft x hx t ht
      -- all tasks were looked at in this pass, and none of them did run
      obtain ⟨i, hi, hget⟩ := List.mem_iff_getElem.mp hmem
      have hblocked : u.blocked = true := h.listed.blocked hpass (Bool.eq_false_iff.mpr hrun) i
        (Nat.lt_of_lt_of_le hi hindex) x u (hget ▸ List.getElem?_eq_getElem hi) hu
      have hflags := h.stable.flags.ok hu
      have hlive : u.done = false := halike.done ▸ hdone
      refine ⟨hdone, ?_, ?_⟩
      · rw [halike.aborted, ← Bool.not_eq_true]
        intro haborted
        rcases hflags.aborted haborted with hd | hb
        · rw [hlive] at hd
          cases hd
        · rw [hidle hu] at hb
          cases hb
      rw [halike.error]
      intro herror
      rcases hflags.error herror with hd | hb | hlost
      · rw [hlive] at hd
        cases hd
      · rw [hblocked] at hb
        cases hb
      · exact hlost
  next id hget =>
    have hnext : ∀ {pass'}, Phase.looping { pass with index := pass.index + 1 } = .looping pass' →
        pass'.didRun = false → (∀ t, r.heap id = some t → t.blocked = true) → ∀ i < pass'.index, ∀ x t,
        r.tasks[i]? = some x → r.heap x = some t → t.blocked = true := by
      intro pass' heq hrun hthis i hi x t hx ht
      rw [← Phase.looping.inj heq] at hi hrun
      rcases Nat.lt_succ_iff_lt_or_eq.mp hi with hi | rfl
      · exact h.listed.blocked hpass hrun i hi x t hx ht
      · cases hget.symm.trans hx
        exact hthis t ht
    split
    next hnone =>
      refine ⟨h.elsewhere hphase nofun fun heq hrun => hnext heq hrun fun t ht => ?_, nofun⟩
      rw [hnone] at ht
      cases ht
    next t ht =>
      split
      next hblocked =>
        refine ⟨h.elsewhere hphase nofun fun heq hrun => hnext heq hrun fun u hu => ?_, nofun⟩
        cases ht.symm.trans hu
        exact hblocked
      next hblocked =>
        have hran : ({ r with phase := .looping { pass with didRun := true } } : TaskRunner).Sane lost := by
          refine h.elsewhere hphase nofun fun {pass'} heq hrun => ?_
          rw [← Phase.looping.inj heq] at hrun
          cases hrun
        have hpass' : ∀ pass', ({ r with phase := .looping { pass with didRun := true } } : TaskRunner).phase =
            .looping pass' → pass'.didRun = true := by
          intro pass' heq
          rw [← Phase.looping.inj heq]
        have hflags := h.stable.flags.ok ht
        split
        next hdone =>
          refine ⟨?_, nofun⟩
          have hreplaces : Replaces { r with phase := .looping { pass with didRun := true } }
              (TaskRunner.modify id (fun t => { t with blocked := true })
                { r with phase := .looping { pass with didRun := true } }) id t { t with blocked := true } [] := by
            refine ⟨ht, ?_, rfl, rfl, (List.append_nil _).symm, rfl, rfl, fun _ _ hmem => nomatch hmem⟩
            dsimp only [modify]
            rw [ht]
            rfl
          refine ⟨hran.stable.replaces hreplaces (.inl rfl) rfl rfl (fun hb _ => hb) ?_, ?_⟩
          · exact hran.stable.flags.replaces_same hreplaces
              ⟨hflags.aborted, hflags.busy, fun _ => .inl hdone⟩ rfl rfl
          · exact hran.listed.same (hreplaces.sameTasks rfl fun _ hmem => nomatch hmem) hpass'
        next hdone =>
          rw [Bool.not_eq_true] at hdone
          split
          next herror =>
            have hreplaces : Replaces r ((TaskRunner.modify id
                (fun t => { t with done := true, state := .error, blocked := true })
                { r with phase := .looping { pass with didRun := true } }).emit (.stopped id)) id t
                { t with done := true, state := .error, blocked := true } [.stopped id] := by
              refine ⟨ht, ?_, rfl, rfl, rfl, rfl, rfl, fun _ _ hmem => by cases List.mem_singleton.mp hmem⟩
              dsimp only [modify, emit]
              rw [ht]
              rfl
            have hbusy : t.busy = false := hidle ht
            obtain ⟨hsane, haborts⟩ := Sane.stop h.stable h.listed hreplaces rfl hdone rfl hbusy hphase nofun hpass'
              fun haborted => haborted
            refine ⟨hsane, fun hend => ?_⟩
            rw [haborts.phase] at hend
            cases hend
          next herror =>
            refine ⟨?_, nofun⟩
            have hreplaces : Replaces r { (TaskRunner.modify id (fun t => { t with busy := true })
                { r with phase := .looping { pass with didRun := true } }).emit (.process id t.state) with
                phase := .processing pass id } id t { t with busy := true } [.process id t.state] := by
              refine ⟨ht, ?_, rfl, rfl, rfl, rfl, rfl, fun _ _ hmem => by cases List.mem_singleton.mp hmem⟩
              dsimp only [modify, emit]
              rw [ht]
              rfl
            have hnot : ∀ event ∈ [TaskEvent.process id t.state], event = .process id t.state :=
              fun event hevent => List.mem_singleton.mp hevent
            have haborted : t.aborted = false := by
              rw [← Bool.not_eq_true]
              intro haborted
              rcases hflags.aborted haborted with hd | hb
              · rw [hdone] at hd
                cases hd
              · rw [hidle ht] at hb
                cases hb
            refine ⟨⟨?_, ?_, ?_⟩, ?_⟩
            · refine h.stable.tree.replaces hreplaces (fun _ hx => hx) (fun _ hx => .inl hx)
                (.inl ⟨rfl, List.not_mem_nil⟩) fun hb _ => ?_
              rw [hidle ht] at hb
              cases hb
            · refine h.stable.flags.replaces hreplaces ⟨fun _ => .inr rfl, fun _ => hdone, hflags.error⟩ ?_ ?_ ?_
              · exact ⟨fun _ => ⟨pass, rfl⟩, fun _ => rfl⟩
              · intro x pass' hx heq
                cases heq
                exact absurd rfl hx
              · intro x pass' _ heq
                exact absurd heq (hphase pass' x)
            · refine h.stable.log.replaces h.stable.tree hreplaces (h.stable.log.lawful.append ⟨?_, ?_⟩) ?_ ?_ ?_ ?_
              · rw [h.stable.log.stopped ht, hdone]
                exact nofun
              · intro hmem
                have hset := h.stable.log.aborted ht hmem
                rw [haborted] at hset
                cases hset
              · intro event hevent x hx
                rw [hnot event hevent] at hx
                exact (Option.some.inj hx).symm
              · show t.done = true ↔ _
                rw [or_iff_left]
                exact fun hmem => nomatch hnot _ hmem
              · exact fun hor => hor.resolve_right fun hmem => nomatch hnot _ hmem
              · exact fun hmem => nomatch hnot _ hmem
            · exact h.listed.same (hreplaces.sameTasks rfl fun _ hmem => nomatch hnot _ hmem) nofun

theorem Sane.processed {result : Option TaskState} (h : r.Sane lost) (hpass : r.phase = .processing pass id)
    (hresult : result = none → ∀ t, r.heap id = some t → t.error = true → t.aborted = true ∨ lost) :
    (r.processed pass id result).Sane lost := by
  obtain ⟨t, ht⟩ := h.stable.flags.running hpass
  have hflags := h.stable.flags.ok ht
  have hbusy : t.busy = true := (h.stable.flags.busy ht).mpr ⟨pass, hpass⟩
  have hdone : t.done = false := hflags.busy hbusy
  have hlooping : ∀ pass', Phase.looping { pass with didRun := true } = .looping pass' → pass'.didRun = true := by
    intro pass' heq
    rw [← Phase.looping.inj heq]
  have hleft : ∀ x pass', Phase.looping { pass with didRun := true } = .processing pass' x ↔
      x ≠ id ∧ r.phase = .processing pass' x := by
    intro x pass'
    rw [hpass]
    refine ⟨(by rintro ⟨⟩), fun hother => ?_⟩
    obtain ⟨hx, heq⟩ := hother
    cases heq
    exact absurd rfl hx
  generalize hr₁ : TaskRunner.modify id (fun t => { t with busy := false })
    { r with phase := .looping { pass with didRun := true } } = r₁
  have hself : r₁.heap id = some { t with busy := false } := by
    rw [← hr₁]
    show Function.update r.heap id _ id = _
    rw [Function.update_self, ht]
    rfl
  have hheap : r₁.heap = Function.update r.heap id (some { t with busy := false }) := by
    rw [← hr₁]
    dsimp only [modify]
    rw [ht]
    rfl
  have hnextId : r₁.nextId = r.nextId := by rw [← hr₁]; rfl
  have hchildren : r₁.children = r.children := by rw [← hr₁]; rfl
  have htrace : r₁.trace = r.trace := by rw [← hr₁]; rfl
  have htasks : r₁.tasks = r.tasks := by rw [← hr₁]; rfl
  have hphase : r₁.phase = .looping { pass with didRun := true } := by rw [← hr₁]; rfl
  -- the task is given other flags, as long as it is not done
  have hchange : ∀ t' r', Replaces r r' id t t' [] → r'.tasks = r.tasks →
      r'.phase = .looping { pass with didRun := true } → t'.done = false → t'.busy = false →
      t'.aborted = t.aborted → t.aborted = false → (t'.error = true → t'.blocked = false ∨ lost) →
          r'.Sane lost := by
    intro t' r' hreplaces htasks' hphase' hdone' hbusy' haborted' haborted herror
    constructor
    · refine h.stable.replaces hreplaces (.inl rfl) (hdone'.trans hdone.symm) haborted' ?_ ?_
      · intro _ hset
        rw [haborted] at hset
        cases hset
      refine h.stable.flags.replaces hreplaces
          ⟨fun hset => ?_, fun hset => ?_, fun hset => .inr (herror hset)⟩ ?_ ?_ ?_
      · rw [haborted', haborted] at hset
        cases hset
      · rw [hbusy'] at hset
        cases hset
      · rw [hbusy', hphase']
        refine ⟨(by rintro ⟨⟩), fun hrunning => ?_⟩
        obtain ⟨pass', heq⟩ := hrunning
        cases heq
      · intro x pass' _ heq
        rw [hphase'] at heq
        cases heq
      · intro x pass' hx heq
        rw [hpass] at heq
        cases heq
        exact absurd rfl hx
    · refine h.listed.same (hreplaces.sameTasks htasks' fun _ hmem => absurd hmem (by rintro ⟨⟩))
          fun pass' heq => ?_
      exact hlooping pass' (hphase' ▸ heq)
  unfold TaskRunner.processed
  dsimp only
  rw [hr₁, hself]
  dsimp only
  split
  next haborted =>
    -- what `Abort` left to be done
    obtain ⟨n, hn⟩ : ∃ n, r₁.nextId = n + 1 :=
      Nat.exists_eq_succ_of_ne_zero (Nat.ne_of_gt (Nat.lt_of_le_of_lt (Nat.zero_le id)
        (hnextId ▸ (h.stable.tree.alive ht).1)))
    rw [TaskRunner.abort, hn, TaskRunner.abortWithin, hself]
    dsimp only
    rw [if_neg (by rw [hdone]; exact (by rintro ⟨⟩)), if_neg (by rintro ⟨⟩)]
    generalize hr₂ : (r₁.modify id fun t =>
      { t with aborted := true, done := true, blocked := true, error := true }).emit (.aborted id) = r₂
    have hreplaces : Replaces r (r₂.emit (.stopped id)) id t
        { t with busy := false, aborted := true, done := true, blocked := true, error := true }
        ([.aborted id] ++ [.stopped id]) := by
      rw [← hr₂]
      refine ⟨ht, ?_, hnextId, hchildren, ?_, rfl, rfl, fun _ _ hmem => by simp at hmem⟩
      · dsimp only [emit, modify]
        rw [hself, hheap, Function.update_idem]
        rfl
      · dsimp only [emit, modify]
        rw [htrace, List.append_assoc]
    have hphase₂ : r₂.phase = .looping { pass with didRun := true } := by rw [← hr₂]; exact hphase
    have hnextId₂ : r₂.nextId = n + 1 := by rw [← hr₂]; exact hn
    refine (Sane.stopWith h.stable h.listed (fun r' x hx hlt => ⟨n, ?_, rfl⟩) hreplaces
        (by rw [← hr₂]; exact htasks)
      hdone rfl rfl (fun x pass' => hphase₂ ▸ hleft x pass') (fun pass' heq => hlooping pass' (hphase₂ ▸ heq))
      (fun event hevent => List.mem_singleton.mp hevent) fun _ => rfl).1
    rw [hx, hnextId₂, Nat.add_comm]
    exact Nat.add_le_add_right (Nat.lt_of_le_of_lt (Nat.zero_le id) hlt) n
  next haborted =>
    rw [Bool.not_eq_true] at haborted
    split
    · have hreplaces : Replaces r (r₁.modify id fun t => { t with blocked := true }) id t
          { t with busy := false, blocked := true } [] := by
        refine ⟨ht, ?_, hnextId, hchildren, (List.append_nil _).symm ▸ htrace, rfl, rfl, fun _ _ hmem =>
            absurd hmem (by rintro ⟨⟩)⟩
        dsimp only [modify]
        rw [hself, hheap, Function.update_idem]
        rfl
      refine hchange _ _ hreplaces htasks hphase hdone rfl rfl haborted fun herror => ?_
      refine .inr ((hresult rfl t ht herror).resolve_left fun hset => ?_)
      rw [haborted] at hset
      cases hset
    next state =>
      have hreplaces : Replaces r (r₁.modify id fun t => { t with state, blocked := false }) id t
          { t with busy := false, state, blocked := false } [] := by
        refine ⟨ht, ?_, hnextId, hchildren, (List.append_nil _).symm ▸ htrace, rfl, rfl, fun _ _ hmem =>
            absurd hmem (by rintro ⟨⟩)⟩
        dsimp only [modify]
        rw [hself, hheap, Function.update_idem]
        rfl
      have hsane : (r₁.modify id fun t => { t with state, blocked := false }).Sane lost :=
        hchange _ _ hreplaces htasks hphase hdone rfl rfl haborted fun _ => .inl rfl
      have hquiet := quiet_resetTimeout id (r₁.modify id fun t => { t with state, blocked := false })
      obtain ⟨t₂, ht₂, halike⟩ := hquiet.heap hreplaces.self
      have hreset := hsane.quiet hquiet
      have hphase₂ := hquiet.phase.trans hphase
      generalize (r₁.modify id fun t => { t with state, blocked := false }).resetTimeout id = r₂
        at ht₂ hreset hphase₂
      split
      · have hdone₂ : t₂.done = false := halike.done.trans hdone
        have hbusy₂ : t₂.busy = false := halike.busy
        have hreplaces' : Replaces r₂ ((r₂.modify id fun t =>
            { t with done := true, error := t.error || state = .error }).emit (.stopped id)) id t₂
            { t₂ with done := true, error := t₂.error || state = .error } [.stopped id] := by
          refine ⟨ht₂, ?_, rfl, rfl, rfl, rfl, rfl, fun _ _ hmem => by cases List.mem_singleton.mp hmem⟩
          dsimp only [modify, emit]
          rw [ht₂]
          rfl
        have hnot₂ : ∀ pass' x, r₂.phase ≠ .processing pass' x := by
          intro pass' x heq
          rw [hphase₂] at heq
          cases heq
        obtain ⟨hstopped, haborts⟩ := Sane.stop hreset.stable hreset.listed hreplaces' rfl hdone₂ rfl
            hbusy₂ hnot₂ hnot₂
          (fun pass' heq => hlooping pass' (hphase₂ ▸ heq)) fun haborted => haborted
        obtain ⟨t₄, ht₄, hlater⟩ := haborts.heap hreplaces'.self
        have hphase₄ := haborts.phase.trans hphase₂
        generalize TaskRunner.stop id _ = r₄ at hstopped ht₄ hphase₄ ⊢
        have hflags₄ := hstopped.stable.flags.ok ht₄
        have hreplaces₄ : Replaces r₄ (r₄.modify id fun t => { t with blocked := true }) id t₄
            { t₄ with blocked := true } [] := by
          refine ⟨ht₄, ?_, rfl, rfl, (List.append_nil _).symm, rfl, rfl, fun _ _ hmem => absurd hmem (by rintro ⟨⟩)⟩
          dsimp only [modify]
          rw [ht₄]
          rfl
        refine ⟨hstopped.stable.replaces hreplaces₄ (.inl rfl) rfl rfl (fun hb _ => hb) ?_, ?_⟩
        · exact hstopped.stable.flags.replaces_same hreplaces₄
            ⟨hflags₄.aborted, hflags₄.busy, fun _ => .inl (hlater.done rfl)⟩ rfl rfl
        · refine hstopped.listed.same (hreplaces₄.sameTasks rfl fun _ hmem => absurd hmem (by rintro ⟨⟩))
              fun pass' heq => ?_
          exact hlooping pass' (hphase₄ ▸ heq)
      · exact hreset

/-! ### All that can happen -/

theorem Sane.create (now : Int) : (TaskRunner.create now).Sane lost := by
  refine ⟨⟨⟨nofun, nofun, ?_, nofun, nofun⟩, ⟨nofun, nofun, nofun⟩, ⟨?_, nofun, nofun, nofun, nofun, ?_⟩⟩,
    List.nodup_nil, ?_, nofun⟩
  · intro parent id hid
    cases parent with
    | none => cases hid
    | some p => cases hid
  · exact Runs.lawful_nil _
  · intro id _ hlt
    exact absurd hlt (Nat.not_lt_zero id)
  intro id
  constructor
  · intro hmem
    cases hmem
  · rintro ⟨-, t, ht⟩
    cases ht

theorem Sane.beginRun (h : r.Sane lost) (inDestructor : Bool) : (r.beginRun inDestructor).Sane lost := by
  rw [TaskRunner.beginRun]
  split
  · exact h
  next hidle =>
    have hphase : r.phase = .idle := by simpa [running] using hidle
    refine h.elsewhere (by rw [hphase]; exact nofun) nofun fun {pass} heq _ i hi => ?_
    rw [← Phase.looping.inj heq] at hi
    exact absurd hi (Nat.not_lt_zero i)

theorem Sane.abortAllChildren (h : r.Sane lost) (hidle : r.phase = .idle) :
    r.abortAllChildren.Sane lost ∧ r.abortAllChildren.phase = .idle ∧ ∀ id, r.abortAllChildren.Finished id := by
  have hroots : ∀ x ∈ r.children, .created none x ∈ r.trace := by
    intro x hx
    obtain ⟨u, hu, hparent, -⟩ := h.stable.tree.child (show x ∈ r.childrenOf none from hx)
    exact hparent ▸ (h.stable.tree.alive hu).2
  obtain ⟨hstable, haborts, hhandled⟩ := Stable.foldl_abort (n := r.nextId)
    (fun {r' x} _ (hstable' : r'.Stable lost []) _ => hstable'.abort fun _ hmem => nomatch hmem) rfl h.stable hroots
  rw [TaskRunner.abortAllChildren]
  generalize r.children.foldl (fun r x => r.abort x) r = r' at hstable haborts hhandled
  have hphase : r'.phase = .idle := haborts.phase.trans hidle
  have hnotLeaving : ∀ x, ¬r'.Leaving x := by
    rintro x ⟨u, hu, hbusy, -⟩
    rw [hstable.flags.notBusy (by rw [hphase]; exact nofun) hu] at hbusy
    cases hbusy
  refine ⟨⟨hstable, h.listed.same haborts.sameTasks fun pass heq => ?_⟩, hphase, fun x => ?_⟩
  · rw [hphase] at heq
    cases heq
  -- a parent has a smaller id than its child
  induction x using Nat.strongRecOn with
  | _ x ih =>
    intro t ht
    obtain ⟨-, hcreated⟩ := hstable.tree.alive ht
    cases hparent : t.parent with
    | none =>
      obtain ⟨u, hu, hlater⟩ := haborts.back ht
      cases hdone : u.done with
      | true => exact hlater.done hdone
      | false =>
        have hmem := h.stable.tree.listed hu hdone
        rw [← hlater.parent, hparent] at hmem
        exact (hhandled x hmem).elim (fun hfinished => hfinished t ht)
            fun hleaving => absurd hleaving (hnotLeaving x)
    | some p =>
      rw [hparent] at hcreated
      obtain ⟨hlt, habove, -⟩ := hstable.tree.created hcreated
      have hp : p < x := habove p rfl
      rcases hstable.tree.finished (Nat.lt_trans hp hlt) List.not_mem_nil (ih p hp) hcreated with hx | hx
      · exact hx t ht
      · exact absurd hx (hnotLeaving x)

/-- A task is not started again before it left `STATE_INIT`. -/
def startsOnce (r : TaskRunner) (op : TaskOp) : Bool :=
  match op with
  | .start id => id ∉ r.tasks || (r.heap id).all fun t => t.state ≠ .init
  | _ => true

/-- When `Process` returns `STATE_BLOCKED`, the error flag of the task was not set, or it was aborted. -/
def keepsError (r : TaskRunner) (op : TaskOp) : Bool :=
  match op, r.phase with
  | .processed none, .processing _ id => (r.heap id).all fun t => !t.error || t.aborted
  | _, _ => true

/-- The steps that are not left out. -/
def Regular (r : TaskRunner) (op : TaskOp) : Prop := r.startsOnce op = true ∧ r.keepsError op = true

instance (r : TaskRunner) (op : TaskOp) : Decidable (r.Regular op) := inferInstanceAs (Decidable (_ ∧ _))

variable {op : TaskOp}

theorem Sane.apply (h : r.Sane lost) (hpass : ∀ pass, r.phase ≠ .looping pass)
    (hvalid : r.valid op = true) (honce : r.startsOnce op = true) : (r.apply op).Sane lost := by
  cases op with
  | newTask parent =>
    refine h.newTask hpass fun p hp => ?_
    rw [hp, valid, Option.any_eq_true] at hvalid
    obtain ⟨t, ht, hdone⟩ := hvalid
    exact ⟨t, ht, by simpa using hdone⟩
  | start id =>
    refine h.start hpass fun t ht hinit => ?_
    rw [startsOnce, Bool.or_eq_true, ht] at honce
    exact honce.elim (fun hnew => by simpa using hnew) fun hstate => by simp [hinit] at hstate
  | wake id => exact h.wake hpass id
  | error id => exact h.error hpass id
  | abort id => exact h.abort hpass id
  | setTimeoutSeconds seconds id => exact h.quiet (quiet_setTimeoutSeconds seconds id r)
  | suspendTimeout suspend id => exact h.quiet (quiet_suspendTimeout suspend id r)
  | resetTimeout id => exact h.quiet (quiet_resetTimeout id r)
  | clearTimeout id => exact h.quiet (quiet_clearTimeout id r)
  | runTasks => exact h.beginRun false
  | destroy =>
    have hidle : r.phase = .idle := by simpa [valid] using hvalid
    exact (h.abortAllChildren hidle).1.beginRun true
  | tick time => exact h
  | processed result => exact h
  | advance => exact h

theorem Sane.step (h : r.Sane lost) (honce : r.startsOnce op = true) (herror : lost ∨ r.keepsError op = true)
    (hstep : r.step op = some r') : r'.Sane lost := by
  rw [TaskRunner.step.eq_def] at hstep
  split at hstep
  next time =>
    cases hstep
    exact ⟨⟨⟨h.stable.tree.alive, h.stable.tree.created, h.stable.tree.child, h.stable.tree.listed,
      h.stable.tree.finished⟩, ⟨h.stable.flags.ok, h.stable.flags.busy, h.stable.flags.running⟩,
      ⟨h.stable.log.lawful, h.stable.log.known, h.stable.log.stopped, h.stable.log.aborted, h.stable.log.kept,
        h.stable.log.gone⟩⟩, h.listed.nodup, h.listed.mem, h.listed.blocked⟩
  next pass hpass =>
    cases hstep
    exact (h.advance hpass).1
  next => cases hstep
  next result pass id hpass =>
    cases hstep
    refine h.processed hpass fun hresult t ht hset => ?_
    subst hresult
    refine herror.symm.imp_left fun hkept => ?_
    simpa [keepsError, hpass, ht, hset] using hkept
  next => cases hstep
  next => cases hstep
  next hloop _ _ =>
    split at hstep
    next hvalid =>
      cases hstep
      exact h.apply hloop hvalid honce
    next => cases hstep

theorem Sane.of_run {now : Int} {ops : List TaskOp} {r : TaskRunner}
    (hok : Runs.Admissible TaskRunner.step Regular (TaskRunner.create now) ops)
    (hrun : Runs.run TaskRunner.step (TaskRunner.create now) ops = some r) : r.Sane False :=
  Runs.invariant (fun _ _ _ h hregular hstep => h.step hregular.1 (.inr hregular.2) hstep) (.create now) hok hrun

/-! ### The life cycle -/

/-- What holds of all tasks at any time. -/
structure LifeCycle (r : TaskRunner) : Prop where
  /-- A task that was started is on the list once, or it was deleted, once. -/
  listed : ∀ id, r.Started id →
    (r.tasks.count id = 1 ∧ (∃ t, r.heap id = some t) ∧ r.trace.count (.deleted id) = 0) ∨
      (r.tasks.count id = 0 ∧ r.heap id = none ∧ r.trace.count (.deleted id) = 1)
  /-- `Process` was not called on a task that had stopped or was aborted. -/
  process : ∀ pre id state suf, r.trace = pre ++ .process id state :: suf → .stopped id ∉ pre ∧ .aborted id ∉ pre
  /-- `Stop` did run once for each task that is done. -/
  stopped : ∀ id t, r.heap id = some t → r.trace.count (.stopped id) = if t.done then 1 else 0
  deleted : ∀ id, id < r.nextId → r.heap id = none → r.trace.count (.stopped id) = 1
  parent : ∀ id t, r.heap id = some t → t.done = true → id ∉ r.childrenOf t.parent
  /-- The tasks below a task that is done are done, but for one that is in its `Process` and was aborted, and
  the tasks below that one. -/
  descendants : ∀ top id, top < r.nextId → r.Finished top → r.Below top id → r.Finished id ∨
    ∃ pass z t, r.phase = .processing pass z ∧ r.heap z = some t ∧ t.aborted = true ∧ (id = z ∨ r.Below z id)

theorem count_eq_one (hlog : r.Log) {event : TaskEvent}
    (honce : ∀ pre, Lawful pre event → event ∉ pre) (hmem : event ∈ r.trace) : r.trace.count event = 1 := by
  refine Nat.le_antisymm ?_ (List.count_pos_iff.mpr hmem)
  refine hlog.lawful.countP_le_one fun pre a ha heq b hb => ?_
  rw [beq_iff_eq] at heq
  subst heq
  rw [beq_eq_false_iff_ne]
  rintro rfl
  exact honce pre ha hb

theorem Sane.lifeCycle (h : r.Sane lost) : r.LifeCycle where
  listed id hstarted := by
    have hcount : id ∈ r.tasks → r.tasks.count id = 1 := fun hmem =>
      Nat.le_antisymm (List.nodup_iff_count.mp h.listed.nodup id) (List.count_pos_iff.mpr hmem)
    cases hid : r.heap id with
    | some t =>
      exact .inl ⟨hcount (h.listed.mem.mpr ⟨hstarted, t, hid⟩), ⟨t, rfl⟩,
          List.count_eq_zero.mpr (h.stable.log.kept hid)⟩
    | none =>
      have hgone := h.stable.log.gone hid (h.stable.log.known hstarted rfl)
      refine .inr ⟨List.count_eq_zero.mpr fun hmem => ?_, rfl,
        count_eq_one h.stable.log (fun _ hlawful => hlawful.1) hgone.2⟩
      obtain ⟨-, t, ht⟩ := h.listed.mem.mp hmem
      rw [hid] at ht
      cases ht
  process pre id state suf hsplit := h.stable.log.lawful pre _ suf hsplit
  stopped id t ht := by
    split
    next hdone =>
      exact count_eq_one h.stable.log (fun _ hlawful => hlawful) ((h.stable.log.stopped ht).mpr hdone)
    next hdone => exact List.count_eq_zero.mpr fun hmem => hdone ((h.stable.log.stopped ht).mp hmem)
  deleted id hlt hid := count_eq_one h.stable.log (fun _ hlawful => hlawful) (h.stable.log.gone hid hlt).1
  parent id t ht hdone hmem := by
    obtain ⟨u, hu, -, hstate⟩ := h.stable.tree.child hmem
    cases ht.symm.trans hu
    rw [hdone] at hstate
    exact hstate.elim nofun nofun
  descendants top id hlt hfinished hbelow := by
    have hstep : ∀ p x, p < r.nextId → r.Finished p → r.Child p x → r.Finished x ∨
        ∃ pass z t, r.phase = .processing pass z ∧ r.heap z = some t ∧ t.aborted = true ∧
          (x = z ∨ r.Below z x) := by
      intro p x hp hfinished hchild
      refine (h.stable.tree.finished hp List.not_mem_nil hfinished hchild).imp_right ?_
      rintro ⟨u, hu, hbusy, haborted⟩
      obtain ⟨pass, hpass⟩ := (h.stable.flags.busy hu).mp hbusy
      exact ⟨pass, x, u, hpass, hu, haborted, .inl rfl⟩
    induction hbelow with
    | single hchild => exact hstep _ _ hlt hfinished hchild
    | tail hbelow hchild ih =>
      rcases ih with hfinished | ⟨pass, z, t, hpass, ht, haborted, rfl | hz⟩
      · refine hstep _ _ (Nat.lt_trans ?_ (h.stable.tree.created hchild).1) hfinished hchild
        exact (h.stable.tree.created hchild).2.1 _ rfl
      · exact .inr ⟨pass, _, t, hpass, ht, haborted, .inr (.single hchild)⟩
      · exact .inr ⟨pass, z, t, hpass, ht, haborted, .inr (hz.tail hchild)⟩

/-! ### The destructor -/

theorem Sane.advance_of_finished (h : r.Sane lost) (hpass : r.phase = .looping pass)
    (hall : ∀ id, r.Finished id) :
    ((r.advance pass).phase = .idle ∧ (r.advance pass).tasks = []) ∨
      ((∃ pass', (r.advance pass).phase = .looping pass') ∧ ∀ id, (r.advance pass).Finished id) := by
  rw [TaskRunner.advance]
  split
  · split
    · exact .inr ⟨⟨_, rfl⟩, hall⟩
    refine .inl ?_
    obtain ⟨hsane, hidle, hleft⟩ := h.finish (by rw [hpass]; exact nofun) pass
    refine ⟨hidle, List.eq_nil_iff_forall_not_mem.mpr fun x hx => ?_⟩
    obtain ⟨-, t, ht⟩ := hsane.listed.mem.mp hx
    obtain ⟨hdone, -, u, hu, halike⟩ := hleft x hx t ht
    rw [halike.done, hall x u hu] at hdone
    cases hdone
  next id _ =>
    split
    · exact .inr ⟨⟨_, rfl⟩, hall⟩
    next t ht =>
      split
      · exact .inr ⟨⟨_, rfl⟩, hall⟩
      refine .inr ?_
      have hdone : t.done = true := hall id t ht
      rw [if_pos hdone]
      refine ⟨⟨_, rfl⟩, fun x u hu => ?_⟩
      by_cases hx : x = id
      · subst hx
        rw [heap_modify_self] at hu
        obtain ⟨v, hv, rfl⟩ := Option.map_eq_some_iff.mp hu
        exact hall x v hv
      · rw [heap_modify_of_ne hx] at hu
        exact hall x u hu

/-- All tasks are done, or deleted. -/
def Destroyed (r : TaskRunner) : Prop :=
  (r.phase = .idle ∧ r.tasks = []) ∨ ((∃ pass, r.phase = .looping pass) ∧ ∀ id, r.Finished id)

theorem Destroyed.step (hdestroyed : r.Destroyed) (h : r.Sane lost)
    (hop : op = .advance ∨ ∃ time, op = .tick time) (hstep : r.step op = some r') : r'.Destroyed := by
  rcases hop with rfl | ⟨time, rfl⟩
  · rcases hdestroyed with ⟨hidle, -⟩ | ⟨⟨pass, hpass⟩, hall⟩
    · simp [TaskRunner.step, hidle] at hstep
    · simp only [TaskRunner.step, hpass, Option.some.injEq] at hstep
      rw [← hstep]
      exact h.advance_of_finished hpass hall
  · simp only [TaskRunner.step, Option.some.injEq] at hstep
    rw [← hstep]
    exact hdestroyed

theorem Destroyed.of_run {ops : List TaskOp} (hdestroyed : r.Destroyed) (h : r.Sane lost)
    (hops : ∀ op ∈ ops, op = .advance ∨ ∃ time, op = .tick time)
    (hrun : Runs.run TaskRunner.step r ops = some r') : r'.Destroyed ∧ r'.Sane lost := by
  induction ops generalizing r with
  | nil =>
    cases hrun
    exact ⟨hdestroyed, h⟩
  | cons op ops ih =>
    obtain ⟨r₁, hstep, hrest⟩ := Runs.run_cons hrun
    have hop := hops op List.mem_cons_self
    have hregular : r.Regular op := by
      rcases hop with rfl | ⟨time, rfl⟩
      · exact ⟨rfl, rfl⟩
      · exact ⟨rfl, rfl⟩
    exact ih (hdestroyed.step h hop hstep) (h.step hregular.1 (.inr hregular.2) hstep)
      (fun op' hop' => hops op' (List.mem_cons_of_mem _ hop')) hrest

/-! ### Over a whole run -/

/-- In every run of regular steps the life cycle is kept. When `RunTasks` returns, no task that is left is done,
was aborted or has its error flag set. When the destructor returns, every task that was started was deleted. -/
theorem lifeCycle_of_run {now : Int} {ops : List TaskOp} {r : TaskRunner}
    (hok : Runs.Admissible TaskRunner.step Regular (TaskRunner.create now) ops)
    (hrun : Runs.run TaskRunner.step (TaskRunner.create now) ops = some r) :
    r.LifeCycle ∧
      (∀ r', r.step .advance = some r' → r'.phase = .idle → ∀ id ∈ r'.tasks, ∀ t, r'.heap id = some t →
        t.done = false ∧ t.aborted = false ∧ t.error = false) ∧
      ∀ rest r', (∀ op ∈ rest, op = .advance ∨ ∃ time, op = .tick time) →
        Runs.run TaskRunner.step r (.destroy :: rest) = some r' → r'.phase = .idle →
        r'.tasks = [] ∧ ∀ id, r'.Started id → r'.heap id = none ∧ r'.trace.count (.deleted id) = 1 := by
  have h : r.Sane False := .of_run hok hrun
  refine ⟨h.lifeCycle, ?_, ?_⟩
  · intro r' hstep hidle
    cases hphase : r.phase with
    | idle => simp [TaskRunner.step, hphase] at hstep
    | processing pass id => simp [TaskRunner.step, hphase] at hstep
    | looping pass =>
      simp only [TaskRunner.step, hphase, Option.some.injEq] at hstep
      rw [← hstep] at hidle ⊢
      intro id hid t ht
      obtain ⟨hdone, haborted, herror⟩ := (h.advance hphase).2 hidle id hid t ht
      exact ⟨hdone, haborted, Bool.eq_false_iff.mpr herror⟩
  intro rest r' hrest hrun' hidle
  obtain ⟨r₁, hstep, hrun₁⟩ := Runs.run_cons hrun'
  have hsane₁ : r₁.Sane False := h.step rfl (.inr rfl) hstep
  have hbegin : r.phase = .idle ∧ r₁ = r.abortAllChildren.beginRun true := by
    cases hphase : r.phase with
    | idle =>
      refine ⟨rfl, ?_⟩
      simpa [TaskRunner.step, hphase, valid, TaskRunner.apply, eq_comm] using hstep
    | looping pass => simp [TaskRunner.step, hphase] at hstep
    | processing pass id => simp [TaskRunner.step, hphase, valid] at hstep
  obtain ⟨hphase, rfl⟩ := hbegin
  obtain ⟨-, hphase', hall⟩ := h.abortAllChildren hphase
  have hdestroyed : (r.abortAllChildren.beginRun true).Destroyed := by
    refine .inr ?_
    rw [TaskRunner.beginRun, if_neg (by simp [running, hphase'])]
    exact ⟨⟨_, rfl⟩, hall⟩
  obtain ⟨hdestroyed', hsane'⟩ := hdestroyed.of_run hsane₁ hrest hrun₁
  rcases hdestroyed' with ⟨-, htasks⟩ | ⟨⟨pass, hpass⟩, -⟩
  · refine ⟨htasks, fun id hstarted => ?_⟩
    rcases hsane'.lifeCycle.listed id hstarted with ⟨hcount, -⟩ | ⟨-, hgone⟩
    · rw [htasks] at hcount
      cases hcount
    · exact hgone
  · rw [hpass] at hidle
    cases hidle

/-- A task with a child. In its `Process` the task is aborted, and the child with it later. -/
def abortedInProcess : List TaskOp :=
  [.newTask none, .newTask (some 0), .start 0, .start 1, .runTasks, .advance, .abort 0, .processed none]

theorem lifeCycle_of_run_abortedInProcess :
    ∃ r, Runs.run TaskRunner.step (TaskRunner.create 0) abortedInProcess = some r ∧ r.LifeCycle ∧
      (∀ r', r.step .advance = some r' → r'.phase = .idle → ∀ id ∈ r'.tasks, ∀ t, r'.heap id = some t →
        t.done = false ∧ t.aborted = false ∧ t.error = false) ∧
      ∀ rest r', (∀ op ∈ rest, op = .advance ∨ ∃ time, op = .tick time) →
        Runs.run TaskRunner.step r (.destroy :: rest) = some r' → r'.phase = .idle →
        r'.tasks = [] ∧ ∀ id, r'.Started id → r'.heap id = none ∧ r'.trace.count (.deleted id) = 1 := by
  obtain ⟨r, hr⟩ : ∃ r, Runs.run TaskRunner.step (TaskRunner.create 0) abortedInProcess = some r :=
    Option.isSome_iff_exists.mp (by decide +kernel)
  exact ⟨r, hr, lifeCycle_of_run (by decide +kernel) hr⟩

/-- A task is started twice before it did run. -/
def startedTwice : List TaskOp := [.newTask none, .start 0, .start 0]

/-- A task calls `Error` in its own `Process`, and then returns `STATE_BLOCKED`. -/
def errorInProcess : List TaskOp :=
  [.newTask none, .start 0, .runTasks, .advance, .error 0, .processed none, .advance, .advance, .advance, .advance]

/-- A child aborts its parent in its own `Process`. -/
def parentAborted : List TaskOp :=
  [.newTask none, .newTask (some 0), .start 1, .runTasks, .advance, .abort 0]

/-- A task is on the list twice, `RunTasks` leaves a task whose error flag is set, and a child is not done when
its parent is. -/
theorem not_lifeCycle :
    (∃ r, Runs.run TaskRunner.step (TaskRunner.create 0) startedTwice = some r ∧ r.tasks.count 0 = 2) ∧
      (∃ r, Runs.run TaskRunner.step (TaskRunner.create 0) errorInProcess = some r ∧ r.phase = .idle ∧
        0 ∈ r.tasks ∧ ∃ t, r.heap 0 = some t ∧ t.done = false ∧ t.error = true) ∧
      ∃ r, Runs.run TaskRunner.step (TaskRunner.create 0) parentAborted = some r ∧ r.Finished 0 ∧
        r.Below 0 1 ∧ ¬r.Finished 1 := by
  refine ⟨?_, ?_, ?_⟩
  · have hrun : (Runs.run TaskRunner.step (TaskRunner.create 0) startedTwice).map (·.tasks) = some [0, 0] := by
      decide +kernel
    obtain ⟨r, hr, htasks⟩ := Option.map_eq_some_iff.mp hrun
    refine ⟨r, hr, ?_⟩
    rw [htasks]
    rfl
  · have hrun : (Runs.run TaskRunner.step (TaskRunner.create 0) errorInProcess).map (fun r =>
        (r.phase, r.tasks, (r.heap 0).map fun t => (t.done, t.error))) = some (.idle, [0], some (false, true)) := by
      decide +kernel
    obtain ⟨r, hr, hstate⟩ := Option.map_eq_some_iff.mp hrun
    rw [Prod.mk.injEq, Prod.mk.injEq] at hstate
    obtain ⟨hphase, htasks, htask⟩ := hstate
    obtain ⟨t, ht, hflags⟩ := Option.map_eq_some_iff.mp htask
    rw [Prod.mk.injEq] at hflags
    exact ⟨r, hr, hphase, htasks ▸ List.mem_cons_self, t, ht, hflags⟩
  have hrun : (Runs.run TaskRunner.step (TaskRunner.create 0) parentAborted).map (fun r =>
      ((r.heap 0).map Task.done, (r.heap 1).map Task.done, r.trace.contains (.created (some 0) 1))) =
      some (some true, some false, true) := by
    decide +kernel
  obtain ⟨r, hr, hstate⟩ := Option.map_eq_some_iff.mp hrun
  rw [Prod.mk.injEq, Prod.mk.injEq] at hstate
  obtain ⟨hparent, hchild, hcreated⟩ := hstate
  obtain ⟨t, ht, hdone⟩ := Option.map_eq_some_iff.mp hparent
  obtain ⟨u, hu, hlive⟩ := Option.map_eq_some_iff.mp hchild
  refine ⟨r, hr, fun t' ht' => ?_, .single (List.contains_iff_mem.mp hcreated), fun hfinished => ?_⟩
  · cases ht.symm.trans ht'
    exact hdone
  · rw [hfinished u hu] at hlive
    cases hlive

end Synciga.TaskRunner
