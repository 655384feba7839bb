import Synciga.Base.TaskTimeouts

/-!
# `PollTasks` and `OnTimeoutChange`

The application is told when the next timeout is earlier than it was, and calls `PollTasks` when it has passed.
`PollTasks` wakes the task; if `WakeTasks`, which is up to the application, does not run the tasks at once, the
task stays `next_timeout_task_`, and `PollTasks` returns.

## Main results

* `timeouts_of_run` — the next timeout is the earliest, and is announced and polled
* `not_earliest` — a task that gets a later timeout hides an earlier one
-/

namespace Synciga.TaskRunner

variable {lost : Prop} {r r' : TaskRunner} {id : TaskId} {t : Task}

/-! ### The next timeout -/

theorem nextTaskTimeout_eq {n : TaskId} (hnext : r.nextTimeout = some n) (ht : r.heap n = some t) :
    r.nextTaskTimeout = t.timeoutTime := by
  rw [nextTaskTimeout, hnext]
  dsimp only
  rw [timeoutTime, ht]

theorem nextTaskTimeout_none (hnext : r.nextTimeout = none) : r.nextTaskTimeout = 0 := by
  rw [nextTaskTimeout, hnext]

/-- The next timeout is earlier than it was. -/
def Earlier (r r' : TaskRunner) : Prop :=
  r'.nextTaskTimeout ≠ 0 ∧ (r.nextTaskTimeout = 0 ∨ r'.nextTaskTimeout < r.nextTaskTimeout)

/-- `OnTimeoutChange` was called meanwhile. -/
def Announced (r r' : TaskRunner) : Prop := ∃ events, r'.trace = r.trace ++ events ∧ .timeoutChange ∈ events

theorem Steady.nextTaskTimeout (h : Steady r r') : r'.nextTaskTimeout = r.nextTaskTimeout := by
  cases hnext : r.nextTimeout with
  | none => rw [nextTaskTimeout_none hnext, nextTaskTimeout_none (h.nextTimeout.trans hnext)]
  | some n =>
    rw [TaskRunner.nextTaskTimeout, TaskRunner.nextTaskTimeout, h.nextTimeout, hnext]
    dsimp only
    rw [timeoutTime, timeoutTime]
    cases hn : r.heap n with
    | some t =>
      obtain ⟨t', ht', htask⟩ := h.heap hn
      rw [ht']
      exact htask.timeoutTime
    | none =>
      cases hn' : r'.heap n with
      | none => rfl
      | some t' =>
        obtain ⟨t, ht, -⟩ := h.back hn'
        rw [hn] at ht
        cases ht

theorem not_earlier_of_eq (h : r'.nextTaskTimeout = r.nextTaskTimeout) : ¬Earlier r r' := by
  rintro ⟨hne, hzero | hlt⟩
  · exact hne (h.trans hzero)
  · rw [h] at hlt
    exact Int.lt_irrefl _ hlt

theorem announced_checkForTimeoutChange {previous : Int} {r₁ : TaskRunner} (htrace : r.trace <+: r₁.trace)
    (hne : (r₁.checkForTimeoutChange previous).nextTaskTimeout ≠ 0)
    (hlt : previous = 0 ∨ (r₁.checkForTimeoutChange previous).nextTaskTimeout < previous) :
    Announced r (r₁.checkForTimeoutChange previous) := by
  rw [(steady_checkForTimeoutChange previous r₁).nextTaskTimeout] at hne hlt
  rw [checkForTimeoutChange]
  rw [if_pos]
  · obtain ⟨events, heq⟩ := htrace
    exact ⟨events ++ [.timeoutChange], by rw [emit, ← heq, List.append_assoc],
      List.mem_append_right _ List.mem_cons_self⟩
  · rcases hlt with hzero | hlt
    · exact .inl ⟨hzero, hne⟩
    · exact .inr (.inl hlt)

/-! ### While the runner is idle -/

theorem Quiet.follows (h : Quiet r r') : Follows r r' := by
  obtain ⟨events, htrace, -⟩ := h.trace
  exact ⟨by rw [h.phase], events, htrace.symm⟩

theorem announced_updateTaskTimeout {previous : Int} {r₁ : TaskRunner} (hidle : r₁.phase = .idle)
    (htrace : r.trace <+: r₁.trace) (hnext : r₁.nextTimeout = r.nextTimeout)
    (hsame : r.nextTimeout = some id → r.nextTaskTimeout = previous)
    (hother : r.nextTimeout ≠ some id → r.nextTaskTimeout = r₁.nextTaskTimeout)
    (hearlier : Earlier r (r₁.updateTaskTimeout id previous)) :
    Announced r (r₁.updateTaskTimeout id previous) := by
  have hbefore : r.nextTaskTimeout = if r₁.nextTimeout = some id then previous else r₁.nextTaskTimeout := by
    rw [hnext]
    split
    next heq => exact hsame heq
    next hne => exact hother hne
  rw [updateTaskTimeout] at hearlier ⊢
  have hnot : ¬(r₁.running = true) := by simp [running, hidle]
  rw [if_neg hnot] at hearlier ⊢
  obtain ⟨hne, hlt⟩ := hearlier
  rw [hbefore] at hlt
  refine announced_checkForTimeoutChange ?_ hne hlt
  split
  · split
    · exact htrace
    · exact htrace
  · split
    · exact htrace
    · exact htrace

theorem nextTaskTimeout_modify {f : Task → Task} (hne : r.nextTimeout ≠ some id) :
    (r.modify id f).nextTaskTimeout = r.nextTaskTimeout := by
  have hsame : (r.modify id f).nextTimeout = r.nextTimeout := rfl
  rw [nextTaskTimeout, nextTaskTimeout, hsame]
  cases hn : r.nextTimeout with
  | none => rfl
  | some n =>
    have hnid : n ≠ id := by
      rintro rfl
      exact hne hn
    dsimp only
    rw [timeoutTime, heap_modify_of_ne hnid, timeoutTime]

theorem announced_reset {f : Task → Task} (hf : ∀ t, (f t).timeoutTime = t.timeoutTime) (hidle : r.phase = .idle)
    (hearlier : Earlier r ((r.modify id f).resetTimeout id)) : Announced r ((r.modify id f).resetTimeout id) := by
  refine announced_updateTaskTimeout hidle (List.prefix_refl _) rfl ?_ ?_ hearlier
  · intro hnext
    rw [nextTaskTimeout, hnext]
    dsimp only
    rw [timeoutTime, timeoutTime, heap_modify_self]
    cases r.heap id with
    | none => rfl
    | some t => exact (hf t).symm
  · intro hne
    have hfirst : (r.modify id f).nextTaskTimeout = r.nextTaskTimeout := nextTaskTimeout_modify hne
    exact (nextTaskTimeout_modify (r := r.modify id f) hne).trans hfirst |>.symm

variable {op : TaskOp}

theorem announced_apply (h : r.Timely) (hsane : r.Sane lost) (hidle : r.phase = .idle)
    (honce : r.startsOnce op = true) (hruns : op ≠ .runTasks) (hdestroy : op ≠ .destroy)
    (hearlier : Earlier r (r.apply op)) : Announced r (r.apply op) := by
  have hsteady : ∀ {r₁ : TaskRunner}, Steady r r₁ → Earlier r r₁ → Announced r r₁ :=
    fun hs he => absurd he (not_earlier_of_eq hs.nextTaskTimeout)
  cases op with
  | newTask parent =>
    refine absurd hearlier (not_earlier_of_eq ?_)
    rw [TaskRunner.apply, newTask]
    rw [(steady_addChild _ _ _).nextTaskTimeout]
    cases hn : r.nextTimeout with
    | none =>
      rw [nextTaskTimeout_none hn]
      exact nextTaskTimeout_none hn
    | some n =>
      obtain ⟨t, ht, -⟩ := h.earliest.next hn
      rw [nextTaskTimeout_eq hn ht]
      refine nextTaskTimeout_eq hn ?_
      show Function.update r.heap r.nextId _ n = some t
      rw [Function.update_of_ne (Nat.ne_of_lt (hsane.stable.tree.alive ht).1), ht]
  | start id =>
    rw [TaskRunner.apply, start] at hearlier ⊢
    split at hearlier
    · exact absurd hearlier (not_earlier_of_eq rfl)
    next t ht =>
      split at hearlier
      · exact absurd hearlier (not_earlier_of_eq rfl)
      next hinit =>
        rw [if_neg hinit]
        refine announced_updateTaskTimeout hidle (List.prefix_append _ _) rfl (fun hn => ?_) (fun _ => rfl) hearlier
        -- a task that is not on the list is not the next one
        obtain ⟨u, hu, htime, -⟩ := h.earliest.next hn
        have hmem : id ∈ r.tasks := h.timed.begun hu (.inr (.inl htime))
        simp [startsOnce, ht, hmem, hinit] at honce
  | wake id => exact hsteady (steady_wake id r) hearlier
  | error id => exact hsteady (steady_error id r) hearlier
  | abort id => exact hsteady (steady_abort id r) hearlier
  | setTimeoutSeconds seconds id => exact announced_reset (fun _ => rfl) hidle hearlier
  | suspendTimeout suspend id =>
    rw [TaskRunner.apply, suspendTimeout] at hearlier ⊢
    split at hearlier
    · exact absurd hearlier (not_earlier_of_eq rfl)
    · split at hearlier
      · exact absurd hearlier (not_earlier_of_eq rfl)
      next hne =>
        rw [if_neg hne]
        exact announced_reset (fun _ => rfl) hidle hearlier
  | resetTimeout id =>
    have hself : r.modify id (fun t => t) = r := by
      rw [modify, Option.map_id', Function.update_eq_self]
    have hreset : Earlier r ((r.modify id fun t => t).resetTimeout id) →
        Announced r ((r.modify id fun t => t).resetTimeout id) := announced_reset (fun _ => rfl) hidle
    rw [hself] at hreset
    exact hreset hearlier
  | clearTimeout id =>
    refine announced_updateTaskTimeout hidle (List.prefix_refl _) rfl (fun hnext => ?_) (fun hne => ?_) hearlier
    · rw [nextTaskTimeout, hnext]
    · rw [nextTaskTimeout_modify hne]
  | runTasks => exact absurd rfl hruns
  | destroy => exact absurd rfl hdestroy
  | tick time => exact absurd hearlier (not_earlier_of_eq rfl)
  | processed result => exact absurd hearlier (not_earlier_of_eq rfl)
  | advance => exact absurd hearlier (not_earlier_of_eq rfl)

/-! ### While the runner runs -/

theorem follows_apply (hop : (op ≠ .runTasks ∧ op ≠ .destroy) ∨ (r.phase ≠ .idle ∧ r.valid op = true)) :
    Follows r (r.apply op) := by
  cases op with
  | newTask parent =>
    rw [TaskRunner.apply, newTask]
    generalize hr₁ : ({ r.emit (.created parent r.nextId) with
      heap := Function.update r.heap r.nextId
        (some ⟨parent, [], .init, false, false, false, false, false, 0, 0, false⟩),
      nextId := r.nextId + 1 } : TaskRunner) = r₁
    have hmade : Follows r r₁ := by
      rw [← hr₁]
      exact ⟨rfl, List.prefix_append _ _⟩
    exact hmade.trans (steady_addChild _ _ _).toFollows
  | start id =>
    rw [TaskRunner.apply, start]
    split
    · exact .refl r
    split
    · exact .refl r
    rw [startTask]
    generalize hr₁ : ({ r.emit (.started id) with tasks := r.tasks ++ [id] } : TaskRunner) = r₁
    have hlisted : Follows r r₁ := by
      rw [← hr₁]
      exact ⟨rfl, List.prefix_append _ _⟩
    exact hlisted.trans (quiet_updateTaskTimeout id 0 r₁).follows
  | wake id => exact (steady_wake id r).toFollows
  | error id => exact (steady_error id r).toFollows
  | abort id => exact (steady_abort id r).toFollows
  | setTimeoutSeconds seconds id => exact (quiet_setTimeoutSeconds seconds id r).follows
  | suspendTimeout suspend id => exact (quiet_suspendTimeout suspend id r).follows
  | resetTimeout id => exact (quiet_resetTimeout id r).follows
  | clearTimeout id => exact (quiet_clearTimeout id r).follows
  | runTasks =>
    have hphase : r.phase ≠ .idle := hop.elim (fun hnot => absurd rfl hnot.1) And.left
    rw [TaskRunner.apply, beginRun, if_pos (by simpa [running] using hphase)]
    exact .refl r
  | destroy =>
    obtain ⟨hphase, hvalid⟩ := hop.resolve_left fun hnot => hnot.2 rfl
    exact absurd (by simpa [valid] using hvalid) hphase
  | tick time => exact .refl r
  | processed result => exact .refl r
  | advance => exact .refl r

theorem follows_modify (id : TaskId) (f : Task → Task) (r : TaskRunner) : Follows r (r.modify id f) :=
  ⟨rfl, List.prefix_refl _⟩

theorem follows_processed {pass : Pass} {result : Option TaskState} (hpass : r.phase = .processing pass id) :
    Follows r (r.processed pass id result) := by
  have hran : Follows r { r with phase := .looping { pass with didRun := true } } :=
    ⟨by rw [hpass]; rfl, List.prefix_refl _⟩
  have hleft := hran.trans (follows_modify id (fun t => { t with busy := false }) _)
  unfold TaskRunner.processed
  dsimp only
  split
  · exact hleft
  split
  · exact hleft.trans (steady_abort id _).toFollows
  split
  · exact hleft.trans (follows_modify id _ _)
  next state =>
    have hreset := hleft.trans ((follows_modify id (fun t => { t with state, blocked := false }) _).trans
      (quiet_resetTimeout id _).follows)
    split
    · exact hreset.trans ((follows_modify id _ _).trans ((steady_stop id _).toFollows.trans
          (follows_modify id _ _)))
    · exact hreset

theorem prefix_foldl_deleteRound (l : List TaskId) (r : TaskRunner) (recalc : Bool) :
    r.trace <+: (l.foldl deleteRound (r, recalc)).1.trace := by
  refine List.foldlRecOn l _ (motive := fun state : TaskRunner × Bool => r.trace <+: state.1.trace)
    (List.prefix_refl _) ?_
  intro state h x _
  refine h.trans ?_
  simp only [deleteRound]
  split
  · exact List.prefix_refl _
  · split
    · exact List.prefix_append _ _
    · exact List.prefix_refl _

/-- The end of `InternalRunTasks` tells the application, if the next timeout is earlier than in the
beginning. -/
theorem announced_finish {r₀ : TaskRunner} {pass : Pass} (hdestructor : pass.inDestructor = false)
    (hprevious : pass.previous = r₀.nextTaskTimeout) (htrace : r₀.trace <+: r.trace)
    (hearlier : Earlier r₀ (r.finish pass)) : Announced r₀ (r.finish pass) := by
  have hdeleted := htrace.trans (prefix_foldl_deleteRound r.tasks r false)
  rw [finish] at hearlier ⊢
  generalize r.tasks.foldl deleteRound (r, false) = state at hdeleted hearlier
  obtain ⟨r₁, recalc⟩ := state
  dsimp only at hdeleted hearlier ⊢
  rw [if_neg (by rw [hdestructor]; exact (by rintro ⟨⟩))] at hearlier ⊢
  generalize hr₃ : (if recalc then
    recalcNextTimeout none { r₁ with tasks := r₁.tasks.filter fun id => (r₁.heap id).isSome }
    else { r₁ with tasks := r₁.tasks.filter fun id => (r₁.heap id).isSome } : TaskRunner) = r₃ at hearlier
  have htrace₃ : r₀.trace <+: r₃.trace := by
    rw [← hr₃]
    split
    · exact hdeleted
    · exact hdeleted
  obtain ⟨hne, hlt⟩ := hearlier
  rw [← hprevious] at hlt
  exact announced_checkForTimeoutChange (r := r₀) htrace₃ hne hlt

theorem follows_or_finish (hphase : r.phase ≠ .idle) (hstep : r.step op = some r') :
    Follows r r' ∨ ∃ pass, r.phase = .looping pass ∧ r' = r.finish pass := by
  rw [TaskRunner.step.eq_def] at hstep
  split at hstep
  next time =>
    cases hstep
    exact .inl ⟨rfl, List.prefix_refl _⟩
  next pass hpass =>
    cases hstep
    by_cases hend : r.tasks[pass.index]? = none ∧ pass.didRun = false
    · exact .inr ⟨pass, hpass, advance_end hend.1 hend.2⟩
    · refine .inl (steady_advance hpass fun hnone => ?_).toFollows
      rw [← Bool.not_eq_false]
      exact fun hrun => hend ⟨hnone, hrun⟩
  next => cases hstep
  next result pass id hpass =>
    cases hstep
    exact .inl (follows_processed hpass)
  next => cases hstep
  next => cases hstep
  next =>
    split at hstep
    next hvalid =>
      cases hstep
      exact .inl (follows_apply (.inr ⟨hphase, hvalid⟩))
    next => cases hstep

variable {ops : List TaskOp}

theorem announced_of_running {r₀ : TaskRunner} (hphase : r.phase ≠ .idle)
    (hbegan : began r.phase = some (r₀.nextTaskTimeout, false)) (htrace : r₀.trace <+: r.trace)
    (hrun : Runs.run TaskRunner.step r ops = some r') (hidle : r'.phase = .idle)
    (hbusy : ∀ pre suf q, ops = pre ++ suf → suf ≠ [] → Runs.run TaskRunner.step r pre = some q → q.phase ≠ .idle)
    (hearlier : Earlier r₀ r') : Announced r₀ r' := by
  induction ops generalizing r with
  | nil =>
    cases hrun
    exact absurd hidle hphase
  | cons op ops ih =>
    obtain ⟨r₁, hstep, hrest⟩ := Runs.run_cons hrun
    rcases follows_or_finish hphase hstep with hfollows | ⟨pass, hpass, rfl⟩
    · refine ih (mt hfollows.idle.mp hphase) (hfollows.began.trans hbegan) (htrace.trans hfollows.trace) hrest ?_
      intro pre suf q hsplit hsuf hq
      refine hbusy (op :: pre) suf q (by rw [hsplit, List.cons_append]) hsuf ?_
      rw [Runs.run, hstep]
      exact hq
    have hnil : ops = [] := by
      by_contra hne
      refine hbusy [op] ops (r.finish pass) rfl hne ?_ rfl
      rw [Runs.run, hstep]
      rfl
    subst hnil
    cases hrest
    rw [hpass] at hbegan
    have hpair : (pass.previous, pass.inDestructor) = (r₀.nextTaskTimeout, false) := Option.some.inj hbegan
    rw [Prod.mk.injEq] at hpair
    exact announced_finish hpair.2 hpair.1 htrace hearlier

theorem step_of_idle (hidle : r.phase = .idle) (hstep : r.step op = some r') :
    (∃ time : Nat, op = .tick time ∧ r' = { r with now := r.now + time }) ∨ r' = r.apply op := by
  rw [TaskRunner.step.eq_def] at hstep
  split at hstep
  next time =>
    cases hstep
    exact .inl ⟨time, rfl, rfl⟩
  next pass hpass =>
    rw [hidle] at hpass
    cases hpass
  next => cases hstep
  next result pass id hpass =>
    rw [hidle] at hpass
    cases hpass
  next => cases hstep
  next => cases hstep
  next =>
    split at hstep
    next hvalid =>
      cases hstep
      exact .inr rfl
    next => cases hstep

/-- From one time at which the runner is idle to the next, `OnTimeoutChange` is called if the next timeout is
earlier than it was. -/
theorem announced_of_run (h : r.Timely) (hsane : r.Sane lost)
    (hok : Runs.Admissible TaskRunner.step Punctual r ops) (hrun : Runs.run TaskRunner.step r ops = some r')
    (hidle : r.phase = .idle) (hidle' : r'.phase = .idle)
    (hbusy : ∀ pre suf q, ops = pre ++ suf → pre ≠ [] → suf ≠ [] →
      Runs.run TaskRunner.step r pre = some q → q.phase ≠ .idle)
    (hdestroy : .destroy ∉ ops) (hearlier : Earlier r r') : Announced r r' := by
  cases ops with
  | nil =>
    cases hrun
    exact absurd hearlier (not_earlier_of_eq rfl)
  | cons op ops =>
    obtain ⟨r₁, hstep, hrest⟩ := Runs.run_cons hrun
    by_cases hone : r₁.phase = .idle
    · have hnil : ops = [] := by
        by_contra hne
        refine hbusy [op] ops r₁ rfl (List.cons_ne_nil _ _) hne ?_ hone
        rw [Runs.run, hstep]
        rfl
      subst hnil
      cases hrest
      rcases step_of_idle hidle hstep with ⟨time, rfl, rfl⟩ | rfl
      · exact absurd hearlier (not_earlier_of_eq rfl)
      · refine announced_apply h hsane hidle hok.1.1 ?_ (fun heq => hdestroy (heq ▸ List.mem_cons_self)) hearlier
        rintro rfl
        rw [TaskRunner.apply, beginRun, if_neg (by simp [running, hidle])] at hone
        cases hone
    · have hbegan : began r₁.phase = some (r.nextTaskTimeout, false) ∧ r₁.trace = r.trace := by
        rcases step_of_idle hidle hstep with ⟨time, rfl, rfl⟩ | rfl
        · exact absurd hidle hone
        by_cases hruns : op = .runTasks
        · subst hruns
          rw [TaskRunner.apply, beginRun, if_neg (by simp [running, hidle])]
          exact ⟨rfl, rfl⟩
        · have hfollows : Follows r (r.apply op) :=
            follows_apply (.inl ⟨hruns, fun heq => hdestroy (heq ▸ List.mem_cons_self)⟩)
          exact absurd (hfollows.idle.mpr hidle) hone
      refine announced_of_running hone hbegan.1 (hbegan.2 ▸ List.prefix_refl _) hrest hidle' ?_ hearlier
      intro pre suf q hsplit hsuf hq
      refine hbusy (op :: pre) suf q (by rw [hsplit, List.cons_append]) (List.cons_ne_nil _ _) hsuf ?_
      rw [Runs.run, hstep]
      exact hq

/-! ### `PollTasks` -/

/-- Whether the loop in `PollTasks` goes on, with `old_timeout_task`. -/
def pollsOn (r : TaskRunner) (old : Option TaskId) : Bool :=
  match r.nextTimeout with
  | none => false
  | some n => old ≠ some n && r.timedOut n

/-- A call of `PollTasks`: in every round the next task is woken, and `WakeTasks` does what it does. -/
inductive Polls : TaskRunner → Option TaskId → List TaskOp → TaskRunner → Prop
  | finish {r old} (hend : r.pollsOn old = false) : Polls r old [] r
  | round {r old n r₁ wakeTasks ops r'} (hnext : r.nextTimeout = some n) (hon : r.pollsOn old = true)
    (hwake : Runs.run step r (.wake n :: wakeTasks) = some r₁) (hrest : Polls r₁ (some n) ops r') :
    Polls r old (.wake n :: wakeTasks ++ ops) r'

theorem Polls.run {old : Option TaskId} (h : Polls r old ops r') : Runs.run step r ops = some r' := by
  induction h with
  | finish => rfl
  | round _ _ hwake _ ih =>
    rw [Runs.run_append, hwake]
    exact ih

theorem Polls.ends {old : Option TaskId} (h : Polls r old ops r') :
    r'.pollsOn none = false ∨ ∃ n, r'.nextTimeout = some n ∧ (old = some n ∨ .wake n ∈ ops) := by
  induction h with
  | @finish r old hend =>
    cases hnext : r.nextTimeout with
    | none =>
      rw [pollsOn, hnext]
      exact .inl rfl
    | some n =>
      by_cases hold : old = some n
      · exact .inr ⟨n, rfl, .inl hold⟩
      · refine .inl ?_
        rw [pollsOn, hnext] at hend ⊢
        simpa [hold] using hend
  | @round r old n r₁ wakeTasks ops r' hnext hon hwake hrest ih =>
    refine ih.imp_right ?_
    rintro ⟨m, hm, hor⟩
    refine ⟨m, hm, .inr ?_⟩
    rcases hor with heq | hmem
    · cases heq
      exact List.mem_cons_self
    · exact List.mem_append_right _ hmem

theorem Timely.not_passed (h : r.Timely) (hends : r.pollsOn none = false) {x : TaskId} {u : Task}
    (hu : r.Waiting x u) : r.now < u.timeoutTime := by
  cases hnext : r.nextTimeout with
  | none => exact absurd hu (h.earliest.none hnext)
  | some n =>
    obtain ⟨t, ht, htime, hbest⟩ := h.earliest.next hnext
    rw [pollsOn, hnext] at hends
    simp only [timedOut, ht] at hends
    have hseconds : t.timeoutSeconds ≠ 0 := h.timed.seconds ht htime
    have hlater : ¬t.timeoutTime ≤ r.now := by simpa [htime, hseconds] using hends
    exact Int.lt_of_lt_of_le (Int.not_le.mp hlater) (hbest hu)

theorem Polls.wakes (hpolls : Polls r none ops r') (h : r.Timely) {x : TaskId} {u : Task}
    (hu : r.Waiting x u) (hpassed : u.timeoutTime ≤ r.now) :
    ∃ n t rest, ops = .wake n :: rest ∧ r.nextTimeout = some n ∧ r.heap n = some t ∧
        t.timeoutTime ≤ u.timeoutTime := by
  cases hpolls with
  | finish hend => exact absurd (h.not_passed hend hu) (Int.not_lt.mpr hpassed)
  | @round _ _ n r₁ wakeTasks ops _ hnext hon hwake hrest =>
    obtain ⟨t, ht, -, hbest⟩ := h.earliest.next hnext
    exact ⟨n, t, wakeTasks ++ ops, rfl, hnext, ht, hbest hu⟩

/-! ### Over a whole run -/

/-- What `next_timeout_task_` is while the runner is idle. It may be a task that was aborted since the last
run. -/
structure NextTask (r : TaskRunner) : Prop where
  none : r.nextTimeout = none → ∀ id t, ¬r.Waiting id t
  next : ∀ n, r.nextTimeout = some n → n ∈ r.tasks ∧ ∃ t, r.heap n = some t ∧ t.timeoutTime ≠ 0 ∧
    (t.done = true → t.aborted = true) ∧ ∀ id u, r.Waiting id u → t.timeoutTime ≤ u.timeoutTime

theorem Timely.nextTask (h : r.Timely) (hidle : r.phase = .idle) : r.NextTask where
  none hnone _ _ := h.earliest.none hnone
  next n hnext := by
    obtain ⟨t, ht, htime, hbest⟩ := h.earliest.next hnext
    refine ⟨h.timed.begun ht (.inr (.inl htime)), t, ht, htime, fun hdone => ?_, fun _ _ hu => hbest hu⟩
    exact (h.timed.cause ht hdone).resolve_right fun hlisted => hlisted.2 hidle

/-- In every punctual run: the next task, what `PollTasks` wakes and leaves, and that `OnTimeoutChange` is
called. -/
theorem timeouts_of_run {now : Int} {ops : List TaskOp} {r : TaskRunner} (hnow : 0 ≤ now)
    (hok : Runs.Admissible TaskRunner.step Punctual (TaskRunner.create now) ops)
    (hrun : Runs.run TaskRunner.step (TaskRunner.create now) ops = some r) :
    (r.phase = .idle → r.NextTask) ∧
      (∀ r', r.step .advance = some r' → r'.phase = .idle → ∀ n, r'.nextTimeout = some n →
        ∃ t, r'.heap n = some t ∧ t.done = false) ∧
      (∀ polled r', Polls r none polled r' → Runs.Admissible TaskRunner.step Punctual r polled →
        (∀ id u, r.Waiting id u → u.timeoutTime ≤ r.now → ∃ n t rest, polled = .wake n :: rest ∧
          r.nextTimeout = some n ∧ r.heap n = some t ∧ t.timeoutTime ≤ u.timeoutTime) ∧
        ((∀ id u, r'.Waiting id u → r'.now < u.timeoutTime) ∨
          ∃ n, r'.nextTimeout = some n ∧ .wake n ∈ polled)) ∧
      ∀ rest r', r.phase = .idle → Runs.Admissible TaskRunner.step Punctual r rest →
        Runs.run TaskRunner.step r rest = some r' → r'.phase = .idle →
        (∀ pre suf q, rest = pre ++ suf → pre ≠ [] → suf ≠ [] →
          Runs.run TaskRunner.step r pre = some q → q.phase ≠ .idle) →
        .destroy ∉ rest → Earlier r r' → Announced r r' := by
  obtain ⟨hsane, htimely⟩ := timely_of_run hnow hok hrun
  refine ⟨htimely.nextTask, ?_, ?_, ?_⟩
  · intro r' hstep hidle n hnext
    have htimely' : r'.Timely := htimely.step hsane ⟨rfl, by cases r.phase <;> rfl⟩ hstep
    cases hphase : r.phase with
    | idle => simp [TaskRunner.step, hphase] at hstep
    | processing pass id => simp [TaskRunner.step, hphase] at hstep
    | looping pass =>
      simp only [TaskRunner.step, hphase, Option.some.injEq] at hstep
      subst hstep
      obtain ⟨hmem, t, ht, -⟩ := (htimely'.nextTask hidle).next n hnext
      exact ⟨t, ht, ((hsane.advance hphase).2 hidle n hmem t ht).1⟩
  · intro polled r' hpolls hadmissible
    refine ⟨fun id u hu hpassed => hpolls.wakes htimely hu hpassed, ?_⟩
    have hkeeps : ∀ s op s', s.Sane True ∧ s.Timely → s.Punctual op → TaskRunner.step s op = some s' →
        s'.Sane True ∧ s'.Timely :=
      fun s op s' h hpunctual hstep => ⟨h.1.step hpunctual.1 (.inl trivial) hstep, h.2.step h.1 hpunctual hstep⟩
    obtain ⟨-, htimely'⟩ := Runs.invariant hkeeps ⟨hsane, htimely⟩ hadmissible hpolls.run
    rcases hpolls.ends with hends | ⟨n, hnext, hold | hmem⟩
    · exact .inl fun id u hu => htimely'.not_passed hends hu
    · cases hold
    · exact .inr ⟨n, hnext, hmem⟩
  · intro rest r' hidle hadmissible hrest hidle' hbusy hdestroy hearlier
    exact announced_of_run htimely hsane hadmissible hrest hidle hidle' hbusy hdestroy hearlier

/-- Two tasks are started, and their `Process` blocks. -/
def begun : List TaskOp :=
  [.newTask none, .newTask none, .start 0, .start 1, .runTasks, .advance, .processed (some .start), .advance,
    .processed none, .advance, .advance, .processed (some .start), .advance, .processed none, .advance, .advance,
    .advance, .advance, .advance]

/-- Both get a limit, and both limits pass. -/
def bothPassed : List TaskOp :=
  begun ++ [.setTimeoutSeconds 1 0, .setTimeoutSeconds 2 1, .tick 30000000]

theorem timeouts_of_run_bothPassed : ∃ r, Runs.run TaskRunner.step (TaskRunner.create 0) bothPassed = some r ∧
    (r.phase = .idle → r.NextTask) ∧
      (∀ r', r.step .advance = some r' → r'.phase = .idle → ∀ n, r'.nextTimeout = some n →
        ∃ t, r'.heap n = some t ∧ t.done = false) ∧
      (∀ polled r', Polls r none polled r' → Runs.Admissible TaskRunner.step Punctual r polled →
        (∀ id u, r.Waiting id u → u.timeoutTime ≤ r.now → ∃ n t rest, polled = .wake n :: rest ∧
          r.nextTimeout = some n ∧ r.heap n = some t ∧ t.timeoutTime ≤ u.timeoutTime) ∧
        ((∀ id u, r'.Waiting id u → r'.now < u.timeoutTime) ∨
          ∃ n, r'.nextTimeout = some n ∧ .wake n ∈ polled)) ∧
      ∀ rest r', r.phase = .idle → Runs.Admissible TaskRunner.step Punctual r rest →
        Runs.run TaskRunner.step r rest = some r' → r'.phase = .idle →
        (∀ pre suf q, rest = pre ++ suf → pre ≠ [] → suf ≠ [] →
          Runs.run TaskRunner.step r pre = some q → q.phase ≠ .idle) →
        .destroy ∉ rest → Earlier r r' → Announced r r' := by
  obtain ⟨r, hr⟩ : ∃ r, Runs.run TaskRunner.step (TaskRunner.create 0) bothPassed = some r :=
    Option.isSome_iff_exists.mp (by decide +kernel)
  exact ⟨r, hr, timeouts_of_run (Int.le_refl 0) (by decide +kernel) hr⟩

/-- The minimal timeout of the tasks in `tasks_` that are not finished. -/
def minimum (r : TaskRunner) : Option Int :=
  (r.tasks.filterMap fun id => (r.heap id).bind fun t =>
    if t.done ∨ t.timeoutTime = 0 then none else some t.timeoutTime).min?

/-- The next task gets a timeout that is later than that of the other task. -/
def movedLater : List TaskOp :=
  begun ++ [.setTimeoutSeconds 1 0, .setTimeoutSeconds 2 1, .setTimeoutSeconds 3 0]

/-- The next task is aborted. -/
def nextAborted : List TaskOp := begun ++ [.setTimeoutSeconds 1 0, .setTimeoutSeconds 3 1, .abort 0]

/-- In the run after that, the other task gets a timeout that is earlier than its own was. -/
def shortened : List TaskOp :=
  [.wake 1, .runTasks, .advance, .advance, .setTimeoutSeconds 2 1, .processed none, .advance, .advance, .advance,
    .advance, .advance]

/-- Limits that passed long ago, before the origin of the clock. -/
def negativeLimits : List TaskOp :=
  begun ++ [.setTimeoutSeconds (-1) 0, .setTimeoutSeconds (-2) 1, .clearTimeout 1]

/-- A timeout is missed; an aborted task is the next one; a negative timeout is missed; the minimum becomes
earlier without `OnTimeoutChange`; and `PollTasks` wakes one of two tasks. -/
theorem not_earliest : (Runs.run TaskRunner.step (TaskRunner.create 0) movedLater).map (fun r =>
        (r.phase, r.nextTimeout, r.nextTaskTimeout, r.minimum)) =
      some (.idle, some 0, 30000000, some 20000000) ∧
    (Runs.run TaskRunner.step (TaskRunner.create 0) nextAborted).map (fun r =>
        (r.phase, r.nextTimeout, (r.heap 0).map Task.done, r.minimum)) =
      some (.idle, some 0, some true, some 30000000) ∧
    (Runs.run TaskRunner.step (TaskRunner.create 0) negativeLimits).map (fun r =>
        (r.phase, r.nextTimeout, r.minimum)) = some (.idle, none, some (-10000000)) ∧
    (Runs.run TaskRunner.step (TaskRunner.create 0) nextAborted).map (fun r =>
        (r.phase, r.minimum, r.trace.count .timeoutChange)) = some (.idle, some 30000000, 1) ∧
    (Runs.run TaskRunner.step (TaskRunner.create 0) (nextAborted ++ shortened)).map (fun r =>
        (r.phase, r.minimum, r.trace.count .timeoutChange)) = some (.idle, some 20000000, 1) ∧
    ∃ r r' u, Runs.run TaskRunner.step (TaskRunner.create 0) bothPassed = some r ∧ Polls r none [.wake 0] r' ∧
      r'.Waiting 1 u ∧ u.timeoutTime ≤ r'.now := by
  refine ⟨by decide +kernel, by decide +kernel, by decide +kernel, by decide +kernel, by decide +kernel, ?_⟩
  have hrun : ((Runs.run TaskRunner.step (TaskRunner.create 0) bothPassed).bind fun r =>
      (r.step (.wake 0)).map fun r' => decide (r.nextTimeout = some 0) && r.pollsOn none && !r'.pollsOn (some 0) &&
        (r'.heap 1).any fun u => !u.done && decide (u.timeoutTime ≠ 0) && decide (u.timeoutTime ≤ r'.now)) =
      some true := by
    decide +kernel
  obtain ⟨r, hr, hwake⟩ := Option.bind_eq_some_iff.mp hrun
  obtain ⟨r', hr', hstate⟩ := Option.map_eq_some_iff.mp hwake
  simp only [Bool.and_eq_true, decide_eq_true_eq, Bool.not_eq_true', Option.any_eq_true] at hstate
  obtain ⟨⟨⟨hnext, hon⟩, hend⟩, u, hu, ⟨hlive, htime⟩, hpassed⟩ := hstate
  have hround : Runs.run TaskRunner.step r [.wake 0] = some r' := by
    rw [Runs.run, hr']
    rfl
  exact ⟨r, r', u, hr, .round hnext hon hround (.finish hend), ⟨hu, hlive, htime⟩, hpassed⟩

end Synciga.TaskRunner
