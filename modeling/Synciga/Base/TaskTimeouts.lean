import Synciga.Base.TaskLifeCycle

/-!
# The next timeout

The runner keeps the task whose timeout comes first in `next_timeout_task_`, and compares a change with it; only
when that task has no timeout any more, or is deleted, it searches the list. A later timeout of the task itself
is compared with itself, and stays; such steps, in which an earlier one is missed, are left out.

## Main definitions

* `Timely` — no timeout comes before the next one
* `Timed` — the steps that are not left out

## Main results

* `timely_of_run` — in every run of them
-/

namespace Synciga.TaskRunner

variable {lost : Prop} {r r' : TaskRunner} {id : TaskId} {t : Task}

/-! ### The invariant -/

/-- The task is not finished and has a timeout. -/
def Waiting (r : TaskRunner) (id : TaskId) (t : Task) : Prop :=
  r.heap id = some t ∧ t.done = false ∧ t.timeoutTime ≠ 0

/-- No task that waits has an earlier timeout than `next_timeout_task_`. -/
structure Earliest (r : TaskRunner) : Prop where
  next : ∀ {n}, r.nextTimeout = some n → ∃ t, r.heap n = some t ∧ t.timeoutTime ≠ 0 ∧
    ∀ {id u}, r.Waiting id u → t.timeoutTime ≤ u.timeoutTime
  none : r.nextTimeout = none → ∀ {id u}, ¬r.Waiting id u

/-- What is known of single tasks. -/
structure Timed (r : TaskRunner) : Prop where
  clock : 0 ≤ r.now
  ahead : ∀ {id t}, r.heap id = some t → 0 ≤ r.now + t.timeoutSeconds * 1000 * 10000
  sign : ∀ {id t}, r.heap id = some t → 0 ≤ t.timeoutTime
  seconds : ∀ {id t}, r.heap id = some t → t.timeoutTime ≠ 0 → t.timeoutSeconds ≠ 0
  begun : ∀ {id t}, r.heap id = some t → t.state ≠ .init ∨ t.timeoutTime ≠ 0 ∨ t.busy = true → id ∈ r.tasks
  cause : ∀ {id t}, r.heap id = some t → t.done = true → t.aborted = true ∨ (id ∈ r.tasks ∧ r.phase ≠ .idle)

/-- Both of them. -/
structure Timely (r : TaskRunner) : Prop where
  timed : r.Timed
  earliest : r.Earliest

/-! ### The search -/

/-- What `RecalcNextTimeout` looks for. -/
def Candidate (r : TaskRunner) (exclude : Option TaskId) (id : TaskId) (t : Task) : Prop :=
  r.heap id = some t ∧ t.done = false ∧ t.timeoutTime > 0 ∧ exclude ≠ some id

/-- The best candidate so far. -/
theorem foldl_recalcRound (r : TaskRunner) (exclude : Option TaskId) (l : List TaskId) :
    (l.foldl (r.recalcRound exclude) (0, none) = (0, none) ∧ ∀ x ∈ l, ∀ u, ¬r.Candidate exclude x u) ∨
      ∃ n t, l.foldl (r.recalcRound exclude) (0, none) = (t.timeoutTime, some n) ∧ r.Candidate exclude n t ∧
        ∀ x ∈ l, ∀ u, r.Candidate exclude x u → t.timeoutTime ≤ u.timeoutTime := by
  induction l using List.reverseRecOn with
  | nil => exact .inl ⟨rfl, fun _ hmem => nomatch hmem⟩
  | append_singleton l x ih =>
    rw [List.foldl_append, List.foldl_cons, List.foldl_nil]
    generalize l.foldl (r.recalcRound exclude) (0, none) = best at ih
    -- the candidate is no better than what was found before
    have hkeep : (∀ u, ¬r.Candidate exclude x u) → r.recalcRound exclude best x = best := by
      intro hnot
      rw [recalcRound]
      split
      · rfl
      next u hu =>
        rw [if_neg]
        rintro ⟨hdone, htime, hexclude, -⟩
        exact hnot u ⟨hu, hdone, htime, hexclude⟩
    by_cases hx : ∃ u, r.Candidate exclude x u
    · obtain ⟨u, hu⟩ := hx
      have hround : r.recalcRound exclude best x =
          if best.1 = 0 ∨ u.timeoutTime ≤ best.1 then (u.timeoutTime, some x) else best := by
        rw [recalcRound, hu.1]
        simp only [hu.2.1, hu.2.2.1, hu.2.2.2, ne_eq, not_false_eq_true, true_and]
      have hself : ∀ v, r.Candidate exclude x v → v = u := fun v hv => Option.some.inj (hv.1.symm.trans hu.1)
      rw [hround]
      refine .inr ?_
      rcases ih with ⟨rfl, hnone⟩ | ⟨n, t, rfl, hcandidate, hbest⟩
      · rw [if_pos (.inl rfl)]
        refine ⟨x, u, rfl, hu, fun y hy v hv => ?_⟩
        rcases List.mem_append.mp hy with hy | hy
        · exact absurd hv (hnone y hy v)
        · rw [List.mem_singleton.mp hy] at hv
          exact Int.le_of_eq (congrArg Task.timeoutTime (hself v hv).symm)
      have htime : t.timeoutTime > 0 := hcandidate.2.2.1
      have hpos : t.timeoutTime ≠ 0 := by omega
      split
      next hle =>
        have hle : u.timeoutTime ≤ t.timeoutTime := hle.resolve_left hpos
        refine ⟨x, u, rfl, hu, fun y hy v hv => ?_⟩
        rcases List.mem_append.mp hy with hy | hy
        · exact Int.le_trans hle (hbest y hy v hv)
        · rw [List.mem_singleton.mp hy] at hv
          exact Int.le_of_eq (congrArg Task.timeoutTime (hself v hv).symm)
      next hle =>
        rw [not_or, Int.not_le] at hle
        refine ⟨n, t, rfl, hcandidate, fun y hy v hv => ?_⟩
        rcases List.mem_append.mp hy with hy | hy
        · exact hbest y hy v hv
        · rw [List.mem_singleton.mp hy] at hv
          rw [hself v hv]
          exact Int.le_of_lt hle.2
    · rw [hkeep fun u hu => hx ⟨u, hu⟩]
      have hnew : ∀ y ∈ l ++ [x], ∀ u, r.Candidate exclude y u → y ∈ l := by
        intro y hy u hu
        rcases List.mem_append.mp hy with hy | hy
        · exact hy
        · rw [List.mem_singleton.mp hy] at hu
          exact absurd ⟨u, hu⟩ hx
      rcases ih with ⟨heq, hnone⟩ | ⟨n, t, heq, hcandidate, hbest⟩
      · exact .inl ⟨heq, fun y hy u hu => hnone y (hnew y hy u hu) u hu⟩
      · exact .inr ⟨n, t, heq, hcandidate, fun y hy u hu => hbest y (hnew y hy u hu) u hu⟩

theorem earliest_recalcNextTimeout {exclude : Option TaskId}
    (hsign : ∀ {x u}, r.heap x = some u → 0 ≤ u.timeoutTime)
    (hlisted : ∀ {x u}, r.Waiting x u → x ∈ r.tasks)
    (hexclude : ∀ x u, exclude = some x → r.heap x = some u → u.timeoutTime = 0) :
    (r.recalcNextTimeout exclude).Earliest := by
  have hcandidate : ∀ x u, r.Waiting x u → r.Candidate exclude x u := by
    rintro x u ⟨hu, hdone, htime⟩
    have hpos : 0 ≤ u.timeoutTime := hsign hu
    exact ⟨hu, hdone, by omega, fun heq => htime (hexclude x u heq hu)⟩
  rcases foldl_recalcRound r exclude r.tasks with ⟨heq, hnone⟩ | ⟨n, t, heq, ht, hbest⟩
  · constructor
    · intro n hn
      rw [recalcNextTimeout, heq] at hn
      cases hn
    · intro _ x u hwaiting
      exact hnone x (hlisted hwaiting) u (hcandidate x u hwaiting)
  constructor
  · intro m hm
    rw [recalcNextTimeout, heq] at hm
    cases hm
    have hpos : t.timeoutTime > 0 := ht.2.2.1
    exact ⟨t, ht.1, by omega, fun {x u} hwaiting => hbest x (hlisted hwaiting) u (hcandidate x u hwaiting)⟩
  · intro hnone
    rw [recalcNextTimeout, heq] at hnone
    cases hnone

/-! ### Steps that are of no concern -/

/-- The timeout of a task stays. `listed` says that it is on the list while the runner runs. -/
structure Task.Steady (listed : Prop) (t t' : Task) : Prop where
  timeoutTime : t'.timeoutTime = t.timeoutTime
  timeoutSeconds : t'.timeoutSeconds = t.timeoutSeconds
  done : t.done = true → t'.done = true
  aborted : t.aborted = true → t'.aborted = true
  state : t'.state ≠ .init → t.state ≠ .init ∨ listed
  busy : t'.busy = true → t.busy = true ∨ listed
  cause : t'.done = true → t.done = true ∨ t'.aborted = true ∨ listed

theorem Task.Steady.refl (listed : Prop) (t : Task) : Task.Steady listed t t :=
  ⟨rfl, rfl, id, id, .inl, .inl, .inl⟩

theorem Task.Steady.trans {listed listed' : Prop} {t t' t'' : Task} (h : Task.Steady listed t t')
    (h' : Task.Steady listed' t' t'') (hlisted : listed → listed') : Task.Steady listed' t t'' where
  timeoutTime := h'.timeoutTime.trans h.timeoutTime
  timeoutSeconds := h'.timeoutSeconds.trans h.timeoutSeconds
  done hdone := h'.done (h.done hdone)
  aborted haborted := h'.aborted (h.aborted haborted)
  state hstate := (h'.state hstate).elim (fun hs => (h.state hs).imp_right hlisted) .inr
  busy hbusy := (h'.busy hbusy).elim (fun hb => (h.busy hb).imp_right hlisted) .inr
  cause hdone := by
    rcases h'.cause hdone with hdone' | hcause
    · exact (h.cause hdone').imp_right fun hor => hor.imp h'.aborted hlisted
    · exact .inr hcause

/-- What is known of the run that the runner is in: `previous_timeout_time` and `in_destructor`. -/
def began : Phase → Option (Int × Bool)
  | .idle => none
  | .looping pass => some (pass.previous, pass.inDestructor)
  | .processing pass _ => some (pass.previous, pass.inDestructor)

theorem began_eq_none {phase : Phase} : began phase = none ↔ phase = .idle := by
  cases phase with
  | idle => exact ⟨fun _ => rfl, fun _ => rfl⟩
  | looping pass => exact ⟨nofun, nofun⟩
  | processing pass id => exact ⟨nofun, nofun⟩

/-- The run goes on. -/
structure Follows (r r' : TaskRunner) : Prop where
  began : began r'.phase = began r.phase
  trace : r.trace <+: r'.trace

theorem Follows.refl (r : TaskRunner) : Follows r r := ⟨rfl, List.prefix_refl _⟩

theorem Follows.trans {r'' : TaskRunner} (h : Follows r r') (h' : Follows r' r'') : Follows r r'' :=
  ⟨h'.began.trans h.began, h.trace.trans h'.trace⟩

theorem Follows.idle (h : Follows r r') : r'.phase = .idle ↔ r.phase = .idle := by
  rw [← began_eq_none, h.began, began_eq_none]

/-- Nothing happens to timeouts. -/
structure Steady (r r' : TaskRunner) : Prop extends Follows r r' where
  now : r'.now = r.now
  nextTimeout : r'.nextTimeout = r.nextTimeout
  tasks : r'.tasks = r.tasks
  heap : ∀ {id t}, r.heap id = some t →
    ∃ t', r'.heap id = some t' ∧ Task.Steady (id ∈ r.tasks ∧ r'.phase ≠ .idle) t t'
  back : ∀ {id t'}, r'.heap id = some t' →
    ∃ t, r.heap id = some t ∧ Task.Steady (id ∈ r.tasks ∧ r'.phase ≠ .idle) t t'

theorem Steady.refl (r : TaskRunner) : Steady r r :=
  ⟨.refl r, rfl, rfl, rfl, fun h => ⟨_, h, .refl _ _⟩, fun h => ⟨_, h, .refl _ _⟩⟩

theorem Steady.trans {r'' : TaskRunner} (h : Steady r r') (h' : Steady r' r'') : Steady r r'' := by
  refine ⟨h.toFollows.trans h'.toFollows, h'.now.trans h.now, h'.nextTimeout.trans h.nextTimeout,
    h'.tasks.trans h.tasks, ?_, ?_⟩
  · intro x t ht
    obtain ⟨t', ht', hsteady⟩ := h.heap ht
    obtain ⟨t'', ht'', hsteady'⟩ := h'.heap ht'
    rw [h.tasks] at hsteady'
    exact ⟨t'', ht'', hsteady.trans hsteady' fun hlisted => ⟨hlisted.1, mt h'.idle.mp hlisted.2⟩⟩
  · intro x t'' ht''
    obtain ⟨t', ht', hsteady'⟩ := h'.back ht''
    obtain ⟨t, ht, hsteady⟩ := h.back ht'
    rw [h.tasks] at hsteady'
    exact ⟨t, ht, hsteady.trans hsteady' fun hlisted => ⟨hlisted.1, mt h'.idle.mp hlisted.2⟩⟩

theorem steady_of_eq (hnow : r'.now = r.now) (hnext : r'.nextTimeout = r.nextTimeout) (htasks : r'.tasks = r.tasks)
    (hheap : r'.heap = r.heap) (hfollows : Follows r r') : Steady r r' :=
  ⟨hfollows, hnow, hnext, htasks, fun {_ t} ht => ⟨t, hheap ▸ ht, .refl _ t⟩,
      fun {_ t} ht => ⟨t, hheap ▸ ht, .refl _ t⟩⟩

theorem steady_modify {f : Task → Task} (hf : ∀ t, Task.Steady (id ∈ r.tasks ∧ r.phase ≠ .idle) t (f t)) :
    Steady r (r.modify id f) := by
  obtain ⟨hheap, hback⟩ := modify_spec
    (fun x => Task.Steady.refl (x ∈ r.tasks ∧ r.phase ≠ .idle)) hf r
  exact ⟨⟨rfl, List.prefix_refl _⟩, rfl, rfl, rfl, hheap, hback⟩

theorem steady_emit (event : TaskEvent) (r : TaskRunner) : Steady r (r.emit event) :=
  steady_of_eq rfl rfl rfl rfl ⟨rfl, List.prefix_append _ _⟩

theorem steady_onChildStopped (parent : Option TaskId) (id : TaskId) (r : TaskRunner) :
    Steady r (r.onChildStopped parent id) := by
  cases parent with
  | none => exact steady_of_eq rfl rfl rfl rfl ⟨rfl, List.prefix_refl _⟩
  | some p =>
    have hsteady : ∀ t : Task, Task.Steady (p ∈ r.tasks ∧ r.phase ≠ .idle) t
        { t with children := t.children.filter (· ≠ id) } :=
      fun t => ⟨rfl, rfl, fun h => h, fun h => h, .inl, .inl, .inl⟩
    exact steady_modify hsteady

theorem steady_addChild (parent : Option TaskId) (id : TaskId) (r : TaskRunner) :
    Steady r (r.addChild parent id) := by
  cases parent with
  | none => exact steady_of_eq rfl rfl rfl rfl ⟨rfl, List.prefix_refl _⟩
  | some p =>
    have hsteady : ∀ t : Task, Task.Steady (p ∈ r.tasks ∧ r.phase ≠ .idle) t
        { t with children := t.children ++ [id] } :=
      fun t => ⟨rfl, rfl, fun h => h, fun h => h, .inl, .inl, .inl⟩
    exact steady_modify hsteady

theorem steady_foldl {f : TaskRunner → TaskId → TaskRunner} (hf : ∀ r x, Steady r (f r x)) (l : List TaskId)
    (r : TaskRunner) : Steady r (l.foldl f r) := by
  induction l generalizing r with
  | nil => exact .refl r
  | cons x l ih => exact (hf r x).trans (ih (f r x))

theorem steady_stopWith {abort : TaskId → TaskRunner → TaskRunner} (habort : ∀ x r, Steady r (abort x r))
    (parent : Option TaskId) (id : TaskId) (r : TaskRunner) : Steady r (r.stopWith abort parent id) :=
  (steady_emit _ r).trans ((steady_foldl (fun r x => habort x r) _ _).trans (steady_onChildStopped parent id _))

theorem steady_abortWithin (n : Nat) (id : TaskId) (r : TaskRunner) : Steady r (abortWithin n id r) := by
  induction n generalizing id r with
  | zero => exact .refl r
  | succ n ih =>
    rw [abortWithin]
    split
    · exact .refl r
    split
    · exact .refl r
    split
    · have hsteady : ∀ t : Task, Task.Steady (id ∈ r.tasks ∧ r.phase ≠ .idle) t { t with aborted := true } :=
        fun t => ⟨rfl, rfl, fun h => h, fun _ => rfl, .inl, .inl, .inl⟩
      exact (steady_modify hsteady).trans (steady_emit _ _)
    · have hsteady : ∀ t : Task, Task.Steady (id ∈ r.tasks ∧ r.phase ≠ .idle) t
          { t with aborted := true, done := true, blocked := true, error := true } :=
        fun t => ⟨rfl, rfl, fun _ => rfl, fun _ => rfl, .inl, .inl, fun _ => .inr (.inl rfl)⟩
      exact (steady_modify hsteady).trans ((steady_emit _ _).trans (steady_stopWith ih _ id _))

theorem steady_abort (id : TaskId) (r : TaskRunner) : Steady r (r.abort id) := steady_abortWithin _ id r

theorem steady_stop (id : TaskId) (r : TaskRunner) : Steady r (r.stop id) := by
  rw [TaskRunner.stop]
  split
  · exact .refl r
  · exact steady_stopWith steady_abort _ id r

theorem steady_wake (id : TaskId) (r : TaskRunner) : Steady r (r.wake id) := by
  have hsteady : ∀ t : Task, Task.Steady (id ∈ r.tasks ∧ r.phase ≠ .idle) t { t with blocked := false } :=
    fun t => ⟨rfl, rfl, fun h => h, fun h => h, .inl, .inl, .inl⟩
  rw [TaskRunner.wake]
  split
  · exact .refl r
  · split
    · exact .refl r
    · split
      · exact (steady_modify hsteady).trans (steady_emit _ _)
      · exact steady_emit _ r

theorem steady_error (id : TaskId) (r : TaskRunner) : Steady r (r.error id) := by
  have hsteady : ∀ t : Task, Task.Steady (id ∈ r.tasks ∧ r.phase ≠ .idle) t { t with error := true } :=
    fun t => ⟨rfl, rfl, fun h => h, fun h => h, .inl, .inl, .inl⟩
  rw [TaskRunner.error]
  split
  · exact .refl r
  · split
    · exact .refl r
    · exact (steady_modify hsteady).trans (steady_wake id _)

theorem steady_checkForTimeoutChange (previous : Int) (r : TaskRunner) :
    Steady r (r.checkForTimeoutChange previous) := by
  rw [checkForTimeoutChange]
  split
  · exact steady_emit _ r
  · exact .refl r

theorem Timed.steady (h : r.Timed) (hsteady : Steady r r') : r'.Timed where
  clock := hsteady.now ▸ h.clock
  ahead {id t'} ht' := by
    obtain ⟨t, ht, htask⟩ := hsteady.back ht'
    rw [hsteady.now, htask.timeoutSeconds]
    exact h.ahead ht
  sign {id t'} ht' := by
    obtain ⟨t, ht, htask⟩ := hsteady.back ht'
    rw [htask.timeoutTime]
    exact h.sign ht
  seconds {id t'} ht' htime := by
    obtain ⟨t, ht, htask⟩ := hsteady.back ht'
    rw [htask.timeoutSeconds]
    exact h.seconds ht (htask.timeoutTime ▸ htime)
  begun {id t'} ht' hor := by
    obtain ⟨t, ht, htask⟩ := hsteady.back ht'
    rw [hsteady.tasks]
    rcases hor with hstate | htime | hbusy
    · exact (htask.state hstate).elim (fun hs => h.begun ht (.inl hs)) And.left
    · exact h.begun ht (.inr (.inl (htask.timeoutTime ▸ htime)))
    · exact (htask.busy hbusy).elim (fun hb => h.begun ht (.inr (.inr hb))) And.left
  cause {id t'} ht' hdone := by
    obtain ⟨t, ht, htask⟩ := hsteady.back ht'
    rw [hsteady.tasks]
    rcases htask.cause hdone with hdone | hor
    · exact (h.cause ht hdone).imp htask.aborted fun hlisted => ⟨hlisted.1, mt hsteady.idle.mp hlisted.2⟩
    · exact hor

theorem Steady.waiting (hsteady : Steady r r') {x : TaskId} {u' : Task} (hu' : r'.Waiting x u') :
    ∃ u, r.Waiting x u ∧ u.timeoutTime = u'.timeoutTime := by
  obtain ⟨hu', hdone, htime⟩ := hu'
  obtain ⟨u, hu, htask⟩ := hsteady.back hu'
  refine ⟨u, ⟨hu, ?_, htask.timeoutTime ▸ htime⟩, htask.timeoutTime.symm⟩
  rw [← Bool.not_eq_true] at hdone ⊢
  exact fun hset => hdone (htask.done hset)

theorem Timely.steady (h : r.Timely) (hsteady : Steady r r') : r'.Timely := by
  refine ⟨h.timed.steady hsteady, ?_, ?_⟩
  · intro n hn
    rw [hsteady.nextTimeout] at hn
    obtain ⟨t, ht, htime, hbest⟩ := h.earliest.next hn
    obtain ⟨t', ht', htask⟩ := hsteady.heap ht
    refine ⟨t', ht', htask.timeoutTime ▸ htime, fun {x u'} hu' => ?_⟩
    obtain ⟨u, hu, heq⟩ := hsteady.waiting hu'
    rw [htask.timeoutTime, ← heq]
    exact hbest hu
  · intro hnone x u' hu'
    rw [hsteady.nextTimeout] at hnone
    obtain ⟨u, hu, -⟩ := hsteady.waiting hu'
    exact h.earliest.none hnone hu

/-! ### A timeout changes -/

theorem Timed.of_eq (h : r.Timed) (hnow : r'.now = r.now) (htasks : r'.tasks = r.tasks) (hheap : r'.heap = r.heap)
    (hphase : r'.phase = r.phase) : r'.Timed := by
  refine ⟨hnow ▸ h.clock, ?_, ?_, ?_, ?_, ?_⟩
  · rw [hheap, hnow]
    exact h.ahead
  · rw [hheap]
    exact h.sign
  · rw [hheap]
    exact h.seconds
  · rw [hheap, htasks]
    exact h.begun
  · rw [hheap, htasks, hphase]
    exact h.cause

/-- If the task is `next_timeout_task_`, no other task that waits has an earlier timeout than `time`. -/
def noLater (r : TaskRunner) (id : TaskId) (time : Int) : Bool :=
  r.nextTimeout ≠ some id || time = 0 ||
    r.tasks.all fun x => x = id || (r.heap x).all fun u => u.done || u.timeoutTime = 0 || time ≤ u.timeoutTime

theorem noLater_congr (hnext : r'.nextTimeout = r.nextTimeout) (htasks : r'.tasks = r.tasks)
    (hheap : ∀ x, x ≠ id → r'.heap x = r.heap x) (time : Int) : r'.noLater id time = r.noLater id time := by
  have hall : ∀ x, (decide (x = id) || (r'.heap x).all fun u => u.done || u.timeoutTime = 0 ||
      time ≤ u.timeoutTime) =
      (decide (x = id) || (r.heap x).all fun u => u.done || u.timeoutTime = 0 || time ≤ u.timeoutTime) := by
    intro x
    by_cases hx : x = id
    · simp [hx]
    · rw [hheap x hx]
  rw [noLater, noLater, hnext, htasks]
  congr 2
  funext x
  exact hall x

theorem Timed.le_of_noLater {time : Int} (h : r.Timed) (hlater : r.noLater id time = true)
    (hnext : r.nextTimeout = some id) (htime : time ≠ 0) {x : TaskId} {u : Task} (hx : x ≠ id)
    (hu : r.Waiting x u) : time ≤ u.timeoutTime := by
  obtain ⟨hu, hdone, hut⟩ := hu
  have hmem : x ∈ r.tasks := h.begun hu (.inr (.inl hut))
  simp only [noLater, hnext, ne_eq, not_true_eq_false, decide_false, htime, Bool.or_self, Bool.false_or,
    List.all_eq_true, Bool.or_eq_true, decide_eq_true_eq] at hlater
  have hthis := (hlater x hmem).resolve_left hx
  simpa [hu, hdone, hut] using hthis

/-- The repair of `next_timeout_task_` after the timeout of a task was changed. -/
theorem Timely.update {t' : Task} {r₁ : TaskRunner} (h : r.Timely) (ht : r.heap id = some t)
    (hheap : r₁.heap = Function.update r.heap id (some t')) (hnow : r₁.now = r.now)
    (hnext : r₁.nextTimeout = r.nextTimeout) (htasks : r₁.tasks = r.tasks) (hphase : r₁.phase = r.phase)
    (hdone : t'.done = t.done) (haborted : t'.aborted = t.aborted) (hsign : 0 ≤ t'.timeoutTime)
    (hseconds : t'.timeoutTime ≠ 0 → t'.timeoutSeconds ≠ 0)
    (hahead : 0 ≤ r.now + t'.timeoutSeconds * 1000 * 10000)
    (hbegun : t'.state ≠ .init ∨ t'.timeoutTime ≠ 0 ∨ t'.busy = true → id ∈ r.tasks)
    (hlater : r.noLater id t'.timeoutTime = true) (previous : Int) :
    (r₁.updateTaskTimeout id previous).Timely := by
  have hself : r₁.heap id = some t' := by rw [hheap, Function.update_self]
  have hother : ∀ {x}, x ≠ id → r₁.heap x = r.heap x := fun hx => by rw [hheap, Function.update_of_ne hx]
  have hcases : ∀ {x u}, r₁.heap x = some u → (x = id ∧ u = t') ∨ (x ≠ id ∧ r.heap x = some u) := by
    intro x u hu
    by_cases hx : x = id
    · rw [hx, hself] at hu
      exact .inl ⟨hx, (Option.some.inj hu).symm⟩
    · exact .inr ⟨hx, hother hx ▸ hu⟩
  have htimed : r₁.Timed := by
    refine ⟨hnow ▸ h.timed.clock, ?_, ?_, ?_, ?_, ?_⟩
    · intro x u hu
      rw [hnow]
      rcases hcases hu with ⟨-, rfl⟩ | ⟨-, hu⟩
      · exact hahead
      · exact h.timed.ahead hu
    · intro x u hu
      rcases hcases hu with ⟨-, rfl⟩ | ⟨-, hu⟩
      · exact hsign
      · exact h.timed.sign hu
    · intro x u hu
      rcases hcases hu with ⟨-, rfl⟩ | ⟨-, hu⟩
      · exact hseconds
      · exact h.timed.seconds hu
    · intro x u hu
      rw [htasks]
      rcases hcases hu with ⟨rfl, rfl⟩ | ⟨-, hu⟩
      · exact hbegun
      · exact h.timed.begun hu
    intro x u hu
    rw [htasks, hphase]
    rcases hcases hu with ⟨rfl, rfl⟩ | ⟨-, hu⟩
    · rw [hdone, haborted]
      exact h.timed.cause ht
    · exact h.timed.cause hu
  -- the other tasks that wait did so before
  have hwaiting : ∀ {x u}, x ≠ id → r₁.Waiting x u → r.Waiting x u :=
    fun hx hu => ⟨hother hx ▸ hu.1, hu.2⟩
  have htime : r₁.timeoutTime id = t'.timeoutTime := by rw [timeoutTime, hself]
  have hnextTime : ∀ {n u}, r₁.nextTimeout = some n → r₁.heap n = some u → r₁.nextTaskTimeout = u.timeoutTime := by
    intro n u hn hu
    rw [nextTaskTimeout, hn]
    dsimp only
    rw [timeoutTime, hu]
  have hmiddle : (if r₁.timeoutTime id ≠ 0 then
      if r₁.nextTimeout = none ∨ r₁.timeoutTime id ≤ r₁.nextTaskTimeout then { r₁ with nextTimeout := some id }
      else r₁
      else if r₁.nextTimeout = some id then r₁.recalcNextTimeout (some id) else r₁ : TaskRunner).Timely := by
    rw [htime]
    split
    next hset =>
      split
      next hle =>
        refine ⟨htimed.of_eq rfl rfl rfl rfl, ?_, nofun⟩
        intro n hn
        cases hn
        refine ⟨t', hself, hset, fun {x u} hu => ?_⟩
        by_cases hx : x = id
        · subst hx
          cases hself.symm.trans hu.1
          exact Int.le_refl _
        replace hu : r.Waiting x u := hwaiting hx ⟨hu.1, hu.2⟩
        cases hn' : r.nextTimeout with
        | none => exact absurd hu (h.earliest.none hn')
        | some n =>
          obtain ⟨tn, htn, htime', hbest⟩ := h.earliest.next hn'
          by_cases hnid : n = id
          · subst hnid
            exact h.timed.le_of_noLater hlater hn' hset hx hu
          · rw [hnext, hn'] at hle
            have hle' := hle.resolve_left nofun
            rw [hnextTime (hnext.trans hn') ((hother hnid).trans htn)] at hle'
            exact Int.le_trans hle' (hbest hu)
      next hle =>
        rw [not_or, Int.not_le] at hle
        refine ⟨htimed, ?_, fun hnone => absurd hnone hle.1⟩
        intro n hn
        obtain ⟨tn, htn, htime', hbest⟩ := h.earliest.next (hnext ▸ hn)
        have hnid : n ≠ id := by
          rintro rfl
          rw [hnextTime hn hself] at hle
          exact Int.lt_irrefl _ hle.2
        have htn₁ : r₁.heap n = some tn := (hother hnid).trans htn
        rw [hnextTime hn htn₁] at hle
        refine ⟨tn, htn₁, htime', fun {x u} hu => ?_⟩
        by_cases hx : x = id
        · subst hx
          cases hself.symm.trans hu.1
          exact Int.le_of_lt hle.2
        · exact hbest (hwaiting hx hu)
    next hzero =>
      rw [Classical.not_not] at hzero
      split
      · refine ⟨htimed.of_eq rfl rfl rfl rfl, earliest_recalcNextTimeout htimed.sign ?_ ?_⟩
        · exact fun hu => htimed.begun hu.1 (.inr (.inl hu.2.2))
        · intro x u hx hu
          cases hx
          cases hself.symm.trans hu
          exact hzero
      next hnot =>
        have hne : ∀ {x u}, r₁.Waiting x u → x ≠ id := by
          rintro x u hu rfl
          cases hself.symm.trans hu.1
          exact hu.2.2 hzero
        refine ⟨htimed, ?_, ?_⟩
        · intro n hn
          obtain ⟨tn, htn, htime', hbest⟩ := h.earliest.next (hnext ▸ hn)
          have hnid : n ≠ id := by
            rintro rfl
            exact hnot hn
          exact ⟨tn, (hother hnid).trans htn, htime', fun hu => hbest (hwaiting (hne hu) hu)⟩
        · exact fun hnone _ _ hu => h.earliest.none (hnext ▸ hnone) (hwaiting (hne hu) hu)
  rw [updateTaskTimeout]
  split
  · exact hmiddle
  · exact hmiddle.steady (steady_checkForTimeoutChange _ _)

theorem newTimeout_sign {now : Int} {t : Task} (hahead : 0 ≤ now + t.timeoutSeconds * 1000 * 10000) :
    0 ≤ newTimeout now t := by
  rw [newTimeout]
  split
  · exact hahead
  · exact Int.le_refl 0

theorem newTimeout_ne_zero {now : Int} {t : Task} (htime : newTimeout now t ≠ 0) :
    t.timeoutSeconds ≠ 0 ∧ t.state ≠ .init := by
  rw [newTimeout] at htime
  split at htime
  next hallowed => exact ⟨hallowed.1, hallowed.2.1⟩
  next => exact absurd rfl htime

theorem Timely.reset {f : Task → Task} (h : r.Timely) (ht : r.heap id = some t) (hdone : (f t).done = t.done)
    (haborted : (f t).aborted = t.aborted) (hbusy : (f t).busy = t.busy)
    (hstate : (f t).state ≠ .init → id ∈ r.tasks)
    (hahead : 0 ≤ r.now + (f t).timeoutSeconds * 1000 * 10000)
    (hlater : r.noLater id (newTimeout r.now (f t)) = true) : ((r.modify id f).resetTimeout id).Timely := by
  rw [resetTimeout]
  generalize hr₁ : TaskRunner.modify id (fun t => { t with timeoutTime := newTimeout (r.modify id f).now t })
    (r.modify id f) = r₁
  have hheap : r₁.heap =
      Function.update r.heap id (some { f t with timeoutTime := newTimeout r.now (f t) }) := by
    rw [← hr₁]
    show Function.update (Function.update r.heap id _) id _ = _
    rw [heap_modify_self, ht, Function.update_idem]
    rfl
  refine h.update ht hheap (by rw [← hr₁]; rfl) (by rw [← hr₁]; rfl) (by rw [← hr₁]; rfl) (by rw [← hr₁]; rfl)
    hdone haborted (newTimeout_sign hahead) (fun htime => (newTimeout_ne_zero htime).1) hahead ?_ hlater _
  rintro (hs | htime | hb)
  · exact hstate hs
  · exact hstate (newTimeout_ne_zero htime).2
  · exact h.timed.begun ht (.inr (.inr (hbusy.symm.trans hb)))

theorem Timely.clearTimeout (h : r.Timely) (ht : r.heap id = some t) : (r.clearTimeout id).Timely := by
  have hahead : 0 ≤ r.now + t.timeoutSeconds * 1000 * 10000 := h.timed.ahead ht
  have hheap : (r.modify id fun t => { t with timeoutTime := 0 }).heap =
      Function.update r.heap id (some { t with timeoutTime := 0 }) := by
    rw [modify, ht]
    rfl
  refine h.update ht hheap rfl rfl rfl rfl rfl rfl (Int.le_refl 0) (fun hne => absurd rfl hne) hahead ?_
    (by simp [noLater]) _
  rintro (hs | htime | hb)
  · exact h.timed.begun ht (.inl hs)
  · exact absurd rfl htime
  · exact h.timed.begun ht (.inr (.inr hb))

/-! ### What the application does -/

theorem Timely.create {now : Int} (hnow : 0 ≤ now) : (TaskRunner.create now).Timely :=
  ⟨⟨hnow, nofun, nofun, nofun, nofun, nofun⟩, nofun, fun _ _ _ hu => nomatch hu.1⟩

theorem Timely.newTask {parent : Option TaskId} (h : r.Timely) (hfresh : r.heap r.nextId = none) :
    (r.newTask parent).Timely := by
  rw [TaskRunner.newTask]
  generalize htask : (⟨parent, [], .init, false, false, false, false, false, 0, 0, false⟩ : Task) = task
  generalize hr₁ : ({ r.emit (.created parent r.nextId) with
    heap := Function.update r.heap r.nextId (some task),
    nextId := r.nextId + 1 } : TaskRunner) = r₁
  have hheap : r₁.heap = Function.update r.heap r.nextId (some task) := by rw [← hr₁]
  have hcases : ∀ {x u}, r₁.heap x = some u → u = task ∨ r.heap x = some u := by
    intro x u hu
    rw [hheap] at hu
    by_cases hx : x = r.nextId
    · rw [hx, Function.update_self] at hu
      exact .inl (Option.some.inj hu).symm
    · rw [Function.update_of_ne hx] at hu
      exact .inr hu
  have hnow : r₁.now = r.now := by rw [← hr₁]; rfl
  have htasks : r₁.tasks = r.tasks := by rw [← hr₁]; rfl
  have hphase : r₁.phase = r.phase := by rw [← hr₁]; rfl
  have hnext : r₁.nextTimeout = r.nextTimeout := by rw [← hr₁]; rfl
  have hwaiting : ∀ {x u}, r₁.Waiting x u → r.Waiting x u := by
    rintro x u ⟨hu, hdone, htime⟩
    rcases hcases hu with rfl | hu
    · rw [← htask] at htime
      exact absurd rfl htime
    · exact ⟨hu, hdone, htime⟩
  have hmade : r₁.Timely := by
    refine ⟨⟨hnow ▸ h.timed.clock, ?_, ?_, ?_, ?_, ?_⟩, ?_, ?_⟩
    · intro x u hu
      rw [hnow]
      rcases hcases hu with rfl | hu
      · rw [← htask]
        simpa using h.timed.clock
      · exact h.timed.ahead hu
    · intro x u hu
      rcases hcases hu with rfl | hu
      · exact Int.le_of_eq (by rw [← htask])
      · exact h.timed.sign hu
    · intro x u hu
      rcases hcases hu with rfl | hu
      · rw [← htask]
        exact fun hne => absurd rfl hne
      · exact h.timed.seconds hu
    · intro x u hu
      rw [htasks]
      rcases hcases hu with rfl | hu
      · rw [← htask]
        rintro (hne | hne | hb)
        · exact absurd rfl hne
        · exact absurd rfl hne
        · cases hb
      · exact h.timed.begun hu
    · intro x u hu
      rw [htasks, hphase]
      rcases hcases hu with rfl | hu
      · rw [← htask]
        exact (by rintro ⟨⟩)
      · exact h.timed.cause hu
    · intro n hn
      rw [hnext] at hn
      obtain ⟨t, ht, htime, hbest⟩ := h.earliest.next hn
      refine ⟨t, ?_, htime, fun hu => hbest (hwaiting hu)⟩
      rw [hheap, Function.update_of_ne, ht]
      rintro rfl
      rw [hfresh] at ht
      cases ht
    · exact fun hnone _ _ hu => h.earliest.none (hnext ▸ hnone) (hwaiting hu)
  exact hmade.steady (steady_addChild parent r.nextId r₁)

theorem Timely.start (h : r.Timely) (honce : ∀ t, r.heap id = some t → t.state = .init → id ∉ r.tasks) :
    (r.start id).Timely := by
  rw [TaskRunner.start]
  split
  · exact h
  next t ht =>
    split
    · exact h
    next hinit =>
      have hnew : id ∉ r.tasks := honce t ht (Classical.not_not.mp hinit)
      have hzero : t.timeoutTime = 0 :=
        Classical.not_not.mp fun htime => hnew (h.timed.begun ht (.inr (.inl htime)))
      rw [startTask]
      generalize hr₁ : ({ r.emit (.started id) with tasks := r.tasks ++ [id] } : TaskRunner) = r₁
      have hlisted : r₁.Timely := by
        have hmem : ∀ {x}, x ∈ r.tasks → x ∈ r.tasks ++ [id] := fun hx => List.mem_append_left _ hx
        rw [← hr₁]
        exact ⟨⟨h.timed.clock, h.timed.ahead, h.timed.sign, h.timed.seconds,
          fun hu hor => hmem (h.timed.begun hu hor),
          fun hu hdone => (h.timed.cause hu hdone).imp_right fun hlisted => ⟨hmem hlisted.1, hlisted.2⟩⟩,
          h.earliest.next, h.earliest.none⟩
      have ht₁ : r₁.heap id = some t := by rw [← hr₁]; exact ht
      have hahead : 0 ≤ r₁.now + t.timeoutSeconds * 1000 * 10000 := hlisted.timed.ahead ht₁
      refine hlisted.update ht₁ ?_ rfl rfl rfl rfl rfl rfl (Int.le_of_eq hzero.symm)
          (fun htime => absurd hzero htime)
        hahead (hlisted.timed.begun ht₁) ?_ 0
      · rw [← ht₁, Function.update_eq_self]
      · simp [noLater, hzero]

theorem Timely.beginRun (h : r.Timely) (inDestructor : Bool) : (r.beginRun inDestructor).Timely := by
  rw [TaskRunner.beginRun]
  split
  · exact h
  · exact ⟨⟨h.timed.clock, h.timed.ahead, h.timed.sign, h.timed.seconds, h.timed.begun,
      fun hu hdone => (h.timed.cause hu hdone).imp_right fun hlisted => ⟨hlisted.1, (by rintro ⟨⟩)⟩⟩,
      h.earliest.next, h.earliest.none⟩

/-- A step leaves the timeouts where they are, or moves none behind another one, and none is negative. -/
def setsTimeout (r : TaskRunner) (op : TaskOp) : Bool :=
  match op, r.phase with
  | .setTimeoutSeconds seconds id, _ => 0 ≤ r.now + seconds * 1000 * 10000 &&
      (r.heap id).all fun t => r.noLater id (newTimeout r.now { t with timeoutSeconds := seconds })
  | .suspendTimeout suspend id, _ => (r.heap id).all fun t => t.timeoutSuspended = suspend ||
      r.noLater id (newTimeout r.now { t with timeoutSuspended := suspend })
  | .resetTimeout id, _ => (r.heap id).all fun t => r.noLater id (newTimeout r.now t)
  | .processed (some state), .processing _ id => (r.heap id).all fun t => t.aborted ||
      r.noLater id (newTimeout r.now { t with state })
  | _, _ => true

theorem Timely.resetTimeout (h : r.Timely) (ht : r.heap id = some t)
    (hlater : r.noLater id (newTimeout r.now t) = true) : (r.resetTimeout id).Timely := by
  have hself : r.modify id (fun t => t) = r := by
    rw [modify, Option.map_id', Function.update_eq_self]
  have hahead : 0 ≤ r.now + t.timeoutSeconds * 1000 * 10000 := h.timed.ahead ht
  have hreset := h.reset (f := fun t => t) ht rfl rfl rfl (fun hstate => h.timed.begun ht (.inl hstate))
      hahead hlater
  rwa [hself] at hreset

theorem Timely.apply {op : TaskOp} (h : r.Timely) (hsane : r.Sane lost) (hvalid : r.valid op = true)
    (honce : r.startsOnce op = true) (hsets : r.setsTimeout op = true) : (r.apply op).Timely := by
  cases op with
  | newTask parent =>
    refine h.newTask ?_
    cases hnext : r.heap r.nextId with
    | none => rfl
    | some t => exact absurd (hsane.stable.tree.alive hnext).1 (Nat.lt_irrefl _)
  | start id =>
    refine h.start fun t ht hinit => ?_
    rw [startsOnce, Bool.or_eq_true, ht] at honce
    exact honce.elim (fun hnew => by simpa using hnew) fun hstate => by simp [hinit] at hstate
  | wake id => exact h.steady (steady_wake id r)
  | error id => exact h.steady (steady_error id r)
  | abort id => exact h.steady (steady_abort id r)
  | setTimeoutSeconds seconds id =>
    obtain ⟨t, ht⟩ := Option.isSome_iff_exists.mp hvalid
    rw [setsTimeout, Bool.and_eq_true, decide_eq_true_eq, ht, Option.all_some] at hsets
    exact h.reset ht rfl rfl rfl (fun hstate => h.timed.begun ht (.inl hstate)) hsets.1 hsets.2
  | suspendTimeout suspend id =>
    rw [TaskRunner.apply, suspendTimeout]
    split
    · exact h
    next t ht =>
      split
      · exact h
      next hnot =>
        rw [setsTimeout, ht, Option.all_some, Bool.or_eq_true, decide_eq_true_eq] at hsets
        have hahead : 0 ≤ r.now + t.timeoutSeconds * 1000 * 10000 := h.timed.ahead ht
        exact h.reset ht rfl rfl rfl (fun hstate => h.timed.begun ht (.inl hstate)) hahead (hsets.resolve_left hnot)
  | resetTimeout id =>
    obtain ⟨t, ht⟩ := Option.isSome_iff_exists.mp hvalid
    rw [setsTimeout, ht, Option.all_some] at hsets
    exact h.resetTimeout ht hsets
  | clearTimeout id =>
    obtain ⟨t, ht⟩ := Option.isSome_iff_exists.mp hvalid
    exact h.clearTimeout ht
  | runTasks => exact h.beginRun false
  | destroy => exact (h.steady (steady_foldl (fun r x => steady_abort x r) _ r)).beginRun true
  | tick time => exact h
  | processed result => exact h
  | advance => exact h

/-! ### The steps of the runner -/

theorem deleteRound_next (r : TaskRunner) (recalc : Bool) (x : TaskId) :
    (deleteRound (r, recalc) x).1.now = r.now ∧ ((deleteRound (r, recalc) x).2 = false →
      (deleteRound (r, recalc) x).1.nextTimeout = r.nextTimeout ∧
        ∀ n, r.nextTimeout = some n → (deleteRound (r, recalc) x).1.heap n = r.heap n) := by
  simp only [deleteRound]
  split
  · exact ⟨rfl, fun _ => ⟨rfl, fun _ _ => rfl⟩⟩
  next t ht =>
    split
    · refine ⟨rfl, fun hno => ?_⟩
      have hnot : r.nextTimeout ≠ some x := by
        simp only [Bool.or_eq_false_iff, decide_eq_false_iff_not] at hno
        exact hno.2
      refine ⟨if_neg (by simpa using hnot), fun n hn => Function.update_of_ne ?_ ..⟩
      rintro rfl
      exact hnot hn
    · exact ⟨rfl, fun _ => ⟨rfl, fun _ _ => rfl⟩⟩

theorem foldl_deleteRound_true (l : List TaskId) (r : TaskRunner) : (l.foldl deleteRound (r, true)).2 = true := by
  refine List.foldlRecOn l _ (motive := fun state : TaskRunner × Bool => state.2 = true) rfl ?_
  intro state h x _
  simp only [deleteRound]
  split
  · exact h
  · split
    · rw [h, Bool.true_or]
    · exact h

theorem foldl_deleteRound_next (l : List TaskId) (r : TaskRunner) (recalc : Bool) :
    (l.foldl deleteRound (r, recalc)).1.now = r.now ∧
      ((l.foldl deleteRound (r, recalc)).2 = false →
        (l.foldl deleteRound (r, recalc)).1.nextTimeout = r.nextTimeout ∧
          ∀ n, r.nextTimeout = some n → (l.foldl deleteRound (r, recalc)).1.heap n = r.heap n) := by
  induction l generalizing r recalc with
  | nil => exact ⟨rfl, fun _ => ⟨rfl, fun _ _ => rfl⟩⟩
  | cons x l ih =>
    rw [List.foldl_cons]
    obtain ⟨hnow, hnext⟩ := deleteRound_next r recalc x
    generalize deleteRound (r, recalc) x = round at hnow hnext
    obtain ⟨r₁, recalc₁⟩ := round
    obtain ⟨hnow', hnext'⟩ := ih r₁ recalc₁
    refine ⟨hnow'.trans hnow, fun hno => ?_⟩
    obtain ⟨heq', hheap'⟩ := hnext' hno
    have hno₁ : recalc₁ = false := by
      cases recalc₁ with
      | false => rfl
      | true =>
        rw [foldl_deleteRound_true] at hno
        cases hno
    obtain ⟨heq, hheap⟩ := hnext hno₁
    refine ⟨heq'.trans heq, fun n hn => ?_⟩
    rw [hheap' n (heq.trans hn), hheap n hn]

theorem Timely.finish {pass : Pass} (h : r.Timely) (hstable : r.Stable lost [])
    (hphase : ∀ pass id, r.phase ≠ .processing pass id) : (r.finish pass).Timely := by
  obtain ⟨-, hdeletes, hdone⟩ := hstable.foldl_deleteRound (l := r.tasks) hphase false
  obtain ⟨hnow, hnext⟩ := foldl_deleteRound_next r.tasks r false
  rw [TaskRunner.finish]
  generalize r.tasks.foldl deleteRound (r, false) = state at hdeletes hdone hnow hnext
  obtain ⟨r₁, recalc⟩ := state
  dsimp only at hdeletes hdone hnow hnext ⊢
  have hback : ∀ {x u}, r₁.heap x = some u → r.heap x = some u := by
    intro x u hu
    rcases hdeletes.heap x with heq | ⟨hnone, -⟩
    · exact heq.symm.trans hu
    · rw [hnone] at hu
      cases hu
  generalize hr₂ : ({ r₁ with tasks := r₁.tasks.filter fun id => (r₁.heap id).isSome } : TaskRunner) = r₂
  have hheap₂ : r₂.heap = r₁.heap := by rw [← hr₂]
  have hback₂ : ∀ {x u}, r₂.heap x = some u → r.heap x = some u := by
    intro x u hu
    rw [hheap₂] at hu
    exact hback hu
  have hmem₂ : ∀ {x u}, r₂.heap x = some u → x ∈ r.tasks → x ∈ r₂.tasks := by
    intro x u hu hx
    rw [hheap₂] at hu
    rw [← hr₂, List.mem_filter, hdeletes.tasks, Option.isSome_iff_exists]
    exact ⟨hx, u, hu⟩
  -- what is done was not on the list
  have hcause : ∀ {x u}, r₂.heap x = some u → u.done = true → u.aborted = true := by
    intro x u hu hset
    rw [hheap₂] at hu
    refine (h.timed.cause (hback hu) hset).resolve_right fun hlisted => ?_
    rw [hdone x hlisted.1 u hu] at hset
    cases hset
  have htimed₂ : r₂.Timed := by
    have hnow₂ : r₂.now = r.now := by rw [← hr₂]; exact hnow
    refine ⟨hnow₂ ▸ h.timed.clock, ?_, ?_, ?_, ?_, fun hu hset => .inl (hcause hu hset)⟩
    · intro x u hu
      rw [hnow₂]
      exact h.timed.ahead (hback₂ hu)
    · exact fun hu => h.timed.sign (hback₂ hu)
    · exact fun hu => h.timed.seconds (hback₂ hu)
    · exact fun hu hor => hmem₂ hu (h.timed.begun (hback₂ hu) hor)
  generalize hr₃ : (if recalc then r₂.recalcNextTimeout none else r₂) = r₃
  have hearliest₃ : r₃.Earliest := by
    rw [← hr₃]
    split
    · refine earliest_recalcNextTimeout htimed₂.sign (fun hu => htimed₂.begun hu.1 (.inr (.inl hu.2.2))) ?_
      intro x _ heq
      cases heq
    next hno =>
      obtain ⟨hnext₁, hkept⟩ := hnext (Bool.eq_false_iff.mpr hno)
      have hnext₂ : r₂.nextTimeout = r.nextTimeout := by rw [← hr₂]; exact hnext₁
      have hwaiting : ∀ {x u}, r₂.Waiting x u → r.Waiting x u := fun hu => ⟨hback₂ hu.1, hu.2⟩
      constructor
      · intro n hn
        obtain ⟨t, ht, htime, hbest⟩ := h.earliest.next (hnext₂ ▸ hn)
        refine ⟨t, ?_, htime, fun hu => hbest (hwaiting hu)⟩
        rw [hheap₂, hkept n (hnext₂ ▸ hn), ht]
      · exact fun hnone _ _ hu => h.earliest.none (hnext₂ ▸ hnone) (hwaiting hu)
  have hheap₃ : r₃.heap = r₂.heap := by
    rw [← hr₃]
    split
    · rfl
    · rfl
  have hnow₃ : r₃.now = r₂.now := by
    rw [← hr₃]
    split
    · rfl
    · rfl
  have htasks₃ : r₃.tasks = r₂.tasks := by
    rw [← hr₃]
    split
    · rfl
    · rfl
  have hphase₃ : r₃.phase = r₂.phase := by
    rw [← hr₃]
    split
    · rfl
    · rfl
  have htimely₃ : r₃.Timely := ⟨htimed₂.of_eq hnow₃ htasks₃ hheap₃ hphase₃, hearliest₃⟩
  generalize hr₄ : (if pass.inDestructor then r₃ else r₃.checkForTimeoutChange pass.previous) = r₄
  have hsteady : Steady r₃ r₄ := by
    rw [← hr₄]
    split
    · exact .refl r₃
    · exact steady_checkForTimeoutChange _ r₃
  have hcause₄ : ∀ {x u}, r₄.heap x = some u → u.done = true → u.aborted = true := by
    have hheap₄ : r₄.heap = r₃.heap := by
      rw [← hr₄]
      split
      · rfl
      · rw [checkForTimeoutChange]
        split
        · rfl
        · rfl
    intro x u hu
    rw [hheap₄, hheap₃] at hu
    exact hcause hu
  have htimely₄ := htimely₃.steady hsteady
  exact ⟨⟨htimely₄.timed.clock, htimely₄.timed.ahead, htimely₄.timed.sign, htimely₄.timed.seconds,
    htimely₄.timed.begun, fun hu hset => .inl (hcause₄ hu hset)⟩, htimely₄.earliest.next, htimely₄.earliest.none⟩

theorem steady_phase {phase : Phase} (hbegan : began phase = began r.phase) : Steady r { r with phase } :=
  steady_of_eq rfl rfl rfl rfl ⟨hbegan, List.prefix_refl _⟩

theorem steady_advance {pass : Pass} (hpass : r.phase = .looping pass)
    (hend : r.tasks[pass.index]? = none → pass.didRun = true) : Steady r (r.advance pass) := by
  have hplace : ∀ index didRun, Steady r { r with phase := .looping { pass with index, didRun } } :=
    fun _ _ => steady_phase (by rw [hpass]; rfl)
  rw [TaskRunner.advance]
  split
  next hnone =>
    rw [if_pos (hend hnone)]
    exact hplace 0 false
  next id hget =>
    split
    · exact hplace (pass.index + 1) pass.didRun
    next t ht =>
      split
      · exact hplace (pass.index + 1) pass.didRun
      have hran : Steady r { r with phase := .looping { pass with didRun := true } } := hplace pass.index true
      have hmem : id ∈ r.tasks := List.mem_of_getElem? hget
      have hlisted : id ∈ r.tasks ∧ Phase.looping { pass with didRun := true } ≠ .idle := ⟨hmem, (by rintro ⟨⟩)⟩
      split
      · have hsteady : ∀ t : Task, Task.Steady (id ∈ r.tasks ∧ Phase.looping { pass with didRun := true } ≠ .idle) t
            { t with blocked := true } := fun t => ⟨rfl, rfl, fun h => h, fun h => h, .inl, .inl, .inl⟩
        exact hran.trans (steady_modify hsteady)
      split
      · have hsteady : ∀ t : Task, Task.Steady (id ∈ r.tasks ∧ Phase.looping { pass with didRun := true } ≠ .idle) t
            { t with done := true, state := .error, blocked := true } :=
          fun t => ⟨rfl, rfl, fun _ => rfl, fun h => h, fun _ => .inr hlisted, .inl, fun _ => .inr (.inr hlisted)⟩
        exact hran.trans ((steady_modify hsteady).trans (steady_stop id _))
      · have hsteady : ∀ t : Task, Task.Steady (id ∈ r.tasks ∧ Phase.looping { pass with didRun := true } ≠ .idle) t
            { t with busy := true } := fun t =>
          ⟨rfl, rfl, fun h => h, fun h => h, .inl, fun _ => .inr hlisted, .inl⟩
        exact hran.trans ((steady_modify hsteady).trans ((steady_emit (.process id t.state) _).trans
          (steady_phase rfl)))

theorem advance_end {pass : Pass} (hnone : r.tasks[pass.index]? = none) (hrun : pass.didRun = false) :
    r.advance pass = r.finish pass := by
  rw [TaskRunner.advance, hnone]
  rw [if_neg (by rw [hrun]; exact (by rintro ⟨⟩))]

theorem Timely.advance {pass : Pass} (h : r.Timely) (hsane : r.Sane lost) (hpass : r.phase = .looping pass) :
    (r.advance pass).Timely := by
  by_cases hend : r.tasks[pass.index]? = none ∧ pass.didRun = false
  · rw [advance_end hend.1 hend.2]
    exact h.finish hsane.stable (by rw [hpass]; exact nofun)
  · refine h.steady (steady_advance hpass fun hnone => ?_)
    rw [← Bool.not_eq_false]
    exact fun hrun => hend ⟨hnone, hrun⟩

theorem Timely.processed {pass : Pass} {result : Option TaskState} (h : r.Timely) (hsane : r.Sane lost)
    (hpass : r.phase = .processing pass id) (hsets : r.setsTimeout (.processed result) = true) :
    (r.processed pass id result).Timely := by
  obtain ⟨t, ht⟩ := hsane.stable.flags.running hpass
  have hbusy : t.busy = true := (hsane.stable.flags.busy ht).mpr ⟨pass, hpass⟩
  have hmem : id ∈ r.tasks := h.timed.begun ht (.inr (.inr hbusy))
  have hran : Steady r { r with phase := .looping { pass with didRun := true } } :=
    steady_phase (by rw [hpass]; rfl)
  have hsteady : ∀ t : Task, Task.Steady (id ∈ r.tasks ∧ Phase.looping { pass with didRun := true } ≠ .idle) t
      { t with busy := false } := fun t => ⟨rfl, rfl, fun h => h, fun h => h, .inl, nofun, .inl⟩
  have hleft := hran.trans (steady_modify hsteady)
  unfold TaskRunner.processed
  dsimp only
  generalize hr₁ : TaskRunner.modify id (fun t => { t with busy := false })
    { r with phase := .looping { pass with didRun := true } } = r₁ at hleft
  have hself : r₁.heap id = some { t with busy := false } := by
    rw [← hr₁]
    show Function.update r.heap id _ id = _
    rw [Function.update_self, ht]
    rfl
  have htimely : r₁.Timely := h.steady hleft
  have hphase : r₁.phase ≠ .idle := by
    rw [← hr₁]
    exact nofun
  have hmem₁ : id ∈ r₁.tasks := by
    rw [← hr₁]
    exact hmem
  rw [hself]
  dsimp only
  split
  · exact htimely.steady (steady_abort id r₁)
  next haborted =>
    split
    · have hblocked : ∀ t : Task, Task.Steady (id ∈ r₁.tasks ∧ r₁.phase ≠ .idle) t { t with blocked := true } :=
        fun t => ⟨rfl, rfl, fun h => h, fun h => h, .inl, .inl, .inl⟩
      exact htimely.steady (steady_modify hblocked)
    next state =>
      have hlater : r₁.noLater id (newTimeout r₁.now { t with busy := false, state, blocked := false }) = true := by
        simp only [setsTimeout, hpass, ht, Option.all_some, Bool.or_eq_true] at hsets
        have hset := hsets.resolve_left haborted
        have heq : newTimeout r₁.now { t with busy := false, state, blocked := false } =
            newTimeout r.now { t with state } := by
          rw [hleft.now]
          rfl
        rw [heq, noLater_congr hleft.nextTimeout hleft.tasks, hset]
        intro x hx
        rw [← hr₁]
        exact Function.update_of_ne hx ..
      have hahead : 0 ≤ r₁.now + t.timeoutSeconds * 1000 * 10000 := by
        rw [hleft.now]
        exact h.timed.ahead ht
      have hreset := htimely.reset (f := fun t => { t with state, blocked := false }) hself rfl rfl rfl
        (fun _ => hmem₁) hahead hlater
      have hquiet := quiet_resetTimeout id (r₁.modify id fun t => { t with state, blocked := false })
      have hphase₂ := hquiet.phase
      have htasks₂ := hquiet.tasks
      generalize (r₁.modify id fun t => { t with state, blocked := false }).resetTimeout id = r₂
        at hreset hphase₂ htasks₂
      split
      · have hlisted : id ∈ r₂.tasks ∧ r₂.phase ≠ .idle := by
          rw [hphase₂, htasks₂]
          exact ⟨hmem₁, hphase⟩
        have hdone : ∀ t : Task, Task.Steady (id ∈ r₂.tasks ∧ r₂.phase ≠ .idle) t
            { t with done := true, error := t.error || state = .error } :=
          fun t => ⟨rfl, rfl, fun _ => rfl, fun h => h, .inl, .inl, fun _ => .inr (.inr hlisted)⟩
        have hstopped := (steady_modify hdone).trans (steady_stop id _)
        refine hreset.steady (hstopped.trans (steady_modify fun t => ?_))
        exact ⟨rfl, rfl, fun h => h, fun h => h, .inl, .inl, .inl⟩
      · exact hreset

/-- A run without limits that are too short, in which no task is started twice and no timeout is moved behind
another one while it is the next. -/
def Punctual (r : TaskRunner) (op : TaskOp) : Prop := r.startsOnce op = true ∧ r.setsTimeout op = true

instance (r : TaskRunner) (op : TaskOp) : Decidable (r.Punctual op) := inferInstanceAs (Decidable (_ ∧ _))

theorem Timely.step {op : TaskOp} (h : r.Timely) (hsane : r.Sane lost) (hpunctual : r.Punctual op)
    (hstep : r.step op = some r') : r'.Timely := by
  rw [TaskRunner.step.eq_def] at hstep
  split at hstep
  next time =>
    cases hstep
    have hlater : r.now ≤ r.now + (time : Int) := Int.le_add_of_nonneg_right (Int.natCast_nonneg time)
    refine ⟨⟨Int.le_trans h.timed.clock hlater, ?_, h.timed.sign, h.timed.seconds, h.timed.begun, h.timed.cause⟩,
      h.earliest.next, h.earliest.none⟩
    intro x u hu
    exact Int.le_trans (h.timed.ahead hu) (Int.add_le_add_right hlater _)
  next pass hpass =>
    cases hstep
    exact h.advance hsane hpass
  next => cases hstep
  next result pass id hpass =>
    cases hstep
    exact h.processed hsane hpass hpunctual.2
  next => cases hstep
  next => cases hstep
  next =>
    split at hstep
    next hvalid =>
      cases hstep
      exact h.apply hsane hvalid hpunctual.1 hpunctual.2
    next => cases hstep

theorem timely_of_run {now : Int} {ops : List TaskOp} {r : TaskRunner} (hnow : 0 ≤ now)
    (hok : Runs.Admissible TaskRunner.step Punctual (TaskRunner.create now) ops)
    (hrun : Runs.run TaskRunner.step (TaskRunner.create now) ops = some r) : r.Sane True ∧ r.Timely := by
  have hkeeps : ∀ s op s', s.Sane True ∧ s.Timely → s.Punctual op → TaskRunner.step s op = some s' →
      s'.Sane True ∧ s'.Timely :=
    fun s op s' h hpunctual hstep => ⟨h.1.step hpunctual.1 (.inl trivial) hstep, h.2.step h.1 hpunctual hstep⟩
  exact Runs.invariant hkeeps ⟨.create now, .create hnow⟩ hok hrun

end Synciga.TaskRunner
