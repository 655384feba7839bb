import Synciga.Internal.Runs

/-!
# `talk_base::Task` and `talk_base::TaskRunner`

Tasks are state machines that a runner puts forward (`talk/base/task.cc`, `taskparent.cc`, `taskrunner.cc`), in
a tree whose root is the runner. What a task does in `Process` is up to the application: it may call the
functions of any tasks, and then returns a state. `RunTasks` is therefore taken apart into steps, between which
the application acts, as it does while the runner is idle. `WakeTasks` is for the application to implement.

## Main definitions

* `Task`, `TaskRunner` — their states
* `TaskRunner.step` — a step of `RunTasks`, or a call of the application
-/

namespace Synciga

/-- The states of a task, those of subclasses included. -/
inductive TaskState
  | init
  | start
  | done
  | error
  | response
  /-- `STATE_NEXT` and more. -/
  | next (n : Nat)
  deriving DecidableEq, Repr

/-- A task is known by its `unique_id_`, which is also taken for its address. -/
abbrev TaskId := Nat

/-- The class `Task`. -/
structure Task where
  /-- `parent_`; without one it is the runner. -/
  parent : Option TaskId
  children : List TaskId
  state : TaskState
  blocked : Bool
  done : Bool
  aborted : Bool
  busy : Bool
  error : Bool
  timeoutTime : Int
  timeoutSeconds : Int
  timeoutSuspended : Bool
  deriving DecidableEq, Repr

/-- What is recorded. -/
inductive TaskEvent
  | created (parent : Option TaskId) (id : TaskId)
  /-- `TaskRunner::StartTask`. -/
  | started (id : TaskId)
  /-- `Process`. -/
  | process (id : TaskId) (state : TaskState)
  | woken (id : TaskId)
  /-- A mark: `aborted_` was set. -/
  | aborted (id : TaskId)
  /-- `Stop`. -/
  | stopped (id : TaskId)
  | deleted (id : TaskId)
  /-- `TaskRunner::OnTimeoutChange`. -/
  | timeoutChange
  deriving DecidableEq, Repr

/-- How far `InternalRunTasks` is: what `next_task_timeout` was in the beginning, the index in `tasks_`,
and `did_run`. -/
structure Pass where
  previous : Int
  inDestructor : Bool
  index : Nat
  didRun : Bool
  deriving DecidableEq, Repr

/-- Whether `tasks_running_`, and where. -/
inductive Phase
  | idle
  /-- In the loops, between two steps. -/
  | looping (pass : Pass)
  /-- In `Process` of a task. -/
  | processing (pass : Pass) (id : TaskId)
  deriving DecidableEq, Repr

/-- `TaskRunner`, with all tasks that exist. -/
structure TaskRunner where
  heap : TaskId → Option Task
  /-- `Task::unique_id_seed_`. -/
  nextId : TaskId
  /-- The children of the runner itself. -/
  children : List TaskId
  /-- `tasks_`. -/
  tasks : List TaskId
  /-- `next_timeout_task_`. -/
  nextTimeout : Option TaskId
  phase : Phase
  now : Int
  trace : List TaskEvent

namespace TaskRunner

/-- `TaskRunner()`. -/
def create (now : Int) : TaskRunner := ⟨fun _ => none, 0, [], [], none, .idle, now, []⟩

/-- Records an event. -/
def emit (event : TaskEvent) (r : TaskRunner) : TaskRunner := { r with trace := r.trace ++ [event] }

variable (id : TaskId)

/-- A task is changed. -/
def modify (f : Task → Task) (r : TaskRunner) : TaskRunner :=
  { r with heap := Function.update r.heap id ((r.heap id).map f) }

variable (r : TaskRunner)

/-- `tasks_running_`. -/
def running : Bool := r.phase ≠ .idle

/-- The children of a task, or of the runner. -/
def childrenOf : Option TaskId → List TaskId
  | none => r.children
  | some id => match r.heap id with
    | none => []
    | some t => t.children

/-! ### Timeouts -/

/-- The timeout of a task. -/
def timeoutTime (r : TaskRunner) (id : TaskId) : Int :=
  match r.heap id with
  | none => 0
  | some t => t.timeoutTime

/-- `next_task_timeout`. -/
def nextTaskTimeout : Int :=
  match r.nextTimeout with
  | none => 0
  | some id => r.timeoutTime id

/-- One round of the loop in `RecalcNextTimeout`, with `next_timeout_time` and `next_timeout_task_`. -/
def recalcRound (exclude : Option TaskId) (best : Int × Option TaskId) (id : TaskId) :
    Int × Option TaskId :=
  match r.heap id with
  | none => best
  | some t =>
    if t.done = false ∧ t.timeoutTime > 0 ∧ exclude ≠ some id ∧ (best.1 = 0 ∨ t.timeoutTime ≤ best.1) then
      (t.timeoutTime, some id)
    else best

/-- `RecalcNextTimeout`. -/
def recalcNextTimeout (exclude : Option TaskId) (r : TaskRunner) : TaskRunner :=
  { r with nextTimeout := (r.tasks.foldl (r.recalcRound exclude) (0, none)).2 }

/-- `CheckForTimeoutChange`. -/
def checkForTimeoutChange (previous : Int) (r : TaskRunner) : TaskRunner :=
  let next := r.nextTaskTimeout
  if (previous = 0 ∧ next ≠ 0) ∨ next < previous ∨ (previous ≤ r.now ∧ previous ≠ next) then
    r.emit .timeoutChange
  else r

/-- `UpdateTaskTimeout`. -/
def updateTaskTimeout (previousTaskTimeout : Int) (r : TaskRunner) : TaskRunner :=
  let previous := if r.nextTimeout = some id then previousTaskTimeout else r.nextTaskTimeout
  let r' :=
    if r.timeoutTime id ≠ 0 then
      if r.nextTimeout = none ∨ r.timeoutTime id ≤ r.nextTaskTimeout then { r with nextTimeout := some id }
      else r
    else if r.nextTimeout = some id then r.recalcNextTimeout (some id)
    else r
  if r.running then r' else r'.checkForTimeoutChange previous

/-- What `ResetTimeout` sets `timeout_time_` to. The unit is 100 ns. -/
def newTimeout (now : Int) (t : Task) : Int :=
  if t.timeoutSeconds ≠ 0 ∧ t.state ≠ .init ∧ t.state ≠ .done ∧ t.state ≠ .error ∧ t.timeoutSuspended = false then
    now + t.timeoutSeconds * 1000 * 10000
  else 0

/-- `Task::ResetTimeout`. -/
def resetTimeout (r : TaskRunner) : TaskRunner :=
  (r.modify id fun t => { t with timeoutTime := newTimeout r.now t }).updateTaskTimeout id (r.timeoutTime id)

/-- `Task::ClearTimeout`. -/
def clearTimeout (r : TaskRunner) : TaskRunner :=
  (r.modify id fun t => { t with timeoutTime := 0 }).updateTaskTimeout id (r.timeoutTime id)

/-- `Task::set_timeout_seconds`. -/
def setTimeoutSeconds (seconds : Int) (id : TaskId) (r : TaskRunner) : TaskRunner :=
  (r.modify id fun t => { t with timeoutSeconds := seconds }).resetTimeout id

/-- `SuspendTimeout` and `ResumeTimeout`. -/
def suspendTimeout (suspend : Bool) (id : TaskId) (r : TaskRunner) : TaskRunner :=
  match r.heap id with
  | none => r
  | some t =>
    if t.timeoutSuspended = suspend then r
    else (r.modify id fun t => { t with timeoutSuspended := suspend }).resetTimeout id

/-- `Task::TimedOut`. -/
def timedOut (id : TaskId) : Bool :=
  match r.heap id with
  | none => false
  | some t => t.timeoutSeconds ≠ 0 && t.timeoutTime ≠ 0 && t.timeoutTime ≤ r.now

/-! ### The tree -/

variable (parent : Option TaskId)

/-- `TaskParent::OnChildStopped`. -/
def onChildStopped (id : TaskId) (r : TaskRunner) : TaskRunner :=
  match parent with
  | none => { r with children := r.children.filter (· ≠ id) }
  | some parent => r.modify parent fun t => { t with children := t.children.filter (· ≠ id) }

/-- `Stop`, with the way in which children are aborted. The set of the children is copied. -/
def stopWith (abort : TaskId → TaskRunner → TaskRunner) (parent : Option TaskId) (id : TaskId)
    (r : TaskRunner) : TaskRunner :=
  let r := r.emit (.stopped id)
  ((r.childrenOf (some id)).foldl (fun r child => abort child r) r).onChildStopped parent id

/-- `Abort`, as deep as the first argument allows. `WakeTasks` is left to the application. -/
def abortWithin : Nat → TaskId → TaskRunner → TaskRunner
  | 0, _, r => r
  | n + 1, id, r =>
    match r.heap id with
    | none => r
    | some t =>
      if t.done then r
      else if t.busy then (r.modify id fun t => { t with aborted := true }).emit (.aborted id)
      else
        stopWith (abortWithin n) t.parent id ((r.modify id fun t =>
          { t with aborted := true, done := true, blocked := true, error := true }).emit (.aborted id))

/-- `Abort`. No path in the tree is longer than there are tasks. -/
def abort (r : TaskRunner) : TaskRunner := abortWithin r.nextId id r

/-- `Stop`, of a task that was just found to be done. -/
def stop (r : TaskRunner) : TaskRunner :=
  match r.heap id with
  | none => r
  | some t => stopWith abort t.parent id r

/-- `AbortAllChildren` of the runner. -/
def abortAllChildren : TaskRunner :=
  r.children.foldl (fun r child => r.abort child) r

/-! ### Functions of a task -/

/-- `TaskParent::AddChild`. -/
def addChild (id : TaskId) (r : TaskRunner) : TaskRunner :=
  match parent with
  | none => { r with children := r.children ++ [id] }
  | some parent => r.modify parent fun t => { t with children := t.children ++ [id] }

/-- `Task(parent)`. -/
def newTask (r : TaskRunner) : TaskRunner :=
  let task : Task := ⟨parent, [], .init, false, false, false, false, false, 0, 0, false⟩
  { r.emit (.created parent r.nextId) with
    heap := Function.update r.heap r.nextId (some task)
    nextId := r.nextId + 1 }.addChild parent r.nextId

/-- `StartTask`. -/
def startTask (r : TaskRunner) : TaskRunner :=
  { r.emit (.started id) with tasks := r.tasks ++ [id] }.updateTaskTimeout id 0

/-- `Task::Start`. -/
def start (r : TaskRunner) : TaskRunner :=
  match r.heap id with
  | none => r
  | some t => if t.state ≠ .init then r else r.startTask id

/-- `Task::Wake`. -/
def wake (r : TaskRunner) : TaskRunner :=
  match r.heap id with
  | none => r
  | some t =>
    if t.done then r
    else if t.blocked then (r.modify id fun t => { t with blocked := false }).emit (.woken id)
    else r.emit (.woken id)

/-- `Task::Error`. -/
def error (id : TaskId) (r : TaskRunner) : TaskRunner :=
  match r.heap id with
  | none => r
  | some t => if t.error ∨ t.done then r else (r.modify id fun t => { t with error := true }).wake id

/-! ### `InternalRunTasks` -/

/-- The tasks that are done are deleted. The second part is `need_timeout_recalc`. -/
def deleteRound (state : TaskRunner × Bool) (id : TaskId) : TaskRunner × Bool :=
  let (r, recalc) := state
  match r.heap id with
  | none => (r, recalc)
  | some t =>
    if t.done then
      let isNext := r.nextTimeout = some id
      ({ r.emit (.deleted id) with
        heap := Function.update r.heap id none
        nextTimeout := if isNext then none else r.nextTimeout }, recalc || isNext)
    else (r, recalc)

variable (pass : Pass)

/-- The end of `InternalRunTasks`. -/
def finish (r : TaskRunner) : TaskRunner :=
  let (r, recalc) := r.tasks.foldl deleteRound (r, false)
  let r := { r with tasks := r.tasks.filter fun id => (r.heap id).isSome }
  let r := if recalc then r.recalcNextTimeout none else r
  let r := if pass.inDestructor then r else r.checkForTimeoutChange pass.previous
  { r with phase := .idle }

/-- `RunTasks`, up to the loops. -/
def beginRun (inDestructor : Bool) (r : TaskRunner) : TaskRunner :=
  if r.running then r else { r with phase := .looping ⟨r.nextTaskTimeout, inDestructor, 0, false⟩ }

/-- The runner goes on: it looks at the next task, or begins a `Step`, or comes to the end of the list. -/
def advance (r : TaskRunner) : TaskRunner :=
  match r.tasks[pass.index]? with
  | none =>
    if pass.didRun then { r with phase := .looping { pass with index := 0, didRun := false } }
    else r.finish pass
  | some id =>
    match r.heap id with
    | none => { r with phase := .looping { pass with index := pass.index + 1 } }
    | some t =>
      if t.blocked then { r with phase := .looping { pass with index := pass.index + 1 } }
      else
        let ran := { r with phase := .looping { pass with didRun := true } }
        if t.done then ran.modify id fun t => { t with blocked := true }
        else if t.error then
          (ran.modify id fun t => { t with done := true, state := .error, blocked := true }).stop id
        else
          { (ran.modify id fun t => { t with busy := true }).emit (.process id t.state) with
            phase := .processing pass id }

/-- The rest of `Step`, after `Process` has returned a state, or `STATE_BLOCKED`. -/
def processed (id : TaskId) (result : Option TaskState) (r : TaskRunner) : TaskRunner :=
  let r := { r with phase := .looping { pass with didRun := true } }
  let r := r.modify id fun t => { t with busy := false }
  match r.heap id with
  | none => r
  | some t =>
    if t.aborted then r.abort id
    else match result with
      | none => r.modify id fun t => { t with blocked := true }
      | some state =>
        let r := (r.modify id fun t => { t with state, blocked := false }).resetTimeout id
        if state = .done ∨ state = .error then
          let r := r.modify id fun t => { t with done := true, error := t.error || state = .error }
          (r.stop id).modify id fun t => { t with blocked := true }
        else r

/-! ### All that can happen -/

/-- What the application does, and the steps of the runner. -/
inductive TaskOp
  | newTask (parent : Option TaskId)
  | start (id : TaskId)
  | wake (id : TaskId)
  | error (id : TaskId)
  | abort (id : TaskId)
  | setTimeoutSeconds (seconds : Int) (id : TaskId)
  | suspendTimeout (suspend : Bool) (id : TaskId)
  | resetTimeout (id : TaskId)
  | clearTimeout (id : TaskId)
  | runTasks
  /-- `~TaskRunner`. -/
  | destroy
  /-- Time goes by. -/
  | tick (time : Nat)
  /-- `Process` returns. -/
  | processed (result : Option TaskState)
  /-- The runner goes on. -/
  | advance
  deriving DecidableEq

/-- What the application does with the tasks, while the runner is idle or in `Process`. -/
def apply (op : TaskOp) (r : TaskRunner) : TaskRunner :=
  match op with
  | .newTask parent => r.newTask parent
  | .start id => r.start id
  | .wake id => r.wake id
  | .error id => r.error id
  | .abort id => r.abort id
  | .setTimeoutSeconds seconds id => r.setTimeoutSeconds seconds id
  | .suspendTimeout suspend id => r.suspendTimeout suspend id
  | .resetTimeout id => r.resetTimeout id
  | .clearTimeout id => r.clearTimeout id
  | .runTasks => r.beginRun false
  | .destroy => r.abortAllChildren.beginRun true
  | _ => r

/-- The task that an operation is about exists; a new one gets a parent that exists and is not done. -/
def valid : TaskOp → Bool
  | .newTask none => true
  | .newTask (some parent) => (r.heap parent).any fun t => !t.done
  | .start id | .wake id | .error id | .abort id | .setTimeoutSeconds _ id | .suspendTimeout _ id
  | .resetTimeout id | .clearTimeout id => (r.heap id).isSome
  | .destroy => r.phase = .idle
  | _ => true

/-- One thing happens, if it can. -/
def step (op : TaskOp) : Option TaskRunner :=
  match op, r.phase with
  | .tick time, _ => some { r with now := r.now + time }
  | .advance, .looping pass => some (r.advance pass)
  | .advance, _ => none
  | .processed result, .processing pass id => some (r.processed pass id result)
  | .processed _, _ => none
  | _, .looping _ => none
  | op, _ => if r.valid op then some (r.apply op) else none

end TaskRunner

end Synciga
