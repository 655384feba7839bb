import Synciga.Internal.Runs
import Synciga.P2p.Session

/-!
# The timer of a session

A session (`talk/p2p/base/session.cc`) has one timer for all of its transports. When one begins to connect, or
its writability changes (`talk/p2p/base/transport.cc`), the timer is cleared, and started again if this
transport has channels and is not writable: one that becomes writable clears the timer that another one still
needs. And one that gets new channels is told to the session by a message, until which the timer is not started.

## Main results

* `guarded_run_iff` — when a transport that connects has the timer
-/

namespace Synciga.P2p

/-- `TRANSPORT_STATE_NONE` and so on. -/
inductive TransportState
  | none
  | some
  | all
  deriving DecidableEq, Repr

/-- The messages that a transport posts to itself about this. -/
inductive TransportMessage
  | connecting
  | writeState
  deriving DecidableEq, Repr

/-- A channel in the map of a transport, as far as its writability goes. -/
structure WritableChannel where
  component : ℤ
  writable : Bool := false
  ref : ℕ := 1

/-- `Transport`, as far as it tells its session about writability. -/
structure ConnectingTransport where
  channels : List WritableChannel := []
  connectRequested : Bool := false
  writableState : TransportState := .none
  wasWritable : Bool := false
  posted : List TransportMessage := []
  /-- A mark: `SignalConnecting` was emitted. -/
  connecting : Bool := false

namespace ConnectingTransport

/-- `Transport()`. -/
def create : ConnectingTransport := {}

variable (t : ConnectingTransport)

/-- `Transport::writable`. -/
def writable : Bool := t.writableState = .some ∨ t.writableState = .all

/-- `Transport::HasChannels`. -/
def hasChannels : Bool := !t.channels.isEmpty

variable (message : TransportMessage)

/-- A message is posted. -/
def post (t : ConnectingTransport) : ConnectingTransport :=
  { t with posted := t.posted ++ [message] }

variable (component : ℤ)

/-- Something is done with the channel of a component. -/
def modifyChannel (f : WritableChannel → WritableChannel) (t : ConnectingTransport) :
    ConnectingTransport :=
  { t with channels := t.channels.map fun e => if e.component = component then f e else e }

/-- `Transport::GetChannel`. -/
def getChannel (t : ConnectingTransport) : Option WritableChannel :=
  t.channels.find? (·.component = component)

/-- `CreateChannel_w`. -/
def createChannel (t : ConnectingTransport) : ConnectingTransport :=
  if (t.getChannel component).isSome then
    t.modifyChannel component fun e => { e with ref := e.ref + 1 }
  else
    let t := { t with channels := t.channels ++ [{ component }] }
    if t.connectRequested ∧ t.channels.length = 1 then t.post .connecting else t

/-- `DestroyChannel_w`. -/
def destroyChannel (t : ConnectingTransport) : ConnectingTransport :=
  match t.getChannel component with
  | .none => t
  | .some entry =>
    if entry.ref - 1 = 0 then
      let t := { t with channels := t.channels.filter (·.component ≠ component) }
      let t := if t.connectRequested ∧ t.channels = [] then t.post .connecting else t
      t.post .writeState
    else t.modifyChannel component fun e => { e with ref := e.ref - 1 }

/-- `ConnectChannels_w`. -/
def connectChannels : ConnectingTransport :=
  if t.connectRequested ∨ t.channels = [] then t
  else { t with connectRequested := true }.post .connecting

/-- `ResetChannels_w`. Each channel that was writable tells that it is not any more. -/
def resetChannels : ConnectingTransport :=
  { t with
    connectRequested := false
    channels := t.channels.map fun e => { e with writable := false }
    posted := t.posted ++ (t.channels.filter (·.writable)).map fun _ => .writeState }

/-- `set_writable` of a channel, and `OnChannelWritableState`. -/
def setWritable (writable : Bool) (t : ConnectingTransport) : ConnectingTransport :=
  match t.getChannel component with
  | .none => t
  | .some entry =>
    if entry.writable = writable then t
    else (t.modifyChannel component fun e => { e with writable }).post .writeState

/-- `GetTransportState_s`. -/
def getTransportState : TransportState :=
  if t.channels ≠ [] ∧ t.channels.all (·.writable) then .all
  else if t.channels.any (·.writable) then .some
  else .none

/-- `OnConnecting_s`. -/
def onConnecting : ConnectingTransport := { t with connecting := true }

/-- `OnChannelWritableState_s`. -/
def onChannelWritableState : ConnectingTransport :=
  let writable := t.getTransportState
  if t.writableState ≠ writable then
    { t with wasWritable := t.writableState = .all, writableState := writable }
  else t

/-- Whether the session gets a signal when a message is delivered. -/
def signals (t : ConnectingTransport) : Bool :=
  match message with
  | .connecting => true
  | .writeState => t.writableState ≠ t.getTransportState

/-- `Transport::OnMessage`. -/
def onMessage (t : ConnectingTransport) : ConnectingTransport :=
  let t := { t with posted := t.posted.erase message }
  match message with
  | .connecting => t.onConnecting
  | .writeState => t.onChannelWritableState

/-- Whether the transport is writable when it handles a message. -/
def writableAt (t : ConnectingTransport) : Bool :=
  match message with
  | .connecting => t.writable
  | .writeState => t.getTransportState ≠ .none

/-- Whether the signal of a message starts the timer again. -/
def startsTimer (t : ConnectingTransport) : Bool :=
  t.hasChannels && !t.writableAt message

/-- A transport has channels, has told that it connects, and is not writable. -/
def Waiting : Prop :=
  t.hasChannels = true ∧ t.connecting = true ∧ t.writable = false

end ConnectingTransport

/-- What is done to a transport, and what its channels do. -/
inductive ConnectingOp
  | createChannel (component : ℤ)
  | destroyChannel (component : ℤ)
  | connectChannels
  | resetChannels
  | setWritable (component : ℤ) (writable : Bool)
  deriving DecidableEq, Repr

/-- Something is done to a transport. -/
def ConnectingTransport.apply (t : ConnectingTransport) : ConnectingOp → ConnectingTransport
  | .createChannel component => t.createChannel component
  | .destroyChannel component => t.destroyChannel component
  | .connectChannels => t.connectChannels
  | .resetChannels => t.resetChannels
  | .setWritable component writable => t.setWritable component writable

/-- A session with its transports. -/
structure SessionTransports (D : Type) where
  session : Session D
  transports : List ConnectingTransport

/-- What happens to the transports of a session. -/
inductive SessionTransportsOp
  | createTransport
  | transport (place : ℕ) (op : ConnectingOp)
  | deliver (place : ℕ) (message : TransportMessage)
  deriving DecidableEq, Repr

namespace SessionTransports

variable {D : Type}

/-- A transport handles a message. Both signals go to `OnTransportWritable`. -/
def deliver (place : ℕ) (message : TransportMessage) (t : ConnectingTransport)
    (w : SessionTransports D) : SessionTransports D :=
  let t' := t.onMessage message
  { session :=
      if t.signals message then w.session.onTransportWritable t'.hasChannels t'.writable else w.session
    transports := w.transports.set place t' }

/-- A step. A message is delivered only if it is posted. -/
def step (w : SessionTransports D) : SessionTransportsOp → Option (SessionTransports D)
  | .createTransport => some { w with transports := w.transports ++ [.create] }
  | .transport place op =>
    w.transports[place]?.map fun t => { w with transports := w.transports.set place (t.apply op) }
  | .deliver place message =>
    w.transports[place]?.bind fun t =>
      if message ∈ t.posted then some (w.deliver place message t) else none

/-- The timer runs while a transport is waiting, and does not when all of them are writable. -/
structure Guarded (w : SessionTransports D) : Prop where
  pending : ∀ t ∈ w.transports, t.Waiting → .timeout ∈ w.session.posted
  cleared : (∀ t ∈ w.transports, t.writable = true) → .timeout ∉ w.session.posted

/-- A signal that does not start the timer again comes when no other transport is waiting. A
transport that is not writable, and has told that it connects, gets a first channel only while the
timer runs. -/
def Allows (w : SessionTransports D) : SessionTransportsOp → Prop
  | .createTransport => True
  | .transport place (.createChannel _) =>
    ∀ t, w.transports[place]? = some t → t.hasChannels = false → t.connecting = true →
      t.writable = false → .timeout ∈ w.session.posted
  | .transport _ _ => True
  | .deliver place message =>
    ∀ t, w.transports[place]? = some t → t.signals message = true → t.startsTimer message = false →
      ∀ other t', other ≠ place → w.transports[other]? = some t' → ¬t'.Waiting

end SessionTransports

namespace ConnectingTransport

variable {t : ConnectingTransport}

/-! ### What operations leave alone -/

theorem writable_eq (t : ConnectingTransport) : t.writable = decide (t.writableState ≠ .none) := by
  rw [writable]
  cases t.writableState <;> rfl

theorem hasChannels_modifyChannel (component : ℤ) (f : WritableChannel → WritableChannel)
    (t : ConnectingTransport) : (t.modifyChannel component f).hasChannels = t.hasChannels := by
  simp only [hasChannels, modifyChannel, List.isEmpty_map]

theorem hasChannels_createChannel (component : ℤ) (t : ConnectingTransport) :
    (t.createChannel component).hasChannels = true := by
  rw [createChannel]
  split
  · rename_i hfound
    obtain ⟨entry, hentry⟩ := Option.isSome_iff_exists.mp hfound
    rw [hasChannels_modifyChannel, hasChannels, List.isEmpty_eq_false_iff_exists_mem.mpr
      ⟨entry, List.mem_of_find?_eq_some hentry⟩]
    rfl
  · dsimp only
    split <;> simp [hasChannels, post]

theorem apply_frame (t : ConnectingTransport) (op : ConnectingOp) :
    (t.apply op).writableState = t.writableState ∧ (t.apply op).connecting = t.connecting := by
  cases op with
  | createChannel component =>
    simp only [apply, createChannel]
    split
    · exact ⟨rfl, rfl⟩
    · split <;> exact ⟨rfl, rfl⟩
  | destroyChannel component =>
    simp only [apply, destroyChannel]
    split
    · exact ⟨rfl, rfl⟩
    · split
      · split <;> exact ⟨rfl, rfl⟩
      · exact ⟨rfl, rfl⟩
  | connectChannels =>
    simp only [apply, connectChannels]
    split <;> exact ⟨rfl, rfl⟩
  | resetChannels => exact ⟨rfl, rfl⟩
  | setWritable component writable =>
    simp only [apply, setWritable]
    split
    · exact ⟨rfl, rfl⟩
    · split <;> exact ⟨rfl, rfl⟩

theorem writable_apply (t : ConnectingTransport) (op : ConnectingOp) :
    (t.apply op).writable = t.writable := by
  rw [writable_eq, writable_eq, (apply_frame t op).1]

theorem hasChannels_apply (t : ConnectingTransport) (op : ConnectingOp)
    (hop : ∀ component, op ≠ .createChannel component) (h : (t.apply op).hasChannels = true) :
    t.hasChannels = true := by
  cases op with
  | createChannel component => exact absurd rfl (hop component)
  | destroyChannel component =>
    simp only [apply, destroyChannel] at h
    split at h
    · exact h
    split at h
    · have hleft : t.channels.filter (·.component ≠ component) ≠ [] := by
        rw [hasChannels, Bool.not_eq_true', List.isEmpty_eq_false_iff] at h
        split at h <;> exact h
      rw [hasChannels, Bool.not_eq_true', List.isEmpty_eq_false_iff]
      rintro hempty
      rw [hempty] at hleft
      exact hleft rfl
    · rwa [hasChannels_modifyChannel] at h
  | connectChannels =>
    simp only [apply, connectChannels] at h
    split at h <;> exact h
  | resetChannels =>
    simp only [apply, resetChannels, hasChannels, List.isEmpty_map] at h
    exact h
  | setWritable component writable =>
    simp only [apply, setWritable] at h
    split at h
    · exact h
    · split at h
      · exact h
      · exact (hasChannels_modifyChannel component _ t).symm.trans h

theorem onMessage_channels (message : TransportMessage) (t : ConnectingTransport) :
    (t.onMessage message).channels = t.channels := by
  cases message with
  | connecting => rfl
  | writeState =>
    simp only [onMessage, onChannelWritableState]
    split <;> rfl

theorem hasChannels_onMessage (message : TransportMessage) (t : ConnectingTransport) :
    (t.onMessage message).hasChannels = t.hasChannels := by
  rw [hasChannels, hasChannels, onMessage_channels]

variable {message : TransportMessage}

theorem writable_onMessage (h : t.signals message = true) :
    (t.onMessage message).writable = t.writableAt message := by
  cases message with
  | connecting => rfl
  | writeState =>
    have hchanged : t.writableState ≠ t.getTransportState := of_decide_eq_true h
    have hstate : t.onMessage .writeState = { t with
          posted := t.posted.erase .writeState
          wasWritable := t.writableState = .all
          writableState := t.getTransportState } := if_pos hchanged
    rw [writable_eq, hstate]
    rfl

theorem startsTimer_eq (h : t.signals message = true) :
    t.startsTimer message = ((t.onMessage message).hasChannels && !(t.onMessage message).writable) := by
  rw [startsTimer, hasChannels_onMessage, writable_onMessage h]

theorem onMessage_eq (h : t.signals message = false) :
    t.onMessage message = { t with posted := t.posted.erase message } := by
  cases message with
  | connecting => cases h
  | writeState =>
    have hsame : ¬t.writableState ≠ t.getTransportState := of_decide_eq_false h
    exact if_neg hsame

end ConnectingTransport

theorem Session.timeout_mem_onTransportWritable {D : Type} (hasChannels writable : Bool)
    (s : Session D) : .timeout ∈ (s.onTransportWritable hasChannels writable).posted ↔
      (hasChannels && !writable) = true := by
  have hclear : Posted.timeout ∉ s.posted.filter (· ≠ .timeout) := by
    simp only [List.mem_filter, ne_eq, not_true_eq_false, decide_false, Bool.false_eq_true, and_false,
      not_false_eq_true]
  rw [onTransportWritable]
  split
  · rename_i hstarts
    exact iff_of_true (List.mem_append_right _ List.mem_cons_self) hstarts
  · rename_i hstarts
    exact iff_of_false hclear hstarts

namespace SessionTransports

variable {D : Type} {w w' : SessionTransports D} {place : ℕ} {t t' : ConnectingTransport}

/-! ### Steps -/

theorem forall_mem_set_iff {l : List ConnectingTransport} (h : l[place]? = some t)
    {P : ConnectingTransport → Prop} :
    (∀ x ∈ l.set place t', P x) ↔ P t' ∧ ∀ other x, other ≠ place → l[other]? = some x → P x := by
  obtain ⟨hlt, -⟩ := List.getElem?_eq_some_iff.mp h
  constructor
  · intro hall
    refine ⟨hall t' (List.mem_set hlt t'), fun other x hne hx => hall x ?_⟩
    exact List.mem_of_getElem? ((List.getElem?_set_ne hne.symm).trans hx)
  rintro ⟨hnew, hothers⟩ x hx
  obtain ⟨other, hother⟩ := List.mem_iff_getElem?.mp hx
  by_cases hne : other = place
  · subst hne
    rw [List.getElem?_set_self hlt] at hother
    cases hother
    exact hnew
  · exact hothers other x hne ((List.getElem?_set_ne (Ne.symm hne)).symm.trans hother)

theorem forall_mem_iff {l : List ConnectingTransport} (h : l[place]? = some t)
    {P : ConnectingTransport → Prop} :
    (∀ x ∈ l, P x) ↔ P t ∧ ∀ other x, other ≠ place → l[other]? = some x → P x := by
  obtain ⟨hlt, heq⟩ := List.getElem?_eq_some_iff.mp h
  have hself : l.set place t = l := by rw [← heq, List.set_getElem_self]
  have hset : (∀ x ∈ l.set place t, P x) ↔ _ := forall_mem_set_iff h
  rwa [hself] at hset

/-- If the timer does not run when all are writable, it does not after a message either: the last
signal came from one of them. -/
theorem cleared_deliver (hcleared : (∀ t ∈ w.transports, t.writable = true) → .timeout ∉ w.session.posted)
    (hplace : w.transports[place]? = some t) (message : TransportMessage)
    (hall : ∀ t' ∈ (w.deliver place message t).transports, t'.writable = true) :
    .timeout ∉ (w.deliver place message t).session.posted := by
  obtain ⟨hself, hothers⟩ := (forall_mem_set_iff hplace).mp hall
  rw [deliver]
  cases hsignals : t.signals message with
  | true =>
    rw [if_pos rfl, Session.timeout_mem_onTransportWritable, hself, Bool.not_true, Bool.and_false]
    exact Bool.false_ne_true
  | false =>
    rw [ConnectingTransport.onMessage_eq hsignals] at hself
    exact hcleared ((forall_mem_iff hplace).mpr ⟨hself, hothers⟩)

theorem cleared_step (hcleared : (∀ t ∈ w.transports, t.writable = true) → .timeout ∉ w.session.posted)
    {op : SessionTransportsOp} (hstep : w.step op = some w')
    (hall : ∀ t ∈ w'.transports, t.writable = true) : .timeout ∉ w'.session.posted := by
  cases op with
  | createTransport =>
    cases hstep
    exact absurd (hall .create (List.mem_append_right _ List.mem_cons_self)) Bool.false_ne_true
  | transport place op =>
    obtain ⟨t, ht, rfl⟩ := Option.map_eq_some_iff.mp hstep
    obtain ⟨hself, hothers⟩ := (forall_mem_set_iff ht).mp hall
    rw [ConnectingTransport.writable_apply] at hself
    exact hcleared ((forall_mem_iff ht).mpr ⟨hself, hothers⟩)
  | deliver place message =>
    obtain ⟨t, ht, hrest⟩ := Option.bind_eq_some_iff.mp hstep
    obtain ⟨-, rfl⟩ := Runs.of_guard hrest
    exact cleared_deliver hcleared ht message hall

theorem pending_createTransport (h : w.Guarded) :
    ∀ t ∈ w.transports ++ [.create], t.Waiting → .timeout ∈ w.session.posted := by
  intro t ht hwaiting
  rcases List.mem_append.mp ht with hold | hnew
  · exact h.pending t hold hwaiting
  · obtain rfl := List.mem_singleton.mp hnew
    exact absurd hwaiting.1 Bool.false_ne_true

/-- An operation of a transport leaves the timer right if and only if this transport does not wait
without it. -/
theorem pending_apply_iff (h : w.Guarded) (hplace : w.transports[place]? = some t) (op : ConnectingOp) :
    (∀ x ∈ w.transports.set place (t.apply op), x.Waiting → .timeout ∈ w.session.posted) ↔
      ((t.apply op).Waiting → .timeout ∈ w.session.posted) := by
  obtain ⟨-, hothers⟩ := (forall_mem_iff hplace).mp h.pending
  rw [forall_mem_set_iff hplace]
  exact and_iff_left hothers

theorem pending_operation_iff (h : w.Guarded) (hplace : w.transports[place]? = some t) (op : ConnectingOp) :
    ((t.apply op).Waiting → .timeout ∈ w.session.posted) ↔ w.Allows (.transport place op) := by
  have hold : t.Waiting → .timeout ∈ w.session.posted := h.pending t (List.mem_of_getElem? hplace)
  obtain ⟨-, hconnecting⟩ := ConnectingTransport.apply_frame t op
  have hwritable := ConnectingTransport.writable_apply t op
  by_cases hop : ∃ component, op = .createChannel component
  · obtain ⟨component, rfl⟩ := hop
    have hchannels := ConnectingTransport.hasChannels_createChannel component t
    constructor
    · intro hafter t' ht' _ hconn hw
      cases hplace.symm.trans ht'
      exact hafter ⟨hchannels, hconnecting.trans hconn, hwritable.trans hw⟩
    rintro hallows ⟨-, hconn, hw⟩
    rw [hconnecting] at hconn
    rw [hwritable] at hw
    cases hempty : t.hasChannels with
    | true => exact hold ⟨hempty, hconn, hw⟩
    | false => exact hallows t hplace hempty hconn hw
  have hallows : w.Allows (.transport place op) := by
    cases op with
    | createChannel component => exact absurd ⟨component, rfl⟩ hop
    | destroyChannel _ => trivial
    | connectChannels => trivial
    | resetChannels => trivial
    | setWritable _ _ => trivial
  refine iff_of_true ?_ hallows
  rintro ⟨hchannels, hconn, hw⟩
  have hbefore := t.hasChannels_apply op (fun component heq => hop ⟨component, heq⟩) hchannels
  exact hold ⟨hbefore, hconnecting ▸ hconn, hwritable ▸ hw⟩

/-- A signal leaves the timer right if and only if it starts the timer, or no other transport waits.
-/
theorem pending_deliver_iff (h : w.Guarded) (hplace : w.transports[place]? = some t)
    (message : TransportMessage) :
    (∀ x ∈ (w.deliver place message t).transports,
        x.Waiting → .timeout ∈ (w.deliver place message t).session.posted) ↔
      (t.signals message = true → t.startsTimer message = false →
        ∀ other t', other ≠ place → w.transports[other]? = some t' → ¬t'.Waiting) := by
  have hset : (w.deliver place message t).transports = w.transports.set place (t.onMessage message) := rfl
  rw [hset, forall_mem_set_iff hplace]
  cases hsignals : t.signals message with
  | false =>
    have hsession : (w.deliver place message t).session = w.session := by
      rw [deliver, hsignals]
      rfl
    have hbefore := (forall_mem_iff hplace).mp h.pending
    rw [hsession, ConnectingTransport.onMessage_eq hsignals]
    exact iff_of_true hbefore fun hfalse => by cases hfalse
  | true =>
    have htimer : .timeout ∈ (w.deliver place message t).session.posted ↔ t.startsTimer message = true := by
      rw [deliver, hsignals, if_pos rfl, Session.timeout_mem_onTransportWritable,
        ConnectingTransport.startsTimer_eq hsignals]
    rw [htimer]
    constructor
    · rintro ⟨-, hothers⟩ _ hstarts other t' hne ht' hwaiting
      have hrunning := hothers other t' hne ht' hwaiting
      rw [hstarts] at hrunning
      cases hrunning
    intro hallows
    refine ⟨?_, ?_⟩
    · rintro ⟨hchannels, -, hwritable⟩
      rw [ConnectingTransport.startsTimer_eq hsignals, hchannels, hwritable]
      rfl
    · intro other t' hne ht' hwaiting
      cases hstarts : t.startsTimer message with
      | true => rfl
      | false => exact absurd hwaiting (hallows rfl hstarts other t' hne ht')

theorem Guarded.step_iff (h : w.Guarded) {op : SessionTransportsOp} (hstep : w.step op = some w') :
    w'.Guarded ↔ w.Allows op := by
  have hguarded : w'.Guarded ↔ ∀ t ∈ w'.transports, t.Waiting → .timeout ∈ w'.session.posted :=
    ⟨Guarded.pending, fun hpending => ⟨hpending, cleared_step h.cleared hstep⟩⟩
  rw [hguarded]
  cases op with
  | createTransport =>
    cases hstep
    exact iff_of_true (pending_createTransport h) trivial
  | transport place op =>
    obtain ⟨t, ht, rfl⟩ := Option.map_eq_some_iff.mp hstep
    exact (pending_apply_iff h ht op).trans (pending_operation_iff h ht op)
  | deliver place message =>
    obtain ⟨t, ht, hrest⟩ := Option.bind_eq_some_iff.mp hstep
    obtain ⟨-, rfl⟩ := Runs.of_guard hrest
    rw [pending_deliver_iff h ht]
    constructor
    · intro hallows t' ht'
      cases ht.symm.trans ht'
      exact hallows
    · exact fun hallows => hallows t ht

/-! ### Runs -/

theorem guarded_nil {s : Session D} (hs : .timeout ∉ s.posted) : Guarded ⟨s, []⟩ :=
  ⟨fun _ ht => absurd ht List.not_mem_nil, fun _ => hs⟩

/-- **The timer watches the transports.** In all states of a run the timer runs while a transport is waiting,
and does not when all are writable, if and only if every step of the run is allowed. -/
theorem guarded_run_iff (s : Session D) (hs : .timeout ∉ s.posted) (ops : List SessionTransportsOp)
    (w : SessionTransports D) (hrun : Runs.run step ⟨s, []⟩ ops = some w) :
    (∀ pre suf t, ops = pre ++ suf → Runs.run step ⟨s, []⟩ pre = some t → t.Guarded) ↔
      Runs.Admissible step Allows ⟨s, []⟩ ops :=
  (Runs.admissible_iff_states (I := fun _ => True) (fun _ _ _ _ _ => trivial)
    (fun _ _ _ _ h hstep => h.step_iff hstep) trivial (guarded_nil hs) hrun).symm

/-- A session without transports. -/
def fresh : SessionTransports Unit := ⟨.create "alice" "alice" "1", []⟩

/-- A transport gets a channel and connects. -/
def connects (place : ℕ) : List SessionTransportsOp :=
  [.createTransport, .transport place (.createChannel 1), .transport place .connectChannels,
    .deliver place .connecting]

/-- The timer runs for a transport that connects. -/
theorem guarded_run_connects : ∃ w, Runs.run step fresh (connects 0) = some w ∧ w.Guarded := by
  have hrun : Runs.run step fresh (connects 0) = some _ := rfl
  have hops : Runs.Admissible step Allows fresh (connects 0) := by
    refine ⟨trivial, fun w hw => ?_⟩
    cases hw
    refine ⟨fun t ht _ hconnecting => ?_, fun w hw => ?_⟩
    · cases ht
      cases hconnecting
    cases hw
    refine ⟨trivial, fun w hw => ?_⟩
    cases hw
    refine ⟨fun t ht _ hstarts => ?_, fun w hw => trivial⟩
    cases ht
    cases hstarts
  exact ⟨_, hrun, (guarded_run_iff _ List.not_mem_nil _ _ hrun).mpr hops _ [] _
    (List.append_nil _).symm hrun⟩

/-- Two transports connect, and the first one becomes writable. -/
def race : List SessionTransportsOp :=
  connects 0 ++ connects 1 ++ [.transport 0 (.setWritable 1 true), .deliver 0 .writeState]

/-- The second transport is waiting, and the timer does not run. -/
theorem not_guarded_race : ∃ w, Runs.run step fresh race = some w ∧ ¬w.Guarded ∧
    (∃ t ∈ w.transports, t.Waiting) ∧ .timeout ∉ w.session.posted := by
  have hrun : Runs.run step fresh race = some _ := rfl
  have hwaiting : ∃ t, (Runs.run step fresh race).bind (·.transports[1]?) = some t ∧ t.Waiting :=
    ⟨_, rfl, rfl, rfl, rfl⟩
  obtain ⟨t, ht, hwaiting⟩ := hwaiting
  have hmem := List.mem_of_getElem? ht
  have hidle : Posted.timeout ∉ ([] : List Posted) := List.not_mem_nil
  exact ⟨_, hrun, fun h => hidle (h.pending t hmem hwaiting), ⟨t, hmem, hwaiting⟩, hidle⟩

end SessionTransports

end Synciga.P2p
