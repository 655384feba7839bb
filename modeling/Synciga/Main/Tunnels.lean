import Synciga.Internal.Runs
import Synciga.Main.CustomXmppPump

/-!
# The pump and its streams

A run of the pump is a sequence of calls: of `ProcessStream`, of `OnIncomingTunnel`, and of `OnStreamEvent` by a
stream that is connected and not closed. Streams are new when `ProcessStream` gets them, and numbered in that
order. `file_`, the busy flag of the server, is meant to say whether a transfer is active.

## Main results

* `file_iff_active_of_run` — it does, as long as no call of `ProcessStream` returns `false`
* `released_iff_of_run` — when file and stream are released
* `not_released_after_open_error` — the exits that leave both
-/

namespace Synciga

open CustomXmppPump

/-! ### The system -/

/-- A `MSG_DONE` posted by `Cleanup`: its stream, whether it is delayed, the exit, and the bytes that were read
and accepted until then. -/
structure Post where
  stream : ℕ
  delay : Bool
  exit : Exit
  taken : List UInt8
  sent : List UInt8
  deriving DecidableEq, Repr

/-- The pump and its streams, by their numbers: those it connected to, those for which `ProcessStream` returned
`true` and `false`, those that were to be closed by a handler, and those on which `Close` was called. -/
structure Tunnels where
  pump : CustomXmppPump
  count : ℕ
  connected : List ℕ
  started : List ℕ
  refused : List ℕ
  ended : List ℕ
  closed : List ℕ
  posts : List Post
  failures : ℕ
  sent : ℕ → List UInt8
  faulted : Bool

namespace Tunnels

/-- A new pump. -/
def new (server : Bool) : Tunnels :=
  ⟨.new server, 0, [], [], [], [], [], [], 0, fun _ => [], false⟩

variable (w : Tunnels)

/-- The effect of a call of `OnStreamEvent`. -/
def handle (s : ℕ) (h : Handled) : Tunnels :=
  { w with
    pump := h.pump
    ended := if h.exit.terminating then s :: w.ended else w.ended
    closed := if h.actions.close then s :: w.closed else w.closed
    posts := w.posts ++
      (h.actions.post.map fun delay => ⟨s, delay, h.exit, h.taken, w.sent s ++ h.sent⟩).toList
    sent := Function.update w.sent s (w.sent s ++ h.sent)
    faulted := h.exit = .fault }

/-- The effect of a call of `ProcessStream` on a new stream, up to the handler. -/
def enlist (r : Processed) : Tunnels :=
  { w with
    pump := r.pump
    count := w.count + 1
    connected := if r.connected then w.count :: w.connected else w.connected
    started := if r.returned then w.count :: w.started else w.started
    refused := if r.returned then w.refused else w.count :: w.refused }

/-- The effect of a call of `ProcessStream` on a new stream. -/
def process (r : Processed) : Tunnels :=
  match r.handled with
  | none => w.enlist r
  | some h => (w.enlist r).handle w.count h

/-- A call. -/
inductive Signal
  | processStream (send : Bool) (openError : Option ℤ) (state : StreamState) (io : List Io)
  | incomingTunnel (description : List Char) (openError : Option ℤ) (state : StreamState)
    (io : List Io)
  | streamEvent (s : ℕ) (events : StreamEvents) (error : ℤ) (io : List Io)
  deriving DecidableEq, Repr

/-- The effect of a call, if it is possible. -/
def step (signal : Signal) : Option Tunnels :=
  if w.faulted then none
  else match signal with
    | .processStream send openError state io =>
      (w.pump.processStream send openError state io).map w.process
    | .incomingTunnel description openError state io =>
      (w.pump.onIncomingTunnel description openError state io).map fun
        | none => w
        | some (r, post) => { w.process r with failures := w.failures + post.toNat }
    | .streamEvent s events error io =>
      if s ∈ w.connected ∧ s ∉ w.closed then
        (w.pump.onStreamEvent events error io).map (w.handle s)
      else none

/-- A transfer is active between the call of `ProcessStream` that returned `true` and `Cleanup`. -/
def Active (s : ℕ) : Prop := s ∈ w.started ∧ s ∉ w.closed

/-- The streams that `ProcessStream` refused and those whose handler was told that the transfer ends
are closed. -/
def Released : Prop := ∀ s, s ∈ w.refused ∨ s ∈ w.ended → s ∈ w.closed

/-! ### The calls of `ProcessStream` -/

/-- The error of `Open` and the state of the stream in the call of `ProcessStream` that a signal
makes, if it makes one. -/
def processed : Signal → Option (Option ℤ × StreamState)
  | .processStream _ openError state _ => some (openError, state)
  | .incomingTunnel description openError state _ =>
    (w.pump.accepts description).map fun _ => (openError, state)
  | .streamEvent .. => none

/-- If the signal calls `ProcessStream`, the file can be opened and the stream is not closed. -/
def Establishes (signal : Signal) : Prop :=
  ∀ c ∈ w.processed signal, c.1 = none ∧ c.2 ≠ .closed

/-- The assertion at the beginning of `ProcessStream`, where the program makes the call. -/
def Asserted : Signal → Prop
  | .processStream .. => w.pump.file = none
  | _ => True

variable {w w' : Tunnels} {signal : Signal}

theorem step_cases (h : w.step signal = some w') :
    (∃ send openError state io r failures, w.processed signal = some (openError, state) ∧
        w.pump.processStream send openError state io = some r ∧
        w' = { w.process r with failures := failures }) ∨
      (∃ description openError state io, signal = .incomingTunnel description openError state io ∧
        w.pump.accepts description = none ∧ w' = w) ∨
      ∃ s events error io r, signal = .streamEvent s events error io ∧ s ∈ w.connected ∧
        s ∉ w.closed ∧ w.pump.onStreamEvent events error io = some r ∧ w' = w.handle s r := by
  unfold step at h
  split at h
  · cases h
  split at h
  · next send openError state io =>
    obtain ⟨r, hr, rfl⟩ := Option.map_eq_some_iff.mp h
    exact .inl ⟨send, openError, state, io, r, _, rfl, hr, rfl⟩
  · next description openError state io =>
    obtain ⟨r, hr, rfl⟩ := Option.map_eq_some_iff.mp h
    rw [onIncomingTunnel] at hr
    split at hr
    · obtain ⟨-, hr⟩ := Option.ite_none_right_eq_some.mp hr
      cases hr
      exact .inr (.inl ⟨description, openError, state, io, rfl, ‹_›, rfl⟩)
    · next send filename haccepts =>
      obtain ⟨r', hr', rfl⟩ := Option.map_eq_some_iff.mp hr
      refine .inl ⟨send, openError, state, io, r', _, ?_, hr', rfl⟩
      rw [processed, haccepts]
      rfl
  · next s events error io =>
    obtain ⟨⟨hconnected, hclosed⟩, h⟩ := Option.ite_none_right_eq_some.mp h
    obtain ⟨r, hr, rfl⟩ := Option.map_eq_some_iff.mp h
    exact .inr (.inr ⟨s, events, error, io, r, rfl, hconnected, hclosed, hr, rfl⟩)

theorem file_eq_none_of_processed {c : Option ℤ × StreamState} (hc : w.processed signal = some c)
    (hassert : w.Asserted signal) : w.pump.file = none := by
  cases signal with
  | processStream send openError state io => exact hassert
  | incomingTunnel description openError state io =>
    obtain ⟨a, ha, -⟩ := Option.map_eq_some_iff.mp hc
    rw [accepts] at ha
    split at ha
    · cases ha
    · next hfree =>
      by_contra hfile
      exact hfree (.inr hfile)
  | streamEvent s events error io => cases hc

/-! ### The effect of a handler -/

variable {p : CustomXmppPump} {r : Handled} {s : ℕ}

theorem closed_handle_of_stays (w : Tunnels) (h : Stays p r) : (w.handle s r).closed = w.closed := by
  rw [handle, h.actions]
  rfl

theorem closed_handle_of_leaves (w : Tunnels) (h : Leaves p r) : (w.handle s r).closed = s :: w.closed := by
  rw [handle, h.actions]
  rfl

/-! ### `file_` as a busy flag -/

/-- `file_` is set exactly while a transfer is active, and there is at most one. -/
structure Tidy (w : Tunnels) : Prop where
  file : w.pump.file.isSome ↔ ∃ s, w.Active s
  unique : ∀ s t, w.Active s → w.Active t → s = t
  connected : ∀ s ∈ w.connected, s ∈ w.started
  started_lt : ∀ s ∈ w.started, s < w.count
  closed_lt : ∀ s ∈ w.closed, s < w.count

theorem tidy_new (server : Bool) : (new server).Tidy := by
  refine ⟨⟨fun h => ?_, fun h => ?_⟩, fun s _ hs => ?_, fun _ hs => ?_, fun _ hs => ?_,
    fun _ hs => ?_⟩
  · cases h
  · obtain ⟨s, hs, -⟩ := h
    cases hs
  · cases hs.1
  · cases hs
  · cases hs
  · cases hs

theorem Tidy.handle (h : w.Tidy) (hs : w.Active s) {events : StreamEvents} {error : ℤ}
    {io : List Io} (hr : w.pump.onStreamEvent events error io = some r) :
    (w.handle s r).Tidy := by
  rcases onStreamEvent_cases hr (h.file.mpr ⟨s, hs⟩) with hstays | hleaves
  · have hclosed := w.closed_handle_of_stays (s := s) hstays
    have hactive : ∀ t, (w.handle s r).Active t ↔ w.Active t := by
      intro t
      rw [Active, hclosed]
      rfl
    refine ⟨?_, fun t u ht hu => h.unique t u ((hactive t).mp ht) ((hactive u).mp hu), h.connected,
      h.started_lt, fun t ht => h.closed_lt t (hclosed ▸ ht)⟩
    simp only [hactive]
    rw [← h.file]
    exact iff_of_eq (congrArg (· = true) hstays.file)
  have hclosed := w.closed_handle_of_leaves (s := s) hleaves
  -- The stream was the only active one.
  have hnone : ∀ t, ¬ (w.handle s r).Active t := by
    rintro t ⟨hstarted, hopen⟩
    rw [hclosed] at hopen
    have hactive : w.Active t := ⟨hstarted, fun ht => hopen (List.mem_cons_of_mem s ht)⟩
    exact hopen (h.unique t s hactive hs ▸ List.mem_cons_self)
  refine ⟨⟨fun hfile => ?_, fun ⟨t, ht⟩ => absurd ht (hnone t)⟩,
    fun t _ ht => absurd ht (hnone t), h.connected, h.started_lt, fun t ht => ?_⟩
  · change r.pump.file.isSome = true at hfile
    rw [hleaves.file] at hfile
    cases hfile
  · rw [hclosed] at ht
    rcases List.mem_cons.mp ht with rfl | ht
    · exact h.started_lt _ hs.1
    · exact h.closed_lt t ht

theorem Tidy.enlist (h : w.Tidy) (hfile : w.pump.file = none) (send : Bool) :
    (w.enlist ⟨w.pump.prepare send, true, true, none⟩).Tidy := by
  have hidle : ∀ s, ¬ w.Active s := by
    intro s hs
    have := h.file.mpr ⟨s, hs⟩
    rw [hfile] at this
    cases this
  have hactive : ∀ s,
      (w.enlist ⟨w.pump.prepare send, true, true, none⟩).Active s ↔ s = w.count := by
    intro s
    refine ⟨fun ⟨hstarted, hopen⟩ => ?_, fun hs => ⟨hs ▸ List.mem_cons_self, fun hclosed => ?_⟩⟩
    · rcases List.mem_cons.mp hstarted with hs | hs
      · exact hs
      · exact absurd ⟨hs, hopen⟩ (hidle s)
    · exact absurd (h.closed_lt s hclosed) (by omega)
  refine ⟨⟨fun _ => ⟨w.count, (hactive _).mpr rfl⟩, fun _ => rfl⟩, fun s t hs ht => ?_,
    fun s hs => ?_, fun s hs => ?_, fun s hs => Nat.lt_succ_of_lt (h.closed_lt s hs)⟩
  · rw [(hactive s).mp hs, (hactive t).mp ht]
  · rcases List.mem_cons.mp hs with rfl | hs
    · exact List.mem_cons_self
    · exact List.mem_cons_of_mem _ (h.connected s hs)
  · rcases List.mem_cons.mp hs with rfl | hs
    · exact Nat.lt_succ_self _
    · exact Nat.lt_succ_of_lt (h.started_lt s hs)

theorem tidy_step (h : w.Tidy) (hok : w.Establishes signal ∧ w.Asserted signal)
    (hstep : w.step signal = some w') : w'.Tidy := by
  rcases step_cases hstep with ⟨send, openError, state, io, r, failures, hc, hr, rfl⟩ |
    ⟨_, _, _, _, -, -, rfl⟩ | ⟨s, events, error, io, r, rfl, hconnected, hclosed, hr, rfl⟩
  · have hfile := file_eq_none_of_processed hc hok.2
    obtain ⟨hopen, hstate⟩ := hok.1 _ hc
    have henlist := h.enlist hfile send
    rcases processStream_cases hr with ⟨hbad, -⟩ | ⟨-, -, rfl⟩ | ⟨-, -, r', hr', rfl⟩
    · rcases hbad with hbad | hbad
      · exact absurd hopen hbad
      · exact absurd hbad hstate
    · exact ⟨henlist.file, henlist.unique, henlist.connected, henlist.started_lt, henlist.closed_lt⟩
    · have hactive : (w.enlist ⟨w.pump.prepare send, true, true, none⟩).Active w.count :=
        ⟨List.mem_cons_self, fun hmem => Nat.lt_irrefl _ (h.closed_lt _ hmem)⟩
      have hhandle := henlist.handle hactive hr'
      exact ⟨hhandle.file, hhandle.unique, hhandle.connected, hhandle.started_lt,
        hhandle.closed_lt⟩
  · exact h
  · exact h.handle ⟨h.connected s hconnected, hclosed⟩ hr

/-- **The busy flag.** In every run in which the program calls `ProcessStream` only while `file_` is `NULL`,
every file opens and no stream is closed when it is handed over, `file_` is set exactly while a transfer is
active. -/
theorem file_iff_active_of_run (server : Bool) (signals : List Signal) (w : Tunnels)
    (hrun : Runs.run step (new server) signals = some w)
    (hok : Runs.Admissible step (fun w signal => w.Establishes signal ∧ w.Asserted signal)
      (new server) signals) :
    w.pump.file ≠ none ↔ ∃ s, w.Active s := by
  have htidy : w.Tidy := Runs.invariant (fun _ _ _ => tidy_step) (tidy_new server) hok hrun
  rw [← htidy.file, Option.isSome_iff_ne_none]

instance (w : Tunnels) (signal : Signal) : Decidable (w.Establishes signal) :=
  match h : w.processed signal with
  | none => .isTrue fun c hc => by rw [h] at hc; cases hc
  | some c => decidable_of_iff (c.1 = none ∧ c.2 ≠ .closed)
      ⟨fun hc c' hc' => by rw [h] at hc'; cases hc'; exact hc, fun hall => hall c h⟩

instance (w : Tunnels) : (signal : Signal) → Decidable (w.Asserted signal)
  | .processStream .. => inferInstanceAs (Decidable (w.pump.file = none))
  | .incomingTunnel .. => .isTrue trivial
  | .streamEvent .. => .isTrue trivial

/-- A server receives a file of three bytes, and then accepts the next tunnel. -/
def receivingRun : List Signal :=
  [.incomingTunnel ['r', 'e', 'c', 'v', ':', 'a'] none .opening [],
    .streamEvent 0 ⟨true, true, true, false⟩ 0
      [.streamRead (.success [1, 2, 3]), .streamRead .block, .fileWrite (.success 2),
        .fileWrite (.success 1), .streamRead .block],
    .streamEvent 0 ⟨false, false, false, true⟩ 0 [],
    .incomingTunnel ['r', 'e', 'c', 'v', ':', 'b'] none .opening []]

theorem file_iff_active_of_receivingRun :
    ∃ w : Tunnels, Runs.run step (new true) receivingRun = some w ∧ w.started = [1, 0] ∧
      w.closed = [0] ∧ (w.pump.file ≠ none ↔ ∃ s, w.Active s) := by
  have hend : (Runs.run step (new true) receivingRun).map (fun w => (w.started, w.closed)) =
      some ([1, 0], [0]) := by decide +kernel
  obtain ⟨w, hw, heq⟩ := Option.map_eq_some_iff.mp hend
  obtain ⟨hstarted, hclosed⟩ := Prod.mk.inj heq
  exact ⟨w, hw, hstarted, hclosed, file_iff_active_of_run true receivingRun w hw
    (by decide +kernel)⟩

/-- A file that cannot be opened leaves `file_` set, and no transfer is active. -/
theorem not_file_iff_active_after_open_error : ¬ ∀ (server : Bool) (signals : List Signal) (w : Tunnels),
      Runs.run step (new server) signals = some w → (w.pump.file ≠ none ↔ ∃ s, w.Active s) := by
  intro h
  have hend : (Runs.run step (new false) [.processStream true (some 2) .opening []]).map
      (fun w => (w.pump.file, w.started)) = some (some ⟨[], []⟩, []) := by decide
  obtain ⟨w, hw, heq⟩ := Option.map_eq_some_iff.mp hend
  obtain ⟨hfile, hstarted⟩ := Prod.mk.inj heq
  obtain ⟨s, hs, -⟩ := (h _ _ w hw).mp (by rw [hfile]; exact Option.some_ne_none _)
  rw [hstarted] at hs
  cases hs

/-! ### Releasing the streams -/

/-- Streams are numbered in order, only connected ones are closed, and every one that was to be closed by a
handler is. -/
structure Numbered (w : Tunnels) : Prop where
  connected_lt : ∀ s ∈ w.connected, s < w.count
  closed_connected : ∀ s ∈ w.closed, s ∈ w.connected
  ended_closed : ∀ s ∈ w.ended, s ∈ w.closed

theorem numbered_new (server : Bool) : (new server).Numbered := by
  refine ⟨fun _ hs => ?_, fun _ hs => ?_, fun _ hs => ?_⟩
  · cases hs
  · cases hs
  · cases hs

theorem close_of_terminating (hends : Ends p r)
    (hexit : r.exit.terminating = true) : r.actions.close = true := by
  rcases hends with hstays | hleaves | ⟨-, hfault, -⟩
  · rw [hstays.terminating] at hexit
    cases hexit
  · rw [hleaves.actions]
  · rw [hfault] at hexit
    cases hexit

theorem Numbered.handle (h : w.Numbered) (hs : s ∈ w.connected)
    (hends : Ends p r) : (w.handle s r).Numbered := by
  have hclosed : ∀ t ∈ w.closed, t ∈ (w.handle s r).closed := by
    intro t ht
    rw [Tunnels.handle]
    dsimp only
    split
    · exact List.mem_cons_of_mem s ht
    · exact ht
  refine ⟨h.connected_lt, fun t ht => ?_, fun t ht => ?_⟩
  · rw [Tunnels.handle] at ht
    dsimp only at ht
    split at ht
    · rcases List.mem_cons.mp ht with rfl | ht
      · exact hs
      · exact h.closed_connected t ht
    · exact h.closed_connected t ht
  rw [Tunnels.handle] at ht
  split at ht
  · next hexit =>
    rcases List.mem_cons.mp ht with rfl | ht
    · rw [Tunnels.handle]
      rw [if_pos (close_of_terminating hends hexit)]
      exact List.mem_cons_self
    · exact hclosed t (h.ended_closed t ht)
  · exact hclosed t (h.ended_closed t ht)

theorem Numbered.enlist (h : w.Numbered) (r : Processed) : (w.enlist r).Numbered := by
  have hconnected : ∀ s ∈ w.connected, s ∈ (w.enlist r).connected := by
    intro s hs
    rw [Tunnels.enlist]
    split
    · exact List.mem_cons_of_mem _ hs
    · exact hs
  refine ⟨fun s hs => ?_, fun s hs => hconnected s (h.closed_connected s hs), h.ended_closed⟩
  rw [Tunnels.enlist] at hs ⊢
  split at hs
  · rcases List.mem_cons.mp hs with rfl | hs
    · exact Nat.lt_succ_self _
    · exact Nat.lt_succ_of_lt (h.connected_lt s hs)
  · exact Nat.lt_succ_of_lt (h.connected_lt s hs)

theorem numbered_step (h : w.Numbered) (hstep : w.step signal = some w') : w'.Numbered := by
  rcases step_cases hstep with ⟨send, openError, state, io, r, failures, -, hr, rfl⟩ |
    ⟨_, _, _, _, -, -, rfl⟩ | ⟨s, events, error, io, r, rfl, hconnected, hclosed, hr, rfl⟩
  · have hprocess : (w.process r).Numbered := by
      rcases processStream_cases hr with ⟨-, rfl⟩ | ⟨-, -, rfl⟩ | ⟨-, -, r', hr', rfl⟩
      · exact h.enlist _
      · exact h.enlist _
      · exact (h.enlist _).handle List.mem_cons_self (onStreamEvent_ends hr')
    exact ⟨hprocess.connected_lt, hprocess.closed_connected, hprocess.ended_closed⟩
  · exact h
  · exact h.handle hconnected (onStreamEvent_ends hr)

theorem refused_step (h : w.refused = []) (hok : w.Establishes signal)
    (hstep : w.step signal = some w') : w'.refused = [] := by
  rcases step_cases hstep with ⟨send, openError, state, io, r, failures, hc, hr, rfl⟩ |
    ⟨_, _, _, _, -, -, rfl⟩ | ⟨s, events, error, io, r, rfl, hconnected, hclosed, hr, rfl⟩
  · obtain ⟨hopen, hstate⟩ := hok _ hc
    rcases processStream_cases hr with ⟨hbad, -⟩ | ⟨-, -, rfl⟩ | ⟨-, -, r', hr', rfl⟩
    · rcases hbad with hbad | hbad
      · exact absurd hopen hbad
      · exact absurd hbad hstate
    · exact h
    · exact h
  · exact h
  · exact h

theorem establishes_of_released (h : w.Numbered) (hstep : w.step signal = some w')
    (hreleased : w'.Released) : w.Establishes signal := by
  intro c hc
  rcases step_cases hstep with ⟨send, openError, state, io, r, failures, hc', hr, rfl⟩ |
    ⟨_, _, _, _, rfl, hnone, rfl⟩ | ⟨s, events, error, io, r, rfl, -⟩
  · cases hc.symm.trans hc'
    rcases processStream_cases hr with ⟨-, rfl⟩ | ⟨hopen, rfl, -⟩ | ⟨hopen, rfl, -⟩
    · -- The refused stream is new, so nobody has closed it.
      have hclosed : w.count ∈ w.closed := hreleased w.count (.inl List.mem_cons_self)
      exact absurd (h.connected_lt _ (h.closed_connected _ hclosed)) (Nat.lt_irrefl _)
    · exact ⟨hopen, StreamState.noConfusion⟩
    · exact ⟨hopen, StreamState.noConfusion⟩
  · rw [processed, hnone] at hc
    cases hc
  · cases hc

/-- **Releasing the streams.** Every stream is closed by the time its handler returns exactly when every file
could be opened and no stream was closed when it was handed over. -/
theorem released_iff_of_run (server : Bool) (signals : List Signal) (w : Tunnels)
    (hrun : Runs.run step (new server) signals = some w) :
    (∀ pre suf v, signals = pre ++ suf → Runs.run step (new server) pre = some v → v.Released) ↔
      Runs.Admissible step Establishes (new server) signals := by
  constructor
  · intro hreleased
    exact Runs.admissible_of_states (fun _ _ _ => numbered_step)
      (fun _ _ _ => establishes_of_released) (numbered_new server) hrun hreleased
  rintro hok pre suf v rfl hv
  have hpre := (Runs.admissible_append hok).1
  have hinv := Runs.invariant (P := fun w : Tunnels => w.Numbered ∧ w.refused = [])
    (fun _ _ _ h hok hstep => ⟨numbered_step h.1 hstep, refused_step h.2 hok hstep⟩)
    ⟨numbered_new server, rfl⟩ hpre hv
  rintro s (hrefused | hended)
  · rw [hinv.2] at hrefused
    cases hrefused
  · exact hinv.1.ended_closed s hended

/-- The stream of the first transfer has ended, and is released. -/
theorem released_of_receivingRun :
    ∃ w : Tunnels, Runs.run step (new true) receivingRun = some w ∧ w.ended = [0] ∧ w.Released := by
  have hend : (Runs.run step (new true) receivingRun).map (fun w => w.ended) = some [0] := by
    decide +kernel
  obtain ⟨w, hw, hended⟩ := Option.map_eq_some_iff.mp hend
  have hiff := released_iff_of_run true receivingRun w hw
  exact ⟨w, hw, hended, hiff.mpr (by decide +kernel) receivingRun [] w (by simp) hw⟩

/-- A server that cannot open the file it was asked to write accepts the tunnel and keeps it. -/
theorem not_released_after_open_error : ¬ ∀ (server : Bool) (signals : List Signal) (w : Tunnels),
      Runs.run step (new server) signals = some w → w.Released := by
  intro h
  have hend : (Runs.run step (new true)
      [.incomingTunnel ['r', 'e', 'c', 'v', ':', 'a'] (some 13) .opening []]).map
        (fun w => (w.refused, w.closed)) = some ([0], []) := by decide
  obtain ⟨w, hw, heq⟩ := Option.map_eq_some_iff.mp hend
  obtain ⟨hrefused, hclosed⟩ := Prod.mk.inj heq
  have hmem := h _ _ w hw 0 (.inl (by rw [hrefused]; exact List.mem_cons_self))
  rw [hclosed] at hmem
  cases hmem

end Tunnels

end Synciga
