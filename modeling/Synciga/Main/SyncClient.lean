import Synciga.Main.Tunnels

/-!
# The client of the sync mode

`main` of a client that watches a directory (`main/synciga.cc`): for a file that was written it creates a tunnel
and calls `ProcessStream`, and if that returns `true` it waits in `Loop` (`main/synciga_thread.cc`) for
`MSG_DONE` or `MSG_LOGIN_FAILED`. It then prints `Syncing file end`, whichever of the two it was.

All is on one thread: inside `Loop`, messages are dispatched in their order, the connection to the XMPP server
may be lost, delays pass, and acknowledgments arrive.

## Main results

* `finished_of_run` — what `Syncing file end` tells of a transfer
* `matched_of_run` — completion messages match transfers
-/

namespace Synciga

open CustomXmppPump Tunnels

/-! ### The system -/

/-- A message without a handler. -/
inductive Message
  | done (post : Post)
  | loginComplete
  | loginFailed
  deriving DecidableEq, Repr

/-- `Syncing file end` after `MSG_DONE`: the stream of the file, the message that `Loop` took, and how many
bytes of the stream were acknowledged by then. -/
structure Finish where
  stream : ℕ
  post : Post
  acked : ℕ
  deriving DecidableEq, Repr

/-- The client: its pump and streams, the messages in the queue and those still delayed, the stream that `main`
waits for, and the bytes of each stream that were acknowledged. -/
structure SyncClient where
  tunnels : Tunnels
  queue : List Message
  delayed : List Post
  waiting : Option ℕ
  acked : ℕ → ℕ
  finished : List Finish

namespace SyncClient

/-- A client that is logged in. -/
def new : SyncClient := ⟨.new false, [], [], none, fun _ => 0, []⟩

variable (c : SyncClient)

/-- The messages that the pump posted in a call. -/
def newPosts (t : Tunnels) : List Post := t.posts.drop c.tunnels.posts.length

/-- The client after a call of its pump: `Post` puts a message into the queue, `PostDelayed` does
not yet. -/
def route (t : Tunnels) : SyncClient :=
  { c with
    tunnels := t
    queue := c.queue ++ ((c.newPosts t).filter (!·.delay)).map .done
    delayed := c.delayed ++ (c.newPosts t).filter (·.delay) }

/-- What can happen: `main` handles a file, and inside `Loop` a stream signals, a message is taken, a delay
passes, `OnStateChange` is called, and bytes are acknowledged. -/
inductive Event
  | transfer (send : Bool) (openError : Option ℤ) (state : StreamState) (io : List Io)
  | streamEvent (s : ℕ) (events : StreamEvents) (error : ℤ) (io : List Io)
  | get
  | expire
  | stateChange (opened : Bool)
  | ack (s : ℕ) (bytes : ℕ)
  deriving DecidableEq, Repr

/-- `Loop` takes the first message. -/
def get (k : ℕ) : Option SyncClient :=
  match c.queue with
  | [] => none
  | .done post :: queue =>
    some { c with
      queue := queue
      waiting := none
      finished := c.finished ++ [⟨k, post, c.acked k⟩] }
  | .loginFailed :: queue => some { c with queue := queue, waiting := none }
  | .loginComplete :: queue => some { c with queue := queue }

/-- The effect of an event, if it is possible. -/
def step (c : SyncClient) (event : Event) : Option SyncClient :=
  match c.waiting, event with
  | none, .transfer send openError state io =>
    (c.tunnels.step (.processStream send openError state io)).map fun t =>
      { c.route t with
        waiting := if c.tunnels.count ∈ t.started then some c.tunnels.count else none }
  | some _, .streamEvent s events error io =>
    (c.tunnels.step (.streamEvent s events error io)).map c.route
  | some k, .get => c.get k
  | some _, .expire =>
    match c.delayed with
    | [] => none
    | post :: delayed => some { c with queue := c.queue ++ [.done post], delayed := delayed }
  | some _, .stateChange opened =>
    some { c with queue := c.queue ++ [if opened then .loginComplete else .loginFailed] }
  | some _, .ack s bytes =>
    if c.acked s + bytes ≤ (c.tunnels.sent s).length then
      some { c with acked := Function.update c.acked s (c.acked s + bytes) }
    else none
  | _, _ => none

/-- The messages of `Cleanup` that `Loop` has not taken yet. -/
def pending : List Post :=
  (c.queue.filterMap fun
    | .done post => some post
    | _ => none) ++ c.delayed

/-- A transfer is started only when earlier streams are closed and their messages taken, and only streams of
such transfers signal. -/
def Orderly : Event → Prop
  | .transfer .. => (∀ s ∈ c.tunnels.started, s ∈ c.tunnels.closed) ∧ c.pending = []
  | .streamEvent s .. => s ∈ c.tunnels.started
  | _ => True

/-- **Completion messages match transfers**: each transfer that was started has posted one if its stream was
cleaned up and none otherwise, and a `Loop` that returned `MSG_DONE` took that of its own. -/
structure Matched (c : SyncClient) : Prop where
  posts : c.tunnels.posts.length ≤ c.tunnels.started.length
  once : ∀ s ∈ c.tunnels.started,
    (c.tunnels.posts.filter (·.stream = s)).length = if s ∈ c.tunnels.closed then 1 else 0
  finished : ∀ f ∈ c.finished, f.post.stream = f.stream

end SyncClient

/-! ### What a call of the pump does -/

namespace Tunnels

/-- The transfer of `s` has a file, and of what was read from it, what was not sent waits in
`buffer_`. -/
def Feeds (t : Tunnels) (s : ℕ) : Prop :=
  t.pump.file.isSome ∧ (t.pump.sending = true → t.sent s ++ t.pump.buffer = t.pump.taken)

/-- The books of a client: streams are closed once, and a closed stream has posted its message; one
posted at the end of the file had everything sent. -/
structure Ledger (t : Tunnels) : Prop where
  server : t.pump.server = false
  started_lt : ∀ s ∈ t.started, s < t.count
  started_nodup : t.started.Nodup
  closed_started : ∀ s ∈ t.closed, s ∈ t.started
  closed_nodup : t.closed.Nodup
  posts : t.posts.map (·.stream) = t.closed.reverse
  fresh : ∀ s, t.count ≤ s → t.sent s = []
  eof : ∀ post ∈ t.posts, post.exit = .endOfFile → post.sent = post.taken

/-- A call of the pump that concerns one stream only. -/
structure Touches (t t' : Tunnels) (s : ℕ) : Prop where
  ledger : t'.Ledger
  active : ∀ u, t'.Active u → t.Active u ∨ u = s
  posts : ∃ new, t'.posts = t.posts ++ new ∧ ∀ post ∈ new, post.stream = s
  feeds : t'.Active s → t'.Feeds s

variable {t t' : Tunnels} {s : ℕ}

theorem ledger_new : (new false).Ledger := by
  refine ⟨rfl, fun _ hs => ?_, List.nodup_nil, fun _ hs => ?_, List.nodup_nil, rfl, fun _ _ => rfl,
    fun _ hp => ?_⟩
  · cases hs
  · cases hs
  · cases hp

variable {io : List Io}

theorem Ledger.handle (h : t.Ledger) (hs : t.Active s) (hfeeds : t.Feeds s) {events : StreamEvents}
    {error : ℤ} {r : Handled}
    (hr : t.pump.onStreamEvent events error io = some r) : t.Touches (t.handle s r) s := by
  have hfresh : ∀ u, t.count ≤ u → (t.handle s r).sent u = [] := by
    intro u hu
    have hne : u ≠ s := by
      rintro rfl
      exact absurd (h.started_lt u hs.1) (by omega)
    exact (Function.update_of_ne hne _ _).trans (h.fresh u hu)
  rcases onStreamEvent_cases hr hfeeds.1 with hstays | hleaves
  · have hclosed := t.closed_handle_of_stays (s := s) hstays
    have hposts : (t.handle s r).posts = t.posts := by
      rw [Tunnels.handle, hstays.actions]
      exact List.append_nil _
    refine ⟨⟨hstays.server.trans h.server, h.started_lt, h.started_nodup, ?_, ?_, ?_, hfresh, ?_⟩,
      fun u hu => .inl ⟨hu.1, hclosed ▸ hu.2⟩, ⟨[], ?_, fun _ hp => ?_⟩, fun _ => ⟨?_, ?_⟩⟩
    · rw [hclosed]
      exact h.closed_started
    · rw [hclosed]
      exact h.closed_nodup
    · rw [hposts, hclosed]
      exact h.posts
    · rw [hposts]
      exact h.eof
    · rw [hposts, List.append_nil]
    · cases hp
    · exact hstays.file.trans hfeeds.1
    intro hsending
    have hsending' : t.pump.sending = true := hstays.sending.symm.trans hsending
    obtain ⟨rest, hrest, hwaits, -⟩ :=
      onStreamEvent_forwards hr hsending' hfeeds.1 (hfeeds.2 hsending')
    obtain ⟨rfl, htaken⟩ := hwaits hstays.terminating
    change Function.update t.sent s (t.sent s ++ r.sent) s ++ r.pump.buffer = r.pump.taken
    rw [Function.update_self, hrest, htaken]
  · have hclosed := t.closed_handle_of_leaves (s := s) hleaves
    have hposts : (t.handle s r).posts =
        t.posts ++ [⟨s, r.exit = .endOfFile, r.exit, r.taken, t.sent s ++ r.sent⟩] := by
      rw [Tunnels.handle, hleaves.actions, h.server]
      rfl
    refine ⟨⟨hleaves.server.trans h.server, h.started_lt, h.started_nodup, ?_, ?_, ?_, hfresh, ?_⟩,
      fun u hu => .inl ⟨hu.1, fun hmem => hu.2 (hclosed ▸ List.mem_cons_of_mem s hmem)⟩,
      ⟨_, hposts, fun post hp => ?_⟩, fun hactive => absurd ?_ hactive.2⟩
    · rw [hclosed]
      intro u hu
      rcases List.mem_cons.mp hu with rfl | hu
      · exact hs.1
      · exact h.closed_started u hu
    · rw [hclosed]
      exact List.nodup_cons.mpr ⟨hs.2, h.closed_nodup⟩
    · rw [hposts, hclosed, List.map_append, h.posts, List.reverse_cons]
      rfl
    · rw [hposts]
      intro post hp hexit
      rcases List.mem_append.mp hp with hp | hp
      · exact h.eof post hp hexit
      rw [List.mem_singleton] at hp
      subst hp
      -- Only a pump that sends comes to the end of the file.
      by_cases hsending : t.pump.sending = true
      · obtain ⟨rest, hrest, -, hend⟩ :=
          onStreamEvent_forwards hr hsending hfeeds.1 (hfeeds.2 hsending)
        rw [hend hexit, List.append_nil] at hrest
        exact hrest
      · exact absurd hexit (onStreamEvent_exit hr (Bool.eq_false_iff.mpr hsending))
    · rw [List.mem_singleton] at hp
      rw [hp]
    · rw [hclosed]
      exact List.mem_cons_self

theorem Ledger.refuse (h : t.Ledger) (send connected : Bool) :
    t.Touches (t.enlist ⟨t.pump.prepare send, false, connected, none⟩) t.count := by
  refine ⟨⟨h.server, fun s hs => Nat.lt_succ_of_lt (h.started_lt s hs), h.started_nodup,
    h.closed_started, h.closed_nodup, h.posts, fun s hs => h.fresh s (Nat.le_of_succ_le hs), h.eof⟩,
    fun u hu => .inl hu, ⟨[], (List.append_nil _).symm, fun _ hp => ?_⟩, fun hactive => ?_⟩
  · cases hp
  · exact absurd (h.started_lt _ hactive.1) (Nat.lt_irrefl _)

theorem Ledger.enlist (h : t.Ledger) (send : Bool) :
    t.Touches (t.enlist ⟨t.pump.prepare send, true, true, none⟩) t.count := by
  refine ⟨⟨h.server, fun s hs => ?_, ?_, fun s hs => List.mem_cons_of_mem _ (h.closed_started s hs),
    h.closed_nodup, h.posts, fun s hs => h.fresh s (Nat.le_of_succ_le hs), h.eof⟩, fun u hu => ?_,
    ⟨[], (List.append_nil _).symm, fun _ hp => ?_⟩, fun _ => ⟨rfl, fun _ => ?_⟩⟩
  · rcases List.mem_cons.mp hs with rfl | hs
    · exact Nat.lt_succ_self _
    · exact Nat.lt_succ_of_lt (h.started_lt s hs)
  · exact List.nodup_cons.mpr ⟨fun hmem => Nat.lt_irrefl _ (h.started_lt _ hmem), h.started_nodup⟩
  · rcases List.mem_cons.mp hu.1 with hu' | hu'
    · exact .inr hu'
    · exact .inl ⟨hu', hu.2⟩
  · cases hp
  · change t.sent t.count ++ [] = []
    rw [h.fresh _ (Nat.le_refl _), List.append_nil]

theorem Ledger.processStream (h : t.Ledger) {send : Bool} {openError : Option ℤ} {state : StreamState}
    (hstep : t.step (.processStream send openError state io) = some t') :
    t.Touches t' t.count := by
  rcases step_cases hstep with ⟨send', openError', state', io', r, failures, -, hr, rfl⟩ |
    ⟨_, _, _, _, hsignal, -⟩ | ⟨s, events, error, io', r, hsignal, -⟩
  · have hprocess : t.Touches (t.process r) t.count := by
      rcases processStream_cases hr with ⟨-, rfl⟩ | ⟨-, -, rfl⟩ | ⟨-, -, r', hr', rfl⟩
      · exact h.refuse _ _
      · exact h.enlist _
      have henlist := h.enlist send'
      have hactive : (t.enlist ⟨t.pump.prepare send', true, true, none⟩).Active t.count :=
        ⟨List.mem_cons_self,
          fun hmem => Nat.lt_irrefl _ (h.started_lt _ (h.closed_started _ hmem))⟩
      have hhandle := henlist.ledger.handle hactive (henlist.feeds hactive) hr'
      refine ⟨hhandle.ledger, fun u hu => ?_, hhandle.posts, hhandle.feeds⟩
      rcases hhandle.active u hu with hu | hu
      · exact henlist.active u hu
      · exact .inr hu
    obtain ⟨hledger, hactive, hposts, hfeeds⟩ := hprocess
    exact ⟨⟨hledger.server, hledger.started_lt, hledger.started_nodup, hledger.closed_started,
      hledger.closed_nodup, hledger.posts, hledger.fresh, hledger.eof⟩, hactive, hposts, hfeeds⟩
  · cases hsignal
  · cases hsignal

theorem Ledger.streamEvent (h : t.Ledger) (hstarted : s ∈ t.started)
    (hfeeds : t.Active s → t.Feeds s) {events : StreamEvents} {error : ℤ}
    (hstep : t.step (.streamEvent s events error io) = some t') :
    t.Active s ∧ t.Touches t' s := by
  rcases step_cases hstep with ⟨_, _, _, _, _, _, hsome, -⟩ | ⟨_, _, _, _, hsignal, -⟩ |
    ⟨s', events', error', io', r, hsignal, hconnected, hclosed, hr, rfl⟩
  · cases hsome
  · cases hsignal
  · cases hsignal
    have hactive : t.Active s := ⟨hstarted, hclosed⟩
    exact ⟨hactive, h.handle hactive (hfeeds hactive) hr⟩

/-- In any run: closed streams stay closed, and a message is posted by `Cleanup`, after closing the
stream, and delayed at the end of the file only. -/
structure Extends (t t' : Tunnels) : Prop where
  closed : ∀ s ∈ t.closed, s ∈ t'.closed
  posts : ∃ new, t'.posts = t.posts ++ new ∧ ∀ post ∈ new,
    post.stream ∈ t'.closed ∧ post.delay = decide (post.exit = .endOfFile)

theorem Extends.refl (t : Tunnels) : t.Extends t := by
  refine ⟨fun _ hs => hs, [], (List.append_nil _).symm, fun _ hp => ?_⟩
  cases hp

theorem extends_handle (t : Tunnels) (s : ℕ) {p : CustomXmppPump} {r : Handled} (hends : Ends p r) :
    t.Extends (t.handle s r) := by
  have hquiet : r.actions = ⟨false, none⟩ → t.Extends (t.handle s r) := by
    intro hactions
    refine ⟨fun u hu => ?_, [], ?_, fun _ hp => ?_⟩
    · rw [Tunnels.handle, hactions]
      exact hu
    · rw [Tunnels.handle, hactions]
      rfl
    · cases hp
  rcases hends with hstays | hleaves | ⟨-, -, hactions⟩
  · exact hquiet hstays.actions
  · have hclosed := t.closed_handle_of_leaves (s := s) hleaves
    refine ⟨fun u hu => ?_, _, rfl, fun post hp => ?_⟩
    · rw [hclosed]
      exact List.mem_cons_of_mem s hu
    · rw [hleaves.actions, Option.mem_toList, Option.map_eq_some_iff] at hp
      obtain ⟨delay, hdelay, rfl⟩ := hp
      obtain ⟨-, hdelay⟩ := Option.ite_none_left_eq_some.mp hdelay
      rw [hclosed]
      exact ⟨List.mem_cons_self, (Option.some.inj hdelay).symm⟩
  · exact hquiet hactions

theorem extends_step {signal : Signal} (hstep : t.step signal = some t') : t.Extends t' := by
  rcases step_cases hstep with ⟨send, openError, state, io, r, failures, -, hr, rfl⟩ |
    ⟨_, _, _, _, -, -, rfl⟩ | ⟨s, events, error, io, r, rfl, -, -, hr, rfl⟩
  · have hprocess : t.Extends (t.process r) := by
      rcases processStream_cases hr with ⟨-, rfl⟩ | ⟨-, -, rfl⟩ | ⟨-, -, r', hr', rfl⟩
      · exact ⟨(Extends.refl t).closed, (Extends.refl t).posts⟩
      · exact ⟨(Extends.refl t).closed, (Extends.refl t).posts⟩
      · have hhandle := extends_handle (t.enlist ⟨r'.pump, true, true, some r'⟩) t.count
          (onStreamEvent_ends hr')
        exact ⟨hhandle.closed, hhandle.posts⟩
    exact ⟨hprocess.closed, hprocess.posts⟩
  · exact .refl _
  · exact extends_handle t s (onStreamEvent_ends hr)

end Tunnels

namespace SyncClient

/-! ### Steps of the client -/

variable {c c' : SyncClient} {event : Event}

/-- A step without a call of the pump: messages are moved or taken, and `Loop` may return. -/
structure Quiet (c c' : SyncClient) : Prop where
  tunnels : c'.tunnels = c.tunnels
  pending : ∀ post ∈ c'.pending, post ∈ c.pending
  waiting : c'.waiting = c.waiting ∨ c'.waiting = none
  finished : ∀ f ∈ c'.finished,
    f ∈ c.finished ∨ c.waiting = some f.stream ∧ f.post ∈ c.pending

theorem pending_push (c : SyncClient) (m : Message) (delayed : List Post) (post : Post) :
    post ∈ { c with queue := c.queue ++ [m], delayed := delayed }.pending ↔
      (post ∈ c.queue.filterMap fun
        | .done post => some post
        | _ => none) ∨ m = .done post ∨ post ∈ delayed := by
  rw [pending, List.filterMap_append, List.mem_append, List.mem_append, or_assoc]
  cases m <;> simp [eq_comm]

theorem quiet_get {k : ℕ} (hk : c.waiting = some k) (h : c.get k = some c') : c.Quiet c' := by
  rw [get] at h
  split at h
  · cases h
  · next post queue hqueue =>
    cases h
    refine ⟨rfl, fun p hp => ?_, .inr rfl, fun f hf => ?_⟩
    · rw [pending, hqueue]
      exact List.mem_cons_of_mem _ hp
    rcases List.mem_append.mp hf with hf | hf
    · exact .inl hf
    · rw [List.mem_singleton] at hf
      refine .inr ⟨by rw [hf, hk], ?_⟩
      rw [hf, pending, hqueue]
      exact List.mem_cons_self
  · next queue hqueue =>
    cases h
    refine ⟨rfl, fun p hp => ?_, .inr rfl, fun f hf => .inl hf⟩
    rw [pending, hqueue]
    exact hp
  · next queue hqueue =>
    cases h
    refine ⟨rfl, fun p hp => ?_, .inl rfl, fun f hf => .inl hf⟩
    rw [pending, hqueue]
    exact hp

theorem step_cases (h : c.step event = some c') :
    (∃ send openError state io t, event = .transfer send openError state io ∧ c.waiting = none ∧
        c.tunnels.step (.processStream send openError state io) = some t ∧
        c' = { c.route t with
          waiting := if c.tunnels.count ∈ t.started then some c.tunnels.count else none }) ∨
      (∃ k s events error io t, event = .streamEvent s events error io ∧ c.waiting = some k ∧
        c.tunnels.step (.streamEvent s events error io) = some t ∧ c' = c.route t) ∨
      c.Quiet c' := by
  unfold step at h
  split at h
  · next send openError state io hwaiting =>
    obtain ⟨t, ht, rfl⟩ := Option.map_eq_some_iff.mp h
    exact .inl ⟨send, openError, state, io, t, rfl, hwaiting, ht, rfl⟩
  · next k s events error io hwaiting =>
    obtain ⟨t, ht, rfl⟩ := Option.map_eq_some_iff.mp h
    exact .inr (.inl ⟨k, s, events, error, io, t, rfl, hwaiting, ht, rfl⟩)
  · next k hwaiting => exact .inr (.inr (quiet_get hwaiting h))
  · split at h
    · cases h
    next post delayed hdelayed =>
    cases h
    refine .inr (.inr ⟨rfl, fun p hp => ?_, .inl rfl, fun f hf => .inl hf⟩)
    rw [pending, List.mem_append, hdelayed, List.mem_cons]
    rcases (pending_push c (.done post) delayed p).mp hp with hp | hp | hp
    · exact .inl hp
    · cases hp
      exact .inr (.inl rfl)
    · exact .inr (.inr hp)
  · next k opened hwaiting =>
    cases h
    refine .inr (.inr ⟨rfl, fun p hp => ?_, .inl rfl, fun f hf => .inl hf⟩)
    rw [pending, List.mem_append]
    rcases (pending_push c _ c.delayed p).mp hp with hp | hp | hp
    · exact .inl hp
    · cases opened <;> cases hp
    · exact .inr hp
  · obtain ⟨-, h⟩ := Option.ite_none_right_eq_some.mp h
    cases h
    exact .inr (.inr ⟨rfl, fun _ hp => hp, .inl rfl, fun f hf => .inl hf⟩)
  · cases h

variable {t : Tunnels}

theorem mem_pending_route {new : List Post} (hnew : t.posts = c.tunnels.posts ++ new)
    {post : Post} (hp : post ∈ (c.route t).pending) : post ∈ c.pending ∨ post ∈ new := by
  have hposts : c.newPosts t = new := by
    rw [newPosts, hnew, List.drop_left]
  rw [pending, route, hposts] at hp
  simp only [List.filterMap_append, List.mem_append, List.filterMap_map, List.mem_filterMap,
    List.mem_filter, Function.comp_apply, Option.some.injEq] at hp
  rw [pending, List.mem_append]
  rcases hp with (hp | ⟨p, hp, rfl⟩) | hp | hp
  · exact .inl (.inl (List.mem_filterMap.mpr hp))
  · exact .inr hp.1
  · exact .inl (.inr hp)
  · exact .inr hp.1

/-! ### What holds in every run -/

/-- Every message was posted by `Cleanup`, after closing the stream, and delayed exactly if the end of the file
was reached. -/
structure Traced (c : SyncClient) : Prop where
  posts : ∀ post ∈ c.tunnels.posts,
    post.stream ∈ c.tunnels.closed ∧ post.delay = decide (post.exit = .endOfFile)
  pending : ∀ post ∈ c.pending, post ∈ c.tunnels.posts
  finished : ∀ f ∈ c.finished, f.post ∈ c.tunnels.posts

theorem traced_new : new.Traced := by
  refine ⟨fun _ hp => ?_, fun _ hp => ?_, fun _ hf => ?_⟩
  · cases hp
  · cases hp
  · cases hf

theorem Traced.route (h : c.Traced) (ht : c.tunnels.Extends t) (waiting : Option ℕ) :
    { c.route t with waiting := waiting }.Traced := by
  obtain ⟨hclosed, new, hposts, hnew⟩ := ht
  have hold : ∀ post ∈ c.tunnels.posts, post ∈ t.posts := by
    intro post hp
    rw [hposts]
    exact List.mem_append_left new hp
  refine ⟨fun post hp => ?_, fun post hp => ?_, fun f hf => hold _ (h.finished f hf)⟩
  · change post ∈ t.posts at hp
    rw [hposts] at hp
    rcases List.mem_append.mp hp with hp | hp
    · exact ⟨hclosed _ (h.posts post hp).1, (h.posts post hp).2⟩
    · exact hnew post hp
  · rcases mem_pending_route hposts hp with hp | hp
    · exact hold post (h.pending post hp)
    · change post ∈ t.posts
      rw [hposts]
      exact List.mem_append_right _ hp

theorem Traced.quiet (h : c.Traced) (hquiet : c.Quiet c') : c'.Traced := by
  refine ⟨?_, ?_, fun f hf => ?_⟩
  · rw [hquiet.tunnels]
    exact h.posts
  · rw [hquiet.tunnels]
    exact fun post hp => h.pending post (hquiet.pending post hp)
  · rw [hquiet.tunnels]
    rcases hquiet.finished f hf with hf | ⟨-, hf⟩
    · exact h.finished f hf
    · exact h.pending _ hf

theorem traced_step (h : c.Traced) (hstep : c.step event = some c') : c'.Traced := by
  rcases step_cases hstep with ⟨_, _, _, _, t, -, -, ht, rfl⟩ | ⟨_, _, _, _, _, t, -, -, ht, rfl⟩ | hquiet
  · exact h.route (extends_step ht) _
  · exact h.route (extends_step ht) c.waiting
  · exact h.quiet hquiet

/-! ### What holds in orderly runs -/

/-- A transfer that is not over: its stream is not closed, or its message was not taken. -/
def Unsettled (c : SyncClient) (s : ℕ) : Prop :=
  c.tunnels.Active s ∨ ∃ post ∈ c.pending, post.stream = s

/-- The books are right, only the transfer that `main` waits for can be unsettled, and it has what
it needs. -/
structure Inv (c : SyncClient) : Prop where
  ledger : c.tunnels.Ledger
  waiting : ∀ k, c.waiting = some k → ∀ s, c.Unsettled s → s = k
  feeds : ∀ s, c.tunnels.Active s → c.tunnels.Feeds s
  finished : ∀ f ∈ c.finished, f.post.stream = f.stream

theorem inv_new : new.Inv := by
  refine ⟨ledger_new, fun _ hk => ?_, fun s hs => ?_, fun _ hf => ?_⟩
  · cases hk
  · cases hs.1
  · cases hf

theorem Inv.route (h : c.Inv) {s : ℕ} (ht : c.tunnels.Touches t s)
    (hs : ∀ u, c.Unsettled u → u = s) (waiting : Option ℕ)
    (hwaiting : ∀ k, waiting = some k → k = s) :
    { c.route t with waiting := waiting }.Inv := by
  obtain ⟨new, hposts, hnew⟩ := ht.posts
  have hactive : ∀ u, t.Active u → u = s := by
    intro u hu
    rcases ht.active u hu with hu | hu
    · exact hs u (.inl hu)
    · exact hu
  refine ⟨ht.ledger, fun k hk u hu => ?_, fun u hu => ?_, h.finished⟩
  · rw [hwaiting k hk]
    rcases hu with hu | ⟨post, hp, rfl⟩
    · exact hactive u hu
    · rcases mem_pending_route hposts hp with hp | hp
      · exact hs _ (.inr ⟨post, hp, rfl⟩)
      · exact hnew post hp
  · cases hactive u hu
    exact ht.feeds hu

theorem Inv.quiet (h : c.Inv) (hquiet : c.Quiet c') : c'.Inv := by
  refine ⟨hquiet.tunnels ▸ h.ledger, fun k hk s hs => ?_, hquiet.tunnels ▸ h.feeds, fun f hf => ?_⟩
  · have hs' : c.Unsettled s := by
      rw [Unsettled, hquiet.tunnels] at hs
      exact hs.imp id fun ⟨post, hp, hstream⟩ => ⟨post, hquiet.pending post hp, hstream⟩
    rcases hquiet.waiting with hsame | hnone
    · exact h.waiting k (hsame.symm.trans hk) s hs'
    · cases hnone.symm.trans hk
  · rcases hquiet.finished f hf with hf | ⟨hk, hp⟩
    · exact h.finished f hf
    · exact h.waiting _ hk _ (.inr ⟨f.post, hp, rfl⟩)

theorem inv_step (h : c.Inv) (hok : c.Orderly event) (hstep : c.step event = some c') : c'.Inv := by
  rcases step_cases hstep with ⟨send, openError, state, io, t, rfl, -, ht, rfl⟩ |
    ⟨k, s, events, error, io, t, rfl, hk, ht, rfl⟩ | hquiet
  · refine h.route (h.ledger.processStream ht) (fun u hu => ?_) _ fun k hk => ?_
    · obtain ⟨hclosed, hpending⟩ := hok
      rcases hu with hu | ⟨post, hp, -⟩
      · exact absurd (hclosed u hu.1) hu.2
      · rw [hpending] at hp
        cases hp
    · split at hk
      · exact (Option.some.inj hk).symm
      · cases hk
  · obtain ⟨hactive, htouches⟩ := h.ledger.streamEvent hok (h.feeds s) ht
    have hsk : s = k := h.waiting k hk s (.inl hactive)
    refine h.route htouches (fun u hu => ?_) c.waiting fun k' hk' => ?_
    · rw [hsk]
      exact h.waiting k hk u hu
    · rw [hsk]
      exact Option.some.inj (hk'.symm.trans hk)
  · exact h.quiet hquiet

theorem Inv.once (h : c.Inv) (s : ℕ) :
    (c.tunnels.posts.filter (·.stream = s)).length = if s ∈ c.tunnels.closed then 1 else 0 := by
  have hcount : (c.tunnels.posts.filter (·.stream = s)).length = c.tunnels.closed.count s := by
    rw [← List.count_reverse, ← h.ledger.posts, List.count, List.countP_map,
      List.countP_eq_length_filter]
    congr 1
  rw [hcount, h.ledger.closed_nodup.count]

theorem Inv.matched (h : c.Inv) : c.Matched := by
  refine ⟨?_, fun s _ => h.once s, h.finished⟩
  have hlength : c.tunnels.posts.length = c.tunnels.closed.length := by
    rw [← List.length_map (·.stream), h.ledger.posts, List.length_reverse]
  rw [hlength]
  exact h.ledger.closed_nodup.length_le_of_subset h.ledger.closed_started

/-- **Completion messages match transfers** in every orderly run. -/
theorem matched_of_run (events : List Event) (c : SyncClient)
    (hrun : Runs.run step new events = some c) (hok : Runs.Admissible step Orderly new events) :
    c.Matched :=
  (Runs.invariant (P := Inv) (fun _ _ _ => inv_step) inv_new hok hrun).matched

instance (c : SyncClient) : (event : Event) → Decidable (c.Orderly event)
  | .transfer .. => inferInstanceAs
      (Decidable ((∀ s ∈ c.tunnels.started, s ∈ c.tunnels.closed) ∧ c.pending = []))
  | .streamEvent s .. => inferInstanceAs (Decidable (s ∈ c.tunnels.started))
  | .get => .isTrue trivial
  | .expire => .isTrue trivial
  | .stateChange _ => .isTrue trivial
  | .ack .. => .isTrue trivial

/-- All flags but the one for a closed stream. -/
def openEvents : StreamEvents := ⟨true, true, true, false⟩

/-- The stream is closed. -/
def closeEvents : StreamEvents := ⟨false, false, false, true⟩

/-- A file of three bytes is sent, the delay passes, and the next tunnel is declined. -/
def orderlyRun : List Event :=
  [.transfer true none .opening [],
    .streamEvent 0 openEvents 0 [.fileRead (.success [1, 2, 3]), .fileRead .eos,
      .streamWrite (.success 1), .streamWrite .block],
    .streamEvent 0 openEvents 0 [.streamWrite (.success 2), .fileRead .eos],
    .ack 0 3, .expire, .get,
    .transfer true none .opening [], .stateChange true, .streamEvent 1 closeEvents (-1) [],
    .get, .get]

theorem matched_of_orderlyRun :
    ∃ c : SyncClient, Runs.run step new orderlyRun = some c ∧
      c.finished.map (·.post.stream) = [0, 1] ∧ c.Matched := by
  have hend : (Runs.run step new orderlyRun).map (fun c => c.finished.map (·.post.stream)) =
      some [0, 1] := by decide +kernel
  obtain ⟨c, hc, hfinished⟩ := Option.map_eq_some_iff.mp hend
  exact ⟨c, hc, hfinished, matched_of_run orderlyRun c hc (by decide +kernel)⟩

/-- The XMPP connection is lost during the first transfer, so that `Loop` returns; the `Loop` of the
second transfer takes the message of the first. -/
theorem not_matched_after_login_failed :
    ¬ ∀ (events : List Event) (c : SyncClient), Runs.run step new events = some c → c.Matched := by
  intro h
  have hend : (Runs.run step new [.transfer true none .opening [], .stateChange false, .get,
      .transfer true none .opening [], .streamEvent 0 closeEvents 0 [], .get]).map
        (fun c => c.finished) = some [⟨1, ⟨0, false, .closed 0, [], []⟩, 0⟩] := by decide +kernel
  obtain ⟨c, hc, hfinished⟩ := Option.map_eq_some_iff.mp hend
  have hsame := (h _ c hc).finished _ (by rw [hfinished]; exact List.mem_cons_self)
  cases hsame

/-! ### What is known at the end -/

/-- **The end of a transfer.** Whenever `Syncing file end` is printed after `MSG_DONE`, the message was posted
by `Cleanup` of a closed stream, with the delay exactly if the end of the file was reached. In an orderly run it
is that of the file's own transfer, and at the end of the file the stream had accepted every byte that was read.
-/
theorem finished_of_run (events : List Event) (c : SyncClient) (hrun : Runs.run step new events = some c) :
    (∀ f ∈ c.finished, f.post.stream ∈ c.tunnels.closed ∧
      f.post.delay = decide (f.post.exit = .endOfFile)) ∧
    (Runs.Admissible step Orderly new events → ∀ f ∈ c.finished, f.post.stream = f.stream ∧
      (f.post.exit = .endOfFile → f.post.sent = f.post.taken)) := by
  have htraced : c.Traced := Runs.invariant_of_step (fun _ _ _ => traced_step) traced_new hrun
  refine ⟨fun f hf => htraced.posts _ (htraced.finished f hf), fun hok f hf => ?_⟩
  have hinv := Runs.invariant (P := Inv) (fun _ _ _ => inv_step) inv_new hok hrun
  exact ⟨hinv.finished f hf, hinv.ledger.eof _ (htraced.finished f hf)⟩

/-- The first file of the run was read to its end, and everything was sent. -/
theorem finished_of_orderlyRun :
    ∃ c : SyncClient, Runs.run step new orderlyRun = some c ∧
      ∃ f ∈ c.finished, f.post.exit = .endOfFile ∧ f.stream = 0 ∧ f.post.stream = f.stream ∧
        f.post.sent = f.post.taken := by
  have hend : (Runs.run step new orderlyRun).map
      (fun c => c.finished.map fun f => (f.stream, f.post.exit)) =
        some [(0, .endOfFile), (1, .closed (-1))] := by decide +kernel
  obtain ⟨c, hc, hfinished⟩ := Option.map_eq_some_iff.mp hend
  have hmem : (0, Exit.endOfFile) ∈ c.finished.map fun f => (f.stream, f.post.exit) := by
    rw [hfinished]
    exact List.mem_cons_self
  obtain ⟨f, hf, heq⟩ := List.mem_map.mp hmem
  obtain ⟨hstream, hexit⟩ := Prod.mk.inj heq
  obtain ⟨hown, hsent⟩ := (finished_of_run orderlyRun c hc).2 (by decide +kernel) f hf
  exact ⟨c, hc, f, hf, hexit, hstream, hown, hsent hexit⟩

/-- The file was read to its end, and the server has acknowledged every byte that was read. -/
def HandedOver (f : Finish) : Prop :=
  f.post.exit = .endOfFile ∧ f.acked = f.post.taken.length

/-- `Syncing file end` is printed after a tunnel that was declined, and when the delay passes before anything
was acknowledged. -/
theorem not_handedOver_after_decline_or_delay :
    ¬ (∀ (events : List Event) (c : SyncClient), Runs.run step new events = some c →
      ∀ f ∈ c.finished, HandedOver f) ∧
    ¬ ∀ (events : List Event) (c : SyncClient), Runs.run step new events = some c →
      ∀ f ∈ c.finished, f.post.exit = .endOfFile → f.acked = f.post.taken.length := by
  constructor
  · intro h
    have hend : (Runs.run step new [.transfer true none .opening [],
        .streamEvent 0 closeEvents (-1) [], .get]).map (fun c => c.finished) =
          some [⟨0, ⟨0, false, .closed (-1), [], []⟩, 0⟩] := by decide +kernel
    obtain ⟨c, hc, hfinished⟩ := Option.map_eq_some_iff.mp hend
    have hexit := (h _ c hc _ (by rw [hfinished]; exact List.mem_cons_self)).1
    cases hexit
  intro h
  have hend : (Runs.run step new [.transfer true none .opening [],
      .streamEvent 0 openEvents 0 [.fileRead (.success [1, 2, 3]), .fileRead .eos,
        .streamWrite (.success 3), .fileRead .eos], .expire, .get]).map (fun c => c.finished) =
          some [⟨0, ⟨0, true, .endOfFile, [1, 2, 3], [1, 2, 3]⟩, 0⟩] := by decide +kernel
  obtain ⟨c, hc, hfinished⟩ := Option.map_eq_some_iff.mp hend
  have hacked := h _ c hc _ (by rw [hfinished]; exact List.mem_cons_self) rfl
  cases hacked

end SyncClient

end Synciga
