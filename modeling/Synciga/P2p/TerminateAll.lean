import Synciga.Internal.Loops
import Synciga.P2p.Displacement
import Mathlib.Data.List.MinMax
import Mathlib.Data.String.Basic

/-!
# `SessionManager::TerminateAll`

`TerminateAll` (`talk/p2p/base/sessionmanager.cc`) tells the first session of the map to terminate, as long as
the map has one. But `Terminate` leaves it there: it posts a message, on which the session is destroyed, and the
loop delivers none.

## Main results

* `terminatesAll_iff` — when it ends with all sessions told
* `indexed_run` — the map of a manager has sessions under their own ids
-/

namespace Synciga.P2p

theorem Session.step_sid {D : Type} (op : SessionOp D) (s : Session D) : (s.step op).sid = s.sid := by
  cases steps op s with
  | chain h => exact h.sid
  | delivered message h => exact h.sid
  | destroyed message _ heq => rw [heq]; rfl

theorem Session.Calls.sid {D : Type} {s s' : Session D} (h : Calls s s') : s'.sid = s.sid :=
  have hhappens : Happens True s s' := h.moves.happens
  hhappens.sid

/-- What happens to a manager. -/
inductive ManagerOp (D : Type)
  | createSession (localName initiatorName sid : String)
  | call (session : Nat) (c : SessionCall D) (inner : Reaction D)
  | message (stanza : XmlElement) (body : Body D) (r : Reaction D)
  | response (sid recipient : String) (type : ActionType) (unsent : Nat)
  | failedSend (sid recipient : String) (type : ActionType) (redirect errorType : Option String)
      (written : Bool) (resent : Nat)
  | deliver (session : Nat) (message : Posted) (r : Reaction D)
  | destroySession (session : Nat)

namespace SessionManager

variable {D : Type} {m m' : SessionManager D}

/-- A manager without sessions. -/
def create (clients : List String) : SessionManager D := ⟨clients, fun _ => none, [], []⟩

/-- Something happens to a manager. -/
def apply (m : SessionManager D) : ManagerOp D → SessionManager D
  | .createSession localName initiatorName sid => (m.createSession localName initiatorName sid).1
  | .call session c inner => m.withSession session (·.step (.call c inner))
  | .message stanza body r => m.onIncomingMessage stanza body r
  | .response sid recipient type unsent => m.onIncomingResponse sid recipient type unsent
  | .failedSend sid recipient type redirect errorType written resent =>
    m.onFailedSend sid recipient type redirect errorType written resent
  | .deliver session message r => m.deliver session message r
  | .destroySession session => m.destroySession session

/-- The ids of the sessions that were created. -/
def sids (m : SessionManager D) : List String := m.sessions.map (·.sid)

/-- `begin` of `session_map_`: the session with the least id. -/
def begin (m : SessionManager D) : Option Nat :=
  ((m.sids.filter fun sid => (m.sessionMap sid).isSome).argmin id).bind m.sessionMap

variable (react : SessionManager D → Reaction D)

/-- One round of `TerminateAll`. What those do who listen depends on what has happened up to then.
-/
def terminateRound (m : SessionManager D) :
    Option (SessionManager D ⊕ SessionManager D) :=
  match m.begin with
  | none => some (.inl m)
  | some session =>
    some (.inr (m.withSession session fun s => (s.terminateWithReason (react m).listen).1))

/-- `TerminateAll`. -/
def terminateAll (rounds : ℕ) (m : SessionManager D) :
    Option (SessionManager D) :=
  Loop.run (terminateRound react) rounds m

/-- The loop ends, and every session that there was has been told to terminate. -/
def TerminatesAll (m : SessionManager D) : Prop :=
  ∃ (rounds : ℕ) (m' : SessionManager D), m.terminateAll react rounds = some m' ∧
    ∀ (session : Nat) (s : Session D), m.sessions[session]? = some s → s.state ≠ .deinit →
      ∃ s', m'.sessions[session]? = some s' ∧ s'.state.Terminated

/-- What the map has under an id is a session with this id. -/
def Indexed (m : SessionManager D) : Prop :=
  ∀ sid session, m.sessionMap sid = some session → m.sids[session]? = some sid

/-! ### The map -/

theorem sids_withSession {session : Nat} {f : Session D → Session D}
    (hf : ∀ s, m.sessions[session]? = some s → (f s).sid = s.sid) :
    (m.withSession session f).sids = m.sids := by
  refine List.ext_getElem? fun i => ?_
  rw [sids, sids, List.getElem?_map, List.getElem?_map]
  by_cases hsame : session = i
  · subst hsame
    change Option.map _ ((m.sessions.modify session _)[session]?) = _
    rw [List.getElem?_modify_eq]
    cases hplace : m.sessions[session]? with
    | none => rfl
    | some s =>
      refine congrArg some ?_
      dsimp only
      split
      · rfl
      · exact hf s hplace
  · rw [getElem?_withSession_of_ne f hsame m]

theorem sids_destroySession (session : Nat) (m : SessionManager D) :
    (m.destroySession session).sids = m.sids := by
  rw [destroySession]
  split
  · rfl
  rename_i s hplace
  split
  · rfl
  refine List.ext_getElem? fun i => ?_
  rw [sids, sids, List.getElem?_map, List.getElem?_map]
  by_cases hsame : session = i
  · subst hsame
    rw [List.getElem?_set_self (List.getElem?_eq_some_iff.mp hplace).1, hplace]
    rfl
  · rw [List.getElem?_set_ne hsame]

theorem Indexed.withSession (hm : m.Indexed) (session : Nat) {f : Session D → Session D}
    (hf : ∀ s, m.sessions[session]? = some s → (f s).sid = s.sid) :
    (m.withSession session f).Indexed := by
  intro sid place hentry
  rw [sids_withSession hf]
  exact hm sid place hentry

theorem Indexed.createSession (hm : m.Indexed) (localName initiatorName sid : String) :
    (m.createSession localName initiatorName sid).1.Indexed := by
  intro other place hentry
  change Function.update m.sessionMap sid (some m.sessions.length) other = some place at hentry
  have hsids : (m.createSession localName initiatorName sid).1.sids = m.sids ++ [sid] :=
    List.map_append
  rw [hsids]
  by_cases hother : other = sid
  · subst hother
    rw [Function.update_self] at hentry
    cases hentry
    have hlength : m.sids.length = m.sessions.length := List.length_map _
    rw [← hlength]
    exact List.getElem?_concat_length
  · rw [Function.update_of_ne hother] at hentry
    have hplace := hm other place hentry
    obtain ⟨hlt, -⟩ := List.getElem?_eq_some_iff.mp hplace
    exact (List.getElem?_append_left hlt).trans hplace

theorem Indexed.destroySession (hm : m.Indexed) (session : Nat) : (m.destroySession session).Indexed := by
  intro sid place hentry
  rw [sids_destroySession]
  refine hm sid place ?_
  rw [SessionManager.destroySession] at hentry
  split at hentry
  · exact hentry
  split at hentry
  · exact hentry
  rename_i s _ _ _ _
  change Function.update m.sessionMap s.sid none sid = some place at hentry
  by_cases hsid : sid = s.sid
  · rw [hsid, Function.update_self] at hentry
    cases hentry
  · rwa [Function.update_of_ne hsid] at hentry

theorem Indexed.step (hm : m.Indexed) (session : Nat) (op : SessionOp D) :
    (m.withSession session (·.step op)).Indexed :=
  hm.withSession session fun s _ => s.step_sid op

theorem Indexed.deliver (hm : m.Indexed) (session : Nat) (message : Posted) (r : Reaction D) :
    (m.deliver session message r).Indexed := by
  rw [SessionManager.deliver]
  split
  · exact hm
  rename_i s hplace
  split
  · have hafter :
        (m.withSession session fun _ => ((s.taken message).onMessage r.listen message).1).Indexed := by
      refine hm.withSession session fun s' hplace' => ?_
      cases hplace.symm.trans hplace'
      exact (Session.onMessage_calls (Reaction.listen_calls r) message _).sid
    dsimp only
    split
    · exact hafter.destroySession session
    · exact hafter
  · exact hm

theorem Indexed.apply (hm : m.Indexed) (op : ManagerOp D) : (m.apply op).Indexed := by
  cases op with
  | createSession localName initiatorName sid => exact hm.createSession localName initiatorName sid
  | call session c inner => exact hm.step session _
  | message stanza body r =>
    rw [SessionManager.apply]
    have hhandled := onIncomingMessage_handled stanza body r m
    generalize m.onIncomingMessage stanza body r = m' at hhandled ⊢
    cases hhandled with
    | refused m' hmap hsessions =>
      intro sid session hentry
      rw [hmap] at hentry
      rw [sids, hsessions]
      exact hm sid session hentry
    | found msg session => exact hm.step session (.message msg body r)
    | created msg contentType =>
      exact (hm.createSession msg.recipient msg.initiator msg.sid).step _ (.message msg body r)
  | response sid recipient type unsent =>
    rw [SessionManager.apply, onIncomingResponse]
    split
    · exact hm
    · rename_i session _
      exact hm.step session (.response type unsent)
  | failedSend sid recipient type redirect errorType written resent =>
    rw [SessionManager.apply, onFailedSend]
    split
    · exact hm
    · rename_i session _
      exact hm.step session (.failedSend type redirect errorType written resent)
  | deliver session message r => exact hm.deliver session message r
  | destroySession session => exact hm.destroySession session

/-- Whatever happens to a manager, its map has sessions under their ids. -/
theorem indexed_run (clients : List String) (ops : List (ManagerOp D)) :
    (ops.foldl apply (create clients)).Indexed := by
  suffices h : ∀ m : SessionManager D, m.Indexed → (ops.foldl apply m).Indexed from
    h _ fun _ _ hentry => by cases hentry
  induction ops with
  | nil => exact fun _ hm => hm
  | cons op ops ih => exact fun m hm => ih _ (hm.apply op)

/-! ### The loop -/

theorem begin_eq_none_iff (hm : m.Indexed) : m.begin = none ↔ ∀ sid, m.sessionMap sid = none := by
  constructor
  · intro hbegin sid
    by_contra hentry
    obtain ⟨session, hsession⟩ := Option.ne_none_iff_exists'.mp hentry
    have hmem : sid ∈ m.sids.filter fun sid => (m.sessionMap sid).isSome :=
      List.mem_filter.mpr ⟨List.mem_of_getElem? (hm sid session hsession), by rw [hsession]; rfl⟩
    obtain ⟨least, hleast⟩ := Option.ne_none_iff_exists'.mp
      (mt List.argmin_eq_none.mp (List.ne_nil_of_mem hmem) : List.argmin id _ ≠ none)
    obtain ⟨-, hstored⟩ := List.mem_filter.mp (List.argmin_mem hleast)
    rw [begin, hleast, Option.bind_some] at hbegin
    rw [hbegin] at hstored
    cases hstored
  · intro hempty
    have hnone : (m.sids.filter fun sid => (m.sessionMap sid).isSome) = [] :=
      List.filter_eq_nil_iff.mpr fun sid _ => by rw [hempty]; exact Bool.false_ne_true
    rw [begin, hnone]
    rfl

theorem begin_terminate (listen : Session D → Session D) (hl : ∀ s, Session.Calls s (listen s))
    (session : Nat) (m : SessionManager D) :
    (m.withSession session fun s => (s.terminateWithReason listen).1).begin = m.begin := by
  have hsids : (m.withSession session fun s => (s.terminateWithReason listen).1).sids = m.sids :=
    sids_withSession fun s _ => (Session.terminateWithReason_calls hl s).sid
  rw [begin, begin, hsids]
  rfl

theorem terminateAll_eq_none (m : SessionManager D)
    {session : Nat} (hbegin : m.begin = some session) (rounds : ℕ) :
    m.terminateAll react rounds = none := by
  refine Loop.run_eq_none (fun m => m.begin = some session) (fun m m' hm hround => ?_)
    (fun m m' hm hround => ?_) hbegin rounds
  · rw [terminateRound, hm] at hround
    cases hround
    exact (begin_terminate _ (Reaction.listen_calls (react m)) session m).trans hm
  · rw [terminateRound, hm] at hround
    cases hround

/-- **`TerminateAll` does not terminate.** Whatever the listeners do, the loop ends and every session has been
told to terminate, if and only if the map is empty and every session displaced from it had been told before. -/
theorem terminatesAll_iff (react : SessionManager D → Reaction D) (m : SessionManager D)
    (hm : m.Indexed) : TerminatesAll react m ↔ (∀ sid, m.sessionMap sid = none) ∧
      ∀ (session : Nat) (s : Session D), m.sessions[session]? = some s → s.state ≠ .deinit →
        s.state.Terminated := by
  constructor
  · rintro ⟨rounds, m', hrun, htold⟩
    have hbegin : m.begin = none := by
      by_contra hne
      obtain ⟨session, hsession⟩ := Option.ne_none_iff_exists'.mp hne
      rw [terminateAll_eq_none react m hsession] at hrun
      cases hrun
    have hround : terminateRound react m = some (.inl m) := by rw [terminateRound, hbegin]
    have hsame : m' = m := by
      cases rounds with
      | zero => cases hrun
      | succ rounds => exact (Option.some.inj ((Loop.run_succ_of_inl hround).symm.trans hrun)).symm
    refine ⟨(begin_eq_none_iff hm).mp hbegin, fun session s hplace halive => ?_⟩
    obtain ⟨s', hplace', hterminated⟩ := htold session s hplace halive
    rw [hsame, hplace] at hplace'
    cases hplace'
    exact hterminated
  · rintro ⟨hempty, htold⟩
    have hround : terminateRound react m = some (.inl m) := by
      rw [terminateRound, (begin_eq_none_iff hm).mpr hempty]
    exact ⟨1, m, Loop.run_succ_of_inl hround, fun session s hplace halive =>
      ⟨s, hplace, htold session s hplace halive⟩⟩

/-- A session is told to terminate and displaced by one with its id, and that one is destroyed. -/
def displacedOps : List (ManagerOp Unit) :=
  [.createSession "alice" "alice" "7", .call 0 (.initiate "bob" () true true) .done,
    .call 0 .terminate .done, .createSession "alice" "alice" "7", .destroySession 1]

/-- The map is empty, and the session that it does not have any more was told before. -/
theorem terminatesAll_displaced :
    let m := displacedOps.foldl apply (create [])
    (m.sessions.map (·.state))[0]? = some .sentTerminate ∧ TerminatesAll (fun _ => .done) m := by
  intro m
  have hcreate : Indexed (create [] : SessionManager Unit) := fun _ _ hentry => by cases hentry
  have hindexed : m.Indexed := List.foldlRecOn displacedOps apply hcreate fun _ h op _ => h.apply op
  have hstates : m.sessions.map (·.state) = [.sentTerminate, .deinit] := by decide
  refine ⟨by rw [hstates]; rfl, (terminatesAll_iff _ m hindexed).mpr
    ⟨(begin_eq_none_iff hindexed).mp (by decide), fun session s hplace halive => ?_⟩⟩
  have hmem : s.state ∈ m.sessions.map (·.state) := List.mem_map_of_mem (List.mem_of_getElem? hplace)
  rw [hstates, List.mem_cons, List.mem_singleton] at hmem
  exact .inl (hmem.resolve_right halive)

/-- A manager with one session. -/
def withOne : SessionManager Unit := ((create []).createSession "alice" "alice" "7").1

/-- The loop does not end with one session. -/
theorem not_terminatesAll_session : ¬TerminatesAll (fun _ => .done) withOne := by
  rintro ⟨rounds, m', hrun, -⟩
  have hbegin : withOne.begin = some 0 := by decide
  rw [terminateAll_eq_none _ _ hbegin] at hrun
  cases hrun

end SessionManager

end Synciga.P2p
