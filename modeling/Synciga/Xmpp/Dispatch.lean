import Synciga.Internal.IndexWalk
import Synciga.Xmpp.Frames
import Synciga.Xmpp.StanzaParser

/-!
# Which handlers get a stanza

A stanza is offered to the handlers of one level after the other, by an index. A handler that is removed at or
before the index moves the others up, and the next one is not called.

## Main definitions

* `steady` — a handler is neither removed nor added again while the stanza is dispatched

## Main results

* `fairAt_iff` — this is the only way in which such a handler can miss a stanza
-/

namespace Synciga.Xmpp

variable {P M : Type}

variable (level : HandlerLevel)

/-- Whether a call changes the registrations of a handler at a level. -/
def Call.touches (handler : HandlerId) : Call → Bool
  | removeStanzaHandler other => other = handler
  | addStanzaHandler other otherLevel => other = handler && otherLevel = level
  | _ => false

/-- The handlers whose registrations at a level are left alone by these responses. -/
def steady (rs : List Response) (level : HandlerLevel) (handler : HandlerId) : Bool :=
  rs.all fun r => r.calls.all fun call => !call.touches level handler

/-- The handler of this level that was called. -/
def Event.offeredAt : Event → Option HandlerId
  | handleStanza other handler _ => if other = level then some handler else none
  | _ => none

/-- The handlers of a level that were called, in order. -/
def offers (trace : List Event) : List HandlerId :=
  trace.filterMap (Event.offeredAt level)

@[simp] theorem offers_append (trace trace' : List Event) :
    offers level (trace ++ trace') = offers level trace ++ offers level trace' :=
  List.filterMap_append

/-! ### What calls leave alone -/

section handlers

variable (e : Engine P M)

theorem Call.stanzaHandlers_apply (parser : Parser P) (sasl : Sasl M) (call : Call) (level : HandlerLevel) :
    (call.apply parser sasl e).1.stanzaHandlers level = e.stanzaHandlers level ∨
      (∃ handler, call.touches level handler = true ∧
        (call.apply parser sasl e).1.stanzaHandlers level = e.stanzaHandlers level ++ [handler]) ∨
      (∃ handler, call.touches level handler = true ∧
        (call.apply parser sasl e).1.stanzaHandlers level =
          (e.stanzaHandlers level).filter (· ≠ handler)) := by
  have hother : ¬call.IsForTables →
      (call.apply parser sasl e).1.stanzaHandlers level = e.stanzaHandlers level :=
    fun h => congrFun (Engine.stanzaHandlers_eq (Call.tables_apply e parser sasl h)) level
  cases call with
  | addStanzaHandler handler other =>
    rw [apply, Engine.addStanzaHandler]
    split
    · exact .inl rfl
    · by_cases hlevel : other = level
      · subst hlevel
        refine .inr (.inl ⟨handler, by simp [touches], Function.update_self _ _ _⟩)
      · exact .inl (Function.update_of_ne (Ne.symm hlevel) _ _)
  | removeStanzaHandler handler => exact .inr (.inr ⟨handler, by simp [touches], rfl⟩)
  | sendIq element handler =>
    rw [apply]
    unfold Engine.sendIq
    repeat' first
      | exact .inl rfl
      | exact .inl (congrFun (Engine.stanzaHandlers_eq (Engine.tables_sendStanza _ parser _)) level)
      | split
  | removeIqHandler cookie =>
    rw [apply, Engine.removeIqHandler]
    split <;> exact .inl rfl
  | _ => exact .inl (hother id)

end handlers

section offers

variable {level : HandlerLevel}

theorem offers_emit {event : Event} (h : event.offeredAt level = none) (trace : List Event) :
    offers level (trace ++ [event]) = offers level trace := by
  have hnone : offers level [event] = [] := List.filterMap_cons_none h
  rw [offers_append, hnone, List.append_nil]

theorem offers_eq (trace : List Event) : offers level trace = offers level (callbacks trace) := by
  rw [offers, offers, callbacks, List.filterMap_filter]
  congr 1
  funext event
  cases event <;> rfl

theorem Call.offers_apply (parser : Parser P) (sasl : Sasl M) (call : Call) (e : Engine P M) :
    offers level (call.apply parser sasl e).1.core.trace = offers level e.core.trace := by
  rw [offers_eq, call.callbacks_apply, ← offers_eq]

theorem Response.offers_apply (parser : Parser P) (sasl : Sasl M) (r : Response) (e : Engine P M) :
    offers level (r.apply parser sasl e).trace = offers level e.trace := by
  obtain ⟨calls, handled⟩ := r
  rw [Response.apply]
  induction calls generalizing e with
  | nil => rfl
  | cons call calls ih => exact (ih _).trans (call.offers_apply parser sasl e)

end offers

/-! ### Steady handlers -/

section steady

variable {p : HandlerId → Bool} {level : HandlerLevel}

theorem filter_take_front {q : HandlerId → Bool} (hq : ∀ a, p a = true → q a = true)
    (l : List HandlerId) (n : Nat) :
    (l.take n).filter p <+: ((l.filter q).take n).filter p := by
  have hfirst : (l.take n).filter q <+: (l.filter q).take n := by
    refine List.prefix_take_iff.mpr ⟨(List.take_prefix n l).filter q, ?_⟩
    exact (List.length_filter_le _ _).trans (List.length_take_le _ _)
  have hfilter := hfirst.filter p
  have hsame : ((l.take n).filter q).filter p = (l.take n).filter p := by
    rw [List.filter_filter]
    refine List.filter_congr fun a _ => ?_
    cases ha : p a with
    | true => rw [hq a ha, Bool.and_true]
    | false => rw [Bool.false_and]
  rwa [hsame] at hfilter

theorem Call.forward_apply (parser : Parser P) (sasl : Sasl M) {call : Call}
    (hcall : ∀ handler, p handler = true → call.touches level handler = false) (e : Engine P M) :
    ((call.apply parser sasl e).1.stanzaHandlers level).filter p = (e.stanzaHandlers level).filter p ∧
      ∀ n, ((e.stanzaHandlers level).take n).filter p <+:
        (((call.apply parser sasl e).1.stanzaHandlers level).take n).filter p := by
  have hnot : ∀ {handler}, call.touches level handler = true → p handler = false := by
    intro handler htouches
    refine Bool.eq_false_of_not_eq_true fun hp => ?_
    rw [hcall handler hp] at htouches
    cases htouches
  rcases call.stanzaHandlers_apply e parser sasl level with hsame | ⟨handler, htouches, hadd⟩ |
    ⟨handler, htouches, hremove⟩
  · rw [hsame]
    exact ⟨rfl, fun _ => List.prefix_rfl⟩
  · rw [hadd]
    refine ⟨?_, fun n => ((List.prefix_append _ _).take n).filter p⟩
    rw [List.filter_append, List.filter_singleton, hnot htouches]
    exact List.append_nil _
  have hkept : ∀ a, p a = true → decide (a ≠ handler) = true := by
    intro a ha
    refine decide_eq_true fun heq => ?_
    rw [heq, hnot htouches] at ha
    cases ha
  rw [hremove]
  refine ⟨?_, fun n => filter_take_front hkept _ n⟩
  rw [List.filter_filter]
  refine List.filter_congr fun a _ => ?_
  cases ha : p a with
  | true => rw [hkept a ha, Bool.and_true]
  | false => rw [Bool.false_and]

theorem Response.forward_apply (parser : Parser P) (sasl : Sasl M) {r : Response}
    (hr : ∀ call ∈ r.calls, ∀ handler, p handler = true → call.touches level handler = false)
    (e : Engine P M) :
    ((r.apply parser sasl e).stanzaHandlers level).filter p = (e.stanzaHandlers level).filter p ∧
      ∀ n, ((e.stanzaHandlers level).take n).filter p <+:
        (((r.apply parser sasl e).stanzaHandlers level).take n).filter p := by
  obtain ⟨calls, handled⟩ := r
  induction calls generalizing e with
  | nil => exact ⟨rfl, fun _ => List.prefix_rfl⟩
  | cons call calls ih =>
    rw [List.forall_mem_cons] at hr
    obtain ⟨hfilter, hfront⟩ := call.forward_apply parser sasl hr.1 e
    obtain ⟨hfilter', hfront'⟩ := ih (call.apply parser sasl e).1 hr.2
    exact ⟨hfilter'.trans hfilter, fun n => (hfront n).trans (hfront' n)⟩

end steady

/-! ### The loop over a level -/

/-- The lists that the loop over a level finds after each of its rounds. Where it stops the list does not
matter any more. -/
def Engine.walkLists (parser : Parser P) (sasl : Sasl M) (level : HandlerLevel) (stanza : XmlElement) :
    List Response → Nat → Engine P M → List (List HandlerId)
  | rs, i, e =>
    match (e.stanzaHandlers level)[i]?, rs with
    | none, _ => []
    | some _, [] => [e.stanzaHandlers level]
    | some handler, r :: rs =>
      let e' := r.apply parser sasl (e.emit (.handleStanza level handler stanza))
      if level ≠ .peek ∧ r.handled then [e.stanzaHandlers level]
      else e'.stanzaHandlers level :: walkLists parser sasl level stanza rs (i + 1) e'

/-- Whether the loop has come to the end of the list. -/
def WalkEnd.isFinished : WalkEnd → Bool
  | finished _ => true
  | _ => false

section walk

variable (parser : Parser P) (sasl : Sasl M) (level : HandlerLevel) (stanza : XmlElement)

theorem offers_handleStanza (handler : HandlerId) (e : Engine P M) :
    offers level (e.emit (.handleStanza level handler stanza)).trace = offers level e.trace ++ [handler] := by
  have hone : offers level [.handleStanza level handler stanza] = [handler] := by
    simp [offers, Event.offeredAt]
  exact (offers_append level _ _).trans (by rw [hone])

variable (rs : List Response)

theorem offers_walk (i : Nat) (e : Engine P M) :
    offers level (e.walk parser sasl level stanza rs i).1.trace = offers level e.trace ++
      IndexWalk.visited i (e.stanzaHandlers level) (e.walkLists parser sasl level stanza rs i) := by
  induction rs generalizing i e with
  | nil =>
    unfold Engine.walkLists
    cases hhandler : (e.stanzaHandlers level)[i]? with
    | none =>
      rw [Engine.walk_of_none hhandler]
      exact (List.append_nil _).symm
    | some handler =>
      rw [Engine.walk_nil_of_some hhandler]
      rw [IndexWalk.visited, hhandler]
      exact offers_handleStanza level stanza handler e
  | cons r rs ih =>
    unfold Engine.walkLists
    cases hhandler : (e.stanzaHandlers level)[i]? with
    | none =>
      rw [Engine.walk_of_none hhandler]
      exact (List.append_nil _).symm
    | some handler =>
      have hcall : offers level (r.apply parser sasl (e.emit (.handleStanza level handler stanza))).trace =
          offers level e.trace ++ [handler] :=
        (r.offers_apply parser sasl _).trans (offers_handleStanza level stanza handler e)
      rw [Engine.walk_cons_of_some hhandler]
      dsimp only
      split
      · rw [IndexWalk.visited, hhandler, hcall]
        rfl
      · rw [ih, IndexWalk.visited, hhandler, hcall, List.append_assoc]
        rfl

variable {level} in
theorem offers_walk_of_ne {other : HandlerLevel} (hne : other ≠ level) (rs : List Response) (i : Nat)
    (e : Engine P M) :
    offers level (e.walk parser sasl other stanza rs i).1.trace = offers level e.trace := by
  refine Engine.walk_keeps (K := fun e' => offers level e'.trace = offers level e.trace) ?_ ?_ i rfl
  · intro handler e' h
    refine (offers_emit ?_ e'.trace).trans h
    exact if_neg hne
  · exact fun r _ e' h => (r.offers_apply parser sasl e').trans h

variable {level} {p : HandlerId → Bool}

theorem forward_walk {rs : List Response}
    (hrs : ∀ r ∈ rs, ∀ call ∈ r.calls, ∀ handler, p handler = true → call.touches level handler = false)
    (i : Nat) (e : Engine P M) :
    IndexWalk.Forward p i (e.stanzaHandlers level) (e.walkLists parser sasl level stanza rs i) := by
  induction rs generalizing i e with
  | nil =>
    unfold Engine.walkLists
    split
    · trivial
    · exact ⟨List.prefix_rfl, trivial⟩
    next heq => cases heq
  | cons r rs ih =>
    rw [List.forall_mem_cons] at hrs
    unfold Engine.walkLists
    split
    · trivial
    next heq => cases heq
    next handler r' rs' hhandler heq =>
      cases heq
      split
      · exact ⟨List.prefix_rfl, trivial⟩
      · have hcall := (r.forward_apply parser sasl hrs.1 (e.emit (.handleStanza level handler stanza))).2
        exact ⟨hcall (i + 1), ih hrs.2 _ _⟩

theorem filter_walk (other : HandlerLevel) {rs : List Response}
    (hrs : ∀ r ∈ rs, ∀ call ∈ r.calls, ∀ handler, p handler = true → call.touches level handler = false)
    (i : Nat) (e : Engine P M) :
    ((e.walk parser sasl other stanza rs i).1.stanzaHandlers level).filter p =
      (e.stanzaHandlers level).filter p := by
  refine Engine.walk_keeps
    (K := fun e' => (e'.stanzaHandlers level).filter p = (e.stanzaHandlers level).filter p) ?_ ?_ i rfl
  · exact fun _ _ h => h
  · exact fun r hr e' h => (r.forward_apply parser sasl (hrs r hr) e').1.trans h

variable (level) in
theorem last_walkLists (i : Nat) (e : Engine P M)
    (hfinished : (e.walk parser sasl level stanza rs i).2.isFinished = true) :
    IndexWalk.last (e.stanzaHandlers level) (e.walkLists parser sasl level stanza rs i) =
        (e.walk parser sasl level stanza rs i).1.stanzaHandlers level ∧
      ((e.walk parser sasl level stanza rs i).1.stanzaHandlers level).length ≤
        i + (e.walkLists parser sasl level stanza rs i).length := by
  have hnone : ∀ {rs : List Response} {i : Nat} {e : Engine P M},
      (e.stanzaHandlers level)[i]? = none →
      e.walkLists parser sasl level stanza rs i = [] := by
    intro rs i e h
    unfold Engine.walkLists
    rw [h]
  induction rs generalizing i e with
  | nil =>
    cases hhandler : (e.stanzaHandlers level)[i]? with
    | none =>
      rw [Engine.walk_of_none hhandler, hnone hhandler]
      exact ⟨rfl, List.getElem?_eq_none_iff.mp hhandler⟩
    | some handler =>
      rw [Engine.walk_nil_of_some hhandler] at hfinished
      cases hfinished
  | cons r rs ih =>
    cases hhandler : (e.stanzaHandlers level)[i]? with
    | none =>
      rw [Engine.walk_of_none hhandler, hnone hhandler]
      exact ⟨rfl, List.getElem?_eq_none_iff.mp hhandler⟩
    | some handler =>
      rw [Engine.walk_cons_of_some hhandler] at hfinished ⊢
      by_cases hhandled : level ≠ .peek ∧ r.handled = true
      · rw [if_pos hhandled] at hfinished
        cases hfinished
      have hlists : e.walkLists parser sasl level stanza (r :: rs) i =
          (r.apply parser sasl (e.emit (.handleStanza level handler stanza))).stanzaHandlers level ::
            Engine.walkLists parser sasl level stanza rs (i + 1)
              (r.apply parser sasl (e.emit (.handleStanza level handler stanza))) := by
        conv_lhs => unfold Engine.walkLists
        rw [hhandler]
        exact if_neg hhandled
      rw [if_neg hhandled] at hfinished ⊢
      obtain ⟨hlast, hlength⟩ := ih (i + 1) _ hfinished
      rw [hlists, IndexWalk.last_cons, List.length_cons]
      exact ⟨hlast, by omega⟩

end walk

/-! ### The dispatch -/

/-- The responses that are left and the engine when the loop over a level begins, if it does. -/
def Engine.loopStart (parser : Parser P) (sasl : Sasl M) (level : HandlerLevel) (stanza : XmlElement) :
    List HandlerLevel → List Response → Engine P M → Option (List Response × Engine P M)
  | [], _, _ => none
  | other :: levels, rs, e =>
    if other = level then some (rs, e)
    else match e.walk parser sasl other stanza rs 0 with
      | (e, .finished rs) => loopStart parser sasl level stanza levels rs e
      | _ => none

variable (parser : Parser P)

/-- The handlers of a level that a dispatch calls. -/
def called (sasl : Sasl M) (stanza : XmlElement) (rs : List Response) (e : Engine P M)
    (level : HandlerLevel) : List HandlerId :=
  (offers level (e.dispatch parser sasl stanza Engine.levels rs).1.trace).drop (offers level e.trace).length

/-- The handlers whose turn has come when a loop stops: those up to the one that it has called last. -/
def Engine.turn (sasl : Sasl M) (level : HandlerLevel) (stanza : XmlElement)
    (rs : List Response) (e : Engine P M) : List HandlerId :=
  (IndexWalk.last (e.stanzaHandlers level) (e.walkLists parser sasl level stanza rs 0)).take
    (e.walkLists parser sasl level stanza rs 0).length

/-- Of the handlers registered when the dispatch starts and steady, each is called once at its level, in their
order, up to one that handles the stanza. Nothing is said if an earlier level has handled it. -/
def FairAt (sasl : Sasl M) (stanza : XmlElement) (rs : List Response) (e : Engine P M)
    (level : HandlerLevel) : Prop :=
  match e.loopStart parser sasl level stanza Engine.levels rs with
  | none => True
  | some (rs', e') =>
    (called parser sasl stanza rs e level).filter (steady rs level) =
      (if (e'.walk parser sasl level stanza rs' 0).2.isFinished then e.stanzaHandlers level
        else e'.turn parser sasl level stanza rs').filter (steady rs level)

/-- In no round of the loop over the level a steady handler slips in front of the index. -/
def UnskippedAt (sasl : Sasl M) (stanza : XmlElement) (rs : List Response)
    (e : Engine P M) (level : HandlerLevel) : Prop :=
  match e.loopStart parser sasl level stanza Engine.levels rs with
  | none => True
  | some (rs', e') =>
    IndexWalk.NoSkip (steady rs level) 0 (e'.stanzaHandlers level)
      (e'.walkLists parser sasl level stanza rs' 0)

section dispatch

variable (parser : Parser P) (sasl : Sasl M) {level : HandlerLevel} (stanza : XmlElement)

theorem touches_of_steady {rs : List Response} {r : Response} (hr : r ∈ rs) {call : Call}
    (hcall : call ∈ r.calls) {handler : HandlerId} (h : steady rs level handler = true) :
    call.touches level handler = false := by
  have hnot := List.all_eq_true.mp (List.all_eq_true.mp h r hr) call hcall
  rwa [Bool.not_eq_true'] at hnot

theorem offers_dispatch_of_not_mem {levels : List HandlerLevel} (hlevel : level ∉ levels)
    (rs : List Response) (e : Engine P M) :
    offers level (e.dispatch parser sasl stanza levels rs).1.trace = offers level e.trace := by
  induction levels generalizing rs e with
  | nil => rfl
  | cons other levels ih =>
    rw [List.mem_cons, not_or] at hlevel
    have hwalk := offers_walk_of_ne parser sasl stanza (Ne.symm hlevel.1) rs 0 e
    rw [Engine.dispatch]
    split
    next heq =>
      rw [heq] at hwalk
      exact (ih hlevel.2 _ _).trans hwalk
    · exact hwalk

/-- What is known where the loop over a level begins. -/
theorem loopStart_spec {p : HandlerId → Bool} {levels : List HandlerLevel} (hnodup : levels.Nodup)
    {rs rs' : List Response} {e e' : Engine P M}
    (hrs : ∀ r ∈ rs, ∀ call ∈ r.calls, ∀ handler, p handler = true → call.touches level handler = false)
    (h : e.loopStart parser sasl level stanza levels rs = some (rs', e')) :
    rs' <:+ rs ∧ (e'.stanzaHandlers level).filter p = (e.stanzaHandlers level).filter p ∧
      offers level (e.dispatch parser sasl stanza levels rs).1.trace = offers level e.trace ++
        IndexWalk.visited 0 (e'.stanzaHandlers level) (e'.walkLists parser sasl level stanza rs' 0) := by
  induction levels generalizing rs e with
  | nil => cases h
  | cons other levels ih =>
    rw [List.nodup_cons] at hnodup
    rw [Engine.loopStart] at h
    split at h
    next heq =>
      obtain ⟨rfl, rfl⟩ := Prod.mk.inj (Option.some.inj h)
      subst heq
      refine ⟨List.suffix_rfl, rfl, ?_⟩
      have hwalk := offers_walk parser sasl other stanza rs 0 e
      rw [Engine.dispatch]
      split
      next hfinished =>
        rw [hfinished] at hwalk
        exact (offers_dispatch_of_not_mem parser sasl stanza hnodup.1 _ _).trans hwalk
      · exact hwalk
    next hne =>
      have hoffers := offers_walk_of_ne parser sasl stanza hne rs 0 e
      have hfilter := filter_walk parser sasl stanza other hrs 0 e
      have hresponses := responses_walk parser sasl other stanza rs 0 e
      split at h
      next e₁ rs₁ hwalk =>
        rw [hwalk] at hoffers hfilter hresponses
        have hsuffix : rs₁ <:+ rs := hresponses
        have hrest := ih hnodup.2 (fun r hr => hrs r (hsuffix.subset hr)) h
        rw [Engine.dispatch, hwalk]
        refine ⟨hrest.1.trans hsuffix, hrest.2.1.trans hfilter, ?_⟩
        rw [hrest.2.2, hoffers]
      · cases h

/-- At every level, the steady handlers get a stanza in their order and none of them misses it, if and only
if none ever slips in front of the index. -/
theorem fairAt_iff (rs : List Response) (e : Engine P M) :
    FairAt parser sasl stanza rs e level ↔ UnskippedAt parser sasl stanza rs e level := by
  unfold FairAt UnskippedAt
  cases hstart : e.loopStart parser sasl level stanza Engine.levels rs with
  | none => exact Iff.rfl
  | some start =>
    obtain ⟨rs', e'⟩ := start
    dsimp only
    have hsteady : ∀ r ∈ rs, ∀ call ∈ r.calls, ∀ handler, steady rs level handler = true →
        call.touches level handler = false := fun r hr call hcall handler => touches_of_steady hr hcall
    obtain ⟨hsuffix, hfilter, hoffers⟩ := loopStart_spec parser sasl stanza (by decide) hsteady hstart
    have hsteady' := fun r hr => hsteady r (hsuffix.subset hr)
    have hcalled : called parser sasl stanza rs e level = IndexWalk.visited 0 (e'.stanzaHandlers level)
        (e'.walkLists parser sasl level stanza rs' 0) := by
      rw [called, hoffers, List.drop_left]
    have hturn : (if (e'.walk parser sasl level stanza rs' 0).2.isFinished then e.stanzaHandlers level
          else e'.turn parser sasl level stanza rs').filter (steady rs level) =
        (e'.turn parser sasl level stanza rs').filter (steady rs level) := by
      split
      next hfinished =>
        obtain ⟨hlast, hlength⟩ := last_walkLists parser sasl level stanza rs' 0 e' hfinished
        rw [Nat.zero_add] at hlength
        rw [Engine.turn, hlast, List.take_of_length_le hlength,
          filter_walk parser sasl stanza level hsteady' 0 e', hfilter]
      · rfl
    have hiff := IndexWalk.filter_visited_eq_iff (forward_walk parser sasl stanza hsteady' 0 e')
    rw [List.take_zero, List.filter_nil, List.nil_append, Nat.zero_add] at hiff
    rw [hcalled, hturn]
    exact hiff

theorem fairAt_peek (rs : List Response) (e : Engine P M) : FairAt parser sasl stanza rs e .peek ↔
      (called parser sasl stanza rs e .peek).filter (steady rs .peek) =
        (if (e.walk parser sasl .peek stanza rs 0).2.isFinished then e.stanzaHandlers .peek
          else e.turn parser sasl .peek stanza rs).filter (steady rs .peek) := by
  have hstart : e.loopStart parser sasl .peek stanza Engine.levels rs = some (rs, e) := if_pos rfl
  rw [FairAt, hstart]

end dispatch

/-- An engine that is open, with two handlers that look at all stanzas. -/
def twoHandlers : Engine (StanzaParser XmlScanner.State) Unit :=
  (run (stanzaParser (Expat.ofScanner decodeAscii)) saslPlain
    ([.call (.setOutputHandler true), .call (.setTls .disabled), .call (.addStanzaHandler 1 .peek),
      .call (.addStanzaHandler 2 .peek), .call .connect] ++ serverLogin.map (Op.input · []))
    (Engine.create (stanzaParser (Expat.ofScanner decodeAscii)))).1

/-- The first handler removes itself when it gets a stanza, and the second one does not get it. -/
theorem not_fairAt_of_removal :
    ¬FairAt (stanzaParser (Expat.ofScanner decodeAscii)) saslPlain (XmlElement.ofName ⟨nsClient, "message"⟩)
      [⟨[.removeStanzaHandler 1], false⟩] twoHandlers .peek := by
  rw [fairAt_peek]
  decide +kernel

end Synciga.Xmpp
