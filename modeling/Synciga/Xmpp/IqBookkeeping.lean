import Synciga.Internal.Runs
import Synciga.Xmpp.Frames
import Synciga.Xmpp.StanzaParser

/-!
# Requests and their responses

`SendIq` makes an entry for a request, whose address is the cookie. It is there until the application removes it
by the cookie or its response comes in: then it is erased from `iq_entries_`, its handler is called, and when
that has returned it is deleted. The handler may use the cookie itself. Addresses may be used again; what
happens is cut into actions, so that handlers may run inside each other.

## Main definitions

* `IqEngine` — an engine whose entries have addresses

## Main results

* `IqEngine.iq_bookkeeping` — each request gets its response once
-/

namespace Synciga.Xmpp

variable {P M : Type}

/-- A call of a handler of responses. -/
structure IqResponse where
  handler : HandlerId
  cookie : Nat
  stanza : XmlElement

/-- The response that a handler is called with. -/
def Event.iqResponse? : Event → Option IqResponse
  | iqResponse handler cookie stanza => some ⟨handler, cookie, stanza⟩
  | _ => none

/-- The calls of handlers of responses, in order. -/
def iqResponses (trace : List Event) : List IqResponse := trace.filterMap Event.iqResponse?

/-- An iq of type result or error, with the id of the request and from where the request went. -/
structure IsResponseTo (element stanza : XmlElement) : Prop where
  name : stanza.name = qnIq
  type : stanza.attr qnType = "result" ∨ stanza.attr qnType = "error"
  hasId : stanza.hasAttr qnId = true
  id : stanza.attr qnId = element.attr qnId
  sender : stanza.attr qnFrom = element.attr qnTo

/-! ### The engine and the addresses of its entries -/

/-- An engine, the addresses of the entries by their numbers, and the numbers of those whose handlers run, the
innermost first. The requests, by number, and those that were removed are kept as history. -/
structure IqEngine (P M : Type) where
  engine : Engine P M
  address : Nat → Nat
  running : List Nat
  requests : List (Option XmlElement × Option HandlerId)
  removed : List Nat

/-- What happens to an engine. A handler that runs calls its functions from inside. -/
inductive IqAction
  /-- `SendIq`, with the address that `new` gives. -/
  | sendIq (element : Option XmlElement) (handler : Option HandlerId) (address : Nat)
  /-- `RemoveIqHandler`, with a cookie. -/
  | removeIqHandler (address : Nat)
  /-- Another function is called. -/
  | call (c : Call)
  /-- A stanza comes in. Its first handler is called. -/
  | stanza (element : XmlElement)
  /-- The innermost handler of a response returns, and its entry is deleted. -/
  | iqHandlerReturns
  /-- The next handler is called with a stanza that is no response. -/
  | nextHandler (level : HandlerLevel) (handler : HandlerId) (stanza : XmlElement)
  /-- No handler has handled the stanza. -/
  | unhandled (stanza : XmlElement)
  /-- `HandleInput` begins. -/
  | enter
  /-- The stream begins. -/
  | incomingStart (start : XmlElement)
  /-- The stream ends. -/
  | incomingEnd (isError : Bool)
  /-- `HandleInput` ends. -/
  | exit (saved : State)

/-- No request was sent. -/
structure Engine.NoRequests (e : Engine P M) : Prop where
  entries : e.iqEntries = []
  nextCookie : e.nextCookie = 0
  responses : iqResponses e.trace = []

/-- A stanza comes in. -/
def IqAction.IsStanza : IqAction → Prop
  | stanza _ => True
  | _ => False

namespace IqEngine

variable (parser : Parser P) (sasl : Sasl M)

/-- An engine that has not sent a request yet. -/
def initial (e : Engine P M) : IqEngine P M := ⟨e, fun _ => 0, [], [], []⟩

/-- The numbers of the entries that are not deleted. -/
def live (s : IqEngine P M) : List Nat := s.engine.iqEntries.map IqEntry.cookie ++ s.running

/-- `SendIq`. The address is not in use. -/
def sendIq (element : Option XmlElement) (handler : Option HandlerId) (address : Nat) (s : IqEngine P M) :
    Option (IqEngine P M) :=
  let result := s.engine.sendIq parser element handler
  if result.2 ≠ .ok then some { s with engine := result.1 }
  else if address ∈ s.live.map s.address then none
  else some { s with
    engine := result.1
    address := Function.update s.address s.engine.nextCookie address
    requests := s.requests ++ [(element, handler)] }

/-- `XmppEngineImpl::RemoveIqHandler`. -/
def removeIqHandler (address : Nat) (s : IqEngine P M) : IqEngine P M × ReturnStatus :=
  match s.engine.iqEntries.find? fun entry => s.address entry.cookie = address with
  | none => (s, .badArgument)
  | some entry =>
    ({ s with
        engine := (s.engine.removeIqHandler entry.cookie).1
        removed := entry.cookie :: s.removed }, .ok)

/-- The entry that `HandleIqResponse` finds, if `IncomingStanza` gets there. -/
def responding (stanza : XmlElement) (e : Engine P M) : Option IqEntry :=
  if e.hasError ∨ e.raisedReset then none
  else if stanza.name = qnStreamError then none
  else match e.loginTask with
    | some _ => none
    | none => e.findIqEntry stanza

/-- `IncomingStanza`, up to the first handler. -/
def incomingStanza (stanza : XmlElement) (s : IqEngine P M) : IqEngine P M :=
  { s with
    engine := (s.engine.incomingStanza parser sasl stanza []).1
    running := (responding stanza s.engine).toList.map IqEntry.cookie ++ s.running }

/-- An action, if it is possible. -/
def step (s : IqEngine P M) : IqAction → Option (IqEngine P M)
  | .sendIq element handler address => s.sendIq parser element handler address
  | .removeIqHandler address => some (s.removeIqHandler address).1
  | .call c =>
    match c with
    | .sendIq _ _ => none
    | .removeIqHandler _ => none
    | c => some { s with engine := (c.apply parser sasl s.engine).1 }
  | .stanza element => some (s.incomingStanza parser sasl element)
  | .iqHandlerReturns =>
    match s.running with
    | [] => none
    | _ :: running => some { s with running }
  | .nextHandler level handler stanza =>
    some { s with engine := s.engine.emit (.handleStanza level handler stanza) }
  | .unhandled stanza => some { s with engine := s.engine.unhandled parser stanza }
  | .enter => some { s with engine := s.engine.enter }
  | .incomingStart start => some { s with engine := s.engine.incomingStart sasl start }
  | .incomingEnd isError => some { s with engine := s.engine.incomingEnd isError }
  | .exit saved => some { s with engine := s.engine.exit parser saved }

end IqEngine

/-! ### The entries alone -/

/-- What matters of an engine for its requests. -/
structure IqView where
  entries : List IqEntry
  nextCookie : Nat
  responses : List IqResponse
  address : Nat → Nat
  running : List Nat
  requests : List (Option XmlElement × Option HandlerId)
  removed : List Nat

/-- The entries and the responses. -/
def IqEngine.view (s : IqEngine P M) : IqView :=
  ⟨s.engine.iqEntries, s.engine.nextCookie, iqResponses s.engine.trace, s.address, s.running, s.requests,
    s.removed⟩

namespace IqView

/-- The numbers of the requests that wait for a response. -/
def outstanding (v : IqView) : List Nat := v.entries.map IqEntry.cookie

/-- The numbers of the requests whose handlers were called. -/
def answered (v : IqView) : List Nat := v.responses.map IqResponse.cookie

/-- What an action does to the entries. -/
inductive Effect (v : IqView) : IqAction → IqView → Prop
  | quiet (a : IqAction) : Effect v a v
  | sent {element : XmlElement} {handler : HandlerId} {address : Nat}
      (hnew : address ∉ (v.outstanding ++ v.running).map v.address) :
      Effect v (.sendIq (some element) (some handler) address) { v with
          entries := v.entries ++ [⟨v.nextCookie, element.attr qnId, element.attr qnTo, handler⟩]
          nextCookie := v.nextCookie + 1
          address := Function.update v.address v.nextCookie address
          requests := v.requests ++ [(some element, some handler)] }
  | removed {entry : IqEntry} {before after : List IqEntry}
      (hentries : v.entries = before ++ entry :: after) :
      Effect v (.removeIqHandler (v.address entry.cookie))
        { v with entries := before ++ after, removed := entry.cookie :: v.removed }
  | responded {stanza : XmlElement} {entry : IqEntry} {before after : List IqEntry}
      (hentries : v.entries = before ++ entry :: after)
      (hname : stanza.name = qnIq) (htype : stanza.attr qnType = "result" ∨ stanza.attr qnType = "error")
      (hhasId : stanza.hasAttr qnId = true) (hid : stanza.attr qnId = entry.id)
      (hsender : stanza.attr qnFrom = entry.recipient) :
      Effect v (.stanza stanza) { v with
          entries := before ++ after
          responses := v.responses ++ [⟨entry.handler, entry.cookie, stanza⟩]
          running := entry.cookie :: v.running }
  | returned {n : Nat} {running : List Nat} (hrunning : v.running = n :: running) :
      Effect v .iqHandlerReturns { v with running }

end IqView

namespace IqView

/-- The entries, the answered requests and the removed ones are different, and each entry is for its request.
The handlers that run are those of answered requests. What is not deleted has an address of its own. -/
structure Sound (v : IqView) : Prop where
  numbered : v.requests.length = v.nextCookie
  distinct : (v.outstanding ++ (v.answered ++ v.removed)).Nodup
  old : ∀ n ∈ v.outstanding ++ (v.answered ++ v.removed), n < v.nextCookie
  running_mem : ∀ n ∈ v.running, n ∈ v.answered
  entries : ∀ entry ∈ v.entries, ∃ element,
    v.requests[entry.cookie]? = some (some element, some entry.handler) ∧
    entry.id = element.attr qnId ∧ entry.recipient = element.attr qnTo
  responses : ∀ r ∈ v.responses, ∃ element, v.requests[r.cookie]? = some (some element, some r.handler) ∧
    IsResponseTo element r.stanza
  addresses : ∀ n ∈ v.outstanding ++ v.running, ∀ m ∈ v.outstanding ++ v.running,
    v.address n = v.address m → n = m

variable {v v' : IqView} {a : IqAction}

theorem sound_initial (address : Nat → Nat) : Sound ⟨[], 0, [], address, [], [], []⟩ where
  numbered := rfl
  distinct := List.nodup_nil
  old := List.forall_mem_nil _
  running_mem := List.forall_mem_nil _
  entries := List.forall_mem_nil _
  responses := List.forall_mem_nil _
  addresses := List.forall_mem_nil _

theorem Sound.lt_of_live (h : v.Sound) {n : Nat} (hn : n ∈ v.outstanding ++ v.running) :
    n < v.nextCookie := by
  rcases List.mem_append.mp hn with hn | hn
  · exact h.old n (List.mem_append_left _ hn)
  · exact h.old n (List.mem_append_right _ (List.mem_append_left _ (h.running_mem n hn)))

theorem Sound.sent (h : v.Sound) (element : XmlElement) (handler : HandlerId) {address : Nat}
    (hnew : address ∉ (v.outstanding ++ v.running).map v.address) :
    Sound { v with
      entries := v.entries ++ [⟨v.nextCookie, element.attr qnId, element.attr qnTo, handler⟩]
      nextCookie := v.nextCookie + 1
      address := Function.update v.address v.nextCookie address
      requests := v.requests ++ [(some element, some handler)] } := by
  let entry : IqEntry := ⟨v.nextCookie, element.attr qnId, element.attr qnTo, handler⟩
  have houtstanding : (v.entries ++ [entry]).map IqEntry.cookie = v.outstanding ++ [v.nextCookie] :=
    List.map_append
  have hkept : ∀ {n : Nat} {r : Option XmlElement × Option HandlerId}, v.requests[n]? = some r →
      (v.requests ++ [(some element, some handler)])[n]? = some r := fun hn => by
    rw [List.getElem?_append_left (List.getElem?_eq_some_iff.mp hn).1, hn]
  have hlast : (v.requests ++ [(some element, some handler)])[v.nextCookie]? =
      some (some element, some handler) := by
    rw [← h.numbered, List.getElem?_concat_length]
  have hperm : ((v.outstanding ++ [v.nextCookie]) ++ (v.answered ++ v.removed)).Perm
      (v.nextCookie :: (v.outstanding ++ (v.answered ++ v.removed))) := by
    rw [List.append_assoc, List.singleton_append]
    exact List.perm_middle
  have hfresh : v.nextCookie ∉ v.outstanding ++ (v.answered ++ v.removed) := fun hmem =>
    Nat.lt_irrefl _ (h.old _ hmem)
  refine ⟨?_, ?_, fun n hn => ?_, h.running_mem, fun entry hentry => ?_, fun r hr => ?_, ?_⟩
  · exact (List.length_append).trans (congrArg (· + 1) h.numbered)
  · rw [outstanding, houtstanding]
    exact hperm.nodup_iff.mpr (List.nodup_cons.mpr ⟨hfresh, h.distinct⟩)
  · rw [outstanding, houtstanding] at hn
    rcases List.mem_cons.mp (hperm.mem_iff.mp hn) with rfl | hn
    · exact Nat.lt_succ_self _
    · exact Nat.lt_succ_of_lt (h.old n hn)
  · rcases List.mem_append.mp hentry with hentry | hentry
    · obtain ⟨request, hrequest, hid, hrecipient⟩ := h.entries entry hentry
      exact ⟨request, hkept hrequest, hid, hrecipient⟩
    · obtain rfl := List.mem_singleton.mp hentry
      exact ⟨element, hlast, rfl, rfl⟩
  · obtain ⟨request, hrequest, hresponse⟩ := h.responses r hr
    exact ⟨request, hkept hrequest, hresponse⟩
  have haddress : ∀ n ∈ v.outstanding ++ v.running,
      Function.update v.address v.nextCookie address n = v.address n :=
    fun n hn => Function.update_of_ne (h.lt_of_live hn).ne _ _
  have hother : ∀ n ∈ v.outstanding ++ v.running, v.address n ≠ address :=
    fun n hn heq => hnew (List.mem_map.mpr ⟨n, hn, heq⟩)
  have hlive : ∀ n ∈ (v.outstanding ++ [v.nextCookie]) ++ v.running,
      n = v.nextCookie ∨ n ∈ v.outstanding ++ v.running := fun n hn => by
    simp only [List.mem_append, List.mem_singleton] at hn ⊢
    tauto
  intro n hn m hm heq
  rw [outstanding, houtstanding] at hn hm
  dsimp only at heq
  rcases hlive n hn with rfl | hn <;> rcases hlive m hm with rfl | hm
  · rfl
  · rw [Function.update_self, haddress m hm] at heq
    exact absurd heq.symm (hother m hm)
  · rw [Function.update_self, haddress n hn] at heq
    exact absurd heq (hother n hn)
  · rw [haddress n hn, haddress m hm] at heq
    exact h.addresses n hn m hm heq

theorem Sound.taken (h : v.Sound) {entry : IqEntry} {before after : List IqEntry}
    (hentries : v.entries = before ++ entry :: after) {responses : List IqResponse}
    {running removed : List Nat}
    (hperm : (responses.map IqResponse.cookie ++ removed).Perm (entry.cookie :: (v.answered ++ v.removed)))
    (hresponses : ∀ r ∈ responses, ∃ element, v.requests[r.cookie]? = some (some element, some r.handler) ∧
      IsResponseTo element r.stanza)
    (hrunning : ∀ n ∈ running, n ∈ responses.map IqResponse.cookie ∧ (n = entry.cookie ∨ n ∈ v.running)) :
    Sound { v with entries := before ++ after, responses, running, removed } := by
  have houtstanding : v.outstanding =
      before.map IqEntry.cookie ++ entry.cookie :: after.map IqEntry.cookie := by
    rw [outstanding, hentries, List.map_append, List.map_cons]
  have hrest : (before ++ after).map IqEntry.cookie =
      before.map IqEntry.cookie ++ after.map IqEntry.cookie := List.map_append
  have hall : ((before ++ after).map IqEntry.cookie ++ (responses.map IqResponse.cookie ++ removed)).Perm
      (v.outstanding ++ (v.answered ++ v.removed)) := by
    rw [houtstanding, hrest]
    refine (hperm.append_left _).trans ?_
    refine List.perm_middle.trans ?_
    exact List.perm_middle.symm.append_right _
  have hmem : ∀ n ∈ (before ++ after).map IqEntry.cookie, n ∈ v.outstanding := fun n hn => by
    rw [hrest] at hn
    rw [houtstanding]
    rcases List.mem_append.mp hn with hn | hn
    · exact List.mem_append_left _ hn
    · exact List.mem_append_right _ (List.mem_cons_of_mem _ hn)
  have hlive : ∀ n ∈ (before ++ after).map IqEntry.cookie ++ running, n ∈ v.outstanding ++ v.running := by
    intro n hn
    rcases List.mem_append.mp hn with hn | hn
    · exact List.mem_append_left _ (hmem n hn)
    · rcases (hrunning n hn).2 with rfl | hn
      · rw [houtstanding]
        exact List.mem_append_left _ (List.mem_append_right _ List.mem_cons_self)
      · exact List.mem_append_right _ hn
  refine ⟨h.numbered, hall.nodup_iff.mpr h.distinct, fun n hn => h.old n (hall.mem_iff.mp hn),
    fun n hn => (hrunning n hn).1, fun other hother => h.entries other ?_, hresponses, fun n hn m hm =>
      h.addresses n (hlive n hn) m (hlive m hm)⟩
  rw [hentries]
  rcases List.mem_append.mp hother with hother | hother
  · exact List.mem_append_left _ hother
  · exact List.mem_append_right _ (List.mem_cons_of_mem _ hother)

theorem Sound.effect (h : v.Sound) (heffect : v.Effect a v') : v'.Sound := by
  cases heffect with
  | quiet => exact h
  | sent hnew => exact h.sent _ _ hnew
  | removed hentries =>
    exact h.taken hentries List.perm_middle h.responses fun n hn => ⟨h.running_mem n hn, .inr hn⟩
  | @responded stanza entry before after hentries hname htype hhasId hid hsender =>
    have hentry : entry ∈ v.entries := by
      rw [hentries]
      exact List.mem_append_right _ List.mem_cons_self
    obtain ⟨element, hrequest, hentryId, hrecipient⟩ := h.entries entry hentry
    let response : IqResponse := ⟨entry.handler, entry.cookie, stanza⟩
    have hanswered : (v.responses ++ [response]).map IqResponse.cookie = v.answered ++ [entry.cookie] :=
      List.map_append
    refine h.taken hentries ?_ (fun r hr => ?_) fun n hn => ?_
    · rw [hanswered, List.append_assoc, List.singleton_append]
      exact List.perm_middle
    · rcases List.mem_append.mp hr with hr | hr
      · exact h.responses r hr
      · obtain rfl := List.mem_singleton.mp hr
        exact ⟨element, hrequest, hname, htype, hhasId, hid.trans hentryId, hsender.trans hrecipient⟩
    · rw [hanswered]
      rcases List.mem_cons.mp hn with rfl | hn
      · exact ⟨List.mem_append_right _ (List.mem_singleton.mpr rfl), .inl rfl⟩
      · exact ⟨List.mem_append_left _ (h.running_mem n hn), .inr hn⟩
  | @returned n running hrunning =>
    have hsub : ∀ m ∈ running, m ∈ v.running := fun m hm => by
      rw [hrunning]
      exact List.mem_cons_of_mem _ hm
    have hlive : ∀ m ∈ v.outstanding ++ running, m ∈ v.outstanding ++ v.running := fun m hm =>
      (List.mem_append.mp hm).elim (List.mem_append_left _) fun hm => List.mem_append_right _ (hsub m hm)
    exact ⟨h.numbered, h.distinct, h.old, fun m hm => h.running_mem m (hsub m hm), h.entries, h.responses,
      fun m hm k hk => h.addresses m (hlive m hm) k (hlive k hk)⟩

theorem Effect.kept (heffect : v.Effect a v') (h : v.Sound) {entry : IqEntry} (hentry : entry ∈ v.entries)
    (hstanza : ¬a.IsStanza) (hremove : a ≠ .removeIqHandler (v.address entry.cookie)) :
    entry ∈ v'.entries ∧ v'.address entry.cookie = v.address entry.cookie := by
  cases heffect with
  | quiet => exact ⟨hentry, rfl⟩
  | sent hnew =>
    have hlive : entry.cookie ∈ v.outstanding := List.mem_map_of_mem hentry
    have hlt := h.lt_of_live (List.mem_append_left _ hlive)
    exact ⟨List.mem_append_left _ hentry, Function.update_of_ne hlt.ne _ _⟩
  | removed hentries =>
    rw [hentries] at hentry
    rcases List.mem_append.mp hentry with hentry | hentry
    · exact ⟨List.mem_append_left _ hentry, rfl⟩
    · rcases List.mem_cons.mp hentry with rfl | hentry
      · exact absurd rfl hremove
      · exact ⟨List.mem_append_right _ hentry, rfl⟩
  | responded => exact absurd trivial hstanza
  | returned => exact ⟨hentry, rfl⟩

end IqView

/-! ### What the engine does to its entries -/

theorem iqResponses_append (trace trace' : List Event) :
    iqResponses (trace ++ trace') = iqResponses trace ++ iqResponses trace' :=
  List.filterMap_append

theorem iqResponses_eq (trace : List Event) : iqResponses trace = iqResponses (callbacks trace) := by
  rw [iqResponses, iqResponses, callbacks, List.filterMap_filter]
  congr 1
  funext event
  cases event <;> rfl

theorem iqResponses_emit {event : Event} (h : event.iqResponse? = none) (trace : List Event) :
    iqResponses (trace ++ [event]) = iqResponses trace := by
  have hnone : iqResponses [event] = [] := List.filterMap_cons_none h
  rw [iqResponses_append, hnone, List.append_nil]

theorem iqResponses_of_callbacks {trace trace' : List Event} (h : callbacks trace' = callbacks trace) :
    iqResponses trace' = iqResponses trace := by
  rw [iqResponses_eq, h, ← iqResponses_eq]

theorem eraseP_of_find? {α : Type*} {p : α → Bool} {l : List α} {a : α} (h : l.find? p = some a) :
    p a = true ∧ ∃ before after, l = before ++ a :: after ∧ (∀ b ∈ before, p b = false) ∧
      l.eraseP p = before ++ after := by
  obtain ⟨ha, before, after, rfl, hbefore⟩ := List.find?_eq_some_iff_append.mp h
  have hbefore : ∀ b ∈ before, p b = false := fun b hb => by simpa using hbefore b hb
  refine ⟨ha, before, after, rfl, hbefore, ?_⟩
  rw [List.eraseP_append_right _ fun b hb => Bool.eq_false_iff.mp (hbefore b hb),
    List.eraseP_cons_of_pos ha]

namespace Engine

variable (parser : Parser P) (sasl : Sasl M) {e : Engine P M}

theorem sendIq_cases (element : Option XmlElement) (handler : Option HandlerId) (e : Engine P M) :
    ((e.sendIq parser element handler).2 ≠ .ok ∧ (e.sendIq parser element handler).1 = e) ∨
      ∃ request h, element = some request ∧ handler = some h ∧
        (e.sendIq parser element handler).2 = .ok ∧
        (e.sendIq parser element handler).1.iqEntries =
          e.iqEntries ++ [⟨e.nextCookie, request.attr qnId, request.attr qnTo, h⟩] ∧
        (e.sendIq parser element handler).1.nextCookie = e.nextCookie + 1 := by
  unfold sendIq
  split
  · exact .inl ⟨fun hok => (by cases hok), rfl⟩
  split
  next h request =>
    repeat' split
    next => exact .inl ⟨fun hok => (by cases hok), rfl⟩
    next => exact .inl ⟨fun hok => (by cases hok), rfl⟩
    next => exact .inl ⟨fun hok => (by cases hok), rfl⟩
    next =>
      have htables := tables_sendStanza { e with
        iqEntries := e.iqEntries ++ [⟨e.nextCookie, request.attr qnId, request.attr qnTo, h⟩]
        nextCookie := e.nextCookie + 1 } parser request
      exact .inr ⟨request, h, rfl, rfl, rfl, iqEntries_eq htables, nextCookie_eq htables⟩
  · exact .inl ⟨fun hok => (by cases hok), rfl⟩

theorem walk_nil (level : HandlerLevel) (stanza : XmlElement) (i : Nat) (e : Engine P M) :
    walk parser sasl level stanza [] i e = (e, .finished []) ∨
      ∃ handler, walk parser sasl level stanza [] i e =
        (e.emit (.handleStanza level handler stanza), .running) := by
  cases hhandler : (e.stanzaHandlers level)[i]? with
  | none => exact .inl (walk_of_none hhandler [])
  | some handler => exact .inr ⟨handler, walk_nil_of_some hhandler⟩

theorem dispatch_nil (stanza : XmlElement) (levels : List HandlerLevel) (e : Engine P M) :
    dispatch parser sasl stanza levels [] e = (e, .finished []) ∨ ∃ level handler,
      dispatch parser sasl stanza levels [] e = (e.emit (.handleStanza level handler stanza), .running) := by
  induction levels with
  | nil => exact .inl rfl
  | cons level levels ih =>
    rw [dispatch]
    rcases walk_nil parser sasl level stanza 0 e with hwalk | ⟨handler, hwalk⟩
    · rw [hwalk]
      exact ih
    · rw [hwalk]
      exact .inr ⟨level, handler, rfl⟩

theorem unhandled_frame (sasl : Sasl M) (stanza : XmlElement) (e : Engine P M) :
    (e.unhandled parser stanza).tables = e.tables ∧
      callbacks (e.unhandled parser stanza).trace = callbacks e.trace := by
  rw [unhandled]
  split
  · have hother : ¬(Call.sendStanzaError stanza .featureNotImplemented "").IsForTables := id
    exact ⟨Call.tables_apply e parser sasl hother,
      Call.callbacks_apply parser sasl (.sendStanzaError stanza .featureNotImplemented "") e⟩
  · exact ⟨rfl, rfl⟩

theorem callbacks_signalError (error : Error) (subcode : Int) (e : Engine P M) :
    callbacks (e.signalError error subcode).trace = callbacks e.trace := by
  have hcallbacks := Xmpp.callbacks_signalError e.core error
  rw [← core_signalError error subcode] at hcallbacks
  exact hcallbacks

theorem incomingStart_frame (start : XmlElement) (e : Engine P M) :
    (e.incomingStart sasl start).tables = e.tables ∧
      callbacks (e.incomingStart sasl start).trace = callbacks e.trace := by
  rw [incomingStart]
  split
  · exact ⟨rfl, rfl⟩
  · split
    next t _ =>
      exact ⟨tables_loginStanza e sasl (some start) true t,
        callbacks_loginStanza sasl e (some start) true t⟩
    next => exact ⟨tables_signalError e .xml 0, callbacks_signalError .xml 0 e⟩

theorem incomingEnd_frame (isError : Bool) (e : Engine P M) : (e.incomingEnd isError).tables = e.tables ∧
      callbacks (e.incomingEnd isError).trace = callbacks e.trace := by
  rw [incomingEnd]
  split
  · exact ⟨rfl, rfl⟩
  · exact ⟨tables_signalError e _ 0, callbacks_signalError _ 0 e⟩

variable {stanza : XmlElement}

theorem incomingStanza_of_none (h : IqEngine.responding stanza e = none) :
    (e.incomingStanza parser sasl stanza []).1.tables = e.tables ∧
      iqResponses (e.incomingStanza parser sasl stanza []).1.trace = iqResponses e.trace := by
  unfold IqEngine.responding at h
  unfold incomingStanza
  split at h
  next hignored =>
    rw [if_pos hignored]
    exact ⟨rfl, rfl⟩
  next hlistens =>
    rw [if_neg hlistens]
    split at h
    next herror =>
      rw [if_pos herror]
      have hcallbacks := Xmpp.callbacks_signalError e.core .stream
      rw [← core_signalStreamError stanza] at hcallbacks
      exact ⟨tables_signalStreamError e stanza, iqResponses_of_callbacks hcallbacks⟩
    next hstanza =>
      rw [if_neg hstanza]
      cases hlogin : e.loginTask with
      | some t =>
        exact ⟨tables_loginStanza e sasl (some stanza) false t,
          iqResponses_of_callbacks (callbacks_loginStanza sasl e (some stanza) false t)⟩
      | none =>
        rw [hlogin] at h
        dsimp only at h ⊢
        rw [h]
        rcases dispatch_nil parser sasl stanza levels e with hdispatch | ⟨level, handler, hdispatch⟩
        · rw [hdispatch]
          obtain ⟨htables, hcallbacks⟩ := unhandled_frame parser sasl stanza e
          exact ⟨htables, iqResponses_of_callbacks hcallbacks⟩
        · rw [hdispatch]
          exact ⟨rfl, iqResponses_emit rfl _⟩

variable {entry : IqEntry}

theorem responding_eq_some (h : IqEngine.responding stanza e = some entry) :
    ¬(e.hasError = true ∨ e.raisedReset = true) ∧ stanza.name ≠ qnStreamError ∧ e.loginTask = none ∧
      e.findIqEntry stanza = some entry := by
  unfold IqEngine.responding at h
  split at h
  · cases h
  next hlistens =>
    split at h
    · cases h
    next hstanza =>
      split at h
      · cases h
      next hlogin => exact ⟨hlistens, hstanza, hlogin, h⟩

/-- The entry that is found is the first one that the response is for, and the one that is erased.
-/
theorem findIqEntry_eq_some (h : e.findIqEntry stanza = some entry) :
    stanza.name = qnIq ∧ (stanza.attr qnType = "result" ∨ stanza.attr qnType = "error") ∧
      stanza.hasAttr qnId = true ∧ stanza.attr qnId = entry.id ∧ stanza.attr qnFrom = entry.recipient ∧
      ∃ before after, e.iqEntries = before ++ entry :: after ∧
        (e.iqEntries.eraseP fun other => other.id = entry.id ∧ other.recipient = entry.recipient) =
          before ++ after := by
  rw [findIqEntry] at h
  split at h
  · cases h
  next hname =>
    split at h
    · cases h
    next htype =>
      split at h
      · cases h
      next hid =>
        obtain ⟨hentryId, hrecipient⟩ := of_decide_eq_true (eraseP_of_find? h).1
        have hresponse : stanza.attr qnType = "result" ∨ stanza.attr qnType = "error" := by
          by_cases hresult : stanza.attr qnType = "result"
          · exact .inl hresult
          · exact .inr (not_not.mp fun herror => htype ⟨hresult, herror⟩)
        rw [← hentryId, ← hrecipient] at h
        obtain ⟨-, before, after, hentries, -, herase⟩ := eraseP_of_find? h
        exact ⟨not_not.mp hname, hresponse, Bool.eq_true_of_not_eq_false hid, hentryId.symm,
          hrecipient.symm, before, after, hentries, herase⟩

theorem incomingStanza_of_some (h : IqEngine.responding stanza e = some entry) {before after : List IqEntry}
    (herase : (e.iqEntries.eraseP fun other => other.id = entry.id ∧ other.recipient = entry.recipient) =
      before ++ after) :
    (e.incomingStanza parser sasl stanza []).1 =
      { e with iqEntries := before ++ after }.emit (.iqResponse entry.handler entry.cookie stanza) := by
  obtain ⟨hlistens, hstanza, hlogin, hfind⟩ := responding_eq_some h
  unfold incomingStanza
  rw [if_neg hlistens, if_neg hstanza]
  split
  next t hlogin' => cases hlogin.symm.trans hlogin'
  next =>
    rw [hfind]
    dsimp only [iqResponse]
    rw [herase]

end Engine

namespace IqEngine

variable {parser : Parser P} {sasl : Sasl M} {s s' : IqEngine P M}

variable {e : Engine P M}

theorem view_of_same (hentries : e.iqEntries = s.engine.iqEntries)
    (hnext : e.nextCookie = s.engine.nextCookie)
    (hresponses : iqResponses e.trace = iqResponses s.engine.trace) :
    { s with engine := e }.view = s.view := by
  simp only [view, hentries, hnext, hresponses]

theorem view_of_frame (h : e.tables = s.engine.tables ∧ callbacks e.trace = callbacks s.engine.trace) :
    { s with engine := e }.view = s.view :=
  view_of_same (Engine.iqEntries_eq h.1) (Engine.nextCookie_eq h.1) (iqResponses_of_callbacks h.2)

theorem effect_sendIq (sasl : Sasl M) {element : Option XmlElement} {handler : Option HandlerId}
    {address : Nat} (hstep : s.sendIq parser element handler address = some s') :
    s.view.Effect (.sendIq element handler address) s'.view := by
  have hcallbacks : callbacks (s.engine.sendIq parser element handler).1.trace = callbacks s.engine.trace :=
    Call.callbacks_apply parser sasl (.sendIq element handler) s.engine
  rcases Engine.sendIq_cases parser element handler s.engine with ⟨hrefused, hsame⟩ |
    ⟨request, h, rfl, rfl, hok, hentries, hnext⟩
  · rw [sendIq, if_pos hrefused, hsame] at hstep
    obtain rfl := Option.some.inj hstep
    exact .quiet _
  rw [sendIq, if_neg (not_not.mpr hok)] at hstep
  split at hstep
  · cases hstep
  next hnew =>
    obtain rfl := Option.some.inj hstep
    have heffect : s.view.Effect (.sendIq request h address) _ := .sent hnew
    simp only [view, hentries, hnext, iqResponses_of_callbacks hcallbacks]
    exact heffect

theorem effect_removeIqHandler (address : Nat) :
    s.view.Effect (.removeIqHandler address) (s.removeIqHandler address).1.view := by
  rw [removeIqHandler]
  cases hfind : s.engine.iqEntries.find? fun entry => s.address entry.cookie = address with
  | none => exact .quiet _
  | some entry =>
    obtain ⟨hmatch, before, after, hentries, hbefore, -⟩ := eraseP_of_find? hfind
    have haddress : s.address entry.cookie = address := of_decide_eq_true hmatch
    have herase : s.engine.iqEntries.eraseP (·.cookie = entry.cookie) = before ++ after := by
      rw [hentries, List.eraseP_append_right _ fun other hother hsame => ?_, List.eraseP_cons_of_pos]
      · exact decide_eq_true rfl
      · have hne := hbefore other hother
        rw [of_decide_eq_true hsame, haddress] at hne
        cases (decide_eq_true rfl).symm.trans hne
    have hfound : s.engine.iqEntries.any (·.cookie = entry.cookie) = true :=
      List.any_eq_true.mpr ⟨entry, List.mem_of_find?_eq_some hfind, decide_eq_true rfl⟩
    have heffect : s.view.Effect (.removeIqHandler (s.address entry.cookie)) _ := .removed hentries
    rw [← haddress]
    simp only [view, Engine.removeIqHandler, hfound, if_true, herase]
    exact heffect

theorem effect_incomingStanza (stanza : XmlElement) :
    s.view.Effect (.stanza stanza) (s.incomingStanza parser sasl stanza).view := by
  cases hresponding : responding stanza s.engine with
  | none =>
    obtain ⟨htables, hresponses⟩ := Engine.incomingStanza_of_none parser sasl hresponding
    have hsame : (s.incomingStanza parser sasl stanza).view = s.view := by
      rw [incomingStanza, hresponding]
      exact view_of_same (Engine.iqEntries_eq htables) (Engine.nextCookie_eq htables) hresponses
    rw [hsame]
    exact .quiet _
  | some entry =>
    obtain ⟨-, -, -, hfind⟩ := Engine.responding_eq_some hresponding
    obtain ⟨hname, htype, hhasId, hid, hsender, before, after, hentries, herase⟩ :=
      Engine.findIqEntry_eq_some hfind
    have heffect := IqView.Effect.responded (v := s.view) hentries hname htype hhasId hid hsender
    have hengine := Engine.incomingStanza_of_some parser sasl hresponding herase
    rw [incomingStanza, hresponding, hengine]
    simp only [view, Engine.emit, iqResponses_append]
    exact heffect

theorem step_effect {a : IqAction} (hstep : s.step parser sasl a = some s') : s.view.Effect a s'.view := by
  cases a with
  | sendIq element handler address => exact effect_sendIq sasl hstep
  | removeIqHandler address =>
    obtain rfl := Option.some.inj hstep
    exact effect_removeIqHandler address
  | call c =>
    have hcallbacks := Call.callbacks_apply parser sasl c s.engine
    have hframe (hother : ¬c.IsForTables) :
        { s with engine := (c.apply parser sasl s.engine).1 }.view = s.view :=
      view_of_frame ⟨Call.tables_apply s.engine parser sasl hother, hcallbacks⟩
    cases c with
    | sendIq element handler => cases hstep
    | removeIqHandler cookie => cases hstep
    | addStanzaHandler handler level =>
      obtain rfl := Option.some.inj hstep
      have hentries : (s.engine.addStanzaHandler handler level).1.iqEntries = s.engine.iqEntries ∧
          (s.engine.addStanzaHandler handler level).1.nextCookie = s.engine.nextCookie := by
        rw [Engine.addStanzaHandler]
        split <;> exact ⟨rfl, rfl⟩
      have hview := view_of_same hentries.1 hentries.2 (iqResponses_of_callbacks hcallbacks)
      rw [Call.apply, hview]
      exact .quiet _
    | removeStanzaHandler handler =>
      obtain rfl := Option.some.inj hstep
      exact .quiet _
    | _ =>
      obtain rfl := Option.some.inj hstep
      rw [hframe id]
      exact .quiet _
  | stanza element =>
    obtain rfl := Option.some.inj hstep
    exact effect_incomingStanza element
  | iqHandlerReturns =>
    rw [step] at hstep
    split at hstep
    · cases hstep
    next n running hrunning =>
      obtain rfl := Option.some.inj hstep
      exact .returned hrunning
  | nextHandler level handler stanza =>
    obtain rfl := Option.some.inj hstep
    rw [view_of_same (e := s.engine.emit (.handleStanza level handler stanza)) rfl rfl
      (iqResponses_emit rfl _)]
    exact .quiet _
  | unhandled stanza =>
    obtain rfl := Option.some.inj hstep
    rw [view_of_frame (Engine.unhandled_frame parser sasl stanza s.engine)]
    exact .quiet _
  | enter =>
    obtain rfl := Option.some.inj hstep
    exact .quiet _
  | incomingStart start =>
    obtain rfl := Option.some.inj hstep
    rw [view_of_frame (Engine.incomingStart_frame sasl start s.engine)]
    exact .quiet _
  | incomingEnd isError =>
    obtain rfl := Option.some.inj hstep
    rw [view_of_frame (Engine.incomingEnd_frame isError s.engine)]
    exact .quiet _
  | exit saved =>
    obtain rfl := Option.some.inj hstep
    have hcallbacks := callbacks_exit s.engine.core saved
    rw [← Engine.core_exit parser] at hcallbacks
    rw [view_of_frame ⟨s.engine.tables_exit parser saved, hcallbacks⟩]
    exact .quiet _

/-! ### Runs -/

theorem sound_run (hstart : e.NoRequests) {actions : List IqAction}
    (hrun : Runs.run (step parser sasl) (initial e) actions = some s) : s.view.Sound := by
  refine Runs.invariant_of_step (P := fun s => s.view.Sound)
    (fun s a s' h hstep => h.effect (step_effect hstep)) ?_ hrun
  have hview : (initial e).view = ⟨[], 0, [], fun _ => 0, [], [], []⟩ := by
    rw [initial, view, hstart.entries, hstart.nextCookie, hstart.responses]
  rw [hview]
  exact IqView.sound_initial _

variable {entry : IqEntry}

theorem not_answered (h : s.view.Sound) (hentry : entry ∈ s.engine.iqEntries)
    {r : IqResponse} (hr : r ∈ iqResponses s.engine.trace) : r.cookie ≠ entry.cookie := by
  rintro heq
  have hdisjoint := (List.nodup_append.mp h.distinct).2.2
  exact hdisjoint entry.cookie (List.mem_map_of_mem hentry) entry.cookie
    (List.mem_append_left _ (List.mem_map.mpr ⟨r, hr, heq⟩)) rfl

theorem removeIqHandler_running (h : s.view.Sound) {n : Nat} (hn : n ∈ s.running) :
    s.removeIqHandler (s.address n) = (s, .badArgument) := by
  have hnone : (s.engine.iqEntries.find? fun entry => s.address entry.cookie = s.address n) = none := by
    refine List.find?_eq_none.mpr fun entry hentry haddress => ?_
    have haddress := of_decide_eq_true haddress
    have hlive : entry.cookie ∈ s.view.outstanding := List.mem_map_of_mem hentry
    have hsame := h.addresses _ (List.mem_append_left _ hlive) n (List.mem_append_right _ hn) haddress
    obtain ⟨r, hr, hcookie⟩ := List.mem_map.mp (h.running_mem n hn)
    exact not_answered h hentry hr (hcookie.trans hsame.symm)
  rw [removeIqHandler, hnone]

theorem mem_incomingStanza {stanza : XmlElement} (hentry : entry ∈ s.engine.iqEntries)
    (hother : responding stanza s.engine ≠ some entry) :
    entry ∈ (s.incomingStanza parser sasl stanza).engine.iqEntries := by
  rw [incomingStanza]
  cases hresponding : responding stanza s.engine with
  | none => rwa [Engine.iqEntries_eq (Engine.incomingStanza_of_none parser sasl hresponding).1]
  | some found =>
    obtain ⟨-, -, -, hfind⟩ := Engine.responding_eq_some hresponding
    obtain ⟨-, -, -, -, -, before, after, hentries, herase⟩ := Engine.findIqEntry_eq_some hfind
    rw [Engine.incomingStanza_of_some parser sasl hresponding herase]
    rw [hentries] at hentry
    rcases List.mem_append.mp hentry with hentry | hentry
    · exact List.mem_append_left _ hentry
    · rcases List.mem_cons.mp hentry with rfl | hentry
      · exact absurd hresponding hother
      · exact List.mem_append_right _ hentry

theorem kept_run (h : s.view.Sound) (hentry : entry ∈ s.engine.iqEntries) {calls : List IqAction}
    (hcalls : ∀ a ∈ calls, ¬a.IsStanza ∧ a ≠ .removeIqHandler (s.address entry.cookie))
    (hrun : Runs.run (step parser sasl) s calls = some s') :
    entry ∈ s'.engine.iqEntries ∧ s'.view.Sound := by
  induction calls generalizing s with
  | nil =>
    cases hrun
    exact ⟨hentry, h⟩
  | cons a calls ih =>
    obtain ⟨t, hstep, hrest⟩ := Runs.run_cons hrun
    have heffect := step_effect hstep
    obtain ⟨hstanza, hremove⟩ := hcalls a List.mem_cons_self
    obtain ⟨hkept, haddress⟩ := heffect.kept h hentry hstanza hremove
    refine ih (h.effect heffect) hkept (fun b hb => ?_) hrest
    rw [show t.address entry.cookie = s.address entry.cookie from haddress]
    exact hcalls b (List.mem_cons_of_mem _ hb)

/-- **The requests and their responses.** In every run a handler is called at most once for a request, with a
response to it, and not if it was removed. The cookie of a request whose handler runs removes nothing. Whatever
a handler does, a request that the stanza is no response to keeps waiting, unless its own cookie removes it. -/
theorem iq_bookkeeping {e : Engine P M} (hstart : e.NoRequests) {actions : List IqAction}
    (hrun : Runs.run (step parser sasl) (initial e) actions = some s) :
    ((iqResponses s.engine.trace).map IqResponse.cookie).Nodup ∧
      (∀ r ∈ iqResponses s.engine.trace, ∃ element,
        s.requests[r.cookie]? = some (some element, some r.handler) ∧ IsResponseTo element r.stanza) ∧
      (∀ r ∈ iqResponses s.engine.trace, r.cookie ∉ s.removed) ∧
      (∀ n ∈ s.running, s.removeIqHandler (s.address n) = (s, .badArgument)) ∧
      (∀ stanza s₁ calls s', s.step parser sasl (.stanza stanza) = some s₁ →
        Runs.run (step parser sasl) s₁ calls = some s' → (∀ a ∈ calls, ¬a.IsStanza) →
        ∀ entry ∈ s.engine.iqEntries, responding stanza s.engine ≠ some entry →
          .removeIqHandler (s.address entry.cookie) ∉ calls →
          entry ∈ s'.engine.iqEntries ∧ ∀ r ∈ iqResponses s'.engine.trace, r.cookie ≠ entry.cookie) := by
  have h := sound_run hstart hrun
  have hdistinct := (List.nodup_append.mp h.distinct).2.1
  refine ⟨(List.nodup_append.mp hdistinct).1, h.responses, fun r hr hremoved => ?_,
    fun n hn => removeIqHandler_running h hn, ?_⟩
  · exact (List.nodup_append.mp hdistinct).2.2 r.cookie (List.mem_map_of_mem hr) r.cookie hremoved rfl
  intro stanza s₁ calls s' hstep hcalls hstanzas entry hentry hother hremove
  have h₁ := h.effect (step_effect hstep)
  obtain rfl := Option.some.inj hstep
  have hkept : entry ∈ (s.incomingStanza parser sasl stanza).engine.iqEntries :=
    mem_incomingStanza hentry hother
  obtain ⟨hstays, h'⟩ := kept_run h₁ hkept
    (fun a ha => ⟨hstanzas a ha, fun heq => hremove (heq ▸ ha)⟩) hcalls
  exact ⟨hstays, fun r hr => not_answered h' hstays hr⟩

/-- A parser that tells nothing. -/
def silentParser : Parser Unit := ⟨(), fun _ _ => ((), []), id⟩

/-- An engine that is logged in. -/
def loggedIn : Engine Unit Unit :=
  { (Engine.create silentParser : Engine Unit Unit) with loginTask := none, state := .open }

/-- A request. -/
def iqGet : XmlElement := ⟨qnIq, [(qnType, "get"), (qnId, "1"), (qnTo, "romeo")], [], false⟩

/-- Its response. -/
def iqResult : XmlElement := ⟨qnIq, [(qnType, "result"), (qnId, "1"), (qnFrom, "romeo")], [], false⟩

/-- The handler removes itself while it runs, without success, and sends its request again. -/
theorem iq_bookkeeping_get : ∃ s,
    Runs.run (step silentParser saslPlain) (initial loggedIn)
        [.sendIq (some iqGet) (some 5) 100, .stanza iqResult, .removeIqHandler 100,
          .sendIq (some iqGet) (some 5) 104, .iqHandlerReturns] = some s ∧
      (iqResponses s.engine.trace).map IqResponse.cookie = [0] ∧
      ∀ r ∈ iqResponses s.engine.trace, ∃ element,
        s.requests[r.cookie]? = some (some element, some r.handler) ∧ IsResponseTo element r.stanza := by
  have hrun : Runs.run (step silentParser saslPlain) (initial loggedIn)
      [.sendIq (some iqGet) (some 5) 100, .stanza iqResult, .removeIqHandler 100,
        .sendIq (some iqGet) (some 5) 104, .iqHandlerReturns] = some _ := rfl
  exact ⟨_, hrun, rfl, (iq_bookkeeping ⟨rfl, rfl, rfl⟩ hrun).2.1⟩

end IqEngine

end Synciga.Xmpp
