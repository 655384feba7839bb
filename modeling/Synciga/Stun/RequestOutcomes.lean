import Synciga.Stun.RequestManager

/-!
# The end of a STUN request

A request that was sent is in the table, has one timer in the queue, and has sent as many packets as its counter
says. Between the call at its end and its destructor, the invariant holds of all others. How many packets there
are before a timeout is virtual: nine for a `StunRequest`, five for an `AllocateRequest` and one for a
`ConnectionRequest`.

## Main definitions

* `Inv` — the invariant

## Main results

* `StunRequestManager.resolvesOnce_of_run` — a request ends once, with an answer, an error or a timeout
* `StunRequestManager.not_nine_packets` — not always after nine packets
-/

namespace Synciga

/-! ### Events -/

namespace RequestEvent

/-- The request that the event is about. -/
def request : RequestEvent → ℕ
  | .sendPacket p _ | .onResponse p | .onErrorResponse p | .onTimeout p _ | .deleted p => p

variable (p : ℕ)

/-- A packet of the request. -/
def Sends : RequestEvent → Bool
  | .sendPacket q _ => q = p
  | _ => false

/-- One of the three calls for the request. -/
def Resolves : RequestEvent → Bool
  | .onResponse q | .onErrorResponse q | .onTimeout q _ => q = p
  | _ => false

/-- The end of the request: one of the three calls, or its destructor. -/
def Ends (e : RequestEvent) : Prop := e.Resolves p = true ∨ e = .deleted p

theorem request_of_resolves {p : ℕ} {e : RequestEvent} (h : e.Resolves p = true) : e.request = p := by
  rcases e with ⟨q, packet⟩ | q | q | ⟨q, cls⟩ | q
  · cases h
  · exact of_decide_eq_true h
  · exact of_decide_eq_true h
  · exact of_decide_eq_true h
  · cases h

theorem request_of_sends {p : ℕ} {e : RequestEvent} (h : e.Sends p = true) : e.request = p := by
  rcases e with ⟨q, packet⟩ | q | q | ⟨q, cls⟩ | q
  · exact of_decide_eq_true h
  · cases h
  · cases h
  · cases h
  · cases h

end RequestEvent

/-- The number of packets that a request of the class sends before it times out. -/
def RequestClass.maxSends : RequestClass → ℕ
  | .stun => MAX_SENDS
  | .allocate => 5
  | .connection => 1

/-- What may happen after what has happened: nothing behind the end of a request but its destructor,
and a timeout when all packets have been sent. -/
def RequestEvent.Follows (pre : List RequestEvent) : RequestEvent → Prop
  | .sendPacket p _ | .onResponse p | .onErrorResponse p => ∀ e ∈ pre, ¬ e.Ends p
  | .onTimeout p cls =>
    (∀ e ∈ pre, ¬ e.Ends p) ∧ pre.countP (RequestEvent.Sends p) = cls.maxSends
  | .deleted p => .deleted p ∉ pre

/-! ### One request -/

namespace StunRequest

variable (r : StunRequest)

/-- The request has sent `n` packets. Its counter is this number, except that a `ConnectionRequest`
does not count. -/
def Sent (n : ℕ) : Prop :=
  n ≤ r.cls.maxSends ∧ (r.timeout = true ↔ n = r.cls.maxSends) ∧ (r.cls ≠ .connection → r.count = n)

theorem sent_new (cls : RequestClass) (messageClass : MessageClass) (msg : StunMessage)
    (id : List UInt8) : (new cls messageClass msg id).Sent 0 := by
  refine ⟨Nat.zero_le _, ?_, fun _ => rfl⟩
  change false = true ↔ 0 = cls.maxSends
  cases cls <;> decide

theorem Sent.construct {r : StunRequest} {n : ℕ} (h : r.Sent n) (prepared : StunMessage) :
    (r.construct prepared).Sent n := by
  rw [StunRequest.construct]
  split
  · exact h
  · exact h

theorem Sent.getNextDelay {r : StunRequest} {n : ℕ} (h : r.Sent n) (htimeout : r.timeout = false) :
    r.getNextDelay.2.Sent (n + 1) := by
  obtain ⟨hle, hmax, hcount⟩ := h
  have hlt : n < r.cls.maxSends := by
    refine lt_of_le_of_ne hle fun hn => ?_
    rw [hmax.mpr hn] at htimeout
    cases htimeout
  rcases r with ⟨cls, messageClass, msg, count, timeout, manager⟩
  subst htimeout
  rcases cls with _ | _ | _
  · obtain rfl := hcount nofun
    exact ⟨hlt, by simp [StunRequest.getNextDelay, RequestClass.maxSends], fun _ => rfl⟩
  · obtain rfl := hcount nofun
    exact ⟨hlt, by simp [StunRequest.getNextDelay, RequestClass.maxSends], fun _ => rfl⟩
  · have hn : n = 0 := Nat.lt_one_iff.mp hlt
    subst hn
    exact ⟨hlt, by simp [StunRequest.getNextDelay, RequestClass.maxSends], fun h => absurd rfl h⟩

@[simp] theorem getNextDelay_id : r.getNextDelay.2.id = r.id := by
  rw [getNextDelay]
  split <;> rfl

@[simp] theorem getNextDelay_manager : r.getNextDelay.2.manager = r.manager := by
  rw [getNextDelay]
  split <;> rfl

end StunRequest

theorem NewRequest.sent_request (r : NewRequest) : r.request.Sent 0 :=
  (StunRequest.sent_new ..).construct _

/-! ### The invariant -/

namespace StunRequestManager

variable {s s' : StunRequestManager} {p q : ℕ} {r o : StunRequest}

/-- The table knows exactly the requests that are alive; the dead have no message in the queue; and
the history is in order. -/
structure Table (s : StunRequestManager) : Prop where
  entry : ∀ id p, s.find id = some p → ∃ r, s.objects p = some r ∧ r.id = id
  object : ∀ p r, s.objects p = some r →
    s.find r.id = some p ∧ r.manager = true ∧ p < s.fresh ∧ .deleted p ∉ s.events
  timers : ∀ m ∈ s.pending, (s.objects m.request).isSome
  gone : ∀ p, p < s.fresh → s.objects p = none → .deleted p ∈ s.events
  bounded : ∀ e ∈ s.events, e.request < s.fresh
  lawful : Runs.Lawful RequestEvent.Follows s.events

/-- The number of messages for a request in the queue. -/
def timers (s : StunRequestManager) (p : ℕ) : ℕ := s.pending.countP fun m => m.request = p

/-- The number of packets of a request. -/
def packets (s : StunRequestManager) (p : ℕ) : ℕ := s.events.countP (RequestEvent.Sends p)

/-- A request that waits for its answer. -/
structure Waits (s : StunRequestManager) (p : ℕ) (r : StunRequest) : Prop where
  unresolved : ∀ e ∈ s.events, e.Resolves p = false
  timer : s.timers p = 1
  sent : r.Sent (s.packets p)

/-- The invariant, with one request that may be at its end. -/
structure Inv (s : StunRequestManager) (ending : Option ℕ) : Prop where
  table : s.Table
  waits : ∀ p r, ending ≠ some p → s.objects p = some r → s.Waits p r

theorem Inv.weaken (h : s.Inv none) (ending : Option ℕ) : s.Inv ending :=
  ⟨h.table, fun p r _ hr => h.waits p r nofun hr⟩

theorem inv_new : new.Inv none where
  table :=
    { entry := nofun
      object := nofun
      timers := nofun
      gone := nofun
      bounded := nofun
      lawful := Runs.lawful_nil _ }
  waits := nofun

/-! ### Sending -/

/-- The state after `SendDelayed`. -/
def inserted (s : StunRequestManager) (r : NewRequest) : StunRequestManager :=
  { s with
    objects := Function.update s.objects s.fresh (some { r.request with manager := true })
    fresh := s.fresh + 1
    requests := s.requests.insert r.request.id s.fresh
    pending := s.pending ++ [⟨s.fresh, r.delay⟩] }

theorem sendDelayed_eq_some_iff {r : NewRequest} : s.sendDelayed r = some s' ↔
      (s.find r.request.id = none ∧ r.request.msg.type ≠ 0) ∧ s' = s.inserted r := by
  rw [sendDelayed]
  split
  next hfind =>
    refine ⟨nofun, fun h => ?_⟩
    rw [h.1.1] at hfind
    cases hfind
  next hfind =>
    split
    next htype => exact ⟨nofun, fun h => absurd htype h.1.2⟩
    next htype =>
      refine ⟨fun h => ⟨⟨Option.not_isSome_iff_eq_none.mp hfind, htype⟩, ?_⟩, fun h => ?_⟩
      · exact (Option.some.inj h).symm
      · rw [h.2]
        rfl

variable {n : NewRequest}

theorem find_inserted_self : (s.inserted n).find n.request.id = some s.fresh := AList.lookup_insert _

theorem find_inserted_of_ne {id : List UInt8} (h : id ≠ n.request.id) :
    (s.inserted n).find id = s.find id := AList.lookup_insert_ne h

theorem objects_inserted_self : (s.inserted n).objects s.fresh = some { n.request with manager := true } :=
  Function.update_self ..

theorem objects_inserted_of_ne (h : p ≠ s.fresh) : (s.inserted n).objects p = s.objects p :=
  Function.update_of_ne h _ _

theorem Table.ne_fresh (h : s.Table) (hp : s.objects p = some r) : p ≠ s.fresh :=
  (h.object p r hp).2.2.1.ne

theorem Table.objects_inserted (h : s.Table) (hp : s.objects p = some r) :
    (s.inserted n).objects p = some r := by
  rw [objects_inserted_of_ne (h.ne_fresh hp), hp]

theorem Table.inserted (h : s.Table) (hfind : s.find n.request.id = none) : (s.inserted n).Table where
  entry := by
    intro id p hp
    by_cases hid : id = n.request.id
    · rw [hid, find_inserted_self] at hp
      cases hp
      exact ⟨_, objects_inserted_self, hid.symm⟩
    · rw [find_inserted_of_ne hid] at hp
      obtain ⟨o, ho, hoid⟩ := h.entry id p hp
      exact ⟨o, h.objects_inserted ho, hoid⟩
  object := by
    intro p o hp
    by_cases hfresh : p = s.fresh
    · subst hfresh
      rw [objects_inserted_self] at hp
      cases hp
      exact ⟨find_inserted_self, rfl, Nat.lt_succ_self _, fun he => (h.bounded _ he).ne rfl⟩
    rw [objects_inserted_of_ne hfresh] at hp
    obtain ⟨hid, hmanager, hlt, hdeleted⟩ := h.object p o hp
    have hne : o.id ≠ n.request.id := by
      intro heq
      rw [heq, hfind] at hid
      cases hid
    exact ⟨(find_inserted_of_ne hne).trans hid, hmanager, Nat.lt_succ_of_lt hlt, hdeleted⟩
  timers := by
    intro m hm
    rcases List.mem_append.mp hm with hm | hm
    · obtain ⟨o, ho⟩ := Option.isSome_iff_exists.mp (h.timers m hm)
      exact Option.isSome_iff_exists.mpr ⟨o, h.objects_inserted ho⟩
    · rw [List.mem_singleton.mp hm]
      exact Option.isSome_iff_exists.mpr ⟨_, objects_inserted_self⟩
  gone := by
    intro p hlt hp
    by_cases hfresh : p = s.fresh
    · rw [hfresh, objects_inserted_self] at hp
      cases hp
    · rw [objects_inserted_of_ne hfresh] at hp
      exact h.gone p (lt_of_le_of_ne (Nat.le_of_lt_succ hlt) hfresh) hp
  bounded := fun e he => Nat.lt_succ_of_lt (h.bounded e he)
  lawful := h.lawful

theorem timers_inserted (p : ℕ) : (s.inserted n).timers p = s.timers p + if s.fresh = p then 1 else 0 := by
  rw [timers, inserted, List.countP_append, List.countP_singleton]
  simp [timers]

theorem Table.waits_inserted (h : s.Table) :
    (s.inserted n).Waits s.fresh { n.request with manager := true } where
  unresolved := by
    intro e he
    refine Bool.eq_false_iff.mpr fun hres => (h.bounded e he).ne ?_
    exact RequestEvent.request_of_resolves hres
  timer := by
    have hnone : s.timers s.fresh = 0 := by
      rw [StunRequestManager.timers, List.countP_eq_zero]
      intro m hm heq
      obtain ⟨o, ho⟩ := Option.isSome_iff_exists.mp (h.timers m hm)
      exact h.ne_fresh ho (of_decide_eq_true heq)
    rw [timers_inserted, hnone, if_pos rfl]
  sent := by
    have hnone : s.packets s.fresh = 0 := by
      rw [packets, List.countP_eq_zero]
      intro e he hsends
      exact (h.bounded e he).ne (RequestEvent.request_of_sends hsends)
    change n.request.Sent (s.packets s.fresh)
    rw [hnone]
    exact n.sent_request

theorem Waits.inserted (h : s.Waits p r) (hp : p ≠ s.fresh) : (s.inserted n).Waits p r where
  unresolved := h.unresolved
  timer := by rw [timers_inserted, if_neg hp.symm, h.timer]
  sent := h.sent

theorem Inv.sendDelayed {ending : Option ℕ} (h : s.Inv ending) (hsend : s.sendDelayed n = some s') :
    s'.Inv ending ∧ ∀ p o, s.objects p = some o → s'.objects p = some o := by
  obtain ⟨⟨hfind, -⟩, rfl⟩ := sendDelayed_eq_some_iff.mp hsend
  refine ⟨⟨h.table.inserted hfind, fun p o hne hp => ?_⟩, fun p o hp => h.table.objects_inserted hp⟩
  by_cases hfresh : p = s.fresh
  · subst hfresh
    rw [objects_inserted_self] at hp
    cases hp
    exact h.table.waits_inserted
  · rw [objects_inserted_of_ne hfresh] at hp
    exact (h.waits p o hne hp).inserted hfresh

theorem Inv.sendAll {ending : Option ℕ} {sends : List NewRequest} (h : s.Inv ending)
    (hsend : s.sendAll sends = some s') :
    s'.Inv ending ∧ ∀ p o, s.objects p = some o → s'.objects p = some o := by
  induction sends generalizing s with
  | nil =>
    cases hsend
    exact ⟨h, fun _ _ hp => hp⟩
  | cons n sends ih =>
    obtain ⟨t, ht, hrest⟩ := Option.bind_eq_some_iff.mp hsend
    obtain ⟨hinv, hkeep⟩ := h.sendDelayed ht
    obtain ⟨hinv', hkeep'⟩ := ih hinv hrest
    exact ⟨hinv', fun p o hp => hkeep' p o (hkeep p o hp)⟩

/-! ### Deleting -/

/-- The state after the destructor of the request with the given transaction id. -/
def erased (s : StunRequestManager) (p : ℕ) (id : List UInt8) : StunRequestManager :=
  { s with
    objects := Function.update s.objects p none
    requests := s.requests.erase id
    pending := s.pending.filter fun m => m.request ≠ p
    events := s.events ++ [.deleted p] }

theorem Table.delete_eq (h : s.Table) (hp : s.objects p = some r) :
    s.delete p = some (s.erased p r.id) := by
  obtain ⟨hfind, hmanager, -, -⟩ := h.object p r hp
  simp [delete, remove, hp, hmanager, hfind, clearThread, erased]

theorem objects_erased_self (id : List UInt8) : (s.erased p id).objects p = none :=
  Function.update_self ..

theorem objects_erased_of_ne (h : q ≠ p) (id : List UInt8) : (s.erased p id).objects q = s.objects q :=
  Function.update_of_ne h _ _

theorem find_erased_of_ne {id id' : List UInt8} (h : id' ≠ id) : (s.erased p id).find id' = s.find id' :=
  AList.lookup_erase_ne h

theorem Table.erased (h : s.Table) (hp : s.objects p = some r) : (s.erased p r.id).Table where
  entry := by
    intro id q hq
    by_cases hid : id = r.id
    · rw [hid, find, StunRequestManager.erased, AList.lookup_erase] at hq
      cases hq
    rw [find_erased_of_ne hid] at hq
    obtain ⟨o, ho, rfl⟩ := h.entry id q hq
    refine ⟨o, ?_, rfl⟩
    rw [objects_erased_of_ne, ho]
    rintro rfl
    cases hp.symm.trans ho
    exact hid rfl
  object := by
    intro q o hq
    by_cases hqp : q = p
    · rw [hqp, objects_erased_self] at hq
      cases hq
    rw [objects_erased_of_ne hqp] at hq
    obtain ⟨hfind, hmanager, hlt, hdeleted⟩ := h.object q o hq
    have hid : o.id ≠ r.id := by
      intro heq
      rw [heq, (h.object p r hp).1] at hfind
      exact hqp (Option.some.inj hfind).symm
    refine ⟨(find_erased_of_ne hid).trans hfind, hmanager, hlt, ?_⟩
    intro hmem
    rcases List.mem_append.mp hmem with hmem | hmem
    · exact hdeleted hmem
    · cases List.mem_singleton.mp hmem
      exact hqp rfl
  timers := by
    intro m hm
    obtain ⟨hm, hne⟩ := List.mem_filter.mp hm
    rw [objects_erased_of_ne (of_decide_eq_true hne)]
    exact h.timers m hm
  gone := by
    intro q hlt hq
    by_cases hqp : q = p
    · rw [hqp]
      exact List.mem_append_right _ (List.mem_singleton_self _)
    · rw [objects_erased_of_ne hqp] at hq
      exact List.mem_append_left _ (h.gone q hlt hq)
  bounded := by
    intro e he
    rcases List.mem_append.mp he with he | he
    · exact h.bounded e he
    · rw [List.mem_singleton.mp he]
      exact (h.object p r hp).2.2.1
  lawful := h.lawful.append (h.object p r hp).2.2.2

theorem Waits.erased (h : s.Waits q r) (hqp : q ≠ p) (id : List UInt8) : (s.erased p id).Waits q r where
  unresolved := by
    intro e he
    rcases List.mem_append.mp he with he | he
    · exact h.unresolved e he
    · rw [List.mem_singleton.mp he]
      rfl
  timer := by
    have hsame : (s.erased p id).timers q = s.timers q := by
      rw [timers, timers, StunRequestManager.erased, List.countP_filter]
      refine List.countP_congr fun m _ => ?_
      simp only [Bool.and_eq_true, decide_eq_true_eq, and_iff_left_iff_imp]
      rintro rfl
      exact hqp
    rw [hsame, h.timer]
  sent := by
    have hsame : (s.erased p id).packets q = s.packets q := by
      rw [packets, StunRequestManager.erased, List.countP_append]
      rfl
    rw [hsame]
    exact h.sent

theorem Inv.delete (h : s.Inv (some p)) (hp : s.objects p = some r) :
    ∃ t, s.delete p = some t ∧ t.Inv none ∧ ∀ q o, q ≠ p → s.objects q = some o → t.objects q = some o := by
  refine ⟨_, h.table.delete_eq hp, ⟨h.table.erased hp, ?_⟩, ?_⟩
  · intro q o _ hq
    by_cases hqp : q = p
    · rw [hqp, objects_erased_self] at hq
      cases hq
    · rw [objects_erased_of_ne hqp] at hq
      exact (h.waits q o (fun heq => hqp (Option.some.inj heq).symm) hq).erased hqp _
  · intro q o hqp hq
    rw [objects_erased_of_ne hqp, hq]

/-! ### Calls -/

variable {e : RequestEvent}

theorem Table.record (h : s.Table) (hfollows : e.Follows s.events)
    (hlt : e.request < s.fresh) (hdelete : ∀ q, e ≠ .deleted q) : (s.record e).Table where
  entry := h.entry
  object := by
    intro q o hq
    obtain ⟨hfind, hmanager, hlt, hdeleted⟩ := h.object q o hq
    refine ⟨hfind, hmanager, hlt, fun hmem => ?_⟩
    rcases List.mem_append.mp hmem with hmem | hmem
    · exact hdeleted hmem
    · exact hdelete q (List.mem_singleton.mp hmem).symm
  timers := h.timers
  gone := fun q hlt hq => List.mem_append_left _ (h.gone q hlt hq)
  bounded := by
    intro e' he'
    rcases List.mem_append.mp he' with he' | he'
    · exact h.bounded e' he'
    · rw [List.mem_singleton.mp he']
      exact hlt
  lawful := h.lawful.append hfollows

theorem Waits.record (h : s.Waits q r) (hne : e.request ≠ q) : (s.record e).Waits q r where
  unresolved := by
    intro e' he'
    rcases List.mem_append.mp he' with he' | he'
    · exact h.unresolved e' he'
    · rw [List.mem_singleton.mp he']
      exact Bool.eq_false_iff.mpr fun hres => hne (RequestEvent.request_of_resolves hres)
  timer := h.timer
  sent := by
    have hnot : ¬ e.Sends q = true := fun hsends => hne (RequestEvent.request_of_sends hsends)
    have hsame : (s.record e).packets q = s.packets q := by
      rw [packets, StunRequestManager.record, List.countP_append, List.countP_singleton, if_neg hnot]
      rfl
    rw [hsame]
    exact h.sent

theorem Table.not_ends (h : s.Table) (hp : s.objects p = some r)
    (hunresolved : ∀ e ∈ s.events, e.Resolves p = false) : ∀ e ∈ s.events, ¬ e.Ends p := by
  rintro e he (hres | rfl)
  · rw [hunresolved e he] at hres
    cases hres
  · exact (h.object p r hp).2.2.2 he

/-- A request is alive and about to get one of the three calls. -/
structure Ending (s : StunRequestManager) (p : ℕ) (e : RequestEvent) : Prop where
  inv : s.Inv (some p)
  alive : (s.objects p).isSome
  follows : e.Follows s.events
  request : e.request = p
  call : ∀ q, e ≠ .deleted q

/-- The call at the end of a request, with all that is sent in it, and the destructor. -/
def ended (s : StunRequestManager) (p : ℕ) (e : RequestEvent) (sends : List NewRequest) :
    Option StunRequestManager :=
  ((s.record e).sendAll sends).bind fun t => t.delete p

theorem Ending.delete {t : StunRequestManager} (h : s.Ending p e)
    {sends : List NewRequest} (hsend : (s.record e).sendAll sends = some t) :
    ∃ u, t.delete p = some u ∧ u.Inv none := by
  obtain ⟨r, hr⟩ := Option.isSome_iff_exists.mp h.alive
  have hlt : e.request < s.fresh := by
    rw [h.request]
    exact (h.inv.table.object p r hr).2.2.1
  have hrecord : (s.record e).Inv (some p) := by
    refine ⟨h.inv.table.record h.follows hlt h.call, fun q o hne hq => ?_⟩
    refine (h.inv.waits q o hne hq).record ?_
    rw [h.request]
    exact fun heq => hne (congrArg some heq)
  obtain ⟨hinv, hkeep⟩ := hrecord.sendAll hsend
  obtain ⟨u, hu, hinv', -⟩ := hinv.delete (hkeep p r hr)
  exact ⟨u, hu, hinv'⟩

theorem Ending.inv_ended (h : s.Ending p e) {sends : List NewRequest}
    (hended : s.ended p e sends = some s') : s'.Inv none := by
  obtain ⟨t, ht, hdelete⟩ := Option.bind_eq_some_iff.mp hended
  obtain ⟨u, hu, hinv⟩ := h.delete ht
  cases hu.symm.trans hdelete
  exact hinv

/-! ### The timer -/

/-- The state after a packet, when the request waits again. -/
def resent (s : StunRequestManager) (p : ℕ) (r : StunRequest) (packet : Option (List UInt8))
    (delay : ℕ) : StunRequestManager :=
  { s with
    objects := Function.update s.objects p (some r)
    pending := s.pending ++ [⟨p, delay⟩]
    events := s.events ++ [.sendPacket p packet] }

theorem objects_resent_self {packet : Option (List UInt8)} {delay : ℕ} :
    (s.resent p r packet delay).objects p = some r :=
  Function.update_self ..

theorem objects_resent_of_ne {packet : Option (List UInt8)} {delay : ℕ} (h : q ≠ p) :
    (s.resent p r packet delay).objects q = s.objects q :=
  Function.update_of_ne h _ _

theorem Table.resent (h : s.Table) (hp : s.objects p = some o) (hid : r.id = o.id)
    (hmanager : r.manager = o.manager) (hends : ∀ e ∈ s.events, ¬ e.Ends p)
    (packet : Option (List UInt8)) (delay : ℕ) : (s.resent p r packet delay).Table := by
  have hobject := h.object p o hp
  have hrecord : (s.record (.sendPacket p packet)).Table := h.record hends hobject.2.2.1 nofun
  refine ⟨?_, ?_, ?_, ?_, hrecord.bounded, hrecord.lawful⟩
  · intro id q hq
    obtain ⟨o', ho', rfl⟩ := h.entry id q hq
    by_cases hqp : q = p
    · subst hqp
      cases hp.symm.trans ho'
      exact ⟨r, objects_resent_self, hid⟩
    · exact ⟨o', (objects_resent_of_ne hqp).trans ho', rfl⟩
  · intro q o' hq
    by_cases hqp : q = p
    · subst hqp
      rw [objects_resent_self] at hq
      cases hq
      rw [hid, hmanager]
      exact hrecord.object q o hp
    · rw [objects_resent_of_ne hqp] at hq
      exact hrecord.object q o' hq
  · intro m hm
    by_cases hmp : m.request = p
    · rw [hmp, objects_resent_self]
      rfl
    · rw [objects_resent_of_ne hmp]
      rcases List.mem_append.mp hm with hm | hm
      · exact h.timers m hm
      · rw [List.mem_singleton.mp hm] at hmp
        exact absurd rfl hmp
  intro q hlt hq
  by_cases hqp : q = p
  · rw [hqp, objects_resent_self] at hq
    cases hq
  · rw [objects_resent_of_ne hqp] at hq
    exact hrecord.gone q hlt hq

theorem Inv.resent (h : s.Inv (some p)) (hp : s.objects p = some o) (hid : r.id = o.id)
    (hmanager : r.manager = o.manager) (hunresolved : ∀ e ∈ s.events, e.Resolves p = false)
    (htimer : s.timers p = 0) (hsent : r.Sent (s.packets p + 1)) (packet : Option (List UInt8))
    (delay : ℕ) : (s.resent p r packet delay).Inv none := by
  have htimers (q : ℕ) :
      (s.resent p r packet delay).timers q = s.timers q + if p = q then 1 else 0 := by
    rw [timers, StunRequestManager.resent, List.countP_append, List.countP_singleton]
    simp [timers]
  refine ⟨h.table.resent hp hid hmanager (h.table.not_ends hp hunresolved) packet delay, ?_⟩
  intro q o' _ hq
  by_cases hqp : q = p
  · subst hqp
    rw [objects_resent_self] at hq
    cases hq
    refine ⟨fun e he => ?_, by rw [htimers, htimer, if_pos rfl], ?_⟩
    · rcases List.mem_append.mp he with he | he
      · exact hunresolved e he
      · rw [List.mem_singleton.mp he]
        rfl
    have hpackets : (s.resent q r packet delay).packets q = s.packets q + 1 := by
      have hsends : RequestEvent.Sends q (.sendPacket q packet) = true := decide_eq_true rfl
      rw [packets, StunRequestManager.resent, List.countP_append, List.countP_singleton,
        if_pos hsends]
      rfl
    rw [hpackets]
    exact hsent
  · rw [objects_resent_of_ne hqp] at hq
    have hwaits := h.waits q o' (fun heq => hqp (Option.some.inj heq).symm) hq
    obtain ⟨hunresolved', -, hsent'⟩ := hwaits.record (e := .sendPacket p packet) (Ne.symm hqp)
    exact ⟨hunresolved', by rw [htimers, if_neg (Ne.symm hqp), hwaits.timer], hsent'⟩

/-- The state in which a message has been taken from the queue. -/
def taken (s : StunRequestManager) (i : ℕ) : StunRequestManager :=
  { s with pending := s.pending.eraseIdx i }

variable {i : ℕ} {m : StunSend}

theorem timers_taken (hm : s.pending[i]? = some m) (q : ℕ) :
    s.timers q = (s.taken i).timers q + if m.request = q then 1 else 0 := by
  obtain ⟨hi, rfl⟩ := List.getElem?_eq_some_iff.mp hm
  have hperm := (List.getElem_cons_eraseIdx_perm hi).countP_eq fun m => m.request = q
  rw [timers, ← hperm, List.countP_cons]
  simp [timers, taken]

theorem Inv.taken (h : s.Inv none) (hm : s.pending[i]? = some m) : (s.taken i).Inv (some m.request) where
  table :=
    { entry := h.table.entry
      object := h.table.object
      timers := fun m' hm' => h.table.timers m' (List.mem_of_mem_eraseIdx hm')
      gone := h.table.gone
      bounded := h.table.bounded
      lawful := h.table.lawful }
  waits := by
    intro q o hne hq
    obtain ⟨hunresolved, htimer, hsent⟩ := h.waits q o nofun hq
    refine ⟨hunresolved, ?_, hsent⟩
    rw [timers_taken hm, if_neg fun heq => hne (congrArg some heq)] at htimer
    exact htimer

/-! ### One operation -/

theorem deliver_eq (hm : s.pending[i]? = some m)
    (hr : s.objects m.request = some r) (hmanager : r.manager = true) (sends : List NewRequest) :
    s.step (.deliver i sends) =
      if r.timeout = true then (s.taken i).ended m.request (.onTimeout m.request r.cls) sends
      else some ((s.taken i).resent m.request r.getNextDelay.2 r.msg.write r.getNextDelay.1) := by
  simp only [step, hm, Option.bind_eq_bind, Option.bind_some, onMessage, hr, hmanager,
    Bool.true_eq_false, if_false]
  rfl

theorem Inv.deliver (h : s.Inv none) (hm : s.pending[i]? = some m) (sends : List NewRequest) :
    (∃ t, s.step (.deliver i sends) = some t ∧ t.Inv none) ∨
      ∃ e, (s.taken i).Ending m.request e ∧
        s.step (.deliver i sends) = (s.taken i).ended m.request e sends := by
  obtain ⟨r, hr⟩ := Option.isSome_iff_exists.mp (h.table.timers m (List.mem_of_getElem? hm))
  obtain ⟨hunresolved, htimer, hsent⟩ := h.waits m.request r nofun hr
  rw [deliver_eq hm hr (h.table.object _ r hr).2.1]
  by_cases htimeout : r.timeout = true
  · refine .inr ⟨.onTimeout m.request r.cls, ⟨h.taken hm, ?_, ?_, rfl, nofun⟩, if_pos htimeout⟩
    · exact Option.isSome_iff_exists.mpr ⟨r, hr⟩
    · exact ⟨h.table.not_ends hr hunresolved, hsent.2.1.mp htimeout⟩
  have htaken : (s.taken i).timers m.request = 0 := by
    rw [timers_taken hm, if_pos rfl] at htimer
    omega
  refine .inl ⟨_, if_neg htimeout, ?_⟩
  exact (h.taken hm).resent hr r.getNextDelay_id r.getNextDelay_manager hunresolved htaken
    (hsent.getNextDelay (Bool.eq_false_iff.mpr htimeout)) _ _

theorem Inv.checkResponse (h : s.Inv none) (msg : StunMessage) (sends : List NewRequest) :
    s.checkResponse msg sends = some (false, s) ∨
      ∃ p e, s.Ending p e ∧ s.checkResponse msg sends = (s.ended p e sends).map fun t => (true, t) := by
  rw [StunRequestManager.checkResponse]
  split
  · exact .inl rfl
  next p hp =>
    obtain ⟨r, hr, -⟩ := h.table.entry _ p hp
    have hends := h.table.not_ends hr (h.waits p r nofun hr).unresolved
    have halive : (s.objects p).isSome := Option.isSome_iff_exists.mpr ⟨r, hr⟩
    simp only [hr, Option.bind_eq_bind, Option.bind_some]
    split
    · refine .inr ⟨p, .onResponse p, ⟨h.weaken _, halive, hends, rfl, nofun⟩, ?_⟩
      rw [ended, Option.map_eq_bind, Option.bind_assoc]
      rfl
    · split
      · refine .inr ⟨p, .onErrorResponse p, ⟨h.weaken _, halive, hends, rfl, nofun⟩, ?_⟩
        rw [ended, Option.map_eq_bind, Option.bind_assoc]
        rfl
      · exact .inl rfl

theorem Inv.checkPacket (h : s.Inv none) (data : List UInt8) (sends : List NewRequest) :
    s.checkPacket data sends = some (false, s) ∨
      ∃ msg, s.checkPacket data sends = s.checkResponse msg sends := by
  rw [StunRequestManager.checkPacket]
  split
  · exact .inl rfl
  split
  · exact .inl rfl
  next p hp =>
    obtain ⟨r, hr, -⟩ := h.table.entry _ p hp
    simp only [hr, Option.bind_eq_bind, Option.bind_some]
    split
    · exact .inl rfl
    next response rest hread => exact .inr ⟨response, rfl⟩

theorem Inv.deleteAll (h : s.Inv none) {ps : List ℕ} (hnodup : ps.Nodup)
    (halive : ∀ p ∈ ps, (s.objects p).isSome) :
    ∃ t, ps.foldlM StunRequestManager.delete s = some t ∧ t.Inv none := by
  induction ps generalizing s with
  | nil => exact ⟨s, rfl, h⟩
  | cons p ps ih =>
    rw [List.nodup_cons] at hnodup
    rw [List.forall_mem_cons] at halive
    obtain ⟨r, hr⟩ := Option.isSome_iff_exists.mp halive.1
    obtain ⟨t, ht, hinv, hkeep⟩ := (h.weaken (some p)).delete hr
    obtain ⟨u, hu, hinv'⟩ := ih hinv hnodup.2 fun q hq => by
      obtain ⟨o, ho⟩ := Option.isSome_iff_exists.mp (halive.2 q hq)
      refine Option.isSome_iff_exists.mpr ⟨o, hkeep q o ?_ ho⟩
      rintro rfl
      exact hnodup.1 hq
    refine ⟨u, ?_, hinv'⟩
    rw [List.foldlM_cons, ht]
    exact hu

theorem Inv.clear (h : s.Inv none) : ∃ t, s.clear = some t ∧ t.Inv none := by
  have hfind (e) (he : e ∈ s.requests.entries) : s.find e.1 = some e.2 :=
    AList.mem_lookup_iff.mpr he
  refine h.deleteAll ?_ ?_
  · refine List.Nodup.map_on ?_ s.requests.nodupKeys.nodup
    intro e he e' he' heq
    obtain ⟨r, hr, hid⟩ := h.table.entry _ _ (hfind e he)
    obtain ⟨r', hr', hid'⟩ := h.table.entry _ _ (hfind e' he')
    rw [heq, hr'] at hr
    cases hr
    exact s.requests.nodupKeys.eq_of_fst_eq he he' (hid.symm.trans hid')
  · intro p hp
    obtain ⟨e, he, rfl⟩ := List.mem_map.mp hp
    obtain ⟨r, hr, -⟩ := h.table.entry _ _ (hfind e he)
    exact Option.isSome_iff_exists.mpr ⟨r, hr⟩

/-- The requests that are sent in the call that an operation leads to. -/
def Action.sends : Action → List NewRequest
  | .deliver _ sends | .checkResponse _ sends | .checkPacket _ sends => sends
  | .sendDelayed _ | .clear => []

/-- What an operation can do, other than to send: the invariant is kept at once, or a request comes to
its end. -/
theorem Inv.step_cases (h : s.Inv none) (a : Action) (hsend : ∀ n, a ≠ .sendDelayed n)
    (hdeliver : ∀ i sends, a = .deliver i sends → i < s.pending.length) :
    (∃ t, s.step a = some t ∧ t.Inv none) ∨
      ∃ (t : StunRequestManager) (p : ℕ) (e : RequestEvent), t.Ending p e ∧
        t.requests = s.requests ∧ s.step a = t.ended p e a.sends := by
  have hanswer (msg : StunMessage) (sends : List NewRequest) :
      (∃ t, (s.checkResponse msg sends).map Prod.snd = some t ∧ t.Inv none) ∨
        ∃ (t : StunRequestManager) (p : ℕ) (e : RequestEvent), t.Ending p e ∧
          t.requests = s.requests ∧ (s.checkResponse msg sends).map Prod.snd = t.ended p e sends := by
    rcases h.checkResponse msg sends with heq | ⟨p, e, hending, heq⟩
    · exact .inl ⟨s, by rw [heq]; rfl, h⟩
    · refine .inr ⟨s, p, e, hending, rfl, ?_⟩
      rw [heq, Option.map_map]
      exact congrFun Option.map_id _
  rcases a with n | ⟨i, sends⟩ | ⟨msg, sends⟩ | ⟨data, sends⟩ | _
  · exact absurd rfl (hsend n)
  · have hm := List.getElem?_eq_getElem (hdeliver i sends rfl)
    rcases h.deliver hm sends with hkept | ⟨e, hending, heq⟩
    · exact .inl hkept
    · exact .inr ⟨s.taken i, _, e, hending, rfl, heq⟩
  · exact hanswer msg sends
  · rcases h.checkPacket data sends with heq | ⟨msg, heq⟩
    · exact .inl ⟨s, congrArg (Option.map Prod.snd) heq, h⟩
    · have hstep : s.step (.checkPacket data sends) = (s.checkResponse msg sends).map Prod.snd :=
        congrArg (Option.map Prod.snd) heq
      rw [hstep]
      exact hanswer msg sends
  · exact .inl h.clear

theorem Inv.step {a : Action} (h : s.Inv none) (hstep : s.step a = some s') : s'.Inv none := by
  by_cases hsend : ∃ n, a = .sendDelayed n
  · obtain ⟨n, rfl⟩ := hsend
    exact (h.sendDelayed hstep).1
  have hdeliver (i sends) (ha : a = .deliver i sends) : i < s.pending.length := by
    subst ha
    obtain ⟨m, hm, -⟩ := Option.bind_eq_some_iff.mp hstep
    exact (List.getElem?_eq_some_iff.mp hm).1
  rcases h.step_cases a (not_exists.mp hsend) hdeliver with ⟨t, ht, hinv⟩ | ⟨t, p, e, hending, -, ht⟩
  · cases ht.symm.trans hstep
    exact hinv
  · exact hending.inv_ended (ht.symm.trans hstep)

/-! ### What the callers see to -/

/-- The requests can be sent: their transaction ids are new, and they have a type. -/
def CanSend (s : StunRequestManager) (sends : List NewRequest) : Prop :=
  (sends.map fun n => n.request.id).Nodup ∧
    ∀ n ∈ sends, s.find n.request.id = none ∧ n.request.msg.type ≠ 0

/-- The operation is possible: a message that is delivered is in the queue, and what is sent can be
sent. -/
def Allowed (s : StunRequestManager) : Action → Prop
  | .sendDelayed n => s.CanSend [n]
  | .deliver i sends => i < s.pending.length ∧ s.CanSend sends
  | .checkResponse _ sends | .checkPacket _ sends => s.CanSend sends
  | .clear => True

theorem CanSend.sendAll {sends : List NewRequest} (h : s.CanSend sends) :
    ∃ t, s.sendAll sends = some t := by
  induction sends generalizing s with
  | nil => exact ⟨s, rfl⟩
  | cons n sends ih =>
    obtain ⟨hnodup, hnew⟩ := h
    rw [List.map_cons, List.nodup_cons] at hnodup
    rw [List.forall_mem_cons] at hnew
    have hsend : s.sendDelayed n = some (s.inserted n) := sendDelayed_eq_some_iff.mpr ⟨hnew.1, rfl⟩
    have hrest : (s.inserted n).CanSend sends := by
      refine ⟨hnodup.2, fun n' hn' => ⟨?_, (hnew.2 n' hn').2⟩⟩
      rw [find_inserted_of_ne, (hnew.2 n' hn').1]
      intro heq
      exact hnodup.1 (List.mem_map.mpr ⟨n', hn', heq⟩)
    obtain ⟨t, ht⟩ := ih hrest
    refine ⟨t, ?_⟩
    rw [StunRequestManager.sendAll, List.foldlM_cons, hsend]
    exact ht

theorem Inv.isSome_step (h : s.Inv none) {a : Action} (ha : s.Allowed a) : (s.step a).isSome := by
  by_cases hsend : ∃ n, a = .sendDelayed n
  · obtain ⟨n, rfl⟩ := hsend
    have hn := ha.2 n (List.mem_singleton_self n)
    exact Option.isSome_iff_exists.mpr ⟨_, sendDelayed_eq_some_iff.mpr ⟨hn, rfl⟩⟩
  have hdeliver (i sends) (heq : a = .deliver i sends) : i < s.pending.length := by
    subst heq
    exact ha.1
  rcases h.step_cases a (not_exists.mp hsend) hdeliver with
    ⟨t, ht, -⟩ | ⟨t, p, e, hending, hrequests, ht⟩
  · exact Option.isSome_iff_exists.mpr ⟨t, ht⟩
  have hsends : s.CanSend a.sends := by
    rcases a with n | ⟨i, sends⟩ | ⟨msg, sends⟩ | ⟨data, sends⟩ | _
    · exact absurd ⟨n, rfl⟩ hsend
    · exact ha.2
    · exact ha
    · exact ha
    · exact ⟨List.nodup_nil, nofun⟩
  have hsends : (t.record e).CanSend a.sends := by
    refine ⟨hsends.1, fun n hn => ?_⟩
    rw [find, StunRequestManager.record, hrequests]
    exact hsends.2 n hn
  obtain ⟨u, hu⟩ := hsends.sendAll
  obtain ⟨v, hv, -⟩ := hending.delete hu
  exact Option.isSome_iff_exists.mpr ⟨v, ht.trans (Option.bind_eq_some_iff.mpr ⟨u, hu, hv⟩)⟩

/-! ### What is promised -/

/-- The request has been sent, and it has not ended. -/
def Unresolved (s : StunRequestManager) (p : ℕ) : Prop :=
  p < s.fresh ∧ ∀ e ∈ s.events, ¬ e.Ends p

/-- Each request comes to one end, and until then it is in the table and has one timer. -/
structure ResolvesOnce (s : StunRequestManager) : Prop where
  once : ∀ p, s.events.countP (RequestEvent.Resolves p) ≤ 1
  timeout : ∀ p cls pre suf, s.events = pre ++ .onTimeout p cls :: suf →
    pre.countP (RequestEvent.Sends p) = cls.maxSends
  quiet : ∀ p pre e suf, s.events = pre ++ e :: suf → e.Ends p → ∀ e' ∈ suf, e'.Sends p = false
  idle : ∀ p e, e ∈ s.events → e.Ends p → s.timers p = 0
  find : ∀ id p, s.find id = some p ↔ s.Unresolved p ∧ ∃ r, s.objects p = some r ∧ r.id = id
  timer : ∀ p, s.Unresolved p → s.timers p = 1
  safe : ∀ a, s.Allowed a → (s.step a).isSome

theorem not_ends_of_follows {pre : List RequestEvent} (h : e.Follows pre)
    (hkind : e.Resolves p = true ∨ e.Sends p = true) : ∀ e' ∈ pre, ¬ e'.Ends p := by
  have hrequest : e.request = p := by
    rcases hkind with hres | hsends
    · exact RequestEvent.request_of_resolves hres
    · exact RequestEvent.request_of_sends hsends
  subst hrequest
  rcases e with ⟨q, packet⟩ | q | q | ⟨q, cls⟩ | q
  · exact h
  · exact h
  · exact h
  · exact h.1
  · rcases hkind with hres | hsends
    · cases hres
    · cases hsends

theorem Table.timers_eq_zero (h : s.Table) (hp : s.objects p = none) : s.timers p = 0 := by
  rw [StunRequestManager.timers, List.countP_eq_zero]
  intro m hm heq
  have halive := h.timers m hm
  rw [of_decide_eq_true heq, hp] at halive
  cases halive

theorem Inv.resolvesOnce (h : s.Inv none) : s.ResolvesOnce where
  once := by
    intro p
    refine h.table.lawful.countP_le_one fun pre e hfollows hres e' he' => ?_
    refine Bool.eq_false_iff.mpr fun hres' => ?_
    exact not_ends_of_follows hfollows (.inl hres) e' he' (.inl hres')
  timeout := fun p cls pre suf hsplit => (h.table.lawful pre _ suf hsplit).2
  quiet := by
    intro p pre e suf hsplit hends e' he'
    refine Bool.eq_false_iff.mpr fun hsends => ?_
    obtain ⟨middle, rest, rfl⟩ := List.append_of_mem he'
    rw [← List.cons_append, ← List.append_assoc] at hsplit
    have hfollows := h.table.lawful _ e' rest hsplit
    refine not_ends_of_follows hfollows (.inr hsends) e ?_ hends
    exact List.mem_append_right _ (List.mem_cons_self ..)
  idle := by
    intro p e he hends
    refine h.table.timers_eq_zero (Option.not_isSome_iff_eq_none.mp fun halive => ?_)
    obtain ⟨r, hr⟩ := Option.isSome_iff_exists.mp halive
    exact h.table.not_ends hr (h.waits p r nofun hr).unresolved e he hends
  find := by
    intro id p
    constructor
    · intro hfind
      obtain ⟨r, hr, hid⟩ := h.table.entry id p hfind
      exact ⟨⟨(h.table.object p r hr).2.2.1, h.table.not_ends hr (h.waits p r nofun hr).unresolved⟩,
        r, hr, hid⟩
    · rintro ⟨-, r, hr, rfl⟩
      exact (h.table.object p r hr).1
  timer := by
    rintro p ⟨hlt, hends⟩
    rcases hp : s.objects p with _ | r
    · exact absurd (.inr rfl) (hends _ (h.table.gone p hlt hp))
    · exact (h.waits p r nofun hp).timer
  safe := fun a ha => h.isSome_step ha

/-- In every run, each request comes to one end. -/
theorem resolvesOnce_of_run {as : List Action} (hrun : Runs.run step new as = some s) : s.ResolvesOnce := by
  have hinv : s.Inv none :=
    Runs.invariant_of_step (P := fun s => s.Inv none) (fun _ _ _ h hstep => h.step hstep) inv_new hrun
  exact hinv.resolvesOnce

/-- A request of the given class for a binding. -/
def bindingRequest (cls : RequestClass) : NewRequest where
  cls := cls
  messageClass := .ice
  msg := .new
  id := List.replicate 12 7
  prepared := StunMessage.new.setType 0x0001
  delay := 0

/-- A request is sent, answered with a wrong type and then with the right one. -/
def answeredRun : List Action :=
  [.sendDelayed (bindingRequest .stun), .deliver 0 [],
    .checkResponse ⟨0x0001, 0, List.replicate 12 7, []⟩ [],
    .checkResponse ⟨0x0101, 0, List.replicate 12 7, []⟩ []]

theorem resolvesOnce_of_answeredRun :
    ∃ s, Runs.run step new answeredRun = some s ∧ s.ResolvesOnce ∧
      s.events.countP (RequestEvent.Resolves 0) = 1 := by
  obtain ⟨s, hrun, hone⟩ : ∃ s, Runs.run step new answeredRun = some s ∧
      s.events.countP (RequestEvent.Resolves 0) = 1 := ⟨_, rfl, rfl⟩
  exact ⟨s, hrun, resolvesOnce_of_run hrun, hone⟩

/-- A ping of a connection times out after a single packet. -/
theorem not_nine_packets : ¬ ∀ as s, Runs.run step new as = some s → ∀ p cls pre suf,
      s.events = pre ++ .onTimeout p cls :: suf → pre.countP (RequestEvent.Sends p) = MAX_SENDS := by
  intro h
  have hnine := h [.sendDelayed (bindingRequest .connection), .deliver 0 [], .deliver 0 []] _ rfl
    0 .connection [.sendPacket 0 _] [.deleted 0] rfl
  exact absurd hnine (by decide)

end StunRequestManager

end Synciga
