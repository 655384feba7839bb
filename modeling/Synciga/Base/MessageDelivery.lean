import Synciga.Base.MessageQueue

/-!
# What a `MessageQueue` delivers

A message lives in the heap, the list or the peek slot of the queue. Each message that was accepted is in one
place, or was returned, cleared or disposed of. Read from the returned messages over the slot to the end of the
list, immediate messages stand as they were posted and delayed ones as they are triggered, but that one whose
trigger time is in the past overtakes nothing that was delivered.

## Main definitions

* `Accounts`, `Lined` — the two invariants

## Main results

* `delivers_of_run` — in every run
* `not_in_trigger_order` — `PostAt` in the past
-/

namespace Synciga.MessageQueue

variable {H D : Type}

/-! ### The order of posting -/

/-- The messages of a kind are numbered as they were accepted. -/
def Ranks (kind : Message H D → Bool) (l : List (Message H D)) : Prop :=
  (l.filter kind).map Message.rank = List.range (l.countP kind)

variable {kind : Message H D → Bool} {l : List (Message H D)}

theorem Ranks.append (h : Ranks kind l) {m : Message H D} (hm : kind m = true)
    (hrank : m.rank = l.countP kind) : Ranks kind (l ++ [m]) := by
  rw [Ranks, List.filter_append, List.map_append, h, List.countP_append, List.filter_cons_of_pos hm,
    List.countP_cons_of_pos hm, List.filter_nil, List.countP_nil, Nat.zero_add, List.range_succ,
    List.map_singleton, hrank]

theorem Ranks.append_other (h : Ranks kind l) {m : Message H D} (hm : kind m = false) :
    Ranks kind (l ++ [m]) := by
  have hneg : ¬ kind m = true := by rw [hm]; nofun
  rw [Ranks, List.filter_append, List.countP_append, List.filter_cons_of_neg hneg,
    List.countP_cons_of_neg hneg, List.filter_nil, List.append_nil, List.countP_nil, Nat.add_zero]
  exact h

theorem Ranks.lt (h : Ranks kind l) {m : Message H D} (hmem : m ∈ l) (hm : kind m = true) :
    m.rank < l.countP kind := by
  have hrank : m.rank ∈ (l.filter kind).map Message.rank :=
    List.mem_map_of_mem (List.mem_filter.mpr ⟨hmem, hm⟩)
  rw [h] at hrank
  exact List.mem_range.mp hrank

theorem Ranks.nodup (h : Ranks kind l) : (l.filter kind).Nodup := by
  refine List.Nodup.of_map Message.rank ?_
  rw [h]
  exact List.nodup_range

theorem Ranks.inj (h : Ranks kind l) {m m' : Message H D} (hmem : m ∈ l) (hmem' : m' ∈ l)
    (hm : kind m = true) (hm' : kind m' = true) (heq : m.rank = m'.rank) : m = m' := by
  have hnodup : ((l.filter kind).map Message.rank).Nodup := by
    rw [h]
    exact List.nodup_range
  exact List.inj_on_of_nodup_map hnodup (List.mem_filter.mpr ⟨hmem, hm⟩)
    (List.mem_filter.mpr ⟨hmem', hm'⟩) heq

/-! ### The messages of a queue -/

/-- The messages that have left the queue. -/
def gone (q : MessageQueue H D) : List (Message H D) :=
  q.returned.map Prod.snd ++ q.cleared.flatMap Prod.snd ++ q.disposed

/-- The messages in the queue. -/
def pending (q : MessageQueue H D) : List (Message H D) :=
  q.msgPeek.toList ++ q.msgq ++ q.dmsgq.map DelayedMessage.msg

variable {q q' : MessageQueue H D} {now : UInt32}

/-! ### The order of delivery -/

/-- `m` may come out before `m'`: immediate messages as they were posted, delayed ones as they are triggered, or
as they were posted if there are `few`; `m'` was not posted with its trigger time in the past. -/
def InOrder (few : Prop) (m m' : Message H D) : Prop :=
  match m.due, m'.due with
  | none, none => m.rank < m'.rank
  | some (trigger, _), some (trigger', posted') =>
    trigger < trigger' ∨ trigger = trigger' ∧ (few → m.rank < m'.rank) ∨ trigger' < posted'
  | _, _ => True

theorem InOrder.of_cases {few : Prop} {m m' : Message H D}
    (himmediate : m.due = none → m'.due = none → m.rank < m'.rank)
    (hdelayed : ∀ trigger posted trigger' posted', m.due = some (trigger, posted) →
      m'.due = some (trigger', posted') →
      trigger < trigger' ∨ trigger = trigger' ∧ (few → m.rank < m'.rank) ∨ trigger' < posted') :
    InOrder few m m' := by
  rw [InOrder]
  split
  next h h' => exact himmediate h h'
  next h h' => exact hdelayed _ _ _ _ h h'
  · trivial

theorem InOrder.mono {few few' : Prop} {m m' : Message H D} (himp : few' → few)
    (h : InOrder few m m') : InOrder few' m m' := by
  refine .of_cases (fun hm hm' => ?_) (fun trigger posted trigger' posted' hm hm' => ?_)
  · simp only [InOrder, hm, hm'] at h
    exact h
  · simp only [InOrder, hm, hm'] at h
    exact h.imp_right (Or.imp_left (And.imp_right fun hrank => hrank ∘ himp))

/-- The numbers of the delayed messages have not wrapped. -/
def Few (q : MessageQueue H D) : Prop := q.accepted.countP (fun m => m.due.isSome) ≤ 2 ^ 32

/-- The messages on their way out, and those that are out. -/
def line (q : MessageQueue H D) : List (Message H D) :=
  q.returned.map Prod.snd ++ q.msgPeek.toList ++ q.msgq

/-- The messages stand in line, and those in the heap come behind them. -/
structure Lined (q : MessageQueue H D) : Prop where
  heap : Heap.IsHeap DelayedMessage.Less q.dmsgq
  nextNum : q.dmsgqNextNum = UInt32.ofNat (q.accepted.countP fun m => m.due.isSome)
  entry : ∀ d ∈ q.dmsgq, (∃ posted, d.msg.due = some (d.msTrigger, posted)) ∧
    d.num = UInt32.ofNat d.msg.rank
  inOrder : q.line.Pairwise (InOrder q.Few)
  ahead : ∀ m ∈ q.line, ∀ d ∈ q.dmsgq, InOrder q.Few m d.msg
  passed : ∀ m ∈ q.line, ∀ trigger posted, m.due = some (trigger, posted) → trigger ≤ q.clock
  notEarly : ∀ r ∈ q.returned, ∀ trigger posted, r.2.due = some (trigger, posted) → trigger ≤ r.1
  idle : q.msgPeek.isSome → q.running = none
  current : ∀ c, q.running = some c → c.msCurrent ≤ q.clock

theorem Lined.sublist (h : q.Lined) (hline : q'.line.Sublist q.line)
    (hheap : Heap.IsHeap DelayedMessage.Less q'.dmsgq) (hsub : q'.dmsgq ⊆ q.dmsgq)
    (hnum : q'.dmsgqNextNum = q.dmsgqNextNum) (haccepted : q'.accepted = q.accepted)
    (hclock : q'.clock = q.clock)
    (hearly : ∀ r ∈ q'.returned, ∀ trigger posted, r.2.due = some (trigger, posted) → trigger ≤ r.1)
    (hidle : q'.msgPeek.isSome → q'.running = none)
    (hcurrent : ∀ c, q'.running = some c → c.msCurrent ≤ q'.clock) : q'.Lined where
  heap := hheap
  nextNum := by rw [hnum, haccepted, h.nextNum]
  entry d hd := h.entry d (hsub hd)
  inOrder := by
    rw [Few, haccepted]
    exact h.inOrder.sublist hline
  ahead m hm d hd := by
    rw [Few, haccepted]
    exact h.ahead m (hline.subset hm) d (hsub hd)
  passed m hm trigger posted hdue := by
    rw [hclock]
    exact h.passed m (hline.subset hm) trigger posted hdue
  notEarly := hearly
  idle := hidle
  current := hcurrent

theorem lined_new : (new : MessageQueue H D).Lined where
  heap := Heap.isHeap_nil
  nextNum := rfl
  entry := nofun
  inOrder := List.Pairwise.nil
  ahead := nofun
  passed := nofun
  notEarly := nofun
  idle := nofun
  current := nofun

theorem Lined.tick (h : q.Lined) (hclock : q.clock ≤ now) : Lined { q with clock := now } :=
  { h with
    passed := fun m hm trigger posted hdue =>
      UInt32.le_trans (h.passed m hm trigger posted hdue) hclock
    current := fun c hc => UInt32.le_trans (h.current c hc) hclock }

/-! ### Nothing is lost and nothing is doubled -/

/-- Each accepted message has left the queue or is in it. -/
structure Accounts [DecidableEq H] (q : MessageQueue H D) : Prop where
  immediate : Ranks (fun m => m.due.isNone) q.accepted
  delayed : Ranks (fun m => m.due.isSome) q.accepted
  accounted : q.accepted.Perm (q.gone ++ q.pending)
  matching : ∀ e ∈ q.cleared, ∀ m ∈ e.2, m.isMatch e.1.1 e.1.2 = true
  disposed : ∀ m ∈ q.disposed, m.messageId = MQID_DISPOSE
  kept : ∀ m ∈ q.returned.map Prod.snd ++ q.msgPeek.toList, m.messageId ≠ MQID_DISPOSE

variable [DecidableEq H] {heap : Heap.Ops (DelayedMessage.Less (H := H) (D := D))}

theorem Accounts.nodup (h : q.Accounts) : q.accepted.Nodup := by
  have hkinds := List.filter_append_perm (fun m : Message H D => m.due.isSome) q.accepted
  refine hkinds.nodup_iff.mp (List.nodup_append.mpr ⟨h.delayed.nodup, ?_, ?_⟩)
  · have hnone : (fun m : Message H D => !m.due.isSome) = fun m => m.due.isNone := by
      funext m
      rw [Option.not_isSome]
    rw [hnone]
    exact h.immediate.nodup
  · rintro m hm m' hm' rfl
    have hsome := (List.mem_filter.mp hm).2
    have hnone := (List.mem_filter.mp hm').2
    rw [hsome] at hnone
    cases hnone

theorem Accounts.mem_accepted (h : q.Accounts) {m : Message H D} (hm : m ∈ q.gone ++ q.pending) :
    m ∈ q.accepted :=
  h.accounted.mem_iff.mpr hm

theorem accounts_new : (new : MessageQueue H D).Accounts :=
  ⟨rfl, rfl, List.Perm.nil, nofun, nofun, nofun⟩

theorem Accounts.tick (h : q.Accounts) (now : UInt32) : Accounts { q with clock := now } := { h with }

/-! ### Posting -/

theorem Accounts.post (h : q.Accounts) (now : UInt32) (phandler : Option H) (id : UInt32)
    (pdata : Option D) (timeSensitive : Bool) :
    (q.post now phandler id pdata timeSensitive).Accounts := by
  rw [MessageQueue.post]
  split
  · exact h
  refine { h with immediate := ?_, delayed := ?_, accounted := ?_ }
  · exact h.immediate.append rfl rfl
  · exact h.delayed.append_other rfl
  classical
  rw [List.perm_iff_count]
  intro m
  have hcount := h.accounted.count_eq m
  simp only [gone, pending, List.count_append] at hcount ⊢
  omega

theorem Accounts.mem_of_line (h : q.Accounts) {m : Message H D} (hm : m ∈ q.line) :
    m ∈ q.accepted := by
  refine h.mem_accepted ?_
  simp only [line, gone, pending, List.mem_append] at hm ⊢
  tauto

theorem Accounts.mem_of_dmsgq (h : q.Accounts) {d : DelayedMessage H D} (hd : d ∈ q.dmsgq) :
    d.msg ∈ q.accepted :=
  h.mem_accepted (List.mem_append_right _ (List.mem_append_right _ (List.mem_map_of_mem hd)))

theorem Lined.post (h : q.Lined) (hacc : q.Accounts) (now : UInt32) (phandler : Option H)
    (id : UInt32) (pdata : Option D) (timeSensitive : Bool) :
    (q.post now phandler id pdata timeSensitive).Lined := by
  rw [MessageQueue.post]
  split
  · exact h
  generalize hmsg : Message.mk phandler id pdata _ none _ = msg
  have hnone : msg.due = none := by rw [← hmsg]
  have hrank : msg.rank = q.accepted.countP fun m => m.due.isNone := by rw [← hmsg]
  have hcount : (q.accepted ++ [msg]).countP (fun m => m.due.isSome) =
      q.accepted.countP fun m => m.due.isSome := by
    rw [List.countP_append, List.countP_cons_of_neg (by rw [hnone]; nofun), List.countP_nil,
      Nat.add_zero]
  have hline : line { q with msgq := q.msgq ++ [msg], accepted := q.accepted ++ [msg] } =
      q.line ++ [msg] := (List.append_assoc _ _ _).symm
  have hfew : Few { q with msgq := q.msgq ++ [msg], accepted := q.accepted ++ [msg] } = q.Few := by
    rw [Few, hcount, Few]
  refine { h with nextNum := ?_, inOrder := ?_, ahead := ?_, passed := ?_ }
  · exact h.nextNum.trans (congrArg UInt32.ofNat hcount.symm)
  · rw [hline, hfew, List.pairwise_append]
    refine ⟨h.inOrder, List.pairwise_singleton _ _, fun m hm m' hm' => ?_⟩
    rw [List.mem_singleton.mp hm']
    refine .of_cases (fun hdue _ => ?_) (fun _ _ _ _ _ hdue => ?_)
    · rw [hrank]
      exact hacc.immediate.lt (hacc.mem_of_line hm) (by rw [hdue]; rfl)
    · cases hnone.symm.trans hdue
  · intro m hm d hd
    rw [hfew]
    rw [hline] at hm
    rcases List.mem_append.mp hm with hm | hm
    · exact h.ahead m hm d hd
    · rw [List.mem_singleton.mp hm]
      obtain ⟨posted, hdue⟩ := (h.entry d hd).1
      refine .of_cases (fun _ hnone' => ?_) (fun _ _ _ _ hsome _ => ?_)
      · cases hnone'.symm.trans hdue
      · cases hnone.symm.trans hsome
  intro m hm trigger posted hdue
  rw [hline] at hm
  rcases List.mem_append.mp hm with hm | hm
  · exact h.passed m hm trigger posted hdue
  · rw [List.mem_singleton.mp hm] at hdue
    cases hnone.symm.trans hdue

theorem Accounts.doDelayPost (h : q.Accounts) (hheap : Heap.IsHeap DelayedMessage.Less q.dmsgq)
    (now : UInt32) (cmsDelay : Int32) (tstamp : UInt32) (phandler : Option H) (id : UInt32)
    (pdata : Option D) : (q.doDelayPost heap now cmsDelay tstamp phandler id pdata).Accounts := by
  rw [MessageQueue.doDelayPost]
  split
  · exact h
  refine { h with immediate := ?_, delayed := ?_, accounted := ?_ }
  · exact h.immediate.append_other rfl
  · exact h.delayed.append rfl rfl
  classical
  rw [List.perm_iff_count]
  intro m
  have hcount := h.accounted.count_eq m
  have hpush (d : DelayedMessage H D) :=
    ((heap.push_perm q.dmsgq d hheap).map DelayedMessage.msg).count_eq m
  simp only [gone, pending, List.count_append, hpush, List.map_cons, List.count_cons,
    List.count_nil] at hcount ⊢
  omega

/-- A new delayed message comes behind everything that is in line, unless it is posted with its
trigger time in the past. -/
theorem Lined.doDelayPost (h : q.Lined) (hacc : q.Accounts) (hclock : q.clock = now)
    (cmsDelay : Int32) (tstamp : UInt32) (phandler : Option H) (id : UInt32) (pdata : Option D) :
    (q.doDelayPost heap now cmsDelay tstamp phandler id pdata).Lined := by
  rw [MessageQueue.doDelayPost]
  split
  · exact h
  generalize hmsg : Message.mk phandler id pdata 0 _ _ = msg
  have hdue : msg.due = some (tstamp, now) := by rw [← hmsg]
  have hrank : msg.rank = q.accepted.countP fun m => m.due.isSome := by rw [← hmsg]
  have hcount : (q.accepted ++ [msg]).countP (fun m => m.due.isSome) =
      (q.accepted.countP fun m => m.due.isSome) + 1 := by
    rw [List.countP_append, List.countP_cons_of_pos (by rw [hdue]; rfl), List.countP_nil]
  have hfew : (q.accepted ++ [msg]).countP (fun m => m.due.isSome) ≤ 2 ^ 32 → q.Few := by
    intro hle
    rw [hcount] at hle
    exact Nat.le_of_succ_le hle
  have hpush := heap.push_perm q.dmsgq ⟨cmsDelay, tstamp, q.dmsgqNextNum, msg⟩ h.heap
  refine { h with
    heap := heap.push_heap _ _ h.heap
    nextNum := ?_
    entry := ?_
    inOrder := h.inOrder.imp fun hm => hm.mono hfew
    ahead := ?_ }
  · rw [h.nextNum, hcount, UInt32.ofNat_add]
    rfl
  · intro d hd
    rcases List.mem_cons.mp (hpush.mem_iff.mp hd) with rfl | hd
    · exact ⟨⟨now, hdue⟩, h.nextNum.trans (congrArg UInt32.ofNat hrank.symm)⟩
    · exact h.entry d hd
  intro m hm d hd
  rcases List.mem_cons.mp (hpush.mem_iff.mp hd) with rfl | hd
  · refine .of_cases (fun _ hnone => ?_) (fun trigger posted trigger' posted' hm' hd' => ?_)
    · cases hnone.symm.trans hdue
    cases hdue.symm.trans hd'
    have hpassed : trigger ≤ now := hclock ▸ h.passed m hm trigger posted hm'
    rcases UInt32.lt_or_le tstamp now with hpast | hle
    · exact .inr (.inr hpast)
    rcases UInt32.lt_or_eq_of_le (UInt32.le_trans hpassed hle) with hlt | heq
    · exact .inl hlt
    · refine .inr (.inl ⟨heq, fun _ => ?_⟩)
      rw [hrank]
      exact hacc.delayed.lt (hacc.mem_of_line hm) (by rw [hm']; rfl)
  · exact (h.ahead m hm d hd).mono hfew

/-! ### Clearing -/

theorem Accounts.clear (h : q.Accounts) (phandler : Option H) (id : UInt32) :
    (q.clear heap phandler id).2.Accounts := by
  refine { h with accounted := ?_, matching := ?_, kept := ?_ }
  · classical
    rw [List.perm_iff_count]
    intro m
    have hcount := h.accounted.count_eq m
    have hmake := ((heap.make_perm (q.dmsgq.filter fun d => !d.msg.isMatch phandler id)).map
      DelayedMessage.msg).count_eq m
    have hpeek := (List.filter_append_perm (fun m : Message H D => m.isMatch phandler id)
      q.msgPeek.toList).count_eq m
    have hlist := (List.filter_append_perm (fun m : Message H D => m.isMatch phandler id)
      q.msgq).count_eq m
    have hheap := ((List.filter_append_perm
      (fun d : DelayedMessage H D => d.msg.isMatch phandler id) q.dmsgq).map
        DelayedMessage.msg).count_eq m
    simp only [MessageQueue.clear, gone, pending, List.count_append, List.flatMap_append,
      List.flatMap_cons, List.flatMap_nil, List.append_nil, List.map_append, hmake,
      Option.toList_filter] at *
    omega
  · intro e he
    rcases List.mem_append.mp he with he | he
    · exact h.matching e he
    rw [List.mem_singleton.mp he]
    intro m hm
    simp only [List.mem_append, List.mem_filter, List.mem_map] at hm
    rcases hm with (hm | hm) | ⟨d, hd, rfl⟩
    · exact hm.2
    · exact hm.2
    · exact hd.2
  intro m hm
  refine h.kept m ?_
  rcases List.mem_append.mp hm with hm | hm
  · exact List.mem_append_left _ hm
  · rw [show (q.clear heap phandler id).2.msgPeek.toList =
      q.msgPeek.toList.filter (fun m => !m.isMatch phandler id) from Option.toList_filter] at hm
    exact List.mem_append_right _ (List.mem_of_mem_filter hm)

theorem Lined.clear (h : q.Lined) (phandler : Option H) (id : UInt32) :
    (q.clear heap phandler id).2.Lined := by
  refine h.sublist ?_ (heap.make_heap _) ?_ rfl rfl rfl h.notEarly ?_ h.current
  · refine ((List.Sublist.refl _).append ?_).append List.filter_sublist
    rw [show (q.clear heap phandler id).2.msgPeek.toList =
      q.msgPeek.toList.filter (fun m => !m.isMatch phandler id) from Option.toList_filter]
    exact List.filter_sublist
  · intro d hd
    exact List.mem_of_mem_filter ((heap.make_perm _).mem_iff.mp hd)
  · intro hsome
    obtain ⟨m, hm⟩ := Option.isSome_iff_exists.mp hsome
    obtain ⟨hm, -⟩ := Option.filter_eq_some_iff.mp hm
    exact h.idle (Option.isSome_iff_exists.mpr ⟨m, hm⟩)

/-! ### Getting -/

theorem Lined.top_inOrder (h : q.Lined) (hacc : q.Accounts) {top d : DelayedMessage H D}
    {rest : List (DelayedMessage H D)} (hqueue : q.dmsgq = top :: rest) (hd : d ∈ rest) :
    InOrder q.Few top.msg d.msg := by
  have htop : top ∈ q.dmsgq := by rw [hqueue]; exact List.mem_cons_self
  have hd' : d ∈ q.dmsgq := by rw [hqueue]; exact List.mem_cons_of_mem top hd
  obtain ⟨⟨posted, hdue⟩, hnum⟩ := h.entry top htop
  obtain ⟨⟨posted', hdue'⟩, hnum'⟩ := h.entry d hd'
  have hless := Heap.IsHeap.not_less DelayedMessage.isOrder_less (hqueue ▸ h.heap) d
    (List.mem_cons_of_mem top hd)
  refine .of_cases (fun hnone _ => ?_) (fun trigger _ trigger' _ hm hm' => ?_)
  · cases hnone.symm.trans hdue
  cases hm.symm.trans hdue
  cases hm'.symm.trans hdue'
  obtain ⟨hle, htie⟩ := not_or.mp hless
  rcases UInt32.lt_or_eq_of_le (UInt32.not_lt.mp hle) with hlt | heq
  · exact .inl hlt
  refine .inr (.inl ⟨heq, fun hfew => ?_⟩)
  have hmem := hacc.mem_of_dmsgq htop
  have hmem' := hacc.mem_of_dmsgq hd'
  have hrank := hacc.delayed.lt hmem (by rw [hdue]; rfl)
  have hrank' := hacc.delayed.lt hmem' (by rw [hdue']; rfl)
  have hnums : ¬ d.num < top.num := fun hlt => htie ⟨heq.symm, hlt⟩
  rw [hnum, hnum', UInt32.lt_iff_toNat_lt, UInt32.toNat_ofNat', UInt32.toNat_ofNat',
    Nat.mod_eq_of_lt (hrank.trans_le hfew), Nat.mod_eq_of_lt (hrank'.trans_le hfew)] at hnums
  refine lt_of_le_of_ne (Nat.not_lt.mp hnums) fun hsame => ?_
  -- One of two messages with the same number would be there twice.
  have hsame := hacc.delayed.inj hmem hmem' (by rw [hdue]; rfl) (by rw [hdue']; rfl) hsame
  have hnodup : (top.msg :: rest.map DelayedMessage.msg).Nodup := by
    have hall := hacc.accounted.nodup_iff.mp hacc.nodup
    have hsub : (q.dmsgq.map DelayedMessage.msg).Sublist (q.gone ++ q.pending) :=
      (List.sublist_append_right _ _).trans (List.sublist_append_right _ _)
    rw [hqueue] at hsub
    exact hall.sublist hsub
  rw [hsame] at hnodup
  exact (List.nodup_cons.mp hnodup).1 (List.mem_map_of_mem hd)

theorem Accounts.move (h : q.Accounts) {top : DelayedMessage H D} {rest : List (DelayedMessage H D)}
    (hqueue : q.dmsgq = top :: rest) (hheap : Heap.IsHeap DelayedMessage.Less q.dmsgq) :
    Accounts { q with msgq := q.msgq ++ [top.msg], dmsgq := heap.pop (top :: rest) } := by
  refine { h with accounted := ?_ }
  classical
  rw [List.perm_iff_count]
  intro m
  have hcount := h.accounted.count_eq m
  have hpop := ((heap.pop_perm top rest (hqueue ▸ hheap)).map DelayedMessage.msg).count_eq m
  simp only [gone, pending, List.count_append, hqueue, hpop, List.map_cons, List.count_cons,
    List.count_nil] at hcount ⊢
  omega

theorem Lined.move (h : q.Lined) (hacc : q.Accounts) {top : DelayedMessage H D}
    {rest : List (DelayedMessage H D)} (hqueue : q.dmsgq = top :: rest)
    (htriggered : top.msTrigger ≤ q.clock) :
    Lined { q with msgq := q.msgq ++ [top.msg], dmsgq := heap.pop (top :: rest) } := by
  have htop : top ∈ q.dmsgq := by
    rw [hqueue]
    exact List.mem_cons_self
  have hheap : Heap.IsHeap DelayedMessage.Less (top :: rest) := hqueue ▸ h.heap
  have hpop := heap.pop_perm top rest hheap
  have hrest {d : DelayedMessage H D} (hd : d ∈ heap.pop (top :: rest)) : d ∈ q.dmsgq := by
    rw [hqueue]
    exact List.mem_cons_of_mem top (hpop.mem_iff.mp hd)
  have hline : line { q with msgq := q.msgq ++ [top.msg], dmsgq := heap.pop (top :: rest) } =
      q.line ++ [top.msg] := (List.append_assoc _ _ _).symm
  refine { h with
    heap := heap.pop_heap top rest hheap
    entry := fun d hd => h.entry d (hrest hd)
    inOrder := ?_
    ahead := ?_
    passed := ?_ }
  · rw [hline, List.pairwise_append]
    refine ⟨h.inOrder, List.pairwise_singleton _ _, fun m hm m' hm' => ?_⟩
    rw [List.mem_singleton.mp hm']
    exact h.ahead m hm top htop
  · intro m hm d hd
    rw [hline] at hm
    rcases List.mem_append.mp hm with hm | hm
    · exact h.ahead m hm d (hrest hd)
    · rw [List.mem_singleton.mp hm]
      exact h.top_inOrder hacc hqueue (hpop.mem_iff.mp hd)
  intro m hm trigger posted hdue
  rw [hline] at hm
  rcases List.mem_append.mp hm with hm | hm
  · exact h.passed m hm trigger posted hdue
  · rw [List.mem_singleton.mp hm] at hdue
    obtain ⟨posted', hdue'⟩ := (h.entry top htop).1
    cases hdue.symm.trans hdue'
    exact htriggered

/-- What the first loop of a round does to a queue whose trigger times are near. -/
theorem moveTriggered_spec (msCurrent : UInt32) (fuel : ℕ) (h : q.Lined) (hacc : q.Accounts)
    (hcurrent : msCurrent ≤ q.clock) (hnear : ∀ d ∈ q.dmsgq, Near msCurrent d.msTrigger)
    {msgq : List (Message H D)} {dmsgq : List (DelayedMessage H D)}
    (hmove : moveTriggered heap msCurrent fuel q.msgq q.dmsgq = (msgq, dmsgq)) :
    Lined { q with msgq := msgq, dmsgq := dmsgq } ∧
      Accounts { q with msgq := msgq, dmsgq := dmsgq } := by
  induction fuel generalizing q with
  | zero =>
    cases hmove
    exact ⟨h, hacc⟩
  | succ fuel ih =>
    rcases hqueue : q.dmsgq with _ | ⟨top, rest⟩
    · rw [hqueue] at hmove
      cases hmove
      rw [← hqueue]
      exact ⟨h, hacc⟩
    rw [hqueue, moveTriggered] at hmove
    split at hmove
    · cases hmove
      rw [← hqueue]
      exact ⟨h, hacc⟩
    next hlater =>
    have htop : top ∈ q.dmsgq := by
      rw [hqueue]
      exact List.mem_cons_self
    have htriggered : top.msTrigger ≤ msCurrent := by
      rw [timeIsLater_iff (hnear top htop)] at hlater
      exact UInt32.not_lt.mp hlater
    have hpop := heap.pop_perm top rest (hqueue ▸ h.heap)
    have hrest : ∀ d ∈ heap.pop (top :: rest), Near msCurrent d.msTrigger := by
      intro d hd
      refine hnear d ?_
      rw [hqueue]
      exact List.mem_cons_of_mem top (hpop.mem_iff.mp hd)
    exact ih (q := { q with msgq := q.msgq ++ [top.msg], dmsgq := heap.pop (top :: rest) })
      (h.move hacc hqueue (UInt32.le_trans htriggered hcurrent)) (hacc.move hqueue h.heap)
      hcurrent hrest hmove

omit [DecidableEq H] in
theorem takeMessage_spec (msgq : List (Message H D)) :
    msgq = (takeMessage msgq).1 ++ (takeMessage msgq).2.1.toList ++ (takeMessage msgq).2.2 ∧
      (∀ m ∈ (takeMessage msgq).1, m.messageId = MQID_DISPOSE) ∧
      (∀ m ∈ (takeMessage msgq).2.1, m.messageId ≠ MQID_DISPOSE) ∧
      ((takeMessage msgq).2.1 = none → (takeMessage msgq).2.2 = []) := by
  induction msgq with
  | nil => exact ⟨rfl, nofun, nofun, fun _ => rfl⟩
  | cons m msgq ih =>
    obtain ⟨heq, hdisposed, hfound, hrest⟩ := ih
    rw [takeMessage]
    split
    next hm =>
      refine ⟨congrArg (List.cons m) heq, ?_, hfound, hrest⟩
      intro m' hm'
      rcases List.mem_cons.mp hm' with rfl | hm'
      · exact hm
      · exact hdisposed m' hm'
    next hm =>
      refine ⟨rfl, nofun, ?_, nofun⟩
      intro m' hm'
      cases hm'
      exact hm

theorem Accounts.dispose (h : q.Accounts) {disposed msgq : List (Message H D)}
    (hqueue : q.msgq = disposed ++ msgq) (hdisposed : ∀ m ∈ disposed, m.messageId = MQID_DISPOSE) :
    Accounts { q with msgq := msgq, disposed := q.disposed ++ disposed } := by
  refine { h with accounted := ?_, disposed := ?_ }
  · classical
    rw [List.perm_iff_count]
    intro m
    have hcount := h.accounted.count_eq m
    simp only [gone, pending, List.count_append, hqueue] at hcount ⊢
    omega
  · intro m hm
    rcases List.mem_append.mp hm with hm | hm
    · exact h.disposed m hm
    · exact hdisposed m hm

omit [DecidableEq H] in
theorem Lined.dispose (h : q.Lined) {disposed msgq : List (Message H D)}
    (hqueue : q.msgq = disposed ++ msgq) :
    Lined { q with msgq := msgq, disposed := q.disposed ++ disposed } := by
  refine h.sublist ?_ h.heap (List.Subset.refl _) rfl rfl rfl h.notEarly h.idle h.current
  rw [line, line, hqueue]
  exact (List.Sublist.refl _).append (List.sublist_append_right _ _)

theorem Accounts.answer (h : q.Accounts) (hslot : q.msgPeek = none) {m : Message H D}
    {rest : List (Message H D)} (hqueue : q.msgq = m :: rest) (hm : m.messageId ≠ MQID_DISPOSE)
    (now : UInt32) (c : Call) : Accounts ({ q with msgq := rest }.answer now c m) := by
  rw [MessageQueue.answer]
  split
  · refine { h with accounted := ?_, kept := ?_ }
    · classical
      rw [List.perm_iff_count]
      intro m'
      have hcount := h.accounted.count_eq m'
      simp only [gone, pending, List.count_append, hqueue, hslot, Option.toList_none,
        Option.toList_some, List.count_cons, List.count_nil] at hcount ⊢
      omega
    · intro m' hm'
      rcases List.mem_append.mp hm' with hm' | hm'
      · exact h.kept m' (List.mem_append_left _ hm')
      · rw [List.mem_singleton.mp hm']
        exact hm
  · refine { h with accounted := ?_, kept := ?_ }
    · classical
      rw [List.perm_iff_count]
      intro m'
      have hcount := h.accounted.count_eq m'
      simp only [gone, pending, List.count_append, hqueue, List.map_append, List.map_cons,
        List.map_nil, List.count_cons, List.count_nil] at hcount ⊢
      omega
    intro m' hm'
    rw [List.map_append, List.append_assoc, hslot] at hm'
    rcases List.mem_append.mp hm' with hm' | hm'
    · exact h.kept m' (List.mem_append_left _ hm')
    · rw [List.mem_singleton.mp hm']
      exact hm

omit [DecidableEq H] in
theorem Lined.answer (h : q.Lined) (hslot : q.msgPeek = none) {m : Message H D}
    {rest : List (Message H D)} (hqueue : q.msgq = m :: rest) (hclock : q.clock = now) (c : Call) :
    Lined ({ q with msgq := rest }.answer now c m) := by
  have hline : q.line = q.returned.map Prod.snd ++ [m] ++ rest := by
    rw [line, hslot, hqueue]
    simp
  rw [MessageQueue.answer]
  split
  · refine h.sublist ?_ h.heap (List.Subset.refl _) rfl rfl rfl h.notEarly (fun _ => rfl) nofun
    rw [hline]
    exact List.Sublist.refl _
  refine h.sublist ?_ h.heap (List.Subset.refl _) rfl rfl rfl ?_ (fun _ => rfl) nofun
  · rw [hline, line, hslot, List.map_append]
    simp
  intro r hr trigger posted hdue
  rcases List.mem_append.mp hr with hr | hr
  · exact h.notEarly r hr trigger posted hdue
  · rw [List.mem_singleton.mp hr] at hdue ⊢
    refine hclock ▸ h.passed m ?_ trigger posted hdue
    rw [hline]
    simp

omit [DecidableEq H] in
theorem round_cases {c : Call} (hcall : q.running = some c)
    (hround : q.round heap now = some q') :
    c.waiting = false ∧ ∃ msgq dmsgq disposed rest,
      moveTriggered heap c.msCurrent q.dmsgq.length q.msgq q.dmsgq = (msgq, dmsgq) ∧
      msgq = disposed ++ rest ∧ (∀ m ∈ disposed, m.messageId = MQID_DISPOSE) ∧
      ((∃ m msgq', rest = m :: msgq' ∧ m.messageId ≠ MQID_DISPOSE ∧
          q' = { q with
            msgq := msgq', dmsgq := dmsgq, disposed := q.disposed ++ disposed }.answer now c m) ∨
        rest = [] ∧ q' = { q with
          msgq := [], dmsgq := dmsgq, disposed := q.disposed ++ disposed,
          running := if q.fStop then none else some { c with waiting := true } }) := by
  rw [round, hcall] at hround
  dsimp only at hround
  split at hround
  · cases hround
  next hwaiting =>
  refine ⟨Bool.not_eq_true _ ▸ hwaiting, ?_⟩
  rcases hmove : moveTriggered heap c.msCurrent q.dmsgq.length q.msgq q.dmsgq with ⟨msgq, dmsgq⟩
  rw [hmove] at hround
  obtain ⟨hsplit, hdisposed, hfound, hnone⟩ := takeMessage_spec msgq
  rcases htake : takeMessage msgq with ⟨disposed, found, msgq'⟩
  rw [htake] at hsplit hdisposed hfound hnone
  simp only [htake] at hround
  refine ⟨msgq, dmsgq, disposed, found.toList ++ msgq', rfl, ?_, hdisposed, ?_⟩
  · rw [hsplit, List.append_assoc]
  rcases found with _ | m
  · right
    cases hnone rfl
    cases hround
    exact ⟨rfl, rfl⟩
  · left
    cases hround
    exact ⟨m, msgq', rfl, hfound m rfl, rfl⟩

/-- Trigger times are near the time that the running round compares them with. -/
def Comparable (q : MessageQueue H D) : Prop :=
  ∀ c, q.running = some c → ∀ d ∈ q.dmsgq, Near c.msCurrent d.msTrigger

theorem Lined.round (h : q.Lined) (hacc : q.Accounts) (hclock : q.clock = now)
    (hnear : q.Comparable) (hround : q.round heap now = some q') : q'.Lined ∧ q'.Accounts := by
  rcases hcall : q.running with _ | c
  · rw [MessageQueue.round, hcall] at hround
    cases hround
  obtain ⟨-, msgq, dmsgq, disposed, rest, hmove, hsplit, hdisposed, hend⟩ :=
    round_cases hcall hround
  have hslot : q.msgPeek = none := by
    rw [← Option.not_isSome_iff_eq_none]
    intro hsome
    cases (h.idle hsome).symm.trans hcall
  obtain ⟨hlined, haccounts⟩ :=
    moveTriggered_spec c.msCurrent _ h hacc (h.current c hcall) (hnear c hcall) hmove
  have hlined := hlined.dispose hsplit
  have haccounts := haccounts.dispose hsplit hdisposed
  rcases hend with ⟨m, msgq', hrest, hm, rfl⟩ | ⟨hrest, rfl⟩
  · exact ⟨hlined.answer hslot hrest hclock c, haccounts.answer hslot hrest hm now c⟩
  subst hrest
  refine ⟨{ hlined with idle := ?_, current := ?_ }, { haccounts with }⟩
  · intro hsome
    rw [show q.msgPeek = none from hslot] at hsome
    cases hsome
  intro c' hc'
  split at hc'
  · cases hc'
  · cases hc'
    exact h.current c hcall

theorem Accounts.begin (h : q.Accounts) {peek : Bool} {cmsWait : ℤ}
    (hbegin : q.begin now peek cmsWait = some q') : q'.Accounts := by
  rw [MessageQueue.begin] at hbegin
  split at hbegin
  · cases hbegin
  next m _ hslot =>
    split at hbegin
    · cases hbegin
      exact { h with }
    cases hbegin
    refine { h with accounted := ?_, kept := ?_ }
    · classical
      rw [List.perm_iff_count]
      intro m'
      have hcount := h.accounted.count_eq m'
      simp only [gone, pending, List.count_append, hslot, Option.toList_none, Option.toList_some,
        List.map_append, List.map_cons, List.map_nil, List.count_nil] at hcount ⊢
      omega
    · intro m' hm'
      refine h.kept m' ?_
      rw [hslot]
      simpa using hm'
  · cases hbegin
    exact { h with }

omit [DecidableEq H] in
theorem Lined.begin (h : q.Lined) (hclock : q.clock = now) {peek : Bool} {cmsWait : ℤ}
    (hbegin : q.begin now peek cmsWait = some q') : q'.Lined := by
  rw [MessageQueue.begin] at hbegin
  split at hbegin
  · cases hbegin
  next m hrunning hslot =>
    split at hbegin
    · cases hbegin
      exact { h with }
    cases hbegin
    refine h.sublist ?_ h.heap (List.Subset.refl _) rfl rfl rfl ?_ nofun h.current
    · rw [line, line, hslot, List.map_append]
      simp
    intro r hr trigger posted hdue
    rcases List.mem_append.mp hr with hr | hr
    · exact h.notEarly r hr trigger posted hdue
    · rw [List.mem_singleton.mp hr] at hdue ⊢
      refine hclock ▸ h.passed m ?_ trigger posted hdue
      rw [line, hslot]
      simp
  next hslot =>
    cases hbegin
    refine { h with idle := ?_, current := ?_ }
    · intro hsome
      rw [hslot] at hsome
      cases hsome
    · intro c hc
      cases hc
      exact hclock ▸ UInt32.le_refl _

theorem Accounts.wake (h : q.Accounts) {ok : Bool} (hwake : q.wake now ok = some q') :
    q'.Accounts := by
  rw [MessageQueue.wake] at hwake
  split at hwake
  · cases hwake
  split at hwake
  · cases hwake
  split at hwake
  · cases hwake
    exact { h with }
  split at hwake
  · cases hwake
    exact { h with }
  · cases hwake
    exact { h with }

omit [DecidableEq H] in
theorem Lined.wake (h : q.Lined) (hclock : q.clock = now) {ok : Bool}
    (hwake : q.wake now ok = some q') : q'.Lined := by
  rw [MessageQueue.wake] at hwake
  split at hwake
  · cases hwake
  next c hcall =>
  have hslot : ¬ q.msgPeek.isSome := fun hsome => by cases (h.idle hsome).symm.trans hcall
  split at hwake
  · cases hwake
  split at hwake
  · cases hwake
    exact { h with idle := fun _ => rfl, current := nofun }
  split at hwake
  · cases hwake
    exact { h with idle := fun _ => rfl, current := nofun }
  · cases hwake
    refine { h with idle := fun hsome => absurd hsome hslot, current := ?_ }
    intro c' hc'
    cases hc'
    exact hclock ▸ UInt32.le_refl _

/-! ### A round finds what is ready -/

omit [DecidableEq H] in
theorem mem_moveTriggered {msCurrent : UInt32} {fuel : ℕ} {msgq msgq' : List (Message H D)}
    {dmsgq dmsgq' : List (DelayedMessage H D)} (hheap : Heap.IsHeap DelayedMessage.Less dmsgq)
    (hfuel : dmsgq.length ≤ fuel) (hnear : ∀ d ∈ dmsgq, Near msCurrent d.msTrigger)
    (hmove : moveTriggered heap msCurrent fuel msgq dmsgq = (msgq', dmsgq')) :
    (∀ m ∈ msgq, m ∈ msgq') ∧ ∀ d ∈ dmsgq, d.msTrigger ≤ msCurrent → d.msg ∈ msgq' := by
  induction fuel generalizing msgq dmsgq with
  | zero =>
    cases hmove
    cases List.length_eq_zero_iff.mp (Nat.le_zero.mp hfuel)
    exact ⟨fun _ hm => hm, nofun⟩
  | succ fuel ih =>
    rcases dmsgq with _ | ⟨top, rest⟩
    · cases hmove
      exact ⟨fun _ hm => hm, nofun⟩
    rw [moveTriggered] at hmove
    split at hmove
    next hlater =>
      cases hmove
      refine ⟨fun _ hm => hm, fun d hd hle => ?_⟩
      -- If the first message is not triggered, no other is.
      rw [timeIsLater_iff (hnear top List.mem_cons_self)] at hlater
      have hfirst := (not_or.mp (hheap.not_less DelayedMessage.isOrder_less d hd)).1
      exact absurd (UInt32.lt_of_le_of_lt hle hlater) hfirst
    · have hpop := heap.pop_perm top rest hheap
      obtain ⟨hlist, hrest⟩ := ih (heap.pop_heap top rest hheap)
        (by rw [hpop.length_eq]; exact Nat.le_of_succ_le_succ hfuel)
        (fun d hd => hnear d (List.mem_cons_of_mem top (hpop.mem_iff.mp hd))) hmove
      refine ⟨fun m hm => hlist m (List.mem_append_left _ hm), fun d hd hle => ?_⟩
      rcases List.mem_cons.mp hd with rfl | hd
      · exact hlist _ (List.mem_append_right _ (List.mem_singleton.mpr rfl))
      · exact hrest d (hpop.mem_iff.mpr hd) hle

/-- The message can be had in a round at this time. -/
def Ready (q : MessageQueue H D) (msCurrent : UInt32) (m : Message H D) : Prop :=
  m.messageId ≠ MQID_DISPOSE ∧
    (m ∈ q.msgq ∨ ∃ d ∈ q.dmsgq, d.msg = m ∧ d.msTrigger ≤ msCurrent)

omit [DecidableEq H] in
theorem round_of_ready (hheap : Heap.IsHeap DelayedMessage.Less q.dmsgq) {c : Call}
    (hcall : q.running = some c) (hwaiting : c.waiting = false) (hnear : q.Comparable)
    {m : Message H D} (hready : q.Ready c.msCurrent m) (now : UInt32) :
    ∃ m' q', q.round heap now = some q' ∧ (c.peek = true → q'.msgPeek = some m') ∧
      (c.peek = false → q'.returned = q.returned ++ [(now, m')]) := by
  obtain ⟨q', hround⟩ : ∃ q', q.round heap now = some q' := by
    rw [round, hcall]
    dsimp only
    rw [if_neg (by rw [hwaiting]; nofun)]
    split <;> exact ⟨_, rfl⟩
  obtain ⟨-, msgq, dmsgq, disposed, rest, hmove, hsplit, hdisposed, hend⟩ :=
    round_cases hcall hround
  rcases hend with ⟨m', msgq', -, -, rfl⟩ | ⟨rfl, -⟩
  · refine ⟨m', _, hround, fun hpeek => ?_, fun hget => ?_⟩
    · rw [answer, if_pos hpeek]
    · rw [answer, if_neg (by rw [hget]; nofun)]
  obtain ⟨hlist, htriggered⟩ :=
    mem_moveTriggered hheap (Nat.le_refl _) (hnear c hcall) hmove
  have hmem : m ∈ msgq := by
    rcases hready.2 with hm | ⟨d, hd, rfl, hle⟩
    · exact hlist m hm
    · exact htriggered d hd hle
  rw [hsplit, List.append_nil] at hmem
  exact absurd (hdisposed m hmem) hready.1

/-! ### The slot -/

/-- The action takes the message out of the slot. -/
def Action.Takes (m : Message H D) : Action H D → Prop
  | .get _ => True
  | .clear phandler id => m.isMatch phandler id = true
  | _ => False

theorem msgPeek_step {m : Message H D} (hslot : q.msgPeek = some m ∧ q.running = none)
    {a : UInt32 × Action H D} (ha : ¬ a.2.Takes m) (hstep : q.step heap a = some q') :
    q'.msgPeek = some m ∧ q'.running = none := by
  obtain ⟨now, action⟩ := a
  rw [step] at hstep
  rcases action with ⟨phandler, id, pdata, timeSensitive⟩ | ⟨cmsDelay, phandler, id, pdata⟩ |
    ⟨tstamp, phandler, id, pdata⟩ | ⟨phandler, id⟩ | _ | cmsWait | cmsWait | _ | ok
  · cases hstep
    rw [post]
    split <;> exact hslot
  · cases hstep
    rw [postDelayed, doDelayPost]
    split <;> exact hslot
  · cases hstep
    rw [postAt, doDelayPost]
    split <;> exact hslot
  · cases hstep
    refine ⟨?_, hslot.2⟩
    have hkeep : (!m.isMatch phandler id) = true := by
      rw [Bool.not_eq_true', ← Bool.not_eq_true]
      exact ha
    simp only [clear, hslot.1]
    rw [Option.filter_some, if_pos hkeep]
  · cases hstep
    exact hslot
  · simp only [begin, hslot.1, hslot.2] at hstep
    cases hstep
    exact ⟨rfl, rfl⟩
  · exact absurd trivial ha
  · simp only [round, hslot.2] at hstep
    cases hstep
  · simp only [wake, hslot.2] at hstep
    cases hstep

theorem msgPeek_run {m : Message H D} (hslot : q.msgPeek = some m ∧ q.running = none)
    {as : List (UInt32 × Action H D)} (has : ∀ a ∈ as, ¬ a.2.Takes m)
    (hrun : Runs.run (step heap) q as = some q') : q'.msgPeek = some m ∧ q'.running = none := by
  induction as generalizing q with
  | nil =>
    cases hrun
    exact hslot
  | cons a as ih =>
    obtain ⟨t, hstep, hrest⟩ := Runs.run_cons hrun
    exact ih (msgPeek_step hslot (has a List.mem_cons_self) hstep)
      (fun b hb => has b (List.mem_cons_of_mem a hb)) hrest

theorem peeked_step {a : UInt32 × Action H D} (hstep : q.step heap a = some q') :
    q'.peeked = q.peeked ∨ ∃ m, q'.peeked = q.peeked ++ [m] ∧ q'.msgPeek = some m := by
  obtain ⟨now, action⟩ := a
  rw [step] at hstep
  rcases action with ⟨phandler, id, pdata, timeSensitive⟩ | ⟨cmsDelay, phandler, id, pdata⟩ |
    ⟨tstamp, phandler, id, pdata⟩ | ⟨phandler, id⟩ | _ | cmsWait | cmsWait | _ | ok
  · cases hstep
    rw [post]
    split <;> exact .inl rfl
  · cases hstep
    rw [postDelayed, doDelayPost]
    split <;> exact .inl rfl
  · cases hstep
    rw [postAt, doDelayPost]
    split <;> exact .inl rfl
  · cases hstep
    exact .inl rfl
  · cases hstep
    exact .inl rfl
  · simp only [begin] at hstep
    split at hstep
    · cases hstep
    next m _ hslot =>
      cases hstep
      exact .inr ⟨m, rfl, hslot⟩
    · cases hstep
      exact .inl rfl
  · simp only [begin] at hstep
    split at hstep
    · cases hstep
    · cases hstep
      exact .inl rfl
    · cases hstep
      exact .inl rfl
  · rcases hcall : q.running with _ | c
    · simp only [round, hcall] at hstep
      cases hstep
    obtain ⟨-, msgq, dmsgq, disposed, rest, -, -, -, hend⟩ :=
      round_cases (q := { q with clock := now }) hcall hstep
    rcases hend with ⟨m, msgq', -, -, rfl⟩ | ⟨-, rfl⟩
    · rw [answer]
      split
      · exact .inr ⟨m, rfl, rfl⟩
      · exact .inl rfl
    · exact .inl rfl
  simp only [wake] at hstep
  split at hstep
  · cases hstep
  split at hstep
  · cases hstep
  split at hstep
  · cases hstep
    exact .inl rfl
  split at hstep
  · cases hstep
    exact .inl rfl
  · cases hstep
    exact .inl rfl

/-! ### Runs -/

/-- The clock does not go back, and the trigger times that a round looks at are near. -/
def Timely (q : MessageQueue H D) (a : UInt32 × Action H D) : Prop :=
  q.clock ≤ a.1 ∧ (a.2 = .round → q.Comparable)

theorem Lined.step (h : q.Lined ∧ q.Accounts) {a : UInt32 × Action H D} (hok : q.Timely a)
    (hstep : q.step heap a = some q') : q'.Lined ∧ q'.Accounts := by
  obtain ⟨now, action⟩ := a
  have hlined := h.1.tick hok.1
  have hacc := h.2.tick now
  rcases action with ⟨phandler, id, pdata, timeSensitive⟩ | ⟨cmsDelay, phandler, id, pdata⟩ |
    ⟨tstamp, phandler, id, pdata⟩ | ⟨phandler, id⟩ | _ | cmsWait | cmsWait | _ | ok
  · cases hstep
    exact ⟨hlined.post hacc _ _ _ _ _, hacc.post _ _ _ _ _⟩
  · cases hstep
    exact ⟨hlined.doDelayPost hacc rfl _ _ _ _ _, hacc.doDelayPost hlined.heap _ _ _ _ _ _⟩
  · cases hstep
    exact ⟨hlined.doDelayPost hacc rfl _ _ _ _ _, hacc.doDelayPost hlined.heap _ _ _ _ _ _⟩
  · cases hstep
    exact ⟨hlined.clear phandler id, hacc.clear phandler id⟩
  · cases hstep
    exact ⟨{ hlined with }, { hacc with }⟩
  · exact ⟨hlined.begin rfl hstep, hacc.begin hstep⟩
  · exact ⟨hlined.begin rfl hstep, hacc.begin hstep⟩
  · exact hlined.round hacc rfl (hok.2 rfl) hstep
  · exact ⟨hlined.wake rfl hstep, hacc.wake hstep⟩

variable (heap) in
/-- What the queue has done with the messages, and will do. -/
structure Delivers (q : MessageQueue H D) : Prop where
  /-- The messages of each kind are numbered as they were accepted, -/
  posted : Ranks (fun m => m.due.isNone) q.accepted ∧ Ranks (fun m => m.due.isSome) q.accepted
  /-- no two of them are the same, -/
  distinct : q.accepted.Nodup
  /-- and each was returned, removed by a `Clear`, or disposed of, or is still there. -/
  accounted : q.accepted.Perm (q.gone ++ q.pending)
  /-- What a `Clear` removed matches. -/
  matching : ∀ e ∈ q.cleared, ∀ m ∈ e.2, m.isMatch e.1.1 e.1.2 = true
  /-- Only `MQID_DISPOSE` is disposed of. -/
  disposed : ∀ m ∈ q.disposed, m.messageId = MQID_DISPOSE
  /-- The messages were returned in order, -/
  inOrder : (q.returned.map Prod.snd).Pairwise (InOrder q.Few)
  /-- and not before their trigger times. -/
  notEarly : ∀ r ∈ q.returned, ∀ trigger posted, r.2.due = some (trigger, posted) → trigger ≤ r.1
  /-- A round returns a message if one is ready. -/
  served : ∀ c m, q.running = some c → c.waiting = false → q.Comparable → q.Ready c.msCurrent m →
    ∀ now, ∃ m' t, q.step heap (now, .round) = some t ∧ (c.peek = true → t.msgPeek = some m') ∧
      (c.peek = false → t.returned = q.returned ++ [(now, m')])
  /-- What `Peek` returns is in the slot, -/
  peeked : ∀ a t, q.step heap a = some t →
    t.peeked = q.peeked ∨ ∃ m, t.peeked = q.peeked ++ [m] ∧ t.msgPeek = some m
  /-- and what is in the slot is what the next `Get` returns, if no `Clear` matches it. -/
  symmetric : ∀ m, q.msgPeek = some m → ∀ as t, (∀ a ∈ as, ¬ a.2.Takes m) →
    Runs.run (step heap) q as = some t → ∀ now cmsWait,
      ∃ t', t.step heap (now, .get cmsWait) = some t' ∧ t'.returned = t.returned ++ [(now, m)]

/-- Along every timely run, the queue delivers. -/
theorem delivers_of_run {as : List (UInt32 × Action H D)}
    (hok : Runs.Admissible (step heap) Timely new as)
    (hrun : Runs.run (step heap) new as = some q) : q.Delivers heap := by
  have hinv : q.Lined ∧ q.Accounts := by
    refine Runs.invariant (P := fun q => q.Lined ∧ q.Accounts) ?_ ⟨lined_new, accounts_new⟩ hok hrun
    intro s a s' hs hoka hstep
    exact Lined.step hs hoka hstep
  obtain ⟨hlined, hacc⟩ := hinv
  refine ⟨⟨hacc.immediate, hacc.delayed⟩, hacc.nodup, hacc.accounted, hacc.matching, hacc.disposed,
    ?_, hlined.notEarly, ?_, fun a t => peeked_step, ?_⟩
  · refine hlined.inOrder.sublist ?_
    rw [line, List.append_assoc]
    exact List.sublist_append_left _ _
  · intro c m hcall hwaiting hnear hready now
    exact round_of_ready (q := { q with clock := now }) hlined.heap hcall hwaiting hnear hready now
  · intro m hslot as t has ht now cmsWait
    have hidle : q.running = none := hlined.idle (by rw [hslot]; rfl)
    obtain ⟨hslot', hidle'⟩ := msgPeek_run ⟨hslot, hidle⟩ has ht
    refine ⟨{ t with clock := now, msgPeek := none, returned := t.returned ++ [(now, m)] }, ?_, rfl⟩
    simp [step, begin, hslot', hidle']

instance (q : MessageQueue H D) : Decidable q.Comparable :=
  match h : q.running with
  | none => .isTrue fun c hc => by cases h.symm.trans hc
  | some c =>
    decidable_of_iff (∀ d ∈ q.dmsgq, Near c.msCurrent d.msTrigger)
      ⟨fun hnear c' hc' => by cases h.symm.trans hc'; exact hnear, fun hnear => hnear c h⟩

instance [DecidableEq D] (q : MessageQueue H D) (a : UInt32 × Action H D) : Decidable (q.Timely a) :=
  inferInstanceAs (Decidable (_ ∧ (_ → _)))

/-- Heap operations that keep the container sorted. -/
def sortedHeap : Heap.Ops (DelayedMessage.Less (H := ℕ) (D := ℕ)) :=
  Heap.sortOps DelayedMessage.isOrder_less

/-- One message is posted and one delayed; the first is looked at and then both are fetched. -/
def fetchRun : List (UInt32 × Action ℕ ℕ) :=
  [(10, .post (some 1) 5 none false), (10, .postDelayed 20 (some 1) 6 none), (11, .peek 0),
    (11, .round), (12, .get 0), (13, .get kForever), (13, .round), (40, .wake true), (40, .round)]

theorem delivers_of_fetchRun :
    ∃ q, Runs.run (step sortedHeap) new fetchRun = some q ∧
      q.returned.map (fun r => (r.1, r.2.messageId)) = [(12, 5), (40, 6)] ∧
      q.Delivers sortedHeap := by
  have hend : (Runs.run (step sortedHeap) new fetchRun).map
      (fun q => q.returned.map fun r => (r.1, r.2.messageId)) = some [(12, 5), (40, 6)] := by
    decide +kernel
  obtain ⟨q, hrun, hreturned⟩ := Option.map_eq_some_iff.mp hend
  exact ⟨q, hrun, hreturned, delivers_of_run (by decide +kernel) hrun⟩

/-- A message that is posted with an earlier trigger time than one which is out comes out after it. -/
theorem not_in_trigger_order :
    ¬ ∀ (as : List (UInt32 × Action ℕ ℕ)) (q : MessageQueue ℕ ℕ),
      Runs.Admissible (step sortedHeap) Timely new as →
      Runs.run (step sortedHeap) new as = some q →
      (q.returned.map Prod.snd).Pairwise fun m m' => ∀ trigger posted trigger' posted',
        m.due = some (trigger, posted) → m'.due = some (trigger', posted') → trigger ≤ trigger' := by
  intro h
  have hend : (Runs.run (step sortedHeap) new
      [(100, .postAt 100 (some 1) 1 none), (100, .get 0), (100, .round),
        (100, .postAt 50 (some 1) 2 none), (100, .get 0), (100, .round)]).map
      (fun q => q.returned.map fun r => r.2.due) = some [some (100, 100), some (50, 100)] := by
    decide +kernel
  obtain ⟨q, hrun, hdues⟩ := Option.map_eq_some_iff.mp hend
  have hsorted := h _ q (by decide +kernel) hrun
  rcases hreturned : q.returned with _ | ⟨r, _ | ⟨r', rest⟩⟩
  all_goals
    rw [hreturned] at hdues hsorted
    simp only [List.map_nil, List.map_cons, List.cons.injEq, reduceCtorEq, and_false] at hdues
  obtain ⟨hr, hr', -⟩ := hdues
  have hle := (List.pairwise_cons.mp hsorted).1 r'.2 List.mem_cons_self 100 100 50 100 hr hr'
  exact absurd hle (by decide)

end Synciga.MessageQueue
