import Synciga.Base.MessageDelivery

/-!
# Delayed messages when the clock wraps

`operator<` of `DelayedMessage` orders the heap by plain 32-bit trigger times, and `TimeIsLater`, by which `Get`
sees what is due, compares around the wrap. At the wrap these differ: a message that is triggered behind it
stands first in the heap, stops the loop in front of all that are due, and is the one that `Get` waits for.

## Main results

* `heldUp_of_run` — when no message is held up
* `heldUp_at_wrap` — one that is
-/

namespace Synciga

theorem timeIsLater_eq (earlier later : UInt32) :
    timeIsLater earlier later = true ↔ 0 < timeDiff later earlier := by
  have hdiff := (later - earlier).toNat_lt
  have hhalf : (0x80000000 : UInt32).toNat = 2 ^ 31 := rfl
  simp only [timeIsLater, timeDiff, decide_eq_true_iff, UInt32.toUInt32_toInt32, toInt_toInt32,
    UInt32.lt_iff_toNat_lt, hhalf]
  split <;> omega

theorem timeDiff_eq (later earlier : UInt32) : timeDiff later earlier =
      if later.toNat < earlier.toNat then
        if earlier.toNat - later.toNat ≤ 2 ^ 31 then (later.toNat : ℤ) - earlier.toNat
        else (later.toNat : ℤ) - earlier.toNat + 2 ^ 32
      else if later.toNat - earlier.toNat < 2 ^ 31 then (later.toNat : ℤ) - earlier.toNat
      else (later.toNat : ℤ) - earlier.toNat - 2 ^ 32 := by
  have hlater := later.toNat_lt
  have hearlier := earlier.toNat_lt
  rw [timeDiff, toInt_toInt32, UInt32.toNat_sub]
  grind

theorem timeDiff_pos {later earlier : UInt32} (h : 0 < timeDiff later earlier) :
    earlier.toNat < later.toNat ∧ timeDiff later earlier = (later.toNat : ℤ) - earlier.toNat ∨
      later.toNat < earlier.toNat ∧
        timeDiff later earlier = (later.toNat : ℤ) - earlier.toNat + 2 ^ 32 := by
  have hlater := later.toNat_lt
  rw [timeDiff_eq] at h ⊢
  grind

namespace MessageQueue

variable {H D : Type} {now : UInt32} {d e : DelayedMessage H D}

/-! ### Where a round cuts the heap -/

/-- The trigger time is not later. -/
def Due (now : UInt32) (d : DelayedMessage H D) : Prop := timeIsLater now d.msTrigger = false

instance (now : UInt32) (d : DelayedMessage H D) : Decidable (Due now d) :=
  inferInstanceAs (Decidable (_ = _))

theorem due_iff : Due now d ↔ timeDiff d.msTrigger now ≤ 0 := by
  rw [Due, ← Bool.not_eq_true, timeIsLater_eq, not_lt]

variable {heap : Heap.Ops (DelayedMessage.Less (H := H) (D := D))}

variable (heap) in
/-- The loop moves messages that are due, stops at one that is not, and moves none before one that is
before it in the order of the heap. -/
theorem moveTriggered_cut (msCurrent : UInt32) (msgq : List (Message H D)) {fuel : ℕ}
    {dmsgq : List (DelayedMessage H D)} (hheap : Heap.IsHeap DelayedMessage.Less dmsgq)
    (hfuel : dmsgq.length ≤ fuel) :
    ∃ moved left,
      moveTriggered heap msCurrent fuel msgq dmsgq = (msgq ++ moved.map DelayedMessage.msg, left) ∧
        dmsgq.Perm (moved ++ left) ∧ Heap.IsHeap DelayedMessage.Less left ∧
        (∀ d ∈ moved, Due msCurrent d) ∧ (∀ d ∈ moved, ∀ e ∈ left, ¬ d.Less e) ∧
        ∀ top ∈ left.head?, ¬ Due msCurrent top := by
  induction fuel generalizing msgq dmsgq with
  | zero =>
    obtain rfl := List.length_eq_zero_iff.mp (Nat.le_zero.mp hfuel)
    exact ⟨[], [], by rw [moveTriggered, List.map_nil, List.append_nil], .nil, hheap,
      List.forall_mem_nil _, List.forall_mem_nil _, by rintro _ ⟨⟩⟩
  | succ fuel ih =>
    rcases dmsgq with _ | ⟨top, rest⟩
    · exact ⟨[], [], by rw [moveTriggered, List.map_nil, List.append_nil], .nil, hheap,
        List.forall_mem_nil _, List.forall_mem_nil _, by rintro _ ⟨⟩⟩
    by_cases hlater : timeIsLater msCurrent top.msTrigger = true
    · refine ⟨[], top :: rest, ?_, .refl _, hheap, List.forall_mem_nil _, List.forall_mem_nil _,
        fun first hfirst => ?_⟩
      · rw [moveTriggered, if_pos hlater, List.map_nil, List.append_nil]
      · obtain rfl := Option.some.inj hfirst
        rw [Due, hlater]
        rintro ⟨⟩
    have hpop := heap.pop_perm top rest hheap
    obtain ⟨moved, left, hmove, hperm, hheap', hdue, hcut, hstop⟩ :=
      ih (msgq ++ [top.msg]) (heap.pop_heap top rest hheap)
        (by rw [hpop.length_eq]; exact Nat.le_of_succ_le_succ hfuel)
    have hrest : rest.Perm (moved ++ left) := hpop.symm.trans hperm
    refine ⟨top :: moved, left, ?_, hrest.cons top, hheap', ?_, ?_, hstop⟩
    · rw [moveTriggered, if_neg hlater, hmove, List.map_cons, List.append_assoc,
        List.singleton_append]
    · rintro d (_ | ⟨_, hd⟩)
      · exact Bool.eq_false_iff.mpr hlater
      · exact hdue d hd
    · rintro d (_ | ⟨_, hd⟩) e he
      · refine hheap.not_less DelayedMessage.isOrder_less e (List.mem_cons_of_mem _ ?_)
        exact hrest.mem_iff.mpr (List.mem_append_right _ he)
      · exact hcut d hd e he

variable {q q' : MessageQueue H D}

variable (heap) in
/-- The delayed messages that a round leaves in the heap. -/
def leftBehind (q : MessageQueue H D) (msCurrent : UInt32) : List (DelayedMessage H D) :=
  (moveTriggered heap msCurrent q.dmsgq.length q.msgq q.dmsgq).2

/-- `cmsDelayNext` of a round that has left these. -/
def cmsDelayNext (msCurrent : UInt32) : List (DelayedMessage H D) → ℤ
  | [] => kForever
  | top :: _ => timeDiff top.msTrigger msCurrent

/-! ### The heap in every run -/

variable [DecidableEq H]

theorem isHeap_step (h : Heap.IsHeap DelayedMessage.Less q.dmsgq) {a : UInt32 × Action H D}
    (hstep : q.step heap a = some q') : Heap.IsHeap DelayedMessage.Less q'.dmsgq := by
  obtain ⟨now, action⟩ := a
  rw [step] at hstep
  cases action with
  | post phandler id pdata timeSensitive =>
    cases hstep
    rw [post]
    split <;> exact h
  | postDelayed cmsDelay phandler id pdata =>
    cases hstep
    rw [postDelayed, doDelayPost]
    split
    · exact h
    · exact heap.push_heap _ _ h
  | postAt tstamp phandler id pdata =>
    cases hstep
    rw [postAt, doDelayPost]
    split
    · exact h
    · exact heap.push_heap _ _ h
  | clear phandler id =>
    cases hstep
    exact heap.make_heap _
  | quit =>
    cases hstep
    exact h
  | peek cmsWait | get cmsWait =>
    simp only [begin] at hstep
    split at hstep
    · cases hstep
    · cases hstep
      exact h
    · cases hstep
      exact h
  | round =>
    rcases hcall : q.running with _ | c
    · simp only [round, hcall] at hstep
      cases hstep
    obtain ⟨-, msgq, dmsgq, disposed, rest, hmove, -, -, hend⟩ :=
      round_cases (q := { q with clock := now }) hcall hstep
    obtain ⟨moved, left, hcut, -, hleft, -⟩ :=
      moveTriggered_cut heap c.msCurrent q.msgq h (Nat.le_refl _)
    cases hmove.symm.trans hcut
    rcases hend with ⟨m, msgq', -, -, rfl⟩ | ⟨-, rfl⟩
    · rw [answer]
      split <;> exact hleft
    · exact hleft
  | wake ok =>
    simp only [wake] at hstep
    grind

theorem isHeap_run {as : List (UInt32 × Action H D)}
    (hrun : Runs.run (step heap) new as = some q) : Heap.IsHeap DelayedMessage.Less q.dmsgq :=
  Runs.invariant_of_step (P := fun q => Heap.IsHeap DelayedMessage.Less q.dmsgq)
    (fun _ _ _ h hstep => isHeap_step h hstep) Heap.isHeap_nil hrun

/-! ### When a round holds no message up -/

/-- The messages that are due have the smaller trigger times. -/
def DueFirst (q : MessageQueue H D) (now : UInt32) : Prop :=
  ∀ d ∈ q.dmsgq, Due now d → ∀ e ∈ q.dmsgq, ¬ Due now e → d.msTrigger < e.msTrigger

/-- The messages that are not due have the greater trigger times, or they all have smaller ones, since
they are triggered behind the wrap. -/
def OneSide (q : MessageQueue H D) (now : UInt32) : Prop :=
  (∀ d ∈ q.dmsgq, ¬ Due now d → now < d.msTrigger) ∨
    ∀ d ∈ q.dmsgq, ¬ Due now d → d.msTrigger < now

/-- The trigger times are not more than `2 ^ 31` apart. -/
def Close (q : MessageQueue H D) : Prop :=
  ∀ d ∈ q.dmsgq, ∀ e ∈ q.dmsgq, e.msTrigger.toNat ≤ d.msTrigger.toNat + 2 ^ 31

variable (heap) in
/-- A round at this time leaves no message that is due, -/
def MovesDue (q : MessageQueue H D) (now : UInt32) : Prop :=
  ∀ d ∈ q.leftBehind heap now, ¬ Due now d

variable (heap) in
/-- and does not wait longer than for the first that is triggered. -/
def WaitsForFirst (q : MessageQueue H D) (now : UInt32) : Prop :=
  ∀ d ∈ q.leftBehind heap now, cmsDelayNext now (q.leftBehind heap now) ≤ timeDiff d.msTrigger now

/-- The first message of the heap is not triggered later than another. -/
def TopEarliest (q : MessageQueue H D) : Prop :=
  ∀ top ∈ q.dmsgq.head?, ∀ d ∈ q.dmsgq, timeIsLater d.msTrigger top.msTrigger = false

variable (heap) in
omit [DecidableEq H] in
theorem movesDue_iff (hheap : Heap.IsHeap DelayedMessage.Less q.dmsgq) (now : UInt32) :
    q.MovesDue heap now ↔ q.DueFirst now := by
  obtain ⟨moved, left, hmove, hperm, hleft, hdue, hcut, hstop⟩ :=
    moveTriggered_cut heap now q.msgq hheap (Nat.le_refl _)
  have hmem {d : DelayedMessage H D} : d ∈ q.dmsgq ↔ d ∈ moved ∨ d ∈ left :=
    hperm.mem_iff.trans List.mem_append
  rw [MovesDue, leftBehind, hmove]
  constructor
  · intro hmoves d hd hdued e he hnot
    have hdmoved := (hmem.mp hd).resolve_right fun hd => hmoves d hd hdued
    have heleft := (hmem.mp he).resolve_left fun he => hnot (hdue e he)
    -- The one is in front of the other, and the trigger times differ.
    have hle := (not_or.mp (hcut d hdmoved e heleft)).1
    refine UInt32.lt_of_le_of_ne (UInt32.not_lt.mp hle) fun heq => hnot ?_
    rw [Due, ← heq]
    exact hdued
  intro hfirst d hd hdued
  rcases left with _ | ⟨top, rest⟩
  · cases hd
  have hlt := hfirst d (hmem.mpr (.inr hd)) hdued top (hmem.mpr (.inr List.mem_cons_self))
    (hstop top rfl)
  exact (not_or.mp (hleft.not_less DelayedMessage.isOrder_less d hd)).1 hlt

omit [DecidableEq H] in
/-- The wait is short enough if and only if nothing that is due is left, and the rest lies on one side
of the wrap. -/
theorem waitsForFirst_iff (hheap : Heap.IsHeap DelayedMessage.Less q.dmsgq) (now : UInt32) :
    q.WaitsForFirst heap now ↔ q.DueFirst now ∧ q.OneSide now := by
  rw [← movesDue_iff heap hheap]
  obtain ⟨moved, left, hmove, hperm, hleft, hdue, hcut, hstop⟩ :=
    moveTriggered_cut heap now q.msgq hheap (Nat.le_refl _)
  have hmem {d : DelayedMessage H D} : d ∈ q.dmsgq ↔ d ∈ moved ∨ d ∈ left :=
    hperm.mem_iff.trans List.mem_append
  have hnot {d : DelayedMessage H D} (hd : d ∈ q.dmsgq) (hlater : ¬ Due now d) : d ∈ left :=
    (hmem.mp hd).resolve_left fun hd => hlater (hdue d hd)
  rw [WaitsForFirst, MovesDue, leftBehind, hmove]
  rcases left with _ | ⟨top, rest⟩
  · refine iff_of_true nofun ⟨nofun, .inl fun d hd hlater => ?_⟩
    cases hnot hd hlater
  have htop := hstop top rfl
  rw [due_iff, not_le] at htop
  have hfirst (d) (hd : d ∈ top :: rest) : top.msTrigger.toNat ≤ d.msTrigger.toNat :=
    UInt32.le_iff_toNat_le.mp (UInt32.not_lt.mp
      (not_or.mp (hleft.not_less DelayedMessage.isOrder_less d hd)).1)
  simp only [cmsDelayNext]
  constructor
  · intro hwait
    have hpos (d) (hd : d ∈ top :: rest) : 0 < timeDiff d.msTrigger now := htop.trans_le (hwait d hd)
    refine ⟨fun d hd hdued => absurd (due_iff.mp hdued) (not_le.mpr (hpos d hd)), ?_⟩
    rcases timeDiff_pos htop with ⟨hbefore, -⟩ | ⟨hbehind, heq⟩
    · refine .inl fun d hd hlater => UInt32.lt_iff_toNat_lt.mpr ?_
      exact hbefore.trans_le (hfirst d (hnot hd hlater))
    -- A time in front of the wrap would come before that of the first message.
    refine .inr fun d hd hlater => UInt32.lt_iff_toNat_lt.mpr ?_
    have hle := hwait d (hnot hd hlater)
    have hbound := d.msTrigger.toNat_lt
    rcases timeDiff_pos (hpos d (hnot hd hlater)) with ⟨hbefore, heq'⟩ | ⟨hbehind', -⟩
    · omega
    · exact hbehind'
  · rintro ⟨hmoves, hside⟩ d hd
    have hdpos := hmoves d hd
    rw [due_iff, not_le] at hdpos
    have hle := hfirst d hd
    have htopmem := hmem.mpr (.inr List.mem_cons_self)
    have htopnot := hmoves top List.mem_cons_self
    rcases hside with hside | hside
    · have hbefore := UInt32.lt_iff_toNat_lt.mp (hside top htopmem htopnot)
      have hcases := timeDiff_pos htop
      have hcases' := timeDiff_pos hdpos
      omega
    · have hbehind := UInt32.lt_iff_toNat_lt.mp (hside top htopmem htopnot)
      have hbehind' := UInt32.lt_iff_toNat_lt.mp (hside d (hmem.mpr (.inr hd)) (hmoves d hd))
      have hcases := timeDiff_pos htop
      have hcases' := timeDiff_pos hdpos
      omega

omit [DecidableEq H] in
theorem topEarliest_iff (hheap : Heap.IsHeap DelayedMessage.Less q.dmsgq) : q.TopEarliest ↔ q.Close := by
  rcases hqueue : q.dmsgq with _ | ⟨top, rest⟩
  · refine iff_of_true (fun top htop => ?_) (fun d hd => ?_)
    · rw [hqueue] at htop
      cases htop
    · rw [hqueue] at hd
      cases hd
  rw [hqueue] at hheap
  have hfirst (d) (hd : d ∈ top :: rest) : top.msTrigger.toNat ≤ d.msTrigger.toNat :=
    UInt32.le_iff_toNat_le.mp (UInt32.not_lt.mp
      (not_or.mp (hheap.not_less DelayedMessage.isOrder_less d hd)).1)
  have hlater (d) (hd : d ∈ top :: rest) : timeIsLater d.msTrigger top.msTrigger = false ↔
      d.msTrigger.toNat ≤ top.msTrigger.toNat + 2 ^ 31 := by
    have hbound := d.msTrigger.toNat_lt
    rw [← Bool.not_eq_true, timeIsLater_eq, timeDiff_eq]
    grind
  constructor
  · intro hearliest d hd e he
    rw [hqueue] at hd he
    have hle := (hlater e he).mp (hearliest top (by rw [hqueue]; rfl) e (by rw [hqueue]; exact he))
    exact hle.trans (Nat.add_le_add_right (hfirst d hd) _)
  intro hclose first hhead d hd
  rw [hqueue] at hhead hd
  obtain rfl := Option.some.inj hhead
  refine (hlater d hd).mpr (hclose top ?_ d ?_)
  · rw [hqueue]
    exact List.mem_cons_self
  · rw [hqueue]
    exact hd

omit [DecidableEq H] in
theorem dueFirst_of_near (hnear : ∀ d ∈ q.dmsgq, Near now d.msTrigger) :
    q.DueFirst now ∧ q.OneSide now := by
  have hlater (d) (hd : d ∈ q.dmsgq) : ¬ Due now d ↔ now < d.msTrigger := by
    rw [Due, Bool.not_eq_false, timeIsLater_iff (hnear d hd)]
  refine ⟨fun d hd hdue e he hnot => ?_, .inl fun d hd hnot => (hlater d hd).mp hnot⟩
  have hle := UInt32.not_lt.mp fun hlt => (hlater d hd).mpr hlt hdue
  exact UInt32.lt_of_le_of_lt hle ((hlater e he).mp hnot)

theorem round_dmsgq {c : Call} (hcall : q.running = some c) (hstep : q.step heap (now, .round) = some q') :
    q'.dmsgq = q.leftBehind heap c.msCurrent := by
  obtain ⟨-, msgq, dmsgq, disposed, rest, hmove, -, -, hend⟩ :=
    round_cases (q := { q with clock := now }) hcall hstep
  rw [leftBehind, show moveTriggered heap c.msCurrent q.dmsgq.length q.msgq q.dmsgq = _ from hmove]
  rcases hend with ⟨m, msgq', -, -, rfl⟩ | ⟨-, rfl⟩
  · rw [answer]
    split <;> rfl
  · rfl

/-- **Delayed messages.** After every run and at every time: a round leaves no message that is due if and only
if those that are due have the smaller trigger times; it waits for the first of the others if and only if,
besides, these lie on one side of the wrap; and the first of the heap is triggered first if and only if the
trigger times are not more than `2 ^ 31` apart, as plain numbers. -/
theorem heldUp_of_run {as : List (UInt32 × Action H D)} (hrun : Runs.run (step heap) new as = some q) :
    (∀ now, (q.MovesDue heap now ↔ q.DueFirst now) ∧
      (q.WaitsForFirst heap now ↔ q.DueFirst now ∧ q.OneSide now)) ∧
      (q.TopEarliest ↔ q.Close) ∧
      ∀ c now q', q.running = some c → q.step heap (now, .round) = some q' →
        q'.dmsgq = q.leftBehind heap c.msCurrent := by
  have hheap := isHeap_run hrun
  exact ⟨fun now => ⟨movesDue_iff _ hheap now, waitsForFirst_iff hheap now⟩, topEarliest_iff hheap,
    fun c now q' hcall hstep => round_dmsgq hcall hstep⟩

/-- Two messages are delayed by 20 and 30 milliseconds, and `Get` looks at them after 25. -/
def delayRun : List (UInt32 × Action ℕ ℕ) :=
  [(10, .postDelayed 20 (some 1) 1 none), (10, .postDelayed 30 (some 1) 2 none),
    (10, .get kForever), (10, .round), (35, .wake true)]

theorem heldUp_of_delayRun :
    ∃ q, Runs.run (step sortedHeap) new delayRun = some q ∧
      q.dmsgq.map (fun d => d.msTrigger) = [30, 40] ∧ q.MovesDue sortedHeap 35 ∧
      q.WaitsForFirst sortedHeap 35 := by
  have hend : (Runs.run (step sortedHeap) new delayRun).map
      (fun q => q.dmsgq.map fun d => d.msTrigger) = some [30, 40] := by decide +kernel
  obtain ⟨q, hrun, htriggers⟩ := Option.map_eq_some_iff.mp hend
  have hnear : ∀ d ∈ q.dmsgq, Near 35 d.msTrigger := by
    intro d hd
    have hmem : d.msTrigger ∈ q.dmsgq.map fun d => d.msTrigger := List.mem_map_of_mem hd
    rw [htriggers] at hmem
    have hall : ∀ t ∈ [(30 : UInt32), 40], Near 35 t :=
      List.forall_mem_cons.mpr ⟨by decide, List.forall_mem_singleton.mpr (by decide)⟩
    exact hall _ hmem
  obtain ⟨hmoves, hwaits⟩ := (heldUp_of_run hrun).1 35
  exact ⟨q, hrun, htriggers, hmoves.mpr (dueFirst_of_near hnear).1,
    hwaits.mpr (dueFirst_of_near hnear)⟩

/-- A message is posted with its trigger time less than `2 ^ 31` ahead. -/
def PostsAhead (_ : MessageQueue H D) (a : UInt32 × Action H D) : Prop :=
  match a.2 with
  | .postDelayed cmsDelay _ _ _ => 0 ≤ cmsDelay
  | .postAt tstamp _ _ _ => (tstamp - a.1).toNat < 2 ^ 31
  | _ => True

/-- The same a hundred milliseconds before the wrap, with delays of 50 and 150 milliseconds; `Get` looks
at them after 60. -/
def wrapRun : List (UInt32 × Action ℕ ℕ) :=
  [(4294967196, .postDelayed 50 (some 1) 1 none), (4294967196, .postDelayed 150 (some 1) 2 none),
    (4294967196, .get kForever), (4294967196, .round), (4294967256, .wake true)]

/-- The second message is triggered at 50, stands first and is not due; so the first is left, though it
is due. -/
theorem heldUp_at_wrap : ¬ ∀ (as : List (UInt32 × Action ℕ ℕ)) (q : MessageQueue ℕ ℕ) (c : Call),
      Runs.Admissible (step sortedHeap) PostsAhead new as →
      Runs.run (step sortedHeap) new as = some q → q.running = some c → c.waiting = false →
        q.MovesDue sortedHeap c.msCurrent := by
  intro h
  have hend : (Runs.run (step sortedHeap) new wrapRun).map (fun q =>
      (q.running.map fun c => (c.waiting, c.msCurrent),
        (q.leftBehind sortedHeap 4294967256).map fun d => d.msTrigger)) =
      some (some (false, 4294967256), [50, 4294967246]) := by decide +kernel
  obtain ⟨q, hrun, heq⟩ := Option.map_eq_some_iff.mp hend
  obtain ⟨hrunning, hleft⟩ := Prod.mk.inj heq
  obtain ⟨c, hcall, hc⟩ := Option.map_eq_some_iff.mp hrunning
  obtain ⟨hwaiting, hcurrent⟩ := Prod.mk.inj hc
  have hok : Runs.Admissible (step sortedHeap) PostsAhead new wrapRun :=
    ⟨show (0 : Int32) ≤ 50 by decide, fun _ _ => ⟨show (0 : Int32) ≤ 150 by decide, fun _ _ =>
      ⟨trivial, fun _ _ => ⟨trivial, fun _ _ => ⟨trivial, fun _ _ => trivial⟩⟩⟩⟩⟩
  have hmoves := h wrapRun q c hok hrun hcall hwaiting
  rw [hcurrent] at hmoves
  have hmem : (4294967246 : UInt32) ∈
      (q.leftBehind sortedHeap 4294967256).map fun d => d.msTrigger := by
    rw [hleft]
    decide
  obtain ⟨d, hd, htrigger⟩ := List.mem_map.mp hmem
  refine hmoves d hd ?_
  rw [Due, htrigger]
  decide

end MessageQueue

end Synciga
