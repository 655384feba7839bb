import Synciga.Base.TimeUtils
import Synciga.Internal.Heap
import Synciga.Internal.Runs
import Mathlib.Data.UInt

/-!
# `talk_base::MessageQueue`

A message queue (`talk/base/messagequeue.cc`) takes messages from any thread and gives them to the one that owns
it. A message that is not due waits in the heap `dmsgq_`, one that is due in the list `msgq_`, and one that was
only looked at in the slot `msgPeek_`.

Threads hold `crit_` while they work on these, so that what happens is a sequence of critical sections, each at
its time. A `Get` is a loop of them, between which others may post and clear. A message carries how it was
posted, which no function reads.

## Main definitions

* `MessageQueue`, `MessageQueue.round` — the queue, and a round of `Get`
* `MessageQueue.step` — a critical section
-/

namespace Synciga

/-- Any message. -/
def MQID_ANY : UInt32 := 0xFFFFFFFF

/-- A message that disposes of its data. -/
def MQID_DISPOSE : UInt32 := 0xFFFFFFFE

/-- The delay that is logged, in milliseconds. -/
def kMaxMsgLatency : UInt32 := 150

/-- Without end. -/
def kForever : ℤ := -1

namespace MessageQueue

/-- `Message`, with a handler of type `H` and data of type `D`. -/
structure Message (H D : Type) where
  phandler : Option H
  messageId : UInt32
  pdata : Option D
  tsSensitive : UInt32
  /-- History: the trigger time of a delayed message, and the time when it was posted. -/
  due : Option (UInt32 × UInt32)
  /-- History: how many messages of its kind, delayed or not, were accepted before. -/
  rank : ℕ
  deriving DecidableEq, Repr

variable {H D : Type}

/-- `Match`. -/
def Message.isMatch [DecidableEq H] (m : Message H D) (handler : Option H) (id : UInt32) : Bool :=
  (handler = none ∨ handler = m.phandler) ∧ (id = MQID_ANY ∨ id = m.messageId)

/-- The class `DelayedMessage`. -/
structure DelayedMessage (H D : Type) where
  cmsDelay : Int32
  msTrigger : UInt32
  num : UInt32
  msg : Message H D
  deriving DecidableEq, Repr

/-- `operator<`: the message that comes first is the greatest. -/
def DelayedMessage.Less (a b : DelayedMessage H D) : Prop :=
  b.msTrigger < a.msTrigger ∨ b.msTrigger = a.msTrigger ∧ b.num < a.num

instance : DecidableRel (DelayedMessage.Less (H := H) (D := D)) := fun _ _ =>
  inferInstanceAs (Decidable (_ ∨ _))

theorem DelayedMessage.isOrder_less : Heap.IsOrder (DelayedMessage.Less (H := H) (D := D)) where
  irrefl a := by
    rw [Less]
    simp
  trans a b c := by
    simp only [Less, UInt32.lt_iff_toNat_lt, ← UInt32.toNat_inj]
    omega
  total a b := by
    simp only [Less, UInt32.lt_iff_toNat_lt, ← UInt32.toNat_inj]
    omega

/-- A `Get` or a `Peek` of the owner that has not returned. -/
structure Call where
  peek : Bool
  cmsWait : ℤ
  msStart : UInt32
  msCurrent : UInt32
  /-- The call is in `Wait` of the socket server. -/
  waiting : Bool
  deriving DecidableEq, Repr

end MessageQueue

open MessageQueue in
/-- `talk_base::MessageQueue`, with the call of its owner. `msgPeek_` holds a message if
`fPeekKeep_`. -/
structure MessageQueue (H D : Type) where
  fStop : Bool
  msgPeek : Option (Message H D)
  msgq : List (Message H D)
  dmsgq : List (DelayedMessage H D)
  dmsgqNextNum : UInt32
  running : Option Call
  /-- History: the time of the last action. -/
  clock : UInt32
  /-- History: the messages that were accepted, first to last. -/
  accepted : List (Message H D)
  /-- History: the messages that `Get` returned, with the time, first to last. -/
  returned : List (UInt32 × Message H D)
  /-- History: the messages that `Peek` returned, first to last. -/
  peeked : List (Message H D)
  /-- History: the calls of `Clear`, with what they removed, first to last. -/
  cleared : List ((Option H × UInt32) × List (Message H D))
  /-- History: the messages that `Get` disposed of. -/
  disposed : List (Message H D)

namespace MessageQueue

variable {H D : Type} [DecidableEq H]

/-- The constructor. -/
def new : MessageQueue H D where
  fStop := false
  msgPeek := none
  msgq := []
  dmsgq := []
  dmsgqNextNum := 0
  running := none
  clock := 0
  accepted := []
  returned := []
  peeked := []
  cleared := []
  disposed := []

/-! ### Posting -/

/-- `Post`. -/
def post (q : MessageQueue H D) (now : UInt32) (phandler : Option H) (id : UInt32)
    (pdata : Option D) (timeSensitive : Bool) : MessageQueue H D :=
  if q.fStop then q
  else
    let msg : Message H D :=
      { phandler := phandler
        messageId := id
        pdata := pdata
        tsSensitive := if timeSensitive then now + kMaxMsgLatency else 0
        due := none
        rank := q.accepted.countP fun m => m.due.isNone }
    { q with msgq := q.msgq ++ [msg], accepted := q.accepted ++ [msg] }

variable (heap : Heap.Ops (DelayedMessage.Less (H := H) (D := D)))

/-- `DoDelayPost`. -/
def doDelayPost (q : MessageQueue H D) (now : UInt32) (cmsDelay : Int32) (tstamp : UInt32)
    (phandler : Option H) (id : UInt32) (pdata : Option D) : MessageQueue H D :=
  if q.fStop then q
  else
    let msg : Message H D :=
      { phandler := phandler
        messageId := id
        pdata := pdata
        tsSensitive := 0
        due := some (tstamp, now)
        rank := q.accepted.countP fun m => m.due.isSome }
    { q with
      dmsgq := heap.push q.dmsgq ⟨cmsDelay, tstamp, q.dmsgqNextNum, msg⟩
      dmsgqNextNum := q.dmsgqNextNum + 1
      accepted := q.accepted ++ [msg] }

/-- `PostDelayed`. -/
def postDelayed (q : MessageQueue H D) (now : UInt32) (cmsDelay : Int32) (phandler : Option H)
    (id : UInt32) (pdata : Option D) : MessageQueue H D :=
  q.doDelayPost heap now cmsDelay (now + cmsDelay.toUInt32) phandler id pdata

/-- `PostAt`. -/
def postAt (q : MessageQueue H D) (now tstamp : UInt32) (phandler : Option H) (id : UInt32)
    (pdata : Option D) : MessageQueue H D :=
  q.doDelayPost heap now (tstamp - now).toInt32 tstamp phandler id pdata

/-- `Quit`. -/
def quit (q : MessageQueue H D) : MessageQueue H D := { q with fStop := true }

/-! ### Clearing -/

/-- `Clear`: the messages it removes, and the queue afterwards. -/
def clear (q : MessageQueue H D) (phandler : Option H) (id : UInt32) :
    List (Message H D) × MessageQueue H D :=
  let removed :=
    q.msgPeek.toList.filter (fun m => m.isMatch phandler id) ++
      q.msgq.filter (fun m => m.isMatch phandler id) ++
      (q.dmsgq.filter fun d => d.msg.isMatch phandler id).map DelayedMessage.msg
  (removed, { q with
    msgPeek := q.msgPeek.filter fun m => !m.isMatch phandler id
    msgq := q.msgq.filter fun m => !m.isMatch phandler id
    -- The container is compacted in place, and made a heap again.
    dmsgq := heap.make (q.dmsgq.filter fun d => !d.msg.isMatch phandler id)
    cleared := q.cleared ++ [((phandler, id), removed)] })

/-! ### Getting -/

/-- The loop of `Get` over the delayed messages: those that have been triggered go to the end of `msgq_`. Each
round takes one out of the heap. -/
def moveTriggered (msCurrent : UInt32) :
    ℕ → List (Message H D) → List (DelayedMessage H D) → List (Message H D) × List (DelayedMessage H D)
  | 0, msgq, dmsgq => (msgq, dmsgq)
  | _ + 1, msgq, [] => (msgq, [])
  | fuel + 1, msgq, top :: rest =>
    if timeIsLater msCurrent top.msTrigger then (msgq, top :: rest)
    else moveTriggered msCurrent fuel (msgq ++ [top.msg]) (heap.pop (top :: rest))

/-- The loop of `Get` over `msgq_`: the messages it disposes of, the message it finds and the messages
behind it. -/
def takeMessage : List (Message H D) →
    List (Message H D) × Option (Message H D) × List (Message H D)
  | [] => ([], none, [])
  | m :: msgq =>
    if m.messageId = MQID_DISPOSE then
      let (disposed, found, rest) := takeMessage msgq
      (m :: disposed, found, rest)
    else ([], some m, msgq)

/-- The beginning of `Peek` and `Get`: a message in the slot is the answer. -/
def begin (q : MessageQueue H D) (now : UInt32) (peek : Bool) (cmsWait : ℤ) :
    Option (MessageQueue H D) :=
  match q.running, q.msgPeek with
  | some _, _ => none -- there is one owner
  | none, some m =>
    if peek then some { q with peeked := q.peeked ++ [m] }
    else some { q with msgPeek := none, returned := q.returned ++ [(now, m)] }
  | none, none => some { q with running := some ⟨peek, cmsWait, now, now, false⟩ }

/-- `Get` has found a message, and `Peek` keeps it. -/
def answer (q : MessageQueue H D) (now : UInt32) (c : Call) (m : Message H D) : MessageQueue H D :=
  if c.peek then { q with running := none, msgPeek := some m, peeked := q.peeked ++ [m] }
  else { q with running := none, returned := q.returned ++ [(now, m)] }

/-- The critical section of a round of `Get`, up to the wait. -/
def round (q : MessageQueue H D) (now : UInt32) : Option (MessageQueue H D) :=
  match q.running with
  | none => none
  | some c =>
    if c.waiting then none
    else
      let (msgq, dmsgq) := moveTriggered heap c.msCurrent q.dmsgq.length q.msgq q.dmsgq
      let (disposed, found, msgq) := takeMessage msgq
      let q := { q with msgq := msgq, dmsgq := dmsgq, disposed := q.disposed ++ disposed }
      match found with
      | some m => some (q.answer now c m)
      | none =>
        some { q with running := if q.fStop then none else some { c with waiting := true } }

/-- The end of a round: `Wait` has returned. -/
def wake (q : MessageQueue H D) (now : UInt32) (ok : Bool) : Option (MessageQueue H D) :=
  match q.running with
  | none => none
  | some c =>
    if c.waiting = false then none
    else if ok = false then some { q with running := none }
    else if c.cmsWait ≠ kForever ∧ c.cmsWait ≤ timeDiff now c.msStart then
      some { q with running := none }
    else some { q with running := some { c with msCurrent := now, waiting := false } }

/-! ### Steps -/

/-- What the threads do. -/
inductive Action (H D : Type)
  | post (phandler : Option H) (id : UInt32) (pdata : Option D) (timeSensitive : Bool)
  | postDelayed (cmsDelay : Int32) (phandler : Option H) (id : UInt32) (pdata : Option D)
  | postAt (tstamp : UInt32) (phandler : Option H) (id : UInt32) (pdata : Option D)
  | clear (phandler : Option H) (id : UInt32)
  | quit
  | peek (cmsWait : ℤ)
  | get (cmsWait : ℤ)
  | round
  | wake (ok : Bool)
  deriving DecidableEq, Repr

/-- One action, at a time; `none` when it cannot happen. -/
def step (q : MessageQueue H D) (a : UInt32 × Action H D) : Option (MessageQueue H D) :=
  let q := { q with clock := a.1 }
  match a.2 with
  | .post phandler id pdata timeSensitive => some (q.post a.1 phandler id pdata timeSensitive)
  | .postDelayed cmsDelay phandler id pdata =>
    some (q.postDelayed heap a.1 cmsDelay phandler id pdata)
  | .postAt tstamp phandler id pdata => some (q.postAt heap a.1 tstamp phandler id pdata)
  | .clear phandler id => some (q.clear heap phandler id).2
  | .quit => some q.quit
  | .peek cmsWait => q.begin a.1 true cmsWait
  | .get cmsWait => q.begin a.1 false cmsWait
  | .round => q.round heap a.1
  | .wake ok => q.wake a.1 ok

end MessageQueue

end Synciga
