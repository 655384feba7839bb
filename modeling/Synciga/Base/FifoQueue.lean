import Synciga.Base.FifoBuffer
import Synciga.Internal.BoundedQueue
import Synciga.Internal.Runs

/-!
# `FifoBuffer` as a bounded queue

What shows of a `FifoBuffer` through its interface. `GetReadData` and `GetWriteBuffer` hand out a piece of the
ring; they are modelled together with what the caller does with it.

## Main definitions

* `Represents` — a buffer stands for a bounded queue

## Main results

* `queueTrace_iff` — the answers and events are those of the queue, unless a full buffer grows
* `not_queueTrace_after_growth` — `SetCapacity` tells nobody of the room that it makes
-/

namespace Synciga

open RingMemory

namespace FifoBuffer

/-! ### The interface -/

variable (f : FifoBuffer)

/-- `GetReadData`: the bytes that can be read in one piece. -/
def getReadData : List UInt8 :=
  let size := if f.readPosition + f.dataLength ≤ f.bufferLength then f.dataLength
    else f.bufferLength - f.readPosition
  readMem f.buffer f.readPosition size

/-- `GetWriteBuffer`: the place and the length of the piece that can be written, and the buffer, which starts
again at its beginning if it is empty. -/
def getWriteBuffer : Option (ℕ × ℕ × FifoBuffer) :=
  if f.state = .closed then none
  else
    let f := if f.dataLength = 0 then { f with readPosition := 0 } else f
    let writePosition := (f.readPosition + f.dataLength) % f.bufferLength
    let size := if f.readPosition < writePosition ∨ f.dataLength = 0
      then f.bufferLength - writePosition else f.readPosition - writePosition
    some (writePosition, size, f)

/-- The operations. A `SetCapacity` comes with the block it allocates. -/
inductive Op
  | write (data : List UInt8)
  | read (bytes : ℕ)
  | readOffset (bytes offset : ℕ)
  /-- `GetReadData`, and `ConsumeReadData` of `used` bytes. -/
  | readData (used : ℕ)
  /-- `GetWriteBuffer`, `data` copied to the piece, and `ConsumeWriteBuffer` of `used` bytes. -/
  | writeBuffer (data : List UInt8) (used : ℕ)
  | setCapacity (fresh : ℕ → UInt8) (size : ℕ)

/-- What an operation returns. -/
inductive Answer
  | written (result : StreamResult) (bytesWritten : ℕ)
  | bytes (result : StreamResult) (data : List UInt8)
  | piece (data : List UInt8)
  | room (size : Option ℕ)
  | done (ok : Bool)
  deriving DecidableEq

/-- The answer of an operation, and the buffer after it. -/
def perform : Op → Answer × FifoBuffer
  | .write data =>
    let (result, copy, f') := f.write data
    (.written result copy, f')
  | .read bytes =>
    let (result, data, f') := f.read bytes
    (.bytes result data, f')
  | .readOffset bytes offset =>
    let (result, data) := f.readOffset bytes offset
    (.bytes result data, f)
  | .readData used => (.piece f.getReadData, f.consumeReadData used)
  | .writeBuffer data used =>
    match f.getWriteBuffer with
    | none => (.room none, f)
    | some (writePosition, size, f) =>
      (.room (some size),
        { f with buffer := memcpy f.buffer writePosition data }.consumeWriteBuffer used)
  | .setCapacity fresh size =>
    let (ok, f') := f.setCapacity fresh size
    (.done ok, f')

/-- What the caller keeps to: no more is consumed or filled than was handed out, and the capacity is
not `0`. -/
def Legal : Op → Prop
  | .readData used => used ≤ f.getReadData.length
  | .writeBuffer data used =>
    ∀ writePosition size f', f.getWriteBuffer = some (writePosition, size, f') →
      data.length ≤ size ∧ used ≤ data.length
  | .setCapacity _ size => 1 ≤ size
  | _ => True

/-- The events posted between two states, first to last. -/
def postedSince (f f' : FifoBuffer) : List FifoEvent :=
  (f'.posted.take (f'.posted.length - f.posted.length)).reverse

/-- The answers of a sequence of operations, each with the events it posted. -/
def trace : FifoBuffer → List Op → List (Answer × List FifoEvent)
  | _, [] => []
  | f, op :: ops =>
    ((f.perform op).1, f.postedSince (f.perform op).2) :: trace (f.perform op).2 ops

/-! ### The bounded queue behind it -/

/-- The queue after an operation. -/
def next (q : BoundedQueue UInt8) : Op → BoundedQueue UInt8
  | .write data => q.push data
  | .read bytes => q.pop bytes
  | .readOffset _ _ => q
  | .readData used => q.pop used
  | .writeBuffer data used => q.push (data.take used)
  | .setCapacity _ size => q.resize size

/-- The answers of a queue. Pieces are up to the buffer, but not empty if there is anything to hand out. -/
def Answers (q : BoundedQueue UInt8) : Op → Answer → Prop
  | .write data, .written result n =>
    n = min data.length q.free ∧ result = if q.free = 0 then .block else .success
  | .read bytes, .bytes result data =>
    data = q.items.take bytes ∧ result = if q.items = [] then .block else .success
  | .readOffset bytes offset, .bytes result data =>
    data = q.peek bytes offset ∧ result = if q.items.length ≤ offset then .block else .success
  | .readData _, .piece data => data <+: q.items ∧ (data = [] → q.items = [])
  | .writeBuffer _ _, .room (some size) => size ≤ q.free ∧ (size = 0 → q.free = 0)
  | .setCapacity _ size, .done ok => ok = decide (q.items.length ≤ size)
  | _, _ => False

/-- The events that a change of the queue calls for. -/
def eventsOf (q q' : BoundedQueue UInt8) : List FifoEvent :=
  (if q.BecomesReadable q' then [.read] else []) ++ (if q.BecomesWritable q' then [.write] else [])

/-- The operations, their answers and events are those of a bounded queue. -/
def QueueTrace : BoundedQueue UInt8 → List Op → List (Answer × List FifoEvent) → Prop
  | _, [], [] => True
  | q, op :: ops, (answer, events) :: rest =>
    Answers q op answer ∧ events = eventsOf q (next q op) ∧ QueueTrace (next q op) ops rest
  | _, _, _ => False

/-- The ring holds the items of the queue, and has its capacity. -/
structure Represents (f : FifoBuffer) (q : BoundedQueue UInt8) : Prop where
  wellFormed : f.WellFormed
  contents : f.contents = q.items
  capacity : f.bufferLength = q.capacity
  /-- The capacity is not `0`. -/
  pos : 0 < q.capacity

/-- `SetCapacity` makes room in a full buffer. -/
def Unblocks : Op → Prop
  | .setCapacity _ size => f.dataLength = f.bufferLength ∧ f.bufferLength < size
  | _ => False

variable {f g : FifoBuffer} {q : BoundedQueue UInt8}

namespace Represents

theorem length_items (h : f.Represents q) : q.items.length = f.dataLength := by
  rw [← h.contents, length_contents]

theorem free (h : f.Represents q) : q.free = f.getWriteRemaining := by
  rw [BoundedQueue.free, ← h.capacity, h.length_items, getWriteRemaining]

theorem items_eq_nil (h : f.Represents q) : q.items = [] ↔ f.dataLength = 0 := by
  rw [← List.length_eq_zero_iff, h.length_items]

theorem readPosition_lt (h : f.Represents q) : f.readPosition < f.bufferLength := by
  refine h.wellFormed.pos_lt ?_
  rw [h.capacity]
  exact h.pos

end Represents

theorem represents_new (fresh : ℕ → UInt8) {size : ℕ} (h : 1 ≤ size) :
    (new fresh size).Represents (.empty size) :=
  ⟨wellFormed_new fresh size, rfl, rfl, h⟩

/-! ### Events -/

theorem postedSince_of_eq (h : g.posted = f.posted) : f.postedSince g = [] := by
  rw [postedSince, h, Nat.sub_self]
  rfl

theorem postedSince_postEvent (h : g.posted = f.posted) (p : Prop) [Decidable p]
    (event : FifoEvent) : f.postedSince (g.postEvent p event) = if p then [event] else [] := by
  rw [postEvent]
  split
  · rw [postedSince, h, List.length_cons, Nat.add_sub_cancel_left]
    rfl
  · exact postedSince_of_eq h

theorem eventsOf_self (q : BoundedQueue UInt8) : eventsOf q q = [] := by
  rw [eventsOf, if_neg q.not_becomes_self.1, if_neg q.not_becomes_self.2]
  rfl

theorem eventsOf_push (q : BoundedQueue UInt8) (data : List UInt8) :
    eventsOf q (q.push data) = if q.items = [] ∧ 0 < min data.length q.free then [.read] else [] := by
  rw [eventsOf, if_neg (q.not_becomesWritable_push data), List.append_nil]
  exact if_congr (q.becomesReadable_push data) rfl rfl

theorem eventsOf_pop (q : BoundedQueue UInt8) (n : ℕ) :
    eventsOf q (q.pop n) = if q.free = 0 ∧ 0 < min n q.items.length then [.write] else [] := by
  rw [eventsOf, if_neg (q.not_becomesReadable_pop n), List.nil_append]
  exact if_congr (q.becomesWritable_pop n) rfl rfl

theorem postedSince_consumeReadData (h : f.Represents q) {n : ℕ} (hn : n ≤ f.dataLength) :
    f.postedSince (f.consumeReadData n) = eventsOf q (q.pop n) := by
  have hroom : q.free = 0 ↔ ¬ f.dataLength < f.bufferLength := by
    rw [h.free, getWriteRemaining]
    omega
  refine (postedSince_postEvent (by rfl) _ _).trans ?_
  rw [eventsOf_pop, h.length_items, Nat.min_eq_left hn]
  exact if_congr (and_congr_left' hroom.symm) rfl rfl

variable {data : List UInt8}

theorem postedSince_consumeWriteBuffer (h : f.Represents q) (hposted : g.posted = f.posted)
    (hlen : g.dataLength = f.dataLength) (hn : data.length ≤ q.free) :
    f.postedSince (g.consumeWriteBuffer data.length) = eventsOf q (q.push data) := by
  have hpost := postedSince_postEvent
    (g := { g with dataLength := g.dataLength + data.length }) hposted
    (¬ 0 < g.dataLength ∧ 0 < data.length) .read
  refine hpost.trans ?_
  rw [eventsOf_push, Nat.min_eq_left hn]
  refine if_congr (and_congr_left' ?_) rfl rfl
  rw [hlen, h.items_eq_nil]
  omega

/-! ### The pieces of the ring -/

theorem getReadData_eq (h : f.Represents q) : ∃ n, f.getReadData = q.items.take n ∧
    n ≤ f.dataLength ∧ (n = 0 → f.dataLength = 0) := by
  have hpos := h.readPosition_lt
  -- In the piece, the ring does not wrap.
  have hpiece : ∀ n, n ≤ f.dataLength → n ≤ f.bufferLength - f.readPosition →
      readMem f.buffer f.readPosition n = q.items.take n := by
    intro n hn hend
    rw [← h.contents]
    refine List.ext_getElem? fun i => ?_
    rw [getElem?_readMem, List.getElem?_take]
    split
    · next hi =>
      rw [getElem?_contents, if_pos (by omega), cell, ringAt, add_mod_of_lt hpos (by omega)]
    · rfl
  simp only [getReadData]
  split
  · exact ⟨f.dataLength, hpiece _ le_rfl (by omega), le_rfl, id⟩
  · exact ⟨f.bufferLength - f.readPosition, hpiece _ (by omega) le_rfl, by omega, by omega⟩

theorem represents_reset (h : f.Represents q) :
    (if f.dataLength = 0 then { f with readPosition := 0 } else f).Represents q := by
  split
  · next hzero =>
    refine ⟨⟨h.wellFormed.data_le, id, h.wellFormed.opened⟩, ?_, h.capacity, h.pos⟩
    rw [h.items_eq_nil.mpr hzero, contents, hzero]
    rfl
  · exact h

/-- The buffer with `data` copied to where the next byte will be written. -/
def fillPiece (f : FifoBuffer) (data : List UInt8) : FifoBuffer :=
  { f with buffer := memcpy f.buffer ((f.readPosition + f.dataLength) % f.bufferLength) data }

theorem cell_fillPiece (hcap : 0 < f.bufferLength) (hfit : f.dataLength + data.length ≤ f.bufferLength)
    (hend : (f.readPosition + f.dataLength) % f.bufferLength + data.length ≤ f.bufferLength)
    {i : ℕ} (hi : i < f.bufferLength) :
    (f.fillPiece data).cell i =
      if f.dataLength ≤ i then (data[i - f.dataLength]?).getD (f.cell i) else f.cell i := by
  have hwrap := memcpy_wrap_from f.buffer f.readPosition hfit hcap hi
  have hone : min data.length
      (f.bufferLength - (f.readPosition + f.dataLength) % f.bufferLength) = data.length := by
    omega
  have hnil : ∀ mem : ℕ → UInt8, memcpy mem 0 ([] : List UInt8) = mem := by
    intro mem
    funext j
    exact memcpy_of_le (Nat.zero_le j)
  simp only [hone, List.take_length, List.drop_length, hnil] at hwrap
  exact hwrap

theorem getWriteBuffer_eq (h : f.Represents q) :
    ∃ size f', f.getWriteBuffer = some ((f'.readPosition + f'.dataLength) % f'.bufferLength, size, f') ∧
      f'.Represents q ∧ f'.posted = f.posted ∧ size ≤ q.free ∧ (size = 0 → q.free = 0) ∧
      (f'.readPosition + f'.dataLength) % f'.bufferLength + size ≤ f'.bufferLength := by
  have hreset := represents_reset h
  have hposted : (if f.dataLength = 0 then { f with readPosition := 0 } else f).posted =
      f.posted := by
    split <;> rfl
  rw [getWriteBuffer, if_neg (by rw [h.wellFormed.opened]; decide)]
  generalize (if f.dataLength = 0 then { f with readPosition := 0 } else f) = f' at *
  have hpos := hreset.readPosition_lt
  have hdata := hreset.wellFormed.data_le
  rw [hreset.free, getWriteRemaining]
  refine ⟨_, f', rfl, hreset, hposted, ?_⟩
  rcases Nat.lt_or_ge (f'.readPosition + f'.dataLength) f'.bufferLength with hlt | hge
  · -- The room wraps around the end of the block, unless the buffer is empty.
    rw [Nat.mod_eq_of_lt hlt, if_pos (by omega)]
    omega
  · have hmod : (f'.readPosition + f'.dataLength) % f'.bufferLength =
        f'.readPosition + f'.dataLength - f'.bufferLength := by
      rw [Nat.mod_eq_sub_mod hge, Nat.mod_eq_of_lt (by omega)]
    rw [hmod, if_neg (by omega)]
    omega

variable {used : ℕ}

theorem represents_fillPiece (h : f.Represents q) (hfit : data.length ≤ q.free) (hused : used ≤ data.length)
    (hend : (f.readPosition + f.dataLength) % f.bufferLength + data.length ≤ f.bufferLength) :
    ((f.fillPiece data).consumeWriteBuffer used).Represents (q.push (data.take used)) := by
  have hcap : 0 < f.bufferLength := by
    rw [h.capacity]
    exact h.pos
  have hdata := h.wellFormed.data_le
  have hfree := hfit
  rw [h.free, getWriteRemaining] at hfree
  have hcell : ∀ {i}, i < f.bufferLength → (f.fillPiece data).cell i =
      if f.dataLength ≤ i then (data[i - f.dataLength]?).getD (f.cell i) else f.cell i :=
    fun hi => cell_fillPiece hcap (by omega) hend hi
  have hwf : (f.fillPiece data).WellFormed :=
    ⟨hdata, h.wellFormed.pos_lt, h.wellFormed.opened⟩
  refine ⟨wellFormed_consumeWriteBuffer hwf (show f.dataLength + used ≤ f.bufferLength by omega),
    ?_, ?_, h.pos⟩
  · have htake : (data.take used).take q.free = data.take used := by
      rw [List.take_take, Nat.min_eq_right (by omega)]
    rw [contents_consumeWriteBuffer, BoundedQueue.push_items, htake, ← h.contents]
    congr 1
    · refine List.ext_getElem? fun i => ?_
      rw [getElem?_contents, getElem?_contents]
      change (if i < f.dataLength then _ else _) = _
      split
      · next hi => rw [hcell (by omega), if_neg (by omega)]
      · rfl
    refine List.ext_getElem? fun i => ?_
    rw [List.getElem?_map, List.getElem?_take]
    split
    · next hi =>
      change Option.map (fun i => (f.fillPiece data).cell (f.dataLength + i)) _ = _
      rw [List.getElem?_range hi, Option.map_some, hcell (by omega), if_pos (by omega),
        Nat.add_sub_cancel_left, List.getElem?_eq_getElem (by omega)]
      rfl
    · next hi =>
      rw [List.getElem?_eq_none (by rw [List.length_range]; omega)]
      rfl
  · rw [consumeWriteBuffer_bufferLength]
    exact h.capacity

/-! ### One operation -/

theorem represents_consumeReadData (h : f.Represents q) (n : ℕ) :
    (f.consumeReadData n).Represents (q.pop n) := by
  refine ⟨wellFormed_consumeReadData h.wellFormed n, ?_, ?_, h.pos⟩
  · rw [contents_consumeReadData, h.contents, BoundedQueue.pop_items]
  · rw [consumeReadData_bufferLength, h.capacity, BoundedQueue.pop_capacity]

theorem write_refines (h : f.Represents q) (data : List UInt8) :
    Answers q (.write data) (f.perform (.write data)).1 ∧
      (f.perform (.write data)).2.Represents (q.push data) ∧
      f.postedSince (f.perform (.write data)).2 = eventsOf q (q.push data) := by
  obtain ⟨hcount, hcontents, hcap, hwf⟩ := write_eq h.wellFormed data
  rw [← h.free] at hcount hcontents
  have hrepresents : (f.write data).2.2.Represents (q.push data) := by
    refine ⟨hwf, ?_, hcap.trans h.capacity, h.pos⟩
    rw [hcontents, h.contents, BoundedQueue.push_items]
  refine ⟨⟨hcount, ?_⟩, hrepresents, ?_⟩
  · change (f.write data).1 = _
    rw [h.free, getWriteRemaining]
    rcases Nat.lt_or_ge f.dataLength f.bufferLength with hlt | hge
    · obtain ⟨buffer, -, hwrite⟩ := write_of_room h.wellFormed data hlt
      rw [hwrite, if_neg (by omega)]
    · rw [write_of_full h.wellFormed data hge, if_pos (by omega)]
  change f.postedSince (f.write data).2.2 = _
  rcases Nat.lt_or_ge f.dataLength f.bufferLength with hlt | hge
  · obtain ⟨buffer, -, hwrite⟩ := write_of_room h.wellFormed data hlt
    -- Only what fits is committed, and pushing only that is the same.
    have hfits : (data.take q.free).length = min data.length f.getWriteRemaining := by
      rw [List.length_take, h.free, Nat.min_comm]
    have hsame : q.push (data.take q.free) = q.push data := by
      ext1
      · simp only [BoundedQueue.push_items, List.take_take, Nat.min_self]
      · rfl
    rw [hwrite, ← hfits, ← hsame]
    exact postedSince_consumeWriteBuffer (g := { f with buffer := buffer }) h rfl rfl
      (List.length_take_le _ _)
  · rw [write_of_full h.wellFormed data hge, postedSince_of_eq rfl, eventsOf_push, if_neg]
    rw [h.free, getWriteRemaining]
    omega

theorem read_refines (h : f.Represents q) (bytes : ℕ) :
    Answers q (.read bytes) (f.perform (.read bytes)).1 ∧
      (f.perform (.read bytes)).2.Represents (q.pop bytes) ∧
      f.postedSince (f.perform (.read bytes)).2 = eventsOf q (q.pop bytes) := by
  rcases Nat.eq_zero_or_pos f.dataLength with hz | hpos
  · have hnil := h.items_eq_nil.mpr hz
    have hsame : q.pop bytes = q := by
      ext1
      · rw [BoundedQueue.pop_items, hnil, List.drop_nil]
      · rfl
    simp only [perform, read_of_empty h.wellFormed bytes hz]
    rw [hsame, eventsOf_self]
    exact ⟨⟨by rw [hnil, List.take_nil], (if_pos hnil).symm⟩, h, postedSince_of_eq rfl⟩
  have hne : q.items ≠ [] := fun hnil => hpos.ne' (h.items_eq_nil.mp hnil)
  have hlen : (f.contents.take bytes).length = min bytes q.items.length := by
    rw [List.length_take, h.contents]
  have hsame : q.pop bytes = q.pop (min bytes q.items.length) := by
    ext1
    · rw [BoundedQueue.pop_items, BoundedQueue.pop_items, List.drop_eq_drop_min]
    · rfl
  simp only [perform, read_eq h.wellFormed bytes hpos, hlen]
  rw [hsame]
  refine ⟨⟨by rw [h.contents], (if_neg hne).symm⟩, represents_consumeReadData h _, ?_⟩
  refine postedSince_consumeReadData h ?_
  rw [← h.length_items]
  exact Nat.min_le_right _ _

theorem readOffset_refines (h : f.Represents q) (bytes offset : ℕ) :
    Answers q (.readOffset bytes offset) (f.perform (.readOffset bytes offset)).1 := by
  change (f.readOffset bytes offset).2 = _ ∧ (f.readOffset bytes offset).1 = _
  rw [h.length_items]
  rcases Nat.lt_or_ge offset f.dataLength with hlt | hge
  · simp only [readOffset_eq h.wellFormed bytes hlt]
    exact ⟨by rw [BoundedQueue.peek, h.contents], (if_neg (Nat.not_le.mpr hlt)).symm⟩
  · simp only [readOffset_of_le h.wellFormed hge]
    refine ⟨?_, (if_pos hge).symm⟩
    rw [BoundedQueue.peek, List.drop_eq_nil_of_le (by rw [h.length_items]; exact hge),
      List.take_nil]

theorem readData_refines (h : f.Represents q) (hlegal : f.Legal (.readData used)) :
    Answers q (.readData used) (f.perform (.readData used)).1 ∧
      (f.perform (.readData used)).2.Represents (q.pop used) ∧
      f.postedSince (f.perform (.readData used)).2 = eventsOf q (q.pop used) := by
  obtain ⟨n, hpiece, hn, hzero⟩ := getReadData_eq h
  have hlen : f.getReadData.length = n := by
    rw [hpiece, List.length_take, h.length_items, Nat.min_eq_left hn]
  have hused : used ≤ n := hlen ▸ hlegal
  refine ⟨⟨?_, ?_⟩, represents_consumeReadData h used,
    postedSince_consumeReadData h (hused.trans hn)⟩
  · rw [hpiece]
    exact List.take_prefix n q.items
  · intro hnil
    refine h.items_eq_nil.mpr (hzero ?_)
    rw [← hlen, hnil]
    rfl

theorem writeBuffer_refines (h : f.Represents q) (hlegal : f.Legal (.writeBuffer data used)) :
    Answers q (.writeBuffer data used) (f.perform (.writeBuffer data used)).1 ∧
      (f.perform (.writeBuffer data used)).2.Represents (q.push (data.take used)) ∧
      f.postedSince (f.perform (.writeBuffer data used)).2 = eventsOf q (q.push (data.take used)) := by
  obtain ⟨size, f', hpiece, hf', hposted, hsize, hzero, hend⟩ := getWriteBuffer_eq h
  obtain ⟨hdata, hused⟩ := hlegal _ size f' hpiece
  simp only [perform, hpiece]
  have hlen : (data.take used).length = used := by
    rw [List.length_take, Nat.min_eq_left hused]
  refine ⟨⟨hsize, hzero⟩, represents_fillPiece hf' (hdata.trans hsize) hused (by omega), ?_⟩
  have hevents := postedSince_consumeWriteBuffer (g := f'.fillPiece data) h hposted
    (hf'.length_items.symm.trans h.length_items)
    (show (data.take used).length ≤ q.free by omega)
  rw [hlen] at hevents
  exact hevents

theorem setCapacity_refines (h : f.Represents q) (fresh : ℕ → UInt8) {size : ℕ} (hlegal : 1 ≤ size) :
    Answers q (.setCapacity fresh size) (f.perform (.setCapacity fresh size)).1 ∧
      (f.perform (.setCapacity fresh size)).2.Represents (q.resize size) ∧
      f.postedSince (f.perform (.setCapacity fresh size)).2 = [] := by
  refine ⟨?_, ⟨wellFormed_setCapacity h.wellFormed fresh size, ?_, ?_, ?_⟩, ?_⟩
  · change (f.setCapacity fresh size).1 = _
    rw [h.length_items, Bool.eq_iff_iff, setCapacity_fst, decide_eq_true_eq]
  · rw [BoundedQueue.resize_items, ← h.contents]
    exact contents_setCapacity h.wellFormed fresh size
  · rw [BoundedQueue.resize_capacity, h.length_items, ← h.capacity]
    change (f.setCapacity fresh size).2.bufferLength = _
    rw [setCapacity]
    split
    · next hlt => rw [if_neg (Nat.not_le.mpr hlt)]
    next hge =>
    rw [if_pos (Nat.not_lt.mp hge)]
    split
    · rfl
    · next heq => exact (not_ne_iff.mp heq).symm
  · rw [BoundedQueue.resize_capacity]
    split
    · exact hlegal
    · exact h.pos
  · refine postedSince_of_eq ?_
    change (f.setCapacity fresh size).2.posted = f.posted
    rw [setCapacity]
    split_ifs <;> rfl

/-- The answer is one of the queue, which the buffer represents again, and so are the events unless
`SetCapacity` makes room in a full buffer. -/
theorem perform_refines (h : f.Represents q) {op : Op} (hlegal : f.Legal op) :
    Answers q op (f.perform op).1 ∧ (f.perform op).2.Represents (next q op) ∧
      (f.postedSince (f.perform op).2 = eventsOf q (next q op) ↔ ¬ f.Unblocks op) := by
  cases op with
  | write data =>
    obtain ⟨hanswer, hrep, hevents⟩ := write_refines h data
    exact ⟨hanswer, hrep, iff_of_true hevents id⟩
  | read bytes =>
    obtain ⟨hanswer, hrep, hevents⟩ := read_refines h bytes
    exact ⟨hanswer, hrep, iff_of_true hevents id⟩
  | readOffset bytes offset =>
    refine ⟨readOffset_refines h bytes offset, h, iff_of_true ?_ id⟩
    exact (postedSince_of_eq rfl).trans (eventsOf_self q).symm
  | readData used =>
    obtain ⟨hanswer, hrep, hevents⟩ := readData_refines h hlegal
    exact ⟨hanswer, hrep, iff_of_true hevents id⟩
  | writeBuffer data used =>
    obtain ⟨hanswer, hrep, hevents⟩ := writeBuffer_refines h hlegal
    exact ⟨hanswer, hrep, iff_of_true hevents id⟩
  | setCapacity fresh size =>
    obtain ⟨hanswer, hrep, hnone⟩ := setCapacity_refines h fresh hlegal
    refine ⟨hanswer, hrep, ?_⟩
    have hfull : q.free = 0 ∧ q.capacity < size ↔ f.Unblocks (.setCapacity fresh size) := by
      have hdata := h.wellFormed.data_le
      rw [h.free, getWriteRemaining, ← h.capacity]
      change _ ↔ f.dataLength = f.bufferLength ∧ f.bufferLength < size
      omega
    rw [hnone, next, eventsOf, if_neg (q.not_becomesReadable_resize size), List.nil_append,
      ← hfull, ← q.becomesWritable_resize size]
    split
    · next hgrows => exact iff_of_false (List.cons_ne_nil _ _).symm (not_not_intro hgrows)
    · next hsame => exact iff_of_true rfl hsame

/-! ### Sequences of operations -/

/-- An operation on a buffer, as a step of a system. -/
def step (f : FifoBuffer) (op : Op) : Option FifoBuffer := some (f.perform op).2

theorem queueTrace_of_represents (h : f.Represents q) {ops : List Op}
    (hlegal : Runs.Admissible step Legal f ops) :
    QueueTrace q ops (f.trace ops) ↔ Runs.Admissible step (fun f op => ¬ f.Unblocks op) f ops := by
  induction ops generalizing f q with
  | nil => exact Iff.rfl
  | cons op ops ih =>
    obtain ⟨hanswer, hrep, hevents⟩ := perform_refines h hlegal.1
    have hrest := ih hrep (hlegal.2 _ rfl)
    constructor
    · rintro ⟨-, hposted, htrace⟩
      refine ⟨hevents.mp hposted, ?_⟩
      intro f' hf'
      obtain rfl := Option.some.inj hf'
      exact hrest.mp htrace
    · rintro ⟨hkeep, hothers⟩
      exact ⟨hanswer, hevents.mpr hkeep, hrest.mpr (hothers _ rfl)⟩

/-- **A bounded queue.** The answers and the events are those of a bounded queue of bytes, exactly if no
`SetCapacity` makes room in a full buffer. -/
theorem queueTrace_iff (fresh : ℕ → UInt8) (size : ℕ) (hsize : 1 ≤ size) (ops : List Op)
    (hlegal : Runs.Admissible step Legal (new fresh size) ops) :
    QueueTrace (.empty size) ops ((new fresh size).trace ops) ↔
      Runs.Admissible step (fun f op => ¬ f.Unblocks op) (new fresh size) ops :=
  queueTrace_of_represents (represents_new fresh hsize) hlegal

/-- Three bytes written to a buffer of two, one of them read and one written behind the other, which
wraps: a run in which nothing is missing. -/
theorem queueTrace_of_wrapping :
    Runs.Admissible step Legal (new (fun _ => 0) 2) [.write [1, 2, 3], .read 1, .write [4]] ∧
      (new (fun _ => 0) 2).trace [.write [1, 2, 3], .read 1, .write [4]] =
        [(.written .success 2, [.read]), (.bytes .success [1], [.write]),
          (.written .success 1, [])] ∧
      (QueueTrace (.empty 2) [.write [1, 2, 3], .read 1, .write [4]]
          ((new (fun _ => 0) 2).trace [.write [1, 2, 3], .read 1, .write [4]]) ↔
        Runs.Admissible step (fun f op => ¬ f.Unblocks op) (new (fun _ => 0) 2)
          [.write [1, 2, 3], .read 1, .write [4]]) := by
  have hlegal : Runs.Admissible step Legal (new (fun _ => 0) 2) [.write [1, 2, 3], .read 1, .write [4]] :=
    ⟨trivial, fun _ _ => ⟨trivial, fun _ _ => ⟨trivial, fun _ _ => trivial⟩⟩⟩
  exact ⟨hlegal, by decide, queueTrace_iff (fun _ => 0) 2 (by decide) _ hlegal⟩

/-- A full buffer of one byte is enlarged, and no event tells the writer. -/
theorem not_queueTrace_after_growth : ¬ ∀ (fresh : ℕ → UInt8) (size : ℕ) (ops : List Op), 1 ≤ size →
      Runs.Admissible step Legal (new fresh size) ops →
        QueueTrace (.empty size) ops ((new fresh size).trace ops) := by
  intro h
  have hlegal : Runs.Admissible step Legal (new (fun _ => 0) 1) [.write [7], .setCapacity (fun _ => 0) 2] :=
    ⟨trivial, fun _ _ => ⟨show 1 ≤ 2 by decide, fun _ _ => trivial⟩⟩
  obtain ⟨-, -, -, hevents, -⟩ := h (fun _ => 0) 1 _ (by decide) hlegal
  exact absurd hevents (by decide)

end FifoBuffer

end Synciga
