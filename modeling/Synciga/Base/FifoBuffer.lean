import Synciga.Internal.RingMemory
import Mathlib.Data.List.Range

/-!
# `talk_base::FifoBuffer`

The ring buffer for both directions of a `PseudoTcp` connection (`talk/base/stream.cc`). Committed bytes take
the first `dataLength` cells from `readPosition` on, cyclically; `writeOffset` may place bytes behind them that
`consumeWriteBuffer` commits later. `new char[size]` leaves its cells unspecified, so the operations that
allocate take the fresh block, a function `ℕ → UInt8`, as an argument.

## Main definitions

* `FifoBuffer`, `FifoBuffer.WellFormed` — the ring
* `FifoBuffer.contents` — the committed bytes
-/

namespace Synciga

open RingMemory

/-- The enumeration `StreamState`. -/
inductive StreamState
  | closed
  | opening
  | opened
  deriving DecidableEq, Repr

/-- The enumeration `StreamResult`. -/
inductive StreamResult
  | error
  | success
  | block
  | eos
  deriving DecidableEq, Repr

/-- The flags of `talk_base::StreamEvent`. -/
structure StreamEvents where
  opened : Bool
  read : Bool
  write : Bool
  close : Bool
  deriving DecidableEq, Repr

/-- The two events a `FifoBuffer` posts to its owner. -/
inductive FifoEvent
  | read
  | write
  deriving DecidableEq, Repr

/-- `talk_base::FifoBuffer`. `posted` lists the events handed to `PostEvent`, latest first. -/
structure FifoBuffer where
  state : StreamState
  buffer : ℕ → UInt8
  bufferLength : ℕ
  dataLength : ℕ
  readPosition : ℕ
  posted : List FifoEvent

namespace FifoBuffer

variable (fresh : ℕ → UInt8)

/-- The constructor, on a freshly allocated block. -/
def new (size : ℕ) : FifoBuffer where
  state := .opened
  buffer := fresh
  bufferLength := size
  dataLength := 0
  readPosition := 0
  posted := []

variable (f : FifoBuffer)

/-- `GetBuffered`. -/
def getBuffered : ℕ := f.dataLength

/-- `GetWriteRemaining`. -/
def getWriteRemaining : ℕ := f.bufferLength - f.dataLength

/-- `SetCapacity`: reallocate unless the committed bytes do not fit. Only the committed bytes are
copied to the new block. -/
def setCapacity (fresh : ℕ → UInt8) (size : ℕ) : Bool × FifoBuffer :=
  if size < f.dataLength then (false, f)
  else if size ≠ f.bufferLength then
    let copy := f.dataLength
    let tailCopy := min copy (f.bufferLength - f.readPosition)
    let buffer := memcpy fresh 0 (readMem f.buffer f.readPosition tailCopy)
    let buffer := memcpy buffer tailCopy (readMem f.buffer 0 (copy - tailCopy))
    (true, { f with buffer := buffer, readPosition := 0, bufferLength := size })
  else (true, f)

/-- `ReadOffsetLocked`, returning the copied bytes. -/
def readOffset (bytes offset : ℕ) : StreamResult × List UInt8 :=
  if f.dataLength ≤ offset then (if f.state ≠ .closed then .block else .eos, [])
  else
    let available := f.dataLength - offset
    let readPosition := (f.readPosition + offset) % f.bufferLength
    let copy := min bytes available
    let tailCopy := min copy (f.bufferLength - readPosition)
    (.success, readMem f.buffer readPosition tailCopy ++ readMem f.buffer 0 (copy - tailCopy))

/-- `WriteOffsetLocked`, returning the number of bytes copied. -/
def writeOffset (data : List UInt8) (offset : ℕ) :
    StreamResult × ℕ × FifoBuffer :=
  if f.state = .closed then (.eos, 0, f)
  else if f.bufferLength ≤ f.dataLength + offset then (.block, 0, f)
  else
    let available := f.bufferLength - f.dataLength - offset
    let writePosition := (f.readPosition + f.dataLength + offset) % f.bufferLength
    let copy := min data.length available
    let tailCopy := min copy (f.bufferLength - writePosition)
    let buffer := memcpy f.buffer writePosition ((data.take copy).take tailCopy)
    let buffer := memcpy buffer 0 ((data.take copy).drop tailCopy)
    (.success, copy, { f with buffer := buffer })

/-- Post `event` when `p` holds. -/
def postEvent (p : Prop) [Decidable p] (event : FifoEvent) : FifoBuffer :=
  if p then { f with posted := event :: f.posted } else f

/-- `Read`. -/
def read (bytes : ℕ) : StreamResult × List UInt8 × FifoBuffer :=
  match f.readOffset bytes 0 with
  | (.success, data) =>
    let wasWritable := f.dataLength < f.bufferLength
    let f' := { f with
      readPosition := (f.readPosition + data.length) % f.bufferLength
      dataLength := f.dataLength - data.length }
    (.success, data, f'.postEvent (¬ wasWritable ∧ 0 < data.length) .write)
  | (result, _) => (result, [], f)

/-- `Write`. -/
def write (data : List UInt8) : StreamResult × ℕ × FifoBuffer :=
  match f.writeOffset data 0 with
  | (.success, copy, f') =>
    let wasReadable := 0 < f.dataLength
    let f' := { f' with dataLength := f'.dataLength + copy }
    (.success, copy, f'.postEvent (¬ wasReadable ∧ 0 < copy) .read)
  | (result, _, _) => (result, 0, f)

/-- `ConsumeReadData`. -/
def consumeReadData (size : ℕ) : FifoBuffer :=
  let wasWritable := f.dataLength < f.bufferLength
  let f' := { f with
    readPosition := (f.readPosition + size) % f.bufferLength
    dataLength := f.dataLength - size }
  f'.postEvent (¬ wasWritable ∧ 0 < size) .write

/-- `ConsumeWriteBuffer`. -/
def consumeWriteBuffer (size : ℕ) : FifoBuffer :=
  let wasReadable := 0 < f.dataLength
  let f' := { f with dataLength := f.dataLength + size }
  f'.postEvent (¬ wasReadable ∧ 0 < size) .read

/-! ### The ring, read cyclically -/

/-- Cell `i` of the ring, counted from the read position. -/
def cell (i : ℕ) : UInt8 := ringAt f.buffer f.bufferLength f.readPosition i

/-- The committed bytes, in order. -/
def contents : List UInt8 := (List.range f.dataLength).map f.cell

/-- What every operation keeps: the committed bytes fit, the read position is inside the block,
and nobody has closed the buffer. -/
structure WellFormed (f : FifoBuffer) : Prop where
  /-- The committed bytes fit. -/
  data_le : f.dataLength ≤ f.bufferLength
  /-- The read position is an index of the block. -/
  pos_lt : 0 < f.bufferLength → f.readPosition < f.bufferLength
  /-- The buffer has not been closed. -/
  opened : f.state = .opened

variable {f : FifoBuffer}

@[simp] theorem length_contents (f : FifoBuffer) : f.contents.length = f.dataLength := by
  simp [contents]

theorem getElem?_contents (f : FifoBuffer) (i : ℕ) :
    f.contents[i]? = if i < f.dataLength then some (f.cell i) else none := by
  by_cases h : i < f.dataLength <;> simp [contents, h]

theorem wellFormed_new (size : ℕ) : (new fresh size).WellFormed :=
  ⟨Nat.zero_le _, id, rfl⟩

/-! ### Posting an event changes nothing else -/

section PostEvent

variable (f) (p : Prop) [Decidable p] (event : FifoEvent)

@[simp] theorem postEvent_bufferLength :
    (f.postEvent p event).bufferLength = f.bufferLength := by
  unfold postEvent; split <;> rfl

@[simp] theorem postEvent_dataLength : (f.postEvent p event).dataLength = f.dataLength := by
  unfold postEvent; split <;> rfl

@[simp] theorem postEvent_cell : (f.postEvent p event).cell = f.cell := by
  unfold postEvent; split <;> rfl

theorem postEvent_wellFormed (h : f.WellFormed) : (f.postEvent p event).WellFormed := by
  unfold postEvent
  split
  · exact ⟨h.data_le, h.pos_lt, h.opened⟩
  · exact h

end PostEvent

/-! ### Reading -/

variable {offset : ℕ}

theorem readOffset_eq (h : f.WellFormed) (bytes : ℕ) (ho : offset < f.dataLength) :
    f.readOffset bytes offset = (.success, (f.contents.drop offset).take bytes) := by
  have hcap : 0 < f.bufferLength := by have := h.data_le; omega
  have hcopy : min bytes (f.dataLength - offset) ≤ f.bufferLength := by
    have := h.data_le; omega
  simp only [readOffset, Nat.not_le.mpr ho, if_false]
  rw [readMem_wrap f.buffer (Nat.mod_lt _ hcap) hcopy]
  refine Prod.ext rfl (List.ext_getElem? fun i => ?_)
  simp only [List.getElem?_map, List.getElem?_take, List.getElem?_drop, getElem?_contents]
  by_cases hi : i < min bytes (f.dataLength - offset)
  · rw [List.getElem?_range hi, if_pos (by omega), if_pos (by omega), Option.map_some, ringAt_add]
    rfl
  · rw [List.getElem?_eq_none (by rw [List.length_range]; omega), Option.map_none]
    by_cases hb : i < bytes
    · rw [if_pos hb, if_neg (by omega)]
    · rw [if_neg hb]

theorem readOffset_of_le {bytes offset : ℕ} (h : f.WellFormed) (ho : f.dataLength ≤ offset) :
    f.readOffset bytes offset = (.block, []) := by
  simp [readOffset, ho, h.opened]

theorem cell_consumeReadData (f : FifoBuffer) (n i : ℕ) :
    (f.consumeReadData n).cell i = f.cell (n + i) := by
  simp only [consumeReadData, postEvent_cell]
  exact ringAt_add _ _ _ _ _

@[simp] theorem consumeReadData_dataLength (f : FifoBuffer) (n : ℕ) :
    (f.consumeReadData n).dataLength = f.dataLength - n := by
  simp [consumeReadData]

@[simp] theorem consumeReadData_bufferLength (f : FifoBuffer) (n : ℕ) :
    (f.consumeReadData n).bufferLength = f.bufferLength := by
  simp [consumeReadData]

theorem contents_consumeReadData (f : FifoBuffer) (n : ℕ) :
    (f.consumeReadData n).contents = f.contents.drop n := by
  refine List.ext_getElem? fun i => ?_
  rw [getElem?_contents, cell_consumeReadData, List.getElem?_drop, getElem?_contents,
    consumeReadData_dataLength]
  exact if_congr (by omega) rfl rfl

theorem wellFormed_consumeReadData (h : f.WellFormed) (n : ℕ) : (f.consumeReadData n).WellFormed := by
  refine postEvent_wellFormed _ _ _ ⟨?_, fun hc => Nat.mod_lt _ hc, h.opened⟩
  exact (Nat.sub_le _ _).trans h.data_le

theorem read_eq (h : f.WellFormed) (bytes : ℕ) (hd : 0 < f.dataLength) :
    f.read bytes = (.success, f.contents.take bytes,
      f.consumeReadData (f.contents.take bytes).length) := by
  simp only [read, readOffset_eq h bytes hd, List.drop_zero]
  rfl

theorem read_of_empty (h : f.WellFormed) (bytes : ℕ) (hd : f.dataLength = 0) :
    f.read bytes = (.block, [], f) := by
  simp only [read, readOffset_of_le h (Nat.le_of_eq hd)]

/-! ### Writing -/

theorem writeOffset_eq (h : f.WellFormed) (data : List UInt8)
    (ho : f.dataLength + offset < f.bufferLength) :
    ∃ buffer, f.writeOffset data offset =
      (.success, min data.length (f.bufferLength - f.dataLength - offset),
        { f with buffer := buffer }) := by
  simp only [writeOffset, h.opened, Nat.not_le.mpr ho, if_false, reduceCtorEq]
  exact ⟨_, rfl⟩

theorem writeOffset_of_le (h : f.WellFormed) (data : List UInt8)
    (ho : f.bufferLength ≤ f.dataLength + offset) : f.writeOffset data offset = (.block, 0, f) := by
  simp [writeOffset, h.opened, ho]

theorem cell_writeOffset (h : f.WellFormed) (data : List UInt8)
    (ho : f.dataLength + offset + data.length ≤ f.bufferLength) {i : ℕ} (hi : i < f.bufferLength) :
    (f.writeOffset data offset).2.2.cell i =
      if f.dataLength + offset ≤ i then (data[i - (f.dataLength + offset)]?).getD (f.cell i)
      else f.cell i := by
  rcases Nat.lt_or_ge (f.dataLength + offset) f.bufferLength with hlt | hge
  · have hcopy : min data.length (f.bufferLength - f.dataLength - offset) = data.length := by omega
    simp only [writeOffset, h.opened, Nat.not_le.mpr hlt, if_false, reduceCtorEq, hcopy,
      List.take_length]
    have key := memcpy_wrap_from f.buffer f.readPosition ho (by omega) hi
    rw [← Nat.add_assoc] at key
    exact key
  · have hnil : data = [] := List.length_eq_zero_iff.mp (by omega)
    rw [writeOffset_of_le h data hge, hnil]
    simp

@[simp] theorem writeOffset_dataLength (f : FifoBuffer) (data : List UInt8) (offset : ℕ) :
    (f.writeOffset data offset).2.2.dataLength = f.dataLength := by
  unfold writeOffset; split_ifs <;> rfl

@[simp] theorem writeOffset_bufferLength (f : FifoBuffer) (data : List UInt8) (offset : ℕ) :
    (f.writeOffset data offset).2.2.bufferLength = f.bufferLength := by
  unfold writeOffset; split_ifs <;> rfl

theorem wellFormed_writeOffset (h : f.WellFormed) (data : List UInt8) (offset : ℕ) :
    (f.writeOffset data offset).2.2.WellFormed := by
  unfold writeOffset
  split_ifs
  · exact h
  · exact h
  · exact ⟨h.data_le, h.pos_lt, h.opened⟩

theorem contents_writeOffset (h : f.WellFormed) (data : List UInt8)
    (ho : f.dataLength + offset + data.length ≤ f.bufferLength) :
    (f.writeOffset data offset).2.2.contents = f.contents := by
  refine List.ext_getElem? fun i => ?_
  rw [getElem?_contents, getElem?_contents, writeOffset_dataLength]
  split
  case isTrue hi =>
    rw [cell_writeOffset h data ho (hi.trans_le h.data_le), if_neg (by omega)]
  case isFalse => rfl

@[simp] theorem consumeWriteBuffer_cell (f : FifoBuffer) (n : ℕ) :
    (f.consumeWriteBuffer n).cell = f.cell := by
  simp only [consumeWriteBuffer, postEvent_cell]
  rfl

@[simp] theorem consumeWriteBuffer_dataLength (f : FifoBuffer) (n : ℕ) :
    (f.consumeWriteBuffer n).dataLength = f.dataLength + n := by
  simp [consumeWriteBuffer]

@[simp] theorem consumeWriteBuffer_bufferLength (f : FifoBuffer) (n : ℕ) :
    (f.consumeWriteBuffer n).bufferLength = f.bufferLength := by
  simp [consumeWriteBuffer]

theorem contents_consumeWriteBuffer (f : FifoBuffer) (n : ℕ) : (f.consumeWriteBuffer n).contents =
      f.contents ++ (List.range n).map fun i => f.cell (f.dataLength + i) := by
  simp only [contents, consumeWriteBuffer_dataLength, consumeWriteBuffer_cell, List.range_add,
    List.map_append, List.map_map]
  rfl

theorem wellFormed_consumeWriteBuffer (h : f.WellFormed) {n : ℕ}
    (hn : f.dataLength + n ≤ f.bufferLength) : (f.consumeWriteBuffer n).WellFormed :=
  postEvent_wellFormed _ _ _ ⟨hn, h.pos_lt, h.opened⟩

theorem write_of_full (h : f.WellFormed) (data : List UInt8)
    (hfull : f.bufferLength ≤ f.dataLength) : f.write data = (.block, 0, f) := by
  simp only [write, writeOffset_of_le h data (show f.bufferLength ≤ f.dataLength + 0 by omega)]

theorem write_of_room (h : f.WellFormed) (data : List UInt8) (hroom : f.dataLength < f.bufferLength) :
    ∃ buffer, f.writeOffset data 0 =
        (.success, min data.length f.getWriteRemaining, { f with buffer := buffer }) ∧
      f.write data = (.success, min data.length f.getWriteRemaining,
        FifoBuffer.consumeWriteBuffer { f with buffer := buffer }
          (min data.length f.getWriteRemaining)) := by
  obtain ⟨buffer, hbuf⟩ := writeOffset_eq h data (show f.dataLength + 0 < f.bufferLength by omega)
  refine ⟨buffer, hbuf, ?_⟩
  simp only [write, hbuf]
  rfl

theorem write_eq (h : f.WellFormed) (data : List UInt8) :
    (f.write data).2.1 = min data.length f.getWriteRemaining ∧
      (f.write data).2.2.contents = f.contents ++ data.take f.getWriteRemaining ∧
      (f.write data).2.2.bufferLength = f.bufferLength ∧ (f.write data).2.2.WellFormed := by
  rcases Nat.lt_or_ge f.dataLength f.bufferLength with hlt | hge
  · -- `WriteOffset` of the fitting prefix, followed by its commit.
    have hfit : f.writeOffset (data.take f.getWriteRemaining) 0 = f.writeOffset data 0 := by
      simp only [writeOffset, h.opened, getWriteRemaining, List.length_take]
      simp only [Nat.sub_zero, Nat.min_comm data.length, Nat.min_left_comm,
        List.take_take]
      simp
    set data' := data.take f.getWriteRemaining with hdata'
    have hlen : f.dataLength + 0 + data'.length ≤ f.bufferLength := by
      simp [hdata', getWriteRemaining]; omega
    have hcount : min data.length f.getWriteRemaining = data'.length := by
      simp [hdata', Nat.min_comm]
    obtain ⟨buffer, hbuf, hwrite⟩ := write_of_room h data hlt
    have hcell := fun {i} (hi : i < f.bufferLength) => cell_writeOffset h data' hlen hi
    rw [hfit, hbuf] at hcell
    rw [hcount] at hwrite
    rw [hwrite]
    refine ⟨by simp [hdata', Nat.min_comm], ?_, by simp,
      wellFormed_consumeWriteBuffer (f := { f with buffer := buffer })
        ⟨h.data_le, h.pos_lt, h.opened⟩ (by simpa using hlen)⟩
    rw [contents_consumeWriteBuffer]
    congr 1
    · refine List.ext_getElem? fun i => ?_
      rw [getElem?_contents, getElem?_contents]
      split
      case isTrue hi =>
        rw [hcell (hi.trans_le h.data_le), if_neg (by simpa using hi)]
      case isFalse => rfl
    refine List.ext_getElem? fun i => ?_
    rw [List.getElem?_map]
    rcases Nat.lt_or_ge i data'.length with hi | hi
    · rw [List.getElem?_range hi, Option.map_some, hcell (by simp at hlen ⊢; omega),
        if_pos (by simp)]
      simp [hi]
    · rw [List.getElem?_eq_none (by simpa using hi), List.getElem?_eq_none hi]
      rfl
  · have hfull : f.getWriteRemaining = 0 := by simp only [getWriteRemaining]; omega
    rw [write_of_full h data hge, hfull]
    exact ⟨by simp, by simp, rfl, h⟩

/-! ### Reallocating -/

theorem setCapacity_fst (f : FifoBuffer) (fresh : ℕ → UInt8) (size : ℕ) :
    (f.setCapacity fresh size).1 = true ↔ f.dataLength ≤ size := by
  unfold setCapacity
  split_ifs <;> simp <;> omega

@[simp] theorem setCapacity_dataLength (f : FifoBuffer) (fresh : ℕ → UInt8) (size : ℕ) :
    (f.setCapacity fresh size).2.dataLength = f.dataLength := by
  unfold setCapacity
  split_ifs <;> rfl

theorem contents_setCapacity (h : f.WellFormed) (fresh : ℕ → UInt8) (size : ℕ) :
    (f.setCapacity fresh size).2.contents = f.contents := by
  unfold setCapacity
  split_ifs with hlt hne
  · rfl
  · refine List.ext_getElem? fun i => ?_
    rw [getElem?_contents, getElem?_contents]
    simp only
    split
    case isFalse => rfl
    case isTrue hi =>
      have hpos : f.readPosition < f.bufferLength :=
        h.pos_lt (by have := h.data_le; omega)
      have hwrap := readMem_wrap f.buffer hpos h.data_le
      have hcell : f.cell i = ((List.range f.dataLength).map f.cell)[i]?.getD 0 := by simp [hi]
      rw [show (List.range f.dataLength).map f.cell = _ from hwrap.symm] at hcell
      rw [hcell]
      simp only [cell, ringAt, Nat.zero_add, Nat.mod_eq_of_lt (show i < size by omega)]
      rcases Nat.lt_or_ge i (min f.dataLength (f.bufferLength - f.readPosition)) with ht | ht
      · rw [memcpy_of_lt _ ht, memcpy_of_mem (by omega) (by simpa using ht),
          List.getElem?_append_left (by simpa using ht)]
        simp [ht]
      · rw [memcpy_of_mem ht (by simp; omega), List.getElem?_append_right (by simpa using ht)]
        simp [show i - min f.dataLength (f.bufferLength - f.readPosition) <
          f.dataLength - min f.dataLength (f.bufferLength - f.readPosition) by omega]
  · rfl

theorem wellFormed_setCapacity (h : f.WellFormed) (fresh : ℕ → UInt8) (size : ℕ) :
    (f.setCapacity fresh size).2.WellFormed := by
  unfold setCapacity
  split_ifs with hlt hne
  · exact h
  · exact ⟨by simp only; omega, id, h.opened⟩
  · exact h

theorem setCapacity_bufferLength_le (f : FifoBuffer) (fresh : ℕ → UInt8) (size : ℕ) :
    (f.setCapacity fresh size).2.bufferLength ≤ max f.bufferLength size := by
  unfold setCapacity
  split_ifs <;> simp

theorem setCapacity_bufferLength {size : ℕ} (hsize : f.dataLength ≤ size) :
    (f.setCapacity fresh size).2.bufferLength = size := by
  rw [setCapacity, if_neg (Nat.not_lt.mpr hsize)]
  split
  · rfl
  · next hsame => exact (not_ne_iff.mp hsame).symm

theorem read_bufferLength (f : FifoBuffer) (bytes : ℕ) :
    (f.read bytes).2.2.bufferLength = f.bufferLength := by
  rw [read]
  split
  · exact postEvent_bufferLength ..
  · rfl

/-! ### The state of the stream -/

@[simp] theorem postEvent_state (f : FifoBuffer) (p : Prop) [Decidable p] (event : FifoEvent) :
    (f.postEvent p event).state = f.state := by
  unfold postEvent
  split <;> rfl

@[simp] theorem setCapacity_state (f : FifoBuffer) (fresh : ℕ → UInt8) (size : ℕ) :
    (f.setCapacity fresh size).2.state = f.state := by
  unfold setCapacity
  split_ifs <;> rfl

@[simp] theorem writeOffset_state (f : FifoBuffer) (data : List UInt8) (offset : ℕ) :
    (f.writeOffset data offset).2.2.state = f.state := by
  unfold writeOffset
  split_ifs <;> rfl

@[simp] theorem consumeWriteBuffer_state (f : FifoBuffer) (n : ℕ) :
    (f.consumeWriteBuffer n).state = f.state := by
  simp [consumeWriteBuffer]

@[simp] theorem read_state (f : FifoBuffer) (bytes : ℕ) : (f.read bytes).2.2.state = f.state := by
  rw [read]
  split
  · exact postEvent_state ..
  · rfl

end FifoBuffer

end Synciga
