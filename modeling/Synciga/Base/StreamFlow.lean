import Synciga.Base.FifoBuffer
import Synciga.Internal.Loops
import Synciga.Internal.Runs

/-!
# Flow from stream to stream

`Flow` (`talk/base/stream.cc`) moves what a source gives through a buffer to a sink. Both may take part of what
is offered, block or fail at any time; the call then returns with the rest packed to the front of the buffer,
and the next one goes on from there. `bytesRead` and `accepted` are what they gave and took so far.

## Main results

* `flow_run` — what the sink has taken and what is in the buffer is what the source gave
-/

namespace Synciga

open RingMemory

/-! ### Streams -/

/-- What `Read` leaves in the buffer, and what it returns. The count is set on success only. -/
structure ReadReply where
  result : StreamResult
  block : List UInt8
  count : ℕ

/-- The bytes that were read. -/
def ReadReply.bytes (reply : ReadReply) : List UInt8 := reply.block.take reply.count

/-- `StreamInterface`, by `Read`. It stays inside the buffer it is given. -/
structure Source (σ : Type) where
  read : σ → ℕ → ReadReply × σ
  block_le : ∀ s bufferLen, (read s bufferLen).1.block.length ≤ bufferLen
  count_le : ∀ s bufferLen, (read s bufferLen).1.result = .success →
    (read s bufferLen).1.count ≤ (read s bufferLen).1.block.length

/-- `StreamInterface`, by `Write`. It takes no more than it is given. -/
structure Sink (τ : Type) where
  write : τ → List UInt8 → (StreamResult × ℕ) × τ
  count_le : ∀ t data, (write t data).1.1 = .success → (write t data).1.2 ≤ data.length

/-- The source still has these bytes to give: it gives them in their order, and it is at its end
when none are left. -/
structure Source.Holds {σ : Type} (source : Source σ) (left : σ → List UInt8) : Prop where
  success : ∀ s bufferLen, (source.read s bufferLen).1.result = .success →
    left s = (source.read s bufferLen).1.bytes ++ left (source.read s bufferLen).2
  eos : ∀ s bufferLen, (source.read s bufferLen).1.result = .eos →
    left s = [] ∧ left (source.read s bufferLen).2 = []
  other : ∀ s bufferLen, (source.read s bufferLen).1.result = .block ∨
    (source.read s bufferLen).1.result = .error → left (source.read s bufferLen).2 = left s

/-- The last answer of the source was that it is at its end. -/
def Source.AtEnd {σ : Type} (source : Source σ) (s : σ) : Prop :=
  ∃ before bufferLen, (source.read before bufferLen).1.result = .eos ∧ (source.read before bufferLen).2 = s

/-! ### Flow -/

variable {σ τ : Type}

/-- What a caller of `Flow` has between two calls, with the history of the streams. -/
structure FlowData (σ τ : Type) where
  source : σ
  sink : τ
  buffer : ℕ → UInt8
  dataLen : ℕ
  bytesRead : List UInt8
  accepted : List UInt8

/-- The variables of `Flow`. -/
structure FlowState (σ τ : Type) extends FlowData σ τ where
  readPos : ℕ
  writePos : ℕ
  endOfStream : Bool

variable (source : Source σ) (sink : Sink τ) (bufferLen : ℕ)

/-- A round of the loop that reads. `Flow` may return from it. -/
def readRound (f : FlowState σ τ) :
    Except (StreamResult × FlowData σ τ) (FlowState σ τ) ⊕ FlowState σ τ :=
  if f.endOfStream = false ∧ f.readPos < bufferLen then
    let answer := source.read f.source (bufferLen - f.readPos)
    let buffer := memcpy f.buffer f.readPos answer.1.block
    match answer.1.result with
    | .eos => .inr { f with source := answer.2, buffer, endOfStream := true }
    | .success =>
      .inr { f with
        source := answer.2
        buffer
        readPos := f.readPos + answer.1.count
        bytesRead := f.bytesRead ++ answer.1.bytes }
    | result =>
      .inl (.error (result, { f.toFlowData with source := answer.2, buffer, dataLen := f.readPos }))
  else .inl (.ok f)

/-- A round of the loop that writes. -/
def writeRound (f : FlowState σ τ) :
    Except (StreamResult × FlowData σ τ) (FlowState σ τ) ⊕ FlowState σ τ :=
  if f.writePos < f.readPos then
    let data := readMem f.buffer f.writePos (f.readPos - f.writePos)
    let answer := sink.write f.sink data
    match answer.1.1 with
    | .success =>
      .inr { f with
        sink := answer.2
        writePos := f.writePos + answer.1.2
        accepted := f.accepted ++ data.take answer.1.2 }
    | result =>
      let dataLen := f.readPos - f.writePos
      let buffer :=
        if 0 < f.writePos then memcpy f.buffer 0 (readMem f.buffer f.writePos dataLen) else f.buffer
      .inl (.error (result, { f.toFlowData with sink := answer.2, dataLen, buffer }))
  else .inl (.ok f)

variable (rounds : ℕ)

/-- A round of the outer loop. -/
def flowRound (f : FlowState σ τ) : Option ((StreamResult × FlowData σ τ) ⊕ FlowState σ τ) :=
  (Loop.run (fun f => some (readRound source bufferLen f)) rounds f).bind fun
  | .error returned => some (.inl returned)
  | .ok f =>
    (Loop.run (fun f => some (writeRound sink f)) rounds { f with writePos := 0 }).bind fun
    | .error returned => some (.inl returned)
    | .ok f =>
      if f.endOfStream then some (.inl (.success, { f.toFlowData with dataLen := 0 }))
      else some (.inr { f with readPos := 0 })

/-- `Flow`, with the buffer and `data_len` of the caller. -/
def flow (t : FlowData σ τ) : Option (StreamResult × FlowData σ τ) :=
  Loop.run (flowRound source sink bufferLen rounds) rounds
    { t with readPos := t.dataLen, writePos := 0, endOfStream := false }

/-! ### The balance -/

/-- What was accepted and what is pending is what was read, and the rest is still in the source. -/
structure FlowData.Balanced (start : σ) (t : FlowData σ τ) (pending : List UInt8) : Prop where
  accounted : t.accepted ++ pending = t.bytesRead
  rest : ∀ left, source.Holds left → t.bytesRead ++ left t.source = left start

/-- The bytes between the positions are pending. While the buffer is filled, they are those from its
front. -/
structure FlowState.Sound (start : σ) (f : FlowState σ τ) : Prop where
  balanced : f.Balanced source start (readMem f.buffer f.writePos (f.readPos - f.writePos))
  writePos_le : f.writePos ≤ f.readPos
  readPos_le : f.readPos ≤ bufferLen
  atEnd : f.endOfStream = true → source.AtEnd f.source

/-- What `Flow` leaves to its caller. -/
structure FlowData.Returned (start : σ) (result : StreamResult) (t : FlowData σ τ) : Prop where
  balanced : t.Balanced source start (readMem t.buffer 0 t.dataLen)
  dataLen_le : t.dataLen ≤ bufferLen
  success : result = .success → t.dataLen = 0 ∧ source.AtEnd t.source

/-- Where a loop is left, `Flow` returns with `Q`, or it goes on with `P`. -/
def LoopEnds (Q : StreamResult × FlowData σ τ → Prop) (P : FlowState σ τ → Prop) :
    Except (StreamResult × FlowData σ τ) (FlowState σ τ) → Prop
  | .error returned => Q returned
  | .ok f => P f

variable {source sink bufferLen rounds} {f f' : FlowState σ τ} {t t' : FlowData σ τ} {start : σ}

theorem readMem_memcpy_bytes (mem : ℕ → UInt8) (pos : ℕ) {reply : ReadReply}
    (hcount : reply.count ≤ reply.block.length) :
    readMem (memcpy mem pos reply.block) 0 (pos + reply.count) = readMem mem 0 pos ++ reply.bytes := by
  have hfront : readMem (memcpy mem pos reply.block) 0 pos = readMem mem 0 pos :=
    readMem_memcpy_of_le mem reply.block (Nat.zero_add pos).le
  have hread : readMem (memcpy mem pos reply.block) (0 + pos) reply.count = reply.bytes := by
    rw [Nat.zero_add, ← take_readMem _ _ hcount, readMem_memcpy, ReadReply.bytes]
  rw [readMem_add, hfront, hread]

theorem FlowData.Balanced.unread {n : ℕ} (h : t.Balanced source start (readMem t.buffer 0 n))
    (block : List UInt8) {s : σ} (hrest : ∀ left, source.Holds left → left s = left t.source)
    {dataLen : ℕ} : { t with source := s, buffer := memcpy t.buffer n block, dataLen }.Balanced source start
      (readMem (memcpy t.buffer n block) 0 n) := by
  rw [readMem_memcpy_of_le t.buffer block (Nat.zero_add n).le]
  exact ⟨h.accounted, fun left hleft => by rw [hrest left hleft]; exact h.rest left hleft⟩

theorem readMem_packed (mem : ℕ → UInt8) (pos n : ℕ) :
    readMem (if 0 < pos then memcpy mem 0 (readMem mem pos n) else mem) 0 n = readMem mem pos n := by
  split
  · have hread := readMem_memcpy mem 0 (readMem mem pos n)
    rwa [length_readMem] at hread
  next hzero => rw [Nat.eq_zero_of_not_pos hzero]

theorem FlowData.Balanced.packed {pos n : ℕ} (h : t.Balanced source start (readMem t.buffer pos n))
    {sink : τ} {dataLen : ℕ} :
    { t with
      sink, dataLen
      buffer := if 0 < pos then memcpy t.buffer 0 (readMem t.buffer pos n)
        else t.buffer }.Balanced source start
      (readMem (if 0 < pos then memcpy t.buffer 0 (readMem t.buffer pos n) else t.buffer) 0 n) := by
  rw [readMem_packed]
  exact ⟨h.accounted, h.rest⟩

namespace FlowState.Sound

theorem readRound_keeps (h : { f with writePos := 0 }.Sound source bufferLen start)
    (hround : readRound source bufferLen f = .inr f') :
    { f' with writePos := 0 }.Sound source bufferLen start := by
  by_cases hmore : f.endOfStream = false ∧ f.readPos < bufferLen
  · rw [readRound, if_pos hmore] at hround
    dsimp only at hround
    have hblock := source.block_le f.source (bufferLen - f.readPos)
    cases hresult : (source.read f.source (bufferLen - f.readPos)).1.result with
    | eos =>
      rw [hresult] at hround
      obtain rfl := Sum.inr.inj hround
      refine ⟨h.balanced.unread _ fun left hleft => ?_, h.writePos_le, h.readPos_le,
        fun _ => ⟨_, _, hresult, rfl⟩⟩
      obtain ⟨hbefore, hafter⟩ := hleft.eos _ _ hresult
      rw [hbefore, hafter]
    | success =>
      rw [hresult] at hround
      obtain rfl := Sum.inr.inj hround
      have hcount := source.count_le f.source (bufferLen - f.readPos) hresult
      refine ⟨⟨?_, fun left hleft => ?_⟩, Nat.zero_le _, ?_, fun hend => ?_⟩
      · have haccounted : f.accepted ++ readMem f.buffer 0 f.readPos = f.bytesRead := h.balanced.accounted
        dsimp only
        rw [Nat.sub_zero, readMem_memcpy_bytes _ _ hcount, ← List.append_assoc, haccounted]
      · rw [List.append_assoc, ← hleft.success _ _ hresult]
        exact h.balanced.rest left hleft
      · have hle := h.readPos_le
        dsimp only at hle ⊢
        omega
      · cases hmore.1.symm.trans hend
    | block =>
      rw [hresult] at hround
      cases hround
    | error =>
      rw [hresult] at hround
      cases hround
  · rw [readRound, if_neg hmore] at hround
    cases hround

theorem readRound_leaves (h : { f with writePos := 0 }.Sound source bufferLen start)
    {exit : Except (StreamResult × FlowData σ τ) (FlowState σ τ)}
    (hround : readRound source bufferLen f = .inl exit) :
    LoopEnds (fun returned => returned.2.Returned source bufferLen start returned.1)
      (fun f => { f with writePos := 0 }.Sound source bufferLen start) exit := by
  by_cases hmore : f.endOfStream = false ∧ f.readPos < bufferLen
  · rw [readRound, if_pos hmore] at hround
    dsimp only at hround
    cases hresult : (source.read f.source (bufferLen - f.readPos)).1.result with
    | eos =>
      rw [hresult] at hround
      cases hround
    | success =>
      rw [hresult] at hround
      cases hround
    | block =>
      rw [hresult] at hround
      obtain rfl := Sum.inl.inj hround
      have hsame : ∀ left, source.Holds left →
          left (source.read f.source (bufferLen - f.readPos)).2 = left f.source :=
        fun left hleft => hleft.other _ _ (.inl hresult)
      exact ⟨h.balanced.unread _ hsame, h.readPos_le, fun hsuccess => by cases hsuccess⟩
    | error =>
      rw [hresult] at hround
      obtain rfl := Sum.inl.inj hround
      have hsame : ∀ left, source.Holds left →
          left (source.read f.source (bufferLen - f.readPos)).2 = left f.source :=
        fun left hleft => hleft.other _ _ (.inr hresult)
      exact ⟨h.balanced.unread _ hsame, h.readPos_le, fun hsuccess => by cases hsuccess⟩
  · rw [readRound, if_neg hmore] at hround
    obtain rfl := Sum.inl.inj hround
    exact h

theorem writeRound_keeps (h : f.Sound source bufferLen start) (hround : writeRound sink f = .inr f') :
    f'.Sound source bufferLen start := by
  by_cases hmore : f.writePos < f.readPos
  · rw [writeRound, if_pos hmore] at hround
    dsimp only at hround
    cases hresult : (sink.write f.sink (readMem f.buffer f.writePos (f.readPos - f.writePos))).1.1 with
    | success =>
      rw [hresult] at hround
      obtain rfl := Sum.inr.inj hround
      have hcount := sink.count_le f.sink _ hresult
      rw [length_readMem] at hcount
      refine ⟨⟨?_, h.balanced.rest⟩, by dsimp only; omega, h.readPos_le, h.atEnd⟩
      rw [Nat.sub_add_eq, ← drop_readMem _ _ hcount, List.append_assoc, List.take_append_drop]
      exact h.balanced.accounted
    | eos | block | error =>
      rw [hresult] at hround
      cases hround
  · rw [writeRound, if_neg hmore] at hround
    cases hround

theorem writeRound_leaves (h : f.Sound source bufferLen start)
    {exit : Except (StreamResult × FlowData σ τ) (FlowState σ τ)} (hround : writeRound sink f = .inl exit) :
    LoopEnds (fun returned => returned.2.Returned source bufferLen start returned.1)
      (fun f => f.Sound source bufferLen start ∧ f.readPos ≤ f.writePos) exit := by
  by_cases hmore : f.writePos < f.readPos
  · have hle : f.readPos - f.writePos ≤ bufferLen := (Nat.sub_le _ _).trans h.readPos_le
    rw [writeRound, if_pos hmore] at hround
    dsimp only at hround
    cases hresult : (sink.write f.sink (readMem f.buffer f.writePos (f.readPos - f.writePos))).1.1 with
    | success =>
      rw [hresult] at hround
      cases hround
    | eos | block | error =>
      rw [hresult] at hround
      obtain rfl := Sum.inl.inj hround
      exact ⟨h.balanced.packed, hle, fun hsuccess => by cases hsuccess⟩
  · rw [writeRound, if_neg hmore] at hround
    obtain rfl := Sum.inl.inj hround
    exact ⟨h, Nat.not_lt.mp hmore⟩

theorem flowRound (h : { f with writePos := 0 }.Sound source bufferLen start)
    {next : (StreamResult × FlowData σ τ) ⊕ FlowState σ τ}
    (hround : flowRound source sink bufferLen rounds f = some next) :
    next.elim (fun returned => returned.2.Returned source bufferLen start returned.1)
      fun f => { f with writePos := 0 }.Sound source bufferLen start := by
  obtain ⟨filled, hfill, hround⟩ := Option.bind_eq_some_iff.mp hround
  have hfilled := Loop.run_spec (fun f => { f with writePos := 0 }.Sound source bufferLen start) _
    (fun _ _ h hround => readRound_keeps h (Option.some.inj hround))
    (fun _ _ h hround => readRound_leaves h (Option.some.inj hround)) h hfill
  cases filled with
  | error returned =>
    obtain rfl := Option.some.inj hround
    exact hfilled
  | ok f =>
    obtain ⟨drained, hdrain, hround⟩ := Option.bind_eq_some_iff.mp hround
    have hdrained := Loop.run_spec (fun f => f.Sound source bufferLen start) _
      (fun _ _ h hround => writeRound_keeps h (Option.some.inj hround))
      (fun _ _ h hround => writeRound_leaves h (Option.some.inj hround)) hfilled hdrain
    cases drained with
    | error returned =>
      obtain rfl := Option.some.inj hround
      exact hdrained
    | ok f =>
      obtain ⟨hsound, hempty⟩ := hdrained
      have hbalanced := hsound.balanced
      rw [Nat.sub_eq_zero_of_le hempty] at hbalanced
      dsimp only at hround
      split at hround
      next hend =>
        obtain rfl := Option.some.inj hround
        exact ⟨⟨hbalanced.accounted, hbalanced.rest⟩, Nat.zero_le _, fun _ => ⟨rfl, hsound.atEnd hend⟩⟩
      next =>
        obtain rfl := Option.some.inj hround
        exact ⟨⟨hbalanced.accounted, hbalanced.rest⟩, le_rfl, Nat.zero_le _, hsound.atEnd⟩

end FlowState.Sound

theorem FlowData.Returned.flow {result result' : StreamResult}
    (h : t.Returned source bufferLen start result)
    (hflow : flow source sink bufferLen rounds t = some (result', t')) :
    t'.Returned source bufferLen start result' := by
  refine Loop.run_spec (fun f => { f with writePos := 0 }.Sound source bufferLen start)
    (fun returned => returned.2.Returned source bufferLen start returned.1)
    (fun _ _ h hround => h.flowRound hround) (fun _ _ h hround => h.flowRound hround) ?_ hflow
  exact ⟨⟨h.balanced.accounted, h.balanced.rest⟩, Nat.zero_le _, h.dataLen_le, fun hend => by cases hend⟩

/-! ### Calls -/

/-- Before the first call nothing was read, and the buffer is empty. -/
def FlowData.initial (source : σ) (sink : τ) (buffer : ℕ → UInt8) : FlowData σ τ :=
  ⟨source, sink, buffer, 0, [], []⟩

/-- A call with the buffer and the `data_len` of the call before it. -/
def FlowData.call (source : Source σ) (sink : Sink τ) (bufferLen : ℕ) (t : FlowData σ τ) (rounds : ℕ) :
    Option (FlowData σ τ) :=
  (flow source sink bufferLen rounds t).map Prod.snd

theorem FlowData.returned_initial (s₀ : σ) (t₀ : τ) (buffer : ℕ → UInt8) :
    (FlowData.initial s₀ t₀ buffer).Returned source bufferLen s₀ .block :=
  ⟨⟨rfl, fun _ _ => rfl⟩, Nat.zero_le _, fun hsuccess => by cases hsuccess⟩

/-- **Flow resumes exactly.** What was accepted and what is in the buffer is what was read. A call that succeeds
leaves the buffer empty and the source at its end. -/
theorem flow_run {s₀ : σ} {t₀ : τ} {buffer : ℕ → UInt8} {calls : List ℕ}
    (hrun : Runs.run (FlowData.call source sink bufferLen) (.initial s₀ t₀ buffer) calls = some t) :
    t.accepted ++ readMem t.buffer 0 t.dataLen = t.bytesRead ∧ t.dataLen ≤ bufferLen ∧
      ∀ rounds t', flow source sink bufferLen rounds t = some (.success, t') →
        t'.dataLen = 0 ∧ t'.accepted = t'.bytesRead ∧ source.AtEnd t'.source ∧
          ∀ left, source.Holds left → t'.accepted = left s₀ := by
  have hcalls : ∃ result, t.Returned source bufferLen s₀ result := by
    refine Runs.invariant_of_step (P := fun t => ∃ result, t.Returned source bufferLen s₀ result)
      (fun t rounds t' h hcall => ?_) ⟨_, FlowData.returned_initial s₀ t₀ buffer⟩ hrun
    obtain ⟨result, h⟩ := h
    obtain ⟨⟨result', _⟩, hflow, rfl⟩ := Option.map_eq_some_iff.mp hcall
    exact ⟨result', h.flow hflow⟩
  obtain ⟨result, h⟩ := hcalls
  refine ⟨h.balanced.accounted, h.dataLen_le, fun rounds t' hflow => ?_⟩
  have h' := h.flow hflow
  obtain ⟨hempty, hend⟩ := h'.success rfl
  have haccounted := h'.balanced.accounted
  rw [hempty] at haccounted
  have haccepted : t'.accepted = t'.bytesRead := by rw [← haccounted]; exact (List.append_nil _).symm
  refine ⟨hempty, haccepted, hend, fun left hleft => ?_⟩
  obtain ⟨before, n, hresult, hlast⟩ := hend
  rw [haccepted, ← h'.balanced.rest left hleft, ← hlast, (hleft.eos before n hresult).2, List.append_nil]

/-- A source that gives the bytes of a list. -/
def Source.ofList : Source (List UInt8) where
  read bytes bufferLen :=
    (⟨if bytes = [] then .eos else .success, bytes.take bufferLen, min bufferLen bytes.length⟩,
      bytes.drop bufferLen)
  block_le bytes bufferLen := List.length_take_le bufferLen bytes
  count_le _ _ _ := List.length_take.ge

theorem Source.holds_ofList : Source.ofList.Holds id := by
  refine ⟨fun bytes n _ => ?_, fun bytes n hend => ?_, fun bytes n hother => ?_⟩
  · have hbytes : (bytes.take n).take (min n bytes.length) = bytes.take n :=
      List.take_of_length_le List.length_take.le
    rw [ReadReply.bytes, ofList]
    dsimp only [id]
    rw [hbytes, List.take_append_drop]
  · rw [ofList] at hend ⊢
    dsimp only [id] at hend ⊢
    split at hend
    next hempty =>
      rw [hempty]
      exact ⟨rfl, List.drop_nil⟩
    next => cases hend
  · rw [ofList] at hother
    dsimp only at hother
    split at hother
    next => rcases hother with h | h <;> cases h
    next => rcases hother with h | h <;> cases h

/-- A sink that takes two bytes in a call, and blocks in every other call. -/
def Sink.halting : Sink ℕ where
  write calls data := (if calls % 2 = 0 then (.success, min 2 data.length) else (.block, 0), calls + 1)
  count_le calls data hresult := by
    dsimp only
    split
    next => exact Nat.min_le_right 2 _
    next => exact Nat.zero_le _

/-- The second call delivers the byte that the first one had to leave. -/
theorem flow_run_halting : ∃ t t',
    Runs.run (FlowData.call .ofList .halting 2) (.initial [1, 2, 3] 0 fun _ => 0) [5] = some t ∧
      t.dataLen = 1 ∧ flow .ofList .halting 2 5 t = some (.success, t') ∧ t'.accepted = [1, 2, 3] := by
  have hrun : Runs.run (FlowData.call .ofList .halting 2) (.initial [1, 2, 3] 0 fun _ => 0) [5] =
      some _ := rfl
  refine ⟨_, _, hrun, rfl, rfl, ?_⟩
  exact ((flow_run hrun).2.2 5 _ rfl).2.2.2 id Source.holds_ofList

end Synciga
