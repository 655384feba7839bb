import Synciga.Base.FifoBuffer
import Synciga.Internal.Overlay
import Synciga.Internal.Runs

/-!
# Out-of-order assembly in the FIFO buffer

Data that arrives too early is put into the free part of the ring with `WriteOffset`, and committed with
`ConsumeWriteBuffer` once all is there. The offset counts from the first free byte, which reads leave where it
is, so that the bytes committed in the end are an overlay of the writes. A write that copies only a part of its
data counts as that part.

## Main results

* `staged_of_run` — what is committed is the overlay
* `not_staged_of_handed` — a write that copied only a part counts as that part
-/

namespace Synciga

open Overlay RingMemory

namespace FifoBuffer

variable {f f' : FifoBuffer}

/-! ### The ring and the arithmetic of `size_t` -/

/-- The ring, whether the buffer has been closed or not. -/
structure Ring (f : FifoBuffer) : Prop where
  /-- The committed bytes fit. -/
  data_le : f.dataLength ≤ f.bufferLength
  /-- The read position is an index of the block. -/
  pos_lt : 0 < f.bufferLength → f.readPosition < f.bufferLength
  /-- No block is larger than half of the address space. -/
  size_le : f.bufferLength ≤ 2 ^ 63
  /-- The constructor opens the buffer, and `Close` closes it. -/
  state : f.state = .opened ∨ f.state = .closed

theorem Ring.wellFormed (h : f.Ring) (hopen : f.state ≠ .closed) : f.WellFormed :=
  ⟨h.data_le, h.pos_lt, h.state.resolve_right hopen⟩

/-- `WriteOffsetLocked`, with sums and differences of `size_t`. -/
def writeOffsetSize (f : FifoBuffer) (data : List UInt8) (offset : ℕ) :
    StreamResult × ℕ × FifoBuffer :=
  if f.state = .closed then (.eos, 0, f)
  else if f.bufferLength ≤ (f.dataLength + offset) % 2 ^ 64 then (.block, 0, f)
  else
    let available := (f.bufferLength + (2 ^ 64 - (f.dataLength + offset) % 2 ^ 64)) % 2 ^ 64
    let writePosition := (f.readPosition + f.dataLength + offset) % 2 ^ 64 % f.bufferLength
    let copy := min data.length available
    let tailCopy := min copy (f.bufferLength - writePosition)
    let buffer := memcpy f.buffer writePosition ((data.take copy).take tailCopy)
    let buffer := memcpy buffer 0 ((data.take copy).drop tailCopy)
    (.success, copy, { f with buffer := buffer })

theorem writeOffsetSize_eq (h : f.Ring) (data : List UInt8) {offset : ℕ}
    (hsum : f.dataLength + offset < 2 ^ 64) :
    f.writeOffsetSize data offset = f.writeOffset data offset := by
  rw [writeOffsetSize, writeOffset, Nat.mod_eq_of_lt hsum]
  split
  · rfl
  split
  · rfl
  next hfree =>
  have hsize := h.size_le
  have hpos := h.pos_lt (by omega)
  have havailable : (f.bufferLength + (2 ^ 64 - (f.dataLength + offset))) % 2 ^ 64 =
      f.bufferLength - f.dataLength - offset := by
    omega
  have hposition : (f.readPosition + f.dataLength + offset) % 2 ^ 64 =
      f.readPosition + f.dataLength + offset := Nat.mod_eq_of_lt (by omega)
  rw [havailable, hposition]

/-! ### Placing a piece -/

theorem writeOffset_fits (f : FifoBuffer) (data : List UInt8) (offset : ℕ) :
    (f.writeOffset data offset).2 = (0, f) ∨
      f.state ≠ .closed ∧ (f.writeOffset data offset).2.1 ≤ data.length ∧
        f.dataLength + offset + (f.writeOffset data offset).2.1 ≤ f.bufferLength := by
  simp only [writeOffset]
  split
  · exact .inl rfl
  next hopen =>
  split
  · exact .inl rfl
  · refine .inr ⟨hopen, Nat.min_le_left _ _, ?_⟩
    change f.dataLength + offset + min data.length (f.bufferLength - f.dataLength - offset) ≤ _
    omega

theorem writeOffset_take (f : FifoBuffer) (data : List UInt8) (offset : ℕ) :
    (f.writeOffset (data.take (f.writeOffset data offset).2.1) offset).2.2 =
      (f.writeOffset data offset).2.2 := by
  simp only [writeOffset]
  split
  · rfl
  split
  · rfl
  have hcopy : min (data.take (min data.length (f.bufferLength - f.dataLength - offset))).length
      (f.bufferLength - f.dataLength - offset) =
        min data.length (f.bufferLength - f.dataLength - offset) := by
    rw [List.length_take]
    omega
  simp only [hcopy, List.take_take, Nat.min_self]

theorem ring_writeOffset (h : f.Ring) (data : List UInt8) (offset : ℕ) :
    (f.writeOffset data offset).2.2.Ring := by
  simp only [writeOffset]
  split
  · exact h
  split
  · exact h
  · exact ⟨h.data_le, h.pos_lt, h.size_le, h.state⟩

theorem cell_writeOffset_piece (h : f.Ring) (data : List UInt8) (offset : ℕ) {i : ℕ}
    (hi : f.dataLength + i < f.bufferLength) :
    (f.writeOffset data offset).2.2.cell (f.dataLength + i) =
      (if offset ≤ i then (data.take (f.writeOffset data offset).2.1)[i - offset]?
        else none).getD (f.cell (f.dataLength + i)) := by
  obtain hnone | ⟨hopen, hlen, hfit⟩ := writeOffset_fits f data offset
  · rw [hnone]
    simp
  rw [← writeOffset_take, cell_writeOffset (h.wellFormed hopen) _ (by
    rw [List.length_take]
    omega) hi, Nat.add_sub_add_left]
  by_cases hle : offset ≤ i
  · rw [if_pos (by omega), if_pos hle]
  · rw [if_neg (by omega), if_neg hle]
    rfl

theorem contents_writeOffset_piece (h : f.Ring) (data : List UInt8) (offset : ℕ) :
    (f.writeOffset data offset).2.2.contents = f.contents := by
  obtain hnone | ⟨hopen, hlen, hfit⟩ := writeOffset_fits f data offset
  · rw [hnone]
  · rw [← writeOffset_take]
    refine contents_writeOffset (h.wellFormed hopen) _ ?_
    rw [List.length_take]
    omega

theorem writeOffset_past (h : f.bufferLength ≤ f.dataLength + offset) (data : List UInt8) :
    f.writeOffset data offset = (if f.state = .closed then .eos else .block, 0, f) := by
  simp only [writeOffset, if_pos h]
  split <;> rfl

/-! ### Reading -/

theorem read_cases (f : FifoBuffer) (bytes : ℕ) : f.dataLength = 0 ∧ (f.read bytes).2.2 = f ∨
      0 < f.dataLength ∧ (f.read bytes).2.2 = f.consumeReadData (min bytes f.dataLength) := by
  rcases Nat.eq_zero_or_pos f.dataLength with hempty | hpos
  · refine .inl ⟨hempty, ?_⟩
    simp only [read, readOffset, if_pos (Nat.le_zero.mpr hempty)]
    split
    · next heq =>
      split at heq <;> cases heq
    · rfl
  refine .inr ⟨hpos, ?_⟩
  have hlen (a b : ℕ) : (readMem f.buffer a (min (min bytes f.dataLength) b) ++
      readMem f.buffer 0 (min bytes f.dataLength - min (min bytes f.dataLength) b)).length =
        min bytes f.dataLength := by
    rw [List.length_append, length_readMem, length_readMem]
    omega
  simp only [read, readOffset, if_neg (Nat.not_le.mpr hpos), Nat.sub_zero, hlen]
  rfl

theorem ring_consumeReadData (h : f.Ring) (n : ℕ) : (f.consumeReadData n).Ring := by
  have hring : { f with
      readPosition := (f.readPosition + n) % f.bufferLength
      dataLength := f.dataLength - n }.Ring :=
    ⟨(Nat.sub_le _ _).trans h.data_le, Nat.mod_lt _, h.size_le, h.state⟩
  simp only [consumeReadData, postEvent]
  split
  · exact ⟨hring.data_le, hring.pos_lt, hring.size_le, hring.state⟩
  · exact hring

theorem read_free (h : f.Ring) (bytes : ℕ) :
    (f.read bytes).2.2.Ring ∧ (f.read bytes).2.2.dataLength ≤ f.dataLength ∧
      ∀ i, (f.read bytes).2.2.cell ((f.read bytes).2.2.dataLength + i) = f.cell (f.dataLength + i) := by
  obtain ⟨-, hread⟩ | ⟨-, hread⟩ := read_cases f bytes
  · rw [hread]
    exact ⟨h, le_rfl, fun _ => rfl⟩
  rw [hread]
  refine ⟨ring_consumeReadData h _, ?_, fun i => ?_⟩
  · rw [consumeReadData_dataLength]
    exact Nat.sub_le _ _
  · rw [consumeReadData_dataLength, cell_consumeReadData]
    congr 1
    omega

/-! ### Runs -/

/-- A call between two commits. -/
inductive StagingCall
  | writeOffset (data : List UInt8) (offset : ℕ)
  | read (bytes : ℕ)

/-- The buffer after a call. -/
def call (f : FifoBuffer) : StagingCall → Option FifoBuffer
  | .writeOffset data offset => some (f.writeOffsetSize data offset).2.2
  | .read bytes => some (f.read bytes).2.2

/-- The offset is a number of bytes behind the committed ones that does not overflow. -/
def NoOverflow (f : FifoBuffer) : StagingCall → Prop
  | .writeOffset _ offset => f.dataLength + offset < 2 ^ 64
  | .read _ => True

/-- The pieces that the calls place: of each write what it reports to have copied, at its offset. -/
def writes : FifoBuffer → List StagingCall → List (ℕ × List UInt8)
  | _, [] => []
  | f, .writeOffset data offset :: calls =>
    (offset, data.take (f.writeOffsetSize data offset).2.1) ::
      writes (f.writeOffsetSize data offset).2.2 calls
  | f, .read bytes :: calls => writes (f.read bytes).2.2 calls

theorem ring_run {calls : List StagingCall} (h : f.Ring)
    (hok : Runs.Admissible call NoOverflow f calls) (hrun : Runs.run call f calls = some f') :
    f'.Ring ∧ f'.contents <:+ f.contents := by
  refine Runs.invariant (P := fun g => g.Ring ∧ g.contents <:+ f.contents) ?_
    ⟨h, List.suffix_rfl⟩ hok hrun
  rintro g c g' ⟨hring, hsuffix⟩ hc hcall
  cases c with
  | writeOffset data offset =>
    cases hcall
    rw [writeOffsetSize_eq hring data hc, contents_writeOffset_piece hring]
    exact ⟨ring_writeOffset hring data offset, hsuffix⟩
  | read bytes =>
    cases hcall
    refine ⟨(read_free hring bytes).1, List.IsSuffix.trans ?_ hsuffix⟩
    obtain ⟨-, hread⟩ | ⟨-, hread⟩ := read_cases g bytes
    · exact hread.symm ▸ List.suffix_rfl
    · rw [hread, contents_consumeReadData]
      exact List.drop_suffix _ _

/-- Behind the committed bytes, a run leaves what its pieces leave there, and elsewhere what was there before.
-/
theorem cell_run {calls : List StagingCall} (h : f.Ring)
    (hok : Runs.Admissible call NoOverflow f calls) (hrun : Runs.run call f calls = some f')
    {i : ℕ} (hi : f.dataLength + i < f.bufferLength ∨ (latest (f.writes calls) i).isSome = true) :
    f'.dataLength + i < f'.bufferLength ∧ f'.cell (f'.dataLength + i) =
        (latest (f.writes calls) i).getD (f.cell (f.dataLength + i)) := by
  induction calls generalizing f with
  | nil =>
    cases hrun
    exact ⟨hi.resolve_right nofun, rfl⟩
  | cons c calls ih =>
    obtain ⟨g, hg, hrest⟩ := Runs.run_cons hrun
    have hok' := hok.2 g hg
    cases c with
    | writeOffset data offset =>
      cases hg
      have hsize := writeOffsetSize_eq h data hok.1
      rw [writes] at hi ⊢
      rw [hsize] at hi hrest hok' ⊢
      have hcell := fun hfree => cell_writeOffset_piece h data offset (i := i) hfree
      have hring := ring_writeOffset h data offset
      have hlen := writeOffset_dataLength f data offset
      have hbuf := writeOffset_bufferLength f data offset
      have hfits := writeOffset_fits f data offset
      generalize f.writeOffset data offset = r at *
      rw [latest] at hi ⊢
      have hpiece : (if offset ≤ i then (data.take r.2.1)[i - offset]? else none).isSome = true →
          f.dataLength + i < f.bufferLength := by
        intro hsome
        obtain ⟨hle, hlt⟩ := (piece_isSome_iff (offset, data.take r.2.1) i).mp hsome
        rw [List.length_take] at hlt
        obtain hnone | ⟨-, -, hfit⟩ := hfits
        · rw [hnone] at hlt
          omega
        · simp only at hlt
          omega
      by_cases hfree : f.dataLength + i < f.bufferLength
      · obtain ⟨hend, hleft⟩ := ih hring hok' hrest (.inl (by rw [hlen, hbuf]; exact hfree))
        refine ⟨hend, ?_⟩
        rw [hleft, hlen, hcell hfree]
        cases latest (r.2.2.writes calls) i <;> rfl
      have hlater : (latest (r.2.2.writes calls) i).isSome = true := by
        have hsome := hi.resolve_left hfree
        rw [Option.isSome_or, Bool.or_eq_true] at hsome
        exact hsome.resolve_right fun hsome => hfree (hpiece hsome)
      obtain ⟨hend, hleft⟩ := ih hring hok' hrest (.inr hlater)
      refine ⟨hend, ?_⟩
      rw [hleft]
      obtain ⟨b, hb⟩ := Option.isSome_iff_exists.mp hlater
      rw [hb]
      rfl
    | read bytes =>
      cases hg
      obtain ⟨hring, hlen, hcell⟩ := read_free h bytes
      rw [← hcell i]
      refine ih hring hok' hrest (hi.imp_left fun hfree => ?_)
      rw [read_bufferLength]
      omega

/-- **Out-of-order assembly.** No write alters a committed byte, and one that starts behind the free space does
nothing. What a run has covered can be committed, and is then the overlay of the pieces. -/
theorem staged_of_run (h : f.Ring) {calls : List StagingCall}
    (hok : Runs.Admissible call NoOverflow f calls) (hrun : Runs.run call f calls = some f')
    {len : ℕ} (hcover : ∀ i < len, ∃ w ∈ f.writes calls, Covers w i) :
    (∀ data offset, f'.dataLength + offset < 2 ^ 64 →
      (f'.writeOffsetSize data offset).2.2.contents = f'.contents ∧
        (f'.bufferLength ≤ f'.dataLength + offset → f'.writeOffsetSize data offset =
          (if f'.state = .closed then .eos else .block, 0, f'))) ∧
      f'.contents <:+ f.contents ∧ len ≤ f'.getWriteRemaining ∧
      ∃ data : List UInt8, data.length = len ∧ Assembles (f.writes calls) data ∧
        (f'.consumeWriteBuffer len).contents = f'.contents ++ data := by
  obtain ⟨hring, hsuffix⟩ := ring_run h hok hrun
  refine ⟨fun data offset hsum => ?_, hsuffix, ?_, ?_⟩
  · rw [writeOffsetSize_eq hring data hsum]
    exact ⟨contents_writeOffset_piece hring data offset, fun hpast => writeOffset_past hpast data⟩
  · rcases Nat.eq_zero_or_pos len with rfl | hpos
    · exact Nat.zero_le _
    · have hlast := (latest_isSome_iff _ _).mpr (hcover (len - 1) (by omega))
      obtain ⟨hlt, -⟩ := cell_run h hok hrun (.inr hlast)
      rw [getWriteRemaining]
      omega
  obtain ⟨data, rfl, hdata⟩ := assembles_of_covers hcover
  refine ⟨data, rfl, hdata, ?_⟩
  rw [contents_consumeWriteBuffer]
  congr 1
  refine List.ext_getElem? fun i => ?_
  rcases Nat.lt_or_ge i data.length with hi | hi
  · have hvalue := hdata i hi
    have hsome := (latest_isSome_iff _ _).mpr (hcover i hi)
    obtain ⟨-, hcell⟩ := cell_run h hok hrun (.inr hsome)
    rw [List.getElem?_map, List.getElem?_range hi, Option.map_some, hcell, hvalue,
      List.getElem?_eq_getElem hi, Option.getD_some]
  · rw [List.getElem?_eq_none hi, List.getElem?_eq_none (by simpa using hi)]

/-- A ring of eight bytes with two committed ones. -/
def smallRing : FifoBuffer := ((new (fun _ => 0) 8).write [1, 2]).2.2

theorem ring_smallRing : smallRing.Ring := ⟨by decide, by decide, by decide, .inl rfl⟩

/-- The end comes first, a byte is read, and the beginning overlaps the end. -/
def earlyEnd : List StagingCall :=
  [.writeOffset [5, 6] 2, .read 1, .writeOffset [3, 4, 9] 0]

theorem staged_of_earlyEnd :
    ∃ f, Runs.run call smallRing earlyEnd = some f ∧ f.contents = [2] ∧
      (f.consumeWriteBuffer 4).contents = [2, 3, 4, 9, 6] ∧ 4 ≤ f.getWriteRemaining ∧
      ∃ data : List UInt8, data.length = 4 ∧ Assembles (smallRing.writes earlyEnd) data ∧
        (f.consumeWriteBuffer 4).contents = f.contents ++ data := by
  have hok : Runs.Admissible call NoOverflow smallRing earlyEnd := by
    have hfirst : smallRing.dataLength + 2 < 2 ^ 64 := by decide
    refine ⟨hfirst, fun _ h₁ => ?_⟩
    cases h₁
    refine ⟨trivial, fun _ h₂ => ?_⟩
    cases h₂
    have hsecond : ((smallRing.writeOffsetSize [5, 6] 2).2.2.read 1).2.2.dataLength + 0 < 2 ^ 64 := by
      decide
    exact ⟨hsecond, fun _ _ => trivial⟩
  have hcover : ∀ i < 4, ∃ w ∈ smallRing.writes earlyEnd, Covers w i := by
    intro i hi
    rcases Nat.lt_or_ge i 3 with hlt | hge
    · exact ⟨(0, [3, 4, 9]), by decide, Nat.zero_le _, hlt⟩
    · exact ⟨(2, [5, 6]), by decide, by omega, hi⟩
  obtain ⟨-, -, hfree, hdata⟩ := staged_of_run ring_smallRing hok rfl hcover
  exact ⟨_, rfl, by decide, by decide, hfree, hdata⟩

/-- The call is a read, or a successful write that does not overflow. -/
def Succeeds (f : FifoBuffer) : StagingCall → Prop
  | .writeOffset data offset =>
    f.dataLength + offset < 2 ^ 64 ∧ (f.writeOffsetSize data offset).1 = .success
  | .read _ => True

/-- The ranges that the writes are handed, copied or not. -/
def handed : List StagingCall → List (ℕ × List UInt8)
  | [] => []
  | .writeOffset data offset :: calls => (offset, data) :: handed calls
  | .read _ :: calls => handed calls

/-- A ring of four bytes with two committed ones is handed four more and takes two. When the committed ones are
read there is room for all four. -/
theorem not_staged_of_handed : ¬ ∀ (f f' : FifoBuffer) (calls : List StagingCall) (len : ℕ), f.Ring →
      Runs.Admissible call Succeeds f calls → Runs.run call f calls = some f' →
        (∀ i < len, ∃ w ∈ handed calls, Covers w i) → len ≤ f'.getWriteRemaining →
          ∃ data : List UInt8, data.length = len ∧ Assembles (handed calls) data ∧
            (f'.consumeWriteBuffer len).contents = f'.contents ++ data := by
  intro h
  let ring := ((new (fun _ => 0) 4).write [1, 2]).2.2
  let calls : List StagingCall := [.writeOffset [5, 6, 7, 8] 0, .read 2]
  have hring : ring.Ring := ⟨by decide, by decide, by decide, .inl rfl⟩
  have hok : Runs.Admissible call Succeeds ring calls :=
    ⟨⟨by decide, rfl⟩, fun _ _ => ⟨trivial, fun _ _ => trivial⟩⟩
  have hcover : ∀ i < 4, ∃ w ∈ handed calls, Covers w i := fun i hi =>
    ⟨(0, [5, 6, 7, 8]), List.mem_cons_self, Nat.zero_le _, hi⟩
  let ring' := ((ring.writeOffsetSize [5, 6, 7, 8] 0).2.2.read 2).2.2
  obtain ⟨data, hlen, hdata, hcontents⟩ :=
    h ring ring' calls 4 hring hok rfl hcover (by decide)
  have hthird : data[2]? = some 7 := (hdata 2 (by omega)).symm
  have hcommitted : (ring'.consumeWriteBuffer 4).contents = [5, 6, 1, 2] := by decide
  have hread : ring'.contents = [] := by decide
  rw [hcommitted, hread, List.nil_append] at hcontents
  rw [← hcontents] at hthird
  exact absurd hthird (by decide)

end FifoBuffer

end Synciga
