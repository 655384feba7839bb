import Mathlib.Data.List.Infix
import Mathlib.Algebra.Group.Int.Defs
import Mathlib.Algebra.Group.Nat.Defs

/-!
# `DebugLog`

The log of the XMPP connection (`main/logger.cc`). `Input` and `Output` append bytes to a buffer of their own
and print what is complete: a tag at every `>`, a text at every `<` that ends one. An `<auth>` tag with a
mechanism raises `censor_password_`, which is shared by the two directions, and the next text is printed as `##
TEXT REMOVED ##`.

The loop of `DebugPrint` is modelled with its indices, and moves what it did not print to the front with
`memcpy`, a parameter, since the two ranges may overlap. `printStream` does not notice how the bytes were cut
into calls, except for the indentation.

## Main definitions

* `Libc` — the C library; `Libc.Moves`, one whose `memcpy` is a `memmove`
* `DebugLog.input`, `DebugLog.output` — the calls, where the loop that makes room ends (`Reserves`)
* `printStream` — what is printed of a stream

## Main results

* `DebugLog.input_eq`, `DebugLog.output_eq` — a call prints the next bytes of a stream
* `DebugLog.settled_run` — between two calls nothing complete is in a buffer
* `reserves_iff` — room is made for at most `2 ^ 30` bytes
-/

namespace Synciga

/-! ### Characters and texts -/

/-- `<`. -/
def langle : UInt8 := 60
/-- `>`. -/
def rangle : UInt8 := 62
/-- `/`. -/
def slash : UInt8 := 47
/-- A blank. -/
def space : UInt8 := 32

/-- The bytes of an ASCII text. -/
def ascii (text : List Char) : List UInt8 := text.map fun c => UInt8.ofNat c.toNat

/-- `"## TEXT REMOVED ##"`. -/
def textRemoved : List UInt8 :=
  ascii ['#', '#', ' ', 'T', 'E', 'X', 'T', ' ', 'R', 'E', 'M', 'O', 'V', 'E', 'D', ' ', '#', '#']

/-- The first line of a call, up to the time. -/
def banner (output : Bool) : List UInt8 :=
  (if output then ascii ['S', 'E', 'N', 'D', ' '] ++ List.replicate 25 rangle
    else ascii ['R', 'E', 'C', 'V', ' '] ++ List.replicate 25 langle) ++ ascii [' ', ':', ' ']

/-- `setw(nest) << " " << text`. -/
def indented (nest : ℤ) (text : List UInt8) : List UInt8 :=
  List.replicate (max 1 nest.toNat) space ++ text

/-- `IsAuthTag`. A tag ends with `>`, so one that is shorter than six bytes fails before the sixth
is read. `char` is signed. -/
def isAuthTag (tag : List UInt8) : Bool :=
  tag.take 5 = ascii ['<', 'a', 'u', 't', 'h'] ∧ (tag.getD 5 rangle).toInt8 ≤ 32 ∧
    ascii ['m', 'e', 'c', 'h', 'a', 'n', 'i', 's', 'm'] <:+: tag

/-! ### Printing -/

/-- The variables of the loop of `DebugPrint`, and the lines printed. -/
structure PrintState where
  start : ℕ
  nest : ℤ
  censorPassword : Bool
  lines : List (List UInt8)
  deriving DecidableEq

/-- The branch of the loop for `>`. -/
def printTag (buf : List UInt8) (i : ℕ) (st : PrintState) : PrintState :=
  let (indent, nest) :=
    if 0 < i ∧ buf.getD (i - 1) 0 = slash then (false, st.nest)
    else if st.start + 1 < buf.length ∧ buf.getD (st.start + 1) 0 = slash then (false, st.nest - 2)
    else (true, st.nest)
  let tag := (buf.drop st.start).take (i + 1 - st.start)
  { start := i + 1
    nest := if indent then nest + 2 else nest
    censorPassword := st.censorPassword || isAuthTag tag
    lines := st.lines ++ [indented nest tag] }

/-- The branch of the loop for a `<` that ends a text. -/
def printText (buf : List UInt8) (i : ℕ) (st : PrintState) : PrintState :=
  let text := if st.censorPassword then textRemoved else (buf.drop st.start).take (i - st.start)
  { st with start := i, censorPassword := false, lines := st.lines ++ [indented st.nest text] }

/-- The body of the loop. -/
def printChar (buf : List UInt8) (st : PrintState) (i : ℕ) : PrintState :=
  let st := if buf.getD i 0 = rangle then printTag buf i st else st
  if buf.getD i 0 = langle ∧ st.start < i then printText buf i st else st

/-- `DebugPrint` on a nonempty buffer. -/
def debugPrint (line : List UInt8) (buf : List UInt8) (censorPassword : Bool) : PrintState :=
  (List.range buf.length).foldl (printChar buf) ⟨0, 3, censorPassword, [line]⟩

/-! ### The library -/

/-- `len` bytes of a buffer are moved, as `memmove` does it. -/
def moved (buf : List UInt8) (dst src len : ℕ) : List UInt8 :=
  buf.take dst ++ ((buf.drop src).take len ++ buf.drop (dst + len))

/-- The C library. What `memcpy` does to `len` bytes inside a buffer is known only of ranges that do not
overlap, and of one that is copied to where it is. -/
structure Libc where
  asctime : ℕ → List UInt8
  memcpy (buf : List UInt8) (dst src len : ℕ) : List UInt8
  memcpy_eq {buf : List UInt8} {dst src len : ℕ} (hdst : dst + len ≤ buf.length)
    (hsrc : src + len ≤ buf.length) (hranges : dst + len ≤ src ∨ src + len ≤ dst ∨ dst = src) :
    memcpy buf dst src len = moved buf dst src len

namespace Libc

/-- `memcpy` moves bytes also where the ranges overlap. -/
class Moves (libc : Libc) : Prop where
  memcpy_eq {buf : List UInt8} {dst src len : ℕ} (hdst : dst + len ≤ buf.length)
    (hsrc : src + len ≤ buf.length) : libc.memcpy buf dst src len = moved buf dst src len

variable (libc : Libc)

/-- The bytes from `start` on are copied to the front of the buffer, and the rest is dropped. -/
def keep (buf : List UInt8) (start : ℕ) : List UInt8 :=
  (libc.memcpy buf 0 start (buf.length - start)).take (buf.length - start)

variable {libc} {buf : List UInt8} {start : ℕ}

theorem take_moved :
    (moved buf 0 start (buf.length - start)).take (buf.length - start) = buf.drop start := by
  have hlen : (buf.drop start).length = buf.length - start := List.length_drop
  rw [moved, List.take_zero, List.nil_append, ← hlen, List.take_length, List.take_left]

theorem keep_of_length_le (h : buf.length ≤ start) : libc.keep buf start = buf.drop start := by
  rw [keep, Nat.sub_eq_zero_of_le h, List.take_zero, List.drop_eq_nil_of_le h]

theorem keep_of_fits (h : start = 0 ∨ buf.length ≤ 2 * start) : libc.keep buf start = buf.drop start := by
  rcases Nat.le_total buf.length start with hle | hle
  · exact keep_of_length_le hle
  have hranges : 0 + (buf.length - start) ≤ start ∨ start + (buf.length - start) ≤ 0 ∨ 0 = start := by
    rcases h with hzero | hhalf <;> omega
  rw [keep, libc.memcpy_eq (by omega) (by omega) hranges, take_moved]

theorem keep_of_moves [libc.Moves] : libc.keep buf start = buf.drop start := by
  rcases Nat.le_total buf.length start with hle | hle
  · exact keep_of_length_le hle
  · rw [keep, Moves.memcpy_eq (by omega) (by omega), take_moved]

/-- A library that moves bytes, and has no clock. -/
def moving : Libc := ⟨fun _ => [], moved, fun _ _ _ => rfl⟩

instance : moving.Moves := ⟨fun _ _ => rfl⟩

end Libc

/-! ### The buffers -/

/-- The loop that doubles the size of a buffer, an `int`, at most so many times. -/
def doubleAlloc (needed : ℕ) : ℕ → ℤ → Option ℤ
  | 0, _ => none
  | n + 1, alloc =>
    if alloc < needed then doubleAlloc needed n ((2 * alloc).bmod (2 ^ 32)) else some alloc

/-- The loop ends for so many bytes. -/
def Reserves (needed : ℕ) : Prop := ∃ n alloc, doubleAlloc needed n 4096 = some alloc

theorem bmod_double {k : ℕ} (hk : k < 30) :
    (2 * ((2 ^ k : ℕ) : ℤ)).bmod (2 ^ 32) = ((2 ^ (k + 1) : ℕ) : ℤ) := by
  have hle : 2 ^ k ≤ 2 ^ 29 := Nat.pow_le_pow_right (by decide) (by omega)
  have hsucc : 2 ^ (k + 1) = 2 * 2 ^ k := Nat.pow_succ'
  rw [hsucc]
  rw [Int.bmod_eq_of_le_mul_two (by omega) (by omega), Int.natCast_mul]
  rfl

theorem doubleAlloc_of_le {needed : ℕ} (h : needed ≤ 2 ^ 30) {k : ℕ} (hk : k ≤ 30) :
    ∃ alloc, doubleAlloc needed (k + 1) ((2 ^ (30 - k) : ℕ) : ℤ) = some alloc := by
  induction k with
  | zero => exact ⟨_, if_neg (Int.not_lt.mpr (Int.ofNat_le.mpr h))⟩
  | succ k ih =>
    rw [doubleAlloc]
    split
    · have hnext : 30 - (k + 1) + 1 = 30 - k := by omega
      rw [bmod_double (by omega), hnext]
      exact ih (by omega)
    · exact ⟨_, rfl⟩

/-- A size that the loop reaches. Behind `2 ^ 30` it overflows. -/
def Doubled (alloc : ℤ) : Prop := (∃ k ≤ 30, alloc = (2 ^ k : ℕ)) ∨ alloc = -2 ^ 31 ∨ alloc = 0

theorem Doubled.le {alloc : ℤ} (h : Doubled alloc) : alloc ≤ (2 ^ 30 : ℕ) := by
  rcases h with ⟨k, hk, rfl⟩ | rfl | rfl
  · exact Int.ofNat_le.mpr (Nat.pow_le_pow_right (by decide) hk)
  · decide
  · decide

theorem Doubled.double {alloc : ℤ} (h : Doubled alloc) : Doubled ((2 * alloc).bmod (2 ^ 32)) := by
  rcases h with ⟨k, hk, rfl⟩ | rfl | rfl
  · rcases Nat.lt_or_eq_of_le hk with hlt | rfl
    · exact .inl ⟨k + 1, hlt, bmod_double hlt⟩
    · exact .inr (.inl (by decide))
  · exact .inr (.inr (by decide))
  · exact .inr (.inr (by decide))

theorem doubleAlloc_of_lt {needed : ℕ} (h : 2 ^ 30 < needed) (n : ℕ) {alloc : ℤ}
    (halloc : Doubled alloc) : doubleAlloc needed n alloc = none := by
  induction n generalizing alloc with
  | zero => rfl
  | succ n ih =>
    rw [doubleAlloc, if_pos (Int.lt_of_le_of_lt halloc.le (Int.ofNat_lt.mpr h))]
    exact ih halloc.double

theorem reserves_iff {needed : ℕ} : Reserves needed ↔ needed ≤ 2 ^ 30 := by
  constructor
  · rintro ⟨n, alloc, halloc⟩
    by_contra hlt
    have hnone := doubleAlloc_of_lt (Nat.lt_of_not_le hlt) n (.inl ⟨12, by decide, rfl⟩)
    exact nomatch halloc.symm.trans hnone
  · exact fun h => ⟨19, doubleAlloc_of_le h (by decide : 18 ≤ 30)⟩

/-! ### The log -/

/-- `DebugLog`, with the number of `asctime` readings and the lines logged so far. -/
structure DebugLog where
  debugInputBuf : List UInt8
  debugOutputBuf : List UInt8
  censorPassword : Bool
  times : ℕ
  log : List (List UInt8)
  deriving DecidableEq

namespace DebugLog

/-- The constructor. -/
def new : DebugLog := ⟨[], [], false, 0, []⟩

variable (libc : Libc)

/-- `Input`. -/
def input (d : DebugLog) (data : List UInt8) : DebugLog :=
  let buf := d.debugInputBuf ++ data
  if buf = [] then d
  else
    let st := debugPrint (banner false ++ libc.asctime d.times) buf d.censorPassword
    { d with
      debugInputBuf := libc.keep buf st.start
      censorPassword := st.censorPassword
      times := d.times + 1
      log := d.log ++ st.lines }

/-- `Output`. -/
def output (d : DebugLog) (data : List UInt8) : DebugLog :=
  let buf := d.debugOutputBuf ++ data
  if buf = [] then d
  else
    let st := debugPrint (banner true ++ libc.asctime d.times) buf d.censorPassword
    { d with
      debugOutputBuf := libc.keep buf st.start
      censorPassword := st.censorPassword
      times := d.times + 1
      log := d.log ++ st.lines }

/-- A call of the log. -/
inductive Call
  | input (data : List UInt8)
  | output (data : List UInt8)
  deriving DecidableEq

/-- The log after a call. -/
def call (d : DebugLog) : Call → DebugLog
  | .input data => d.input libc data
  | .output data => d.output libc data

/-- The log after a list of calls. -/
def run (d : DebugLog) (calls : List Call) : DebugLog := calls.foldl (call libc) d

end DebugLog

/-! ### Printing a stream -/

/-- What printing leaves: the lines, the bytes not printed yet, and the flag. -/
structure Printed where
  lines : List (List UInt8)
  pending : List UInt8
  censorPassword : Bool
  deriving DecidableEq

/-- Where a tag is indented to, and where the next line is, given the bytes since the last line and
those behind the `>`. -/
def tagNest (pending rest : List UInt8) (nest : ℤ) : ℤ × ℤ :=
  if pending.getLast? = some slash then (nest, nest)
  else if (pending ++ rangle :: rest)[1]? = some slash then (nest - 2, nest - 2)
  else (nest, nest + 2)

/-- Print a stream of bytes behind the bytes that are not printed yet. -/
def printStream : List UInt8 → List UInt8 → ℤ → Bool → Printed
  | pending, [], _, censor => ⟨[], pending, censor⟩
  | pending, c :: rest, nest, censor =>
    if c = rangle then
      let r := printStream [] rest (tagNest pending rest nest).2
        (censor || isAuthTag (pending ++ [rangle]))
      { r with lines := indented (tagNest pending rest nest).1 (pending ++ [rangle]) :: r.lines }
    else if c = langle ∧ pending ≠ [] then
      let r := printStream [langle] rest nest false
      { r with lines := indented nest (if censor then textRemoved else pending) :: r.lines }
    else printStream (pending ++ [c]) rest nest censor

/-- The buffer is cut at `start` and at the index: in front of `start` nothing is left, or a tag that ended. -/
structure CutAt (buf : List UInt8) (start i : ℕ) (pending rest : List UInt8) : Prop where
  buf_eq : ∃ done, done.length = start ∧ buf = done ++ (pending ++ rest) ∧
    (pending = [] → done = [] ∨ done.getLast? = some rangle)
  index : i = start + pending.length

section cutAt

variable {buf pending rest : List UInt8} {start i : ℕ} {c : UInt8}

theorem CutAt.tag (h : CutAt buf start i pending (rangle :: rest)) : CutAt buf (i + 1) (i + 1) [] rest := by
  obtain ⟨⟨done, rfl, hbuf, -⟩, rfl⟩ := h
  refine ⟨⟨done ++ pending ++ [rangle], ?_, ?_, fun _ => .inr List.getLast?_concat⟩, rfl⟩
  · rw [List.length_append, List.length_append, List.length_singleton]
  · simp [hbuf]

theorem CutAt.text (h : CutAt buf start i pending (langle :: rest)) : CutAt buf i (i + 1) [langle] rest := by
  obtain ⟨⟨done, rfl, hbuf, -⟩, rfl⟩ := h
  refine ⟨⟨done ++ pending, List.length_append, ?_, nofun⟩, rfl⟩
  simp [hbuf]

theorem CutAt.push (h : CutAt buf start i pending (c :: rest)) :
    CutAt buf start (i + 1) (pending ++ [c]) rest := by
  obtain ⟨⟨done, rfl, hbuf, -⟩, rfl⟩ := h
  refine ⟨⟨done, rfl, ?_, fun hnil => absurd hnil (List.concat_ne_nil c pending)⟩, ?_⟩
  · simp [hbuf]
  · rw [List.length_append, List.length_singleton, Nat.add_assoc]

theorem CutAt.getD_index (h : CutAt buf start i pending (c :: rest)) : buf.getD i 0 = c := by
  obtain ⟨⟨done, rfl, hbuf, -⟩, rfl⟩ := h
  simp [hbuf, List.getD_eq_getElem?_getD]

theorem CutAt.start_lt_iff (h : CutAt buf start i pending rest) : start < i ↔ pending ≠ [] := by
  rw [h.index, ← List.length_pos_iff]
  omega

theorem CutAt.text_eq (h : CutAt buf start i pending rest) : (buf.drop start).take (i - start) = pending := by
  obtain ⟨⟨done, rfl, hbuf, -⟩, rfl⟩ := h
  rw [hbuf, List.drop_left, Nat.add_sub_cancel_left, List.take_left]

theorem CutAt.tag_eq (h : CutAt buf start i pending (c :: rest)) :
    (buf.drop start).take (i + 1 - start) = pending ++ [c] := h.push.text_eq

theorem printTag_eq (h : CutAt buf start i pending (rangle :: rest)) (nest : ℤ) (censor : Bool)
    (lines : List (List UInt8)) : printTag buf i ⟨start, nest, censor, lines⟩ =
      ⟨i + 1, (tagNest pending rest nest).2, censor || isAuthTag (pending ++ [rangle]),
        lines ++ [indented (tagNest pending rest nest).1 (pending ++ [rangle])]⟩ := by
  have htag := h.tag_eq
  obtain ⟨⟨done, rfl, hbuf, hdone⟩, rfl⟩ := h
  -- The byte before the `>` is the last one pending; if none is, it ended the tag before.
  have hprev : (0 < done.length + pending.length ∧ buf.getD (done.length + pending.length - 1) 0 = slash) ↔
        pending.getLast? = some slash := by
    rcases List.eq_nil_or_concat pending with rfl | ⟨init, last, rfl⟩
    · rcases hdone rfl with rfl | hlast
      · simp
      · obtain ⟨init, rfl⟩ : ∃ init, done = init ++ [rangle] :=
          ⟨_, (List.dropLast_append_getLast? _ hlast).symm⟩
        subst hbuf
        simp [List.getD_eq_getElem?_getD]
        decide
    have hindex : done.length + (init.concat last).length - 1 = done.length + init.length := by
      rw [List.length_concat]
      omega
    have hget : buf.getD (done.length + init.length) 0 = last := by
      rw [hbuf, List.getD_eq_getElem?_getD, List.getElem?_append_right (Nat.le_add_right _ _),
        Nat.add_sub_cancel_left, List.concat_eq_append, List.append_assoc,
        List.getElem?_append_right (Nat.le_refl _), Nat.sub_self]
      rfl
    rw [hindex, hget, List.concat_eq_append, List.getLast?_concat, List.length_append,
      List.length_singleton, Option.some.injEq]
    exact and_iff_right (by omega)
  have hsecond : (done.length + 1 < buf.length ∧ buf.getD (done.length + 1) 0 = slash) ↔
      (pending ++ rangle :: rest)[1]? = some slash := by
    have hget : buf[done.length + 1]? = (pending ++ rangle :: rest)[1]? := by
      rw [hbuf, List.getElem?_append_right (Nat.le_add_right _ _), Nat.add_sub_cancel_left]
    rw [List.getD_eq_getElem?_getD, ← hget]
    rcases hcase : buf[done.length + 1]? with _ | b
    · rw [List.getElem?_eq_none_iff] at hcase
      simp
      omega
    · have hlt := (List.getElem?_eq_some_iff.mp hcase).1
      simp [hlt]
  simp only [printTag, htag, hprev, hsecond, tagNest]
  split
  · rfl
  · split <;> rfl

theorem printText_eq (h : CutAt buf start i pending rest) (nest : ℤ) (censor : Bool)
    (lines : List (List UInt8)) : printText buf i ⟨start, nest, censor, lines⟩ =
      ⟨i, nest, false, lines ++ [indented nest (if censor then textRemoved else pending)]⟩ := by
  rw [printText, h.text_eq]

/-- The body of the loop. -/
theorem printChar_eq (h : CutAt buf start i pending (c :: rest)) (nest : ℤ) (censor : Bool)
    (lines : List (List UInt8)) : printChar buf ⟨start, nest, censor, lines⟩ i =
      if c = rangle then
        ⟨i + 1, (tagNest pending rest nest).2, censor || isAuthTag (pending ++ [rangle]),
          lines ++ [indented (tagNest pending rest nest).1 (pending ++ [rangle])]⟩
      else if c = langle ∧ pending ≠ [] then
        ⟨i, nest, false, lines ++ [indented nest (if censor then textRemoved else pending)]⟩
      else ⟨start, nest, censor, lines⟩ := by
  have hangles : langle ≠ rangle := by decide
  rw [printChar, h.getD_index]
  by_cases hgt : c = rangle
  · subst hgt
    rw [if_pos rfl, if_neg (fun h => hangles h.1.symm), if_pos rfl, printTag_eq h]
  rw [if_neg hgt, if_neg hgt]
  simp only [h.start_lt_iff, printText_eq h nest censor lines]

/-- The loop, from an index on, prints the stream behind the bytes since `start`. -/
theorem foldl_printChar (h : CutAt buf start i pending rest) (nest : ℤ) (censor : Bool)
    (lines : List (List UInt8)) :
    ∃ start' nest', (List.range' i rest.length).foldl (printChar buf) ⟨start, nest, censor, lines⟩ =
        ⟨start', nest', (printStream pending rest nest censor).censorPassword,
          lines ++ (printStream pending rest nest censor).lines⟩ ∧
      buf.drop start' = (printStream pending rest nest censor).pending := by
  induction rest generalizing start i pending nest censor lines with
  | nil =>
    refine ⟨start, nest, ?_, ?_⟩
    · simp [printStream]
    · obtain ⟨done, rfl, hbuf, -⟩ := h.buf_eq
      rw [hbuf, List.drop_left, List.append_nil]
      rfl
  | cons c rest ih =>
    rw [List.length_cons, List.range'_succ, List.foldl_cons, printChar_eq h nest censor lines, printStream]
    by_cases hgt : c = rangle
    · subst hgt
      simpa only [if_true, List.append_assoc, List.singleton_append] using ih h.tag (tagNest pending rest nest).2
        (censor || isAuthTag (pending ++ [rangle]))
        (lines ++ [indented (tagNest pending rest nest).1 (pending ++ [rangle])])
    rw [if_neg hgt, if_neg hgt]
    by_cases hlt : c = langle ∧ pending ≠ []
    · rw [if_pos hlt, if_pos hlt]
      simpa only [List.append_assoc, List.singleton_append] using
        ih (hlt.1 ▸ h).text nest false (lines ++ [indented nest (if censor then textRemoved else pending)])
    · rw [if_neg hlt, if_neg hlt]
      exact ih h.push nest censor lines

end cutAt

theorem cutAt_start (buf : List UInt8) : CutAt buf 0 0 [] buf := ⟨⟨[], rfl, rfl, fun _ => .inl rfl⟩, rfl⟩

theorem debugPrint_eq (line buf : List UInt8) (censor : Bool) :
    (debugPrint line buf censor).censorPassword = (printStream [] buf 3 censor).censorPassword ∧
      (debugPrint line buf censor).lines = line :: (printStream [] buf 3 censor).lines ∧
      buf.drop (debugPrint line buf censor).start = (printStream [] buf 3 censor).pending := by
  obtain ⟨start, nest, hloop, hdrop⟩ := foldl_printChar (cutAt_start buf) 3 censor [line]
  rw [debugPrint, List.range_eq_range', hloop]
  exact ⟨rfl, rfl, hdrop⟩

/-! ### Calls and the stream -/

/-- What may stand in a buffer between two calls: no tag is complete, and no text. -/
def Settled (pending : List UInt8) : Prop := rangle ∉ pending ∧ langle ∉ pending.tail

theorem settled_nil : Settled [] := ⟨List.not_mem_nil, List.not_mem_nil⟩

theorem settled_push {pending : List UInt8} {c : UInt8} (h : Settled pending) (hgt : c ≠ rangle)
    (hlt : ¬ (c = langle ∧ pending ≠ [])) : Settled (pending ++ [c]) := by
  refine ⟨fun hmem => ?_, fun hmem => ?_⟩
  · rcases List.mem_append.mp hmem with hmem | hmem
    · exact h.1 hmem
    · exact hgt (List.mem_singleton.mp hmem).symm
  cases pending with
  | nil => cases hmem
  | cons b pending =>
    rcases List.mem_append.mp hmem with hmem | hmem
    · exact h.2 hmem
    · exact hlt ⟨(List.mem_singleton.mp hmem).symm, List.cons_ne_nil _ _⟩

theorem settled_printStream {pending : List UInt8} (h : Settled pending) (rest : List UInt8)
    (nest : ℤ) (censor : Bool) : Settled (printStream pending rest nest censor).pending := by
  induction rest generalizing pending nest censor with
  | nil => exact h
  | cons c rest ih =>
    rw [printStream]
    split
    · exact ih settled_nil _ _
    next hgt =>
    split
    · refine ih ⟨?_, List.not_mem_nil⟩ _ _
      decide
    · next hlt => exact ih (settled_push h hgt hlt) _ _

theorem printStream_wait (pending : List UInt8) {more : List UInt8}
    (h : Settled (pending ++ more)) (rest : List UInt8) (nest : ℤ) (censor : Bool) :
    printStream pending (more ++ rest) nest censor = printStream (pending ++ more) rest nest censor := by
  induction more generalizing pending with
  | nil => rw [List.append_nil, List.nil_append]
  | cons c more ih =>
    have hgt : c ≠ rangle := by
      rintro rfl
      exact h.1 (by simp)
    have hlt : ¬ (c = langle ∧ pending ≠ []) := by
      rintro ⟨rfl, hne⟩
      refine h.2 ?_
      rw [List.tail_append_of_ne_nil hne]
      simp
    rw [List.cons_append, printStream, if_neg hgt, if_neg hlt, ih]
    · rw [List.append_assoc, List.singleton_append]
    · rwa [List.append_assoc, List.singleton_append]

theorem printStream_append_settled {pending : List UInt8} (h : Settled pending)
    (data : List UInt8) (nest : ℤ) (censor : Bool) :
    printStream [] (pending ++ data) nest censor = printStream pending data nest censor :=
  printStream_wait [] h data nest censor

namespace DebugLog

variable (libc : Libc) [libc.Moves] {d : DebugLog}

/-- Both buffers are settled. -/
structure Settled (d : DebugLog) : Prop where
  input : Synciga.Settled d.debugInputBuf
  output : Synciga.Settled d.debugOutputBuf

theorem input_eq (h : d.Settled) {data : List UInt8} (hne : d.debugInputBuf ++ data ≠ []) :
    d.input libc data = { d with
      debugInputBuf := (printStream d.debugInputBuf data 3 d.censorPassword).pending
      censorPassword := (printStream d.debugInputBuf data 3 d.censorPassword).censorPassword
      times := d.times + 1
      log := d.log ++ (banner false ++ libc.asctime d.times) ::
        (printStream d.debugInputBuf data 3 d.censorPassword).lines } := by
  obtain ⟨hcensor, hlines, hdrop⟩ := debugPrint_eq (banner false ++ libc.asctime d.times)
    (d.debugInputBuf ++ data) d.censorPassword
  rw [printStream_append_settled h.input] at hcensor hlines hdrop
  simp only [input, if_neg hne, hcensor, hlines, Libc.keep_of_moves, hdrop]

theorem output_eq (h : d.Settled) {data : List UInt8} (hne : d.debugOutputBuf ++ data ≠ []) :
    d.output libc data = { d with
      debugOutputBuf := (printStream d.debugOutputBuf data 3 d.censorPassword).pending
      censorPassword := (printStream d.debugOutputBuf data 3 d.censorPassword).censorPassword
      times := d.times + 1
      log := d.log ++ (banner true ++ libc.asctime d.times) ::
        (printStream d.debugOutputBuf data 3 d.censorPassword).lines } := by
  obtain ⟨hcensor, hlines, hdrop⟩ := debugPrint_eq (banner true ++ libc.asctime d.times)
    (d.debugOutputBuf ++ data) d.censorPassword
  rw [printStream_append_settled h.output] at hcensor hlines hdrop
  simp only [output, if_neg hne, hcensor, hlines, Libc.keep_of_moves, hdrop]

omit [libc.Moves] in
theorem output_of_nil {data : List UInt8} (h : d.debugOutputBuf ++ data = []) : d.output libc data = d := by
  simp only [output, if_pos h]

omit [libc.Moves] in
theorem input_of_nil {data : List UInt8} (h : d.debugInputBuf ++ data = []) : d.input libc data = d := by
  simp only [input, if_pos h]

theorem settled_call (h : d.Settled) (c : Call) : (d.call libc c).Settled := by
  cases c with
  | input data =>
    by_cases hne : d.debugInputBuf ++ data = []
    · rw [call, input_of_nil libc hne]
      exact h
    · rw [call, input_eq libc h hne]
      exact ⟨settled_printStream h.input _ _ _, h.output⟩
  | output data =>
    by_cases hne : d.debugOutputBuf ++ data = []
    · rw [call, output_of_nil libc hne]
      exact h
    · rw [call, output_eq libc h hne]
      exact ⟨h.input, settled_printStream h.output _ _ _⟩

theorem settled_run (h : d.Settled) (calls : List Call) : (d.run libc calls).Settled := by
  induction calls generalizing d with
  | nil => exact h
  | cons c calls ih => exact ih (settled_call libc h c)

omit [libc.Moves] in
theorem run_append (d : DebugLog) (cs₁ cs₂ : List Call) :
    d.run libc (cs₁ ++ cs₂) = (d.run libc cs₁).run libc cs₂ :=
  List.foldl_append

end DebugLog

end Synciga
