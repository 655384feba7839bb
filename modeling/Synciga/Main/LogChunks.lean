import Synciga.Main.LogSecrecy
import Mathlib.Data.List.DropRight
import Mathlib.Data.List.Forall2

/-!
# The log and the cutting of a stream into calls

`DebugPrint` starts anew in every call, at the front of a buffer from which the last one has taken what it
printed. The pieces it cuts off and their texts are those of the stream, wherever calls begin, as long as the
tail of the buffer stays where it is or is not longer than what stands in front of it: for a longer one nothing
is known of `memcpy`. The indentation starts anew, and each call logs a header.

## Main definitions

* `DebugLog.chunkPieces` — the pieces that consecutive `Output` calls cut off
* `DebugLog.Insensitive` — two ways to cut a stream into calls give the same pieces
* `KeepsApart` — no tail overlaps with its new place, and no call has too many bytes

## Main results

* `DebugLog.pieces_of_chunks_iff` — with every library two ways give the same pieces, exactly if both keep the
  tails apart
-/

namespace Synciga

open DebugLog

/-! ### Pieces -/

/-- A piece of the buffer: the bytes that were scanned, and the text that is logged for them. -/
structure Piece where
  scanned : List UInt8
  logged : List UInt8
  deriving DecidableEq, Repr

variable (buf : List UInt8)

/-- What the body of the loop cuts off: a tag, or a text. -/
def charPieces (st : PrintState) (i : ℕ) : List Piece :=
  let tag := (buf.drop st.start).take (i + 1 - st.start)
  let text := (buf.drop st.start).take (i - st.start)
  if buf.getD i 0 = rangle then [⟨tag, tag⟩]
  else if buf.getD i 0 = langle ∧ st.start < i then
    [⟨text, if st.censorPassword then textRemoved else text⟩]
  else []

/-- What the loop cuts off at the given indices. -/
def loopPieces (buf : List UInt8) : PrintState → List ℕ → List Piece
  | _, [] => []
  | st, i :: is => charPieces buf st i ++ loopPieces buf (printChar buf st i) is

/-- What `DebugPrint` cuts off its buffer. -/
def debugPieces (line buf : List UInt8) (censorPassword : Bool) : List Piece :=
  loopPieces buf ⟨0, 3, censorPassword, [line]⟩ (List.range buf.length)

/-- The line shows the text of the piece, at some indentation. -/
def Shows (line : List UInt8) (p : Piece) : Prop := ∃ nest, line = indented nest p.logged

theorem lines_printChar (st : PrintState) (i : ℕ) :
    ∃ lines, (printChar buf st i).lines = st.lines ++ lines ∧
      List.Forall₂ Shows lines (charPieces buf st i) := by
  rw [printChar, charPieces]
  by_cases hgt : buf.getD i 0 = rangle
  · have hlt : ¬ (buf.getD i 0 = langle ∧ (printTag buf i st).start < i) := by
      rw [hgt]
      exact fun h => absurd h.1 (by decide)
    rw [if_pos hgt, if_neg hlt]
    simp only [if_pos hgt, printTag]
    exact ⟨_, rfl, .cons ⟨_, rfl⟩ .nil⟩
  simp only [if_neg hgt]
  split
  · simp only [printText]
    exact ⟨_, rfl, .cons ⟨_, rfl⟩ .nil⟩
  · exact ⟨[], (List.append_nil _).symm, .nil⟩

theorem lines_foldl_printChar (st : PrintState) (is : List ℕ) :
    ∃ lines, (is.foldl (printChar buf) st).lines = st.lines ++ lines ∧
      List.Forall₂ Shows lines (loopPieces buf st is) := by
  induction is generalizing st with
  | nil => exact ⟨[], (List.append_nil _).symm, .nil⟩
  | cons i is ih =>
    obtain ⟨first, hfirst, hshow⟩ := lines_printChar buf st i
    obtain ⟨rest, hrest, hshows⟩ := ih (printChar buf st i)
    refine ⟨first ++ rest, ?_, List.rel_append hshow hshows⟩
    rw [List.foldl_cons, hrest, hfirst, List.append_assoc]

/-! ### The pieces of a stream -/

/-- The pieces of a stream behind the bytes that are not printed yet. -/
def streamPieces : List UInt8 → Bool → List UInt8 → List Piece
  | _, _, [] => []
  | pending, censor, c :: rest =>
    if c = rangle then
      ⟨pending ++ [rangle], pending ++ [rangle]⟩ ::
        streamPieces [] (censor || isAuthTag (pending ++ [rangle])) rest
    else if c = langle ∧ pending ≠ [] then
      ⟨pending, if censor then textRemoved else pending⟩ :: streamPieces [langle] false rest
    else streamPieces (pending ++ [c]) censor rest

variable (pending : List UInt8)

theorem scanned_streamPieces (censor : Bool) (data : List UInt8) :
    (streamPieces pending censor data).flatMap Piece.scanned ++ pendingAfter pending data =
      pending ++ data := by
  induction data generalizing pending censor with
  | nil => exact (List.append_nil _).symm
  | cons c data ih =>
    rw [streamPieces, pendingAfter]
    split
    · next hgt => rw [List.flatMap_cons, List.append_assoc, ih, hgt]; simp
    split
    · next hlt => rw [List.flatMap_cons, List.append_assoc, ih, hlt.1]; rfl
    · rw [ih, List.append_assoc, List.singleton_append]

theorem streamPieces_append (censor : Bool) (x y : List UInt8) :
    streamPieces pending censor (x ++ y) = streamPieces pending censor x ++
      streamPieces (pendingAfter pending x) (flagAfter pending censor x) y := by
  induction x generalizing pending censor with
  | nil => rfl
  | cons c x ih =>
    rw [List.cons_append, streamPieces, streamPieces, pendingAfter, flagAfter]
    split
    · rw [ih, List.cons_append]
    split
    · rw [ih, List.cons_append]
    · exact ih _ _

theorem streamPieces_settled (censor : Bool) {more : List UInt8}
    (h : Settled (pending ++ more)) : streamPieces pending censor more = [] := by
  induction more generalizing pending with
  | nil => rfl
  | cons c more ih =>
    have hgt : c ≠ rangle := by
      rintro rfl
      exact h.1 (by simp)
    have hlt : ¬ (c = langle ∧ pending ≠ []) := by
      rintro ⟨rfl, hne⟩
      refine h.2 ?_
      rw [List.tail_append_of_ne_nil hne]
      simp
    rw [streamPieces, if_neg hgt, if_neg hlt]
    exact ih _ (by rwa [List.append_assoc, List.singleton_append])

theorem streamPieces_append_settled {pending : List UInt8} (h : Settled pending) (censor : Bool)
    (data : List UInt8) :
    streamPieces [] censor (pending ++ data) = streamPieces pending censor data := by
  have hflag : flagAfter [] censor pending = censor := by
    have hwait := congrArg Printed.censorPassword (printStream_wait [] h [] 3 censor)
    rwa [List.append_nil, printStream_censorPassword] at hwait
  have hpending : pendingAfter [] pending = pending := by
    exact pendingAfter_wait h
  rw [streamPieces_append, streamPieces_settled [] censor h, hpending, hflag, List.nil_append]

/-! ### The loop cuts off the pieces of the stream -/

/-- The body of the loop. -/
theorem charPieces_eq {buf pending rest : List UInt8} {start i : ℕ} {c : UInt8}
    (h : CutAt buf start i pending (c :: rest)) (nest : ℤ) (censor : Bool) (lines : List (List UInt8)) :
    charPieces buf ⟨start, nest, censor, lines⟩ i =
      if c = rangle then [⟨pending ++ [rangle], pending ++ [rangle]⟩]
      else if c = langle ∧ pending ≠ [] then
        [⟨pending, if censor then textRemoved else pending⟩]
      else [] := by
  simp only [charPieces, h.getD_index, h.start_lt_iff, h.text_eq, h.tag_eq]
  split
  · next hgt => rw [hgt]
  · rfl

/-- The loop, from an index on, cuts off the pieces behind the bytes since `start`. -/
theorem loopPieces_eq {buf pending rest : List UInt8} {start i : ℕ} (h : CutAt buf start i pending rest) (nest : ℤ)
    (censor : Bool) (lines : List (List UInt8)) :
    loopPieces buf ⟨start, nest, censor, lines⟩ (List.range' i rest.length) =
      streamPieces pending censor rest := by
  induction rest generalizing start i pending nest censor lines with
  | nil => rfl
  | cons c rest ih =>
    rw [List.length_cons, List.range'_succ, loopPieces, charPieces_eq h nest censor lines,
      printChar_eq h nest censor lines, streamPieces]
    by_cases hgt : c = rangle
    · subst hgt
      rw [if_pos rfl, if_pos rfl, if_pos rfl, List.singleton_append, ih h.tag]
    rw [if_neg hgt, if_neg hgt, if_neg hgt]
    by_cases hlt : c = langle ∧ pending ≠ []
    · rw [if_pos hlt, if_pos hlt, if_pos hlt, List.singleton_append, ih (hlt.1 ▸ h).text]
    · rw [if_neg hlt, if_neg hlt, if_neg hlt, List.nil_append, ih h.push]

theorem debugPieces_eq (line buf : List UInt8) (censor : Bool) :
    debugPieces line buf censor = streamPieces [] censor buf := by
  rw [debugPieces, List.range_eq_range', loopPieces_eq (cutAt_start buf)]

/-! ### The tail that is kept -/

/-- An angle bracket. -/
def isAngle (c : UInt8) : Bool := c = langle || c = rangle

/-- The bytes behind the last angle bracket, with the bracket if it is a `<`. -/
def openEnd (bytes : List UInt8) : List UInt8 :=
  let text := bytes.rtakeWhile fun c => !isAngle c
  if (bytes.rdropWhile fun c => !isAngle c).getLast? = some langle then langle :: text else text

theorem openEnd_concat (bytes : List UInt8) (c : UInt8) : openEnd (bytes ++ [c]) =
      if c = rangle then [] else if c = langle then [langle] else openEnd bytes ++ [c] := by
  rw [openEnd, List.rtakeWhile_concat, List.rdropWhile_concat]
  by_cases hgt : c = rangle
  · subst hgt
    simp [isAngle, langle, rangle]
  by_cases hlt : c = langle
  · subst hlt
    simp [isAngle, hgt]
  · have hplain : (!isAngle c) = true := by simp [isAngle, hgt, hlt]
    rw [if_pos hplain, if_pos hplain, if_neg hgt, if_neg hlt, openEnd]
    split <;> rfl

theorem pendingAfter_nil_eq (bytes : List UInt8) : pendingAfter [] bytes = openEnd bytes := by
  induction bytes using List.reverseRecOn with
  | nil => rfl
  | append_singleton bytes c ih =>
    rw [pendingAfter_append, ih, openEnd_concat, pendingAfter]
    by_cases hgt : c = rangle
    · rw [if_pos hgt, if_pos hgt, pendingAfter]
    rw [if_neg hgt, if_neg hgt]
    by_cases hlt : c = langle
    · subst hlt
      by_cases hnil : openEnd bytes = []
      · simp [hnil, pendingAfter]
      · simp [hnil, pendingAfter]
    · rw [if_neg hlt, if_neg fun h => hlt h.1, pendingAfter]

theorem pendingAfter_eq_openEnd {held : List UInt8} (h : Settled held) (data : List UInt8) :
    pendingAfter held data = openEnd (held ++ data) := by
  have hheld : pendingAfter [] held = [] ++ held := pendingAfter_wait h
  rw [← pendingAfter_nil_eq, pendingAfter_append, hheld, List.nil_append]

theorem settled_openEnd (bytes : List UInt8) : Settled (openEnd bytes) := by
  rw [← pendingAfter_nil_eq, ← printStream_pending [] bytes 3 false]
  exact settled_printStream settled_nil _ _ _

/-- A call has no more bytes than fit into a buffer, and what it keeps stays where it is, or is not
longer than what stands in front of it. -/
def KeepsApart (held : List UInt8) : List (List UInt8) → Prop
  | [] => True
  | data :: chunks =>
    (held ++ data).length ≤ 2 ^ 30 ∧
      (openEnd (held ++ data) = held ++ data ∨
        2 * (openEnd (held ++ data)).length ≤ (held ++ data).length) ∧
      KeepsApart (openEnd (held ++ data)) chunks

namespace DebugLog

variable (libc : Libc)

/-! ### Consecutive `Output` calls -/

/-- The pieces that an `Output` cuts off. -/
def outputPieces (d : DebugLog) (data : List UInt8) : List Piece :=
  debugPieces (banner true ++ libc.asctime d.times) (d.debugOutputBuf ++ data) d.censorPassword

/-- The pieces that consecutive `Output` calls cut off. -/
def chunkPieces : DebugLog → List (List UInt8) → List Piece
  | _, [] => []
  | d, data :: chunks => d.outputPieces libc data ++ chunkPieces (d.output libc data) chunks

/-- In all calls there is room for the bytes. -/
def Returns : DebugLog → List (List UInt8) → Prop
  | _, [] => True
  | d, data :: chunks =>
    Reserves (d.debugOutputBuf ++ data).length ∧ Returns (d.output libc data) chunks

/-- Whether the line is the first one of an `Output`. -/
def isHeader (line : List UInt8) : Bool := (banner true).isPrefixOf line

/-- From `d` to `d'` the bytes in `data` were output: lines show the pieces in order, pieces and the bytes held
are all bytes, and what is held is no piece. -/
structure Scans (d d' : DebugLog) (data : List UInt8) (pieces : List Piece) : Prop where
  log : ∃ lines, d'.log = d.log ++ lines ∧
    List.Forall₂ Shows (lines.filter fun line => !isHeader line) pieces
  scanned : pieces.flatMap Piece.scanned ++ d'.debugOutputBuf = d.debugOutputBuf ++ data
  no_rangle : rangle ∉ d'.debugOutputBuf
  no_langle : langle ∉ d'.debugOutputBuf.tail

/-- All calls return, the bytes are cut into the same pieces in both ways, and each way shows the pieces. -/
structure Insensitive (d : DebugLog) (chunks chunks' : List (List UInt8)) : Prop where
  returns : d.Returns libc chunks
  returns' : d.Returns libc chunks'
  pieces : d.chunkPieces libc chunks = d.chunkPieces libc chunks'
  scans : Scans d (d.run libc (chunks.map .output)) chunks.flatten (d.chunkPieces libc chunks)
  scans' : Scans d (d.run libc (chunks'.map .output)) chunks'.flatten (d.chunkPieces libc chunks')

theorem isHeader_banner (time : List UInt8) : isHeader (banner true ++ time) = true := by
  rw [isHeader, List.isPrefixOf_iff_prefix]
  exact List.prefix_append _ _

theorem not_isHeader_of_shows {line : List UInt8} {p : Piece} (h : Shows line p) :
    isHeader line = false := by
  obtain ⟨nest, rfl⟩ := h
  obtain ⟨k, hk⟩ : ∃ k, max 1 nest.toNat = k + 1 := ⟨max 1 nest.toNat - 1, by omega⟩
  rw [indented, hk, List.replicate_succ]
  rfl

theorem filter_of_shows {lines : List (List UInt8)} {pieces : List Piece}
    (h : List.Forall₂ Shows lines pieces) :
    (lines.filter fun line => !isHeader line) = lines := by
  induction h with
  | nil => rfl
  | cons hshow _ ih => rw [List.filter_cons, not_isHeader_of_shows hshow, ih]; rfl

variable {d : DebugLog}

theorem outputPieces_eq (h : Synciga.Settled d.debugOutputBuf) (data : List UInt8) :
    d.outputPieces libc data = streamPieces d.debugOutputBuf d.censorPassword data := by
  rw [outputPieces, debugPieces_eq, streamPieces_append_settled h]

theorem output_state (h : Synciga.Settled d.debugOutputBuf) (data : List UInt8) :
    (d.output libc data).censorPassword = flagAfter d.debugOutputBuf d.censorPassword data ∧
      ∃ start, (d.output libc data).debugOutputBuf = libc.keep (d.debugOutputBuf ++ data) start ∧
        (d.debugOutputBuf ++ data).drop start = openEnd (d.debugOutputBuf ++ data) := by
  by_cases hne : d.debugOutputBuf ++ data = []
  · obtain ⟨-, hdata⟩ := List.append_eq_nil_iff.mp hne
    rw [output_of_nil libc hne, hne, hdata]
    refine ⟨rfl, 0, ?_, rfl⟩
    exact (List.append_eq_nil_iff.mp hne).1
  · obtain ⟨hcensor, -, hdrop⟩ := debugPrint_eq (banner true ++ libc.asctime d.times)
      (d.debugOutputBuf ++ data) d.censorPassword
    rw [printStream_append_settled h] at hcensor hdrop
    rw [printStream_pending, pendingAfter_eq_openEnd h] at hdrop
    simp only [output, if_neg hne, hcensor, printStream_censorPassword]
    exact ⟨trivial, _, rfl, hdrop⟩

theorem output_apart (h : Synciga.Settled d.debugOutputBuf) {data : List UInt8}
    (hapart : openEnd (d.debugOutputBuf ++ data) = d.debugOutputBuf ++ data ∨
      2 * (openEnd (d.debugOutputBuf ++ data)).length ≤ (d.debugOutputBuf ++ data).length) :
    (d.output libc data).debugOutputBuf = openEnd (d.debugOutputBuf ++ data) := by
  obtain ⟨-, start, hkeep, hdrop⟩ := output_state libc h data
  rw [hkeep, ← hdrop]
  rw [← hdrop, List.length_drop] at hapart
  refine Libc.keep_of_fits ?_
  rcases hapart with hsame | hhalf
  · have hlen := congrArg List.length hsame
    rw [List.length_drop] at hlen
    omega
  · omega

theorem log_output (d : DebugLog) (data : List UInt8) :
    ∃ lines, (d.output libc data).log = d.log ++ lines ∧
      List.Forall₂ Shows (lines.filter fun line => !isHeader line) (d.outputPieces libc data) := by
  by_cases hnil : d.debugOutputBuf ++ data = []
  · refine ⟨[], ?_, ?_⟩
    · rw [output_of_nil libc hnil, List.append_nil]
    · rw [outputPieces, hnil]
      exact .nil
  obtain ⟨lines, hlines, hshows⟩ := lines_foldl_printChar (d.debugOutputBuf ++ data)
    ⟨0, 3, d.censorPassword, [banner true ++ libc.asctime d.times]⟩
    (List.range (d.debugOutputBuf ++ data).length)
  refine ⟨(banner true ++ libc.asctime d.times) :: lines, ?_, ?_⟩
  · simp only [output, if_neg hnil, debugPrint, hlines]
    rfl
  · rw [List.filter_cons, isHeader_banner, filter_of_shows hshows]
    exact hshows

theorem log_run (d : DebugLog) (chunks : List (List UInt8)) :
    ∃ lines, (d.run libc (chunks.map .output)).log = d.log ++ lines ∧
      List.Forall₂ Shows (lines.filter fun line => !isHeader line)
        (d.chunkPieces libc chunks) := by
  induction chunks generalizing d with
  | nil => exact ⟨[], (List.append_nil _).symm, .nil⟩
  | cons data chunks ih =>
    obtain ⟨first, hfirst, hshows⟩ := log_output libc d data
    obtain ⟨rest, hrest, hmore⟩ := ih (d.output libc data)
    refine ⟨first ++ rest, ?_, ?_⟩
    · rw [← List.append_assoc, ← hfirst]
      exact hrest
    · rw [List.filter_append]
      exact List.rel_append hshows hmore

/-- The pieces of consecutive calls are those of the stream, and what is left is its end. -/
theorem chunks_eq (h : Synciga.Settled d.debugOutputBuf) {chunks : List (List UInt8)}
    (hapart : KeepsApart d.debugOutputBuf chunks) :
    d.Returns libc chunks ∧
      d.chunkPieces libc chunks = streamPieces d.debugOutputBuf d.censorPassword chunks.flatten ∧
      (d.run libc (chunks.map .output)).debugOutputBuf = pendingAfter d.debugOutputBuf chunks.flatten := by
  induction chunks generalizing d with
  | nil => exact ⟨trivial, rfl, rfl⟩
  | cons data chunks ih =>
    obtain ⟨hroom, hfits, hrest⟩ := hapart
    have hflag := (output_state libc h data).1
    have hbuf := output_apart libc h hfits
    have hsettled := settled_openEnd (d.debugOutputBuf ++ data)
    rw [← hbuf] at hrest hsettled
    obtain ⟨hreturns, hpieces, hlast⟩ := ih hsettled hrest
    rw [hbuf, ← pendingAfter_eq_openEnd h] at hpieces hlast
    refine ⟨⟨reserves_iff.mpr hroom, hreturns⟩, ?_, ?_⟩
    · rw [chunkPieces, outputPieces_eq libc h, hpieces, hflag, List.flatten_cons, streamPieces_append]
    · rw [List.flatten_cons, pendingAfter_append, ← hlast]
      rfl

theorem scans_of_keepsApart (h : Synciga.Settled d.debugOutputBuf) {chunks : List (List UInt8)}
    (hapart : KeepsApart d.debugOutputBuf chunks) :
    Scans d (d.run libc (chunks.map .output)) chunks.flatten (d.chunkPieces libc chunks) := by
  obtain ⟨-, hpieces, hlast⟩ := chunks_eq libc h hapart
  have hsettled : Synciga.Settled (pendingAfter d.debugOutputBuf chunks.flatten) := by
    rw [pendingAfter_eq_openEnd h]
    exact settled_openEnd _
  refine ⟨log_run libc d chunks, ?_, hlast ▸ hsettled.1, hlast ▸ hsettled.2⟩
  rw [hpieces, hlast]
  exact scanned_streamPieces _ _ _

/-! ### A library that replaces bytes -/

/-- The bytes that were scanned, and those that are held. -/
def cutUp (d : DebugLog) (chunks : List (List UInt8)) : List UInt8 :=
  (d.chunkPieces libc chunks).flatMap Piece.scanned ++ (d.run libc (chunks.map .output)).debugOutputBuf

theorem cutUp_cons (d : DebugLog) (data : List UInt8) (chunks : List (List UInt8)) :
    d.cutUp libc (data :: chunks) =
      (d.outputPieces libc data).flatMap Piece.scanned ++ (d.output libc data).cutUp libc chunks := by
  rw [cutUp, chunkPieces, List.flatMap_append, List.append_assoc]
  rfl

theorem scanned_outputPieces (h : Synciga.Settled d.debugOutputBuf) (data : List UInt8) :
    (d.outputPieces libc data).flatMap Piece.scanned ++ openEnd (d.debugOutputBuf ++ data) =
      d.debugOutputBuf ++ data := by
  rw [outputPieces_eq libc h, ← pendingAfter_eq_openEnd h]
  exact scanned_streamPieces _ _ _

/-- What a call loses of a byte is lost for ever, if the calls behind it do not make more of it. -/
theorem cutUp_cons_le {libc : Libc} (h : Synciga.Settled d.debugOutputBuf) {x : UInt8} {data : List UInt8}
    {chunks : List (List UInt8)}
    (hrest : ((d.output libc data).cutUp libc chunks).count x ≤
      ((d.output libc data).debugOutputBuf ++ chunks.flatten).count x) :
    (d.cutUp libc (data :: chunks)).count x + (openEnd (d.debugOutputBuf ++ data)).count x ≤
      (d.debugOutputBuf ++ (data :: chunks).flatten).count x +
        (d.output libc data).debugOutputBuf.count x := by
  have hscanned := congrArg (List.count x) (scanned_outputPieces libc h data)
  rw [List.count_append] at hscanned hrest
  rw [cutUp_cons, List.count_append, List.flatten_cons, ← List.append_assoc, List.count_append,
    ← hscanned]
  omega

/-- A library whose `memcpy` replaces a byte where the ranges overlap. -/
def garbling (x y : UInt8) : Libc where
  asctime _ := []
  memcpy buf dst src len :=
    if dst + len ≤ src ∨ src + len ≤ dst ∨ dst = src then moved buf dst src len
    else moved (buf.map fun c => if c = x then y else c) dst src len
  memcpy_eq _ _ hranges := if_pos hranges

section garbling

variable {x y : UInt8} {buf : List UInt8} {start : ℕ}

theorem keep_garbling (h : ¬(start = 0 ∨ buf.length ≤ 2 * start)) :
    (garbling x y).keep buf start = (buf.drop start).map fun c => if c = x then y else c := by
  have hranges : ¬(0 + (buf.length - start) ≤ start ∨ start + (buf.length - start) ≤ 0 ∨ 0 = start) := by
    omega
  have hlen : (buf.map fun c => if c = x then y else c).length = buf.length := List.length_map _
  have hcopied : (garbling x y).memcpy buf 0 start (buf.length - start) = _ := if_neg hranges
  rw [Libc.keep, hcopied, ← hlen, Libc.take_moved, List.map_drop]

theorem keep_garbling_or (buf : List UInt8) (start : ℕ) : (garbling x y).keep buf start = buf.drop start ∨
      (garbling x y).keep buf start = (buf.drop start).map fun c => if c = x then y else c := by
  by_cases h : start = 0 ∨ buf.length ≤ 2 * start
  · exact .inl (Libc.keep_of_fits h)
  · exact .inr (keep_garbling h)

theorem count_replaced (hxy : y ≠ x) (l : List UInt8) :
    (l.map fun c => if c = x then y else c).count x = 0 := by
  rw [List.count_eq_zero]
  intro hmem
  obtain ⟨c, -, hc⟩ := List.mem_map.mp hmem
  split at hc
  · exact hxy hc
  next hne => exact hne hc

theorem settled_replaced (hlt : y ≠ langle) (hgt : y ≠ rangle) {l : List UInt8}
    (h : Synciga.Settled l) : Synciga.Settled (l.map fun c => if c = x then y else c) := by
  have hback {c : UInt8} {l : List UInt8} (hy : y ≠ c) (hc : c ∉ l) :
      c ∉ l.map fun c => if c = x then y else c := by
    intro hmem
    obtain ⟨b, hb, heq⟩ := List.mem_map.mp hmem
    split at heq
    · exact hy heq
    · exact hc (heq ▸ hb)
  refine ⟨hback hgt h.1, ?_⟩
  rw [← List.map_tail]
  exact hback hlt h.2

theorem count_keep_le (hxy : y ≠ x) (buf : List UInt8) (start : ℕ) :
    ((garbling x y).keep buf start).count x ≤ (buf.drop start).count x := by
  rcases keep_garbling_or buf start with hsame | hreplaced
  · rw [hsame]
  · rw [hreplaced, count_replaced hxy]
    exact Nat.zero_le _

theorem count_cutUp_le (hxy : y ≠ x) (hlt : y ≠ langle) (hgt : y ≠ rangle)
    (h : Synciga.Settled d.debugOutputBuf) (chunks : List (List UInt8)) :
    (d.cutUp (garbling x y) chunks).count x ≤ (d.debugOutputBuf ++ chunks.flatten).count x := by
  induction chunks generalizing d with
  | nil => exact Nat.le_of_eq (congrArg _ (List.append_nil _).symm)
  | cons data chunks ih =>
    obtain ⟨-, start, hkeep, hdrop⟩ := output_state (garbling x y) h data
    have hopen := settled_openEnd (d.debugOutputBuf ++ data)
    have hsettled : Synciga.Settled (d.output (garbling x y) data).debugOutputBuf := by
      rw [hkeep]
      rcases keep_garbling_or (d.debugOutputBuf ++ data) start with hsame | hreplaced
      · rw [hsame, hdrop]
        exact hopen
      · rw [hreplaced, hdrop]
        exact settled_replaced hlt hgt hopen
    have hcount := count_keep_le hxy (d.debugOutputBuf ++ data) start
    rw [← hkeep, hdrop] at hcount
    have hcons := cutUp_cons_le h (ih hsettled)
    omega

end garbling

theorem exists_not_cutUp {held : List UInt8} (hheld : Synciga.Settled held)
    {chunks : List (List UInt8)} (h : ¬KeepsApart held chunks) :
    ∃ libc, ∀ d : DebugLog, d.debugOutputBuf = held → d.Returns libc chunks →
      d.cutUp libc chunks ≠ held ++ chunks.flatten := by
  induction chunks generalizing held with
  | nil => exact absurd trivial h
  | cons data chunks ih =>
    by_cases hroom : (held ++ data).length ≤ 2 ^ 30
    swap
    · refine ⟨.moving, fun d hd hreturns => absurd (reserves_iff.mp hreturns.1) ?_⟩
      rw [hd]
      exact hroom
    by_cases hfits : openEnd (held ++ data) = held ++ data ∨
        2 * (openEnd (held ++ data)).length ≤ (held ++ data).length
    · -- The call keeps its tail whole, and a later one does not.
      obtain ⟨libc, hlibc⟩ := ih (settled_openEnd _) fun hrest => h ⟨hroom, hfits, hrest⟩
      refine ⟨libc, fun d hd hreturns hcut => ?_⟩
      subst hd
      have hbuf := output_apart libc hheld hfits
      refine hlibc (d.output libc data) hbuf hreturns.2 ?_
      rw [cutUp_cons, List.flatten_cons, ← List.append_assoc, ← scanned_outputPieces libc hheld data,
        List.append_assoc] at hcut
      exact List.append_cancel_left hcut
    · -- This call loses the bytes that are the first one of its tail.
      obtain ⟨x, tail, htail⟩ : ∃ x tail, openEnd (held ++ data) = x :: tail := by
        refine List.exists_cons_of_ne_nil fun hnil => hfits (.inr ?_)
        rw [hnil]
        exact Nat.zero_le _
      obtain ⟨y, hxy, hlt, hgt⟩ : ∃ y, y ≠ x ∧ y ≠ langle ∧ y ≠ rangle := by
        by_cases hx : x = 97
        · exact ⟨98, by rw [hx]; decide, by decide, by decide⟩
        · exact ⟨97, Ne.symm hx, by decide, by decide⟩
      refine ⟨garbling x y, fun d hd _ hcut => ?_⟩
      subst hd
      obtain ⟨-, start, hkeep, hdrop⟩ := output_state (garbling x y) hheld data
      have hstart : ¬(start = 0 ∨ (d.debugOutputBuf ++ data).length ≤ 2 * start) := by
        rw [← hdrop, List.length_drop] at hfits
        rintro (rfl | hhalf)
        · exact hfits (.inl List.drop_zero)
        · exact hfits (.inr (by omega))
      rw [keep_garbling hstart, hdrop] at hkeep
      have hsettled := settled_replaced (x := x) hlt hgt (settled_openEnd (d.debugOutputBuf ++ data))
      rw [← hkeep] at hsettled
      have hcons := cutUp_cons_le hheld (count_cutUp_le hxy hlt hgt hsettled chunks)
      rw [hcut, hkeep, count_replaced hxy, htail, List.count_cons_self] at hcons
      omega

/-- A library that copies from the last byte on, where the ranges overlap. -/
def backward : Libc where
  asctime _ := []
  memcpy buf dst src len :=
    if dst + len ≤ src ∨ src + len ≤ dst ∨ dst = src then moved buf dst src len
    else (List.range len).reverse.foldl (fun buf i => buf.set (dst + i) (buf.getD (src + i) 0)) buf
  memcpy_eq _ _ hranges := if_pos hranges

/-- **Chunks.** Two ways to cut the same bytes into `Output` calls cut off the same pieces, with the same texts,
and show them, with every library, exactly if no call of both ways has too many bytes, or keeps a tail that
overlaps with its new place. -/
theorem pieces_of_chunks_iff (h : Synciga.Settled d.debugOutputBuf) {chunks chunks' : List (List UInt8)}
    (hsame : chunks.flatten = chunks'.flatten) :
    (∀ libc, d.Insensitive libc chunks chunks') ↔
      KeepsApart d.debugOutputBuf chunks ∧ KeepsApart d.debugOutputBuf chunks' := by
  constructor
  · intro hall
    constructor
    · by_contra hoverlap
      obtain ⟨libc, hlost⟩ := exists_not_cutUp h hoverlap
      exact hlost d rfl (hall libc).returns (hall libc).scans.scanned
    · by_contra hoverlap
      obtain ⟨libc, hlost⟩ := exists_not_cutUp h hoverlap
      exact hlost d rfl (hall libc).returns' (hall libc).scans'.scanned
  · rintro ⟨hapart, hapart'⟩ libc
    obtain ⟨hreturns, hpieces, -⟩ := chunks_eq libc h hapart
    obtain ⟨hreturns', hpieces', -⟩ := chunks_eq libc h hapart'
    refine ⟨hreturns, hreturns', ?_, scans_of_keepsApart libc h hapart,
      scans_of_keepsApart libc h hapart'⟩
    rw [hpieces, hpieces', hsame]

/-- The bytes `<a>b<` in one call, and cut inside the tag and inside the text. -/
theorem pieces_of_chunks_cut :
    new.Insensitive backward [[60, 97, 62, 98, 60]] [[60], [97, 62, 98], [60]] := by
  have hone : KeepsApart [] [[60, 97, 62, 98, 60]] := ⟨by decide, by decide, trivial⟩
  have hcut : KeepsApart [] [[60], [97, 62, 98], [60]] :=
    ⟨by decide, by decide, by decide, by decide, by decide, by decide, trivial⟩
  have hsame : [[(60 : UInt8), 97, 62, 98, 60]].flatten = [[60], [97, 62, 98], [60]].flatten := rfl
  exact (pieces_of_chunks_iff (d := new) settled_nil hsame).mpr ⟨hone, hcut⟩ backward

/-- `<m>hello wor` and `ld</m>`: the text that is held behind the tag is longer than the tag. -/
def helloChunks : List (List UInt8) :=
  [ascii ['<', 'm', '>', 'h', 'e', 'l', 'l', 'o', ' ', 'w', 'o', 'r'], ascii ['l', 'd', '<', '/', 'm', '>']]

/-- The text that is logged is not the one that is logged for the bytes in one piece. -/
theorem not_insensitive_backward : ¬new.Insensitive backward helloChunks [helloChunks.flatten] := by
  intro h
  exact absurd h.pieces (by decide +kernel)

end DebugLog

end Synciga
