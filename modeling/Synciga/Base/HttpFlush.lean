import Synciga.Base.ScannedNumbers

/-!
# Sending an HTTP message

`HttpBase::flush_data` (`talk/base/httpbase.cc`) fills its buffer with headers and with what it reads of the
document, and writes it to the connection. A write that blocks ends the call only where `send_required` is set,
which nothing does once all headers of a message without a document are in the buffer.

## Main definitions

* `Keeps` — what was sent and is in the buffer is what was there and was queued since

## Main results

* `flushReturns_iff` — when the call returns; no byte is lost or out of order
-/

namespace Synciga.TalkBase

/-- What `Read` of the document answers. -/
inductive DocumentReply
  | success (data : List UInt8)
  | block
  | eos
  | error

/-- What `Write` of the connection answers. -/
inductive ConnectionReply
  | success (written : ℕ)
  | block
  | error

/-- How `flush_data` returns. -/
inductive FlushEnd
  | complete
  | streamError
  | nothingToSend
  | blocked
  | connectionClosed
  deriving DecidableEq

/-- Its name and its value. -/
abbrev HttpHeader := List UInt8 × List UInt8

/-- `HttpBase` while it sends, with the flag of the loop, and with what the connection has taken. -/
structure HttpSend where
  /-- The headers from `header_` on. -/
  headers : List HttpHeader
  document : Bool
  chunkData : Bool := false
  buffer : List UInt8
  sendRequired : Bool := false
  sent : List UInt8 := []
  /-- How the call has returned. -/
  ended : Option FlushEnd := none

/-- The size of the buffer. -/
def kBufferSize : ℕ := 32 * 1024

/-- The digits of the size of a chunk. -/
def kChunkDigits : ℕ := 8

/-- The end of a line. -/
def crlf : List UInt8 := [13, 10]

/-- `"%.*s: %.*s\r\n"`. A text that is printed ends at a byte zero. -/
def headerLine (header : HttpHeader) : List UInt8 :=
  header.1.takeWhile (· ≠ 0) ++ [58, 32] ++ header.2.takeWhile (· ≠ 0) ++ crlf

/-- `"%.*x"` -/
def chunkLength (read : ℕ) : List UInt8 :=
  (List.range kChunkDigits).reverse.map fun i => digitByte (read / 16 ^ i % 16)

/-- `queue_headers`: whether there is no room for the next header. -/
def queueHeaders : List HttpHeader → List UInt8 → Bool × List HttpHeader × List UInt8
  | [], buffer => (false, [], buffer ++ crlf.take (kBufferSize - buffer.length - 1))
  | header :: headers, buffer =>
    if buffer.length + (headerLine header).length < kBufferSize - 3 then
      queueHeaders headers (buffer ++ headerLine header)
    else if buffer = [] then queueHeaders headers buffer
    else (true, header :: headers, buffer)

namespace HttpSend

variable (s : HttpSend)

/-- Where there is room for more, headers are queued. -/
def queued : HttpSend :=
  if s.sendRequired = false ∧ s.headers ≠ [] then
    let (sendRequired, headers, buffer) := queueHeaders s.headers s.buffer
    { s with sendRequired, headers, buffer }
  else s

/-- How far into the buffer the data of the document comes, with what is behind it. -/
def reserve : ℕ := if s.chunkData then s.buffer.length + kChunkDigits + 2 + 2 else s.buffer.length

/-- Where there is still room, data of the document is queued. -/
def readDocument (reply : DocumentReply) : HttpSend :=
  if s.sendRequired = true ∨ s.document = false then s
  else if kBufferSize ≤ s.reserve then { s with sendRequired := true }
  else
    match reply with
    | .success data =>
      let data := data.take (kBufferSize - s.reserve)
      let chunk := if s.chunkData then chunkLength data.length ++ crlf ++ data ++ crlf else data
      { s with buffer := s.buffer ++ chunk }
    | .block => { s with sendRequired := true }
    | .eos =>
      if s.chunkData then
        { s with buffer := s.buffer ++ ([48] ++ crlf ++ crlf), chunkData := false, sendRequired := true }
      else if s.buffer = [] then { s with ended := some .complete }
      else { s with sendRequired := true }
    | .error => { s with ended := some .streamError }

/-- The buffer is written, and the connection replies. -/
def writeBuffer (reply : ConnectionReply) : HttpSend :=
  if s.buffer = [] then { s with ended := some (if s.document then .nothingToSend else .complete) }
  else
    match reply with
    | .success written => { s with
        buffer := s.buffer.drop written, sent := s.sent ++ s.buffer.take written, sendRequired := false }
    | .block => if s.sendRequired then { s with ended := some .blocked } else s
    | .error => { s with ended := some .connectionClosed }

/-- A round of the loop of `flush_data`. -/
def flushRound (read : DocumentReply) (write : ConnectionReply) : HttpSend :=
  if (s.queued.readDocument read).ended = none then (s.queued.readDocument read).writeBuffer write
  else s.queued.readDocument read

/-- `flush_data` after some rounds. An answer that a round does not ask for does not count. -/
def flushData (reads : ℕ → DocumentReply) (writes : ℕ → ConnectionReply) : ℕ → HttpSend
  | 0 => s
  | n + 1 =>
    if (flushData reads writes n).ended = none then
      (flushData reads writes n).flushRound (reads n) (writes n)
    else flushData reads writes n

/-! ### No byte is lost -/

/-- A header fits into an empty buffer. One that does not is left out. -/
def fits (header : HttpHeader) : Bool := (headerLine header).length < kBufferSize - 3

/-- The lines of the headers that were queued, and the empty line when there are no more. -/
def headerBytes (taken rest : List HttpHeader) : List UInt8 :=
  (taken.filter fits).flatMap headerLine ++ if taken ≠ [] ∧ rest = [] then crlf else []

/-- The document is asked for data. -/
def Asks (s : HttpSend) : Prop := s.sendRequired = false ∧ s.document = true ∧ s.reserve < kBufferSize

instance (s : HttpSend) : Decidable s.Asks := inferInstanceAs (Decidable (_ ∧ _))

/-- The bytes of the message that an answer of the document stands for. It gives no more than it was asked
for. -/
def documentBytes (s : HttpSend) : DocumentReply → List UInt8
  | .success data =>
    let data := data.take (kBufferSize - s.reserve)
    if s.chunkData then chunkLength data.length ++ crlf ++ data ++ crlf else data
  | .eos => if s.chunkData then [48] ++ crlf ++ crlf else []
  | _ => []

/-- The bytes of the document that so many rounds have been given. -/
def bodyBytes (reads : ℕ → DocumentReply) (writes : ℕ → ConnectionReply) (s : HttpSend) : ℕ → List UInt8
  | 0 => []
  | n + 1 => bodyBytes reads writes s n ++
    if (s.flushData reads writes n).ended = none ∧ (s.flushData reads writes n).queued.Asks then
      (s.flushData reads writes n).queued.documentBytes (reads n)
    else []

/-- From `s` to `t` headers and a body were queued: what was sent and what is in the buffer are what was
there before, then the headers, then the body. -/
structure Keeps (s t : HttpSend) (body : List UInt8) : Prop where
  bytes : ∃ taken, s.headers = taken ++ t.headers ∧
    t.sent ++ t.buffer = s.sent ++ s.buffer ++ headerBytes taken t.headers ++ body
  headers : body ≠ [] → t.headers = []
  document : t.document = s.document

variable {s} {t u : HttpSend} {body body' : List UInt8}

theorem headerBytes_append (taken taken' rest : List HttpHeader) :
    headerBytes taken (taken' ++ rest) ++ headerBytes taken' rest = headerBytes (taken ++ taken') rest := by
  rcases taken' with _ | ⟨header, taken'⟩
  · simp [headerBytes]
  · simp [headerBytes, List.append_assoc]

theorem Keeps.refl (s : HttpSend) : s.Keeps s [] :=
  ⟨⟨[], rfl, by simp [headerBytes]⟩, fun h => absurd rfl h, rfl⟩

theorem Keeps.trans (h : s.Keeps t body) (h' : t.Keeps u body') : s.Keeps u (body ++ body') := by
  obtain ⟨taken, htaken, hbytes⟩ := h.bytes
  obtain ⟨taken', htaken', hbytes'⟩ := h'.bytes
  have hlate : body ≠ [] → taken' = [] ∧ u.headers = [] := fun hbody =>
    List.append_eq_nil_iff.mp (htaken'.symm.trans (h.headers hbody))
  refine ⟨⟨taken ++ taken', by rw [htaken, htaken', List.append_assoc], ?_⟩, fun hbody => ?_,
    h'.document.trans h.document⟩
  · rw [hbytes', hbytes, ← headerBytes_append, htaken']
    by_cases hbody : body = []
    · rw [hbody, List.append_nil, List.nil_append, List.append_assoc _ (headerBytes taken _)]
    · have hnone : headerBytes taken' u.headers = [] := by
        rw [(hlate hbody).1]
        rfl
      simp only [hnone, List.append_nil, List.append_assoc]
  · by_cases hempty : body = []
    · rw [hempty, List.nil_append] at hbody
      exact h'.headers hbody
    · exact (hlate hempty).2

/-- What is queued is the lines of the headers that fit, behind what was there. -/
theorem queueHeaders_bytes (headers : List HttpHeader) (buffer : List UInt8) :
    ∃ taken, headers = taken ++ (queueHeaders headers buffer).2.1 ∧
      ((queueHeaders headers buffer).2.2 = buffer ++ (taken.filter fits).flatMap headerLine ++
        if (queueHeaders headers buffer).2.1 = [] then
          crlf.take (kBufferSize - (buffer ++ (taken.filter fits).flatMap headerLine).length - 1) else []) ∧
      (taken ≠ [] → (buffer ++ (taken.filter fits).flatMap headerLine).length < kBufferSize - 3) := by
  induction headers generalizing buffer with
  | nil => exact ⟨[], rfl, by simp [queueHeaders], fun h => absurd rfl h⟩
  | cons header headers ih =>
    rw [queueHeaders]
    split
    next hroom =>
      obtain ⟨taken, htaken, hbytes, hlength⟩ := ih (buffer ++ headerLine header)
      have hfits : fits header = true := decide_eq_true (lt_of_le_of_lt (Nat.le_add_left ..) hroom)
      refine ⟨header :: taken, congrArg (header :: ·) htaken, ?_, fun _ => ?_⟩
      · rw [hbytes]
        simp [hfits]
      · by_cases hnil : taken = []
        · simpa [hnil, hfits] using hroom
        · simpa [hfits] using hlength hnil
    next hroom =>
      split
      next hempty =>
        subst hempty
        obtain ⟨taken, htaken, hbytes, hlength⟩ := ih []
        have hfits : fits header = false := by
          rw [List.length_nil, Nat.zero_add] at hroom
          exact decide_eq_false hroom
        refine ⟨header :: taken, congrArg (header :: ·) htaken, ?_, fun _ => ?_⟩
        · rw [hbytes]
          simp [hfits]
        · by_cases hnil : taken = []
          · simp [hnil, hfits, kBufferSize]
          · simpa [hfits] using hlength hnil
      · exact ⟨[], rfl, by simp, fun h => absurd rfl h⟩

theorem keeps_queued (s : HttpSend) : s.Keeps s.queued [] := by
  rw [queued]
  split
  next hmore =>
    obtain ⟨taken, htaken, hbytes, hlength⟩ := queueHeaders_bytes s.headers s.buffer
    refine ⟨⟨taken, htaken, ?_⟩, fun h => absurd rfl h, rfl⟩
    change s.sent ++ (queueHeaders s.headers s.buffer).2.2 = _
    rw [hbytes, headerBytes, List.append_nil, List.append_assoc, List.append_assoc]
    refine congrArg (fun last => s.sent ++ (s.buffer ++ ((taken.filter fits).flatMap headerLine ++ last))) ?_
    by_cases hrest : (queueHeaders s.headers s.buffer).2.1 = []
    · have hne : taken ≠ [] := by
        rintro rfl
        exact hmore.2 (htaken.trans hrest)
      rw [if_pos hrest, if_pos ⟨hne, hrest⟩]
      refine List.take_of_length_le ?_
      have hroom := hlength hne
      rw [crlf, List.length_cons, List.length_singleton]
      omega
    · rw [if_neg hrest, if_neg fun h => hrest h.2]
  · exact .refl s

theorem headers_queued (h : s.queued.sendRequired = false) : s.queued.headers = [] := by
  have hqueue (headers : List HttpHeader) (buffer : List UInt8)
      (hroom : (queueHeaders headers buffer).1 = false) : (queueHeaders headers buffer).2.1 = [] := by
    induction headers generalizing buffer with
    | nil => rfl
    | cons header headers ih =>
      rw [queueHeaders] at hroom ⊢
      grind
  rw [queued] at h ⊢
  split at h
  case isTrue hheaders =>
    rw [if_pos hheaders]
    exact hqueue _ _ h
  case isFalse hheaders =>
    rw [if_neg hheaders]
    exact by_contra fun hne => hheaders ⟨h, hne⟩

theorem keeps_of_buffer {body : List UInt8} (hheaders : t.headers = s.headers) (hdocument : t.document = s.document)
    (hsent : t.sent ++ t.buffer = s.sent ++ s.buffer ++ body) (hlate : body ≠ [] → s.headers = []) :
    s.Keeps t body :=
  ⟨⟨[], hheaders.symm, by simpa [headerBytes] using hsent⟩, fun h => hheaders.trans (hlate h), hdocument⟩

theorem keeps_readDocument (hqueued : s.sendRequired = false → s.headers = []) (reply : DocumentReply) :
    s.Keeps (s.readDocument reply) (if s.Asks then s.documentBytes reply else []) := by
  by_cases hasks : s.Asks
  · obtain ⟨hrequired, hdocument, hroom⟩ := hasks
    rw [if_pos ⟨hrequired, hdocument, hroom⟩, readDocument.eq_def,
      if_neg (by simp [hrequired, hdocument]), if_neg (Nat.not_le.mpr hroom)]
    cases reply with
    | success data => exact keeps_of_buffer rfl rfl (List.append_assoc ..).symm fun _ => hqueued hrequired
    | block => exact keeps_of_buffer rfl rfl (List.append_nil _).symm fun _ => hqueued hrequired
    | eos =>
      dsimp only [documentBytes]
      split
      · exact keeps_of_buffer rfl rfl (List.append_assoc ..).symm fun _ => hqueued hrequired
      · split <;> exact keeps_of_buffer rfl rfl (List.append_nil _).symm fun _ => hqueued hrequired
    | error => exact keeps_of_buffer rfl rfl (List.append_nil _).symm fun _ => hqueued hrequired
  · rw [if_neg hasks, readDocument.eq_def]
    split
    · exact .refl s
    next hmore =>
      rw [not_or, Bool.not_eq_true, Bool.not_eq_false] at hmore
      rw [if_pos (Nat.not_lt.mp fun hroom => hasks ⟨hmore.1, hmore.2, hroom⟩)]
      exact keeps_of_buffer rfl rfl (List.append_nil _).symm fun h => absurd rfl h

theorem keeps_writeBuffer (s : HttpSend) (reply : ConnectionReply) : s.Keeps (s.writeBuffer reply) [] := by
  have hsame {t : HttpSend} (hheaders : t.headers = s.headers) (hdocument : t.document = s.document)
      (hsent : t.sent ++ t.buffer = s.sent ++ s.buffer) : s.Keeps t [] :=
    keeps_of_buffer hheaders hdocument (hsent.trans (List.append_nil _).symm) fun h => absurd rfl h
  rw [writeBuffer.eq_def]
  split
  · exact hsame rfl rfl rfl
  cases reply with
  | block =>
    dsimp only
    split <;> exact hsame rfl rfl rfl
  | success written =>
    refine hsame rfl rfl ?_
    rw [List.append_assoc, List.take_append_drop]
  | error => exact hsame rfl rfl rfl

variable (reads : ℕ → DocumentReply) (writes : ℕ → ConnectionReply)

theorem keeps_flushData (s : HttpSend) (n : ℕ) :
    s.Keeps (s.flushData reads writes n) (bodyBytes reads writes s n) := by
  induction n with
  | zero => exact .refl s
  | succ n ih =>
    rw [flushData, bodyBytes]
    generalize s.flushData reads writes n = t at ih ⊢
    have hread := t.keeps_queued.trans (keeps_readDocument headers_queued (reads n))
    by_cases hgoes : t.ended = none
    · have hround : t.Keeps (t.flushRound (reads n) (writes n))
          (if t.queued.Asks then t.queued.documentBytes (reads n) else []) := by
        rw [flushRound]
        split
        · have hwrite := hread.trans (keeps_writeBuffer _ (writes n))
          rwa [List.append_nil] at hwrite
        · exact hread
      simp only [hgoes, true_and, if_true]
      exact ih.trans hround
    · rw [if_neg hgoes, if_neg fun h => hgoes h.1, List.append_nil]
      exact ih

/-! ### While the connection blocks -/

/-- A write that blocks ends the call. -/
def Waits (s : HttpSend) : Prop :=
  s.document = true ∨ s.queued.sendRequired = true ∨ s.queued.buffer = []

theorem flushRound_of_waits {read : DocumentReply} (hread : ∀ data, read ≠ .success data) (h : s.Waits) :
    (s.flushRound read .block).ended ≠ none := by
  have hwaits (t : HttpSend) (ht : t.document = true ∨ t.sendRequired = true ∨ t.buffer = []) :
      (t.readDocument read).ended ≠ none ∨ (t.readDocument read).sendRequired = true ∨
        (t.readDocument read).buffer = [] := by
    rw [readDocument.eq_def]
    split
    · right
      grind
    split
    · exact .inr (.inl rfl)
    cases read with
    | success data => exact absurd rfl (hread data)
    | eos => grind
    | _ => simp
  have hread' := hwaits s.queued (by rwa [s.keeps_queued.document])
  rw [flushRound]
  split
  case isTrue hgoes =>
    rw [writeBuffer.eq_def]
    split
    · exact Option.some_ne_none _
    case isFalse hbuffer =>
      rw [if_pos ((hread'.resolve_left (not_not_intro hgoes)).resolve_right hbuffer)]
      exact Option.some_ne_none _
  case isFalse hends => exact hends

theorem flushRound_of_not_waits (h : ¬s.Waits) (hended : s.ended = none) (read : DocumentReply) :
    s.flushRound read .block = s.queued ∧ s.queued.ended = none ∧ ¬s.queued.Waits := by
  rw [Waits, not_or, not_or, Bool.not_eq_true, Bool.not_eq_true] at h
  obtain ⟨hdocument, hrequired, hbuffer⟩ := h
  have hdocument' : s.queued.document = false := s.keeps_queued.document.trans hdocument
  have hended' : s.queued.ended = none := by
    rw [queued]
    split <;> exact hended
  have hsame : s.queued.queued = s.queued := by
    conv_lhs => rw [queued]
    exact if_neg fun hmore => hmore.2 (headers_queued hrequired)
  have hread : s.queued.readDocument read = s.queued := by
    exact if_pos (.inr hdocument')
  refine ⟨?_, hended', ?_⟩
  · rw [flushRound, hread, if_pos hended', writeBuffer, if_neg hbuffer]
    exact if_neg (hrequired ▸ Bool.false_ne_true)
  · simp [Waits, hsame, hdocument', hrequired, hbuffer]

variable {reads writes} {n m : ℕ}

theorem flushData_of_not_waits (h : (s.flushData reads writes n).ended = none)
    (hwaits : ¬(s.flushData reads writes n).Waits) (hwrites : ∀ m, n ≤ m → writes m = .block) (hnm : n ≤ m) :
    (s.flushData reads writes m).ended = none ∧ ¬(s.flushData reads writes m).Waits := by
  induction m, hnm using Nat.le_induction with
  | base => exact ⟨h, hwaits⟩
  | succ m hnm ih =>
    obtain ⟨hround, hnext⟩ := flushRound_of_not_waits ih.2 ih.1 (reads m)
    rw [flushData, if_pos ih.1, hwrites m hnm, hround]
    exact hnext

theorem flushData_of_le (hnm : n ≤ m) (h : (s.flushData reads writes n).ended ≠ none) :
    (s.flushData reads writes m).ended ≠ none := by
  induction m, hnm using Nat.le_induction with
  | base => exact h
  | succ m hnm ih => rwa [flushData, if_neg ih]

/-- The call returns, and what was in its buffer, and what it has queued since, was sent or is still there, in
its order. -/
def FlushReturns (s : HttpSend) (reads : ℕ → DocumentReply) (writes : ℕ → ConnectionReply) : Prop :=
  ∃ n, (s.flushData reads writes n).ended ≠ none ∧
    s.Keeps (s.flushData reads writes n) (bodyBytes reads writes s n)

/-- **When `flush_data` returns.** From some round on the connection blocks, and the document gives no more
data. A call that goes on until then returns if and only if there is a document, a header that does not fit, a
full buffer, or nothing to send. -/
theorem flushReturns_iff (s : HttpSend) (reads : ℕ → DocumentReply) (writes : ℕ → ConnectionReply) (n : ℕ)
    (hreads : ∀ m, n ≤ m → ∀ data, reads m ≠ .success data) (hwrites : ∀ m, n ≤ m → writes m = .block) :
    s.FlushReturns reads writes ↔
      ((s.flushData reads writes n).ended = none → (s.flushData reads writes n).Waits) := by
  constructor
  · rintro ⟨m, hreturns, -⟩ hgoes
    by_contra hwaits
    rcases le_total m n with hle | hle
    · exact flushData_of_le hle hreturns hgoes
    · exact hreturns (flushData_of_not_waits hgoes hwaits hwrites hle).1
  · intro hwaits
    refine ⟨n + 1, ?_, keeps_flushData _ _ _ _⟩
    rw [flushData]
    split
    case isTrue hgoes =>
      rw [hwrites n le_rfl]
      exact flushRound_of_waits (hreads n le_rfl) (hwaits hgoes)
    case isFalse hends => exact hends

/-- A document that gives two bytes and is then at its end, and a connection that blocks. -/
theorem flushReturns_document :
    HttpSend.FlushReturns { headers := [([72], [97])], document := true, buffer := [71] }
      (fun m => if m = 0 then .success [104, 105] else .eos) fun _ => .block := by
  refine (flushReturns_iff _ _ _ 1 (fun m hm data => ?_) fun _ _ => rfl).mpr fun _ => .inl rfl
  rw [if_neg (Nat.one_le_iff_ne_zero.mp hm)]
  rintro ⟨⟩

/-- Without a document, the loop goes on for as long as the connection blocks. -/
theorem not_flushReturns_noDocument :
    ¬∀ (s : HttpSend) (reads : ℕ → DocumentReply) (writes : ℕ → ConnectionReply) (n : ℕ),
      (∀ m, n ≤ m → ∀ data, reads m ≠ .success data) → (∀ m, n ≤ m → writes m = .block) →
      s.FlushReturns reads writes := by
  intro h
  obtain ⟨m, hreturns, -⟩ := h { headers := [([72], [97])], document := false, buffer := [71] }
    (fun _ => .eos) (fun _ => .block) 0 (fun m _ data => by rintro ⟨⟩) (fun _ _ => rfl)
  refine hreturns (flushData_of_not_waits (n := 0) rfl ?_ (fun _ _ => rfl) (Nat.zero_le m)).1
  rintro (hno | hno | hno) <;> revert hno <;> decide

end HttpSend

end Synciga.TalkBase
