import Synciga.Internal.Runs
import Synciga.Main.CustomXmppPump

/-!
# The bytes of a transfer

A transfer begins when `ProcessStream` has opened the file, and goes on with every event of the stream until
`Cleanup`. Between two results, what is in `buffer_` is all that was read and not written. A pump that receives
writes it when the stream blocks or the buffer is full; if the stream ends instead, it is lost.

## Main definitions

* `Transfer` — a transfer, with what was read and written

## Main results

* `Transfer.sent_of_run` — what is sent is the begin of the file
* `Transfer.written_iff_of_run` — when all that was received is written
-/

namespace Synciga.CustomXmppPump

/-! ### The loops between two results -/

/-- Where a loop is, the pump, and the bytes that the stream has accepted or given in the call. -/
structure LoopState where
  phase : Phase
  pump : CustomXmppPump
  moved : List UInt8
  deriving DecidableEq

/-- The loop that sends, after one more result, if the call goes on. -/
def sendNext (s : LoopState) (r : Io) : Option LoopState :=
  match r, s.phase, s.pump.file with
  | .streamWrite (.success count), .emptying writePos, _ =>
    let moved := s.moved ++ (s.pump.buffer.drop writePos).take count
    if writePos + count ≤ s.pump.buffer.length then
      some (if writePos + count < s.pump.buffer.length then ⟨.emptying (writePos + count), s.pump, moved⟩
        else ⟨.filling, { s.pump with buffer := [] }, moved⟩)
    else none
  | .fileRead (.success data), .filling, some f =>
    let pump := { s.pump with buffer := s.pump.buffer ++ data, file := some { f with taken := f.taken ++ data } }
    if s.pump.buffer.length + data.length ≤ pumpBufferSize then
      some ⟨if s.pump.buffer.length + data.length < pumpBufferSize then .filling else .emptying 0, pump, s.moved⟩
    else none
  | .fileRead .eos, .filling, some _ =>
    if s.pump.buffer ≠ [] then some ⟨.emptying 0, s.pump, s.moved⟩ else none
  | _, _, _ => none

/-- The loop that receives, after one more result, if the call goes on. -/
def recvNext (s : LoopState) (r : Io) : Option LoopState :=
  match r, s.phase, s.pump.file with
  | .streamRead (.success data), .filling, _ =>
    let pump := { s.pump with buffer := s.pump.buffer ++ data }
    if s.pump.buffer.length + data.length ≤ pumpBufferSize then
      some ⟨if s.pump.buffer.length + data.length < pumpBufferSize then .filling else .emptying 0, pump,
        s.moved ++ data⟩
    else none
  | .streamRead .block, .filling, _ =>
    if s.pump.buffer ≠ [] then some ⟨.emptying 0, s.pump, s.moved⟩ else none
  | .fileWrite (.success count), .emptying writePos, some f =>
    let put := f.put ++ (s.pump.buffer.drop writePos).take count
    if writePos + count ≤ s.pump.buffer.length then
      some (if writePos + count < s.pump.buffer.length then
          ⟨.emptying (writePos + count), { s.pump with file := some { f with put := put } }, s.moved⟩
        else ⟨.filling, { s.pump with buffer := [], file := some { f with put := put } }, s.moved⟩)
    else none
  | _, _, _ => none

variable (p : CustomXmppPump)

/-- Where a call that sends begins. -/
def sendStart : LoopState := ⟨if p.buffer ≠ [] then .emptying 0 else .filling, p, []⟩

/-- Where a call that receives begins. -/
def recvStart : LoopState := ⟨.filling, { p with buffer := [] }, []⟩

/-- The exits where the tunnel has ended: it was closed, or it can be read no longer. -/
def tunnelEnded : Exit → Bool
  | .closed _ | .readClosed | .readError _ => true
  | _ => false

/-- The bytes written to the file since it was opened. -/
def put (p : CustomXmppPump) : List UInt8 := (p.file.map FileStream.put).getD []

/-- The bytes written to the file when a call that receives comes to its end, by its last result. -/
def writtenIn (events : StreamEvents) (io : List Io) : List UInt8 :=
  if events.close then p.put
  else match Runs.run recvNext p.recvStart io.dropLast with
    | some s => s.pump.put
    | none => p.put

/-! ### Transfers -/

/-- A call of `OnStreamEvent`, with the results of its calls. -/
structure EventCall where
  events : StreamEvents
  error : ℤ
  io : List Io
  deriving DecidableEq

/-- A transfer: the pump, and the bytes that the stream has accepted and given since it began. -/
structure Transfer where
  pump : CustomXmppPump
  sent : List UInt8
  got : List UInt8
  deriving DecidableEq

namespace Transfer

/-- What `ProcessStream` begins. -/
def start (p : CustomXmppPump) (send : Bool) : Transfer := ⟨p.prepare send, [], []⟩

/-- A call that the transfer outlasts. -/
def step (t : Transfer) (c : EventCall) : Option Transfer :=
  match t.pump.onStreamEvent c.events c.error c.io with
  | some h => if h.exit.terminating then none else some ⟨h.pump, t.sent ++ h.sent, t.got ++ h.got⟩
  | none => none

end Transfer

/-- The results of all calls. -/
def allIo (calls : List EventCall) : List Io := calls.flatMap EventCall.io

/-- The rest of a file behind a result: a piece of it that was read, or the end. -/
def readFile (rest : List UInt8) (r : Io) : Option (List UInt8) :=
  match r with
  | .fileRead (.success data) => if data <+: rest then some (rest.drop data.length) else none
  | .fileRead .eos => if rest = [] then some [] else none
  | _ => some rest

/-! ### The loop that sends -/

section Sending

variable {s s' : LoopState} {r : Io}

theorem sendNext_cases (h : sendNext s r = some s') :
    (∃ count writePos, r = .streamWrite (.success count) ∧ s.phase = .emptying writePos ∧
        writePos + count ≤ s.pump.buffer.length ∧
        s' = if writePos + count < s.pump.buffer.length then
          ⟨.emptying (writePos + count), s.pump, s.moved ++ (s.pump.buffer.drop writePos).take count⟩
        else ⟨.filling, { s.pump with buffer := [] }, s.moved ++ (s.pump.buffer.drop writePos).take count⟩) ∨
      (∃ data f, r = .fileRead (.success data) ∧ s.phase = .filling ∧ s.pump.file = some f ∧
        s.pump.buffer.length + data.length ≤ pumpBufferSize ∧
        s' = ⟨if s.pump.buffer.length + data.length < pumpBufferSize then .filling else .emptying 0,
          { s.pump with
            buffer := s.pump.buffer ++ data
            file := some { f with taken := f.taken ++ data } }, s.moved⟩) ∨
      (∃ f, r = .fileRead .eos ∧ s.phase = .filling ∧ s.pump.file = some f ∧ s.pump.buffer ≠ [] ∧
        s' = ⟨.emptying 0, s.pump, s.moved⟩) := by
  unfold sendNext at h
  split at h
  · rename_i count writePos hphase
    obtain ⟨hle, h⟩ := Option.ite_none_right_eq_some.mp h
    cases h
    exact .inl ⟨count, writePos, rfl, hphase, hle, rfl⟩
  · rename_i data f hphase hfile
    obtain ⟨hle, h⟩ := Option.ite_none_right_eq_some.mp h
    cases h
    exact .inr (.inl ⟨data, f, rfl, hphase, hfile, hle, rfl⟩)
  · rename_i f hphase hfile
    obtain ⟨hne, h⟩ := Option.ite_none_right_eq_some.mp h
    cases h
    exact .inr (.inr ⟨f, rfl, hphase, hfile, hne, rfl⟩)
  · cases h

theorem sendLoop_cons (h : sendNext s r = some s') (io : List Io) :
    sendLoop (r :: io) s.phase s.pump s.moved = sendLoop io s'.phase s'.pump s'.moved := by
  rcases sendNext_cases h with ⟨count, writePos, rfl, hphase, hle, rfl⟩ |
    ⟨data, f, rfl, hphase, hfile, hle, rfl⟩ | ⟨f, rfl, hphase, hfile, hne, rfl⟩
  · rw [sendLoop.eq_def]
    simp only [hphase, if_pos hle]
    split <;> rfl
  · rw [sendLoop.eq_def]
    simp only [hphase, hfile, if_pos hle]
    split <;> rfl
  · rw [sendLoop.eq_def]
    simp only [hphase, hfile, if_pos hne]

variable {io : List Io}

theorem of_stop {h h' : Handled} (hstop : stop io h' = some h) : io = [] ∧ h = h' := by
  obtain ⟨hio, hh⟩ := Option.ite_none_right_eq_some.mp hstop
  exact ⟨hio, (Option.some.inj hh).symm⟩

/-- How a call ends: with what was sent before, at the end of the file with nothing in `buffer_`, and else with
what was not sent. -/
structure SendEnd (s : LoopState) (r : Io) (h : Handled) : Prop where
  sent : h.sent = s.moved
  kept : h.exit.terminating = false →
    r = .streamWrite .block ∧ h.pump = { s.pump with buffer := unsent s.phase s.pump }
  eof : h.exit = .endOfFile → r = .fileRead .eos ∧ s.phase = .filling ∧ s.pump.buffer = []

theorem sendLoop_last {h : Handled} (hnext : sendNext s r = none)
    (hloop : sendLoop (r :: io) s.phase s.pump s.moved = some h) : io = [] ∧ SendEnd s r h := by
  obtain ⟨phase, p, moved⟩ := s
  rw [sendLoop.eq_def] at hloop
  dsimp only at hloop
  split at hloop
  · rename_i r' writePos _ hio
    cases hio
    cases r' <;> dsimp only at hloop
    case success count =>
      split at hloop
      · rename_i hle
        unfold sendNext at hnext
        simp only [if_pos hle] at hnext
        cases hnext
      · cases hloop
    case block =>
      obtain ⟨hio, rfl⟩ := of_stop hloop
      exact ⟨hio, rfl, fun _ => ⟨rfl, rfl⟩, Exit.noConfusion⟩
    case eos =>
      obtain ⟨hio, rfl⟩ := of_stop hloop
      exact ⟨hio, rfl, Bool.noConfusion, Exit.noConfusion⟩
    case error code =>
      obtain ⟨hio, rfl⟩ := of_stop hloop
      exact ⟨hio, rfl, Bool.noConfusion, Exit.noConfusion⟩
  · rename_i _ f hio hfile
    cases hio
    rename StreamReply (List UInt8) => r'
    cases r' <;> dsimp only at hloop
    case success data =>
      split at hloop
      · rename_i hle
        unfold sendNext at hnext
        simp only [hfile, if_pos hle] at hnext
        cases hnext
      · cases hloop
    case eos =>
      split at hloop
      · rename_i hne
        unfold sendNext at hnext
        simp only [hfile, if_pos hne] at hnext
        cases hnext
      · rename_i hne
        obtain ⟨hio, rfl⟩ := of_stop hloop
        exact ⟨hio, rfl, Bool.noConfusion, fun _ => ⟨rfl, rfl, not_not.mp hne⟩⟩
    case block =>
      obtain ⟨hio, rfl⟩ := of_stop hloop
      exact ⟨hio, rfl, Bool.noConfusion, Exit.noConfusion⟩
    case error code =>
      obtain ⟨hio, rfl⟩ := of_stop hloop
      exact ⟨hio, rfl, Bool.noConfusion, Exit.noConfusion⟩
  · rename_i hio _
    cases hio
  · cases hloop

theorem sendLoop_split {h : Handled} (hfile : s.pump.file.isSome)
    (hloop : sendLoop io s.phase s.pump s.moved = some h) :
    ∃ pre r t, io = pre ++ [r] ∧ Runs.run sendNext s pre = some t ∧ SendEnd t r h := by
  induction io generalizing s with
  | nil =>
    obtain ⟨f, hf⟩ := Option.isSome_iff_exists.mp hfile
    rw [sendLoop.eq_def] at hloop
    cases hphase : s.phase <;> simp [hphase, hf] at hloop
  | cons r io ih =>
    rcases hnext : sendNext s r with _ | s'
    · obtain ⟨rfl, hend⟩ := sendLoop_last hnext hloop
      exact ⟨[], r, s, rfl, rfl, hend⟩
    rw [sendLoop_cons hnext] at hloop
    have hfile' : s'.pump.file.isSome := by
      rcases sendNext_cases hnext with ⟨count, writePos, -, -, -, rfl⟩ | ⟨data, f, -, -, -, -, rfl⟩ |
        ⟨f, -, -, -, -, rfl⟩
      · split <;> exact hfile
      · rfl
      · exact hfile
    obtain ⟨pre, r', t, rfl, hrun, hend⟩ := ih hfile' hloop
    refine ⟨r :: pre, r', t, rfl, ?_, hend⟩
    rw [Runs.run, hnext]
    exact hrun

/-- What was sent, and what waits, is what was read of the content; the rest is still in the file. -/
structure Sending (content before : List UInt8) (s : LoopState) (rest : List UInt8) : Prop where
  data : before ++ s.moved ++ unsent s.phase s.pump = s.pump.taken
  content : s.pump.taken ++ rest = content
  file : s.pump.file.isSome
  sending : s.pump.sending = true

theorem sending_next {content before rest rest' : List UInt8} (h : Sending content before s rest)
    (hnext : sendNext s r = some s') (hread : readFile rest r = some rest') :
    Sending content before s' rest' := by
  obtain ⟨phase, p, moved⟩ := s
  obtain ⟨hdata, hcontent, hfile, hsending⟩ := h
  rcases sendNext_cases hnext with ⟨count, writePos, rfl, rfl, hle, rfl⟩ |
    ⟨data, f, rfl, rfl, hf, hle, rfl⟩ | ⟨f, rfl, rfl, hf, hne, rfl⟩
  · cases hread
    have hsplit : (p.buffer.drop writePos).take count ++ p.buffer.drop (writePos + count) =
        p.buffer.drop writePos := by
      rw [← List.drop_drop, List.take_append_drop]
    dsimp only at hle ⊢
    split
    · refine ⟨?_, hcontent, hfile, hsending⟩
      rw [← hdata, unsent, unsent, List.append_assoc, List.append_assoc, List.append_assoc, hsplit]
    rename_i hlt
    have hall : p.buffer.drop (writePos + count) = [] := by
      rw [List.drop_eq_nil_iff]
      omega
    refine ⟨?_, hcontent, hfile, hsending⟩
    rw [hall, List.append_nil] at hsplit
    dsimp only [unsent]
    rw [List.append_nil, hsplit, ← List.append_assoc]
    exact hdata
  · obtain ⟨hbegin, hrest⟩ := Option.ite_none_right_eq_some.mp hread
    cases hrest
    obtain ⟨rest', rfl⟩ := hbegin
    have htaken : p.taken = f.taken := by
      rw [taken, hf]
      rfl
    refine ⟨?_, ?_, rfl, hsending⟩
    · have hunsent : ∀ phase : Phase, phase = .filling ∨ phase = .emptying 0 →
          unsent phase { p with buffer := p.buffer ++ data, file := some { f with taken := f.taken ++ data } } =
            p.buffer ++ data := by
        rintro phase (rfl | rfl)
        · rfl
        · exact List.drop_zero
      rw [hunsent _ (by split <;> simp)]
      rw [htaken] at hdata
      dsimp only [taken, Option.map_some, Option.getD_some]
      rw [← hdata, unsent]
      simp only [List.append_assoc]
    · rw [htaken] at hcontent
      dsimp only [taken, Option.map_some, Option.getD_some]
      rw [List.drop_left, List.append_assoc, hcontent]
  · obtain ⟨hend, hrest⟩ := Option.ite_none_right_eq_some.mp hread
    cases hrest
    refine ⟨?_, by rw [← hend]; exact hcontent, hfile, hsending⟩
    exact hdata

theorem sending_run {content before rest rest' : List UInt8} (h : Sending content before s rest)
    (hrun : Runs.run sendNext s io = some s') (hread : Runs.run readFile rest io = some rest') :
    Sending content before s' rest' := by
  induction io generalizing s rest with
  | nil =>
    cases hrun
    cases hread
    exact h
  | cons r io ih =>
    obtain ⟨t, hnext, hrun⟩ := Runs.run_cons hrun
    obtain ⟨rest₁, hread₁, hread⟩ := Runs.run_cons hread
    exact ih (sending_next h hnext hread₁) hrun hread

/-! ### A transfer that sends -/

/-- Between two calls, what waits in `buffer_` is all that was read and not sent. -/
structure SendingTransfer (content : List UInt8) (t : Transfer) (rest : List UInt8) : Prop where
  data : t.sent ++ t.pump.buffer = t.pump.taken
  content : t.pump.taken ++ rest = content
  file : t.pump.file.isSome
  sending : t.pump.sending = true

theorem sendingTransfer_start (p : CustomXmppPump) (content : List UInt8) :
    SendingTransfer content (.start p true) content :=
  ⟨rfl, rfl, rfl, rfl⟩

theorem sending_start {content rest : List UInt8} {t : Transfer} (h : SendingTransfer content t rest) :
    Sending content t.sent (sendStart t.pump) rest := by
  refine ⟨?_, h.content, h.file, h.sending⟩
  have hunsent : unsent (sendStart t.pump).phase t.pump = t.pump.buffer := by
    rw [sendStart]
    by_cases hbuffer : t.pump.buffer ≠ []
    · rw [if_pos hbuffer]
      exact List.drop_zero
    · rw [if_neg hbuffer]
      rfl
  have hdata := h.data
  rw [← hunsent] at hdata
  exact (congrArg (· ++ unsent _ _) (List.append_nil _)).trans hdata

theorem onStreamEvent_sending {p : CustomXmppPump} {events : StreamEvents} {error : ℤ} {h : Handled}
    (hsending : p.sending = true) (hevent : p.onStreamEvent events error io = some h) :
    (events.close = false ∧ events.write = true ∧
        sendLoop io p.sendStart.phase p.sendStart.pump p.sendStart.moved = some h) ∨
      (io = [] ∧ h.sent = [] ∧ h.exit ≠ .endOfFile ∧ (h.exit.terminating = false → h.pump = p)) := by
  rw [onStreamEvent] at hevent
  split at hevent
  · obtain ⟨hio, rfl⟩ := of_stop hevent
    exact .inr ⟨hio, rfl, Exit.noConfusion, Bool.noConfusion⟩
  rename_i hclose
  split at hevent
  · rename_i hwrite
    refine .inl ⟨by simpa using hclose, hwrite.2, ?_⟩
    rw [sendStart]
    split at hevent
    · rename_i hbuffer
      simpa only [if_pos hbuffer] using hevent
    · rename_i hbuffer
      simpa only [if_neg hbuffer] using hevent
  split at hevent
  · rename_i hrecv
    exact absurd hsending hrecv.1
  · obtain ⟨hio, rfl⟩ := of_stop hevent
    exact .inr ⟨hio, rfl, Exit.noConfusion, fun _ => rfl⟩

theorem sent_of_call {content rest rest' : List UInt8} {t : Transfer} (hinv : SendingTransfer content t rest)
    {c : EventCall} {h : Handled} (hevent : t.pump.onStreamEvent c.events c.error c.io = some h)
    (hread : Runs.run readFile rest c.io = some rest') :
    t.sent ++ h.sent <+: content ∧ (h.exit = .endOfFile → t.sent ++ h.sent = content) ∧
      (h.exit.terminating = false → SendingTransfer content ⟨h.pump, t.sent ++ h.sent, t.got ++ h.got⟩ rest') := by
  rcases onStreamEvent_sending hinv.sending hevent with ⟨-, -, hloop⟩ | ⟨hio, hsent, hexit, hpump⟩
  · obtain ⟨pre, r, s, hio, hrun, hend⟩ := sendLoop_split hinv.file hloop
    rw [hio, Runs.run_append] at hread
    obtain ⟨rest₁, hpre, hlast⟩ := Option.bind_eq_some_iff.mp hread
    obtain ⟨rest₂, hlast, hrest⟩ := Runs.run_cons hlast
    cases hrest
    have hs := sending_run (sending_start hinv) hrun hpre
    refine ⟨?_, ?_, ?_⟩
    · rw [hend.sent, ← hs.content, ← hs.data, List.append_assoc]
      exact List.prefix_append _ _
    · intro hexit
      obtain ⟨rfl, hphase, hbuffer⟩ := hend.eof hexit
      obtain ⟨hempty, -⟩ := Option.ite_none_right_eq_some.mp hlast
      have hdata := hs.data
      rw [hphase, unsent, hbuffer, List.append_nil] at hdata
      rw [hend.sent, ← hs.content, hempty, List.append_nil, hdata]
    · intro hstay
      obtain ⟨rfl, hpump⟩ := hend.kept hstay
      cases hlast
      rw [hend.sent, hpump]
      exact ⟨hs.data, hs.content, hs.file, hs.sending⟩
  · rw [hio] at hread
    cases hread
    rw [hsent, List.append_nil]
    refine ⟨?_, fun h => absurd h hexit, ?_⟩
    · rw [← hinv.content, ← hinv.data, List.append_assoc]
      exact List.prefix_append _ _
    · intro hstay
      rw [hpump hstay]
      exact ⟨hinv.data, hinv.content, hinv.file, hinv.sending⟩

theorem sendingTransfer_run {content rest rest' : List UInt8} {t t' : Transfer} {calls : List EventCall}
    (hinv : SendingTransfer content t rest) (hrun : Runs.run Transfer.step t calls = some t')
    (hread : Runs.run readFile rest (allIo calls) = some rest') : SendingTransfer content t' rest' := by
  induction calls generalizing t rest with
  | nil =>
    cases hrun
    cases hread
    exact hinv
  | cons c calls ih =>
    obtain ⟨t₁, hstep, hrun⟩ := Runs.run_cons hrun
    rw [allIo, List.flatMap_cons, Runs.run_append] at hread
    obtain ⟨rest₁, hfirst, hread⟩ := Option.bind_eq_some_iff.mp hread
    rw [Transfer.step] at hstep
    split at hstep
    · rename_i h hevent
      split at hstep
      · cases hstep
      · rename_i hstay
        cases hstep
        exact ih ((sent_of_call hinv hevent hfirst).2.2 (by simpa using hstay)) hrun hread
    · cases hstep

/-- **What is sent is the begin of the file.** As long as the results are those of a file with that content,
what the stream has accepted is a prefix of it after each result, and all of it when a call takes the exit at
the end of the file. -/
theorem Transfer.sent_of_run {content rest : List UInt8} {p : CustomXmppPump} {calls : List EventCall}
    {t : Transfer}
    {c : EventCall} (hrun : Runs.run Transfer.step (.start p true) calls = some t)
    (hread : Runs.run readFile content (allIo calls ++ c.io) = some rest) :
    (∀ pre s, pre <+: c.io → c.events.close = false → c.events.write = true →
        Runs.run sendNext (sendStart t.pump) pre = some s → t.sent ++ s.moved <+: content) ∧
      ∀ h, t.pump.onStreamEvent c.events c.error c.io = some h →
        t.sent ++ h.sent <+: content ∧ (h.exit = .endOfFile → t.sent ++ h.sent = content) := by
  rw [Runs.run_append] at hread
  obtain ⟨rest₁, hread₁, hread⟩ := Option.bind_eq_some_iff.mp hread
  have hinv := sendingTransfer_run (sendingTransfer_start p content) hrun hread₁
  constructor
  · rintro pre s ⟨post, hio⟩ - - hpre
    rw [← hio, Runs.run_append] at hread
    obtain ⟨rest₂, hread₂, -⟩ := Option.bind_eq_some_iff.mp hread
    have hs := sending_run (sending_start hinv) hpre hread₂
    rw [← hs.content, ← hs.data, List.append_assoc]
    exact List.prefix_append _ _
  · intro h hevent
    exact ⟨(sent_of_call hinv hevent hread).1, (sent_of_call hinv hevent hread).2.1⟩

/-- A file of three bytes is read, and the stream takes two of them before it blocks. -/
def blockedCall : EventCall :=
  ⟨⟨true, true, true, false⟩, 0, [.fileRead (.success [1, 2]), .fileRead (.success [3]), .fileRead .eos,
    .streamWrite (.success 2), .streamWrite .block]⟩

/-- The stream takes the rest. -/
def resumedCall : EventCall := ⟨⟨false, false, true, false⟩, 0, [.streamWrite (.success 1), .fileRead .eos]⟩

theorem Transfer.sent_of_run_blocked :
    ∃ t, Runs.run Transfer.step (.start (.new false) true) [blockedCall] = some t ∧
      ((∀ pre s, pre <+: resumedCall.io → resumedCall.events.close = false → resumedCall.events.write = true →
          Runs.run sendNext (sendStart t.pump) pre = some s → t.sent ++ s.moved <+: [1, 2, 3]) ∧
        ∀ h, t.pump.onStreamEvent resumedCall.events resumedCall.error resumedCall.io = some h →
          t.sent ++ h.sent <+: [1, 2, 3] ∧ (h.exit = .endOfFile → t.sent ++ h.sent = [1, 2, 3])) := by
  have hread : Runs.run readFile [1, 2, 3] (allIo [blockedCall] ++ resumedCall.io) = some [] := by decide
  exact ⟨_, rfl, Transfer.sent_of_run rfl hread⟩

end Sending

/-! ### The loop that receives -/

section Receiving

variable {s s' : LoopState} {r : Io}

theorem recvNext_cases (h : recvNext s r = some s') :
    (∃ data, r = .streamRead (.success data) ∧ s.phase = .filling ∧
        s.pump.buffer.length + data.length ≤ pumpBufferSize ∧
        s' = ⟨if s.pump.buffer.length + data.length < pumpBufferSize then .filling else .emptying 0,
          { s.pump with buffer := s.pump.buffer ++ data }, s.moved ++ data⟩) ∨
      (r = .streamRead .block ∧ s.phase = .filling ∧ s.pump.buffer ≠ [] ∧ s' = ⟨.emptying 0, s.pump, s.moved⟩) ∨
      (∃ count writePos f, r = .fileWrite (.success count) ∧ s.phase = .emptying writePos ∧ s.pump.file = some f ∧
        writePos + count ≤ s.pump.buffer.length ∧
        s' = if writePos + count < s.pump.buffer.length then
          ⟨.emptying (writePos + count), { s.pump with
            file := some { f with put := f.put ++ (s.pump.buffer.drop writePos).take count } }, s.moved⟩
        else ⟨.filling, { s.pump with
            buffer := []
            file := some { f with put := f.put ++ (s.pump.buffer.drop writePos).take count } }, s.moved⟩) := by
  unfold recvNext at h
  split at h
  · rename_i data hphase
    obtain ⟨hle, h⟩ := Option.ite_none_right_eq_some.mp h
    cases h
    exact .inl ⟨data, rfl, hphase, hle, rfl⟩
  · rename_i hphase
    obtain ⟨hne, h⟩ := Option.ite_none_right_eq_some.mp h
    cases h
    exact .inr (.inl ⟨rfl, hphase, hne, rfl⟩)
  · rename_i count writePos f hphase hfile
    obtain ⟨hle, h⟩ := Option.ite_none_right_eq_some.mp h
    cases h
    exact .inr (.inr ⟨count, writePos, f, rfl, hphase, hfile, hle, rfl⟩)
  · cases h

theorem recvLoop_cons (h : recvNext s r = some s') (io : List Io) :
    recvLoop (r :: io) s.phase s.pump s.moved = recvLoop io s'.phase s'.pump s'.moved := by
  rcases recvNext_cases h with ⟨data, rfl, hphase, hle, rfl⟩ | ⟨rfl, hphase, hne, rfl⟩ |
    ⟨count, writePos, f, rfl, hphase, hfile, hle, rfl⟩
  · rw [recvLoop.eq_def]
    simp only [hphase, if_pos hle]
    split <;> rfl
  · rw [recvLoop.eq_def]
    simp only [hphase, if_pos hne]
  · rw [recvLoop.eq_def]
    simp only [hphase, hfile, if_pos hle]
    split <;> rfl

/-- How a call ends: with what was read before. It has nothing in `buffer_` if the transfer goes on, and was
filling it if the tunnel has ended. -/
structure RecvEnd (s : LoopState) (h : Handled) : Prop where
  got : h.got = s.moved
  kept : h.exit.terminating = false → s.phase = .filling ∧ s.pump.buffer = [] ∧ h.pump = s.pump
  ended : tunnelEnded h.exit = true → s.phase = .filling

variable {io : List Io}

theorem recvLoop_last {h : Handled} (hnext : recvNext s r = none)
    (hloop : recvLoop (r :: io) s.phase s.pump s.moved = some h) : io = [] ∧ RecvEnd s h := by
  obtain ⟨phase, p, moved⟩ := s
  rw [recvLoop.eq_def] at hloop
  dsimp only at hloop
  split at hloop
  · rename_i hio
    cases hio
    rename StreamReply (List UInt8) => r'
    cases r' <;> dsimp only at hloop
    case success data =>
      split at hloop
      · rename_i hle
        unfold recvNext at hnext
        simp only [if_pos hle] at hnext
        cases hnext
      · cases hloop
    case block =>
      split at hloop
      · rename_i hne
        unfold recvNext at hnext
        simp only [if_pos hne] at hnext
        cases hnext
      · rename_i hne
        obtain ⟨hio, rfl⟩ := of_stop hloop
        exact ⟨hio, rfl, fun _ => ⟨rfl, not_not.mp hne, rfl⟩, Bool.noConfusion⟩
    case eos =>
      obtain ⟨hio, rfl⟩ := of_stop hloop
      exact ⟨hio, rfl, Bool.noConfusion, fun _ => rfl⟩
    case error code =>
      obtain ⟨hio, rfl⟩ := of_stop hloop
      exact ⟨hio, rfl, Bool.noConfusion, fun _ => rfl⟩
  · rename_i writePos f hio hfile
    cases hio
    rename StreamReply ℕ => r'
    cases r' <;> dsimp only at hloop
    case success count =>
      split at hloop
      · rename_i hle
        unfold recvNext at hnext
        simp only [hfile, if_pos hle] at hnext
        cases hnext
      · cases hloop
    case eos =>
      obtain ⟨hio, rfl⟩ := of_stop hloop
      exact ⟨hio, rfl, Bool.noConfusion, Bool.noConfusion⟩
    case block =>
      obtain ⟨hio, rfl⟩ := of_stop hloop
      exact ⟨hio, rfl, Bool.noConfusion, Bool.noConfusion⟩
    case error code =>
      obtain ⟨hio, rfl⟩ := of_stop hloop
      exact ⟨hio, rfl, Bool.noConfusion, Bool.noConfusion⟩
  · rename_i hio _
    cases hio
  · cases hloop

theorem recvLoop_split {h : Handled} (hfile : s.pump.file.isSome)
    (hloop : recvLoop io s.phase s.pump s.moved = some h) :
    ∃ pre r t, io = pre ++ [r] ∧ Runs.run recvNext s pre = some t ∧ RecvEnd t h := by
  induction io generalizing s with
  | nil =>
    obtain ⟨f, hf⟩ := Option.isSome_iff_exists.mp hfile
    rw [recvLoop.eq_def] at hloop
    cases hphase : s.phase <;> simp [hphase, hf] at hloop
  | cons r io ih =>
    rcases hnext : recvNext s r with _ | s'
    · obtain ⟨rfl, hend⟩ := recvLoop_last hnext hloop
      exact ⟨[], r, s, rfl, rfl, hend⟩
    rw [recvLoop_cons hnext] at hloop
    have hfile' : s'.pump.file.isSome := by
      rcases recvNext_cases hnext with ⟨data, -, -, -, rfl⟩ | ⟨-, -, -, rfl⟩ |
        ⟨count, writePos, f, -, -, -, -, rfl⟩
      · exact hfile
      · exact hfile
      · split <;> rfl
    obtain ⟨pre, r', t, rfl, hrun, hend⟩ := ih hfile' hloop
    refine ⟨r :: pre, r', t, rfl, ?_, hend⟩
    rw [Runs.run, hnext]
    exact hrun

/-- What was written, and what waits, is what was received. -/
structure Receiving (before : List UInt8) (s : LoopState) : Prop where
  data : s.pump.put ++ unsent s.phase s.pump = before ++ s.moved
  file : s.pump.file.isSome
  sending : s.pump.sending = false

theorem receiving_next {before : List UInt8} (h : Receiving before s) (hnext : recvNext s r = some s') :
    Receiving before s' := by
  obtain ⟨phase, p, moved⟩ := s
  obtain ⟨hdata, hfile, hsending⟩ := h
  rcases recvNext_cases hnext with ⟨data, rfl, rfl, hle, rfl⟩ | ⟨rfl, rfl, hne, rfl⟩ |
    ⟨count, writePos, f, rfl, rfl, hf, hle, rfl⟩
  · refine ⟨?_, hfile, hsending⟩
    have hunsent : ∀ phase : Phase, phase = .filling ∨ phase = .emptying 0 →
        unsent phase { p with buffer := p.buffer ++ data } = p.buffer ++ data := by
      rintro phase (rfl | rfl)
      · rfl
      · exact List.drop_zero
    rw [hunsent _ (by split <;> simp), ← List.append_assoc before, ← hdata, List.append_assoc]
    rfl
  · exact ⟨hdata, hfile, hsending⟩
  have hsplit : (p.buffer.drop writePos).take count ++ p.buffer.drop (writePos + count) =
      p.buffer.drop writePos := by
    rw [← List.drop_drop, List.take_append_drop]
  have hput : p.put = f.put := by
    rw [put, hf]
    rfl
  rw [hput] at hdata
  dsimp only at hle hf ⊢
  split
  · refine ⟨?_, rfl, hsending⟩
    dsimp only [put, unsent, Option.map_some, Option.getD_some]
    rw [← hdata, List.append_assoc, hsplit, unsent]
  rename_i hlt
  have hall : p.buffer.drop (writePos + count) = [] := by
    rw [List.drop_eq_nil_iff]
    omega
  rw [hall, List.append_nil] at hsplit
  refine ⟨?_, rfl, hsending⟩
  dsimp only [put, unsent, Option.map_some, Option.getD_some]
  rw [← hdata, List.append_nil, hsplit, unsent]

theorem gathered_next (hdata : ∀ data, r = .streamRead (.success data) → data ≠ [])
    (hnext : recvNext s r = some s') (hfilling : s'.phase = .filling) :
    s'.pump.buffer = [] ↔ ∀ data, r ≠ .streamRead (.success data) := by
  rcases recvNext_cases hnext with ⟨data, rfl, -, -, rfl⟩ | ⟨rfl, -, -, rfl⟩ |
    ⟨count, writePos, f, rfl, -, -, -, rfl⟩
  · constructor
    · intro hbuffer
      exact absurd (List.append_eq_nil_iff.mp hbuffer).2 (hdata data rfl)
    · intro hne
      exact absurd rfl (hne data)
  · cases hfilling
  · split at hfilling
    · cases hfilling
    · rename_i hlt
      rw [if_neg hlt]
      exact ⟨fun _ _ => nofun, fun _ => rfl⟩

theorem receiving_run {before : List UInt8} (h : Receiving before s)
    (hrun : Runs.run recvNext s io = some s') : Receiving before s' :=
  Runs.invariant_of_step (fun _ _ _ h hnext => receiving_next h hnext) h hrun

theorem gathered_run {p : CustomXmppPump} (hdata : ∀ data, .streamRead (.success data) ∈ io → data ≠ [])
    (hrun : Runs.run recvNext p.recvStart io = some s) (hfilling : s.phase = .filling) :
    s.pump.buffer = [] ↔ ∀ data, io.getLast? ≠ some (.streamRead (.success data)) := by
  rcases List.eq_nil_or_concat io with rfl | ⟨pre, r, rfl⟩
  · cases hrun
    exact ⟨fun _ _ => nofun, fun _ => rfl⟩
  rw [List.concat_eq_append] at hrun hdata ⊢
  rw [Runs.run_append] at hrun
  obtain ⟨t, -, hlast⟩ := Option.bind_eq_some_iff.mp hrun
  obtain ⟨t', hnext, hrun⟩ := Runs.run_cons hlast
  cases hrun
  rw [gathered_next (fun data hr => hdata data (by simp [hr])) hnext hfilling]
  simp

/-! ### A transfer that receives -/

/-- Between two calls, all that was received is written. -/
structure ReceivingTransfer (t : Transfer) : Prop where
  data : t.pump.put = t.got
  file : t.pump.file.isSome
  sending : t.pump.sending = false

theorem receivingTransfer_start (p : CustomXmppPump) : ReceivingTransfer (.start p false) := ⟨rfl, rfl, rfl⟩

theorem receiving_start {t : Transfer} (h : ReceivingTransfer t) : Receiving t.got (recvStart t.pump) :=
  ⟨congrArg (· ++ []) h.data, h.file, h.sending⟩

theorem onStreamEvent_receiving {p : CustomXmppPump} {events : StreamEvents} {error : ℤ}
    {h : Handled} (hsending : p.sending = false) (hevent : p.onStreamEvent events error io = some h) :
    (events.close = false ∧ recvLoop io p.recvStart.phase p.recvStart.pump p.recvStart.moved = some h) ∨
      (io = [] ∧ h.got = [] ∧ (h.exit.terminating = false → h.pump = p) ∧
        (tunnelEnded h.exit = true → events.close = true)) := by
  rw [onStreamEvent] at hevent
  split at hevent
  · rename_i hclose
    obtain ⟨hio, rfl⟩ := of_stop hevent
    exact .inr ⟨hio, rfl, Bool.noConfusion, fun _ => hclose⟩
  rename_i hclose
  split at hevent
  · rename_i hsend
    rw [hsending] at hsend
    exact absurd hsend.1 Bool.false_ne_true
  split at hevent
  · exact .inl ⟨by simpa using hclose, hevent⟩
  · obtain ⟨hio, rfl⟩ := of_stop hevent
    exact .inr ⟨hio, rfl, fun _ => rfl, Bool.noConfusion⟩

theorem receivingTransfer_step {t t' : Transfer} {c : EventCall} (hinv : ReceivingTransfer t)
    (hstep : t.step c = some t') : ReceivingTransfer t' := by
  rw [Transfer.step] at hstep
  split at hstep
  · rename_i h hevent
    split at hstep
    · cases hstep
    rename_i hstay
    cases hstep
    have hstay' : h.exit.terminating = false := by simpa using hstay
    rcases onStreamEvent_receiving hinv.sending hevent with ⟨-, hloop⟩ | ⟨-, hgot, hpump, -⟩
    · obtain ⟨pre, r, s, -, hrun, hend⟩ := recvLoop_split (s := t.pump.recvStart) hinv.file hloop
      obtain ⟨hphase, hbuffer, hpump⟩ := hend.kept hstay'
      have hs := receiving_run (receiving_start hinv) hrun
      have hdata := hs.data
      rw [hphase, unsent, hbuffer, List.append_nil] at hdata
      rw [hend.got, hpump]
      exact ⟨hdata, hs.file, hs.sending⟩
    · rw [hgot, hpump hstay', List.append_nil]
      exact ⟨hinv.data, hinv.file, hinv.sending⟩
  · cases hstep

/-- **When all that was received is written.** Where the tunnel has ended, the file has all the bytes of the
transfer if and only if the result before the last one was not bytes of the stream. -/
theorem Transfer.written_iff_of_run {p : CustomXmppPump} {calls : List EventCall} {t : Transfer} {c : EventCall}
    {h : Handled} (hrun : Runs.run Transfer.step (.start p false) calls = some t)
    (hevent : t.pump.onStreamEvent c.events c.error c.io = some h) (hended : tunnelEnded h.exit = true)
    (hdata : ∀ data, .streamRead (.success data) ∈ c.io → data ≠ []) :
    writtenIn t.pump c.events c.io = t.got ++ h.got ↔
      ∀ data, c.io.dropLast.getLast? ≠ some (.streamRead (.success data)) := by
  have hinv : ReceivingTransfer t :=
    Runs.invariant_of_step (fun _ _ _ h hstep => receivingTransfer_step h hstep) (receivingTransfer_start p) hrun
  rcases onStreamEvent_receiving hinv.sending hevent with ⟨hclose, hloop⟩ | ⟨hio, hgot, -, hclose⟩
  · obtain ⟨pre, r, s, hio, hpre, hend⟩ := recvLoop_split (s := t.pump.recvStart) hinv.file hloop
    have hs := receiving_run (receiving_start hinv) hpre
    have hphase := hend.ended hended
    have hpreData : ∀ data, .streamRead (.success data) ∈ pre → data ≠ [] := by
      intro data hmem
      exact hdata data (by rw [hio]; exact List.mem_append_left _ hmem)
    rw [writtenIn, hclose, hio, List.dropLast_concat, ← gathered_run hpreData hpre hphase]
    simp only [Bool.false_eq_true, if_false, hpre]
    have htotal := hs.data
    rw [hphase, unsent] at htotal
    rw [hend.got, ← htotal]
    constructor
    · intro hwritten
      exact List.append_right_eq_self.mp hwritten.symm
    · intro hbuffer
      rw [hbuffer, List.append_nil]
  · rw [writtenIn, if_pos (hclose hended), hgot, hio, List.append_nil]
    exact ⟨fun _ _ => (by rintro ⟨⟩), fun _ => hinv.data⟩

/-- The stream gives two bytes, which are written, and blocks. -/
def gatheredCall : EventCall :=
  ⟨⟨true, true, true, false⟩, 0, [.streamRead (.success [1, 2]), .streamRead .block, .fileWrite (.success 2),
    .streamRead .block]⟩

/-- The stream gives bytes and has ended. -/
def droppedCall (data : List UInt8) : EventCall :=
  ⟨⟨false, true, false, false⟩, 0, [.streamRead (.success data), .streamRead .eos]⟩

theorem Transfer.written_iff_of_run_gathered :
    ∃ t h, Runs.run Transfer.step (.start (.new false) false) [gatheredCall] = some t ∧
      t.pump.onStreamEvent (droppedCall [3]).events (droppedCall [3]).error (droppedCall [3]).io = some h ∧
      (writtenIn t.pump (droppedCall [3]).events (droppedCall [3]).io = t.got ++ h.got ↔
        ∀ data, (droppedCall [3]).io.dropLast.getLast? ≠ some (.streamRead (.success data))) := by
  have hcalls : ∃ t h, Runs.run Transfer.step (.start (.new false) false) [gatheredCall] = some t ∧
      t.pump.onStreamEvent (droppedCall [3]).events (droppedCall [3]).error (droppedCall [3]).io = some h ∧
      tunnelEnded h.exit = true := ⟨_, _, rfl, rfl, rfl⟩
  obtain ⟨t, h, hrun, hevent, hended⟩ := hcalls
  refine ⟨t, h, hrun, hevent, Transfer.written_iff_of_run hrun hevent hended ?_⟩
  intro data hmem
  rcases List.mem_cons.mp hmem with heq | hmem
  · cases heq
    exact List.cons_ne_nil _ _
  · rcases List.mem_singleton.mp hmem with heq
    cases heq

/-- A byte that comes just before the end of the stream is not written. -/
theorem Transfer.not_written_dropped :
    ∃ t h, Runs.run Transfer.step (.start (.new false) false) [] = some t ∧
      t.pump.onStreamEvent (droppedCall [1]).events (droppedCall [1]).error (droppedCall [1]).io = some h ∧
      h.exit = .readClosed ∧ h.got = [1] ∧
      writtenIn t.pump (droppedCall [1]).events (droppedCall [1]).io = [] :=
  ⟨_, _, rfl, rfl, rfl, rfl, rfl⟩

end Receiving

end Synciga.CustomXmppPump
