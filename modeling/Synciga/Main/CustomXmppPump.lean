import Synciga.Base.FifoBuffer

/-!
# `CustomXmppPump`

The object that copies a file into a tunnel or a tunnel into a file (`main/customxmpppump.cc`). `ProcessStream`
opens the file, `OnStreamEvent` moves data until an operation blocks or the transfer ends, and `Cleanup` closes
the stream, releases the file and, in a client, posts `MSG_DONE`.

What the stream and the file answer is an input: a handler is given the results `Io` of its calls in their
order, and is undefined where they are not those of a call that returns.

## Main definitions

* `CustomXmppPump.processStream`, `CustomXmppPump.onStreamEvent` — the handlers

## Main results

* `processStream_cases`, `onStreamEvent_ends` — how they end
-/

namespace Synciga

/-! ### Streams and files -/

/-- `StreamResult`, with what a successful call gives and the error code of a failed one. -/
inductive StreamReply (α : Type)
  | success (result : α)
  | block
  | eos
  | error (code : ℤ)
  deriving DecidableEq, Repr

/-- The result of one call on the stream or on the file. -/
inductive Io
  | streamWrite (r : StreamReply ℕ)
  | streamRead (r : StreamReply (List UInt8))
  | fileWrite (r : StreamReply ℕ)
  | fileRead (r : StreamReply (List UInt8))
  deriving DecidableEq, Repr

/-- `FileStream`, by the bytes read from it and the bytes written to it. -/
structure FileStream where
  taken : List UInt8
  put : List UInt8
  deriving DecidableEq, Repr

/-! ### The pump -/

/-- `sizeof(buffer_)`. -/
def pumpBufferSize : ℕ := 1024 * 64

/-- `CustomXmppPump`. Of `buffer_`, the first `buffer_len_` bytes. -/
structure CustomXmppPump where
  server : Bool
  sending : Bool
  file : Option FileStream
  buffer : List UInt8
  deriving DecidableEq, Repr

/-- What a handler does to others: `stream->Close()`, and `MSG_DONE` posted, delayed or not. -/
structure Actions where
  close : Bool
  post : Option Bool
  deriving DecidableEq, Repr

/-- The exits of `OnStreamEvent`. The last one is the call of a method of `file_` when it is
`NULL`. -/
inductive Exit
  | closed (error : ℤ)
  | writeBlocked
  | writeClosed
  | writeError (code : ℤ)
  | endOfFile
  | fileReadBlocked
  | fileReadError (code : ℤ)
  | readBlocked
  | readClosed
  | readError (code : ℤ)
  | fileWriteClosed
  | fileWriteBlocked
  | fileWriteError (code : ℤ)
  | idle
  | fault
  deriving DecidableEq, Repr

/-- The event or the last result ends the transfer: it is neither a blocked stream nor an event the
handler has no use for. -/
def Exit.terminating : Exit → Bool
  | .writeBlocked | .readBlocked | .idle | .fault => false
  | _ => true

/-- What a call of `OnStreamEvent` did: the bytes that the stream accepted and gave, and those read from the
file so far. -/
structure Handled where
  pump : CustomXmppPump
  exit : Exit
  sent : List UInt8
  got : List UInt8
  taken : List UInt8
  actions : Actions
  deriving DecidableEq, Repr

namespace CustomXmppPump

/-- The constructor, and `Serve` for a server. -/
def new (server : Bool) : CustomXmppPump := ⟨server, false, none, []⟩

/-- The bytes read from the file since it was opened. -/
def taken (p : CustomXmppPump) : List UInt8 := (p.file.map FileStream.taken).getD []

variable (p : CustomXmppPump)

/-- `CustomXmppPump::Cleanup`. -/
def cleanup (delay : Bool) : CustomXmppPump × Actions :=
  ({ p with file := none }, ⟨true, if p.server then none else some delay⟩)

/-- Return without `Cleanup`. -/
def stay (exit : Exit) (sent got : List UInt8) : Handled :=
  ⟨p, exit, sent, got, p.taken, ⟨false, none⟩⟩

/-- Return after `Cleanup`. -/
def leave (delay : Bool) (exit : Exit) (sent got : List UInt8) : Handled :=
  ⟨(p.cleanup delay).1, exit, sent, got, p.taken, (p.cleanup delay).2⟩

/-- Returning is possible when no result is left over. -/
def stop (io : List Io) (h : Handled) : Option Handled := if io = [] then some h else none

/-- Where the loops of `OnStreamEvent` are: in the one that fills `buffer_`, or in the one that
empties it, at `write_pos`. -/
inductive Phase
  | filling
  | emptying (writePos : ℕ)
  deriving DecidableEq, Repr

/-- The loop that sends the file. -/
def sendLoop (io : List Io) (phase : Phase) (p : CustomXmppPump) (sent : List UInt8) :
    Option Handled :=
  match io, phase, p.file with
  | .streamWrite r :: io, .emptying writePos, _ =>
    match r with
    | .success count =>
      if writePos + count ≤ p.buffer.length then
        if writePos + count < p.buffer.length then
          sendLoop io (.emptying (writePos + count)) p
            (sent ++ (p.buffer.drop writePos).take count)
        else
          sendLoop io .filling { p with buffer := [] }
            (sent ++ (p.buffer.drop writePos).take count)
      else none
    | .block => stop io ({ p with buffer := p.buffer.drop writePos }.stay .writeBlocked sent [])
    | .eos => stop io (p.leave false .writeClosed sent [])
    | .error code => stop io (p.leave false (.writeError code) sent [])
  | .fileRead r :: io, .filling, some f =>
    match r with
    | .success data =>
      if p.buffer.length + data.length ≤ pumpBufferSize then
        if p.buffer.length + data.length < pumpBufferSize then
          sendLoop io .filling { p with
            buffer := p.buffer ++ data
            file := some { f with taken := f.taken ++ data } } sent
        else
          sendLoop io (.emptying 0) { p with
            buffer := p.buffer ++ data
            file := some { f with taken := f.taken ++ data } } sent
      else none
    | .eos =>
      if p.buffer ≠ [] then sendLoop io (.emptying 0) p sent
      else stop io (p.leave true .endOfFile sent [])
    | .block => stop io (p.leave false .fileReadBlocked sent [])
    | .error code => stop io (p.leave false (.fileReadError code) sent [])
  | [], .filling, none => some (p.stay .fault sent [])
  | _, _, _ => none

/-- The loop that receives the file. -/
def recvLoop (io : List Io) (phase : Phase) (p : CustomXmppPump) (got : List UInt8) :
    Option Handled :=
  match io, phase, p.file with
  | .streamRead r :: io, .filling, _ =>
    match r with
    | .success data =>
      if p.buffer.length + data.length ≤ pumpBufferSize then
        if p.buffer.length + data.length < pumpBufferSize then
          recvLoop io .filling { p with buffer := p.buffer ++ data } (got ++ data)
        else recvLoop io (.emptying 0) { p with buffer := p.buffer ++ data } (got ++ data)
      else none
    | .block =>
      if p.buffer ≠ [] then recvLoop io (.emptying 0) p got
      else stop io (p.stay .readBlocked [] got)
    | .eos => stop io (p.leave false .readClosed [] got)
    | .error code => stop io (p.leave false (.readError code) [] got)
  | .fileWrite r :: io, .emptying writePos, some f =>
    match r with
    | .success count =>
      if writePos + count ≤ p.buffer.length then
        if writePos + count < p.buffer.length then
          recvLoop io (.emptying (writePos + count)) { p with
            file := some { f with put := f.put ++ (p.buffer.drop writePos).take count } } got
        else
          recvLoop io .filling { p with
            buffer := []
            file := some { f with put := f.put ++ (p.buffer.drop writePos).take count } } got
      else none
    | .eos => stop io (p.leave false .fileWriteClosed [] got)
    | .block => stop io (p.leave false .fileWriteBlocked [] got)
    | .error code => stop io (p.leave false (.fileWriteError code) [] got)
  | [], .emptying _, none => some (p.stay .fault [] got)
  | _, _, _ => none

/-- `OnStreamEvent`. -/
def onStreamEvent (events : StreamEvents) (error : ℤ) (io : List Io) :
    Option Handled :=
  if events.close then stop io (p.leave false (.closed error) [] [])
  else if p.sending ∧ events.write then
    if p.buffer ≠ [] then sendLoop io (.emptying 0) p [] else sendLoop io .filling p []
  else if ¬ p.sending ∧ events.read then recvLoop io .filling { p with buffer := [] } []
  else stop io (p.stay .idle [] [])

/-- What a call of `ProcessStream` did: what it returned, whether it connected to the stream, and the handler it
called. -/
structure Processed where
  pump : CustomXmppPump
  returned : Bool
  connected : Bool
  handled : Option Handled
  deriving DecidableEq, Repr

/-- The first assignments of `ProcessStream`. -/
def prepare (send : Bool) : CustomXmppPump :=
  { p with sending := send, file := some ⟨[], []⟩, buffer := [] }

/-- `ProcessStream`, with the error of `Open` and the answer of `GetState`. -/
def processStream (send : Bool) (openError : Option ℤ) (state : StreamState)
    (io : List Io) : Option Processed :=
  match openError, state with
  | some _, _ => if io = [] then some ⟨p.prepare send, false, false, none⟩ else none
  | none, .closed => if io = [] then some ⟨p.prepare send, false, true, none⟩ else none
  | none, .opening => if io = [] then some ⟨p.prepare send, true, true, none⟩ else none
  | none, .opened =>
    ((p.prepare send).onStreamEvent ⟨true, true, true, false⟩ 0 io).map fun h =>
      ⟨h.pump, true, true, some h⟩

/-- The direction and the file that the description of an incoming tunnel asks for. -/
def parseDescription (description : List Char) : Option (Bool × List Char) :=
  if ['s', 'e', 'n', 'd', ':'] <+: description then some (true, description.drop 5)
  else if ['r', 'e', 'c', 'v', ':'] <+: description then some (false, description.drop 5)
  else none

/-- Whether `OnIncomingTunnel` accepts the tunnel, and then the direction. -/
def accepts (description : List Char) : Option (Bool × List Char) :=
  if p.server = false ∨ p.file ≠ none then none else parseDescription description

/-- `OnIncomingTunnel`: nothing where it declines the tunnel. Where `ProcessStream` returns `false`,
`MSG_DONE` is posted. -/
def onIncomingTunnel (description : List Char) (openError : Option ℤ)
    (state : StreamState) (io : List Io) : Option (Option (Processed × Bool)) :=
  match p.accepts description with
  | none => if io = [] then some none else none
  | some (send, _) =>
    (p.processStream send openError state io).map fun r => some (r, !r.returned)

/-! ### Ending a transfer, or not -/

/-- The handler leaves the transfer as it was. -/
structure Stays (p : CustomXmppPump) (h : Handled) : Prop where
  terminating : h.exit.terminating = false
  exit : h.exit ≠ .fault
  actions : h.actions = ⟨false, none⟩
  server : h.pump.server = p.server
  sending : h.pump.sending = p.sending
  file : h.pump.file.isSome = p.file.isSome

/-- The handler ends the transfer. -/
structure Leaves (p : CustomXmppPump) (h : Handled) : Prop where
  terminating : h.exit.terminating = true
  actions : h.actions = ⟨true, if p.server then none else some (h.exit = .endOfFile)⟩
  server : h.pump.server = p.server
  sending : h.pump.sending = p.sending
  file : h.pump.file = none

/-- What a handler can do. The third case needs a `file_` that is `NULL`. -/
def Ends (h : Handled) : Prop :=
  Stays p h ∨ Leaves p h ∨ (p.file = none ∧ h.exit = .fault ∧ h.actions = ⟨false, none⟩)

variable {p p' : CustomXmppPump} {h : Handled}

theorem Ends.congr (hends : Ends p' h) (hserver : p'.server = p.server)
    (hsending : p'.sending = p.sending) (hfile : p'.file.isSome = p.file.isSome) : Ends p h := by
  rcases hends with hstays | hleaves | ⟨hnone, hexit, hactions⟩
  · exact .inl ⟨hstays.terminating, hstays.exit, hstays.actions, hstays.server.trans hserver,
      hstays.sending.trans hsending, hstays.file.trans hfile⟩
  · refine .inr (.inl ⟨hleaves.terminating, ?_, hleaves.server.trans hserver,
      hleaves.sending.trans hsending, hleaves.file⟩)
    rw [hleaves.actions, hserver]
  · refine .inr (.inr ⟨?_, hexit, hactions⟩)
    rw [hnone] at hfile
    exact Option.isNone_iff_eq_none.mp (by simpa using hfile.symm)

variable {io : List Io}

theorem eq_of_stop {h' : Handled} (hstop : stop io h' = some h) : h = h' := by
  rw [stop] at hstop
  split at hstop
  · exact (Option.some.inj hstop).symm
  · cases hstop

variable {exit : Exit}

theorem ends_stay {sent got : List UInt8}
    (hstop : stop io (p.stay exit sent got) = some h) (hexit : exit.terminating = false)
    (hfault : exit ≠ .fault) : Ends p h := by
  rw [eq_of_stop hstop]
  exact .inl ⟨hexit, hfault, rfl, rfl, rfl, rfl⟩

theorem ends_leave {delay : Bool} {sent got : List UInt8}
    (hstop : stop io (p.leave delay exit sent got) = some h) (hexit : exit.terminating = true)
    (hdelay : delay = decide (exit = .endOfFile)) : Ends p h := by
  rw [eq_of_stop hstop]
  refine .inr (.inl ⟨hexit, ?_, rfl, rfl, rfl⟩)
  rw [leave, cleanup, hdelay]

variable {phase : Phase}

theorem sendLoop_ends {sent : List UInt8} (hloop : sendLoop io phase p sent = some h) : Ends p h := by
  fun_induction sendLoop io phase p sent
  case case1 ih => exact ih hloop
  case case2 ih => exact (ih hloop).congr rfl rfl rfl
  case case4 => exact (ends_stay hloop rfl Exit.noConfusion).congr rfl rfl rfl
  case case5 => exact ends_leave hloop rfl rfl
  case case6 => exact ends_leave hloop rfl rfl
  case case7 f hf _ _ _ ih => exact (ih hloop).congr rfl rfl (by rw [hf]; rfl)
  case case8 f hf _ _ _ ih => exact (ih hloop).congr rfl rfl (by rw [hf]; rfl)
  case case10 ih => exact ih hloop
  case case11 => exact ends_leave hloop rfl rfl
  case case12 => exact ends_leave hloop rfl rfl
  case case13 => exact ends_leave hloop rfl rfl
  case case14 hf =>
    cases hloop
    exact .inr (.inr ⟨hf, rfl, rfl⟩)
  -- The script is not the one of a call.
  all_goals cases hloop

theorem recvLoop_ends {got : List UInt8} (hloop : recvLoop io phase p got = some h) : Ends p h := by
  fun_induction recvLoop io phase p got
  case case1 ih => exact (ih hloop).congr rfl rfl rfl
  case case2 ih => exact (ih hloop).congr rfl rfl rfl
  case case4 ih => exact ih hloop
  case case5 => exact ends_stay hloop rfl Exit.noConfusion
  case case6 => exact ends_leave hloop rfl rfl
  case case7 => exact ends_leave hloop rfl rfl
  case case8 f hf _ _ _ ih => exact (ih hloop).congr rfl rfl (by rw [hf]; rfl)
  case case9 f hf _ _ _ ih => exact (ih hloop).congr rfl rfl (by rw [hf]; rfl)
  case case11 => exact ends_leave hloop rfl rfl
  case case12 => exact ends_leave hloop rfl rfl
  case case13 => exact ends_leave hloop rfl rfl
  case case14 hf =>
    cases hloop
    exact .inr (.inr ⟨hf, rfl, rfl⟩)
  all_goals cases hloop

variable {error : ℤ} {events : StreamEvents}

theorem onStreamEvent_ends (hevent : p.onStreamEvent events error io = some h) : Ends p h := by
  rw [onStreamEvent] at hevent
  split at hevent
  · exact ends_leave hevent rfl rfl
  split at hevent
  · split at hevent
    · exact sendLoop_ends hevent
    · exact sendLoop_ends hevent
  split at hevent
  · exact (recvLoop_ends hevent).congr rfl rfl rfl
  · exact ends_stay hevent rfl Exit.noConfusion

theorem onStreamEvent_cases (hevent : p.onStreamEvent events error io = some h) (hfile : p.file.isSome) :
    Stays p h ∨ Leaves p h := by
  rcases onStreamEvent_ends hevent with hstays | hleaves | ⟨hnone, -⟩
  · exact .inl hstays
  · exact .inr hleaves
  · rw [hnone] at hfile
    cases hfile

/-! ### The bytes sent -/

/-- The bytes of `buffer_` that are still to be sent. -/
def unsent (phase : Phase) (p : CustomXmppPump) : List UInt8 :=
  match phase with
  | .filling => p.buffer
  | .emptying writePos => p.buffer.drop writePos

/-- What was sent are the first bytes read from the file; the others wait in `buffer_` if the transfer goes on,
and there are none at the end of the file. -/
def Forwards (before : List UInt8) (h : Handled) : Prop :=
  ∃ rest, before ++ h.sent ++ rest = h.taken ∧
    (h.exit.terminating = false → rest = h.pump.buffer ∧ h.taken = h.pump.taken) ∧
    (h.exit = .endOfFile → rest = [])

theorem forwards_stay {before sent got : List UInt8}
    (hstop : stop io (p.stay exit sent got) = some h) (hdata : before ++ sent ++ p.buffer = p.taken)
    (hexit : exit.terminating = false) : Forwards before h := by
  rw [eq_of_stop hstop]
  refine ⟨p.buffer, hdata, fun _ => ⟨rfl, rfl⟩, fun hend => ?_⟩
  cases hend
  cases hexit

theorem forwards_leave {delay : Bool} {before sent got rest : List UInt8}
    (hstop : stop io (p.leave delay exit sent got) = some h)
    (hdata : before ++ sent ++ rest = p.taken) (hexit : exit.terminating = true)
    (hend : exit = .endOfFile → rest = []) : Forwards before h := by
  rw [eq_of_stop hstop]
  refine ⟨rest, hdata, fun hstay => ?_, hend⟩
  rw [leave, hexit] at hstay
  cases hstay

theorem sendLoop_forwards {before sent : List UInt8}
    (hloop : sendLoop io phase p sent = some h) (hfile : p.file.isSome)
    (hdata : before ++ sent ++ unsent phase p = p.taken) : Forwards before h := by
  fun_induction sendLoop io phase p sent
  case case1 p sent io pos count _ _ ih =>
    refine ih hloop hfile ?_
    rw [← hdata, unsent, unsent, List.append_assoc, List.append_assoc, List.append_assoc,
      ← List.drop_drop, List.take_append_drop]
  case case2 p sent io pos count hle hlt ih =>
    refine ih hloop hfile ?_
    have hall : (p.buffer.drop pos).take count = p.buffer.drop pos := by
      rw [List.take_of_length_le]
      rw [List.length_drop]
      omega
    rw [hall, ← List.append_assoc]
    exact (List.append_nil _).trans hdata
  case case4 => exact forwards_stay hloop hdata rfl
  case case5 => exact forwards_leave hloop hdata rfl Exit.noConfusion
  case case6 => exact forwards_leave hloop hdata rfl Exit.noConfusion
  case case7 p sent io f hf data _ _ ih =>
    refine ih hloop rfl ?_
    rw [unsent, taken, hf] at hdata
    simp only [unsent, taken, Option.map_some, Option.getD_some] at hdata ⊢
    rw [← hdata, List.append_assoc _ p.buffer]
  case case8 p sent io f hf data _ _ ih =>
    refine ih hloop rfl ?_
    rw [unsent, taken, hf] at hdata
    simp only [unsent, taken, Option.map_some, Option.getD_some, List.drop_zero] at hdata ⊢
    rw [← hdata, List.append_assoc _ p.buffer]
  case case10 ih => exact ih hloop hfile hdata
  case case11 hnil => exact forwards_leave hloop hdata rfl (fun _ => not_not.mp hnil)
  case case12 => exact forwards_leave hloop hdata rfl Exit.noConfusion
  case case13 => exact forwards_leave hloop hdata rfl Exit.noConfusion
  case case14 hf =>
    rw [hf] at hfile
    cases hfile
  all_goals cases hloop

theorem onStreamEvent_forwards {before : List UInt8} (hevent : p.onStreamEvent events error io = some h)
    (hsending : p.sending = true) (hfile : p.file.isSome) (hdata : before ++ p.buffer = p.taken) :
    Forwards before h := by
  have hdata' : before ++ [] ++ p.buffer = p.taken := by
    rw [List.append_nil]
    exact hdata
  rw [onStreamEvent] at hevent
  split at hevent
  · exact forwards_leave hevent hdata' rfl Exit.noConfusion
  split at hevent
  · split at hevent
    · exact sendLoop_forwards hevent hfile hdata'
    · exact sendLoop_forwards hevent hfile hdata'
  split at hevent
  · next hrecv => exact absurd hsending hrecv.1
  · exact forwards_stay hevent hdata' rfl

theorem recvLoop_exit {got : List UInt8}
    (hloop : recvLoop io phase p got = some h) : h.exit ≠ .endOfFile := by
  fun_induction recvLoop io phase p got
  case case1 ih => exact ih hloop
  case case2 ih => exact ih hloop
  case case4 ih => exact ih hloop
  case case8 ih => exact ih hloop
  case case9 ih => exact ih hloop
  case case14 =>
    cases hloop
    exact Exit.noConfusion
  case case5 | case6 | case7 | case11 | case12 | case13 =>
    rw [eq_of_stop hloop]
    exact Exit.noConfusion
  all_goals cases hloop

theorem onStreamEvent_exit
    (hevent : p.onStreamEvent events error io = some h) (hsending : p.sending = false) :
    h.exit ≠ .endOfFile := by
  rw [onStreamEvent] at hevent
  split at hevent
  · rw [eq_of_stop hevent]
    exact Exit.noConfusion
  split at hevent
  · next hsend => exact absurd hsend.1 (by rw [hsending]; exact Bool.noConfusion)
  split at hevent
  · exact recvLoop_exit hevent
  · rw [eq_of_stop hevent]
    exact Exit.noConfusion

/-! ### `ProcessStream` -/

/-- A call of `ProcessStream` fails, or starts a transfer that waits for its stream, or runs the
handler. -/
theorem processStream_cases {send : Bool} {openError : Option ℤ} {state : StreamState}
    {r : Processed} (hcall : p.processStream send openError state io = some r) :
    ((openError ≠ none ∨ state = .closed) ∧ r = ⟨p.prepare send, false, openError.isNone, none⟩) ∨
      (openError = none ∧ state = .opening ∧ r = ⟨p.prepare send, true, true, none⟩) ∨
      (openError = none ∧ state = .opened ∧ ∃ h,
        (p.prepare send).onStreamEvent ⟨true, true, true, false⟩ 0 io = some h ∧
          r = ⟨h.pump, true, true, some h⟩) := by
  unfold processStream at hcall
  split at hcall
  · obtain ⟨-, hr⟩ := Option.ite_none_right_eq_some.mp hcall
    exact .inl ⟨.inl (Option.some_ne_none _), (Option.some.inj hr).symm⟩
  · obtain ⟨-, hr⟩ := Option.ite_none_right_eq_some.mp hcall
    exact .inl ⟨.inr rfl, (Option.some.inj hr).symm⟩
  · obtain ⟨-, hr⟩ := Option.ite_none_right_eq_some.mp hcall
    exact .inr (.inl ⟨rfl, rfl, (Option.some.inj hr).symm⟩)
  · obtain ⟨h, hevent, rfl⟩ := Option.map_eq_some_iff.mp hcall
    exact .inr (.inr ⟨rfl, rfl, h, hevent, rfl⟩)

end CustomXmppPump

end Synciga
