import Synciga.Internal.Runs

/-!
# Writing on another thread

`AsyncWriteStream` (`talk/base/stream.cc`) appends what is written to a buffer, and posts a message to a thread
of its own, which takes the buffer under one lock and writes it under another. `Flush` and `Close` do the same
on the thread of the caller, and overtake what the thread has taken and not written.

## Main results

* `inOrder_of_run` — the stream gets the bytes in order, where they wait for the thread
* `not_inOrder_overtaken` — and not where they do not
-/

namespace Synciga.TalkBase

/-- What ends with the stream being flushed or closed. -/
inductive Ending
  | flush
  | close
  deriving DecidableEq

/-- Where the thread of the caller is, between two critical sections. -/
inductive CallerStage
  | idle
  /-- `Write` has found the buffer empty, and posts a message. -/
  | posts
  /-- `Close` clears the messages. -/
  | clears
  /-- `ClearBufferAndWrite` takes the buffer, and writes what it took. -/
  | takes (ending : Ending)
  | holds (ending : Ending) (toWrite : List UInt8)
  /-- The stream itself is flushed or closed. -/
  | ends (ending : Ending)
  deriving DecidableEq

/-- Where the write thread is. -/
inductive WriterStage
  | idle
  | takes
  | holds (toWrite : List UInt8)
  deriving DecidableEq

/-- The stream, with the stages of its thread and of the caller. -/
structure AsyncWriteStream where
  closed : Bool := false
  buffer : List UInt8 := []
  /-- The messages that were posted and not delivered. -/
  posted : ℕ := 0
  caller : CallerStage := .idle
  writer : WriterStage := .idle
  /-- What `Write` accepted, and what was passed to `WriteAll` of the stream. -/
  accepted : List UInt8 := []
  written : List UInt8 := []
  /-- What was written, and what was accepted, when the stream was flushed or closed. -/
  ended : List (List UInt8 × List UInt8) := []
  deriving DecidableEq

/-- What the thread has taken and not written. -/
def WriterStage.taken : WriterStage → List UInt8
  | .holds toWrite => toWrite
  | _ => []

/-- What the caller has taken and not written. -/
def CallerStage.taken : CallerStage → List UInt8
  | .holds _ toWrite => toWrite
  | _ => []

/-- The caller has taken the buffer, and has not returned yet. -/
def CallerStage.hasTaken : CallerStage → Bool
  | .holds .. | .ends _ => true
  | _ => false

namespace AsyncWriteStream

/-- The calls, the critical sections, and the deliveries of messages. -/
inductive Move
  | write (data : List UInt8)
  | post
  | flush
  | close
  | clear
  | take
  | writeAll
  | finish
  | deliver
  | writerTake
  | writerWriteAll
  deriving DecidableEq

/-- A call is made by a caller that is in no other call. No call is accepted by a stream that is closed. -/
def call (s t : AsyncWriteStream) : Option AsyncWriteStream :=
  if s.caller = .idle then some (if s.closed then s else t) else none

/-- Nothing is written where nothing was taken, which is the same here as writing no bytes. -/
def step (s : AsyncWriteStream) : Move → Option AsyncWriteStream
  | .write data =>
    s.call { s with
      buffer := s.buffer ++ data
      accepted := s.accepted ++ data
      caller := if s.buffer = [] then .posts else .idle }
  | .post => if s.caller = .posts then some { s with caller := .idle, posted := s.posted + 1 } else none
  | .flush => s.call { s with caller := .takes .flush }
  | .close => s.call { s with caller := .clears }
  | .clear => if s.caller = .clears then some { s with caller := .takes .close, posted := 0 } else none
  | .take =>
    match s.caller with
    | .takes ending => some { s with caller := .holds ending s.buffer, buffer := [] }
    | _ => none
  | .writeAll =>
    match s.caller with
    | .holds ending toWrite => some { s with caller := .ends ending, written := s.written ++ toWrite }
    | _ => none
  | .finish =>
    match s.caller with
    | .ends ending => some { s with
        caller := .idle
        closed := s.closed || ending = .close
        ended := (s.written, s.accepted) :: s.ended }
    | _ => none
  | .deliver =>
    if s.writer = .idle ∧ 0 < s.posted then some { s with writer := .takes, posted := s.posted - 1 }
    else none
  | .writerTake =>
    if s.writer = .takes then some { s with writer := .holds s.buffer, buffer := [] } else none
  | .writerWriteAll =>
    match s.writer with
    | .holds toWrite => some { s with writer := .idle, written := s.written ++ toWrite }
    | _ => none

/-! ### Order -/

/-- The thread of the caller does not come to the stream before what the write thread took. -/
def WaitsForWriter (s : AsyncWriteStream) : Move → Prop
  | .writeAll => s.caller.taken = [] ∨ s.writer.taken = []
  | .finish => s.writer.taken = []
  | _ => True

instance (s : AsyncWriteStream) (move : Move) : Decidable (s.WaitsForWriter move) :=
  match move with
  | .writeAll => inferInstanceAs (Decidable (_ ∨ _))
  | .finish => inferInstanceAs (Decidable (_ = _))
  | .write _ | .post | .flush | .close | .clear | .take | .deliver | .writerTake | .writerWriteAll =>
    .isTrue trivial

/-- What was accepted was written, or is held by the thread, by the caller, or in the buffer, in this order. The
caller adds nothing to the buffer before it returns. -/
structure InOrder (s : AsyncWriteStream) : Prop where
  bytes : s.written ++ s.writer.taken ++ s.caller.taken ++ s.buffer = s.accepted
  empty : s.caller.hasTaken = true → s.buffer = []
  ended : ∀ e ∈ s.ended, e.1 = e.2

variable {s t u : AsyncWriteStream} {move : Move}

theorem call_cases (h : s.call t = some u) : s.caller = .idle ∧ (u = s ∨ u = t) := by
  rw [call] at h
  split at h
  case isTrue hidle =>
    cases h
    refine ⟨hidle, ?_⟩
    split
    · exact .inl rfl
    · exact .inr rfl
  case isFalse => cases h

theorem InOrder.step (h : s.InOrder) (hwaits : s.WaitsForWriter move) (hstep : s.step move = some t) :
    t.InOrder := by
  obtain ⟨hbytes, hempty, hended⟩ := h
  cases move with
  | write data =>
    obtain ⟨hidle, rfl | rfl⟩ := call_cases hstep
    · exact ⟨hbytes, hempty, hended⟩
    have hnone (c : CallerStage) (hc : c = .posts ∨ c = .idle) : c.taken = [] ∧ c.hasTaken = false := by
      rcases hc with rfl | rfl <;> exact ⟨rfl, rfl⟩
    have hcaller := hnone (if s.buffer = [] then .posts else .idle) (ite_eq_or_eq _ _ _)
    refine ⟨?_, fun htaken => absurd htaken (hcaller.2 ▸ Bool.false_ne_true), hended⟩
    rw [hidle] at hbytes
    dsimp only
    rw [hcaller.1, ← List.append_assoc, ← hbytes]
    rfl
  | post =>
    obtain ⟨hposts, rfl⟩ := Runs.of_guard hstep
    rw [hposts] at hbytes
    exact ⟨hbytes, fun htaken => absurd htaken Bool.false_ne_true, hended⟩
  | flush =>
    obtain ⟨hidle, rfl | rfl⟩ := call_cases hstep
    · exact ⟨hbytes, hempty, hended⟩
    rw [hidle] at hbytes
    exact ⟨hbytes, fun htaken => absurd htaken Bool.false_ne_true, hended⟩
  | close =>
    obtain ⟨hidle, rfl | rfl⟩ := call_cases hstep
    · exact ⟨hbytes, hempty, hended⟩
    rw [hidle] at hbytes
    exact ⟨hbytes, fun htaken => absurd htaken Bool.false_ne_true, hended⟩
  | clear =>
    obtain ⟨hclears, rfl⟩ := Runs.of_guard hstep
    rw [hclears] at hbytes
    exact ⟨hbytes, fun htaken => absurd htaken Bool.false_ne_true, hended⟩
  | take =>
    rw [step] at hstep
    split at hstep
    · rename_i ending hcaller
      cases hstep
      rw [hcaller] at hbytes
      refine ⟨?_, fun _ => rfl, hended⟩
      simpa [CallerStage.taken] using hbytes
    · cases hstep
  | writeAll =>
    rw [step] at hstep
    split at hstep
    · rename_i ending toWrite hcaller
      cases hstep
      rw [WaitsForWriter, hcaller] at hwaits
      rw [hcaller] at hbytes hempty
      refine ⟨?_, hempty, hended⟩
      rcases hwaits with hnone | hnone <;> simp_all [CallerStage.taken]
    · cases hstep
  | finish =>
    rw [step] at hstep
    split at hstep
    · rename_i ending hcaller
      cases hstep
      rw [WaitsForWriter] at hwaits
      rw [hcaller] at hbytes hempty
      refine ⟨hbytes, fun htaken => absurd htaken Bool.false_ne_true, ?_⟩
      rintro e (_ | ⟨_, he⟩)
      · simpa [hwaits, hempty rfl, CallerStage.taken] using hbytes
      · exact hended e he
    · cases hstep
  | deliver =>
    obtain ⟨hdeliver, rfl⟩ := Runs.of_guard hstep
    rw [hdeliver.1] at hbytes
    exact ⟨hbytes, hempty, hended⟩
  | writerTake =>
    obtain ⟨htakes, rfl⟩ := Runs.of_guard hstep
    rw [htakes] at hbytes
    refine ⟨?_, fun _ => rfl, hended⟩
    -- The caller has not taken anything, or has left the buffer empty.
    cases hcaller : s.caller with
    | holds ending toWrite =>
      rw [hcaller] at hempty hbytes
      rw [hempty rfl] at hbytes
      simpa [WriterStage.taken, CallerStage.taken, hempty rfl] using hbytes
    | _ =>
      rw [hcaller] at hbytes
      simpa [WriterStage.taken, CallerStage.taken] using hbytes
  | writerWriteAll =>
    rw [step] at hstep
    split at hstep
    · rename_i toWrite hwriter
      cases hstep
      rw [hwriter] at hbytes
      refine ⟨?_, hempty, hended⟩
      simpa [WriterStage.taken] using hbytes
    · cases hstep

/-- **When nothing is lost or overtaken.** In a run where `Flush` and `Close` come to the stream only when the
write thread has written what it took. -/
theorem inOrder_of_run (closed : Bool) (moves : List Move) (s : AsyncWriteStream)
    (hrun : Runs.run step { closed := closed } moves = some s)
    (hok : Runs.Admissible step WaitsForWriter { closed := closed } moves) :
    s.written <+: s.accepted ∧ ∀ e ∈ s.ended, e.1 = e.2 := by
  have horder : s.InOrder := Runs.invariant (fun _ _ _ => InOrder.step) ⟨rfl, fun _ => rfl, by simp⟩ hok hrun
  refine ⟨?_, horder.ended⟩
  rw [← horder.bytes, List.append_assoc, List.append_assoc]
  exact List.prefix_append _ _

/-- The write thread writes the first byte, and `Close` the second. -/
theorem inOrder_twoThreads :
    ∃ s, Runs.run step {} [.write [97], .post, .deliver, .writerTake, .write [98], .post, .writerWriteAll,
        .close, .clear, .take, .writeAll, .finish] = some s ∧
      s.written <+: s.accepted ∧ ∀ e ∈ s.ended, e.1 = e.2 := by
  refine ⟨_, rfl, inOrder_of_run false [.write [97], .post, .deliver, .writerTake, .write [98], .post,
    .writerWriteAll, .close, .clear, .take, .writeAll, .finish] _ rfl ?_⟩
  decide

/-- `Flush` overtakes the write thread, which has taken the first byte. -/
theorem not_inOrder_overtaken :
    ¬∀ (moves : List Move) (s : AsyncWriteStream), Runs.run step {} moves = some s →
      s.written <+: s.accepted ∧ ∀ e ∈ s.ended, e.1 = e.2 := by
  intro h
  have hlost := h [.write [97], .post, .deliver, .writerTake, .write [98], .post, .flush, .take, .writeAll,
    .finish, .writerWriteAll] _ rfl
  exact absurd hlost.1 (by decide)

end AsyncWriteStream

end Synciga.TalkBase
