import Mathlib.Data.List.Infix
import Synciga.Internal.Runs

/-!
# Reading behind a handshake

A `BufferedReadAdapter` (`talk/base/socketadapters.cc`), given by its `ProcessInput`, reads from its socket as
long as a handshake goes on. What the handshake leaves over is for the calls of `Recv`, which get it first; a
call that then finds no more in the socket fails, and what it had taken out is gone.

## Main results

* `lossless_iff` — when nothing is lost
* `keeps_asyncSSLSocket`, `keeps_asyncSSLServerSocket_iff` — which handshakes keep what is behind them
-/

namespace Synciga

/-! ### The adapter -/

/-- What `ProcessInput` leaves: its state, the data up to the new length, and whether it has called
`BufferInput(false)`, with the handshake done. -/
structure ProcessedInput (σ : Type) where
  state : σ
  data : List UInt8
  done : Bool := false

/-- `ProcessInput` of an adapter. -/
structure Handshake (σ : Type) where
  processInput : σ → List UInt8 → ProcessedInput σ
  shortens : ∀ state data, (processInput state data).data.length ≤ data.length

/-- An adapter with the state of its handshake. -/
structure BufferedReadAdapter (σ : Type) where
  bufferSize : ℕ
  state : σ
  buffer : List UInt8 := []
  buffering : Bool := true
  /-- What came from the socket behind the handshake. -/
  application : List UInt8 := []
  /-- What calls of `Recv` have returned. -/
  returned : List UInt8 := []
  deriving DecidableEq, Repr

/-- What happens to an adapter. The socket gives bytes, or an error. -/
inductive AdapterOp
  | readEvent (res : Option (List UInt8))
  | recv (cb : ℕ) (res : Option (List UInt8))
  /-- `BufferInput(false)`, from outside of `ProcessInput`. -/
  | handshakeOver

namespace BufferedReadAdapter

variable {σ : Type} (handshake : Handshake σ) {a a' : BufferedReadAdapter σ}

/-- The bytes that are still in the buffer when a read event comes. A buffer that is full is
emptied. -/
def held (a : BufferedReadAdapter σ) : List UInt8 := if a.bufferSize ≤ a.buffer.length then [] else a.buffer

/-- `OnReadEvent`, while input is buffered. -/
def onReadEvent (res : Option (List UInt8)) (a : BufferedReadAdapter σ) : BufferedReadAdapter σ :=
  match res with
  | none => { a with buffer := a.held }
  | some bytes =>
    let data := a.held ++ bytes
    let p := handshake.processInput a.state data
    { a with
      state := p.state
      buffer := p.data
      buffering := !p.done
      application := if p.done then data.drop (data.length - p.data.length) else a.application }

/-- How much `Recv` takes out of the buffer. -/
def taken (cb : ℕ) (a : BufferedReadAdapter σ) : ℕ := min cb a.buffer.length

/-- `Recv`, when input is not buffered. -/
def recv (cb : ℕ) (res : Option (List UInt8)) (a : BufferedReadAdapter σ) : BufferedReadAdapter σ :=
  let left := { a with buffer := a.buffer.drop (a.taken cb) }
  match res with
  | none => left
  | some bytes =>
    { left with
      application := a.application ++ bytes
      returned := a.returned ++ (a.buffer.take (a.taken cb) ++ bytes) }

/-- One operation. The socket gives no more than it is asked for, and the handshake is over once. -/
def step (a : BufferedReadAdapter σ) : AdapterOp → Option (BufferedReadAdapter σ)
  | .readEvent res =>
    if a.buffering = false then some a
    else if ∀ bytes ∈ res, a.held.length + bytes.length ≤ a.bufferSize then some (a.onReadEvent handshake res)
    else none
  | .recv cb res =>
    if a.buffering then some a
    else if ∀ bytes ∈ res, bytes.length ≤ cb - a.taken cb then some (a.recv cb res)
    else none
  | .handshakeOver => if a.buffering then some { a with buffering := false, application := a.buffer } else none

/-- The bytes that calls of `Recv` have returned are the first ones for the application, and all others are in
the buffer. -/
def Lossless (a : BufferedReadAdapter σ) : Prop := a.buffering = false → a.returned ++ a.buffer = a.application

/-- The handshake leaves what it has not consumed, and no `Recv` takes bytes out of the buffer and
gets an error from the socket. -/
def Keeps (a : BufferedReadAdapter σ) : AdapterOp → Prop
  | .readEvent (some bytes) =>
    a.buffering = true → (handshake.processInput a.state (a.held ++ bytes)).done = true →
      (handshake.processInput a.state (a.held ++ bytes)).data <:+ a.held ++ bytes
  | .recv cb none => a.buffering = false → a.taken cb = 0
  | _ => True

/-! ### One step -/

/-- No more is returned than came. -/
structure Bounded (a : BufferedReadAdapter σ) : Prop where
  fresh : a.buffering = true → a.returned = []
  length : a.buffering = false → (a.returned ++ a.buffer).length ≤ a.application.length

theorem Bounded.step (h : a.Bounded) {op : AdapterOp} (hstep : a.step handshake op = some a') : a'.Bounded := by
  cases op with
  | readEvent res =>
    rw [BufferedReadAdapter.step] at hstep
    split at hstep
    · cases hstep
      exact h
    rename_i hbuffering
    obtain ⟨-, hsome⟩ := Option.ite_none_right_eq_some.mp hstep
    have hfresh := h.fresh (eq_true_of_ne_false hbuffering)
    cases hsome
    cases res with
    | none => exact ⟨fun _ => hfresh, fun hover => absurd hover hbuffering⟩
    | some bytes =>
      refine ⟨fun _ => hfresh, fun hover => ?_⟩
      have hshort := handshake.shortens a.state (a.held ++ bytes)
      have hdone : (handshake.processInput a.state (a.held ++ bytes)).done = true := by
        cases hdone : (handshake.processInput a.state (a.held ++ bytes)).done with
        | true => rfl
        | false =>
          change (!(handshake.processInput a.state (a.held ++ bytes)).done) = false at hover
          rw [hdone] at hover
          cases hover
      rw [onReadEvent]
      dsimp only
      rw [if_pos hdone, hfresh, List.nil_append, List.length_drop]
      omega
  | recv cb res =>
    rw [BufferedReadAdapter.step] at hstep
    split at hstep
    · cases hstep
      exact h
    rename_i hbuffering
    obtain ⟨-, hsome⟩ := Option.ite_none_right_eq_some.mp hstep
    have hlength := h.length (Bool.eq_false_iff.mpr hbuffering)
    rw [List.length_append] at hlength
    cases hsome
    cases res with
    | none =>
      refine ⟨fun hback => absurd hback hbuffering, fun _ => ?_⟩
      rw [BufferedReadAdapter.recv, List.length_append, List.length_drop]
      dsimp only
      omega
    | some bytes =>
      refine ⟨fun hback => absurd hback hbuffering, fun _ => ?_⟩
      rw [BufferedReadAdapter.recv]
      simp only [List.length_append, List.length_take, List.length_drop]
      omega
  | handshakeOver =>
    obtain ⟨hbuffering, hsome⟩ := Option.ite_none_right_eq_some.mp hstep
    cases hsome
    refine ⟨fun hback => ?_, fun _ => ?_⟩
    · cases hback
    · rw [h.fresh hbuffering, List.nil_append]

/-- A `Recv` that returns bytes takes them out of the buffer, and from the socket only when the
buffer is empty. -/
theorem lossless_recv_some (hl : a.returned ++ a.buffer = a.application) {cb : ℕ} {bytes : List UInt8}
    (hsize : bytes.length ≤ cb - a.taken cb) :
    (a.recv cb (some bytes)).returned ++ (a.recv cb (some bytes)).buffer =
        (a.recv cb (some bytes)).application := by
  rw [BufferedReadAdapter.recv]
  by_cases hcb : cb ≤ a.buffer.length
  · have hnone : bytes = [] := List.length_eq_zero_iff.mp (by rw [taken] at hsize; omega)
    rw [hnone, List.append_nil, List.append_nil, List.append_assoc, List.take_append_drop, hl]
  · have hall : a.taken cb = a.buffer.length := min_eq_right (Nat.le_of_not_le hcb)
    rw [hall, List.take_length, List.drop_length, List.append_nil, ← List.append_assoc, hl]

theorem lossless_step_iff (hb : a.Bounded) (hl : a.Lossless) {op : AdapterOp}
    (hstep : a.step handshake op = some a') : a'.Lossless ↔ a.Keeps handshake op := by
  cases op with
  | readEvent res =>
    rw [BufferedReadAdapter.step] at hstep
    split at hstep
    · rename_i hover
      cases hstep
      refine iff_of_true hl ?_
      cases res with
      | none => trivial
      | some bytes => exact fun hbuffering => absurd (hbuffering.symm.trans hover) Bool.noConfusion
    rename_i hbuffering
    obtain ⟨-, hsome⟩ := Option.ite_none_right_eq_some.mp hstep
    have hbuffering := eq_true_of_ne_false hbuffering
    have hfresh := hb.fresh hbuffering
    cases hsome
    cases res with
    | none => exact iff_of_true (fun hover => absurd (hbuffering.symm.trans hover) Bool.noConfusion) trivial
    | some bytes =>
      rw [Lossless, Keeps, imp_iff_right hbuffering, List.suffix_iff_eq_drop, onReadEvent]
      rw [hfresh, List.nil_append]
      cases (handshake.processInput a.state (a.held ++ bytes)).done with
      | true => exact ⟨fun h _ => h rfl, fun h _ => h rfl⟩
      | false => exact iff_of_true (fun h => Bool.noConfusion h) fun h => Bool.noConfusion h
  | recv cb res =>
    rw [BufferedReadAdapter.step] at hstep
    split at hstep
    · rename_i hbuffering
      cases hstep
      refine iff_of_true hl ?_
      cases res with
      | none => exact fun hover => absurd (hbuffering.symm.trans hover) Bool.noConfusion
      | some bytes => trivial
    rename_i hbuffering
    obtain ⟨hsize, hsome⟩ := Option.ite_none_right_eq_some.mp hstep
    have hover := Bool.eq_false_iff.mpr hbuffering
    cases hsome
    cases res with
    | some bytes => exact iff_of_true (fun _ => lossless_recv_some (hl hover) (hsize bytes rfl)) trivial
    | none =>
      rw [Lossless, Keeps, imp_iff_right hover]
      change (a.buffering = false → a.returned ++ a.buffer.drop (a.taken cb) = a.application) ↔ _
      rw [imp_iff_right hover]
      constructor
      · intro h
        have hlength := congrArg List.length ((hl hover).trans h.symm)
        rw [List.length_append, List.length_append, List.length_drop, taken] at hlength
        rw [taken]
        omega
      · intro h
        rw [h, List.drop_zero]
        exact hl hover
  | handshakeOver =>
    obtain ⟨hbuffering, hsome⟩ := Option.ite_none_right_eq_some.mp hstep
    cases hsome
    refine iff_of_true (fun _ => ?_) trivial
    rw [hb.fresh hbuffering, List.nil_append]

/-! ### Every run -/

/-- An adapter that has begun its handshake. -/
def begin (bufferSize : ℕ) (state : σ) : BufferedReadAdapter σ := { bufferSize, state }

theorem bounded_begin (bufferSize : ℕ) (state : σ) : (begin bufferSize state).Bounded :=
  ⟨fun _ => rfl, fun _ => Nat.zero_le _⟩

/-- **Nothing is lost behind a handshake**, however the bytes come and `Recv` is called, if and only if the
handshake leaves what it has not consumed and no `Recv` takes bytes out of the buffer and then fails. -/
theorem lossless_iff (bufferSize : ℕ) (state : σ) (ops : List AdapterOp)
    (hrun : Runs.run (step handshake) (begin bufferSize state) ops = some a) :
    (∀ pre suf b, ops = pre ++ suf → Runs.run (step handshake) (begin bufferSize state) pre = some b → b.Lossless) ↔
      Runs.Admissible (step handshake) (Keeps handshake) (begin bufferSize state) ops :=
  (Runs.admissible_iff_states (I := Bounded) (fun _ _ _ h hstep => h.step handshake hstep)
    (fun _ _ _ hb hl hstep => lossless_step_iff handshake hb hl hstep) (bounded_begin bufferSize state)
    (fun h => by cases h) hrun).symm

end BufferedReadAdapter

/-! ### Handshakes that pretend to be SSL -/

/-- What the client says first. -/
def kSslClientHello : List UInt8 :=
  [0x80, 0x46, 0x01, 0x03, 0x01, 0x00, 0x2d, 0x00, 0x00, 0x00, 0x10, 0x01, 0x00, 0x80, 0x03, 0x00,
    0x80, 0x07, 0x00, 0xc0, 0x06, 0x00, 0x40, 0x02, 0x00, 0x80, 0x04, 0x00, 0x80, 0x00, 0x00, 0x04,
    0x00, 0xfe, 0xff, 0x00, 0x00, 0x0a, 0x00, 0xfe, 0xfe, 0x00, 0x00, 0x09, 0x00, 0x00, 0x64, 0x00,
    0x00, 0x62, 0x00, 0x00, 0x03, 0x00, 0x00, 0x06, 0x1f, 0x17, 0x0c, 0xa6, 0x2f, 0x00, 0x78, 0xfc,
    0x46, 0x55, 0x2e, 0xb1, 0x83, 0x39, 0xf1, 0xea]

/-- What the server answers. -/
def kSslServerHello : List UInt8 :=
  [0x16, 0x03, 0x01, 0x00, 0x4a, 0x02, 0x00, 0x00, 0x46, 0x03, 0x01, 0x42, 0x85, 0x45, 0xa7, 0x27,
    0xa9, 0x5d, 0xa0, 0xb3, 0xc5, 0xe7, 0x53, 0xda, 0x48, 0x2b, 0x3f, 0xc6, 0x5a, 0xca, 0x89, 0xc1,
    0x58, 0x52, 0xa1, 0x78, 0x3c, 0x5b, 0x17, 0x46, 0x00, 0x85, 0x3f, 0x20, 0x0e, 0xd3, 0x06, 0x72,
    0x5b, 0x5b, 0x1b, 0x5f, 0x15, 0xac, 0x13, 0xf9, 0x88, 0x53, 0x9d, 0x9b, 0xe8, 0x3d, 0x7b, 0x0c,
    0x30, 0x32, 0x6e, 0x38, 0x4d, 0xa2, 0x75, 0x57, 0x41, 0x6c, 0x34, 0x5c, 0x00, 0x04, 0x00]

/-- Where the handshake is. -/
inductive SslHandshake
  | waiting
  | done
  /-- The socket is closed. -/
  | closed
  deriving DecidableEq, Repr

/-- `AsyncSSLSocket::ProcessInput`. -/
def asyncSSLSocket : Handshake SslHandshake where
  processInput := fun state data =>
    if data.length < kSslServerHello.length then ⟨state, data, false⟩
    else if data.take kSslServerHello.length ≠ kSslServerHello then ⟨.closed, data, false⟩
    else ⟨.done, data.drop kSslServerHello.length, true⟩
  shortens := by
    intro state data
    split
    · exact le_rfl
    · split
      · exact le_rfl
      · exact (List.drop_suffix _ _).length_le

/-- `AsyncSSLServerSocket::ProcessInput`. The length is cut, and the data stays where it is. -/
def asyncSSLServerSocket : Handshake SslHandshake where
  processInput := fun state data =>
    if data.length < kSslClientHello.length then ⟨state, data, false⟩
    else if data.take kSslClientHello.length ≠ kSslClientHello then ⟨.closed, data, false⟩
    else ⟨.done, data.take (data.length - kSslClientHello.length), true⟩
  shortens := by
    intro state data
    split
    · exact le_rfl
    · split
      · exact le_rfl
      · exact List.length_take_le' _ _

theorem keeps_asyncSSLSocket (a : BufferedReadAdapter SslHandshake) (bytes : List UInt8) :
    a.Keeps asyncSSLSocket (.readEvent (some bytes)) := by
  intro _ hdone
  simp only [asyncSSLSocket] at hdone ⊢
  split at hdone
  · cases hdone
  rename_i hlong
  split at hdone
  · cases hdone
  rename_i hhello
  rw [if_neg hlong, if_neg hhello]
  exact List.drop_suffix _ _

theorem keeps_asyncSSLServerSocket_iff {a : BufferedReadAdapter SslHandshake}
    (hbuffering : a.buffering = true) {bytes rest : List UInt8}
    (hhello : a.held ++ bytes = kSslClientHello ++ rest) :
    a.Keeps asyncSSLServerSocket (.readEvent (some bytes)) ↔ rest <+: kSslClientHello ++ rest := by
  have htake : (kSslClientHello ++ rest).take kSslClientHello.length = kSslClientHello := List.take_left
  have hlong : ¬(kSslClientHello ++ rest).length < kSslClientHello.length := by
    rw [List.length_append]
    omega
  have hcut : (kSslClientHello ++ rest).length - kSslClientHello.length = rest.length := by
    rw [List.length_append, Nat.add_sub_cancel_left]
  have hprocessed : asyncSSLServerSocket.processInput a.state (a.held ++ bytes) =
      ⟨.done, (kSslClientHello ++ rest).take rest.length, true⟩ := by
    rw [hhello, ← hcut]
    simp only [asyncSSLServerSocket, if_neg hlong, htake, ne_eq, not_true_eq_false, if_false]
  rw [BufferedReadAdapter.Keeps, imp_iff_right hbuffering, hprocessed, imp_iff_right rfl, hhello,
    List.suffix_iff_eq_drop, List.prefix_iff_eq_take]
  have hlen : (kSslClientHello ++ rest).length -
      ((kSslClientHello ++ rest).take rest.length).length = kSslClientHello.length := by
    rw [List.length_take, List.length_append]
    omega
  rw [hlen, List.drop_left, eq_comm]
/-- A message in the same packet as the hello of the server, and two calls of `Recv`. -/
def twoCalls (res : Option (List UInt8)) : List AdapterOp :=
  [.readEvent (some (kSslServerHello ++ [1, 2, 3])), .recv 2 (some []), .recv 2 res]

theorem lossless_twoCalls : (∀ pre suf b, twoCalls (some [4]) = pre ++ suf →
        Runs.run (BufferedReadAdapter.step asyncSSLSocket) (.begin 1024 .waiting) pre = some b → b.Lossless) ↔
      Runs.Admissible (BufferedReadAdapter.step asyncSSLSocket) (BufferedReadAdapter.Keeps asyncSSLSocket)
        (.begin 1024 .waiting) (twoCalls (some [4])) :=
  BufferedReadAdapter.lossless_iff asyncSSLSocket 1024 .waiting (twoCalls (some [4]))
    (a := { bufferSize := 1024, state := .done, buffering := false, application := [1, 2, 3, 4],
            returned := [1, 2, 3, 4] }) (by decide +kernel)

/-- The socket has no more when the second call comes, and the third byte is gone. -/
theorem not_lossless_would_block : ¬∀ pre suf b, twoCalls none = pre ++ suf →
      Runs.run (BufferedReadAdapter.step asyncSSLSocket) (.begin 1024 .waiting) pre = some b → b.Lossless := by
  intro h
  have hlossless := h (twoCalls none) []
    { bufferSize := 1024, state := .done, buffering := false, application := [1, 2, 3], returned := [1, 2] }
    (List.append_nil _).symm (by decide +kernel) rfl
  exact absurd hlossless (by decide)

end Synciga
