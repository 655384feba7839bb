import Synciga.Internal.BigEndian
import Synciga.Internal.FrameStream
import Synciga.Internal.Runs

/-!
# `talk_base::AsyncTCPSocket`

Packets over a stream (`talk/base/asynctcpsocket.cc`), each behind its length in 16 bits. While one is not
wholly in the stream, others that are sent are dropped. The socket below takes any part of what it is given.

## Main results

* `faithful_run` — packets arrive whole and in order, if none has the greatest size
* `not_faithful_maxPacket` — one of the greatest size is framed with length zero
-/

namespace Synciga

/-- `kMaxPacketSize`. -/
def maxPacketSize : Nat := 64 * 1024

/-- `kPacketLenSize`. -/
def pktLenSize : Nat := 2

/-- `kBufSize`. -/
def bufSize : Nat := maxPacketSize + pktLenSize

/-- The bytes of a packet. -/
abbrev TcpPacket := List UInt8

/-- One end, with what is on its way. -/
structure AsyncTcpSocket where
  /-- The first `inpos_` bytes of `inbuf_`. -/
  inbuf : List UInt8
  /-- The first `outpos_` bytes of `outbuf_`. -/
  outbuf : List UInt8
  deriving DecidableEq, Repr

namespace AsyncTcpSocket

/-- `AsyncTCPSocket()`. -/
def create : AsyncTcpSocket := ⟨[], []⟩

/-- `Flush`: the socket, the bytes that go into the stream, and the result. The socket below takes `limit`
bytes, or all if there are less, or fails. -/
def flush (limit : Int) (s : AsyncTcpSocket) : AsyncTcpSocket × List UInt8 × Int :=
  let res := min limit s.outbuf.length
  if res ≤ 0 then (s, [], res)
  else ({ s with outbuf := s.outbuf.drop res.toNat }, s.outbuf.take res.toNat, res)

/-- The bytes of a packet with its length in front, of which only 16 bits are written. -/
def frame (pv : TcpPacket) : List UInt8 := BigEndian.toBytes pktLenSize pv.length ++ pv

/-- `Send`. -/
def send (pv : TcpPacket) (limit : Int) (s : AsyncTcpSocket) : AsyncTcpSocket × List UInt8 × Int :=
  if pv.length > maxPacketSize then (s, [], -1)
  -- while an earlier packet is being sent, this one is dropped
  else if s.outbuf ≠ [] then (s, [], pv.length)
  else
    let (s, bytes, res) := { s with outbuf := frame pv }.flush limit
    -- dropped too if there was no progress
    if res ≤ 0 then ({ s with outbuf := [] }, bytes, res) else (s, bytes, pv.length)

/-- `AsyncTCPSocket::OnWriteEvent`. -/
def onWriteEvent (limit : Int) (s : AsyncTcpSocket) : AsyncTcpSocket × List UInt8 :=
  if s.outbuf ≠ [] then ((s.flush limit).1, (s.flush limit).2.1) else (s, [])

/-- The number in front of a packet. -/
def pktLen (data : List UInt8) : Nat := BigEndian.ofBytes (data.take pktLenSize)

/-- `ProcessInput`: the packets that are signalled, and the bytes that are left. -/
def processInput (data : List UInt8) : List TcpPacket × List UInt8 :=
  if data.length < pktLenSize then ([], data)
  else if data.length < pktLenSize + pktLen data then ([], data)
  else
    let rest := processInput (data.drop (pktLenSize + pktLen data))
    ((data.drop pktLenSize).take (pktLen data) :: rest.1, rest.2)
  termination_by data.length
  decreasing_by
    rw [List.length_drop, pktLenSize] at *
    omega

/-- `OnReadEvent`, with what is received, or nothing if that fails: the socket, the packets that are
signalled, and whether the buffer overflows. -/
def onReadEvent (received : Option (List UInt8)) (s : AsyncTcpSocket) :
    AsyncTcpSocket × List TcpPacket × Bool :=
  match received with
  | none => (s, [], false)
  | some bytes =>
    let (packets, inbuf) := processInput (s.inbuf ++ bytes)
    if inbuf.length ≥ bufSize then ({ s with inbuf := [] }, packets, true)
    else ({ s with inbuf }, packets, false)

end AsyncTcpSocket

/-! ### Two sockets -/

/-- Two sockets, with the bytes on the way from one to the other, and what has happened. -/
structure TcpLink where
  sender : AsyncTcpSocket
  receiver : AsyncTcpSocket
  /-- The bytes that are in the stream and not yet received. -/
  wire : List UInt8
  /-- The packets that were sent. -/
  sent : List TcpPacket
  /-- Those of them whose first byte has entered the stream. -/
  entered : List TcpPacket
  /-- The number of bytes that were received. -/
  received : Nat
  /-- `SignalReadPacket`. -/
  signaled : List TcpPacket
  overflowed : Bool
  deriving DecidableEq, Repr

/-- What happens to a link: a packet is sent; the sender can write; the receiver can read, and gets so many
bytes, or an error. -/
inductive TcpOp
  | send (pv : TcpPacket) (limit : Int)
  | write (limit : Int)
  | read (count : Option Nat)
  deriving DecidableEq, Repr

namespace TcpLink

/-- The sockets are connected. -/
def init : TcpLink := ⟨.create, .create, [], [], [], 0, [], false⟩

/-- A packet is sent. -/
def send (pv : TcpPacket) (limit : Int) (l : TcpLink) : TcpLink :=
  let (sender, bytes, _) := l.sender.send pv limit
  { l with
    sender
    wire := l.wire ++ bytes
    sent := l.sent ++ [pv]
    entered := if bytes = [] then l.entered else l.entered ++ [pv] }

/-- The sender can write. -/
def write (limit : Int) (l : TcpLink) : TcpLink :=
  let (sender, bytes) := l.sender.onWriteEvent limit
  { l with sender, wire := l.wire ++ bytes }

/-- How many bytes are received, if so many are asked for. -/
def available (count : Nat) (l : TcpLink) : Nat :=
  min count (min l.wire.length (bufSize - l.receiver.inbuf.length))

/-- The receiver can read. -/
def read (count : Option Nat) (l : TcpLink) : TcpLink :=
  let n := (count.map (l.available ·)).getD 0
  let (receiver, packets, overflow) := l.receiver.onReadEvent (count.map fun _ => l.wire.take n)
  { l with
    receiver
    wire := l.wire.drop n
    received := l.received + n
    signaled := l.signaled ++ packets
    overflowed := l.overflowed || overflow }

/-- A step. Packets that `Send` rejects are not sent. -/
def step (l : TcpLink) : TcpOp → Option TcpLink
  | .send pv limit => if pv.length > maxPacketSize then none else some (l.send pv limit)
  | .write limit => some (l.write limit)
  | .read count => some (l.read count)

/-- Packets that are signalled are some of those that were sent, in order; one that has entered the stream is
signalled once its bytes have arrived; and the buffer does not overflow. -/
structure Faithful (l : TcpLink) : Prop where
  sublist : l.signaled.Sublist l.sent
  arrived : ∀ k, ((l.entered.take k).flatMap fun pv => AsyncTcpSocket.frame pv).length ≤ l.received →
    l.entered.take k <+: l.signaled
  noOverflow : l.overflowed = false

/-- A packet that goes into the stream does not have the greatest size, which 16 bits cannot hold. -/
def Fits (l : TcpLink) : TcpOp → Prop
  | .send pv limit => pv.length = maxPacketSize → l.sender.outbuf ≠ [] ∨ limit ≤ 0
  | _ => True

instance (l : TcpLink) : ∀ op, Decidable (l.Fits op)
  | .send pv limit =>
    inferInstanceAs (Decidable (pv.length = maxPacketSize → l.sender.outbuf ≠ [] ∨ limit ≤ 0))
  | .write _ => .isTrue trivial
  | .read _ => .isTrue trivial

end TcpLink

/-! ### The frames in the stream -/

namespace AsyncTcpSocket

theorem length_frame (pv : TcpPacket) : (frame pv).length = pktLenSize + pv.length := by
  rw [frame, List.length_append, BigEndian.length_toBytes]

theorem frame_ne_nil (pv : TcpPacket) : frame pv ≠ [] := by
  rw [← List.length_pos_iff, length_frame, pktLenSize]
  omega

/-- `ProcessInput` takes packets off a stream of frames. -/
def frameCode : FrameCode TcpPacket UInt8 where
  Valid pv := pv.length < maxPacketSize
  encode := frame
  next data :=
    if data.length < pktLenSize then none
    else if data.length < pktLenSize + pktLen data then none
    else some ((data.drop pktLenSize).take (pktLen data), data.drop (pktLenSize + pktLen data))
  encode_ne_nil := frame_ne_nil
  next_encode pv hpv rest := by
    have hlen : pktLen (frame pv ++ rest) = pv.length := by
      rw [pktLen, frame, List.append_assoc, List.take_left' (BigEndian.length_toBytes _ _)]
      exact BigEndian.ofBytes_toBytes hpv
    have hlong : (frame pv ++ rest).length = pktLenSize + pv.length + rest.length := by
      rw [List.length_append, length_frame]
    rw [if_neg (by omega), hlen, if_neg (by omega), Option.some.injEq, Prod.mk.injEq]
    constructor
    · rw [frame, List.append_assoc, List.drop_left' (BigEndian.length_toBytes _ _), List.take_left]
    · exact List.drop_left' (length_frame pv)
  sound l pv rest h := by
    by_cases hshort : l.length < pktLenSize
    · rw [if_pos hshort] at h
      cases h
    by_cases hpart : l.length < pktLenSize + pktLen l
    · rw [if_neg hshort, if_pos hpart] at h
      cases h
    rw [if_neg hshort, if_neg hpart, Option.some.injEq, Prod.mk.injEq] at h
    obtain ⟨hpv, hrest⟩ := h
    have htake : (l.take pktLenSize).length = pktLenSize := List.length_take_of_le (Nat.not_lt.mp hshort)
    have hlen : pv.length = pktLen l := by
      rw [← hpv, List.length_take, List.length_drop]
      omega
    constructor
    · rw [hlen]
      have hlt := BigEndian.ofBytes_lt (l.take pktLenSize)
      rw [htake] at hlt
      exact hlt
    have hhead : BigEndian.toBytes pktLenSize (pktLen l) = l.take pktLenSize := by
      have hbytes := BigEndian.toBytes_ofBytes (l.take pktLenSize)
      rw [htake] at hbytes
      exact hbytes
    rw [frame, hlen, hhead, ← hpv, ← hrest, List.append_assoc, ← List.drop_drop, List.take_append_drop,
      List.take_append_drop]

theorem processInput_eq_drain (data : List UInt8) : processInput data = frameCode.drain data := by
  induction hn : data.length using Nat.strongRecOn generalizing data with
  | _ n ih =>
    rw [processInput]
    by_cases hshort : data.length < pktLenSize
    · rw [if_pos hshort, FrameCode.drain_none (if_pos hshort)]
    by_cases hpart : data.length < pktLenSize + pktLen data
    · rw [if_neg hshort, if_pos hpart, FrameCode.drain_none ((if_neg hshort).trans (if_pos hpart))]
    have hnext : frameCode.next data =
        some ((data.drop pktLenSize).take (pktLen data), data.drop (pktLenSize + pktLen data)) :=
      (if_neg hshort).trans (if_neg hpart)
    rw [if_neg hshort, if_neg hpart, FrameCode.drain_some hnext, ih _ (hn ▸ frameCode.next_lt hnext) _ rfl]

theorem length_of_next_none {data : List UInt8} (h : frameCode.next data = none) :
    data.length < bufSize := by
  by_cases hshort : data.length < pktLenSize
  · exact Nat.lt_of_lt_of_le hshort (Nat.le_add_left _ _)
  by_cases hpart : data.length < pktLenSize + pktLen data
  · have hlt := BigEndian.ofBytes_lt (data.take pktLenSize)
    rw [List.length_take_of_le (Nat.not_lt.mp hshort)] at hlt
    change pktLen data < 65536 at hlt
    have : bufSize = 65538 := rfl
    have : pktLenSize = 2 := rfl
    omega
  · have hnext := (if_neg hshort).symm.trans h
    rw [if_neg hpart] at hnext
    cases hnext

end AsyncTcpSocket

/-! ### What arrives -/

namespace AsyncTcpSocket

variable (limit : Int)

theorem flush_outbuf (s : AsyncTcpSocket) : (s.flush limit).2.1 ++ (s.flush limit).1.outbuf = s.outbuf := by
  rw [flush]
  split
  · rfl
  · exact List.take_append_drop _ _

theorem flush_progress {s : AsyncTcpSocket} (h : s.outbuf ≠ []) :
    ((s.flush limit).2.2 ≤ 0 ↔ (s.flush limit).2.1 = []) ∧ (0 < limit ↔ (s.flush limit).2.1 ≠ []) := by
  have hpos : 0 < s.outbuf.length := List.length_pos_iff.mpr h
  rw [flush]
  split
  · rename_i hres
    exact ⟨iff_of_true hres rfl, iff_of_false (by omega) (not_not.mpr rfl)⟩
  · rename_i hres
    have hne : s.outbuf.take (min limit s.outbuf.length).toNat ≠ [] := by
      rw [← List.length_pos_iff, List.length_take]
      omega
    exact ⟨iff_of_false hres hne, iff_of_true (by omega) hne⟩

theorem onWriteEvent_outbuf (s : AsyncTcpSocket) :
    (s.onWriteEvent limit).2 ++ (s.onWriteEvent limit).1.outbuf = s.outbuf := by
  rw [onWriteEvent]
  split
  · exact flush_outbuf limit s
  · rfl

theorem send_cases {pv : TcpPacket} (hpv : pv.length ≤ maxPacketSize) (limit : Int) (s : AsyncTcpSocket) :
    ((s.send pv limit).2.1 = [] ∧ (s.send pv limit).1.outbuf = s.outbuf) ∨
      ((s.send pv limit).2.1 ≠ [] ∧ s.outbuf = [] ∧ 0 < limit ∧
        (s.send pv limit).2.1 ++ (s.send pv limit).1.outbuf = frame pv) := by
  rw [send, if_neg (Nat.not_lt.mpr hpv)]
  by_cases hout : s.outbuf ≠ []
  · rw [if_pos hout]
    exact .inl ⟨rfl, rfl⟩
  rw [if_neg hout]
  have hall := flush_outbuf limit { s with outbuf := frame pv }
  obtain ⟨hres, hlimit⟩ := flush_progress limit (s := { s with outbuf := frame pv }) (frame_ne_nil pv)
  dsimp only
  split
  · rename_i hle
    exact .inl ⟨hres.mp hle, (not_not.mp hout).symm⟩
  · rename_i hgt
    have hbytes := fun h => hgt (hres.mpr h)
    exact .inr ⟨hbytes, not_not.mp hout, hlimit.mpr hbytes, hall⟩

theorem onReadEvent_some (bytes : List UInt8) (s : AsyncTcpSocket) : s.onReadEvent (some bytes) =
      ({ s with inbuf := (frameCode.drain (s.inbuf ++ bytes)).2 }, (frameCode.drain (s.inbuf ++ bytes)).1,
        false) := by
  have hdone : frameCode.next (frameCode.drain (s.inbuf ++ bytes)).2 = none := (FrameCode.drain_spec _).2.2
  rw [onReadEvent, processInput_eq_drain]
  exact if_neg (Nat.not_le.mpr (length_of_next_none hdone))

end AsyncTcpSocket

namespace TcpLink

open AsyncTcpSocket (frameCode)

variable {l l' : TcpLink}

/-- The stream consists of the frames of the packets that have entered it; those are read of it that the
receiver can read. -/
structure Inv (l : TcpLink) (gone : List UInt8) : Prop where
  sublist : l.entered.Sublist l.sent
  valid : ∀ pv ∈ l.entered, frameCode.Valid pv
  count : gone.length = l.received
  stream : gone ++ (l.wire ++ l.sender.outbuf) = frameCode.encodeAll l.entered
  read : (l.signaled, l.receiver.inbuf) = frameCode.drain gone
  noOverflow : l.overflowed = false

theorem Inv.init : Inv init [] where
  sublist := .slnil
  valid := nofun
  count := rfl
  stream := rfl
  read := (FrameCode.drain_none rfl).symm
  noOverflow := rfl

variable {gone : List UInt8}

theorem Inv.send (h : Inv l gone) {pv : TcpPacket} (hpv : pv.length ≤ maxPacketSize)
    {limit : Int} (hfits : l.Fits (.send pv limit)) : Inv (l.send pv limit) gone := by
  rcases AsyncTcpSocket.send_cases hpv limit l.sender with ⟨hbytes, hout⟩ | ⟨hbytes, hempty, hlimit, hframe⟩
  · have hentered : (l.send pv limit).entered = l.entered := if_pos hbytes
    refine ⟨?_, ?_, h.count, ?_, h.read, h.noOverflow⟩
    · rw [hentered]
      exact h.sublist.trans (List.sublist_append_left _ _)
    · rw [hentered]
      exact h.valid
    · rw [hentered]
      change gone ++ ((l.wire ++ (l.sender.send pv limit).2.1) ++ (l.sender.send pv limit).1.outbuf) = _
      rw [hbytes, hout, List.append_nil]
      exact h.stream
  have hentered : (l.send pv limit).entered = l.entered ++ [pv] := if_neg hbytes
  refine ⟨?_, ?_, h.count, ?_, h.read, h.noOverflow⟩
  · rw [hentered]
    exact h.sublist.append (List.Sublist.refl _)
  · rw [hentered]
    intro other hother
    rcases List.mem_append.mp hother with hother | hother
    · exact h.valid other hother
    · rw [List.mem_singleton.mp hother]
      refine Nat.lt_of_le_of_ne hpv fun hmax => ?_
      rcases hfits hmax with hout | hlimit'
      · exact hout hempty
      · omega
  have hstream := h.stream
  rw [hempty, List.append_nil] at hstream
  rw [hentered, FrameCode.encodeAll_append, ← hstream]
  change gone ++ ((l.wire ++ (l.sender.send pv limit).2.1) ++ (l.sender.send pv limit).1.outbuf) = _
  rw [List.append_assoc l.wire, hframe, List.append_assoc]
  congr 2
  exact (List.append_nil _).symm

theorem Inv.write (h : Inv l gone) (limit : Int) : Inv (l.write limit) gone := by
  refine ⟨h.sublist, h.valid, h.count, ?_, h.read, h.noOverflow⟩
  rw [TcpLink.write]
  rw [List.append_assoc, AsyncTcpSocket.onWriteEvent_outbuf]
  exact h.stream

theorem Inv.receive (h : Inv l gone) (count : Option Nat) :
    ∃ gone', Inv (l.read count) gone' := by
  cases count with
  | none =>
    refine ⟨gone, h.sublist, h.valid, h.count, h.stream, ?_, ?_⟩
    · change (l.signaled ++ [], l.receiver.inbuf) = _
      rw [List.append_nil]
      exact h.read
    · exact (Bool.or_false _).trans h.noOverflow
  | some n =>
    set k := l.available n with hk
    have hread := AsyncTcpSocket.onReadEvent_some (l.wire.take k) l.receiver
    have hle : k ≤ l.wire.length := Nat.le_trans (Nat.min_le_right _ _) (Nat.min_le_left _ _)
    obtain ⟨hsignaled, hinbuf⟩ := Prod.mk.inj h.read
    refine ⟨gone ++ l.wire.take k, h.sublist, h.valid, ?_, ?_, ?_, ?_⟩
    · rw [List.length_append, List.length_take_of_le hle, h.count]
      rfl
    · change _ ++ (l.wire.drop k ++ _) = _
      rw [List.append_assoc, ← List.append_assoc (l.wire.take k), List.take_append_drop]
      exact h.stream
    · rw [TcpLink.read]
      change (l.signaled ++ (l.receiver.onReadEvent (some (l.wire.take k))).2.1,
        (l.receiver.onReadEvent (some (l.wire.take k))).1.inbuf) = _
      rw [hread, FrameCode.drain_append gone, hsignaled, hinbuf]
    · change (l.overflowed || (l.receiver.onReadEvent (some (l.wire.take k))).2.2) = false
      rw [hread, h.noOverflow]
      rfl

theorem Inv.step (h : Inv l gone) {op : TcpOp} (hfits : l.Fits op)
    (hstep : l.step op = some l') : ∃ gone', Inv l' gone' := by
  cases op with
  | send pv limit =>
    rw [TcpLink.step] at hstep
    split at hstep
    · cases hstep
    · rename_i hpv
      cases hstep
      exact ⟨gone, h.send (Nat.not_lt.mp hpv) hfits⟩
  | write limit =>
    cases hstep
    exact ⟨gone, h.write limit⟩
  | read count =>
    cases hstep
    exact h.receive count

theorem Inv.faithful (h : Inv l gone) : Faithful l := by
  have hsignaled : l.signaled = (frameCode.drain gone).1 := congrArg Prod.fst h.read
  refine ⟨?_, ?_, h.noOverflow⟩
  · rw [hsignaled]
    exact (FrameCode.drain_prefix h.valid h.stream).sublist.trans h.sublist
  · intro k hk
    rw [hsignaled]
    exact FrameCode.prefix_drain h.valid h.stream k (h.count ▸ hk)

/-- In every run in which no packet of the greatest size goes into the stream, the link is faithful. -/
theorem faithful_run {ops : List TcpOp} (hops : Runs.Admissible step Fits init ops)
    (hrun : Runs.run step init ops = some l) : Faithful l := by
  have hinv : ∃ gone, Inv l gone :=
    Runs.invariant (P := fun l => ∃ gone, Inv l gone)
      (fun _ _ _ ⟨_, hinv⟩ hfits hstep => hinv.step hfits hstep) ⟨[], .init⟩ hops hrun
  obtain ⟨gone, hinv⟩ := hinv
  exact hinv.faithful

/-- Two packets, of which the second is dropped, and a stream that gives its bytes in two parts. -/
theorem faithful_run_partial :
    Faithful (((((init.send [1, 2] 3).send [3] 9).write 9).read (some 1)).read (some 9)) := by
  have hops : Runs.Admissible step Fits init
      [.send [1, 2] 3, .send [3] 9, .write 9, .read (some 1), .read (some 9)] :=
    ⟨by decide, fun _ _ => ⟨nofun, fun _ _ => ⟨trivial, fun _ _ => ⟨trivial, fun _ _ => ⟨trivial,
      fun _ _ => trivial⟩⟩⟩⟩⟩
  exact faithful_run hops rfl

/-- A packet of the greatest size whose length has arrived: an empty packet is signalled. -/
theorem not_faithful_maxPacket : ¬ ∀ ops l, Runs.run step init ops = some l → Faithful l := by
  intro h
  obtain ⟨pv, hpv⟩ : ∃ pv : TcpPacket, pv.length = maxPacketSize := ⟨_, List.length_replicate (a := 0)⟩
  have hframe : AsyncTcpSocket.frame pv = 0 :: 0 :: pv := by
    rw [AsyncTcpSocket.frame, hpv]
    rfl
  have hflush : (⟨[], 0 :: 0 :: pv⟩ : AsyncTcpSocket).flush 2 = (⟨[], pv⟩, [0, 0], 2) := by
    have hmin : min (2 : Int) ((0 :: 0 :: pv).length : Int) = 2 := by
      rw [List.length_cons, List.length_cons]
      omega
    rw [AsyncTcpSocket.flush]
    rw [hmin]
    rfl
  have hsend : init.send pv 2 =
      { init with sender := ⟨[], pv⟩, wire := [0, 0], sent := [pv], entered := [pv] } := by
    have hsocket : AsyncTcpSocket.create.send pv 2 = (⟨[], pv⟩, [0, 0], (pv.length : Int)) := by
      rw [AsyncTcpSocket.send, if_neg (by omega), if_neg (by decide), hframe]
      simp only [AsyncTcpSocket.create, hflush]
      rfl
    rw [TcpLink.send, show init.sender = .create from rfl, hsocket]
    rfl
  have hread : ((init.send pv 2).read (some 2)).signaled = [[]] := by
    have hdrain : AsyncTcpSocket.processInput [0, 0] = ([[]], []) := by
      simp [AsyncTcpSocket.processInput, AsyncTcpSocket.pktLen, pktLenSize, BigEndian.ofBytes]
    rw [hsend]
    simp [TcpLink.read, AsyncTcpSocket.onReadEvent, available, init, AsyncTcpSocket.create, hdrain, bufSize,
      maxPacketSize, pktLenSize]
  have hfaithful := h [.send pv 2, .read (some 2)] ((init.send pv 2).read (some 2)) ?_
  · have hsub := hfaithful.sublist
    rw [hread, hsend] at hsub
    have hmem := hsub.subset (List.mem_singleton_self [])
    rw [← List.mem_singleton.mp hmem] at hpv
    cases hpv
  · change (if pv.length > maxPacketSize then none else some (init.send pv 2)).bind _ = _
    rw [hpv]
    rfl

end TcpLink

end Synciga
