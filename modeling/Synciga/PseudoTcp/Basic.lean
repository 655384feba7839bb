import Synciga.Base.FifoBuffer
import Synciga.Base.TimeUtils
import Mathlib.Data.UInt

/-!
# `cricket::PseudoTcp`

The reliable byte stream the tunnel runs over an unreliable datagram channel (`talk/p2p/base/pseudotcp.cc`).
Every function of the class that touches the connection is here under its own name: sequence numbers, lengths
and times are `UInt32` and wrap, comparisons are the plain unsigned ones the code writes.

## The environment

What the code reads from outside is an `Env`: the successive readings of `Now()`, the successive answers of
`TcpWritePacket`, and the bytes found in memory that the code has not written yet (a fresh heap block, the
packet buffer on the stack). The state counts how far each of them has been consumed. Packets handed to
`TcpWritePacket` and calls of the other `IPseudoTcpNotify` methods are recorded in the state, latest first.

## Assertions and undefined behaviour

`ASSERT` expands to nothing in the build the README describes, so execution continues past a false assertion. An
iterator dereferenced at `m_slist.end()` has no meaning; the branch is modelled as a failed transmission. Where
the code reads outside the datagram, `parse` returns `none`. The buffer of `MAX_PACKET` bytes into which
`packet` writes is not modelled: where a segment does not fit, the source runs past its end, and the run of the
model is no run of the program.

## Main definitions

* `PseudoTcp` — the connection
* `PseudoTcp.process`, `PseudoTcp.attemptSend` — a segment that comes in, and what is sent
-/

namespace Synciga

/-! ### Constants -/

/-- `PACKET_MAXIMUMS`, ending with its zero marker. -/
def PACKET_MAXIMUMS : List UInt32 :=
  [65535, 32000, 17914, 8166, 4352, 2002, 1492, 1006, 508, 296, 0]

/-- The longest packet. -/
def MAX_PACKET : UInt32 := 65535
/-- The shortest MTU. -/
def MIN_PACKET : UInt32 := 296
/-- A header below. -/
def IP_HEADER_SIZE : UInt32 := 20
/-- A header below. -/
def UDP_HEADER_SIZE : UInt32 := 8
/-- A header below. -/
def JINGLE_HEADER_SIZE : UInt32 := 64
/-- In bytes. -/
def DEFAULT_RCV_BUF_SIZE : UInt32 := 60 * 1024
/-- In bytes. -/
def DEFAULT_SND_BUF_SIZE : UInt32 := 90 * 1024
/-- The header of a packet. -/
def HEADER_SIZE : UInt32 := 24
/-- All headers. -/
def PACKET_OVERHEAD : UInt32 :=
  HEADER_SIZE + UDP_HEADER_SIZE + IP_HEADER_SIZE + JINGLE_HEADER_SIZE
/-- In milliseconds. -/
def MIN_RTO : UInt32 := 250
/-- In milliseconds. -/
def DEF_RTO : UInt32 := 3000
/-- In milliseconds. -/
def MAX_RTO : UInt32 := 60000
/-- In milliseconds. -/
def DEF_ACK_DELAY : UInt32 := 100
/-- A control segment. -/
def FLAG_CTL : UInt8 := 0x02
/-- A reset. -/
def FLAG_RST : UInt8 := 0x04
/-- A connect message. -/
def CTL_CONNECT : UInt8 := 0
/-- The end of the options. -/
def TCP_OPT_EOL : UInt8 := 0
/-- An option that does nothing. -/
def TCP_OPT_NOOP : UInt8 := 1
/-- The option for the scale factor. -/
def TCP_OPT_WND_SCALE : UInt8 := 3
/-- In milliseconds. -/
def DEFAULT_TIMEOUT : ℤ := 4000
/-- In milliseconds. -/
def CLOSED_TIMEOUT : ℤ := 60 * 1000

/-! ### Types -/

/-- The enumeration `TcpState`. -/
inductive TcpState
  | listen
  | synSent
  | synReceived
  | established
  | closed
  deriving DecidableEq, Repr

/-- The enumeration `Shutdown`. -/
inductive Shutdown
  | none
  | graceful
  | forceful
  deriving DecidableEq, Repr

/-- The enumeration `SendFlags`. -/
inductive SendFlags
  | none
  | delayedAck
  | immediateAck
  deriving DecidableEq, Repr

/-- `PseudoTcp::Option`. -/
inductive TcpOption
  | nodelay
  | ackdelay
  | rcvbuf
  | sndbuf
  deriving DecidableEq, Repr

/-- The enumeration `WriteResult`. -/
inductive WriteResult
  | success
  | tooLarge
  | fail
  deriving DecidableEq, Repr

/-- The `errno` values the class stores or reports. -/
inductive ErrorCode
  | ok
  | einval
  | enotconn
  | ewouldblock
  | econnaborted
  | econnreset
  deriving DecidableEq, Repr

/-- The calls of `IPseudoTcpNotify` other than `TcpWritePacket`. -/
inductive Notification
  | onTcpOpen
  | onTcpReadable
  | onTcpWriteable
  | onTcpClosed (error : ErrorCode)
  deriving DecidableEq, Repr

/-- `PseudoTcp::Segment`; `len` is the length of `data`. -/
structure Segment where
  conv : UInt32
  seq : UInt32
  ack : UInt32
  flags : UInt8
  wnd : UInt16
  data : List UInt8
  tsval : UInt32
  tsecr : UInt32
  deriving DecidableEq, Repr

/-- The length of its data. -/
def Segment.len (seg : Segment) : UInt32 := UInt32.ofNat seg.data.length

/-- The class `SSegment`. -/
structure SSegment where
  seq : UInt32
  len : UInt32
  xmit : UInt8
  bCtrl : Bool
  deriving DecidableEq, Repr

/-- The constructor of `SSegment`. -/
def SSegment.new (seq len : UInt32) (bCtrl : Bool) : SSegment := ⟨seq, len, 0, bCtrl⟩

/-- The class `RSegment`. -/
structure RSegment where
  seq : UInt32
  len : UInt32
  deriving DecidableEq, Repr

/-- What the connection reads from outside. -/
structure Env where
  /-- The successive readings of `Now()`. -/
  clock : ℕ → UInt32
  /-- The successive answers of `TcpWritePacket`. -/
  writeResult : ℕ → WriteResult
  /-- The contents of the successive heap blocks, before they are written. -/
  heap : ℕ → ℕ → UInt8
  /-- The contents of the packet buffer, before it is written. -/
  stack : ℕ → ℕ → UInt8

/-- The class `PseudoTcp`. -/
structure PseudoTcp where
  shutdown : Shutdown
  error : ErrorCode
  state : TcpState
  conv : UInt32
  bReadEnable : Bool
  bWriteEnable : Bool
  bOutgoing : Bool
  lasttraffic : UInt32
  rlist : List RSegment
  rbufLen : UInt32
  rcvNxt : UInt32
  rcvWnd : UInt32
  lastrecv : UInt32
  rwndScale : UInt8
  rbuf : FifoBuffer
  slist : List SSegment
  sbufLen : UInt32
  sndNxt : UInt32
  sndWnd : UInt32
  lastsend : UInt32
  sndUna : UInt32
  swndScale : UInt8
  sbuf : FifoBuffer
  mss : UInt32
  msslevel : ℕ
  largest : UInt32
  mtuAdvise : UInt32
  rtoBase : UInt32
  tsRecent : UInt32
  tsLastack : UInt32
  rxRttvar : UInt32
  rxSrtt : UInt32
  rxRto : UInt32
  ssthresh : UInt32
  cwnd : UInt32
  dupAcks : UInt8
  recover : UInt32
  tAck : UInt32
  useNagling : Bool
  ackDelay : UInt32
  supportWndScale : Bool
  /-- Readings of `Now()` so far. -/
  clockReads : ℕ
  /-- Heap blocks allocated so far. -/
  allocs : ℕ
  /-- Packets handed to `TcpWritePacket` and its answers, latest first. -/
  written : List (List UInt8 × WriteResult)
  /-- The other notifications, latest first. -/
  notified : List Notification
  /-- History: every byte `queue` has put into `sbuf`, with its `bCtrl`. No function reads it. -/
  queued : List (UInt8 × Bool)

/-! ### Helper functions -/

/-- `long_to_bytes`: the four bytes in network order. -/
def longToBytes (val : UInt32) : List UInt8 :=
  [UInt8.ofNat (val.toNat / 2 ^ 24), UInt8.ofNat (val.toNat / 2 ^ 16),
    UInt8.ofNat (val.toNat / 2 ^ 8), UInt8.ofNat val.toNat]

/-- `short_to_bytes`. -/
def shortToBytes (val : UInt16) : List UInt8 :=
  [UInt8.ofNat (val.toNat / 2 ^ 8), UInt8.ofNat val.toNat]

/-- `bytes_to_long` at offset `i` of a buffer; `none` when it reads outside. -/
def bytesToLong (buf : List UInt8) (i : ℕ) : Option UInt32 := do
  let b0 ← buf[i]?
  let b1 ← buf[i + 1]?
  let b2 ← buf[i + 2]?
  let b3 ← buf[i + 3]?
  return UInt32.ofNat (b0.toNat * 2 ^ 24 + b1.toNat * 2 ^ 16 + b2.toNat * 2 ^ 8 + b3.toNat)

/-- `bytes_to_short` at offset `i` of a buffer; `none` when it reads outside. -/
def bytesToShort (buf : List UInt8) (i : ℕ) : Option UInt16 := do
  let b0 ← buf[i]?
  let b1 ← buf[i + 1]?
  return UInt16.ofNat (b0.toNat * 2 ^ 8 + b1.toNat)

/-- `bound`. -/
def bound (lower middle upper : UInt32) : UInt32 := min (max lower middle) upper

namespace PseudoTcp

/-- `PACKET_MAXIMUMS[i]`. -/
def packetMaximum (i : ℕ) : UInt32 := PACKET_MAXIMUMS.getD i 0

/-- The constructor. -/
def new (env : Env) (conv : UInt32) : PseudoTcp where
  shutdown := .none
  error := .ok
  state := .listen
  conv := conv
  bReadEnable := true
  bWriteEnable := false
  bOutgoing := false
  lasttraffic := env.clock 0
  rlist := []
  rbufLen := DEFAULT_RCV_BUF_SIZE
  rcvNxt := 0
  rcvWnd := DEFAULT_RCV_BUF_SIZE
  lastrecv := env.clock 0
  rwndScale := 0
  rbuf := FifoBuffer.new (env.heap 0) DEFAULT_RCV_BUF_SIZE.toNat
  slist := []
  sbufLen := DEFAULT_SND_BUF_SIZE
  sndNxt := 0
  sndWnd := 1
  lastsend := env.clock 0
  sndUna := 0
  swndScale := 0
  sbuf := FifoBuffer.new (env.heap 1) DEFAULT_SND_BUF_SIZE.toNat
  mss := MIN_PACKET - PACKET_OVERHEAD
  msslevel := 0
  largest := 0
  mtuAdvise := MAX_PACKET
  rtoBase := 0
  tsRecent := 0
  tsLastack := 0
  rxRttvar := 0
  rxSrtt := 0
  rxRto := DEF_RTO
  ssthresh := DEFAULT_RCV_BUF_SIZE
  cwnd := 2 * (MIN_PACKET - PACKET_OVERHEAD)
  dupAcks := 0
  recover := 0
  tAck := 0
  useNagling := true
  ackDelay := DEF_ACK_DELAY
  supportWndScale := true
  clockReads := 1
  allocs := 2
  written := []
  notified := []
  queued := []

variable (env : Env)

variable (s : PseudoTcp)

/-- The next reading of `Now()`. -/
def now : UInt32 := env.clock s.clockReads

/-- The state after one reading of `Now()`. -/
def tick : PseudoTcp := { s with clockReads := s.clockReads + 1 }

/-- Record a notification. -/
def notify (n : Notification) : PseudoTcp :=
  { s with notified := n :: s.notified }

/-! ### Sending -/

/-- The segment list after `len` more bytes: they join the last segment if it is of the same kind
and has not been transmitted yet. -/
def queueSegment (len : UInt32) (bCtrl : Bool) : List SSegment :=
  let sseg := SSegment.new (s.sndUna + UInt32.ofNat s.sbuf.getBuffered) len bCtrl
  match s.slist.getLast? with
  | none => s.slist ++ [sseg]
  | some back =>
    if back.bCtrl = bCtrl ∧ back.xmit = 0 then
      s.slist.dropLast ++ [{ back with len := back.len + len }]
    else s.slist ++ [sseg]

/-- `queue`. -/
def queue (data : List UInt8) (len : UInt32) (bCtrl : Bool) : UInt32 × PseudoTcp :=
  let availableSpace := UInt32.ofNat s.sbuf.getWriteRemaining
  let len := if availableSpace < len then availableSpace else len
  let (_, written, sbuf) := s.sbuf.write (data.take len.toNat)
  (UInt32.ofNat written, { s with
    slist := s.queueSegment len bCtrl
    sbuf := sbuf
    queued := s.queued ++ ((data.take len.toNat).take written).map fun b => (b, bCtrl) })

/-- The 24 header bytes `packet` writes. -/
def header (seq : UInt32) (flags : UInt8) (now : UInt32) : List UInt8 :=
  longToBytes s.conv ++ longToBytes seq ++ longToBytes s.rcvNxt ++ [0, flags] ++
    shortToBytes (s.rcvWnd >>> s.rwndScale.toUInt32).toUInt16 ++ longToBytes now ++
    longToBytes s.tsRecent

/-- The payload of a packet: what `ReadOffset` copies, and behind it what the stack held. -/
def payload (offset len : UInt32) : List UInt8 :=
  if len = 0 then []
  else
    let bytes := (s.sbuf.readOffset len.toNat offset.toNat).2
    bytes ++ (List.range (len.toNat - bytes.length)).map fun i =>
      env.stack s.written.length (HEADER_SIZE.toNat + bytes.length + i)

/-- `packet`. -/
def packet (s : PseudoTcp) (seq : UInt32) (flags : UInt8) (offset len : UInt32) :
    WriteResult × PseudoTcp :=
  let now := s.now env
  let buffer := s.header seq flags now ++ s.payload env offset len
  let wres := env.writeResult s.written.length
  let s := { s.tick with tsLastack := s.rcvNxt, written := (buffer, wres) :: s.written }
  -- The answer to a packet without payload is ignored.
  if wres ≠ .success ∧ len ≠ 0 then (wres, s)
  else
    (.success, { s with
      tAck := 0
      lastsend := if 0 < len then now else s.lastsend
      lasttraffic := now
      bOutgoing := true })

/-- The inner loop of `transmit`: step down `PACKET_MAXIMUMS` until the segment size drops below
`nTransmit`. `none` is "MTU too small". -/
def lowerMss (nTransmit : UInt32) : ℕ → PseudoTcp → Option UInt32 × PseudoTcp
  | 0, s => (none, s)
  | fuel + 1, s =>
    if packetMaximum (s.msslevel + 1) = 0 then (none, s)
    else
      let mss := packetMaximum (s.msslevel + 1) - PACKET_OVERHEAD
      let s := { s with msslevel := s.msslevel + 1, mss := mss, cwnd := 2 * mss }
      if mss < nTransmit then (some mss, s) else lowerMss nTransmit fuel s

/-- The outer loop of `transmit`: hand the packet over, with smaller payloads while the answer is
`WR_TOO_LARGE`. Every round but the first has moved down `PACKET_MAXIMUMS`. -/
def transmitLoop (seg : SSegment) : ℕ → UInt32 → PseudoTcp → Option UInt32 × PseudoTcp
  | 0, _, s => (none, s)
  | fuel + 1, nTransmit, s =>
    let flags := if seg.bCtrl then FLAG_CTL else 0
    match s.packet env seg.seq flags (seg.seq - s.sndUna) nTransmit with
    | (.success, s) => (some nTransmit, s)
    | (.fail, s) => (none, s)
    | (.tooLarge, s) =>
      match s.lowerMss nTransmit PACKET_MAXIMUMS.length with
      | (none, s) => (none, s)
      | (some nTransmit, s) => transmitLoop seg fuel nTransmit s

/-- Put `segs` where entry `i` of a list stood. -/
def replaceAt (slist : List SSegment) (i : ℕ) (segs : List SSegment) : List SSegment :=
  slist.take i ++ segs ++ slist.drop (i + 1)

/-- `transmit` of the segment at position `i` of `m_slist`. -/
def transmit (i : ℕ) (now : UInt32) : Bool × PseudoTcp :=
  match s.slist[i]? with
  | none => (false, s) -- `m_slist.end()` dereferenced
  | some seg =>
    if (if s.state = .established then 15 else 30) ≤ seg.xmit then (false, s)
    else
      match transmitLoop env seg PACKET_MAXIMUMS.length (min seg.len s.mss) s with
      | (none, s) => (false, s)
      | (some nTransmit, s) =>
        let subseg := { SSegment.new (seg.seq + nTransmit) (seg.len - nTransmit) seg.bCtrl with
          xmit := seg.xmit }
        let sent := if nTransmit < seg.len then { seg with len := nTransmit } else seg
        let rest := if nTransmit < seg.len then [subseg] else []
        (true, { s with
          slist := replaceAt s.slist i ({ sent with xmit := seg.xmit + 1 } :: rest)
          sndNxt := if seg.xmit = 0 then s.sndNxt + sent.len else s.sndNxt
          rtoBase := if s.rtoBase = 0 then now else s.rtoBase })

/-- What `attemptSend` may send in one round: `nAvailable`, capped by the usable window and by the
silly-window rule. -/
def sendable : UInt32 :=
  let cwnd := if s.dupAcks = 1 ∨ s.dupAcks = 2 then s.cwnd + s.dupAcks.toUInt32 * s.mss else s.cwnd
  let nWindow := min s.sndWnd cwnd
  let nInFlight := s.sndNxt - s.sndUna
  let nUseable := if nInFlight < nWindow then nWindow - nInFlight else 0
  let nAvailable := min (UInt32.ofNat s.sbuf.getBuffered - nInFlight) s.mss
  if nUseable < nAvailable then (if nUseable * 4 < nWindow then 0 else nUseable) else nAvailable

/-- Break the segment at position `i` in two when it is longer than `nAvailable`. -/
def splitSegment (i : ℕ) (nAvailable : UInt32) : PseudoTcp :=
  match s.slist[i]? with
  | none => s
  | some seg =>
    if nAvailable < seg.len then
      let subseg := SSegment.new (seg.seq + nAvailable) (seg.len - nAvailable) seg.bCtrl
      { s with slist := replaceAt s.slist i [{ seg with len := nAvailable }, subseg] }
    else s

/-- The loop of `attemptSend`. -/
def attemptSendLoop (now : UInt32) : ℕ → SendFlags → PseudoTcp → PseudoTcp
  | 0, _, s => s
  | fuel + 1, sflags, s =>
    let nAvailable := s.sendable
    if nAvailable = 0 then
      if sflags = .none then s
      else if sflags = .immediateAck ∨ s.tAck ≠ 0 then (s.packet env s.sndNxt 0 0 0).2
      else { s.tick with tAck := s.now env }
    else if s.useNagling ∧ s.sndUna < s.sndNxt ∧ nAvailable < s.mss then s
    else
      match s.slist.findIdx? (fun seg => seg.xmit = 0) with
      | none => s -- the search runs past `m_slist.end()`
      | some i =>
        match (s.splitSegment i nAvailable).transmit env i now with
        | (false, s) => s
        | (true, s) => attemptSendLoop now fuel .none s

/-- `attemptSend`. Each round sends a byte or marks an empty segment, which bounds the rounds. -/
def attemptSend (sflags : SendFlags) : PseudoTcp :=
  let now := s.now env
  let s := s.tick
  let s := if (s.rxRto.toNat : ℤ) < timeDiff now s.lastsend then { s with cwnd := s.mss } else s
  s.attemptSendLoop env now (2 * s.sbuf.getBuffered + s.slist.length + 1) sflags

/-- `closedown`. -/
def closedown (err : ErrorCode) : PseudoTcp :=
  { s with state := .closed }.notify (.onTcpClosed err)

/-- The level search of `adjustMTU`. -/
def mssLevelFor (mtu : UInt32) : ℕ → ℕ → ℕ
  | 0, level => level
  | fuel + 1, level =>
    if packetMaximum (level + 1) = 0 then level
    else if packetMaximum level ≤ mtu then level
    else mssLevelFor mtu fuel (level + 1)

/-- `adjustMTU`. -/
def adjustMTU : PseudoTcp :=
  let mss := s.mtuAdvise - PACKET_OVERHEAD
  { s with
    msslevel := mssLevelFor s.mtuAdvise PACKET_MAXIMUMS.length 0
    mss := mss
    ssthresh := max s.ssthresh (2 * mss)
    cwnd := max s.cwnd mss }

/-! ### Options -/

/-- The loop of `resizeReceiveBuffer`: halve the size until it fits 16 bits. -/
def scaleDown : ℕ → UInt32 → UInt8 → UInt32 × UInt8
  | 0, newSize, scaleFactor => (newSize, scaleFactor)
  | fuel + 1, newSize, scaleFactor =>
    if 0xFFFF < newSize then scaleDown fuel (newSize >>> 1) (scaleFactor + 1)
    else (newSize, scaleFactor)

/-- `resizeSendBuffer`. -/
def resizeSendBuffer (newSize : UInt32) : PseudoTcp :=
  { s with
    sbufLen := newSize
    sbuf := (s.sbuf.setCapacity (env.heap s.allocs) newSize.toNat).2
    allocs := s.allocs + 1 }

/-- `resizeReceiveBuffer`. -/
def resizeReceiveBuffer (newSize : UInt32) : PseudoTcp :=
  let (scaled, scaleFactor) := scaleDown 16 newSize 0
  let newSize := scaled <<< scaleFactor.toUInt32
  let rbuf := (s.rbuf.setCapacity (env.heap s.allocs) newSize.toNat).2
  { s with
    rbuf := rbuf
    rbufLen := newSize
    rwndScale := scaleFactor
    ssthresh := newSize
    rcvWnd := UInt32.ofNat rbuf.getWriteRemaining
    allocs := s.allocs + 1 }

/-- `PseudoTcp::applyOption`. -/
def applyOption (kind : UInt8) (data : List UInt8) : PseudoTcp :=
  if kind = TCP_OPT_WND_SCALE then
    match data with
    | [scaleFactor] => { s with swndScale := scaleFactor }
    | _ => s
  else s

/-- The loop of `parseOptions`: the state, and the option kinds seen, or `none` when an option's
length runs past the data. -/
def parseOptionList : ℕ → List UInt8 → PseudoTcp → Option (List UInt8) × PseudoTcp
  | 0, _, s => (some [], s)
  | _, [], s => (some [], s)
  | fuel + 1, kind :: buf, s =>
    if kind = TCP_OPT_EOL then (some [], s)
    else if kind = TCP_OPT_NOOP then parseOptionList fuel buf s
    else
      let optLen := (buf.headD 0).toNat
      let buf := buf.tail
      if optLen ≤ buf.length then
        match parseOptionList fuel (buf.drop optLen) (s.applyOption kind (buf.take optLen)) with
        | (none, s) => (none, s)
        | (some kinds, s) => (some (kind :: kinds), s)
      else (none, s)

/-- `PseudoTcp::parseOptions`. -/
def parseOptions (data : List UInt8) : PseudoTcp :=
  match parseOptionList (data.length + 1) data s with
  | (none, s) => s
  | (some kinds, s) =>
    if TCP_OPT_WND_SCALE ∉ kinds ∧ 0 < s.rwndScale then
      { s.resizeReceiveBuffer env DEFAULT_RCV_BUF_SIZE with swndScale := 0 }
    else s

/-- `queueConnectMessage`. -/
def queueConnectMessage : PseudoTcp :=
  let buf := CTL_CONNECT ::
    (if s.supportWndScale then [TCP_OPT_WND_SCALE, 1, s.rwndScale] else [])
  let s := { s with sndWnd := UInt32.ofNat buf.length }
  (s.queue buf (UInt32.ofNat buf.length) true).2

/-! ### Receiving -/

/-- The control part of `process`: whether the segment is a connect message, or `none` when the
segment is refused. -/
def processControl (seg : Segment) : Option (Bool × PseudoTcp) :=
  if seg.flags &&& FLAG_CTL = 0 then some (false, s)
  else
    match seg.data with
    | [] => none
    | code :: options =>
      if code ≠ CTL_CONNECT then none
      else
        let s := s.parseOptions env options
        if s.state = .listen then
          some (true, { s with state := .synReceived }.queueConnectMessage)
        else if s.state = .synSent then
          some (true, ({ s with state := .established }.adjustMTU).notify .onTcpOpen)
        else some (true, s)

/-- The timestamp part of `process`. -/
def updateTimestamp (seg : Segment) : PseudoTcp :=
  if seg.seq ≤ s.tsLastack ∧ s.tsLastack < seg.seq + seg.len then { s with tsRecent := seg.tsval }
  else s

/-- The round-trip part of a valuable ack. -/
def updateRtt (now tsecr : UInt32) : PseudoTcp :=
  let rtt := timeDiff now tsecr
  if tsecr ≠ 0 ∧ 0 ≤ rtt then
    let (srtt, rttvar) :=
      if s.rxSrtt = 0 then (UInt32.ofNat rtt.toNat, UInt32.ofNat (rtt.toNat / 2))
      else
        (UInt32.ofNat (((7 * s.rxSrtt).toNat + rtt.toNat) / 8),
          UInt32.ofNat (((3 * s.rxRttvar).toNat + (rtt - s.rxSrtt.toNat).natAbs) / 4))
    { s with
      rxSrtt := srtt
      rxRttvar := rttvar
      rxRto := bound MIN_RTO (srtt + max 1 (4 * rttvar)) MAX_RTO }
  else s

/-- The loop that frees acknowledged segments: the remaining list and the largest segment freed. -/
def freeAcked : UInt32 → UInt32 → List SSegment → UInt32 × List SSegment
  | _, largest, [] => (largest, []) -- with bytes left to free: `m_slist.front()` of an empty list
  | nFree, largest, front :: slist =>
    if nFree = 0 then (largest, front :: slist)
    else if nFree < front.len then (largest, { front with len := front.len - nFree } :: slist)
    else freeAcked (nFree - front.len) (max largest front.len) slist

/-- A valuable ack: `m_snd_una` moves up to `seg.ack` and the acknowledged bytes are freed. -/
def acceptAck (now : UInt32) (seg : Segment) : PseudoTcp :=
  let s := s.updateRtt now seg.tsecr
  let nAcked := seg.ack - s.sndUna
  let (largest, slist) := freeAcked nAcked s.largest s.slist
  { s with
    sndWnd := seg.wnd.toUInt32 <<< s.swndScale.toUInt32
    sndUna := seg.ack
    rtoBase := if seg.ack = s.sndNxt then 0 else now
    sbuf := s.sbuf.consumeReadData nAcked.toNat
    largest := largest
    slist := slist }

/-- The congestion part of a valuable ack. -/
def afterAck (now nAcked : UInt32) : Bool × PseudoTcp :=
  if 3 ≤ s.dupAcks then
    if s.recover ≤ s.sndUna then
      (true, { s with
        cwnd := min s.ssthresh (s.sndNxt - s.sndUna + s.mss)
        dupAcks := 0 })
    else
      match s.transmit env 0 now with
      | (false, s) => (false, s.closedown .econnaborted)
      | (true, s) => (true, { s with cwnd := s.cwnd + (s.mss - min nAcked s.cwnd) })
  else
    let s := { s with dupAcks := 0 }
    if s.cwnd < s.ssthresh then (true, { s with cwnd := s.cwnd + s.mss })
    else (true, { s with cwnd := s.cwnd + max 1 (s.mss * s.mss / s.cwnd) })

/-- A segment that acknowledges `m_snd_una` once more. -/
def duplicateAck (now : UInt32) (seg : Segment) : Bool × PseudoTcp :=
  let s := { s with sndWnd := seg.wnd.toUInt32 <<< s.swndScale.toUInt32 }
  if 0 < seg.len then (true, s)
  else if s.sndUna ≠ s.sndNxt then
    let s := { s with dupAcks := s.dupAcks + 1 }
    if s.dupAcks = 3 then
      match s.transmit env 0 now with
      | (false, s) => (false, s.closedown .econnaborted)
      | (true, s) =>
        let nInFlight := s.sndNxt - s.sndUna
        let ssthresh := max (nInFlight / 2) (2 * s.mss)
        (true, { s with
          recover := s.sndNxt
          ssthresh := ssthresh
          cwnd := ssthresh + 3 * s.mss })
    else if 3 < s.dupAcks then (true, { s with cwnd := s.cwnd + s.mss })
    else (true, s)
  else (true, { s with dupAcks := 0 })

/-- The test for a valuable ack. -/
def valuableAck (ack : UInt32) : Prop := s.sndUna < ack ∧ ack ≤ s.sndNxt

instance (s : PseudoTcp) (ack : UInt32) : Decidable (s.valuableAck ack) :=
  inferInstanceAs (Decidable (_ ∧ _))

/-- The acknowledgment part of `process`; `false` when the connection was closed down. -/
def processAck (now : UInt32) (seg : Segment) : Bool × PseudoTcp :=
  if s.valuableAck seg.ack then
    (s.acceptAck now seg).afterAck env now (seg.ack - s.sndUna)
  else if seg.ack = s.sndUna then s.duplicateAck env now seg
  else (true, s)

/-- The step from `TCP_SYN_RECEIVED` to `TCP_ESTABLISHED`. -/
def enterEstablished (bConnect : Bool) : PseudoTcp :=
  if s.state = .synReceived ∧ bConnect = false then
    ({ s with state := .established }.adjustMTU).notify .onTcpOpen
  else s

/-- Tell the user that there is room in the send queue again. -/
def notifyWriteable : PseudoTcp :=
  let kIdealRefillSize := (s.sbufLen + s.rbufLen) / 2
  if s.bWriteEnable ∧ UInt32.ofNat s.sbuf.getBuffered < kIdealRefillSize then
    { s with bWriteEnable := false }.notify .onTcpWriteable
  else s

/-- The acknowledgment a segment calls for. -/
def ackFlags (seg : Segment) : SendFlags :=
  if seg.seq ≠ s.rcvNxt then .immediateAck
  else if seg.len ≠ 0 then (if s.ackDelay = 0 then .immediateAck else .delayedAck)
  else .none

/-- Drop what lies before `m_rcv_nxt`. -/
def trimFront (seg : Segment) : Segment :=
  if seg.seq < s.rcvNxt then
    let nAdjust := s.rcvNxt - seg.seq
    if nAdjust < seg.len then
      { seg with seq := seg.seq + nAdjust, data := seg.data.drop nAdjust.toNat }
    else { seg with data := [] }
  else seg

/-- Drop what lies behind the free space of the receive buffer. -/
def trimBack (seg : Segment) : Segment :=
  let availableSpace := UInt32.ofNat s.rbuf.getWriteRemaining
  if availableSpace < seg.seq + seg.len - s.rcvNxt then
    let nAdjust := seg.seq + seg.len - s.rcvNxt - availableSpace
    if nAdjust < seg.len then { seg with data := seg.data.take (seg.len - nAdjust).toNat }
    else { seg with data := [] }
  else seg

/-- Adjust the incoming segment to fit the receive buffer. -/
def trim (seg : Segment) : Segment := s.trimBack (s.trimFront seg)

/-- The loop over `m_rlist` after in-order data: commit the saved ranges that now connect. The flag
tells whether a range was recovered. -/
def recoverSaved : List RSegment → PseudoTcp → Bool × PseudoTcp
  | [], s => (false, { s with rlist := [] })
  | r :: rlist, s =>
    if r.seq ≤ s.rcvNxt then
      if s.rcvNxt < r.seq + r.len then
        let nAdjust := r.seq + r.len - s.rcvNxt
        let (_, s) := recoverSaved rlist { s with
          rbuf := s.rbuf.consumeWriteBuffer nAdjust.toNat
          rcvNxt := s.rcvNxt + nAdjust
          rcvWnd := s.rcvWnd - nAdjust }
        (true, s)
      else recoverSaved rlist s
    else (false, { s with rlist := r :: rlist })

/-- Insert a saved range before the first one that does not start earlier. -/
def insertSaved (rseg : RSegment) : List RSegment → List RSegment
  | [] => [rseg]
  | r :: rlist => if r.seq < rseg.seq then r :: insertSaved rseg rlist else rseg :: r :: rlist

/-- The data part of `process`, on the trimmed segment: the flags for the acknowledgment, whether
there is new data, and the state. -/
def receiveData (seg : Segment) (sflags : SendFlags) :
    SendFlags × Bool × PseudoTcp :=
  if seg.len = 0 then (sflags, false, s)
  else if seg.flags &&& FLAG_CTL ≠ 0 ∨ s.shutdown ≠ .none then
    if seg.seq = s.rcvNxt then (sflags, false, { s with rcvNxt := s.rcvNxt + seg.len })
    else (sflags, false, s)
  else
    let nOffset := seg.seq - s.rcvNxt
    let s := { s with rbuf := (s.rbuf.writeOffset seg.data nOffset.toNat).2.2 }
    if seg.seq = s.rcvNxt then
      let s := { s with
        rbuf := s.rbuf.consumeWriteBuffer seg.len.toNat
        rcvNxt := s.rcvNxt + seg.len
        rcvWnd := s.rcvWnd - seg.len }
      let (recovered, s) := recoverSaved s.rlist s
      (if recovered then .immediateAck else sflags, true, s)
    else (sflags, false, { s with rlist := insertSaved ⟨seg.seq, seg.len⟩ s.rlist })

/-- Tell the user that there is new data. -/
def notifyReadable (bNewData : Bool) : PseudoTcp :=
  if bNewData ∧ s.bReadEnable then { s with bReadEnable := false }.notify .onTcpReadable else s

/-- The last part of `process`: store the data, acknowledge, notify. -/
def processData (seg : Segment) : PseudoTcp :=
  let sflags := s.ackFlags seg
  let (sflags, bNewData, s) := s.receiveData (s.trim seg) sflags
  (s.attemptSend env sflags).notifyReadable bNewData

/-- Note the arrival of a segment. -/
def arrive : PseudoTcp :=
  { s.tick with lasttraffic := s.now env, lastrecv := s.now env, bOutgoing := false }

/-- `process`. -/
def process (seg : Segment) : Bool × PseudoTcp :=
  if seg.conv ≠ s.conv then (false, s)
  else
    let now := s.now env
    let s := s.arrive env
    if s.state = .closed then (false, s)
    else if seg.flags &&& FLAG_RST ≠ 0 then (false, s.closedown .econnreset)
    else
      match s.processControl env seg with
      | none => (false, s)
      | some (bConnect, s) =>
        match (s.updateTimestamp seg).processAck env now seg with
        | (false, s) => (false, s)
        | (true, s) => (true, ((s.enterEstablished bConnect).notifyWriteable).processData env seg)

/-- The header fields `parse` reads, at their fixed offsets. -/
def parseHeader (buffer : List UInt8) : Option Segment := do
  let conv ← bytesToLong buffer 0
  let seq ← bytesToLong buffer 4
  let ack ← bytesToLong buffer 8
  let flags ← buffer[13]?
  let wnd ← bytesToShort buffer 14
  let tsval ← bytesToLong buffer 16
  let tsecr ← bytesToLong buffer 20
  return ⟨conv, seq, ack, flags, wnd, buffer.drop HEADER_SIZE.toNat, tsval, tsecr⟩

/-- `parse`; `none` when it reads outside the datagram. -/
def parse (buffer : List UInt8) : Option (Bool × PseudoTcp) :=
  if buffer.length < 12 then some (false, s) else (parseHeader buffer).map (s.process env)

/-! ### The interface -/

/-- `Connect`. -/
def connect : ℤ × PseudoTcp :=
  if s.state ≠ .listen then (-1, { s with error := .einval })
  else (0, ({ s with state := .synSent }.queueConnectMessage).attemptSend env .none)

/-- `NotifyMTU`. -/
def notifyMTU (mtu : UInt16) : PseudoTcp :=
  let s := { s with mtuAdvise := mtu.toUInt32 }
  if s.state = .established then s.adjustMTU else s

/-- The retransmission part of `NotifyClock`; `false` when the connection was closed down. -/
def clockRetransmit (now : UInt32) : Bool × PseudoTcp :=
  if s.rtoBase ≠ 0 ∧ timeDiff (s.rtoBase + s.rxRto) now ≤ 0 ∧ s.slist ≠ [] then
    match s.transmit env 0 now with
    | (false, s) => (false, s.closedown .econnaborted)
    | (true, s) =>
      let nInFlight := s.sndNxt - s.sndUna
      let rtoLimit :=
        if s.state = .established ∨ s.state = .closed then MAX_RTO else DEF_RTO
      (true, { s with
        ssthresh := max (nInFlight / 2) (2 * s.mss)
        cwnd := s.mss
        rxRto := min rtoLimit (s.rxRto * 2)
        rtoBase := now })
  else (true, s)

/-- The window-probe part of `NotifyClock`; `false` when the connection was closed down. -/
def clockProbe (now : UInt32) : Bool × PseudoTcp :=
  if s.sndWnd = 0 ∧ timeDiff (s.lastsend + s.rxRto) now ≤ 0 then
    if 15000 ≤ timeDiff now s.lastrecv then (false, s.closedown .econnaborted)
    else
      let s := (s.packet env (s.sndNxt - 1) 0 0 0).2
      (true, { s with lastsend := now, rxRto := min MAX_RTO (s.rxRto * 2) })
  else (true, s)

/-- The delayed-ack part of `NotifyClock`. -/
def clockAck (now : UInt32) : PseudoTcp :=
  if s.tAck ≠ 0 ∧ timeDiff (s.tAck + s.ackDelay) now ≤ 0 then (s.packet env s.sndNxt 0 0 0).2
  else s

/-- `NotifyClock`. -/
def notifyClock (now : UInt32) : PseudoTcp :=
  if s.state = .closed then s
  else
    match s.clockRetransmit env now with
    | (false, s) => s
    | (true, s) =>
      match s.clockProbe env now with
      | (false, s) => s
      | (true, s) => s.clockAck env now

/-- `NotifyPacket`; `none` when the call reads outside the datagram. -/
def notifyPacket (buffer : List UInt8) : Option (Bool × PseudoTcp) :=
  if MAX_PACKET.toNat < buffer.length then some (false, s) else s.parse env buffer

/-- `GetNextClock`: the timeout, or `none` when the socket is ready to be destroyed. -/
def getNextClock (now : UInt32) : Option ℤ :=
  if s.shutdown = .forceful then none
  else if s.shutdown = .graceful ∧
      (s.state ≠ .established ∨ (s.sbuf.getBuffered = 0 ∧ s.tAck = 0)) then none
  else if s.state = .closed then some CLOSED_TIMEOUT
  else
    let t := DEFAULT_TIMEOUT
    let t := if s.tAck ≠ 0 then min t (timeDiff (s.tAck + s.ackDelay) now) else t
    let t := if s.rtoBase ≠ 0 then min t (timeDiff (s.rtoBase + s.rxRto) now) else t
    some (if s.sndWnd = 0 then min t (timeDiff (s.lastsend + s.rxRto) now) else t)

/-- `SetOption`. -/
def setOption (opt : TcpOption) (value : Int32) : PseudoTcp :=
  match opt with
  | .nodelay => { s with useNagling := value = 0 }
  | .ackdelay => { s with ackDelay := value.toUInt32 }
  | .sndbuf => s.resizeSendBuffer env value.toUInt32
  | .rcvbuf => s.resizeReceiveBuffer env value.toUInt32

/-- The window update of `Recv`. -/
def openWindow : PseudoTcp :=
  let availableSpace := UInt32.ofNat s.rbuf.getWriteRemaining
  if min (s.rbufLen / 2) s.mss ≤ availableSpace - s.rcvWnd then
    let bWasClosed := s.rcvWnd = 0
    let s := { s with rcvWnd := availableSpace }
    if bWasClosed then s.attemptSend env .immediateAck else s
  else s

/-- `Recv`: the bytes read, or `none` for `SOCKET_ERROR`. -/
def recv (len : ℕ) : Option (List UInt8) × PseudoTcp :=
  if s.state ≠ .established then (none, { s with error := .enotconn })
  else
    match s.rbuf.read len with
    | (.block, _, _) => (none, { s with bReadEnable := true, error := .ewouldblock })
    | (_, data, rbuf) => (some data, { s with rbuf := rbuf }.openWindow env)

/-- `Send`: the number of bytes accepted, or `none` for `SOCKET_ERROR`. -/
def send (buffer : List UInt8) : Option UInt32 × PseudoTcp :=
  if s.state ≠ .established then (none, { s with error := .enotconn })
  else if s.sbuf.getWriteRemaining = 0 then
    (none, { s with bWriteEnable := true, error := .ewouldblock })
  else
    let (written, s) := s.queue buffer (UInt32.ofNat buffer.length) false
    (some written, s.attemptSend env .none)

/-- `Close`. -/
def close (force : Bool) : PseudoTcp :=
  { s with shutdown := if force then .forceful else .graceful }

end PseudoTcp

end Synciga
