import Synciga.PseudoTcp.Endpoint

/-!
# `cricket::PseudoTcpChannel`

A `PseudoTcpChannel` connects a stream to a transport channel through a `PseudoTcp`
(`talk/session/tunnel/pseudotcpchannel.cc`). The signal thread connects and tears down, the stream thread reads,
writes and closes, and on the worker thread packets arrive and the clock runs. Every method holds the lock
`cs_`, so what the threads do is a sequence of critical sections and of message deliveries.

A pointer is modelled by whether it is `NULL`, except `tcp_`. Notifications of `PseudoTcp` only post messages
and set flags, and are modelled after the call, in their order. The clock goes on while a section runs, so the
section comes with all that it reads (`Readings`), of which nothing is assumed.

## Main definitions

* `PseudoTcpChannel`, `PseudoTcpChannel.step` — the channel and what the threads do
-/

namespace Synciga

/-- What a critical section reads from the clock. -/
structure Readings where
  /-- The readings inside the calls of `tcp_`. -/
  calls : ℕ → UInt32
  /-- The `Now()` that is handed to `NotifyClock`. -/
  notified : UInt32
  /-- The `Now()` that `AdjustClock` hands to `GetNextClock`. -/
  adjusted : UInt32
  /-- The time to which `PostDelayed` adds the delay. -/
  posted : UInt32

/-- The readings of a clock that stands still. -/
def Readings.still (now : UInt32) : Readings := ⟨fun _ => now, now, now, now⟩

/-- The environment of the calls of `tcp_`. -/
def Env.at (env : Env) (now : Readings) : Env := { env with clock := now.calls }

/-- `MSG_WK_CLOCK`, with the time it is due, and `MSG_WK_PURGE`. -/
inductive WorkerMessage
  | clock (trigger : UInt32)
  | purge
  deriving DecidableEq, Repr

/-- Whether the message is `MSG_WK_CLOCK`. -/
def WorkerMessage.isClock : WorkerMessage → Bool
  | clock _ => true
  | purge => false

/-- `MSG_SI_DESTROYCHANNEL` and `MSG_SI_DESTROY`. -/
inductive SignalMessage
  | destroyChannel
  | destroy
  deriving DecidableEq, Repr

/-- The `error` of an `EventData`. -/
inductive EventError
  | code (value : ℤ)
  | tcp (error : ErrorCode)
  deriving DecidableEq, Repr

/-- `EventData`, the content of `MSG_ST_EVENT`. -/
structure EventData where
  event : StreamEvents
  error : EventError
  deriving DecidableEq, Repr

/-- `cricket::PseudoTcpChannel`, with its messages that the three threads have not delivered yet. -/
structure PseudoTcpChannel where
  workerThread : Bool
  session : Bool
  channel : Bool
  tcp : Option PseudoTcp
  stream : Bool
  streamReadable : Bool
  pendingReadEvent : Bool
  readyToConnect : Bool
  workerQueue : List WorkerMessage
  streamQueue : List EventData
  signalQueue : List SignalMessage
  /-- History: how often `MSG_SI_DESTROY` was posted. -/
  destroyPosted : ℕ
  /-- History: the packets handed to `TcpWritePacket`, latest first, each with whether `channel_` was
  set. -/
  sent : List (Bool × List UInt8)
  /-- History: `Connect` or `NotifyPacket` was called on this `tcp_`. -/
  started : Bool
  /-- History: the readings of the last `AdjustClock`. -/
  adjustedAt : UInt32
  postedAt : UInt32
  /-- History: the retransmission timer was started since the last `AdjustClock`. -/
  strayTimer : Bool
  /-- History: how often `SignalChannelClosed` was emitted. -/
  channelClosed : ℕ
  /-- The object has been deleted. -/
  deleted : Bool

namespace PseudoTcpChannel

/-- The constructor. -/
def new : PseudoTcpChannel where
  workerThread := false
  session := true
  channel := false
  tcp := none
  stream := false
  streamReadable := false
  pendingReadEvent := false
  readyToConnect := false
  workerQueue := []
  streamQueue := []
  signalQueue := []
  destroyPosted := 0
  sent := []
  started := false
  adjustedAt := 0
  postedAt := 0
  strayTimer := false
  channelClosed := 0
  deleted := false

/-! ### Messages and notifications -/

variable (c : PseudoTcpChannel)

/-- Post `MSG_ST_EVENT`. -/
def postEvent (event : StreamEvents) (error : EventError) :
    PseudoTcpChannel :=
  { c with streamQueue := c.streamQueue ++ [⟨event, error⟩] }

/-- The flag `SE_READ`. -/
def SE_READ : StreamEvents := ⟨false, true, false, false⟩

/-- The flag `SE_WRITE`. -/
def SE_WRITE : StreamEvents := ⟨false, false, true, false⟩

/-- The flag `SE_CLOSE`. -/
def SE_CLOSE : StreamEvents := ⟨false, false, false, true⟩

/-- `OnTcpOpen`. -/
def onTcpOpen : PseudoTcpChannel :=
  if c.stream then
    { c with streamReadable := true, pendingReadEvent := true }.postEvent
      ⟨true, true, true, false⟩ (.code 0)
  else c

/-- `OnTcpReadable`. -/
def onTcpReadable : PseudoTcpChannel :=
  if c.stream then
    let c := { c with streamReadable := true }
    if c.pendingReadEvent then c
    else { c with pendingReadEvent := true }.postEvent SE_READ (.code 0)
  else c

/-- `OnTcpWriteable`. -/
def onTcpWriteable : PseudoTcpChannel :=
  if c.stream then c.postEvent SE_WRITE (.code 0) else c

/-- `OnTcpClosed`. -/
def onTcpClosed (error : ErrorCode) : PseudoTcpChannel :=
  if c.stream then c.postEvent SE_CLOSE (.tcp error) else c

/-- The calls of `IPseudoTcpNotify` other than `TcpWritePacket`. -/
def onTcp : Notification → PseudoTcpChannel
  | .onTcpOpen => c.onTcpOpen
  | .onTcpReadable => c.onTcpReadable
  | .onTcpWriteable => c.onTcpWriteable
  | .onTcpClosed error => c.onTcpClosed error

/-- What a call that took `tcp_` from one state to another has told the channel: the packets, and
then the notifications, first to last. -/
def afterTcp (tcp tcp' : PseudoTcp) : PseudoTcpChannel :=
  let packets := tcp'.written.take (tcp'.written.length - tcp.written.length)
  let notified := tcp'.notified.take (tcp'.notified.length - tcp.notified.length)
  let c := { c with
    tcp := some tcp'
    sent := packets.map (fun p => (c.channel, p.1)) ++ c.sent }
  notified.foldr (fun n c => c.onTcp n) c

/-- `AdjustClock`. -/
def adjustClock (now : Readings) (clear : Bool) : PseudoTcpChannel :=
  match c.tcp with
  | none => c
  | some tcp =>
    match tcp.getNextClock now.adjusted with
    | some timeout =>
      -- Reset the next clock, by clearing the old and setting a new one.
      let queue := if clear then c.workerQueue.filter (fun m => !m.isClock) else c.workerQueue
      { c with
        workerQueue := queue ++ [.clock (now.posted + UInt32.ofNat (max timeout 0).toNat)]
        adjustedAt := now.adjusted
        postedAt := now.posted
        strayTimer := false }
    | none =>
      let c := { c with tcp := none, readyToConnect := false }
      -- If TCP has failed, no need for `channel_` anymore.
      if c.channel then { c with signalQueue := c.signalQueue ++ [.destroyChannel] } else c

/-- `PseudoTcpChannel::CheckDestroy`. -/
def checkDestroy : PseudoTcpChannel :=
  if c.workerThread ∨ c.stream then c
  else { c with
    signalQueue := c.signalQueue ++ [.destroy]
    destroyPosted := c.destroyPosted + 1 }

/-! ### The signal thread -/

variable (env : Env)

/-- `Connect`; `none` when `session_` is dereferenced at `NULL`. -/
def connect (c : PseudoTcpChannel) (now : Readings) (initiator : Bool) :
    Option (Bool × PseudoTcpChannel) :=
  if c.channel then some (false, c)
  else if c.session = false then none
  else
    some (true, { c with
      workerThread := true
      channel := true
      tcp := some (PseudoTcp.new (env.at now) 0)
      -- The initiator waits for the first writable notification.
      readyToConnect := if initiator then true else c.readyToConnect
      started := false })

/-- `GetStream`. -/
def getStream : PseudoTcpChannel := { c with stream := true }

/-- `OnChannelDestroyed`. -/
def onChannelDestroyed (now : Readings) : PseudoTcpChannel :=
  let c : PseudoTcpChannel := { c with
    signalQueue := c.signalQueue.filter (fun m => m ≠ .destroyChannel)
    -- When `MSG_WK_PURGE` is received, there will be no more messages from the worker thread.
    workerQueue := c.workerQueue.filter (fun m => !m.isClock) ++ [.purge]
    session := false
    channel := false }
  let closed := match c.tcp with
    | none => false
    | some tcp => decide (tcp.state = .closed)
  let c := if c.stream ∧ closed = false then c.postEvent SE_CLOSE (.code 0) else c
  let c := match c.tcp with
    | none => c
    | some tcp => (c.afterTcp tcp (tcp.close true)).adjustClock now true
  { c with channelClosed := c.channelClosed + 1 }

/-- `OnSessionTerminate`. -/
def onSessionTerminate : PseudoTcpChannel :=
  if c.session ∧ c.channel = false then
    let c := { c with session := false }
    if c.stream then c.postEvent SE_CLOSE (.code (-1)) else c
  else c

/-! ### The stream thread -/

/-- The retransmission timer was started by a call that does not adjust the clock. -/
def noteTimer (tcp tcp' : PseudoTcp) : PseudoTcpChannel :=
  if tcp.rtoBase = 0 ∧ tcp'.rtoBase ≠ 0 then { c with strayTimer := true } else c

/-- `Read`: the result, the bytes read and the error. -/
def read (c : PseudoTcpChannel) (now : Readings) (len : ℕ) :
    (StreamResult × List UInt8 × ErrorCode) × PseudoTcpChannel :=
  match c.tcp with
  | none => ((.block, [], .ok), c)
  | some tcp =>
    let c := { c with streamReadable := false }
    let (result, tcp') := tcp.recv (env.at now) len
    let c := (c.afterTcp tcp tcp').noteTimer tcp tcp'
    match result with
    | some (b :: data) =>
      -- `PseudoTcp` does not repeat its readable signals; simulate them here.
      let c := { c with streamReadable := true }
      ((.success, b :: data, .ok),
        if c.pendingReadEvent then c
        else { c with pendingReadEvent := true }.postEvent SE_READ (.code 0))
    | _ =>
      if tcp'.error = .ewouldblock then ((.block, [], .ok), c)
      else ((.error, [], tcp'.error), c)

/-- `Write`: the result, the number of bytes written and the error. -/
def write (c : PseudoTcpChannel) (now : Readings) (data : List UInt8) :
    (StreamResult × UInt32 × ErrorCode) × PseudoTcpChannel :=
  match c.tcp with
  | none => ((.block, 0, .ok), c)
  | some tcp =>
    let (result, tcp') := tcp.send (env.at now) data
    let c := (c.afterTcp tcp tcp').noteTimer tcp tcp'
    match result with
    | some written =>
      if written ≠ 0 then ((.success, written, .ok), c)
      else if tcp'.error = .ewouldblock then ((.block, 0, .ok), c)
      else ((.error, 0, tcp'.error), c)
    | none =>
      if tcp'.error = .ewouldblock then ((.block, 0, .ok), c)
      else ((.error, 0, tcp'.error), c)

/-- `PseudoTcpChannel::Close`. -/
def close (c : PseudoTcpChannel) (now : Readings) : PseudoTcpChannel :=
  -- Clear out any pending event notifications.
  let c := { c with stream := false, streamQueue := [] }
  match c.tcp with
  | some tcp => (c.afterTcp tcp (tcp.close false)).adjustClock now true
  | none => c.checkDestroy

/-! ### The worker thread -/

/-- `OnChannelWritableState`. -/
def onChannelWritableState (c : PseudoTcpChannel) (now : Readings) (writable : Bool) :
    PseudoTcpChannel :=
  if c.channel = false then c
  else
    match c.tcp with
    | none => c
    | some tcp =>
      if c.readyToConnect = false ∨ writable = false then c
      else
        let c := { c with readyToConnect := false, started := true }
        (c.afterTcp tcp (tcp.connect (env.at now)).2).adjustClock now true

/-- `OnChannelRead`; `none` when the connection reads outside the packet. -/
def onChannelRead (c : PseudoTcpChannel) (now : Readings) (data : List UInt8) :
    Option PseudoTcpChannel :=
  if c.channel = false then some c
  else
    match c.tcp with
    | none => some c
    | some tcp =>
      (tcp.notifyPacket (env.at now) data).map fun r =>
        ({ c with started := true }.afterTcp tcp r.2).adjustClock now true

/-- `OnChannelConnectionChanged`, with the MTU estimated for the new route. -/
def onChannelConnectionChanged (now : Readings) (mtu : UInt16) :
    PseudoTcpChannel :=
  if c.channel = false then c
  else
    match c.tcp with
    | none => c
    | some tcp => (c.afterTcp tcp (tcp.notifyMTU mtu)).adjustClock now true

/-! ### Messages -/

/-- `OnMessage` for a message of the worker thread. -/
def onWorkerMessage (c : PseudoTcpChannel) (now : Readings) :
    WorkerMessage → PseudoTcpChannel
  | .clock _ =>
    match c.tcp with
    | none => c
    | some tcp => (c.afterTcp tcp (tcp.notifyClock (env.at now) now.notified)).adjustClock now false
  | .purge => { c with workerThread := false }.checkDestroy

/-- `OnMessage` for `MSG_ST_EVENT`, without what the stream does about the event. -/
def onStreamMessage (data : EventData) : PseudoTcpChannel :=
  if data.event.read then { c with pendingReadEvent := false } else c

/-- `OnMessage` for a message of the signal thread. `MSG_SI_DESTROYCHANNEL` asks the session to
destroy the channel, which calls `OnChannelDestroyed`. -/
def onSignalMessage : SignalMessage → PseudoTcpChannel
  | .destroyChannel => c
  | .destroy => { c with deleted := true }

/-- What the threads do. -/
inductive Action
  | getStream
  | connect (initiator : Bool)
  | channelDestroyed
  | sessionTerminate
  | read (len : ℕ)
  | write (data : List UInt8)
  | close
  | writableState (writable : Bool)
  | channelRead (data : List UInt8)
  | connectionChanged (mtu : UInt16)
  /-- The delivery of a message on the worker thread. A clock message is delayed, so messages behind
  it may come first. -/
  | workerMessage (i : ℕ)
  | streamMessage
  | signalMessage
  deriving DecidableEq, Repr

/-- One critical section or message delivery, with its clock readings; `none` when it cannot happen. The owner
uses the stream until it is closed, and the channel is destroyed once it is there. -/
def step (c : PseudoTcpChannel) (a : Readings × Action) : Option PseudoTcpChannel :=
  if c.deleted then none
  else
    match a.2 with
    | .getStream => some c.getStream
    | .connect initiator => (c.connect env a.1 initiator).map Prod.snd
    | .channelDestroyed => if c.channel then some (c.onChannelDestroyed a.1) else none
    | .sessionTerminate => some c.onSessionTerminate
    | .read len => if c.stream then some (c.read env a.1 len).2 else none
    | .write data => if c.stream then some (c.write env a.1 data).2 else none
    | .close => if c.stream then some (c.close a.1) else none
    | .writableState writable => some (c.onChannelWritableState env a.1 writable)
    | .channelRead data => c.onChannelRead env a.1 data
    | .connectionChanged mtu => some (c.onChannelConnectionChanged a.1 mtu)
    | .workerMessage i =>
      match c.workerQueue[i]? with
      | none => none
      | some m => some ({ c with workerQueue := c.workerQueue.eraseIdx i }.onWorkerMessage env a.1 m)
    | .streamMessage =>
      match c.streamQueue with
      | [] => none
      | data :: rest => some ({ c with streamQueue := rest }.onStreamMessage data)
    | .signalMessage =>
      match c.signalQueue with
      | [] => none
      | m :: rest => some ({ c with signalQueue := rest }.onSignalMessage m)

/-! ### The end of the channel -/

variable {c : PseudoTcpChannel}

theorem afterTcp_close (c : PseudoTcpChannel) (tcp : PseudoTcp) (force : Bool) :
    c.afterTcp tcp (tcp.close force) = { c with tcp := some (tcp.close force) } := by
  simp [afterTcp, PseudoTcp.close]

theorem adjustClock_forceful (hchannel : c.channel = false) (tcp : PseudoTcp) (now : Readings)
    (clear : Bool) :
    (c.afterTcp tcp (tcp.close true)).adjustClock now clear =
      { c with tcp := none, readyToConnect := false } := by
  have hforceful : (tcp.close true).getNextClock now.adjusted = none := rfl
  rw [afterTcp_close, adjustClock]
  simp only [hforceful, hchannel, Bool.false_eq_true, if_false]

theorem onChannelDestroyed_eq (c : PseudoTcpChannel) (now : Readings) :
    ∃ ready events, (events ≠ [] → c.stream = true) ∧ c.onChannelDestroyed now = { c with
        signalQueue := c.signalQueue.filter (fun m => m ≠ .destroyChannel)
        workerQueue := c.workerQueue.filter (fun m => !m.isClock) ++ [.purge]
        session := false
        channel := false
        tcp := none
        readyToConnect := ready
        streamQueue := c.streamQueue ++ events
        channelClosed := c.channelClosed + 1 } := by
  rcases htcp : c.tcp with _ | tcp
  · by_cases hstream : c.stream = true
    · refine ⟨c.readyToConnect, [⟨SE_CLOSE, .code 0⟩], fun _ => hstream, ?_⟩
      simp [onChannelDestroyed, htcp, hstream, postEvent]
    · refine ⟨c.readyToConnect, [], fun hne => absurd rfl hne, ?_⟩
      simp [onChannelDestroyed, htcp, hstream]
  · by_cases hpost : c.stream = true ∧ tcp.state ≠ .closed
    · refine ⟨false, [⟨SE_CLOSE, .code 0⟩], fun _ => hpost.1, ?_⟩
      simp [onChannelDestroyed, htcp, hpost, postEvent, adjustClock_forceful]
    · refine ⟨false, [], fun hne => absurd rfl hne, ?_⟩
      simp [onChannelDestroyed, htcp, hpost, adjustClock_forceful]

end PseudoTcpChannel

end Synciga
