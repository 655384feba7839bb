import Mathlib.Data.List.AList
import Synciga.Internal.Runs
import Synciga.Stun.Message

/-!
# `cricket::StunRequestManager`

A manager (`talk/p2p/base/stunrequest.cc`) sends each request again and again until there is an answer or it
times out. A request posts `MSG_STUN_SEND` to itself, and is deleted from its own timer, from an answer that is
found through its transaction id, or from `Clear`; its destructor takes it out of the table and its messages out
of the queue.

A request is known by its address. An operation that uses one after it was deleted, or that fails an `ASSERT`,
has no result. How long a request waits is virtual, and so are the calls at its end, which may send further
requests.

## Main definitions

* `StunRequest`, `StunRequestManager`
* `StunRequestManager.step` — a request is sent, a timer runs out, an answer comes in
-/

namespace Synciga

/-! ### Requests -/

/-- The packets of a request. -/
def MAX_SENDS : ℕ := 9

/-- `DELAY_UNIT`, in milliseconds. -/
def DELAY_UNIT : ℕ := 100

/-- How long the delay gets, in units. -/
def DELAY_MAX_FACTOR : ℕ := 16

/-- `CONNECTION_RESPONSE_TIMEOUT` of `port.h`. -/
def CONNECTION_RESPONSE_TIMEOUT : ℕ := 5 * 1000

/-- Where the transaction id begins. -/
def kStunTransactionIdOffset : ℕ := 8

/-- The class of a message. -/
def kStunTypeMask : UInt16 := 0x0110

/-- `IsStunRequestType`. -/
def isStunRequestType (msgType : UInt16) : Bool := msgType &&& kStunTypeMask = 0x000

/-- `GetStunSuccessResponseType`; `none` is -1. -/
def getStunSuccessResponseType (reqType : UInt16) : Option UInt16 :=
  if isStunRequestType reqType then some (reqType ||| 0x100) else none

/-- `GetStunErrorResponseType`; `none` is -1. -/
def getStunErrorResponseType (reqType : UInt16) : Option UInt16 :=
  if isStunRequestType reqType then some (reqType ||| 0x110) else none

/-- The classes of messages, as far as `CreateNew` and `GetAttributeValueType` tell them apart. -/
inductive MessageClass
  | stun
  | relay
  | turn
  | ice
  deriving DecidableEq, Repr

/-- `GetAttributeValueType` of the class. -/
def MessageClass.valueType : MessageClass → UInt16 → StunAttributeValueType
  | .stun => getAttributeValueType
  | .relay => relayAttributeValueType
  | .turn => turnAttributeValueType
  | .ice => iceAttributeValueType

/-- The classes of requests, as far as `GetNextDelay` tells them apart. `stun` is `StunRequest` and
every class that inherits the function. -/
inductive RequestClass
  | stun
  | allocate
  | connection
  deriving DecidableEq, Repr

/-- `StunRequest`; `manager` is whether `manager_` is set. -/
structure StunRequest where
  cls : RequestClass
  messageClass : MessageClass
  msg : StunMessage
  count : ℕ
  timeout : Bool
  manager : Bool
  deriving DecidableEq, Repr

namespace StunRequest

/-- The constructor, with the random string that it makes the transaction id. -/
def new (cls : RequestClass) (messageClass : MessageClass) (msg : StunMessage) (id : List UInt8) :
    StunRequest :=
  ⟨cls, messageClass, (msg.setTransactionID id).getD msg, 0, false, false⟩

variable (r : StunRequest)

/-- `StunRequest::id`. -/
def id : List UInt8 := r.msg.transactionId

/-- `Construct`, where `Prepare` gives the message its type and attributes. -/
def construct (prepared : StunMessage) : StunRequest :=
  if r.msg.type = 0 then { r with msg := { prepared with transactionId := r.msg.transactionId } }
  else r

/-- `GetNextDelay`, with its overrides in `AllocateRequest` and `ConnectionRequest`. -/
def getNextDelay : ℕ × StunRequest :=
  match r.cls with
  | .stun =>
    (DELAY_UNIT * min (1 <<< r.count) DELAY_MAX_FACTOR,
      { r with count := r.count + 1, timeout := if r.count + 1 = MAX_SENDS then true else r.timeout })
  | .allocate =>
    (100 * max (1 <<< r.count) 2,
      { r with count := r.count + 1, timeout := if r.count + 1 = 5 then true else r.timeout })
  | .connection => (CONNECTION_RESPONSE_TIMEOUT, { r with timeout := true })

end StunRequest

/-! ### The manager -/

/-- A request that is sent: what `new` is given, what `Prepare` makes of the message, and the delay. -/
structure NewRequest where
  cls : RequestClass
  messageClass : MessageClass
  msg : StunMessage
  id : List UInt8
  prepared : StunMessage
  delay : ℕ
  deriving DecidableEq, Repr

/-- The request that is sent. -/
def NewRequest.request (r : NewRequest) : StunRequest :=
  (StunRequest.new r.cls r.messageClass r.msg r.id).construct r.prepared

/-- A `MSG_STUN_SEND` in the queue of the thread. -/
structure StunSend where
  request : ℕ
  delay : ℕ
  deriving DecidableEq, Repr

/-- What happens to a request: a packet is sent, one of the three calls, the destructor. -/
inductive RequestEvent
  | sendPacket (request : ℕ) (packet : Option (List UInt8))
  | onResponse (request : ℕ)
  | onErrorResponse (request : ℕ)
  | onTimeout (request : ℕ) (cls : RequestClass)
  | deleted (request : ℕ)
  deriving DecidableEq, Repr

/-- `StunRequestManager`, with the requests on the heap, the queue of the thread and the history.
Addresses are given out in order. -/
structure StunRequestManager where
  objects : ℕ → Option StunRequest
  fresh : ℕ
  requests : AList fun _ : List UInt8 => ℕ
  pending : List StunSend
  events : List RequestEvent

namespace StunRequestManager

/-- The constructor. -/
def new : StunRequestManager := ⟨fun _ => none, 0, ∅, [], []⟩

variable (s : StunRequestManager)

/-- The request of a transaction id. -/
def find (id : List UInt8) : Option ℕ := s.requests.lookup id

/-- `thread_->Clear`. -/
def clearThread (p : ℕ) : StunRequestManager :=
  { s with pending := s.pending.filter fun m => m.request ≠ p }

/-- A call that is recorded. -/
def record (e : RequestEvent) : StunRequestManager :=
  { s with events := s.events ++ [e] }

/-- `SendDelayed`, of a request that is new. -/
def sendDelayed (r : NewRequest) : Option StunRequestManager :=
  -- `set_manager` asserts that a request is sent once, which holds as it is new.
  if (s.find r.request.id).isSome then none
  else if r.request.msg.type = 0 then none
  else
    some { s with
      objects := Function.update s.objects s.fresh (some { r.request with manager := true })
      fresh := s.fresh + 1
      requests := s.requests.insert r.request.id s.fresh
      pending := s.pending ++ [⟨s.fresh, r.delay⟩] }

/-- The requests that are sent in a call, one after the other. -/
def sendAll (sends : List NewRequest) : Option StunRequestManager :=
  sends.foldlM sendDelayed s

/-- `Remove`. -/
def remove (p : ℕ) : Option StunRequestManager := do
  let r ← s.objects p
  if r.manager = false then none
  else
    match s.find r.id with
    | none => some s
    | some q =>
      if q ≠ p then none
      else some ({ s with requests := s.requests.erase r.id }.clearThread p)

/-- `delete request`: the destructor, after which the address is dead. -/
def delete (p : ℕ) : Option StunRequestManager := do
  let r ← s.objects p
  if r.manager = false then none
  else
    let s ← s.remove p
    let s := s.clearThread p
    some { s with objects := Function.update s.objects p none, events := s.events ++ [.deleted p] }

/-- `Clear`. -/
def clear : Option StunRequestManager :=
  (s.requests.entries.map Sigma.snd).foldlM delete s

/-- `CheckResponse` of a message: the answer and the state after it. -/
def checkResponse (msg : StunMessage) (sends : List NewRequest) :
    Option (Bool × StunRequestManager) :=
  match s.find msg.transactionId with
  | none => some (false, s)
  | some p => do
    let r ← s.objects p
    if some msg.type = getStunSuccessResponseType r.msg.type then
      let s ← (s.record (.onResponse p)).sendAll sends
      let s ← s.delete p
      some (true, s)
    else if some msg.type = getStunErrorResponseType r.msg.type then
      let s ← (s.record (.onErrorResponse p)).sendAll sends
      let s ← s.delete p
      some (true, s)
    else some (false, s)

/-- `CheckResponse` of a packet. -/
def checkPacket (data : List UInt8) (sends : List NewRequest) :
    Option (Bool × StunRequestManager) :=
  if data.length < kStunHeaderSize then some (false, s)
  else
    match s.find ((data.drop kStunTransactionIdOffset).take kStunTransactionIdLength) with
    | none => some (false, s)
    | some p => do
      let r ← s.objects p
      match StunMessage.read r.messageClass.valueType data with
      | none => some (false, s)
      | some (response, _) => s.checkResponse response sends

/-- `StunRequest::OnMessage`. -/
def onMessage (p : ℕ) (sends : List NewRequest) :
    Option StunRequestManager := do
  let r ← s.objects p
  if r.manager = false then none
  else if r.timeout then
    let s ← (s.record (.onTimeout p r.cls)).sendAll sends
    s.delete p
  else
    let s := s.record (.sendPacket p r.msg.write)
    let (delay, r) := r.getNextDelay
    some { s with
      objects := Function.update s.objects p (some r)
      pending := s.pending ++ [⟨p, delay⟩] }

/-- The operations from outside. The requests that come with a delivery or an answer are those that
are sent in the call that it leads to. -/
inductive Action
  | sendDelayed (r : NewRequest)
  | deliver (i : ℕ) (sends : List NewRequest)
  | checkResponse (msg : StunMessage) (sends : List NewRequest)
  | checkPacket (data : List UInt8) (sends : List NewRequest)
  | clear
  deriving DecidableEq

/-- One operation. The thread delivers any of its messages, in any order. -/
def step : Action → Option StunRequestManager
  | .sendDelayed r => s.sendDelayed r
  | .deliver i sends => do
    let m ← s.pending[i]?
    { s with pending := s.pending.eraseIdx i }.onMessage m.request sends
  | .checkResponse msg sends => (s.checkResponse msg sends).map Prod.snd
  | .checkPacket data sends => (s.checkPacket data sends).map Prod.snd
  | .clear => s.clear

end StunRequestManager

end Synciga
