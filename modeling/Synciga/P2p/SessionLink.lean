import Synciga.P2p.SessionManager

/-!
# Two managers and the stanzas between them

A session and the one that it brings about on the other side. Each side is the manager of one session
(`talk/p2p/base/sessionmanager.cc`): the one that is stored under the id, or none. The stanzas of a side arrive
in order, none is lost, and each is acknowledged or answered with an error, in the same order.

## Main definitions

* `Party`, `Link` — a side, and two of them with what is on its way
* `Link.step` — a side is called, or something arrives
-/

namespace Synciga.P2p

/-- A stanza on its way, by what is read of it: a message, or the answer to one. -/
inductive Packet
  | message (protocol : SignalingProtocol) (type : ActionType)
  | result (type : ActionType)
  | error (type : ActionType)
  deriving DecidableEq, Repr

/-- The stanza for an event. -/
def Packet.ofEvent : SessionEvent → Option Packet
  | .send type protocol _ => some (.message protocol (type.onWire protocol))
  | .acknowledge type => some (.result type)
  | .refuse type => some (.error type)
  | _ => none

variable {D : Type}

/-- The stanzas that a session has sent between two moments. -/
def Session.packets (s s' : Session D) : List Packet :=
  (s'.trace.drop s.trace.length).filterMap Packet.ofEvent

/-- What happens to a session on its own side. -/
inductive LocalOp (D : Type)
  | call (c : SessionCall D) (inner : Reaction D)
  | deliver (message : Posted) (r : Reaction D)
  | writable (hasChannels isWritable : Bool)
  | candidates (written : Bool)

/-- As an operation of the session. -/
def LocalOp.op : LocalOp D → SessionOp D
  | call c inner => .call c inner
  | deliver message r => .deliver message r
  | writable hasChannels isWritable => .writable hasChannels isWritable
  | candidates written => .candidates written

/-- What happens to a session of a manager on its own side. -/
def SessionManager.act (session : Nat) (op : LocalOp D) (m : SessionManager D) :
    SessionManager D :=
  match op with
  | .deliver message r => m.deliver session message r
  | op => m.withSession session (·.step op.op)

/-- What belongs to the arrival of a stanza: what is in it, where the body is well formed and the
candidates are valid, and what is done by those who listen. -/
structure Delivery (D : Type) where
  id : String
  actionElem : XmlElement
  body : Body D
  wellFormed : body.WellFormed
  reaction : Reaction D
  unsent : Nat
  errorType : Option String

/-- The names of a session: on both sides and of the initiator. -/
structure Names where
  sid : String
  localName : String
  remoteName : String
  initiatorName : String

/-- The message that is read of a stanza. -/
def Delivery.message (d : Delivery D) (names : Names) (protocol : SignalingProtocol)
    (type : ActionType) : SessionMessage :=
  ⟨protocol, type, d.id, names.sid, names.remoteName, names.localName, names.initiatorName, d.actionElem⟩

/-- One side: the session that is stored under the id. -/
abbrev Party (D : Type) := Option (Session D)

namespace Party

variable {D : Type}

/-- A step of the session, with the stanzas that are sent in it. A session that is destroyed is not stored
any more. -/
def step (s : Session D) (op : SessionOp D) : Party D × List Packet :=
  (if (s.step op).state = .deinit then none else some (s.step op), s.packets (s.step op))

/-- Something happens on the own side. -/
def act (op : LocalOp D) : Party D → Party D × List Packet
  | none => (none, [])
  | some s => step s op.op

/-- A stanza arrives. A message whose action is not known is refused before a session is looked for. -/
def receive (names : Names) (d : Delivery D) (packet : Packet) (party : Party D) :
    Party D × List Packet :=
  match packet, party with
  | .message protocol type, some s =>
    if type = .unknown then (some s, [.error type])
    else step s (.message (d.message names protocol type) d.body d.reaction)
  | .message protocol type, none =>
    if type = .sessionInitiate then
      step (.create names.localName names.initiatorName names.sid)
        (.message (d.message names protocol type) d.body d.reaction)
    else (none, [.error type])
  | .result type, some s => step s (.response type d.unsent)
  -- the errors are those of sessions and managers, without a redirect
  | .error type, some s => step s (.failedSend type none d.errorType true 0)
  | .result _, none => (none, [])
  | .error _, none => (none, [])

end Party

/-- Both sides, and the stanzas from each to the other. -/
structure Link (D : Type) where
  a : Party D
  b : Party D
  ab : List Packet
  ba : List Packet

/-- What happens next. -/
inductive LinkOp (D : Type)
  | actA (op : LocalOp D)
  | actB (op : LocalOp D)
  | receiveA (d : Delivery D)
  | receiveB (d : Delivery D)

namespace Link

variable {D : Type}

variable (sid aName bName : String)

/-- A step, of the session `sid` that `aName` has initiated with `bName`. -/
def step (l : Link D) : LinkOp D → Link D
  | .actA op =>
    let (a, sent) := Party.act op l.a
    { l with a := a, ab := l.ab ++ sent }
  | .actB op =>
    let (b, sent) := Party.act op l.b
    { l with b := b, ba := l.ba ++ sent }
  | .receiveA d =>
    match l.ba with
    | [] => l
    | packet :: rest =>
      let (a, sent) := Party.receive ⟨sid, aName, bName, aName⟩ d packet l.a
      { l with a := a, ab := l.ab ++ sent, ba := rest }
  | .receiveB d =>
    match l.ab with
    | [] => l
    | packet :: rest =>
      let (b, sent) := Party.receive ⟨sid, bName, aName, aName⟩ d packet l.b
      { l with b := b, ba := l.ba ++ sent, ab := rest }

/-- A run. -/
def run (ops : List (LinkOp D)) (l : Link D) : Link D :=
  ops.foldl (step sid aName bName) l

/-- Behind a call of `Initiate` that has sent its message. -/
def start (description : D) (inner : Reaction D) : Link D :=
  let (a, sent) := Party.step (.create aName aName sid)
    (.call (.initiate bName description true true) inner)
  ⟨a, none, sent, []⟩

/-- No stanza is on its way and no message is posted. -/
def Quiet (l : Link D) : Prop :=
  l.ab = [] ∧ l.ba = [] ∧ (∀ s ∈ l.a, s.posted = []) ∧ ∀ s ∈ l.b, s.posted = []

/-- Both sessions exist, both in progress or both still at the initiate, or both are destroyed. -/
def Agreed (l : Link D) : Prop :=
  (∃ s t, l.a = some s ∧ l.b = some t ∧
    ((s.state = .inProgress ∧ t.state = .inProgress) ∨
      (s.state = .sentInitiate ∧ t.state = .receivedInitiate))) ∨
  (l.a = none ∧ l.b = none)

end Link

end Synciga.P2p
