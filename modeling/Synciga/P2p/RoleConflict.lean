import Synciga.P2p.SettledRoles

/-!
# Role conflicts

Each check says the role and the tiebreaker of the port that it was sent from (`talk/p2p/base/port.cc`). A port
that has the same role decides by the tiebreakers which side must switch: its own, or that of the check, which
it tells so with an error. The switch is queued as `MSG_ROLECONFLICT` (`talk/p2p/base/transport.cc`), once per
session.

What was sent may arrive late, in another order, more than once or not at all, and a response is taken by any
connection. What else a check does is left to the operations of the sessions. Neither side is ICE-lite.

## Main definitions

* `Call` — two sessions and what was sent

## Main results

* `resolved_run` — the roles are opposite once a switch has happened that was needed
-/

namespace Synciga.P2p

/-! ### Checks -/

/-- `ICE_CONTROLLING` and `ICE_CONTROLLED` of a binding request. -/
structure RoleAttributes where
  iceControlling : Option UInt64 := none
  iceControlled : Option UInt64 := none
  deriving DecidableEq, Repr

/-- The role and the tiebreaker that the attributes say. -/
def RoleAttributes.remote (msg : RoleAttributes) : TransportRole × UInt64 :=
  match msg.iceControlled, msg.iceControlling with
  | some tiebreaker, _ => (.controlled, tiebreaker)
  | none, some tiebreaker => (.controlling, tiebreaker)
  | none, none => (.unknown, 0)

/-- What `MaybeIceRoleConflict` does. -/
inductive ConflictAnswer
  | accept
  /-- `SignalRoleConflict`; the request is accepted. -/
  | signal
  /-- `STUN_ERROR_ROLE_CONFLICT` is sent. -/
  | refuse
  deriving DecidableEq, Repr

namespace Port

/-- The role and the tiebreaker of a check. -/
def prepare (port : Port) : RoleAttributes :=
  if port.iceProtocol = .rfc5245 then
    match port.role with
    | .controlling => { iceControlling := some port.tiebreaker }
    | .controlled => { iceControlled := some port.tiebreaker }
    | .unknown => {}
  else {}

/-- `MaybeIceRoleConflict`. -/
def maybeIceRoleConflict (usernameFragment remoteUfrag : String) (msg : RoleAttributes) (port : Port) :
    ConflictAnswer :=
  -- a loopback call
  if msg.iceControlling = some port.tiebreaker ∧ usernameFragment = remoteUfrag then .accept
  else
    match port.role with
    | .controlling =>
      if msg.remote.1 = .controlling then if port.tiebreaker ≤ msg.remote.2 then .signal else .refuse
      else .accept
    | .controlled =>
      if msg.remote.1 = .controlled then if msg.remote.2 < port.tiebreaker then .signal else .refuse
      else .accept
    | .unknown => .accept

theorem remote_prepare (port : Port) :
    port.prepare.remote = (port.role, port.tiebreaker) ∨ port.prepare.remote.1 = .unknown := by
  rw [prepare]
  split_ifs
  · rcases port.role with _ | _ | _
    exacts [Or.inl rfl, Or.inl rfl, Or.inr rfl]
  · exact Or.inr rfl

theorem maybeIceRoleConflict_cases (usernameFragment remoteUfrag : String) (sender port : Port) :
    port.maybeIceRoleConflict usernameFragment remoteUfrag sender.prepare = .accept ∨
      (port.role = .controlling ∧ sender.role = .controlling ∧
        port.maybeIceRoleConflict usernameFragment remoteUfrag sender.prepare =
          if port.tiebreaker ≤ sender.tiebreaker then .signal else .refuse) ∨
      (port.role = .controlled ∧ sender.role = .controlled ∧
        port.maybeIceRoleConflict usernameFragment remoteUfrag sender.prepare =
          if sender.tiebreaker < port.tiebreaker then .signal else .refuse) := by
  rw [maybeIceRoleConflict]
  by_cases hloopback : sender.prepare.iceControlling = some port.tiebreaker ∧ usernameFragment = remoteUfrag
  · exact Or.inl (if_pos hloopback)
  rw [if_neg hloopback]
  rcases remote_prepare sender with htells | hunknown
  · rw [htells]
    rcases port.role with _ | _ | _
    · by_cases hrole : sender.role = .controlling
      · exact Or.inr (Or.inl ⟨rfl, hrole, if_pos hrole⟩)
      · exact Or.inl (if_neg hrole)
    · by_cases hrole : sender.role = .controlled
      · exact Or.inr (Or.inr ⟨rfl, hrole, if_pos hrole⟩)
      · exact Or.inl (if_neg hrole)
    · exact Or.inl rfl
  · rw [hunknown]
    left
    rcases port.role with _ | _ | _
    exacts [if_neg nofun, if_neg nofun, rfl]

end Port

/-! ### Two sessions -/

/-- One of the two sides. -/
inductive Side
  | left
  | right
  deriving DecidableEq, Repr

/-- The other side. -/
def Side.opposite : Side → Side
  | left => right
  | right => left

@[simp]
theorem Side.opposite_opposite (side : Side) : side.opposite.opposite = side := by
  cases side <;> rfl

theorem Side.eq_or_eq_opposite (a b : Side) : a = b ∨ a = b.opposite := by
  cases a <;> cases b <;> simp [opposite]

/-- What one side sends to the other. -/
inductive IcePacket
  | bindingRequest (msg : RoleAttributes)
  | bindingResponse
  /-- A binding error response with `STUN_ERROR_ROLE_CONFLICT`. -/
  | roleConflict
  deriving DecidableEq, Repr

/-- A session, how often `MSG_ROLECONFLICT` is queued in it, and what was sent to it. -/
structure Agent where
  session : RoleSession
  conflicts : ℕ := 0
  inbox : List IcePacket := []

/-- Two sessions. -/
abbrev Call := Side → Agent

/-- What happens between them. -/
inductive CallOp
  | session (side : Side) (op : RoleOp)
  /-- A port sends a check over one of its connections. -/
  | check (side : Side) (contentName : String) (component : ℤ) (port : ℕ)
  /-- A port receives a packet. -/
  | receive (side : Side) (packet : IcePacket) (contentName : String) (component : ℤ) (port : ℕ)
      (usernameFragment remoteUfrag : String)
  /-- `MSG_ROLECONFLICT`. -/
  | roleConflict (side : Side)

/-- A channel of a session. -/
def RoleSession.channel (contentName : String) (component : ℤ) (s : RoleSession) : Option P2PTransportChannel :=
  (s.transports.find? (·.contentName = contentName)).bind fun proxy =>
    (proxy.transport.channels.find? (·.channel.component = component)).map (·.channel)

namespace Call

/-- Two new sessions. -/
def start (initiator : Side → Bool) (tiebreaker : Side → UInt64) : Call :=
  fun side => { session := { initiator := initiator side, iceTiebreaker := tiebreaker side } }

variable (side : Side)

/-- Another session state on one side. -/
def setSession (session : RoleSession) (c : Call) : Call :=
  Function.update c side { c side with session }

/-- Another number of queued conflicts on one side. -/
def setConflicts (conflicts : ℕ) (c : Call) : Call :=
  Function.update c side { c side with conflicts }

/-- A packet is sent to a side. -/
def send (packet : IcePacket) (c : Call) : Call :=
  Function.update c side { c side with inbox := (c side).inbox ++ [packet] }

@[simp]
theorem session_setConflicts (a side : Side) (conflicts : ℕ) (c : Call) :
    (c.setConflicts a conflicts side).session = (c side).session := by
  rw [setConflicts]
  rcases eq_or_ne side a with rfl | hne
  · rw [Function.update_self]
  · rw [Function.update_of_ne hne]

@[simp]
theorem session_send (a side : Side) (packet : IcePacket) (c : Call) :
    (c.send a packet side).session = (c side).session := by
  rw [send]
  rcases eq_or_ne side a with rfl | hne
  · rw [Function.update_self]
  · rw [Function.update_of_ne hne]

/-- `SignalRoleConflict` of a port is posted by its transport. -/
def post (c : Call) : Call := c.setConflicts side ((c side).conflicts + 1)

/-- A check is answered. Only ICE looks at the roles. -/
def answer (port : Port) (usernameFragment remoteUfrag : String) (msg : RoleAttributes) (c : Call) :
    Call :=
  match if port.iceProtocol = .rfc5245 then port.maybeIceRoleConflict usernameFragment remoteUfrag msg
    else .accept with
  | .accept => c.send side.opposite .bindingResponse
  | .signal => (c.post side).send side.opposite .bindingResponse
  | .refuse => c.send side.opposite .roleConflict

/-- A packet arrives. `HandleRoleConflictFromPeer` lets the port signal the conflict; to a port of the Google
protocol the error has another code. -/
def deliver (port : Port) (usernameFragment remoteUfrag : String) (c : Call) : IcePacket → Call
  | .bindingRequest msg => c.answer side port usernameFragment remoteUfrag msg
  | .bindingResponse => c
  | .roleConflict => if port.iceProtocol = .google then c else c.post side

/-- One step. -/
def step (c : Call) : CallOp → Option Call
  | .session side op =>
    if (c side).session.takes op then ((c side).session.step op).map fun s => c.setSession side s else none
  | .check side contentName component port =>
    ((c side).session.channel contentName component).bind fun ch =>
      if port < ch.portCount ∧ ∃ conn ∈ ch.connections, ch.owner conn = port then
        some (c.send side.opposite (.bindingRequest (ch.portAt port).prepare))
      else none
  | .receive side packet contentName component port usernameFragment remoteUfrag =>
    ((c side).session.channel contentName component).bind fun ch =>
      if packet ∈ (c side).inbox ∧ port < ch.portCount ∧ (ch.portAt port).destroyed = false then
        some (c.deliver side (ch.portAt port) usernameFragment remoteUfrag packet)
      else none
  | .roleConflict side =>
    if 0 < (c side).conflicts then
      some ((c.setSession side (c side).session.onRoleConflict).setConflicts side ((c side).conflicts - 1))
    else none

end Call

/-! ### Who switches -/

/-- The side that switches in a conflict: of two controlling sides the one with the smaller tiebreaker, of two
controlled sides the one with the larger. -/
def Yields (init : Side → Bool) (tb : Side → UInt64) (side : Side) : Prop :=
  init side = init side.opposite ∧ if init side then tb side < tb side.opposite else tb side.opposite < tb side

section

variable {init : Side → Bool} {tb : Side → UInt64} {side : Side}

theorem Yields.not_opposite (h : Yields init tb side) : ¬ Yields init tb side.opposite := by
  rintro ⟨-, hopposite⟩
  obtain ⟨hsame, hyields⟩ := h
  rw [← hsame, Side.opposite_opposite] at hopposite
  split_ifs at hyields hopposite
  · exact absurd hopposite (UInt64.lt_asymm hyields)
  · exact absurd hopposite (UInt64.lt_asymm hyields)

/-- A port of a session: it has a role that the session may have given, and the tiebreaker. -/
structure BelongsTo (s : RoleSession) (port : Port) : Prop where
  role : s.MayHave port.role
  tiebreaker : port.tiebreaker = s.iceTiebreaker

/-- Only the side that yields is told to switch. -/
structure Call.Orderly (init : Side → Bool) (tb : Side → UInt64) (c : Call) : Prop where
  initiator : ∀ side, (c side).session.initiator = init side
  tiebreaker : ∀ side, (c side).session.iceTiebreaker = tb side
  settled : ∀ side, (c side).session.Settled
  requests : ∀ side msg, .bindingRequest msg ∈ (c side).inbox →
    ∃ port, BelongsTo (c side.opposite).session port ∧ msg = port.prepare
  errors : ∀ side, .roleConflict ∈ (c side).inbox → Yields init tb side
  conflicts : ∀ side, 0 < (c side).conflicts → Yields init tb side
  switches : ∀ side, (c side).session.roleSwitch = true → Yields init tb side

namespace Call

variable {c c' : Call}

variable {own remote : Port}

theorem Orderly.same_role (h : c.Orderly init tb) (hown : BelongsTo (c side).session own)
    (hremote : BelongsTo (c side.opposite).session remote) (hrole : remote.role = own.role) :
    init side = init side.opposite ∧ own.role = if init side then .controlling else .controlled := by
  have hfirst := hown.role
  have hsecond := hremote.role
  rw [hrole] at hsecond
  rw [RoleSession.MayHave, RoleSession.initialRole, RoleSession.switchedRole, h.initiator] at hfirst hsecond
  rcases hfirst with hfirst | ⟨hswitch, hfirst⟩ <;> rcases hsecond with hsecond | ⟨hswitch', hsecond⟩
  · refine ⟨?_, hfirst⟩
    split_ifs at hsecond <;> simp_all
  · have hsame := (h.switches _ hswitch').1
    rw [Side.opposite_opposite] at hsame
    rw [hfirst, hsame] at hsecond
    split_ifs at hsecond
  · have hsame := (h.switches _ hswitch).1
    rw [hfirst, hsame] at hsecond
    split_ifs at hsecond
  · exact absurd (h.switches _ hswitch') (h.switches _ hswitch).not_opposite

/-- A port signals a conflict on the side that yields only, and refuses a check of that side only. -/
theorem Orderly.answer_cases (h : c.Orderly init tb) (hne : tb .left ≠ tb .right)
    (hown : BelongsTo (c side).session own) (hremote : BelongsTo (c side.opposite).session remote)
    (usernameFragment remoteUfrag : String) :
    (own.maybeIceRoleConflict usernameFragment remoteUfrag remote.prepare = .signal → Yields init tb side) ∧
      (own.maybeIceRoleConflict usernameFragment remoteUfrag remote.prepare = .refuse →
        Yields init tb side.opposite) := by
  have hdistinct : tb side ≠ tb side.opposite := by
    cases side
    exacts [hne, hne.symm]
  have htb : own.tiebreaker = tb side := hown.tiebreaker.trans (h.tiebreaker side)
  have htb' : remote.tiebreaker = tb side.opposite := hremote.tiebreaker.trans (h.tiebreaker _)
  rcases Port.maybeIceRoleConflict_cases usernameFragment remoteUfrag remote own with
    haccept | ⟨hcontrolling, hcontrolling', heq⟩ | ⟨hcontrolled, hcontrolled', heq⟩
  · rw [haccept]
    exact ⟨nofun, nofun⟩
  · obtain ⟨hsame, hrole⟩ := h.same_role hown hremote (hcontrolling'.trans hcontrolling.symm)
    have hinit : init side = true := by
      by_contra hnot
      rw [if_neg hnot, hcontrolling] at hrole
      cases hrole
    have hinit' : init side.opposite = true := hsame.symm.trans hinit
    rw [heq, htb, htb', Yields, Yields, Side.opposite_opposite, hinit, hinit', if_pos rfl, if_pos rfl]
    by_cases hle : tb side ≤ tb side.opposite
    · rw [if_pos hle]
      exact ⟨fun _ => ⟨rfl, UInt64.lt_of_le_of_ne hle hdistinct⟩, nofun⟩
    · rw [if_neg hle]
      exact ⟨nofun, fun _ => ⟨rfl, UInt64.not_le.mp hle⟩⟩
  obtain ⟨hsame, hrole⟩ := h.same_role hown hremote (hcontrolled'.trans hcontrolled.symm)
  have hinit : init side = false := by
    by_contra hnot
    rw [if_pos (Bool.eq_true_of_not_eq_false hnot), hcontrolled] at hrole
    cases hrole
  have hinit' : init side.opposite = false := hsame.symm.trans hinit
  rw [heq, htb, htb', Yields, Yields, Side.opposite_opposite, hinit, hinit', if_neg Bool.false_ne_true,
    if_neg Bool.false_ne_true]
  by_cases hlt : tb side.opposite < tb side
  · rw [if_pos hlt]
    exact ⟨fun _ => ⟨rfl, hlt⟩, nofun⟩
  · rw [if_neg hlt]
    exact ⟨nofun, fun _ => ⟨rfl, UInt64.lt_of_le_of_ne (UInt64.not_lt.mp hlt) hdistinct⟩⟩

/-! ### One step -/

theorem Orderly.update (h : c.Orderly init tb) {agent : Agent}
    (hinitiator : agent.session.initiator = (c side).session.initiator)
    (htiebreaker : agent.session.iceTiebreaker = (c side).session.iceTiebreaker)
    (hsettled : agent.session.Settled)
    (hmay : ∀ role, (c side).session.MayHave role → agent.session.MayHave role)
    (hrequests : ∀ msg, .bindingRequest msg ∈ agent.inbox → .bindingRequest msg ∉ (c side).inbox →
      ∃ port, BelongsTo (c side.opposite).session port ∧ msg = port.prepare)
    (hyields : (.roleConflict ∈ agent.inbox ∧ .roleConflict ∉ (c side).inbox ∨
      0 < agent.conflicts ∧ (c side).conflicts = 0 ∨
      agent.session.roleSwitch = true ∧ (c side).session.roleSwitch = false) → Yields init tb side) :
    Orderly init tb (Function.update c side agent) := by
  have hself : Function.update c side agent side = agent := Function.update_self side agent c
  have hother : Function.update c side agent side.opposite = c side.opposite :=
    Function.update_of_ne (by cases side <;> decide) agent c
  refine ⟨?_, ?_, ?_, ?_, ?_, ?_, ?_⟩
  all_goals
    intro side'
    rcases side'.eq_or_eq_opposite side with rfl | rfl
  · rw [hself]
    exact hinitiator.trans (h.initiator side')
  · rw [hother]
    exact h.initiator _
  · rw [hself]
    exact htiebreaker.trans (h.tiebreaker side')
  · rw [hother]
    exact h.tiebreaker _
  · rw [hself]
    exact hsettled
  · rw [hother]
    exact h.settled _
  · rw [hself, hother]
    intro msg hmsg
    by_cases hold : .bindingRequest msg ∈ (c side').inbox
    · exact h.requests side' msg hold
    · exact hrequests msg hmsg hold
  · rw [hother, Side.opposite_opposite, hself]
    intro msg hmsg
    obtain ⟨port, hport, heq⟩ := h.requests _ msg hmsg
    rw [Side.opposite_opposite] at hport
    exact ⟨port, ⟨hmay _ hport.role, hport.tiebreaker.trans htiebreaker.symm⟩, heq⟩
  · rw [hself]
    intro hmem
    by_cases hold : .roleConflict ∈ (c side').inbox
    · exact h.errors side' hold
    · exact hyields (Or.inl ⟨hmem, hold⟩)
  · rw [hother]
    exact h.errors _
  · rw [hself]
    intro hpos
    by_cases hold : 0 < (c side').conflicts
    · exact h.conflicts side' hold
    · exact hyields (Or.inr (Or.inl ⟨hpos, Nat.eq_zero_of_not_pos hold⟩))
  · rw [hother]
    exact h.conflicts _
  · rw [hself]
    intro hswitch
    by_cases hold : (c side').session.roleSwitch = true
    · exact h.switches side' hold
    · exact hyields (Or.inr (Or.inr ⟨hswitch, Bool.eq_false_of_not_eq_true hold⟩))
  · rw [hother]
    exact h.switches _

theorem Orderly.send (h : c.Orderly init tb) {packet : IcePacket}
    (hrequest : ∀ msg, packet = .bindingRequest msg →
      ∃ port, BelongsTo (c side.opposite).session port ∧ msg = port.prepare)
    (herror : packet = .roleConflict → Yields init tb side) : (c.send side packet).Orderly init tb := by
  have hnew {p : IcePacket} (hp : p ∈ (c side).inbox ++ [packet]) (hold : p ∉ (c side).inbox) : packet = p :=
    (List.mem_singleton.mp ((List.mem_append.mp hp).resolve_left hold)).symm
  refine h.update rfl rfl (h.settled side) (fun _ => id) ?_ ?_
  · exact fun msg hmsg hold => hrequest msg (hnew hmsg hold)
  · rintro (⟨hmem, hold⟩ | ⟨hpos, hzero⟩ | ⟨hswitch, hnot⟩)
    · exact herror (hnew hmem hold)
    · exact absurd hzero (Nat.ne_of_gt hpos)
    · exact absurd hswitch (Bool.not_eq_true _ ▸ hnot)

theorem Orderly.setConflicts (h : c.Orderly init tb) {conflicts : ℕ}
    (hyields : 0 < conflicts → Yields init tb side) :
    (c.setConflicts side conflicts).Orderly init tb := by
  refine h.update rfl rfl (h.settled side) (fun _ => id) (fun msg hmsg hold => absurd hmsg hold) ?_
  rintro (⟨hmem, hold⟩ | ⟨hpos, -⟩ | ⟨hswitch, hnot⟩)
  · exact absurd hmem hold
  · exact hyields hpos
  · exact absurd hswitch (Bool.not_eq_true _ ▸ hnot)

theorem Orderly.setSession (h : c.Orderly init tb) {s : RoleSession}
    (hinitiator : s.initiator = (c side).session.initiator)
    (htiebreaker : s.iceTiebreaker = (c side).session.iceTiebreaker) (hsettled : s.Settled)
    (hmay : ∀ role, (c side).session.MayHave role → s.MayHave role)
    (hyields : s.roleSwitch = true → (c side).session.roleSwitch = false → Yields init tb side) :
    (c.setSession side s).Orderly init tb := by
  refine h.update hinitiator htiebreaker hsettled hmay (fun msg hmsg hold => absurd hmsg hold) ?_
  rintro (⟨hmem, hold⟩ | ⟨hpos, hzero⟩ | ⟨hswitch, hnot⟩)
  · exact absurd hmem hold
  · exact absurd hzero (Nat.ne_of_gt hpos)
  · exact hyields hswitch hnot

theorem belongsTo_of_channel {s : RoleSession} (h : s.Settled) {contentName : String} {component : ℤ}
    {ch : P2PTransportChannel} (hfound : s.channel contentName component = some ch) {port : ℕ}
    (hlt : port < ch.portCount) : BelongsTo s (ch.portAt port) := by
  obtain ⟨proxy, hproxy, hmap⟩ := Option.bind_eq_some_iff.mp hfound
  obtain ⟨e, he, rfl⟩ := Option.map_eq_some_iff.mp hmap
  have htold := (h proxy (List.mem_of_find?_eq_some hproxy)).2.channels e (List.mem_of_find?_eq_some he)
  obtain ⟨hrole, htb⟩ := htold.ports port hlt
  exact ⟨hrole, htb⟩

theorem Orderly.answer (h : c.Orderly init tb) (hne : tb .left ≠ tb .right)
    (hown : BelongsTo (c side).session own) (hremote : BelongsTo (c side.opposite).session remote)
    (usernameFragment remoteUfrag : String) :
    (c.answer side own usernameFragment remoteUfrag remote.prepare).Orderly init tb := by
  obtain ⟨hsignal, hrefuse⟩ := h.answer_cases hne hown hremote usernameFragment remoteUfrag
  have hresponse {d : Call} (hd : d.Orderly init tb) : (d.send side.opposite .bindingResponse).Orderly init tb :=
    hd.send nofun nofun
  rw [Call.answer]
  by_cases hice : own.iceProtocol = .rfc5245
  · rw [if_pos hice]
    rcases hanswer : own.maybeIceRoleConflict usernameFragment remoteUfrag remote.prepare with _ | _ | _
    · exact hresponse h
    · exact hresponse (h.setConflicts fun _ => hsignal hanswer)
    · exact h.send nofun fun _ => hrefuse hanswer
  · rw [if_neg hice]
    exact hresponse h

theorem Orderly.next {op : CallOp} (h : c.Orderly init tb) (hne : tb .left ≠ tb .right)
    (hstep : c.step op = some c') : c'.Orderly init tb := by
  cases op with
  | session side op =>
    obtain ⟨htakes, hmap⟩ := Option.ite_none_right_eq_some.mp hstep
    obtain ⟨s, hs, rfl⟩ := Option.map_eq_some_iff.mp hmap
    obtain ⟨hsame, hsettled⟩ := RoleSession.settled_step (h.settled side) htakes hs
    refine h.setSession hsame.initiator hsame.iceTiebreaker hsettled ?_ ?_
    · rw [hsame.mayHave]
      exact fun _ => id
    · rw [hsame.roleSwitch]
      intro hswitch hnot
      exact absurd hswitch (Bool.not_eq_true _ ▸ hnot)
  | check side contentName component port =>
    obtain ⟨ch, hfound, hguard⟩ := Option.bind_eq_some_iff.mp hstep
    obtain ⟨⟨hlt, -⟩, hsome⟩ := Option.ite_none_right_eq_some.mp hguard
    cases hsome
    have hport := belongsTo_of_channel (h.settled side) hfound hlt
    refine h.send ?_ nofun
    rintro _ ⟨⟩
    rw [Side.opposite_opposite]
    exact ⟨_, hport, rfl⟩
  | receive side packet contentName component port usernameFragment remoteUfrag =>
    obtain ⟨ch, hfound, hguard⟩ := Option.bind_eq_some_iff.mp hstep
    obtain ⟨⟨hmem, hlt, -⟩, hsome⟩ := Option.ite_none_right_eq_some.mp hguard
    cases hsome
    have hport := belongsTo_of_channel (h.settled side) hfound hlt
    rcases packet with msg | _ | _
    · obtain ⟨remote, hremote, rfl⟩ := h.requests side msg hmem
      exact h.answer hne hport hremote usernameFragment remoteUfrag
    · exact h
    · rw [deliver]
      split_ifs
      · exact h
      · exact h.setConflicts fun _ => h.errors side hmem
  | roleConflict side =>
    obtain ⟨hpos, rfl⟩ := Runs.of_guard hstep
    have hyields : Yields init tb side := h.conflicts side hpos
    have hkept : (c side).session.onRoleConflict.initiator = (c side).session.initiator ∧
        (c side).session.onRoleConflict.iceTiebreaker = (c side).session.iceTiebreaker := by
      rw [RoleSession.onRoleConflict]
      split_ifs <;> exact ⟨rfl, rfl⟩
    refine Orderly.setConflicts ?_ fun _ => hyields
    exact h.setSession hkept.1 hkept.2 (h.settled side).onRoleConflict
      (fun _ => RoleSession.mayHave_onRoleConflict) fun _ _ => hyields

theorem orderly_start (init : Side → Bool) (tb : Side → UInt64) : (start init tb).Orderly init tb where
  initiator := fun _ => rfl
  tiebreaker := fun _ => rfl
  settled := fun _ => List.forall_mem_nil _
  requests := nofun
  errors := nofun
  conflicts := fun _ hpos => absurd hpos (Nat.lt_irrefl 0)
  switches := nofun

theorem session_deliver (a side : Side) (port : Port) (usernameFragment remoteUfrag : String) (packet : IcePacket)
    (c : Call) : (c.deliver a port usernameFragment remoteUfrag packet side).session = (c side).session := by
  rcases packet with msg | _ | _
  · rw [deliver, Call.answer]
    rcases (if port.iceProtocol = .rfc5245 then port.maybeIceRoleConflict usernameFragment remoteUfrag msg
      else .accept) with _ | _ | _ <;> simp [post]
  · rfl
  · rw [deliver]
    split_ifs
    · rfl
    · exact session_setConflicts a side _ c

theorem roleSwitch_step {op : CallOp} (h : c.Orderly init tb) (hstep : c.step op = some c') (side : Side)
    (hswitch : (c side).session.roleSwitch = true) : (c' side).session.roleSwitch = true := by
  have hset {a : Side} {s : RoleSession} (hs : s.roleSwitch = (c a).session.roleSwitch ∨ s.roleSwitch = true) :
      (c.setSession a s side).session.roleSwitch = true := by
    rw [setSession]
    rcases eq_or_ne side a with rfl | hne
    · rw [Function.update_self]
      exact hs.elim (fun heq => heq.trans hswitch) id
    · rw [Function.update_of_ne hne]
      exact hswitch
  cases op with
  | session a op =>
    obtain ⟨htakes, hmap⟩ := Option.ite_none_right_eq_some.mp hstep
    obtain ⟨s, hs, rfl⟩ := Option.map_eq_some_iff.mp hmap
    exact hset (Or.inl (RoleSession.settled_step (h.settled a) htakes hs).1.roleSwitch)
  | check a contentName component port =>
    obtain ⟨ch, -, hguard⟩ := Option.bind_eq_some_iff.mp hstep
    obtain ⟨-, rfl⟩ := Runs.of_guard hguard
    rw [session_send]
    exact hswitch
  | receive a packet contentName component port usernameFragment remoteUfrag =>
    obtain ⟨ch, -, hguard⟩ := Option.bind_eq_some_iff.mp hstep
    obtain ⟨-, rfl⟩ := Runs.of_guard hguard
    rw [session_deliver]
    exact hswitch
  | roleConflict a =>
    obtain ⟨-, rfl⟩ := Runs.of_guard hstep
    rw [session_setConflicts]
    exact hset (Or.inr (RoleSession.roleSwitch_onRoleConflict _))

/-! ### Runs -/

/-- Two sessions that started with these roles and tiebreakers: only the side that yields has switched, if the
roles were the same, and none if not; the roles are opposite if no switch was needed or one has happened; and
the transports have the roles of their sessions. -/
structure Resolved (init : Side → Bool) (tb : Side → UInt64) (c : Call) : Prop where
  quiet : init .left ≠ init .right → ∀ side, (c side).session.roleSwitch = false
  only : ∀ side, (c side).session.roleSwitch = true → Yields init tb side ∧
    (c side.opposite).session.roleSwitch = false
  opposite : (init .left ≠ init .right ∨ ∃ side, (c side).session.roleSwitch = true) →
    ∀ side, (c side).session.role ≠ (c side.opposite).session.role
  transports : ∀ side, ∀ p ∈ (c side).session.transports, p.transport.role = (c side).session.role

theorem Orderly.resolved (h : c.Orderly init tb) : c.Resolved init tb := by
  have halone (side : Side) (hswitch : (c side).session.roleSwitch = true) :
      (c side.opposite).session.roleSwitch = false :=
    Bool.eq_false_of_not_eq_true fun hother => (h.switches side hswitch).not_opposite (h.switches _ hother)
  have hquiet (hdiffer : init .left ≠ init .right) (side : Side) : (c side).session.roleSwitch = false := by
    refine Bool.eq_false_of_not_eq_true fun hswitch => hdiffer ?_
    have hsame := (h.switches side hswitch).1
    cases side
    exacts [hsame, hsame.symm]
  -- the roles as the first ones and the switches say
  have hopposite (side : Side) (hdiffer : init side ≠ init side.opposite ↔
      (c side).session.roleSwitch = (c side.opposite).session.roleSwitch) :
      (c side).session.role ≠ (c side.opposite).session.role := by
    rw [RoleSession.role, RoleSession.role, RoleSession.initialRole, RoleSession.initialRole,
      RoleSession.switchedRole, RoleSession.switchedRole, h.initiator, h.initiator]
    revert hdiffer
    rcases init side <;> rcases init side.opposite <;> rcases (c side).session.roleSwitch <;>
      rcases (c side.opposite).session.roleSwitch <;> decide
  refine ⟨hquiet, fun side hswitch => ⟨h.switches side hswitch, halone side hswitch⟩, ?_,
    fun side p hp => (h.settled side p hp).1⟩
  rintro (hdiffer | ⟨one, hswitch⟩) side
  · refine hopposite side (iff_of_true ?_ ?_)
    · cases side
      exacts [hdiffer, hdiffer.symm]
    · rw [hquiet hdiffer, hquiet hdiffer]
  have hone := halone one hswitch
  have hsame := (h.switches one hswitch).1
  rcases side.eq_or_eq_opposite one with rfl | rfl
  · refine hopposite side (iff_of_false (not_not.mpr hsame) ?_)
    rw [hswitch, hone]
    decide
  · refine hopposite _ (iff_of_false (not_not.mpr ?_) ?_)
    · rw [Side.opposite_opposite]
      exact hsame.symm
    · rw [Side.opposite_opposite, hswitch, hone]
      decide

/-- In every state of every run of two new sessions with distinct tiebreakers only the side that yields has
switched, the roles are opposite behind the switch, and no switch is taken back. -/
theorem resolved_run (hne : tb .left ≠ tb .right) {front back : List CallOp}
    (hfront : Runs.run step (start init tb) front = some c) (hback : Runs.run step c back = some c') :
    c.Resolved init tb ∧ c'.Resolved init tb ∧ ∀ side, (c side).session.roleSwitch = true →
      (c' side).session.roleSwitch = true ∧ (c' side).session.role = (c side).session.role := by
  have horderly : c.Orderly init tb :=
    Runs.invariant_of_step (fun _ _ _ h hstep => h.next hne hstep) (orderly_start init tb) hfront
  have hkept := Runs.invariant_of_step (P := fun d => Orderly init tb d ∧
      ∀ side, (c side).session.roleSwitch = true → (d side).session.roleSwitch = true)
    (fun _ _ _ h hstep => ⟨h.1.next hne hstep,
      fun side hswitch => roleSwitch_step h.1 hstep side (h.2 side hswitch)⟩) ⟨horderly, fun _ => id⟩ hback
  refine ⟨horderly.resolved, hkept.1.resolved, fun side hswitch => ?_⟩
  have hswitch' := hkept.2 side hswitch
  refine ⟨hswitch', ?_⟩
  rw [RoleSession.role, RoleSession.role, hswitch, hswitch', RoleSession.switchedRole, RoleSession.switchedRole,
    hkept.1.initiator, horderly.initiator, if_pos rfl, if_pos rfl]

/-- A side whose channel has a port and a connection. -/
def setUp (side : Side) : List CallOp :=
  [.createTransport "audio", .transport "audio" (.createChannel 1),
    .transport "audio" (.setLocalTransportDescription (Transport.describe "ufrag" "ufrag") .offer),
    .transport "audio" (.setRemoteTransportDescription (Transport.describe "remote" "remote") .answer),
    .transport "audio" (.connectChannels "" ""), .channel "audio" 1 .signalingReady,
    .channel "audio" 1 (.portReady 0 P2PTransportChannel.openPort),
    .channel "audio" 1 (.candidate 0 (P2PTransportChannel.candidateOf 30))].map (.session side)

/-- Both sides are controlling. The one with the smaller tiebreaker is checked, and switches. -/
def conflict : List CallOp :=
  setUp .left ++ setUp .right ++
    [.check .right "audio" 1 0, .receive .left (.bindingRequest { iceControlling := some 2 }) "audio" 1 0 "" "",
      .roleConflict .left]

/-- A tiebreaker for each side. -/
def tiebreakers : Side → UInt64
  | .left => 1
  | .right => 2

theorem resolved_run_conflict : ∃ c, Runs.run step (start (fun _ => true) tiebreakers) conflict = some c ∧
    (c .left).session.roleSwitch = true ∧ c.Resolved (fun _ => true) tiebreakers := by
  have hchecked : ((Runs.run step (start (fun _ => true) tiebreakers) conflict).any fun c =>
      (c .left).session.roleSwitch) = true := by
    decide +kernel
  obtain ⟨c, hrun, hswitch⟩ := (Option.any_eq_true _ _).mp hchecked
  exact ⟨c, hrun, hswitch, (resolved_run (by decide) hrun (rfl : Runs.run step c [] = some c)).1⟩

end Call

end

end Synciga.P2p
