import Synciga.P2p.RelayBookkeeping

/-!
# The uses of a relay binding

A binding is used when a connection of it is made, and when one of its connections is sent through; an error is
no use.

## Main definitions

* `uses`, `makeBinding` — the uses in a packet, in the order of the code, and the binding that it makes

## Main results

* `usedBy_onInternalPacket`, `usedBy_onExternalPacket` — up to their connections, this is all that a packet does
-/

namespace Synciga

namespace RelayServer

/-! ### What is a use -/

variable (conn : Nat)

/-- `Send` of a connection is a use of its binding. -/
def sendUses (s : RelayServer) : List (List UInt8) :=
  (s.objects[conn]?.map (·.binding)).toList

/-- An external connection is sent through only if it has sent something. -/
def lockedUses (ext : Nat) (s : RelayServer) : List (List UInt8) :=
  if s.objects[ext]?.any (·.locked) then s.sendUses ext else []

/-- The uses in `forwardTo`. -/
def forwardToUses (conn ext : Nat) (request : StunMessage) (s : RelayServer) : List (List UInt8) :=
  s.lockedUses ext ++
    match request.getUInt32 0x8001 with
    | none => []
    | some options => if options &&& 0x01 = 0 then [] else s.sendUses conn

/-- The uses in `HandleStunSend`. A connection that is made is one. -/
def handleStunSendUses (username : List UInt8) (request : StunMessage) (now : UInt32)
    (s : RelayServer) : List (List UInt8) :=
  match sendTarget request with
  | none => []
  | some (addr, _) =>
    match s.getExternalConnection username addr with
    | some ext => s.forwardToUses conn ext request
    | none =>
      let (s, ext) := s.openExternal username (s.externalPair addr) now
      username :: s.forwardToUses conn ext request

/-- The uses in `HandleStun` of a connection. -/
def handleConnectionStunUses (c : RelayServerConnection) (bytes : List UInt8)
    (now : UInt32) (s : RelayServer) : List (List UInt8) :=
  match (s.handleStun bytes c.addrPair).2 with
  | none => []
  | some (request, username) =>
    if username ≠ c.binding then []
    else if request.type = 0x0004 then s.handleStunSendUses conn c.binding request now
    else if request.type = 0x0003 then s.sendUses conn
    else []

/-- The uses in `forwardRaw`. -/
def forwardRawUses (c : RelayServerConnection) (s : RelayServer) : List (List UInt8) :=
  if c.locked = false then []
  else match s.getExternalConnection c.binding c.defaultDest with
    | none => []
    | some ext => s.lockedUses ext

/-- The uses in `deliver`. -/
def deliverUses (username : List UInt8) (sender : SocketAddress) (s : RelayServer) :
    List (List UInt8) :=
  match s.getInternalConnection username sender with
  | none => []
  | some conn => s.sendUses conn

/-- The request and the username for which `HandleStunAllocate` makes a connection. -/
def allocation (bytes : List UInt8) (ap : SocketAddressPair) (s : RelayServer) :
    Option (StunMessage × List UInt8) :=
  match (s.handleStun bytes ap).2 with
  | none => none
  | some (request, username) => if request.type ≠ 0x0003 then none else some (request, username)

/-- The bindings of which a connection is made or sent through, by their usernames. -/
def uses (s : RelayServer) : RelayOp → List (List UInt8)
  | .internalPacket localAddr remoteAddr bytes _ now =>
    let ap : SocketAddressPair := ⟨remoteAddr, localAddr⟩
    match s.connections ap with
    | none => ((s.allocation bytes ap).map (·.2)).toList
    | some conn =>
      match s.objects[conn]? with
      | none => []
      | some c =>
        if hasMagicCookie bytes then s.handleConnectionStunUses conn c bytes now else s.forwardRawUses c
  | .externalPacket localAddr remoteAddr bytes now =>
    let ap : SocketAddressPair := ⟨remoteAddr, localAddr⟩
    match s.connections ap with
    | some ext =>
      match s.objects[ext]? with
      | none => []
      | some c => s.deliverUses c.binding c.addrPair.source
    | none =>
      match StunMessage.read relayAttributeValueType bytes with
      | none => []
      | some (msg, _) =>
        match msg.getByteString 0x0006 with
        | none => []
        | some username =>
          let username := username.take usernameLength
          match s.bindings username with
          | none => []
          | some _ =>
            let (s, ext) := s.openExternal username ap now
            username :: (s.lock ext).deliverUses username ap.source
  | .timer _ _ => []
  | .dispose _ => []

/-- The request for which `HandleStunAllocate` makes a binding, and its username. -/
def newBinding (s : RelayServer) : RelayOp → Option (StunMessage × List UInt8)
  | .internalPacket localAddr remoteAddr bytes _ _ =>
    let ap : SocketAddressPair := ⟨remoteAddr, localAddr⟩
    match s.connections ap with
    | none => (s.allocation bytes ap).filter fun allocated => (s.bindings allocated.2).isNone
    | some _ => none
  | _ => none

/-- What the timer of a binding finds: that it was not used for its lifetime. -/
def expires (username : List UInt8) (now : UInt32) (s : RelayServer) : Bool :=
  (s.bindings username).any fun b => now ≥ b.lastUsed + b.lifetime

end RelayServer

/-! ### What the server does to its bindings -/

/-- A binding without its connections. -/
def RelayServerBinding.bare (b : RelayServerBinding) : RelayServerBinding :=
  { b with internalConnections := [], externalConnections := [] }

namespace RelayServer

variable {s t s' : RelayServer} {us us' : List (List UInt8)} {now : UInt32}

/-- A binding with this username, if it is one of those that are used now. -/
def touch (us : List (List UInt8)) (now : UInt32) (username : List UInt8) (b : RelayServerBinding) :
    RelayServerBinding :=
  if username ∈ us then { b with lastUsed := now } else b

/-- The bindings are those before, up to their connections, and these of them were last used now. -/
def UsedBy (us : List (List UInt8)) (now : UInt32) (s s' : RelayServer) : Prop :=
  ∀ username, (s'.bindings username).map (·.bare) =
    ((s.bindings username).map (·.bare)).map (touch us now username)

variable (username : List UInt8)

theorem touch_nil : touch [] now username = id :=
  funext fun _ => if_neg List.not_mem_nil

theorem touch_touch (b : RelayServerBinding) :
    touch us' now username (touch us now username b) = touch (us ++ us') now username b := by
  simp only [touch, List.mem_append]
  by_cases hus : username ∈ us
  · by_cases hus' : username ∈ us'
    · rw [if_pos hus, if_pos hus', if_pos (.inl hus)]
    · rw [if_pos hus, if_neg hus', if_pos (.inl hus)]
  · by_cases hus' : username ∈ us'
    · rw [if_neg hus, if_pos hus', if_pos (.inr hus')]
    · rw [if_neg hus, if_neg hus', if_neg (fun h => h.elim hus hus')]

theorem usedBy_of_eq (h : s'.bindings = s.bindings) : UsedBy [] now s s' := by
  intro username
  rw [h, touch_nil, Option.map_id]
  rfl

theorem UsedBy.refl : UsedBy [] now s s := usedBy_of_eq rfl

theorem UsedBy.append (h : UsedBy us now s t) (h' : UsedBy us' now t s') : UsedBy (us ++ us') now s s' := by
  intro username
  rw [h' username, h username, Option.map_map]
  exact congrArg (fun g => Option.map g _) (funext fun b => touch_touch username b)

theorem UsedBy.congr (h : UsedBy us now s s') (heq : ∀ username, username ∈ us ↔ username ∈ us') :
    UsedBy us' now s s' := by
  intro username
  have htouch : touch us' now username = touch us now username :=
    funext fun b => if_congr (heq username).symm rfl rfl
  rw [h username, htouch]

theorem UsedBy.after (h : UsedBy us now t s') (hfirst : UsedBy [] now s t) : UsedBy us now s s' :=
  hfirst.append h

theorem UsedBy.before (h : UsedBy us now s t) (hlast : UsedBy [] now t s') : UsedBy us now s s' := by
  have hboth := h.append hlast
  rwa [List.append_nil] at hboth

theorem usedBy_withBinding {f : RelayServerBinding → RelayServerBinding}
    (hf : ∀ b, (f b).bare = touch us now username b.bare)
    (hother : ∀ other, other ≠ username → other ∉ us)
    (s : RelayServer) : UsedBy us now s (s.withBinding username f) := by
  intro other
  change (Function.update s.bindings username _ other).map _ = _
  by_cases heq : other = username
  · subst heq
    rw [Function.update_self, Option.map_map, Option.map_map]
    exact congrArg (fun g => Option.map g (s.bindings other)) (funext hf)
  · have hid : touch us now other = id := funext fun b => if_neg (hother other heq)
    rw [Function.update_of_ne heq, hid, Option.map_id]
    rfl

theorem usedBy_noteUsed (now : UInt32) (s : RelayServer) :
    UsedBy [username] now s (s.noteUsed username now) := by
  refine usedBy_withBinding username (fun b => ?_)
    (fun other hother hmem => hother (List.mem_singleton.mp hmem)) s
  rw [touch, if_pos (List.mem_singleton_self username)]
  rfl

variable (conn : Nat)

theorem usedBy_send (payload : RelayPayload) (now : UInt32) (s : RelayServer) :
    UsedBy (s.sendUses conn) now s (s.send conn payload now) := by
  rw [send, sendUses]
  cases s.objects[conn]? with
  | none => exact .refl
  | some c => exact usedBy_noteUsed c.binding now s

theorem usedBy_answerAllocate (request : StunMessage) (choice : Nat) (now : UInt32)
    (s : RelayServer) : UsedBy (s.sendUses conn) now s (s.answerAllocate conn request choice now) :=
  usedBy_send conn _ now s

theorem usedBy_sendStunError (request : StunMessage) (code : Nat) (desc : String)
    (s : RelayServer) : UsedBy [] now s (s.sendStunError conn request code desc) := by
  rw [sendStunError]
  split
  · exact .refl
  · exact usedBy_of_eq rfl

theorem usedBy_sendFrom (data : List UInt8) (sender : SocketAddress) (now : UInt32)
    (s : RelayServer) : UsedBy (s.sendUses conn) now s (s.sendFrom conn data sender now) := by
  rw [sendFrom]
  cases hc : s.objects[conn]? with
  | none =>
    rw [sendUses, hc]
    exact .refl
  | some c =>
    dsimp only
    split
    · exact usedBy_send conn _ now s
    · exact usedBy_send conn _ now s

theorem usedBy_lockedSend (ext : Nat) (payload : RelayPayload) (now : UInt32) (s : RelayServer) :
    UsedBy (s.lockedUses ext) now s
      (if s.objects[ext]?.any (·.locked) then s.send ext payload now else s) := by
  rw [lockedUses]
  split
  · exact usedBy_send ext payload now s
  · exact .refl

theorem Quiet.sendUses (h : Quiet s s') (conn : Nat) : s'.sendUses conn = s.sendUses conn := by
  have hitems (s : RelayServer) : s.sendUses conn = (s.books.items[conn]?.map Prod.fst).toList := by
    change _ = ((s.objects.map fun c => (c.binding, c.addrPair))[conn]?.map Prod.fst).toList
    rw [RelayServer.sendUses, List.getElem?_map, Option.map_map]
    rfl
  rw [hitems, hitems, h.books]

theorem usedBy_forwardTo (conn ext : Nat) (request : StunMessage) (addr : SocketAddress)
    (data : List UInt8) (now : UInt32) (s : RelayServer) :
    UsedBy (s.forwardToUses conn ext request) now s (s.forwardTo conn ext request addr data now) := by
  have hfirst := usedBy_lockedSend ext (.raw data) now s
  rw [forwardTo, forwardToUses]
  have hquiet := quiet_lockedSend ext data now s
  refine hfirst.append ?_
  cases request.getUInt32 0x8001 with
  | none => exact .refl
  | some options =>
    dsimp only
    split
    · exact .refl
    · rw [← (hquiet.trans (quiet_lockTo conn addr _)).sendUses conn]
      exact (usedBy_send conn _ now _).after (usedBy_of_eq rfl)

theorem usedBy_place (ap : SocketAddressPair) (now : UInt32)
    {f : RelayServerBinding → RelayServerBinding} (hf : ∀ b, (f b).bare = b.bare) (conn : Nat)
    (s : RelayServer) :
    UsedBy [username] now s
      ((((s.newConnection username ap now).1).withBinding username f).addConnection ap conn) := by
  have hnew : UsedBy [username] now s (s.newConnection username ap now).1 :=
    (usedBy_noteUsed username now s).before (usedBy_of_eq rfl)
  have hplaced : UsedBy [] now (s.newConnection username ap now).1
      (((s.newConnection username ap now).1).withBinding username f) :=
    usedBy_withBinding username (fun b => (hf b).trans (if_neg List.not_mem_nil).symm)
      (fun _ _ => List.not_mem_nil) _
  exact (hnew.before hplaced).before (usedBy_of_eq rfl)

theorem usedBy_openInternal (ap : SocketAddressPair) (now : UInt32)
    (s : RelayServer) : UsedBy [username] now s (s.openInternal username ap now).1 := by
  exact usedBy_place username ap now
    (f := fun b => { b with internalConnections := b.internalConnections ++ [s.objects.length] })
    (fun _ => rfl) s.objects.length s

theorem usedBy_openExternal (ap : SocketAddressPair) (now : UInt32)
    (s : RelayServer) : UsedBy [username] now s (s.openExternal username ap now).1 := by
  exact usedBy_place username ap now
    (f := fun b => { b with externalConnections := b.externalConnections ++ [s.objects.length] })
    (fun _ => rfl) s.objects.length s

theorem usedBy_handleStunSend (username : List UInt8) (request : StunMessage)
    (now : UInt32) (s : RelayServer) :
    UsedBy (s.handleStunSendUses conn username request now) now s
      (s.handleStunSend conn username request now) := by
  rw [handleStunSend, handleStunSendUses]
  cases sendTarget request with
  | none => exact usedBy_sendStunError conn request 400 _ s
  | some target =>
    obtain ⟨addr, data⟩ := target
    dsimp only
    cases s.getExternalConnection username addr with
    | some ext => exact usedBy_forwardTo conn ext request addr data now s
    | none =>
      exact (usedBy_openExternal username (s.externalPair addr) now s).append
        (usedBy_forwardTo conn _ request addr data now _)

theorem bindings_handleStun (bytes : List UInt8) (ap : SocketAddressPair) (s : RelayServer) :
    (s.handleStun bytes ap).1.bindings = s.bindings := by
  rw [handleStun]
  split
  · rfl
  · split <;> rfl

theorem usedBy_handleConnectionStun (c : RelayServerConnection) (bytes : List UInt8)
    (choice : Nat) (now : UInt32) (s : RelayServer) :
    UsedBy (s.handleConnectionStunUses conn c bytes now) now s
      (s.handleConnectionStun conn c bytes choice now) := by
  rw [handleConnectionStun, handleConnectionStunUses]
  rcases handleStun_cases bytes c.addrPair s with ⟨t, heq, -, -⟩ | ⟨request, _, username, heq, -, -⟩
  · rw [heq]
    have hbindings : t.bindings = s.bindings := by
      rw [← bindings_handleStun bytes c.addrPair s, heq]
    exact usedBy_of_eq hbindings
  rw [heq]
  dsimp only
  split
  · exact usedBy_sendStunError conn request 430 _ s
  · split
    · exact usedBy_handleStunSend conn c.binding request now s
    · split
      · exact usedBy_send conn _ now s
      · exact usedBy_sendStunError conn request 600 _ s

theorem usedBy_forwardRaw (c : RelayServerConnection) (bytes : List UInt8) (now : UInt32)
    (s : RelayServer) :
    UsedBy (s.forwardRawUses c) now s (s.forwardRaw c bytes now) := by
  rw [forwardRaw, forwardRawUses]
  split
  · exact .refl
  · cases s.getExternalConnection c.binding c.defaultDest with
    | none => exact .refl
    | some ext => exact usedBy_lockedSend ext (.raw bytes) now s

theorem usedBy_deliver (username bytes : List UInt8) (sender : SocketAddress) (now : UInt32)
    (s : RelayServer) :
    UsedBy (s.deliverUses username sender) now s (s.deliver username bytes sender now) := by
  rw [deliver, deliverUses]
  cases s.getInternalConnection username sender with
  | none => exact .refl
  | some conn => exact usedBy_sendFrom conn bytes sender now s

/-- The server with the binding that is made for this request. -/
def makeBinding (allocated : Option (StunMessage × List UInt8)) (now : UInt32) (s : RelayServer) :
    RelayServer :=
  match allocated with
  | none => s
  | some (request, username) =>
    { s with
      bindings := Function.update s.bindings username
        (some ⟨requestedLifetime request, now, [], [], false⟩) }

theorem usedBy_handleStunAllocate (bytes : List UInt8) (ap : SocketAddressPair) (choice : Nat)
    (now : UInt32) (s : RelayServer) :
    UsedBy ((s.allocation bytes ap).map (·.2)).toList now
      (s.makeBinding ((s.allocation bytes ap).filter fun allocated => (s.bindings allocated.2).isNone) now)
      (s.handleStunAllocate bytes ap choice now) := by
  rw [handleStunAllocate, allocation]
  rcases handleStun_cases bytes ap s with ⟨t, heq, -, -⟩ | ⟨request, _, username, heq, -, -⟩
  · rw [heq]
    have hbindings : t.bindings = s.bindings := by
      rw [← bindings_handleStun bytes ap s, heq]
    exact usedBy_of_eq hbindings
  rw [heq]
  dsimp only
  split
  · exact usedBy_of_eq rfl
  rw [Option.map_some, Option.toList_some, Option.filter_some]
  have hopened (t : RelayServer) : UsedBy [username] now t
      ((t.openInternal username ap now).1.answerAllocate (t.openInternal username ap now).2 request
        choice now) := by
    have hconn : (t.openInternal username ap now).1.sendUses (t.openInternal username ap now).2 =
        [username] := by
      change ((t.objects ++ [_])[t.objects.length]?.map _).toList = _
      rw [List.getElem?_concat_length]
      rfl
    have hanswered := (usedBy_openInternal username ap now t).append
      (usedBy_answerAllocate (t.openInternal username ap now).2 request choice now _)
    rw [hconn] at hanswered
    exact hanswered.congr fun other => by simp
  cases hb : s.bindings username with
  | some b =>
    dsimp only [Option.isNone]
    exact hopened s
  | none =>
    dsimp only [Option.isNone]
    exact hopened (s.makeBinding (some (request, username)) now)

theorem usedBy_onInternalPacket (localAddr remoteAddr : SocketAddress) (bytes : List UInt8)
    (choice : Nat) (now : UInt32) (s : RelayServer) :
    UsedBy (s.uses (.internalPacket localAddr remoteAddr bytes choice now)) now
      (s.makeBinding (s.newBinding (.internalPacket localAddr remoteAddr bytes choice now)) now)
      (s.onInternalPacket localAddr remoteAddr bytes choice now) := by
  rw [onInternalPacket, uses, newBinding]
  cases s.connections ⟨remoteAddr, localAddr⟩ with
  | none => exact usedBy_handleStunAllocate bytes _ choice now s
  | some conn =>
    dsimp only
    cases s.objects[conn]? with
    | none => exact .refl
    | some c =>
      dsimp only
      split
      · exact usedBy_handleConnectionStun conn c bytes choice now s
      · exact usedBy_forwardRaw c bytes now s

theorem usedBy_onExternalPacket (localAddr remoteAddr : SocketAddress) (bytes : List UInt8)
    (now : UInt32) (s : RelayServer) :
    UsedBy (s.uses (.externalPacket localAddr remoteAddr bytes now)) now s
      (s.onExternalPacket localAddr remoteAddr bytes now) := by
  rw [onExternalPacket, uses]
  cases s.connections ⟨remoteAddr, localAddr⟩ with
  | some ext =>
    dsimp only
    cases s.objects[ext]? with
    | none => exact .refl
    | some c => exact (usedBy_deliver c.binding bytes c.addrPair.source now s).before (usedBy_of_eq rfl)
  | none =>
    cases StunMessage.read relayAttributeValueType bytes with
    | none => exact .refl
    | some message =>
      obtain ⟨msg, rest⟩ := message
      dsimp only
      cases msg.getByteString 0x0006 with
      | none => exact .refl
      | some username =>
        dsimp only
        cases s.bindings (username.take usernameLength) with
        | none => exact .refl
        | some b =>
          exact (usedBy_openExternal _ _ now s).append
            ((usedBy_deliver _ bytes remoteAddr now _).after (usedBy_of_eq rfl))

variable {b : RelayServerBinding}

theorem expires_eq {username : List UInt8} (hb : s.bindings username = some b) :
    s.expires username now = decide (now ≥ b.lastUsed + b.lifetime) := by
  rw [expires, hb]
  rfl

theorem onTimer_of_expires {username : List UInt8}
    (hb : s.bindings username = some b) (hexpires : s.expires username now = true) :
    (s.onTimer username now).bindings =
      Function.update s.bindings username (some { b with expired := true }) := by
  rw [expires_eq hb, decide_eq_true_iff] at hexpires
  change Function.update s.bindings username ((s.bindings username).map _) = _
  rw [hb, Option.map_some, if_pos hexpires]

theorem onTimer_of_not_expires {username : List UInt8} (hexpires : s.expires username now = false) :
    (s.onTimer username now).bindings = s.bindings := by
  change Function.update s.bindings username ((s.bindings username).map _) = _
  rw [Function.update_eq_self_iff]
  cases hb : s.bindings username with
  | none => rfl
  | some b =>
    rw [expires_eq hb, decide_eq_false_iff_not] at hexpires
    rw [Option.map_some, if_neg hexpires]

theorem bindings_deleteBinding (b : RelayServerBinding) (s : RelayServer) :
    (s.deleteBinding username b).bindings = Function.update s.bindings username none := by
  have hremoved (conns : List Nat) : (conns.foldl removeConnection s).bindings = s.bindings := by
    induction conns using List.reverseRecOn with
    | nil => rfl
    | append_singleton conns conn ih =>
      rw [List.foldl_append]
      exact (removeConnection_books conn _).2.2.1.trans ih
  change Function.update (b.connections.foldl removeConnection s).bindings username none = _
  rw [hremoved]

theorem bindings_dispose {username : List UInt8}
    (hb : s.bindings username = some b) (hexpired : b.expired = true) :
    (s.dispose username).bindings = Function.update s.bindings username none := by
  rw [dispose, hb]
  dsimp only
  rw [if_pos hexpired, bindings_deleteBinding]

end RelayServer

end Synciga
