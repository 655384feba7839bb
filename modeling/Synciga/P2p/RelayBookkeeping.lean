import Synciga.P2p.RelayServer

/-!
# The index of a relay server

The index is to have exactly the connections of the bindings. A connection is made only if its pair of addresses
is not in the index, but for a send request, which looks for one only in its own binding: if another binding
talks to the address, the new connection takes the place of the other one in the index.

## Main definitions

* `Sound` — the index is right

## Main results

* `booked_run_iff` — it is, exactly if no send request opens what is taken
-/

namespace Synciga.RelayServer

variable {s s' : RelayServer}

/-! ### What is expected -/

/-- A connection belongs to a binding. -/
def Held (s : RelayServer) (conn : Nat) : Prop :=
  ∃ username b, s.bindings username = some b ∧
    (conn ∈ b.internalConnections ∨ conn ∈ b.externalConnections)

/-- `addr_pair`. -/
def addrPairOf (s : RelayServer) (conn : Nat) : Option SocketAddressPair := s.objects[conn]?.map (·.addrPair)

/-- The index has exactly the connections of the bindings, each under its own pair of addresses, no two of
them share one, and nothing was ever in the way. -/
structure Booked (s : RelayServer) : Prop where
  exact : ∀ ap conn, s.connections ap = some conn ↔ s.Held conn ∧ s.addrPairOf conn = some ap
  unshared : ∀ conn conn', s.Held conn → s.Held conn' → s.addrPairOf conn = s.addrPairOf conn' → conn = conn'
  placed : s.displaced = []

/-- The pair of addresses for which a send request of this connection opens an external connection. -/
def openedBy (s : RelayServer) (c : RelayServerConnection) (bytes : List UInt8) : Option SocketAddressPair :=
  match StunMessage.read relayAttributeValueType bytes with
  | none => none
  | some (request, _) =>
    if request.getByteString 0x0006 = some c.binding ∧ request.type = 0x0004 then
      match sendTarget request with
      | none => none
      | some (addr, _) =>
        if (s.getExternalConnection c.binding addr).isSome then none else some (s.externalPair addr)
    else none

/-- The pair of addresses for which a packet from inside has the server open an external connection. -/
def opened (s : RelayServer) : RelayOp → Option SocketAddressPair
  | .internalPacket localAddr remoteAddr bytes _ _ =>
    match s.connections ⟨remoteAddr, localAddr⟩ with
    | none => none
    | some conn =>
      match s.objects[conn]? with
      | none => none
      | some c => if hasMagicCookie bytes then s.openedBy c bytes else none
  | _ => none

/-- A send request does not open a connection for a pair of addresses that is taken. -/
def KeepsApart (s : RelayServer) (op : RelayOp) : Prop := ∀ ap, s.opened op = some ap → s.connections ap = none

/-! ### The server as a registry -/

/-- The connections, those of each binding, and the index. -/
def books (s : RelayServer) : Registry (List UInt8) SocketAddressPair where
  items := s.objects.map fun c => (c.binding, c.addrPair)
  held username := (s.bindings username).map (·.connections)
  index := s.connections

variable (conn : Nat)

theorem held_books : s.books.Held conn ↔ s.Held conn := by
  constructor
  · rintro ⟨username, l, hl, hconn⟩
    obtain ⟨b, hb, rfl⟩ := Option.map_eq_some_iff.mp hl
    exact ⟨username, b, hb, List.mem_append.mp hconn⟩
  · rintro ⟨username, b, hb, hconn⟩
    exact ⟨username, b.connections, Option.map_eq_some_iff.mpr ⟨b, hb, rfl⟩, List.mem_append.mpr hconn⟩

theorem key_books : s.books.key conn = s.addrPairOf conn := by
  change Option.map _ (s.objects.map _)[conn]? = _
  rw [List.getElem?_map, Option.map_map]
  rfl

/-- What is proved of every state: the books are sound, and nothing was in the way. -/
structure Sound (s : RelayServer) : Prop where
  books : s.books.Sound
  placed : s.displaced = []

theorem Sound.booked (h : Sound s) : Booked s where
  exact ap conn := by
    rw [← held_books, ← key_books]
    exact h.books.exact ap conn
  unshared conn conn' hconn hconn' heq := by
    have hheld := (held_books conn).mpr hconn
    obtain ⟨username, l, hl, hmem⟩ := hheld
    obtain ⟨ap, hap⟩ := h.books.key hl hmem
    rw [← key_books, ← key_books, hap] at heq
    exact h.books.exact.unshared ⟨username, l, hl, hmem⟩ ((held_books conn').mpr hconn') hap heq.symm
  placed := h.placed

theorem sound_create (externalSocket : SocketAddress) (more : List SocketAddress) :
    Sound (create externalSocket more) :=
  ⟨Registry.sound_empty, rfl⟩

/-! ### What leaves the books alone -/

/-- The books stay as they are, and so does what was in the way. -/
structure Quiet (s s' : RelayServer) : Prop where
  books : s'.books = s.books
  displaced : s'.displaced = s.displaced

theorem Quiet.refl (s : RelayServer) : Quiet s s := ⟨rfl, rfl⟩

theorem Quiet.trans {t : RelayServer} (h : Quiet s t) (h' : Quiet t s') : Quiet s s' :=
  ⟨h'.books.trans h.books, h'.displaced.trans h.displaced⟩

theorem Quiet.sound (h : Quiet s s') (hs : Sound s) : Sound s' :=
  ⟨h.books ▸ hs.books, h.displaced.trans hs.placed⟩

theorem quiet_withBinding (username : List UInt8) {f : RelayServerBinding → RelayServerBinding}
    (hf : ∀ b, (f b).connections = b.connections) (s : RelayServer) : Quiet s (s.withBinding username f) := by
  refine ⟨?_, rfl⟩
  have hheld : (s.withBinding username f).books.held = s.books.held := by
    funext other
    change (Function.update s.bindings username _ other).map _ = (s.bindings other).map _
    by_cases hother : other = username
    · subst hother
      rw [Function.update_self, Option.map_map]
      exact congrArg (fun g => Option.map g (s.bindings other)) (funext hf)
    · rw [Function.update_of_ne hother]
  exact congrArg (fun held => { s.books with held }) hheld

theorem quiet_withConnection {f : RelayServerConnection → RelayServerConnection}
    (hf : ∀ c, (f c).binding = c.binding ∧ (f c).addrPair = c.addrPair) (s : RelayServer) :
    Quiet s (s.withConnection conn f) := by
  refine ⟨?_, rfl⟩
  have hitems : (s.withConnection conn f).books.items = s.books.items := by
    refine List.ext_getElem? fun other => ?_
    change ((s.objects.modify conn f).map _)[other]? = (s.objects.map _)[other]?
    rw [List.getElem?_map, List.getElem?_map]
    by_cases hother : conn = other
    · subst hother
      rw [List.getElem?_modify_eq, Option.map_eq_map, Option.map_map]
      refine congrArg (fun g => Option.map g s.objects[conn]?) (funext fun c => ?_)
      exact Prod.ext (hf c).1 (hf c).2
    · rw [List.getElem?_modify_ne _ _ hother]
  exact congrArg (fun items => { s.books with items }) hitems

theorem quiet_noteUsed (username : List UInt8) (now : UInt32) (s : RelayServer) :
    Quiet s (s.noteUsed username now) :=
  quiet_withBinding username (f := fun b => { b with lastUsed := now }) (fun _ => rfl) s

theorem quiet_transmit (ap : SocketAddressPair) (payload : RelayPayload) (s : RelayServer) :
    Quiet s (s.transmit ap payload) :=
  ⟨rfl, rfl⟩

theorem quiet_send (payload : RelayPayload) (now : UInt32) (s : RelayServer) :
    Quiet s (s.send conn payload now) := by
  rw [send]
  split
  · exact .refl s
  · exact (quiet_noteUsed _ now s).trans (quiet_transmit _ payload _)

theorem quiet_sendStunError (request : StunMessage) (code : Nat) (desc : String)
    (s : RelayServer) : Quiet s (s.sendStunError conn request code desc) := by
  rw [sendStunError]
  split
  · exact .refl s
  · exact quiet_transmit _ _ s

theorem quiet_sendFrom (data : List UInt8) (sender : SocketAddress) (now : UInt32)
    (s : RelayServer) : Quiet s (s.sendFrom conn data sender now) := by
  rw [sendFrom]
  split
  · exact .refl s
  · split
    · exact quiet_send conn _ now s
    · exact quiet_send conn _ now s

theorem quiet_lock (s : RelayServer) : Quiet s (s.lock conn) :=
  quiet_withConnection conn (f := fun c => { c with locked := true }) (fun _ => ⟨rfl, rfl⟩) s

theorem quiet_answerAllocate (request : StunMessage) (choice : Nat) (now : UInt32)
    (s : RelayServer) : Quiet s (s.answerAllocate conn request choice now) :=
  quiet_send conn _ now s

theorem quiet_lockedSend (ext : Nat) (data : List UInt8) (now : UInt32) (s : RelayServer) :
    Quiet s (if s.objects[ext]?.any (·.locked) then s.send ext (.raw data) now else s) := by
  split
  · exact quiet_send ext _ now s
  · exact .refl s

theorem quiet_lockTo (conn : Nat) (addr : SocketAddress) (s : RelayServer) :
    Quiet s ((s.withConnection conn fun c => { c with defaultDest := addr }).lock conn) :=
  (quiet_withConnection conn (f := fun c => { c with defaultDest := addr }) (fun _ => ⟨rfl, rfl⟩) s).trans
    (quiet_lock conn _)

theorem quiet_forwardTo (conn ext : Nat) (request : StunMessage) (addr : SocketAddress) (data : List UInt8)
    (now : UInt32) (s : RelayServer) : Quiet s (s.forwardTo conn ext request addr data now) := by
  have hsent := quiet_lockedSend ext data now s
  rw [forwardTo]
  split
  · exact hsent
  split
  · exact hsent
  · exact (hsent.trans (quiet_lockTo conn addr _)).trans (quiet_send conn _ now _)

theorem quiet_forwardRaw (c : RelayServerConnection) (bytes : List UInt8) (now : UInt32) (s : RelayServer) :
    Quiet s (s.forwardRaw c bytes now) := by
  rw [forwardRaw]
  split
  · exact .refl s
  · split
    · exact .refl s
    · split
      · exact quiet_send _ _ now s
      · exact .refl s

theorem quiet_deliver (username : List UInt8) (bytes : List UInt8) (sender : SocketAddress) (now : UInt32)
    (s : RelayServer) : Quiet s (s.deliver username bytes sender now) := by
  rw [deliver]
  split
  · exact .refl s
  · exact quiet_sendFrom _ bytes sender now s

theorem quiet_onTimer (username : List UInt8) (now : UInt32) (s : RelayServer) :
    Quiet s (s.onTimer username now) := by
  refine quiet_withBinding username (fun b => ?_) s
  split
  · rfl
  · rfl

/-! ### Connections are opened -/

/-- A connection is opened by a binding, and it takes the place of what was in its way. -/
structure Opens (username : List UInt8) (ap : SocketAddressPair) (s s' : RelayServer) : Prop where
  adds : Registry.Adds username ap s.books s'.books
  displaced : s'.displaced = if s.connections ap = none then s.displaced else s.displaced ++ [ap]

variable {ap : SocketAddressPair} {username : List UInt8}

theorem Opens.sound (h : Opens username ap s s')
    (hs : Sound s) (hfree : s.connections ap = none) : Sound s' :=
  ⟨hs.books.adds h.adds hfree, by rw [h.displaced, if_pos hfree, hs.placed]⟩

theorem Opens.displaces (h : Opens username ap s s')
    (htaken : s.connections ap ≠ none) : s'.displaced ≠ [] := by
  rw [h.displaced, if_neg htaken]
  exact List.append_ne_nil_of_right_ne_nil _ (List.cons_ne_nil _ _)

variable {b : RelayServerBinding}

theorem opens_of_place (hb : s.bindings username = some b)
    (ap : SocketAddressPair) (now : UInt32) {f : RelayServerBinding → RelayServerBinding}
    (hf : ∀ b, (f b).connections.Perm (s.objects.length :: b.connections)) :
    Opens username ap s
      (((s.newConnection username ap now).1.withBinding username f).addConnection ap s.objects.length) := by
  have hnoted : (s.newConnection username ap now).1.bindings =
      Function.update s.bindings username (some { b with lastUsed := now }) := by
    change Function.update s.bindings username ((s.bindings username).map _) = _
    rw [hb]
    rfl
  have hlength : s.books.items.length = s.objects.length := List.length_map _
  refine ⟨⟨?_, ⟨b.connections, (f { b with lastUsed := now }).connections, ?_, ?_, ?_⟩, ?_⟩, rfl⟩
  · change (s.objects ++ [_]).map _ = _
    rw [List.map_append]
    rfl
  · exact Option.map_eq_some_iff.mpr ⟨b, hb, rfl⟩
  · rw [hlength]
    exact hf { b with lastUsed := now }
  · funext other
    change Option.map _ (Function.update (s.newConnection username ap now).1.bindings username _ other) = _
    rw [hnoted, Function.update_self]
    by_cases hother : other = username
    · subst hother
      rw [Function.update_self, Function.update_self]
      rfl
    · rw [Function.update_of_ne hother, Function.update_of_ne hother, Function.update_of_ne hother]
      rfl
  · rw [hlength]
    rfl

theorem opens_openInternal (hb : s.bindings username = some b) (ap : SocketAddressPair) (now : UInt32) :
    Opens username ap s (s.openInternal username ap now).1 := by
  refine opens_of_place hb ap now fun b => ?_
  change ((b.internalConnections ++ [s.objects.length]) ++ b.externalConnections).Perm _
  rw [List.append_assoc]
  exact List.perm_middle

theorem opens_openExternal (hb : s.bindings username = some b) (ap : SocketAddressPair) (now : UInt32) :
    Opens username ap s (s.openExternal username ap now).1 := by
  refine opens_of_place hb ap now fun b => ?_
  change (b.internalConnections ++ (b.externalConnections ++ [s.objects.length])).Perm _
  rw [← List.append_assoc]
  exact List.perm_append_singleton _ _

/-! ### Packets -/

/-- What a packet does to the books: nothing, or a connection is opened whose pair of addresses was free,
or one for which something was in the way. -/
inductive Effect (s : RelayServer) (op : RelayOp) (s' : RelayServer) : Prop
  | quiet (hquiet : Quiet s s') (hopened : s.opened op = none)
  | fresh (hsound : Sound s → Sound s') (hopened : s.opened op = none)
  | opens (username : List UInt8) (ap : SocketAddressPair) (t : RelayServer) (hopens : Opens username ap s t)
      (hquiet : Quiet t s') (hopened : s.opened op = some ap)

theorem sound_newBinding (hnone : s.bindings username = none) (hb : b.connections = []) (hs : Sound s) :
    Sound { s with bindings := Function.update s.bindings username (some b) } := by
  refine ⟨?_, hs.placed⟩
  have hbooks : ({ s with bindings := Function.update s.bindings username (some b) } : RelayServer).books =
      s.books.enroll username := by
    refine congrArg (fun held => { s.books with held }) (funext fun other => ?_)
    change Option.map _ (Function.update s.bindings username (some b) other) =
      Function.update s.books.held username (some []) other
    by_cases hother : other = username
    · subst hother
      rw [Function.update_self, Function.update_self, ← hb]
      rfl
    · rw [Function.update_of_ne hother, Function.update_of_ne hother]
      rfl
  rw [hbooks]
  refine hs.books.enroll ?_
  change Option.map _ (s.bindings username) = none
  rw [hnone]
  rfl

theorem handleStun_cases (bytes : List UInt8) (ap : SocketAddressPair) (s : RelayServer) :
    (∃ t, s.handleStun bytes ap = (t, none) ∧ Quiet s t ∧
      ∀ msg rest, StunMessage.read relayAttributeValueType bytes = some (msg, rest) →
        msg.getByteString 0x0006 = none) ∨
    ∃ msg rest username, s.handleStun bytes ap = (s, some (msg, username)) ∧
      StunMessage.read relayAttributeValueType bytes = some (msg, rest) ∧
      msg.getByteString 0x0006 = some username := by
  rw [handleStun]
  cases hread : StunMessage.read relayAttributeValueType bytes with
  | none => exact .inl ⟨s, rfl, .refl s, nofun⟩
  | some r =>
    obtain ⟨msg, rest⟩ := r
    dsimp only
    cases husername : msg.getByteString 0x0006 with
    | none =>
      refine .inl ⟨_, rfl, quiet_transmit _ _ s, fun msg' rest' heq => ?_⟩
      cases heq
      exact husername
    | some username => exact .inr ⟨msg, rest, username, rfl, rfl, husername⟩

theorem sound_handleStunAllocate (bytes : List UInt8)
    (hfree : s.connections ap = none) (choice : Nat) (now : UInt32) (hs : Sound s) :
    Sound (s.handleStunAllocate bytes ap choice now) := by
  rw [handleStunAllocate]
  rcases handleStun_cases bytes ap s with ⟨t, heq, hquiet, -⟩ | ⟨request, _, username, heq, -, -⟩
  · rw [heq]
    exact hquiet.sound hs
  rw [heq]
  dsimp only
  split
  · exact (quiet_transmit _ _ s).sound hs
  cases hb : s.bindings username with
  | some b =>
    have hopens := opens_openInternal hb ap now
    exact (quiet_answerAllocate _ request choice now _).sound (hopens.sound hs hfree)
  | none =>
    set b : RelayServerBinding := ⟨requestedLifetime request, now, [], [], false⟩ with hbdef
    set t : RelayServer := { s with bindings := Function.update s.bindings username (some b) } with ht
    have hopens : Opens username ap t (t.openInternal username ap now).1 :=
      opens_openInternal (Function.update_self _ _ _) ap now
    exact (quiet_answerAllocate _ request choice now _).sound
      (hopens.sound (sound_newBinding hb rfl hs) hfree)

theorem effect_handleConnectionStun {conn : Nat} {c : RelayServerConnection}
    {localAddr remoteAddr : SocketAddress} {bytes : List UInt8} {choice : Nat} {now : UInt32}
    (hbound : (s.bindings c.binding).isSome)
    (hopened : s.opened (.internalPacket localAddr remoteAddr bytes choice now) = s.openedBy c bytes) :
    Effect s (.internalPacket localAddr remoteAddr bytes choice now)
      (s.handleConnectionStun conn c bytes choice now) := by
  rw [handleConnectionStun]
  rcases handleStun_cases bytes c.addrPair s with
    ⟨t, heq, hquiet, hnone⟩ | ⟨request, rest, username, heq, hread, husername⟩
  · rw [heq]
    refine .quiet hquiet ?_
    rw [hopened, openedBy]
    split
    · rfl
    · rename_i msg rest hmsg
      rw [hnone msg rest hmsg, if_neg (by rintro ⟨h, -⟩; cases h)]
  rw [heq]
  dsimp only
  rw [openedBy, hread] at hopened
  dsimp only at hopened
  rw [husername] at hopened
  by_cases hname : username ≠ c.binding
  · rw [if_pos hname]
    rw [if_neg (fun h => hname (Option.some.inj h.1))] at hopened
    exact .quiet (quiet_sendStunError conn request 430 _ s) hopened
  rw [if_neg hname]
  have hsame : username = c.binding := not_not.mp hname
  by_cases htype : request.type = 0x0004
  · rw [if_pos htype, handleStunSend]
    rw [if_pos ⟨congrArg some hsame, htype⟩] at hopened
    cases htarget : sendTarget request with
    | none =>
      rw [htarget] at hopened
      exact .quiet (quiet_sendStunError conn request 400 _ s) hopened
    | some target =>
      obtain ⟨addr, data⟩ := target
      rw [htarget] at hopened
      dsimp only at hopened ⊢
      cases hext : s.getExternalConnection c.binding addr with
      | some ext =>
        rw [hext] at hopened
        exact .quiet (quiet_forwardTo conn ext request addr data now s) hopened
      | none =>
        rw [hext] at hopened
        obtain ⟨b, hb⟩ := Option.isSome_iff_exists.mp hbound
        exact .opens c.binding (s.externalPair addr) _ (opens_openExternal hb _ now)
          (quiet_forwardTo conn _ request addr data now _) hopened
  · rw [if_neg htype]
    rw [if_neg (fun h => htype h.2)] at hopened
    split
    · exact .quiet (quiet_answerAllocate conn request choice now s) hopened
    · exact .quiet (quiet_sendStunError conn request 600 _ s) hopened

theorem Sound.bound (hs : Sound s) {conn : Nat} (hap : s.connections ap = some conn)
    {c : RelayServerConnection} (hc : s.objects[conn]? = some c) : (s.bindings c.binding).isSome := by
  obtain ⟨⟨username, l, hl, hmem⟩, -⟩ := (hs.books.exact ap conn).mp hap
  obtain ⟨k, hk⟩ := hs.books.owned username l hl conn hmem
  change (s.objects.map _)[conn]? = _ at hk
  rw [List.getElem?_map, hc] at hk
  obtain ⟨b, hb, -⟩ := Option.map_eq_some_iff.mp hl
  rw [show c.binding = username from congrArg Prod.fst (Option.some.inj hk), hb]
  rfl

theorem effect_onInternalPacket (hs : Sound s) (localAddr remoteAddr : SocketAddress) (bytes : List UInt8)
    (choice : Nat) (now : UInt32) :
    Effect s (.internalPacket localAddr remoteAddr bytes choice now)
      (s.onInternalPacket localAddr remoteAddr bytes choice now) := by
  rw [onInternalPacket]
  cases hap : s.connections ⟨remoteAddr, localAddr⟩ with
  | none =>
    refine .fresh (sound_handleStunAllocate bytes hap choice now) ?_
    rw [opened, hap]
  | some conn =>
    dsimp only
    cases hc : s.objects[conn]? with
    | none =>
      refine .quiet (.refl s) ?_
      simp only [opened, hap, hc]
    | some c =>
      dsimp only
      by_cases hcookie : hasMagicCookie bytes = true
      · rw [if_pos hcookie]
        refine effect_handleConnectionStun (hs.bound hap hc) ?_
        simp only [opened, hap, hc, if_pos hcookie]
      · rw [if_neg hcookie]
        refine .quiet (quiet_forwardRaw c bytes now s) ?_
        simp only [opened, hap, hc, if_neg hcookie]

theorem sound_onExternalPacket (localAddr remoteAddr : SocketAddress) (bytes : List UInt8) (now : UInt32)
    (hs : Sound s) : Sound (s.onExternalPacket localAddr remoteAddr bytes now) := by
  rw [onExternalPacket]
  cases hap : s.connections ⟨remoteAddr, localAddr⟩ with
  | some ext =>
    dsimp only
    split
    · exact hs
    · exact ((quiet_deliver _ bytes _ now s).trans (quiet_lock ext _)).sound hs
  | none =>
    dsimp only
    split
    · exact hs
    split
    · exact hs
    rename_i username _
    split
    · exact hs
    · rename_i b hb
      have hopens := opens_openExternal hb ⟨remoteAddr, localAddr⟩ now
      exact ((quiet_lock _ _).trans (quiet_deliver _ bytes remoteAddr now _)).sound
        (hopens.sound hs hap)

/-! ### Bindings that are deleted -/

theorem removeConnection_books (s : RelayServer) :
    (s.removeConnection conn).connections = s.books.withdraw s.connections conn ∧
      (s.removeConnection conn).objects = s.objects ∧ (s.removeConnection conn).bindings = s.bindings ∧
      ((∀ ap, s.addrPairOf conn = some ap → s.connections ap = some conn) →
        (s.removeConnection conn).displaced = s.displaced) := by
  rw [removeConnection, Registry.withdraw, key_books, addrPairOf]
  cases s.objects[conn]? with
  | none => exact ⟨rfl, rfl, rfl, fun _ => rfl⟩
  | some c => exact ⟨rfl, rfl, rfl, fun h => if_pos (h c.addrPair rfl)⟩

/-- A binding that is deleted withdraws its connections, and finds them all. -/
theorem foldl_removeConnection (hb : s.bindings username = some b) (hs : Sound s) {front back : List Nat}
    (hsplit : b.connections = front ++ back) :
    (front.foldl removeConnection s).connections = front.foldl s.books.withdraw s.connections ∧
      (front.foldl removeConnection s).objects = s.objects ∧
      (front.foldl removeConnection s).bindings = s.bindings ∧
      (front.foldl removeConnection s).displaced = s.displaced := by
  induction front using List.reverseRecOn generalizing back with
  | nil => exact ⟨rfl, rfl, rfl, rfl⟩
  | append_singleton front conn ih =>
    rw [List.append_assoc, List.singleton_append] at hsplit
    obtain ⟨hconnections, hobjects, hbindings, hdisplaced⟩ := ih hsplit
    set t := front.foldl removeConnection s with ht
    have hbooks : t.books.withdraw t.connections conn = s.books.withdraw t.connections conn := by
      rw [Registry.withdraw, Registry.withdraw, key_books, key_books, addrPairOf, addrPairOf, hobjects]
    have hstep := removeConnection_books conn t
    rw [List.foldl_append, List.foldl_append, ← ht]
    refine ⟨?_, hstep.2.1.trans hobjects, hstep.2.2.1.trans hbindings, ?_⟩
    · change (t.removeConnection conn).connections = s.books.withdraw _ conn
      rw [hstep.1, hbooks, hconnections]
    refine (hstep.2.2.2 fun ap hap => ?_).trans hdisplaced
    rw [hconnections]
    have hheld : s.books.held username = some (front ++ conn :: back) :=
      Option.map_eq_some_iff.mpr ⟨b, hb, hsplit⟩
    refine hs.books.withdraws hheld ?_
    rw [key_books, addrPairOf, ← hobjects]
    exact hap

theorem sound_dispose (username : List UInt8) (hs : Sound s) : Sound (s.dispose username) := by
  rw [dispose]
  split
  · exact hs
  rename_i b hb
  split
  · obtain ⟨hconnections, hobjects, hbindings, hdisplaced⟩ :=
      foldl_removeConnection hb hs (List.append_nil b.connections).symm
    refine ⟨?_, hdisplaced.trans hs.placed⟩
    have hbooks : (s.deleteBinding username b).books = s.books.leave username b.connections := by
      have hitems : (s.deleteBinding username b).books.items = s.books.items :=
        congrArg (List.map fun c : RelayServerConnection => (c.binding, c.addrPair)) hobjects
      have hheld : (s.deleteBinding username b).books.held = Function.update s.books.held username none := by
        funext other
        change Option.map _ (Function.update (b.connections.foldl removeConnection s).bindings username none
          other) = _
        rw [hbindings]
        by_cases hother : other = username
        · subst hother
          rw [Function.update_self, Function.update_self]
          rfl
        · rw [Function.update_of_ne hother, Function.update_of_ne hother]
          rfl
      have hindex : (s.deleteBinding username b).books.index =
          b.connections.foldl s.books.withdraw s.books.index := hconnections
      calc (s.deleteBinding username b).books
          = ⟨(s.deleteBinding username b).books.items, (s.deleteBinding username b).books.held,
              (s.deleteBinding username b).books.index⟩ := rfl
        _ = s.books.leave username b.connections := by rw [hitems, hheld, hindex]; rfl
    rw [hbooks]
    exact hs.books.leave (Option.map_eq_some_iff.mpr ⟨b, hb, rfl⟩)
  · exact hs

/-! ### Runs -/

theorem step_sound (hs : Sound s) (op : RelayOp) :
    (s.KeepsApart op → Sound (s.step op)) ∧ (¬ s.KeepsApart op → (s.step op).displaced ≠ []) := by
  have hfresh (op : RelayOp) (hsound : Sound (s.step op)) (hopened : s.opened op = none) :
      (s.KeepsApart op → Sound (s.step op)) ∧ (¬ s.KeepsApart op → (s.step op).displaced ≠ []) := by
    refine ⟨fun _ => hsound, fun hclash => absurd (fun ap hap => ?_) hclash⟩
    rw [hopened] at hap
    cases hap
  cases op with
  | internalPacket localAddr remoteAddr bytes choice now =>
    rcases effect_onInternalPacket hs localAddr remoteAddr bytes choice now with
      ⟨hquiet, hopened⟩ | ⟨hsound, hopened⟩ | ⟨username, ap, t, hopens, hquiet, hopened⟩
    · exact hfresh _ (hquiet.sound hs) hopened
    · exact hfresh _ (hsound hs) hopened
    refine ⟨fun happart => hquiet.sound (hopens.sound hs (happart ap hopened)), fun hclash => ?_⟩
    change (s.onInternalPacket localAddr remoteAddr bytes choice now).displaced ≠ []
    rw [hquiet.displaced]
    refine hopens.displaces fun hfree => hclash fun ap' hap' => ?_
    rw [hopened] at hap'
    cases hap'
    exact hfree
  | externalPacket localAddr remoteAddr bytes now =>
    exact hfresh _ (sound_onExternalPacket localAddr remoteAddr bytes now hs) rfl
  | timer username now => exact hfresh _ ((quiet_onTimer username now s).sound hs) rfl
  | dispose username => exact hfresh _ (sound_dispose username hs) rfl

theorem run_concat (s : RelayServer) (ops : List RelayOp) (op : RelayOp) :
    s.run (ops ++ [op]) = (s.run ops).step op := List.foldl_concat _ _ _ _

/-- In every state of every run the index has exactly the connections of the bindings, each under its own pair
of addresses, and nothing was ever in the way, if and only if no send request of the run opens a connection
whose pair of addresses is taken. -/
theorem booked_run_iff (externalSocket : SocketAddress) (more : List SocketAddress) (ops : List RelayOp) :
    (∀ front back, ops = front ++ back → ((create externalSocket more).run front).Booked) ↔
      ∀ front op back, ops = front ++ op :: back →
        ((create externalSocket more).run front).KeepsApart op := by
  set s := create externalSocket more with hs
  -- both sides say that each step of the run is one behind which the books are sound
  have hinit : Sound s := sound_create externalSocket more
  constructor
  · intro hbooked
    have hsound (front : List RelayOp) : ∀ back, ops = front ++ back → Sound (s.run front) ∧
        ∀ op back', back = op :: back' → (s.run front).KeepsApart op := by
      have hkeeps {front back : List RelayOp} (hsplit : ops = front ++ back) (h : Sound (s.run front)) :
          ∀ op back', back = op :: back' → (s.run front).KeepsApart op := by
        intro op back' hback
        by_contra hclash
        have hnext := hbooked (front ++ [op]) back' (by rw [hsplit, hback, List.append_assoc]; rfl)
        rw [run_concat] at hnext
        exact (step_sound h op).2 hclash hnext.placed
      induction front using List.reverseRecOn with
      | nil => exact fun back hsplit => ⟨hinit, hkeeps hsplit hinit⟩
      | append_singleton front op ih =>
        intro back hsplit
        rw [List.append_assoc, List.singleton_append] at hsplit
        obtain ⟨hfront, happart⟩ := ih _ hsplit
        have hnext : Sound (s.run (front ++ [op])) := by
          rw [run_concat]
          exact (step_sound hfront op).1 (happart op back rfl)
        refine ⟨hnext, hkeeps ?_ hnext⟩
        rw [List.append_assoc]
        exact hsplit
    intro front op back hsplit
    exact (hsound front _ hsplit).2 op back rfl
  · intro hkeeps front
    suffices hsound : ∀ back, ops = front ++ back → Sound (s.run front) from
      fun back hsplit => (hsound back hsplit).booked
    induction front using List.reverseRecOn with
    | nil => exact fun _ _ => hinit
    | append_singleton front op ih =>
      intro back hsplit
      rw [List.append_assoc, List.singleton_append] at hsplit
      rw [run_concat]
      exact (step_sound (ih _ hsplit) op).1 (hkeeps front op back hsplit)

/-- Two clients allocate, and both send to the same address outside. -/
theorem not_booked_twoBindings :
    let header (type length : UInt8) : List UInt8 := [0, type, 0, length] ++ List.replicate 16 0
    let username (x : UInt8) : List UInt8 := [0, 6, 0, 4, x, x, x, x]
    let allocate (x : UInt8) : List UInt8 := header 3 8 ++ username x
    let send (x : UInt8) : List UInt8 := header 4 36 ++ [0, 15, 0, 4, 0x72, 0xC6, 0x4B, 0xC6] ++ username x ++
      [0, 17, 0, 8, 0, 1, 0, 3, 3, 3, 3, 3] ++ [0, 19, 0, 4, 1, 2, 3, 4]
    let inside : SocketAddress := ⟨.ipv4 0x09090909, 4000⟩
    let outside : SocketAddress := ⟨.ipv4 0x09090909, 5000⟩
    let alice : SocketAddress := ⟨.ipv4 0x01010101, 1⟩
    let bob : SocketAddress := ⟨.ipv4 0x02020202, 2⟩
    ¬ ((create outside []).run
      [.internalPacket inside alice (allocate 97) 0 0, .internalPacket inside bob (allocate 98) 0 0,
        .internalPacket inside alice (send 97) 0 0, .internalPacket inside bob (send 98) 0 0]).Booked := by
  intro header username allocate send inside outside alice bob hbooked
  exact absurd hbooked.placed (by decide +kernel)

end Synciga.RelayServer
