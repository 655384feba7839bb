import Synciga.Base.ScannedNumbers
import Synciga.Base.SocksProxy
import Synciga.Xml.Element

/-!
# A tunnel through an HTTP proxy

`AsyncHttpsProxySocket` (`talk/base/socketadapters.cc`) reads the responses of a proxy line by line, answers
when it wants to know who asks, and skips what else is in a response. Where the connection is not kept, it
closes it behind the response and makes a new one.

## Main definitions

* `AsyncHttpsProxySocket`, `processInput` — the states of the handshake, and its lines

## Main results

* `processInput_append` — lines that come together are handled one by one
-/

namespace Synciga

/-! ### Numbers in a line -/

/-- `%u` of `sscanf`: the number, and what is behind it. -/
def scanUnsigned (text : List UInt8) : Option (ℕ × List UInt8) :=
  let (negative, digits) := scanSign (text.dropWhile isSpaceByte)
  let (digits, rest) := scanDigits 10 digits
  if digits = [] then none else some (ofScanned negative 10 digits % 2 ^ 32, rest)

/-- A text that has to be there. -/
def scanLiteral (literal text : List UInt8) : Option (List UInt8) :=
  if literal <+: text then some (text.drop literal.length) else none

/-- `sscanf(data, "HTTP/%*u.%*u %u", &code)`. -/
def scanStatus (text : List UInt8) : Option ℕ := do
  let text ← scanLiteral (utf8 "HTTP/") text
  let (_, text) ← scanUnsigned text
  let text ← scanLiteral (utf8 ".") text
  let (_, text) ← scanUnsigned text
  let (code, _) ← scanUnsigned (text.dropWhile isSpaceByte)
  return code

/-- A capital letter as a small one. -/
def lowerByte (b : UInt8) : UInt8 := if 65 ≤ b && b ≤ 90 then b + 32 else b

/-- `_strnicmp(data, text, strlen(text)) == 0`. -/
def beginsWith (text : String) (data : List UInt8) : Bool :=
  (data.take (utf8 text).length).map lowerByte = (utf8 text).map lowerByte

/-! ### The socket -/

/-- The states of the handshake, `PS_INIT` and so on. -/
inductive ProxyState
  | init
  | leader
  | authenticate
  | skipHeaders
  | errorHeaders
  | tunnelHeaders
  | skipBody
  | tunnel
  | waitClose
  | error
  deriving DecidableEq, Repr

/-- `state_ < PS_TUNNEL`. -/
def ProxyState.beforeTunnel : ProxyState → Bool
  | .tunnel | .waitClose | .error => false
  | _ => true

/-- `HttpAuthResult`. -/
inductive HttpAuthResult
  | response
  | ignore
  | credentials
  | error
  deriving DecidableEq, Repr

/-- What `HttpAuthenticate` gives back. -/
structure HttpAuthAnswer (C : Type) where
  result : HttpAuthResult
  context : Option C
  response : List UInt8
  authMethod : List UInt8

/-- The socket, with what it has sent. -/
structure AsyncHttpsProxySocket (C : Type) where
  /-- `dest_.ToString()`. -/
  dest : List UInt8
  /-- `dest_.HostAsURIString()`. -/
  host : List UInt8
  agent : List UInt8
  headers : List UInt8 := []
  contentLength : ℕ := 0
  deferError : ℕ := 0
  expectClose : Bool := false
  state : ProxyState := .error
  context : Option C := none
  unknownMechanisms : List UInt8 := []
  /-- The states it has been in. -/
  states : List ProxyState := []
  /-- What has been sent. -/
  sent : List (List UInt8) := []
  /-- The error of `SignalCloseEvent`. -/
  closed : Option ℕ := none
  deriving DecidableEq, Repr

namespace AsyncHttpsProxySocket

variable {C : Type} (authenticate : Option C → List UInt8 → HttpAuthAnswer C)
  (s : AsyncHttpsProxySocket C)

/-- A new `state_`. -/
def enter (state : ProxyState) : AsyncHttpsProxySocket C :=
    { s with state, states := s.states ++ [state] }

/-- The text of `SendRequest`. -/
def request : List UInt8 :=
  utf8 "CONNECT " ++ s.dest ++ utf8 " HTTP/1.0\x0d\n" ++ utf8 "User-Agent: " ++ s.agent ++ utf8 "\x0d\n" ++
    utf8 "Host: " ++ s.host ++ utf8 "\x0d\n" ++
    utf8 "Content-Length: 0\x0d\n" ++
    utf8 "Proxy-Connection: Keep-Alive\x0d\n" ++ s.headers ++ utf8 "\x0d\n"

/-- `SendRequest`. -/
def sendRequest : AsyncHttpsProxySocket C :=
  { s.enter .leader with
    sent := s.sent ++ [s.request]
    expectClose := true
    contentLength := 0
    headers := [] }

/-- `Error`, with the `Close` of the socket. -/
def fail (error : ℕ) : AsyncHttpsProxySocket C :=
  { s.enter .error with headers := [], context := none, closed := some error }

/-- `EndResponse`. The socket is closed, and `OnCloseEvent` makes a new connection. -/
def endResponse : AsyncHttpsProxySocket C :=
  if s.expectClose then ((s.enter .waitClose).enter .error).enter .init else s.sendRequest

/-- What is done with the answer to a `Proxy-Authenticate` line. -/
def answer (a : HttpAuthAnswer C) : AsyncHttpsProxySocket C :=
  let s := { s with context := a.context }
  match a.result with
  | .ignore =>
    { s with
      unknownMechanisms :=
        s.unknownMechanisms ++ (if s.unknownMechanisms = [] then [] else utf8 ", ") ++ a.authMethod }
  | .response =>
    { s.enter .skipHeaders with
      headers := utf8 "Proxy-Authorization: " ++ a.response ++ utf8 "\x0d\n"
      unknownMechanisms := [] }
  | .credentials =>
    { s.enter .errorHeaders with deferError := SOCKET_EACCES, unknownMechanisms := [] }
  | .error => { s.enter .errorHeaders with deferError := 0, unknownMechanisms := [] }

/-- `ProcessLine`, for a line that is empty. -/
def endHeaders : AsyncHttpsProxySocket C :=
  match s.state with
  | .tunnelHeaders => s.enter .tunnel
  | .errorHeaders => s.fail s.deferError
  | .skipHeaders => if s.contentLength ≠ 0 then s.enter .skipBody else s.endResponse
  | _ => s.fail 0

/-- `ProcessLine`, for the first line of a response. -/
def readLeader (data : List UInt8) : AsyncHttpsProxySocket C :=
  match scanStatus data with
  | none => s.fail 0
  | some code =>
    if code = 200 then s.enter .tunnelHeaders
    else if code = 407 then s.enter .authenticate
    else { s with deferError := 0 }.enter .errorHeaders

/-- `ProcessLine`. Where the line is a C string, it ends with the first zero in it. -/
def processLine (line : List UInt8) : AsyncHttpsProxySocket C :=
  let data := line.takeWhile (· ≠ 0)
  if line = [] then s.endHeaders
  else if s.state = .leader then s.readLeader data
  else if s.state = .authenticate ∧ beginsWith "Proxy-Authenticate:" data then
    s.answer (authenticate s.context (line.drop 19))
  else if beginsWith "Content-Length:" data then { s with contentLength := strtoul (data.drop 15) }
  else if beginsWith "Proxy-Connection: Keep-Alive" data then { s with expectClose := false }
  else s

end AsyncHttpsProxySocket

/-- The first line, and what is behind its end. -/
def splitLine : List UInt8 → Option (List UInt8 × List UInt8)
  | [] => none
  | b :: data => if b = 10 then some ([], data) else (splitLine data).map fun r => (b :: r.1, r.2)

/-- A line without the return at its end. -/
def chomp (line : List UInt8) : List UInt8 := if line.getLast? = some 13 then line.dropLast else line

theorem length_le_of_chomp {line : List UInt8} (h : chomp line = []) : line.length ≤ 1 := by
  rw [chomp] at h
  split at h
  · have hlength := congrArg List.length h
    rw [List.length_dropLast, List.length_nil] at hlength
    omega
  · rw [h]
    exact Nat.zero_le _

theorem splitLine_length {data line rest : List UInt8} (h : splitLine data = some (line, rest)) :
    rest.length < data.length := by
  induction data generalizing line with
  | nil => cases h
  | cons b data ih =>
    rw [splitLine] at h
    split at h
    · cases h
      exact Nat.lt_succ_self _
    · obtain ⟨⟨line', rest'⟩, hdata, hr⟩ := Option.map_eq_some_iff.mp h
      cases hr
      exact (ih hdata).trans (Nat.lt_succ_self _)

theorem splitLine_append {data line rest : List UInt8} (h : splitLine data = some (line, rest))
    (more : List UInt8) :
    splitLine (data ++ more) = some (line, rest ++ more) := by
  induction data generalizing line with
  | nil => cases h
  | cons b data ih =>
    rw [List.cons_append, splitLine]
    rw [splitLine] at h
    split at h
    · rename_i hend
      cases h
      rw [if_pos hend]
    · rename_i hend
      obtain ⟨⟨line', rest'⟩, hdata, hr⟩ := Option.map_eq_some_iff.mp h
      cases hr
      rw [if_neg hend, ih hdata]
      rfl

theorem splitLine_snoc_end {data : List UInt8} {b : UInt8} (h : splitLine data = none) (hb : b = 10) :
    splitLine (data ++ [b]) = some (data, []) := by
  induction data with
  | nil => exact if_pos hb
  | cons c data ih =>
    rw [splitLine] at h
    split at h
    · cases h
    · rename_i hc
      rw [List.cons_append, splitLine, if_neg hc, ih (Option.map_eq_none_iff.mp h)]
      rfl

theorem splitLine_snoc {data : List UInt8} {b : UInt8} (h : splitLine data = none) (hb : b ≠ 10) :
    splitLine (data ++ [b]) = none := by
  induction data with
  | nil => exact if_neg hb
  | cons c data ih =>
    rw [splitLine] at h
    split at h
    · cases h
    · rename_i hc
      rw [List.cons_append, splitLine, if_neg hc, ih (Option.map_eq_none_iff.mp h)]
      rfl

namespace AsyncHttpsProxySocket

variable {C : Type} (authenticate : Option C → List UInt8 → HttpAuthAnswer C)

theorem endResponse_state (s : AsyncHttpsProxySocket C) : s.endResponse.state ≠ .skipBody := by
  rw [endResponse]
  split <;> exact ProxyState.noConfusion

/-- A part of a body that is skipped. -/
def skip (s : AsyncHttpsProxySocket C) (consume : ℕ) : AsyncHttpsProxySocket C :=
  let s := { s with contentLength := s.contentLength - consume }
  if s.contentLength = 0 then s.endResponse else s

variable {consume : ℕ}

theorem skip_all {s : AsyncHttpsProxySocket C} (h : s.contentLength ≤ consume) :
    s.skip consume = { s with contentLength := 0 }.endResponse := by
  rw [skip, Nat.sub_eq_zero_of_le h]
  exact if_pos rfl

theorem skip_part {s : AsyncHttpsProxySocket C} (h : consume < s.contentLength) :
    s.skip consume = { s with contentLength := s.contentLength - consume } :=
  if_neg (Nat.sub_ne_zero_of_lt h)

/-- `ProcessInput`, with the bytes that it leaves. -/
def processInput (s : AsyncHttpsProxySocket C) (data : List UInt8) :
    AsyncHttpsProxySocket C × List UInt8 :=
  if data = [] ∨ s.state.beforeTunnel = false then (s, data)
  else if s.state = .skipBody then
    let consume := min data.length s.contentLength
    processInput (s.skip consume) (data.drop consume)
  else
    match _h : splitLine data with
    | none => (s, data)
    | some (line, rest) => processInput (s.processLine authenticate (chomp line)) rest
  termination_by (data.length, if s.state = .skipBody then 1 else 0)
  decreasing_by
    · rename_i hrun hbody
      have hdata := List.length_pos_iff.mpr (not_or.mp hrun).1
      rw [List.length_drop, if_pos hbody]
      rcases Nat.eq_zero_or_pos s.contentLength with hzero | hpos
      · rw [hzero, Nat.min_zero, Nat.sub_zero, skip_all hzero.le, if_neg (endResponse_state _)]
        exact Prod.Lex.right _ Nat.one_pos
      · exact Prod.Lex.left _ _ (by omega)
    · exact Prod.Lex.left _ _ (splitLine_length ‹_›)

variable {authenticate} {s : AsyncHttpsProxySocket C} {data front back : List UInt8}

theorem processInput_nil : s.processInput authenticate [] = (s, []) := by
  rw [processInput, if_pos (Or.inl rfl)]

theorem processInput_stopped (h : s.state.beforeTunnel = false) :
    s.processInput authenticate data = (s, data) := by
  rw [processInput, if_pos (Or.inr h)]

theorem processInput_skipBody (hdata : data ≠ []) (h : s.state = .skipBody) :
    s.processInput authenticate data =
      (s.skip (min data.length s.contentLength)).processInput authenticate
        (data.drop (min data.length s.contentLength)) := by
  have hrun : ¬(data = [] ∨ s.state.beforeTunnel = false) := by
    rw [h]
    exact fun hstop => hstop.elim hdata fun hfalse => Bool.noConfusion hfalse
  rw [processInput, if_neg hrun, if_pos h]

theorem processInput_line {line rest : List UInt8} (hstate : s.state.beforeTunnel = true)
    (hbody : s.state ≠ .skipBody)
    (hline : splitLine data = some (line, rest)) :
    s.processInput authenticate data =
      (s.processLine authenticate (chomp line)).processInput authenticate rest := by
  have hdata : data ≠ [] := fun hnil => by
    rw [hnil] at hline
    cases hline
  have hrun : ¬(data = [] ∨ s.state.beforeTunnel = false) :=
    fun hstop => hstop.elim hdata fun hfalse => Bool.noConfusion (hstate.symm.trans hfalse)
  rw [processInput, if_neg hrun, if_neg hbody]
  split
  · rename_i hnone
    rw [hline] at hnone
    cases hnone
  · rename_i hsome
    rw [hline] at hsome
    cases hsome
    rfl

theorem processInput_part (hbody : s.state ≠ .skipBody) (hline : splitLine data = none) :
    s.processInput authenticate data = (s, data) := by
  by_cases hstop : data = [] ∨ s.state.beforeTunnel = false
  · rw [processInput, if_pos hstop]
  rw [processInput, if_neg hstop, if_neg hbody]
  split
  · rfl
  · rename_i hsome
    rw [hline] at hsome
    cases hsome

variable (authenticate) in
/-- **The socket goes on where it was.** -/
theorem processInput_append (s : AsyncHttpsProxySocket C) (front back : List UInt8) :
    s.processInput authenticate (front ++ back) =
      (s.processInput authenticate front).1.processInput authenticate
        ((s.processInput authenticate front).2 ++ back) := by
  fun_induction processInput authenticate s front with
  | case1 s front hstop => rfl
  | case2 s front hrun hbody consume ih =>
    have hfront := (not_or.mp hrun).1
    rw [processInput_skipBody (List.append_ne_nil_of_left_ne_nil hfront back) hbody]
    rcases Nat.lt_or_ge front.length s.contentLength with hpart | hall
    · -- The body goes on behind what is there.
      have hconsume : consume = front.length := min_eq_left hpart.le
      rw [hconsume, List.drop_length, processInput_nil, List.nil_append, skip_part hpart]
      rcases eq_or_ne back [] with rfl | hback
      · rw [List.append_nil, min_eq_left hpart.le, List.drop_length, processInput_nil,
          processInput_nil, skip_part hpart]
      have hmin : min (front ++ back).length s.contentLength =
          front.length + min back.length (s.contentLength - front.length) := by
        rw [List.length_append]
        omega
      have hskip (more : ℕ) : { s with contentLength := s.contentLength - front.length }.skip more =
          s.skip (front.length + more) := by
        rw [skip, skip, ← Nat.sub_sub]
      rw [processInput_skipBody (s := { s with contentLength := s.contentLength - front.length })
        hback hbody, hskip, hmin, List.drop_length_add_append]
    · -- The body ends in what is there.
      have hconsume : consume = s.contentLength := min_eq_right hall
      rw [hconsume] at ih ⊢
      rw [List.length_append, min_eq_right (hall.trans (Nat.le_add_right _ _)),
        List.drop_append_of_le_length hall]
      exact ih
  | case3 s front hrun hbody hline =>
    rfl
  | case4 s front hrun hbody line rest hline ih =>
    have hstate := eq_true_of_ne_false (not_or.mp hrun).2
    rw [processInput_line hstate hbody (splitLine_append hline back)]
    exact ih

/-! ### One byte more -/

variable (authenticate) in
theorem length_processInput_le (s : AsyncHttpsProxySocket C) (data : List UInt8) :
    (s.processInput authenticate data).2.length ≤ data.length := by
  fun_induction processInput authenticate s data with
  | case1 s data hstop => exact le_rfl
  | case2 s data hrun hbody consume ih => exact ih.trans (List.drop_suffix _ _).length_le
  | case3 s data hrun hbody hline => exact le_rfl
  | case4 s data hrun hbody line rest hline ih => exact ih.trans (splitLine_length hline).le

/-- There is something to skip in a body. -/
def InBody (s : AsyncHttpsProxySocket C) : Prop := s.state = .skipBody → 0 < s.contentLength

theorem inBody_processLine {line : List UInt8} (hbody : s.state ≠ .skipBody) :
    (s.processLine authenticate line).InBody := by
  have hkept {t : AsyncHttpsProxySocket C} (ht : t.state ≠ .skipBody) : t.InBody :=
    fun h => absurd h ht
  rw [processLine]
  split
  · rw [endHeaders]
    split
    · exact hkept ProxyState.noConfusion
    · exact hkept ProxyState.noConfusion
    · split
      · rename_i hlength
        exact fun _ => Nat.pos_of_ne_zero hlength
      · exact hkept (endResponse_state s)
    · exact hkept ProxyState.noConfusion
  split
  · rw [readLeader]
    split
    · exact hkept ProxyState.noConfusion
    · split
      · exact hkept ProxyState.noConfusion
      · split <;> exact hkept ProxyState.noConfusion
  split
  · rw [answer]
    split
    · exact hkept hbody
    · exact hkept ProxyState.noConfusion
    · exact hkept ProxyState.noConfusion
    · exact hkept ProxyState.noConfusion
  · split
    · exact hkept hbody
    · split <;> exact hkept hbody

theorem inBody_skip : (s.skip consume).InBody := by
  rw [skip]
  split
  · exact fun h => absurd h (endResponse_state _)
  · rename_i hlength
    exact fun _ => Nat.pos_of_ne_zero hlength

theorem InBody.processInput (h : s.InBody) (data : List UInt8) :
    (s.processInput authenticate data).1.InBody := by
  fun_induction AsyncHttpsProxySocket.processInput authenticate s data with
  | case1 s data hstop => exact h
  | case2 s data hrun hbody consume ih => exact ih inBody_skip
  | case3 s data hrun hbody hline => exact h
  | case4 s data hrun hbody line rest hline ih => exact ih (inBody_processLine hbody)

theorem sent_endResponse (h : s.endResponse.state = .init) : s.endResponse.sent = s.sent := by
  rw [endResponse] at h ⊢
  split
  · rfl
  · rename_i hkeep
    rw [if_neg hkeep] at h
    cases h

theorem processLine_init {line : List UInt8} (hinit : s.state ≠ .init)
    (h : (s.processLine authenticate line).state = .init) :
    line = [] ∧ (s.processLine authenticate line).sent = s.sent := by
  rw [processLine] at h ⊢
  split at h
  · rename_i hempty
    refine ⟨hempty, ?_⟩
    rw [if_pos hempty]
    rw [endHeaders] at h ⊢
    split at h
    · cases h
    · cases h
    · split at h
      · cases h
      · rename_i hlength
        rw [if_neg hlength]
        exact sent_endResponse h
    · cases h
  · split at h
    · rw [readLeader] at h
      split at h
      · cases h
      · split at h
        · cases h
        · split at h <;> cases h
    split at h
    · rw [answer] at h
      split at h
      · exact absurd h hinit
      · cases h
      · cases h
      · cases h
    · split at h
      · exact absurd h hinit
      · split at h <;> exact absurd h hinit

theorem sent_skip (h : (s.skip consume).state = .init) : (s.skip consume).sent = s.sent := by
  rw [skip] at h ⊢
  split
  · rename_i hlength
    rw [if_pos hlength] at h
    exact sent_endResponse h
  · rfl

theorem waiting_cases (hrun : s.state.beforeTunnel = true) (hin : s.InBody)
    (h : s.processInput authenticate data = (s, data)) :
    s.state = .skipBody ∧ data = [] ∨ s.state ≠ .skipBody ∧ splitLine data = none := by
  have hlength : (s.processInput authenticate data).2.length = data.length := by rw [h]
  by_cases hbody : s.state = .skipBody
  · refine Or.inl ⟨hbody, ?_⟩
    by_contra hdata
    have hpos := hin hbody
    have hdataPos := List.length_pos_iff.mpr hdata
    rw [processInput_skipBody hdata hbody] at hlength
    have hle := length_processInput_le authenticate (s.skip (min data.length s.contentLength))
      (data.drop (min data.length s.contentLength))
    rw [hlength, List.length_drop] at hle
    omega
  refine Or.inr ⟨hbody, ?_⟩
  cases hline : splitLine data with
  | none => rfl
  | some r =>
    obtain ⟨line, rest⟩ := r
    rw [processInput_line hrun hbody hline] at hlength
    have hle := length_processInput_le authenticate (s.processLine authenticate (chomp line)) rest
    have hlt := splitLine_length hline
    omega

theorem processInput_snoc (hrun : s.state.beforeTunnel = true) (hin : s.InBody)
    (h : s.processInput authenticate data = (s, data)) (b : UInt8) :
    s.processInput authenticate (data ++ [b]) = (s, data ++ [b]) ∨
      data = [] ∧ s.processInput authenticate (data ++ [b]) = (s.skip 1, []) ∨
        s.processInput authenticate (data ++ [b]) =
          (s.processLine authenticate (chomp data), []) := by
  rcases waiting_cases hrun hin h with ⟨hbody, rfl⟩ | ⟨hbody, hline⟩
  · refine Or.inr (Or.inl ⟨rfl, ?_⟩)
    have hmin : min [b].length s.contentLength = 1 := min_eq_left (hin hbody)
    rw [List.nil_append, processInput_skipBody (List.cons_ne_nil _ _) hbody, hmin, List.drop_one,
      List.tail_cons, processInput_nil]
  · by_cases hend : b = 10
    · right
      right
      rw [processInput_line hrun hbody (splitLine_snoc_end hline hend), processInput_nil]
    · exact Or.inl (processInput_part hbody (splitLine_snoc hline hend))

end AsyncHttpsProxySocket

end Synciga
