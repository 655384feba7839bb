import Synciga.PseudoTcp.Basic

/-!
# The packet header on the wire

`packet` writes a header of 24 bytes, and `parse` reads it back at fixed offsets, but guards its reads by `size
< 12` only.

## Main results

* `parseHeader_header` — the header of every packet parses to its fields
* `notifyPacket_short_iff` — which short datagrams are handled
-/

namespace Synciga

/-! ### Integers in network order -/

variable {i : ℕ}

theorem bytesToLong_longToBytes {l : List UInt8} (v : UInt32) (r : List UInt8)
    (hi : l.length = i) : bytesToLong (l ++ (longToBytes v ++ r)) i = some v := by
  subst hi
  have hv := v.toNat_lt
  have hval : UInt32.ofNat ((UInt8.ofNat (v.toNat / 2 ^ 24)).toNat * 2 ^ 24 +
      (UInt8.ofNat (v.toNat / 2 ^ 16)).toNat * 2 ^ 16 +
      (UInt8.ofNat (v.toNat / 2 ^ 8)).toNat * 2 ^ 8 + (UInt8.ofNat v.toNat).toNat) = v := by
    apply UInt32.toNat_inj.mp
    simp only [UInt32.toNat_ofNat', UInt8.toNat_ofNat']
    omega
  rw [bytesToLong, List.getElem?_append_right le_rfl,
    List.getElem?_append_right (Nat.le_add_right _ 1),
    List.getElem?_append_right (Nat.le_add_right _ 2),
    List.getElem?_append_right (Nat.le_add_right _ 3)]
  simp only [Nat.sub_self, Nat.add_sub_cancel_left]
  exact congrArg some hval

theorem bytesToShort_shortToBytes {l : List UInt8} (v : UInt16) (r : List UInt8)
    (hi : l.length = i) : bytesToShort (l ++ (shortToBytes v ++ r)) i = some v := by
  subst hi
  have hv := v.toNat_lt
  have hval : UInt16.ofNat ((UInt8.ofNat (v.toNat / 2 ^ 8)).toNat * 2 ^ 8 +
      (UInt8.ofNat v.toNat).toNat) = v := by
    apply UInt16.toNat_inj.mp
    simp only [UInt16.toNat_ofNat', UInt8.toNat_ofNat']
    omega
  rw [bytesToShort, List.getElem?_append_right le_rfl,
    List.getElem?_append_right (Nat.le_add_right _ 1)]
  simp only [Nat.sub_self, Nat.add_sub_cancel_left]
  exact congrArg some hval

variable {buf : List UInt8}

theorem bytesToLong_eq_none_iff : bytesToLong buf i = none ↔ buf.length < i + 4 := by
  constructor
  · intro h
    by_contra hlen
    rw [bytesToLong, List.getElem?_eq_getElem (show i < _ by omega),
      List.getElem?_eq_getElem (show i + 1 < _ by omega),
      List.getElem?_eq_getElem (show i + 2 < _ by omega),
      List.getElem?_eq_getElem (show i + 3 < _ by omega)] at h
    cases h
  intro h
  have hlast : buf[i + 3]? = none := List.getElem?_eq_none (by omega)
  rw [bytesToLong, hlast]
  rcases buf[i]? with _ | b0
  · rfl
  rcases buf[i + 1]? with _ | b1
  · rfl
  rcases buf[i + 2]? with _ | b2
  · rfl
  rfl

theorem bytesToShort_isSome (h : i + 2 ≤ buf.length) : (bytesToShort buf i).isSome := by
  rw [bytesToShort, List.getElem?_eq_getElem (show i < _ by omega),
    List.getElem?_eq_getElem (show i + 1 < _ by omega)]
  rfl

theorem bytesToLong_isSome (h : i + 4 ≤ buf.length) : (bytesToLong buf i).isSome := by
  rw [Option.isSome_iff_ne_none, Ne, bytesToLong_eq_none_iff]
  omega

namespace PseudoTcp

variable (env : Env)

/-! ### The header round trip -/

theorem length_header (s : PseudoTcp) (seq : UInt32) (flags : UInt8) (now : UInt32) :
    (s.header seq flags now).length = HEADER_SIZE.toNat := rfl

theorem parseHeader_header (s : PseudoTcp) (seq : UInt32) (flags : UInt8) (now : UInt32)
    (data : List UInt8) :
    parseHeader (s.header seq flags now ++ data) = some
      ⟨s.conv, seq, s.rcvNxt, flags, (s.rcvWnd >>> s.rwndScale.toUInt32).toUInt16, data, now,
        s.tsRecent⟩ := by
  have hdrop : (s.header seq flags now ++ data).drop HEADER_SIZE.toNat = data := by
    rw [← length_header s seq flags now, List.drop_left]
  rw [parseHeader, hdrop]
  set w := (s.rcvWnd >>> s.rwndScale.toUInt32).toUInt16
  have h0 : bytesToLong (s.header seq flags now ++ data) 0 = some s.conv := by
    exact bytesToLong_longToBytes s.conv _ (List.length_nil)
  have h4 : bytesToLong (s.header seq flags now ++ data) 4 = some seq := by
    simp only [header, List.append_assoc]
    exact bytesToLong_longToBytes seq _ rfl
  have h8 : bytesToLong (s.header seq flags now ++ data) 8 = some s.rcvNxt := by
    simp only [header, List.append_assoc]
    exact bytesToLong_longToBytes s.rcvNxt _ rfl
  have h13 : (s.header seq flags now ++ data)[13]? = some flags := rfl
  have h14 : bytesToShort (s.header seq flags now ++ data) 14 = some w := by
    simp only [header, List.append_assoc]
    exact bytesToShort_shortToBytes w _ rfl
  have h16 : bytesToLong (s.header seq flags now ++ data) 16 = some now := by
    simp only [header, List.append_assoc]
    exact bytesToLong_longToBytes now _ rfl
  have h20 : bytesToLong (s.header seq flags now ++ data) 20 = some s.tsRecent := by
    simp only [header]
    rw [List.append_assoc]
    exact bytesToLong_longToBytes s.tsRecent _ rfl
  rw [h0, h4, h8, h13, h14, h16, h20]
  rfl

/-! ### Reads outside the datagram -/

variable {buffer : List UInt8}

theorem parseHeader_eq_none_iff : parseHeader buffer = none ↔ buffer.length < HEADER_SIZE.toNat := by
  constructor
  · intro h
    by_contra hlen
    have hlen : 24 ≤ buffer.length := Nat.not_lt.mp hlen
    obtain ⟨conv, hconv⟩ := Option.isSome_iff_exists.mp
      (bytesToLong_isSome (show 0 + 4 ≤ buffer.length by omega))
    obtain ⟨seq, hseq⟩ := Option.isSome_iff_exists.mp
      (bytesToLong_isSome (show 4 + 4 ≤ buffer.length by omega))
    obtain ⟨ack, hack⟩ := Option.isSome_iff_exists.mp
      (bytesToLong_isSome (show 8 + 4 ≤ buffer.length by omega))
    obtain ⟨wnd, hwnd⟩ := Option.isSome_iff_exists.mp
      (bytesToShort_isSome (show 14 + 2 ≤ buffer.length by omega))
    obtain ⟨tsval, htsval⟩ := Option.isSome_iff_exists.mp
      (bytesToLong_isSome (show 16 + 4 ≤ buffer.length by omega))
    obtain ⟨tsecr, htsecr⟩ := Option.isSome_iff_exists.mp
      (bytesToLong_isSome (show 20 + 4 ≤ buffer.length by omega))
    rw [parseHeader, hconv, hseq, hack, List.getElem?_eq_getElem (show 13 < _ by omega), hwnd,
      htsval, htsecr] at h
    cases h
  · intro h
    -- Whatever the earlier fields hold, the read of the last one leaves the datagram.
    have hlast : bytesToLong buffer 20 = none := bytesToLong_eq_none_iff.mpr h
    rw [parseHeader, hlast]
    rcases bytesToLong buffer 0 with _ | conv
    · rfl
    rcases bytesToLong buffer 4 with _ | seq
    · rfl
    rcases bytesToLong buffer 8 with _ | ack
    · rfl
    rcases buffer[13]? with _ | flags
    · rfl
    rcases bytesToShort buffer 14 with _ | wnd
    · rfl
    rcases bytesToLong buffer 16 with _ | tsval
    · rfl
    rfl

variable {seg : Segment}

theorem len_toNat (hlen : seg.data.length < 2 ^ 32) : seg.len.toNat = seg.data.length := by
  rw [Segment.len, UInt32.toNat_ofNat', Nat.mod_eq_of_lt hlen]

theorem data_of_parseHeader
    (h : parseHeader buffer = some seg) : seg.data = buffer.drop HEADER_SIZE.toNat := by
  simp only [parseHeader, Option.bind_eq_bind, Option.bind_eq_some_iff] at h
  obtain ⟨conv, -, seq, -, ack, -, flags, -, wnd, -, tsval, -, tsecr, -, hseg⟩ := h
  cases hseg
  rfl

theorem notifyPacket_of_parseHeader {s : PseudoTcp}
    (hlen : buffer.length ≤ MAX_PACKET.toNat) (hseg : parseHeader buffer = some seg) :
    s.notifyPacket env buffer = some (s.process env seg) := by
  have hge : HEADER_SIZE.toNat ≤ buffer.length := by
    by_contra hlt
    rw [parseHeader_eq_none_iff.mpr (Nat.not_le.mp hlt)] at hseg
    cases hseg
  have h12 : ¬ buffer.length < 12 := by
    have : HEADER_SIZE.toNat = 24 := rfl
    omega
  rw [notifyPacket, if_neg (Nat.not_lt.mpr hlen), parse, if_neg h12, hseg]
  rfl

/-- **Short datagrams.** A datagram shorter than the header is refused without an outside read and
without effect exactly when it is shorter than the 12 bytes that `parse` checks for. -/
theorem notifyPacket_short_iff (s : PseudoTcp) (buffer : List UInt8)
    (hshort : buffer.length < HEADER_SIZE.toNat) :
    s.notifyPacket env buffer = some (false, s) ↔ buffer.length < 12 := by
  have hmax : ¬ MAX_PACKET.toNat < buffer.length := by
    have : HEADER_SIZE.toNat ≤ MAX_PACKET.toNat := by decide
    omega
  rw [notifyPacket, if_neg hmax, parse]
  constructor
  · intro h
    by_contra hlen
    rw [if_neg hlen, parseHeader_eq_none_iff.mpr hshort] at h
    cases h
  · intro h
    rw [if_pos h]

/-- An environment with a stopped clock, a network that takes every packet and zeroed memory. -/
def quietEnv : Env where
  clock := fun _ => 1
  writeResult := fun _ => .success
  heap := fun _ _ => 0
  stack := fun _ _ => 0

theorem notifyPacket_short_iff_three : ([0, 0, 0] : List UInt8).length < HEADER_SIZE.toNat ∧
      ((new quietEnv 7).notifyPacket quietEnv [0, 0, 0] = some (false, new quietEnv 7) ↔
        ([0, 0, 0] : List UInt8).length < 12) :=
  ⟨by decide, notifyPacket_short_iff quietEnv (new quietEnv 7) [0, 0, 0] (by decide)⟩

/-- Twelve bytes pass the length check, and the flags are then read behind the datagram. -/
theorem notifyPacket_twelve_reads_outside :
    ¬ ∀ (env : Env) (s : PseudoTcp) (buffer : List UInt8), buffer.length < HEADER_SIZE.toNat →
      s.notifyPacket env buffer = some (false, s) := by
  intro h
  have hrefused := h quietEnv (new quietEnv 7) (List.replicate 12 0) (by decide)
  have hread : (new quietEnv 7).notifyPacket quietEnv (List.replicate 12 0) = none := rfl
  cases hrefused

end PseudoTcp

end Synciga
