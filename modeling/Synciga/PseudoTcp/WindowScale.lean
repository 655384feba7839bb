import Synciga.PseudoTcp.RecvWindow

/-!
# Window scaling

A window beyond 16 bits is announced in units of `2 ^ m_rwnd_scale`. The factor goes with the size of the
receive buffer and is told to the peer once, in the connect message. But options are parsed whenever such a
message comes, and a factor is taken as it comes, although a shift by 32 or more is none.

## Main definitions

* `PeerView` — a connection, with the factor that the peer has

## Main results

* `PeerView.scale_of_run` — the peer reads the windows that are meant
* `PeerView.not_scale_after_late_connect` — unless a connect message comes late
-/

namespace Synciga

/-! ### The scale factor of a buffer size -/

theorem scaleDown_spec (fuel : ℕ) (n : UInt32) (f : UInt8) (hn : n.toNat < 2 ^ (16 + fuel))
    (hf : f.toNat + fuel < 256) :
    (PseudoTcp.scaleDown fuel n f).1.toNat < 2 ^ 16 ∧
      ∃ k ≤ fuel, (PseudoTcp.scaleDown fuel n f).2.toNat = f.toNat + k ∧
        (PseudoTcp.scaleDown fuel n f).1.toNat = n.toNat / 2 ^ k := by
  induction fuel generalizing n f with
  | zero => exact ⟨hn, 0, le_rfl, rfl, (Nat.div_one _).symm⟩
  | succ fuel ih =>
    rw [PseudoTcp.scaleDown]
    have hmax : (0xFFFF : UInt32).toNat = 2 ^ 16 - 1 := rfl
    split
    · have hhalf : (n >>> 1).toNat = n.toNat / 2 := by
        exact Nat.shiftRight_one _
      have hnext : (f + 1).toNat = f.toNat + 1 := by
        have hone : (1 : UInt8).toNat = 1 := rfl
        rw [UInt8.toNat_add, hone, Nat.mod_eq_of_lt (by omega)]
      have hpow : 2 ^ (16 + (fuel + 1)) = 2 ^ (16 + fuel) * 2 := rfl
      obtain ⟨hfit, k, hk, hscale, hsize⟩ := ih (n >>> 1) (f + 1) (by omega) (by omega)
      refine ⟨hfit, k + 1, by omega, by omega, ?_⟩
      rw [hsize, hhalf, Nat.div_div_eq_div_mul, Nat.pow_succ']
    · next hle =>
      rw [UInt32.lt_iff_toNat_lt] at hle
      have hfit : n.toNat < 2 ^ 16 := by omega
      exact ⟨hfit, 0, Nat.zero_le _, rfl, (Nat.div_one _).symm⟩

/-- The factor that goes with a size of the receive buffer. -/
def scaleFactorFor (newSize : UInt32) : UInt8 := (PseudoTcp.scaleDown 16 newSize 0).2

theorem receiveBufferSize_spec (newSize : UInt32) : (scaleFactorFor newSize).toNat ≤ 16 ∧
      (PseudoTcp.receiveBufferSize newSize).toNat ≤
        (2 ^ 16 - 1) * 2 ^ (scaleFactorFor newSize).toNat := by
  obtain ⟨hfit, k, hk, hscale, hsize⟩ := scaleDown_spec 16 newSize 0 newSize.toNat_lt (by decide)
  rw [scaleFactorFor, PseudoTcp.receiveBufferSize]
  generalize PseudoTcp.scaleDown 16 newSize 0 = r at hfit hscale hsize
  have hzero : (0 : UInt8).toNat = 0 := rfl
  rw [hzero, Nat.zero_add] at hscale
  have hmod : r.2.toUInt32.toNat % 32 = k := by
    rw [UInt8.toNat_toUInt32, hscale]
    omega
  have hlt : r.1.toNat * 2 ^ k < 2 ^ 32 := by
    rw [hsize]
    exact (Nat.div_mul_le_self _ _).trans_lt newSize.toNat_lt
  have hvalue : (r.1 <<< r.2.toUInt32).toNat = r.1.toNat * 2 ^ k := by
    rw [UInt32.toNat_shiftLeft, hmod, Nat.shiftLeft_eq, Nat.mod_eq_of_lt hlt]
  rw [hvalue, hscale]
  exact ⟨hk, Nat.mul_le_mul_right _ (by omega)⟩

/-! ### The scale factor of a connect message -/

/-- The scale factor that a connect message with these options names, `0` if it names none: what a
fresh connection stores when it parses them. -/
def namedScale (options : List UInt8) : UInt8 :=
  (PseudoTcp.parseOptionList (options.length + 1) options
    (PseudoTcp.new PseudoTcp.quietEnv 0)).2.swndScale

namespace PseudoTcp

variable (env : Env) {s s' t : PseudoTcp}

/-- The kind of an option joins the kinds of the options after it, unless those do not parse. -/
theorem parseOptionList_cons (fuel : ℕ) (kind : UInt8) (buf : List UInt8) (s : PseudoTcp)
    (hend : kind ≠ TCP_OPT_EOL) (hnoop : kind ≠ TCP_OPT_NOOP)
    (hlen : (buf.headD 0).toNat ≤ buf.tail.length) :
    (parseOptionList (fuel + 1) (kind :: buf) s).2 =
      (parseOptionList fuel (buf.tail.drop (buf.headD 0).toNat)
        (s.applyOption kind (buf.tail.take (buf.headD 0).toNat))).2 := by
  rw [parseOptionList, if_neg hend, if_neg hnoop]
  simp only [if_pos hlen]
  split
  · next heq => rw [heq]
  · next heq => rw [heq]

theorem parseOptionList_alike (fuel : ℕ) (data : List UInt8) (s t : PseudoTcp) :
    (parseOptionList fuel data s).2.swndScale = s.swndScale ∧
        (parseOptionList fuel data t).2.swndScale = t.swndScale ∨
      (parseOptionList fuel data s).2.swndScale = (parseOptionList fuel data t).2.swndScale := by
  induction fuel generalizing data s t with
  | zero => exact .inl ⟨rfl, rfl⟩
  | succ fuel ih =>
    rcases data with _ | ⟨kind, buf⟩
    · exact .inl ⟨rfl, rfl⟩
    by_cases hend : kind = TCP_OPT_EOL
    · exact .inl (by simp only [parseOptionList, if_pos hend, and_self])
    by_cases hnoop : kind = TCP_OPT_NOOP
    · simpa only [parseOptionList, if_neg hend, if_pos hnoop] using ih buf s t
    by_cases hlen : (buf.headD 0).toNat ≤ buf.tail.length
    swap
    · exact .inl (by simp only [parseOptionList, if_neg hend, if_neg hnoop, if_neg hlen, and_self])
    rw [parseOptionList_cons fuel kind buf s hend hnoop hlen,
      parseOptionList_cons fuel kind buf t hend hnoop hlen]
    have hrest := ih (buf.tail.drop (buf.headD 0).toNat)
      (s.applyOption kind (buf.tail.take (buf.headD 0).toNat))
      (t.applyOption kind (buf.tail.take (buf.headD 0).toNat))
    rcases hrest with ⟨hs, ht⟩ | hsame
    · rw [hs, ht]
      -- The option itself is stored by both, or by neither.
      simp only [applyOption]
      split
      · split
        · exact .inr rfl
        · exact .inl ⟨rfl, rfl⟩
      · exact .inl ⟨rfl, rfl⟩
    · exact .inr hsame

theorem swndScale_parseOptions (s : PseudoTcp) (options : List UInt8) :
    (s.parseOptions env options).swndScale = s.swndScale ∨
      (s.parseOptions env options).swndScale = namedScale options ∨
      (s.parseOptions env options).swndScale = 0 := by
  have halike := parseOptionList_alike (options.length + 1) options s (new quietEnv 0)
  rw [parseOptions]
  split
  · next heq =>
    rw [heq] at halike
    exact halike.imp And.left .inl
  · next heq =>
    rw [heq] at halike
    split
    · exact .inr (.inr rfl)
    · exact halike.imp And.left .inl

/-! ### The bytes that a segment commits -/

/-- The bytes of the saved ranges that connect to `m_rcv_nxt`: what `recoverSaved` commits. -/
def savedBytes : List RSegment → UInt32 → ℕ
  | [], _ => 0
  | r :: rlist, rcvNxt =>
    if r.seq ≤ rcvNxt then
      if rcvNxt < r.seq + r.len then
        (r.seq + r.len - rcvNxt).toNat + savedBytes rlist (r.seq + r.len)
      else savedBytes rlist rcvNxt
    else 0

/-- The bytes that the data part of `process` commits: what is left of a segment that starts at
`m_rcv_nxt`, and the saved ranges behind it. -/
def committed (s : PseudoTcp) (seg : Segment) : ℕ :=
  if (s.trim seg).len = 0 ∨ seg.flags &&& FLAG_CTL ≠ 0 ∨ s.shutdown ≠ .none ∨
      (s.trim seg).seq ≠ s.rcvNxt then 0
  else (s.trim seg).len.toNat + savedBytes s.rlist (s.rcvNxt + (s.trim seg).len)

theorem committed_of_recvSide (h : s'.recvSide = s.recvSide) (seg : Segment) :
    s'.committed seg = s.committed seg := by
  simp only [recvSide, RecvSide.mk.injEq] at h
  obtain ⟨hshut, hlist, hnext, -, hbuf⟩ := h
  simp only [committed, trim, trimBack, trimFront, hshut, hlist, hnext, hbuf]

/-! ### The invariant -/

/-- The scale factors go with the sizes: the receive buffer and the window are `2 ^ 16` units long at
most, and a window of the peer is shifted by less than its 32 bits. -/
structure Scaled (s : PseudoTcp) : Prop where
  /-- The factor comes from halving a 32-bit size. -/
  factor : s.rwndScale.toNat ≤ 16
  /-- The buffer fits. -/
  buffer : s.rbuf.bufferLength ≤ (2 ^ 16 - 1) * 2 ^ s.rwndScale.toNat
  /-- The window fits. -/
  window : s.rcvWnd.toNat ≤ (2 ^ 16 - 1) * 2 ^ s.rwndScale.toNat
  /-- The shift is one. -/
  shift : s.swndScale.toNat < 32

theorem Scaled.of_kept (h : s.Scaled) (hkept : s'.kept = s.kept) : s'.Scaled := by
  simp only [kept, Kept.mk.injEq] at hkept
  obtain ⟨-, -, -, -, -, hwnd, hscale, hbuf, -, hshift, -⟩ := hkept
  exact ⟨hscale ▸ h.factor, hscale ▸ hbuf ▸ h.buffer, hscale ▸ hwnd ▸ h.window,
    hshift ▸ h.shift⟩

theorem Scaled.of_window_le (h : s.Scaled) (hscale : s'.rwndScale = s.rwndScale)
    (hshift : s'.swndScale = s.swndScale) (hbuf : s'.rbuf.bufferLength = s.rbuf.bufferLength)
    (hwnd : s'.rcvWnd.toNat ≤ s.rcvWnd.toNat) : s'.Scaled := by
  refine ⟨hscale ▸ h.factor, ?_, ?_, hshift ▸ h.shift⟩
  · rw [hbuf, hscale]
    exact h.buffer
  · rw [hscale]
    exact hwnd.trans h.window

theorem Scaled.free_le (h : s.Scaled) {f : FifoBuffer} (hbuf : f.bufferLength = s.rbuf.bufferLength) :
    (UInt32.ofNat f.getWriteRemaining).toNat ≤ (2 ^ 16 - 1) * 2 ^ s.rwndScale.toNat := by
  have hfree : (UInt32.ofNat f.getWriteRemaining).toNat ≤ f.getWriteRemaining := Nat.mod_le _ _
  have hle : f.getWriteRemaining ≤ f.bufferLength := Nat.sub_le _ _
  have hsize := h.buffer
  omega

theorem scaled_resizeReceiveBuffer {newSize : UInt32} (hshift : s.swndScale.toNat < 32)
    (hfit : s.rbuf.dataLength ≤ (receiveBufferSize newSize).toNat) :
    (s.resizeReceiveBuffer env newSize).Scaled := by
  obtain ⟨hfactor, hsize⟩ := receiveBufferSize_spec newSize
  have hlen := FifoBuffer.setCapacity_bufferLength (env.heap s.allocs) hfit
  have hbuffer : (s.resizeReceiveBuffer env newSize).rbuf.bufferLength ≤
      (2 ^ 16 - 1) * 2 ^ (scaleFactorFor newSize).toNat := hlen.trans_le hsize
  refine ⟨hfactor, hbuffer, ?_, hshift⟩
  have hfree : (s.resizeReceiveBuffer env newSize).rcvWnd.toNat ≤
      (s.resizeReceiveBuffer env newSize).rbuf.getWriteRemaining := Nat.mod_le _ _
  have hle : (s.resizeReceiveBuffer env newSize).rbuf.getWriteRemaining ≤
      (s.resizeReceiveBuffer env newSize).rbuf.bufferLength := Nat.sub_le _ _
  exact hfree.trans (hle.trans hbuffer)

/-! ### Storing a segment -/

theorem window_recoverSaved (rlist : List RSegment) (s : PseudoTcp)
    (hfit : savedBytes rlist s.rcvNxt ≤ s.rcvWnd.toNat) :
    (recoverSaved rlist s).2.rcvWnd.toNat ≤ s.rcvWnd.toNat ∧
      (recoverSaved rlist s).2.rbuf.bufferLength = s.rbuf.bufferLength ∧
      (recoverSaved rlist s).2.rwndScale = s.rwndScale ∧
      (recoverSaved rlist s).2.swndScale = s.swndScale := by
  induction rlist generalizing s with
  | nil => exact ⟨le_rfl, rfl, rfl, rfl⟩
  | cons r rlist ih =>
    rw [recoverSaved_cons]
    rw [savedBytes] at hfit
    split
    swap
    · exact ⟨le_rfl, rfl, rfl, rfl⟩
    next hseq =>
    rw [if_pos hseq] at hfit
    split
    swap
    · next hnew =>
      rw [if_neg hnew] at hfit
      exact ih s hfit
    next hnew =>
    rw [if_pos hnew] at hfit
    generalize hn : r.seq + r.len - s.rcvNxt = n at hfit ⊢
    have hnext : s.rcvNxt + n = r.seq + r.len := by rw [← hn, add_sub_cancel]
    have hwnd : (s.commitBytes n).rcvWnd.toNat = s.rcvWnd.toNat - n.toNat :=
      UInt32.toNat_sub_of_le _ _ (UInt32.le_iff_toNat_le.mpr (by omega))
    have hrest : savedBytes rlist (s.commitBytes n).rcvNxt ≤ (s.commitBytes n).rcvWnd.toNat := by
      change savedBytes rlist (s.rcvNxt + n) ≤ _
      rw [hnext]
      omega
    obtain ⟨hle, hlen, hscale, hshift⟩ := ih (s.commitBytes n) hrest
    exact ⟨hle.trans (by omega), hlen.trans (FifoBuffer.consumeWriteBuffer_bufferLength _ _),
      hscale, hshift⟩

variable {seg : Segment}

theorem scaled_receiveData (h : s.Scaled) (hfit : s.committed seg ≤ s.rcvWnd.toNat) (sflags : SendFlags) :
    (s.receiveData (s.trim seg) sflags).2.2.Scaled := by
  rw [receiveData_snd, trim_flags]
  rw [committed] at hfit
  generalize s.trim seg = g at hfit ⊢
  have hplace : (s.placeData g).rbuf.bufferLength = s.rbuf.bufferLength :=
    FifoBuffer.writeOffset_bufferLength _ _ _
  split
  · exact h
  next hlen =>
  split
  · split
    · exact h.of_window_le rfl rfl rfl le_rfl
    · exact h
  next hstored =>
  obtain ⟨hflag, hshut⟩ := not_or.mp hstored
  split
  swap
  · exact h.of_window_le rfl rfl hplace le_rfl
  next hseq =>
  have hcommits : ¬ (g.len = 0 ∨ seg.flags &&& FLAG_CTL ≠ 0 ∨ s.shutdown ≠ .none ∨ g.seq ≠ s.rcvNxt) := by
    rintro (hzero | hctl | hdown | hne)
    · exact hlen hzero
    · exact hflag hctl
    · exact hshut hdown
    · exact hne hseq
  rw [if_neg hcommits] at hfit
  have hwnd : ((s.placeData g).commitBytes g.len).rcvWnd.toNat = s.rcvWnd.toNat - g.len.toNat :=
    UInt32.toNat_sub_of_le s.rcvWnd g.len (UInt32.le_iff_toNat_le.mpr (by omega))
  have hsaved : savedBytes s.rlist ((s.placeData g).commitBytes g.len).rcvNxt ≤
      ((s.placeData g).commitBytes g.len).rcvWnd.toNat := by
    change savedBytes s.rlist (s.rcvNxt + g.len) ≤ _
    omega
  obtain ⟨hle, hbuf, hscale, hshift⟩ := window_recoverSaved s.rlist _ hsaved
  exact h.of_window_le hscale hshift
    (hbuf.trans ((FifoBuffer.consumeWriteBuffer_bufferLength _ _).trans hplace))
    (hle.trans (by omega))

/-! ### The connect messages -/

/-- The options of a connect message parse, and name no scale factor. -/
def namesNone (options : List UInt8) : Bool :=
  match optionKinds (options.length + 1) options with
  | none => false
  | some kinds => TCP_OPT_WND_SCALE ∉ kinds

theorem namesNone_of_drops {options : List UInt8} (h : s.DropsScaling options) :
    namesNone options = true := by
  obtain ⟨-, kinds, hkinds, hnone⟩ := h
  rw [namesNone, hkinds]
  exact decide_eq_true hnone

/-- The factor that this side has announced: the one named in the connect message it has queued. -/
def announcedScale (s : PseudoTcp) : UInt8 := namedScale (s.queued.map Prod.fst).tail

/-- What is queued is a connect message that names the factor in use, or the beginning of it that fits
the send buffer. -/
def Announces (s : PseudoTcp) : Prop :=
  s.queued.map Prod.fst <+: [CTL_CONNECT, TCP_OPT_WND_SCALE, 1, s.rwndScale]

theorem Announces.of_kept (h : s.Announces) (hkept : s'.kept = s.kept) : s'.Announces := by
  have hqueued : s'.queued = s.queued := congrArg Kept.queued hkept
  have hscale : s'.rwndScale = s.rwndScale := congrArg Kept.rwndScale hkept
  rw [Announces, hqueued, hscale]
  exact h

theorem Announces.announcedScale_le (h : s.Announces) : s.announcedScale.toNat ≤ s.rwndScale.toNat := by
  rw [announcedScale]
  have hlen : (s.queued.map Prod.fst).length ≤ 4 := h.length_le
  rw [List.prefix_iff_eq_take.mp h]
  have hnone : (0 : UInt8).toNat ≤ s.rwndScale.toNat := Nat.zero_le _
  generalize (s.queued.map Prod.fst).length = n at hlen
  -- Only the whole message names the factor.
  interval_cases n
  · exact hnone
  · exact hnone
  · exact hnone
  · exact hnone
  · exact le_rfl

theorem announces_queueConnectMessage (h : s.queued = []) : s.queueConnectMessage.Announces := by
  rw [Announces, queueConnectMessage]
  simp only [queue, h, List.nil_append, List.map_map]
  have hmessage : (CTL_CONNECT ::
      (if s.supportWndScale = true then [TCP_OPT_WND_SCALE, 1, s.rwndScale] else [])) <+:
        [CTL_CONNECT, TCP_OPT_WND_SCALE, 1, s.rwndScale] := by
    refine List.cons_prefix_cons.mpr ⟨rfl, ?_⟩
    split
    · exact List.prefix_rfl
    · exact List.nil_prefix
  have hfst (l : List UInt8) : l.map (Prod.fst ∘ fun b => (b, true)) = l := List.map_id l
  rw [hfst]
  exact (List.take_prefix _ _).trans ((List.take_prefix _ _).trans hmessage)

/-- A connect message keeps the factors: its shift is less than 32, and if it makes this side give up its
factor, the handshake is going on and the buffered bytes fit the default size. -/
def ScalesAlike (s : PseudoTcp) (options : List UInt8) : Prop :=
  (namedScale options).toNat < 32 ∧
    (s.DropsScaling options → (s.state = .listen ∨ s.state = .synSent) ∧
      s.rbuf.dataLength ≤ DEFAULT_RCV_BUF_SIZE.toNat)

theorem scaled_parseOptions (h : s.Scaled) {options : List UInt8} (hok : s.ScalesAlike options) :
    (s.parseOptions env options).Scaled ∧
      ((s.parseOptions env options).rwndScale = s.rwndScale ∧
          (s.parseOptions env options).rbuf = s.rbuf ∨
        namesNone options = true ∧ (s.state = .listen ∨ s.state = .synSent)) := by
  have hshift : (s.parseOptions env options).swndScale.toNat < 32 := by
    obtain hs | hs | hs := swndScale_parseOptions env s options
    · rw [hs]
      exact h.shift
    · rw [hs]
      exact hok.1
    · rw [hs]
      decide
  obtain ⟨scale, hp⟩ | ⟨hdrop, scale, hp⟩ := parseOptions_cases env s options
  · rw [hp] at hshift ⊢
    exact ⟨⟨h.factor, h.buffer, h.window, hshift⟩, .inl ⟨rfl, rfl⟩⟩
  obtain ⟨hstate, hfit⟩ := hok.2 hdrop
  have hsize : receiveBufferSize DEFAULT_RCV_BUF_SIZE = DEFAULT_RCV_BUF_SIZE := by decide
  have hzero : (0 : UInt8).toNat < 32 := by decide
  have hresized := scaled_resizeReceiveBuffer env (s := { s with swndScale := 0 }) hzero
    (hfit.trans_eq (congrArg UInt32.toNat hsize.symm))
  rw [hp]
  exact ⟨⟨hresized.factor, hresized.buffer, hresized.window, hzero⟩,
    .inr ⟨namesNone_of_drops hdrop, hstate⟩⟩

/-- What a step does with the factors, and a control segment with the buffer: the first connect message names
the factor in use, and then nothing changes, unless the peer has `answered` without one. -/
structure ScaleStep (control answered : Prop) (s s' : PseudoTcp) : Prop where
  scaled : s'.Scaled
  announces : s.state = .listen → s'.Announces
  factor : s.state ≠ .listen → s'.rwndScale = s.rwndScale ∧ (control → s'.rbuf = s.rbuf) ∨ answered

variable {control answered : Prop}

/-- Steps that keep the fields in question come after it, ... -/
theorem ScaleStep.then_kept {t : PseudoTcp} (h : ScaleStep control answered s s')
    (hkept : t.kept = s'.kept) : ScaleStep control answered s t := by
  refine ⟨h.scaled.of_kept hkept, fun hl => (h.announces hl).of_kept hkept, fun hne => ?_⟩
  rw [show t.rwndScale = s'.rwndScale from congrArg Kept.rwndScale hkept,
    show t.rbuf = s'.rbuf from congrArg Kept.rbuf hkept]
  exact h.factor hne

/-- ... or are one themselves. -/
theorem ScaleStep.of_kept (h : s.Scaled) (hfresh : s.state = .listen → s.queued = [])
    (hkept : s'.kept = s.kept) : ScaleStep control answered s s' := by
  refine ScaleStep.then_kept ⟨h, fun hl => ?_, fun _ => .inl ⟨rfl, fun _ => rfl⟩⟩ hkept
  rw [Announces, hfresh hl]
  exact List.nil_prefix

theorem ScaleStep.of_same (h : s.Scaled) (hfresh : s.state = .listen → s.queued = [])
    (hscale : s'.rwndScale = s.rwndScale) (hshift : s'.swndScale = s.swndScale)
    (hwnd : s'.rcvWnd = s.rcvWnd) (hbuf : s'.rbuf = s.rbuf) (hqueued : s'.queued = s.queued) :
    ScaleStep control answered s s' := by
  refine ⟨h.of_window_le hscale hshift (congrArg FifoBuffer.bufferLength hbuf)
      (congrArg UInt32.toNat hwnd).le,
    fun hl => ?_, fun _ => .inl ⟨hscale, fun _ => hbuf⟩⟩
  rw [Announces, hqueued, hfresh hl]
  exact List.nil_prefix

/-- The control part of `process`. A data segment goes past it. -/
theorem scaleStep_processControl (h : s.Scaled) (hfresh : s.state = .listen → s.queued = [])
    {bConnect : Bool}
    (hok : seg.flags &&& FLAG_CTL ≠ 0 → s.ScalesAlike seg.data.tail)
    (hc : s.processControl env seg = some (bConnect, s')) :
    ScaleStep (seg.flags &&& FLAG_CTL ≠ 0)
        (seg.flags &&& FLAG_CTL ≠ 0 ∧ namesNone seg.data.tail = true ∧ s.state = .synSent) s s' ∧
      (seg.flags &&& FLAG_CTL = 0 → s' = s) := by
  obtain ⟨-, -, rfl⟩ | ⟨hctl, -, options, hdata, hcase⟩ := processControl_cases env hc
  · exact ⟨.of_kept h hfresh rfl, fun _ => rfl⟩
  refine ⟨?_, fun hzero => absurd hzero hctl⟩
  have hparse : s.ScalesAlike options := by
    have hparse := hok hctl
    rw [hdata] at hparse
    exact hparse
  rw [hdata, List.tail_cons]
  obtain ⟨hscaled, hfactor⟩ := scaled_parseOptions env h hparse
  have hqueued := parseOptions_queued env s options
  generalize s.parseOptions env options = t at hcase hscaled hfactor hqueued
  have hkeep (hne : s.state ≠ .listen) : t.rwndScale = s.rwndScale ∧
      (seg.flags &&& FLAG_CTL ≠ 0 → t.rbuf = s.rbuf) ∨
        seg.flags &&& FLAG_CTL ≠ 0 ∧ namesNone options = true ∧ s.state = .synSent :=
    hfactor.imp (fun hsame => ⟨hsame.1, fun _ => hsame.2⟩)
      fun hnone => ⟨hctl, hnone.1, hnone.2.resolve_left hne⟩
  obtain ⟨hstate, rfl⟩ | ⟨hstate, rfl⟩ | ⟨hlisten, -, rfl⟩ := hcase
  · have hannounces := announces_queueConnectMessage (s := { t with state := .synReceived })
      (hqueued.trans (hfresh hstate))
    exact ⟨⟨hscaled.factor, hscaled.buffer, hscaled.window, hscaled.shift⟩, fun _ => hannounces,
      fun hne => absurd hstate hne⟩
  · refine ⟨⟨hscaled.factor, hscaled.buffer, hscaled.window, hscaled.shift⟩, fun hl => ?_, hkeep⟩
    rw [hstate] at hl
    cases hl
  · exact ⟨hscaled, fun hl => absurd hl hlisten, hkeep⟩

/-! ### The data part -/

/-- The data part of `process`. Nothing of a control segment is stored, and of a data segment no more
is committed than the window. -/
theorem scaleStep_processData {t : PseudoTcp} (h : ScaleStep (seg.flags &&& FLAG_CTL ≠ 0) answered s t)
    (hfit : t.committed seg ≤ t.rcvWnd.toNat) :
    ScaleStep (seg.flags &&& FLAG_CTL ≠ 0) answered s (t.processData env seg) := by
  have hkept : (t.processData env seg).kept =
      (t.receiveData (t.trim seg) (t.ackFlags seg)).2.2.kept := by
    simp only [processData]
    rw [kept_notifyReadable, kept_of_sending (sending_attemptSend env _ _)]
  refine ScaleStep.then_kept ?_ hkept
  have hstored := scaled_receiveData h.scaled hfit (t.ackFlags seg)
  have hbuf (hctl : seg.flags &&& FLAG_CTL ≠ 0) :
      (t.receiveData (t.trim seg) (t.ackFlags seg)).2.2.rbuf = t.rbuf := by
    rw [receiveData_snd, trim_flags]
    split
    · rfl
    · rw [if_pos (.inl hctl)]
      split <;> rfl
  obtain ⟨rbuf, rcvNxt, rcvWnd, rlist, heq⟩ := receiveData_eq t (t.trim seg) (t.ackFlags seg)
  rw [heq] at hstored hbuf ⊢
  exact ⟨hstored, h.announces, fun hne => (h.factor hne).imp_left
    fun hsame => ⟨hsame.1, fun hctl => (hbuf hctl).trans (hsame.2 hctl)⟩⟩

/-- The datagram is the peer's answer to the connect message of this side, and names no factor: the
peer has no window scaling. -/
def answersWithout (s : PseudoTcp) (buffer : List UInt8) : Bool :=
  match parseHeader buffer with
  | none => false
  | some seg =>
    buffer.length ≤ MAX_PACKET.toNat ∧ seg.conv = s.conv ∧ s.state = .synSent ∧
      seg.flags &&& FLAG_RST = 0 ∧ seg.flags &&& FLAG_CTL ≠ 0 ∧
      seg.data.head? = some CTL_CONNECT ∧ namesNone seg.data.tail

theorem answersWithout_of_delivers {buffer : List UInt8}
    (hseg : Delivers buffer seg) (hheeds : s.Heeds seg) (hctl : seg.flags &&& FLAG_CTL ≠ 0)
    (hnone : namesNone seg.data.tail = true) (hstate : s.state = .synSent) :
    s.answersWithout buffer = true := by
  obtain ⟨hconv, -, hrst, hdata⟩ := hheeds
  obtain ⟨options, hdata⟩ := hdata hctl
  have hhead : seg.data.head? = some CTL_CONNECT := by
    rw [hdata]
    rfl
  rw [answersWithout, hseg.2]
  exact decide_eq_true ⟨hseg.1, hconv, hstate, hrst, hctl, hhead, hnone⟩

/-! ### The calls -/

/-- A segment keeps the factors: the options of a connect message do, and what is committed of a data
segment is no more than the window. -/
def AdmitsScale (s : PseudoTcp) (seg : Segment) : Prop :=
  (seg.flags &&& FLAG_CTL ≠ 0 → s.ScalesAlike seg.data.tail) ∧ s.committed seg ≤ s.rcvWnd.toNat

theorem scaleStep_process (h : s.Scaled) (hfresh : s.state = .listen → s.queued = [])
    (hok : s.Heeds seg → s.AdmitsScale seg) :
    ScaleStep (seg.flags &&& FLAG_CTL ≠ 0)
      (s.Heeds seg ∧ seg.flags &&& FLAG_CTL ≠ 0 ∧ namesNone seg.data.tail = true ∧
        s.state = .synSent) s (s.process env seg).2 := by
  obtain (hr | hr | hr) | ⟨hheeds, bConnect, s₁, s₂, hc, hs₂, hr⟩ := process_cases env s seg
  · rw [hr]
    exact .of_kept h hfresh rfl
  · rw [hr]
    exact .of_kept h hfresh rfl
  · rw [hr]
    exact .of_kept h hfresh rfl
  obtain ⟨hconnect, hcommit⟩ := hok hheeds
  have harrive : (s.arrive env).Scaled := h.of_kept rfl
  obtain ⟨hcontrol, hdata⟩ :=
    scaleStep_processControl env harrive hfresh hconnect hc
  have hstep : ScaleStep (seg.flags &&& FLAG_CTL ≠ 0)
      (s.Heeds seg ∧ seg.flags &&& FLAG_CTL ≠ 0 ∧ namesNone seg.data.tail = true ∧
        s.state = .synSent) s s₁ :=
    ⟨hcontrol.scaled, hcontrol.announces,
      fun hne => (hcontrol.factor hne).imp_right fun hnone => ⟨hheeds, hnone⟩⟩
  have hack : s₂.kept = s₁.kept := by
    rw [← hs₂, (tends_processAck _ _ _ _).kept, (tends_updateTimestamp _ _).kept]
  rcases hr with hr | hr
  · rw [hr]
    exact hstep.then_kept hack
  have hkept : (s₂.enterEstablished bConnect).notifyWriteable.kept = s₁.kept := by
    rw [kept_notifyWriteable, kept_enterEstablished, hack]
  rw [hr]
  generalize (s₂.enterEstablished bConnect).notifyWriteable = t at hkept
  refine scaleStep_processData env (hstep.then_kept hkept) ?_
  by_cases hctl : seg.flags &&& FLAG_CTL = 0
  · have hside : t.recvSide = s.recvSide := by
      rw [recvSide_of_kept hkept, hdata hctl]
      rfl
    rw [committed_of_recvSide hside, show t.rcvWnd = s.rcvWnd from congrArg RecvSide.rcvWnd hside]
    exact hcommit
  · rw [committed, if_pos (.inr (.inl hctl))]
    exact Nat.zero_le _

theorem scaled_openWindow (h : s.Scaled) :
    (s.openWindow env).Scaled ∧ (s.openWindow env).rwndScale = s.rwndScale := by
  have hopened : { s with rcvWnd := UInt32.ofNat s.rbuf.getWriteRemaining }.Scaled :=
    ⟨h.factor, h.buffer, h.free_le rfl, h.shift⟩
  simp only [openWindow]
  split
  · split
    · have hkept := kept_of_sending (sending_attemptSend env
        { s with rcvWnd := UInt32.ofNat s.rbuf.getWriteRemaining } .immediateAck)
      exact ⟨hopened.of_kept hkept, congrArg Kept.rwndScale hkept⟩
    · exact ⟨hopened, rfl⟩
  · exact ⟨h, rfl⟩

theorem scaleStep_recv (h : s.Scaled) (hfresh : s.state = .listen → s.queued = []) (len : ℕ) :
    ScaleStep False answered s (s.recv env len).2 := by
  rw [recv]
  split
  · exact .of_kept h hfresh rfl
  next hopen =>
  have hlen := FifoBuffer.read_bufferLength s.rbuf len
  split
  · exact .of_kept h hfresh rfl
  next data rbuf _ hread =>
  rw [hread] at hlen
  have hread : { s with rbuf := rbuf }.Scaled := h.of_window_le rfl rfl hlen le_rfl
  obtain ⟨hscaled, hscale⟩ := scaled_openWindow env hread
  refine ⟨hscaled, fun hl => ?_, fun _ => .inl ⟨hscale, False.elim⟩⟩
  rw [hl] at hopen
  exact absurd (by rintro ⟨⟩) hopen

theorem scaleStep_connect (h : s.Scaled) (hfresh : s.state = .listen → s.queued = []) :
    ScaleStep False answered s (s.connect env).2 := by
  rw [connect]
  split
  · exact .of_kept h hfresh rfl
  next hstate =>
  refine ScaleStep.then_kept ?_ (kept_of_sending (sending_attemptSend env _ _))
  have hannounces := announces_queueConnectMessage (s := { s with state := .synSent })
    (hfresh (not_ne_iff.mp hstate))
  exact ⟨⟨h.factor, h.buffer, h.window, h.shift⟩, fun _ => hannounces, fun _ => .inl ⟨rfl, (by rintro ⟨⟩)⟩⟩

theorem scaleStep_send (h : s.Scaled) (hfresh : s.state = .listen → s.queued = [])
    (buffer : List UInt8) : ScaleStep False answered s (s.send env buffer).2 := by
  rw [send]
  split
  · exact .of_kept h hfresh rfl
  next hopen =>
  split
  · exact .of_kept h hfresh rfl
  refine ScaleStep.then_kept ?_ (kept_of_sending (sending_attemptSend env _ _))
  refine ⟨⟨h.factor, h.buffer, h.window, h.shift⟩, fun hl => ?_, fun _ => .inl ⟨rfl, (by rintro ⟨⟩)⟩⟩
  rw [hl] at hopen
  exact absurd (by rintro ⟨⟩) hopen

/-- The calls that keep the factors: a segment that `process` heeds does, and the receive buffer is resized in
`TCP_LISTEN`, and fits what is buffered. -/
def KeepsScale (s : PseudoTcp) : Call → Prop
  | .notifyPacket buffer => ∀ seg, Delivers buffer seg → s.Heeds seg → s.AdmitsScale seg
  | .setOption .rcvbuf value =>
    s.state = .listen ∧ s.rbuf.dataLength ≤ (receiveBufferSize value.toUInt32).toNat
  | _ => True

/-- The datagram of the call is an answer without a factor. -/
def Call.answersWithout (s : PseudoTcp) : Call → Bool
  | .notifyPacket buffer => s.answersWithout buffer
  | _ => false

theorem scaleStep_call {c : Call} (h : s.Scaled) (hfresh : s.state = .listen → s.queued = [])
    (hok : s.KeepsScale c) (hc : s.call env c = some s') :
    ScaleStep False (c.answersWithout s = true) s s' := by
  cases c with
  | connect =>
    cases hc
    exact scaleStep_connect env h hfresh
  | notifyMTU mtu =>
    cases hc
    exact .of_kept h hfresh (tends_notifyMTU s mtu).kept
  | notifyClock now =>
    cases hc
    exact .of_kept h hfresh (ticks_notifyClock env s now).kept
  | notifyPacket buffer =>
    obtain ⟨⟨ok, t⟩, ht, rfl⟩ := Option.map_eq_some_iff.mp hc
    obtain rfl | ⟨seg, hseg, rfl⟩ := notifyPacket_cases env ht
    · exact .of_kept h hfresh rfl
    · have hstep := scaleStep_process env h hfresh (hok seg hseg)
      refine ⟨hstep.scaled, hstep.announces, fun hne => ?_⟩
      obtain ⟨hscale, -⟩ | ⟨hheeds, hctl, hnone, hstate⟩ := hstep.factor hne
      · exact .inl ⟨hscale, nofun⟩
      · exact .inr (answersWithout_of_delivers hseg hheeds hctl hnone hstate)
  | setOption opt value =>
    cases hc
    cases opt with
    | rcvbuf =>
      obtain ⟨hlisten, hfit⟩ := hok
      refine ⟨scaled_resizeReceiveBuffer env h.shift hfit, fun _ => ?_,
        fun hne => absurd hlisten hne⟩
      have hnil : (s.resizeReceiveBuffer env value.toUInt32).queued = [] := hfresh hlisten
      change (s.resizeReceiveBuffer env value.toUInt32).Announces
      rw [Announces, hnil]
      exact List.nil_prefix
    | nodelay => exact .of_same h hfresh rfl rfl rfl rfl rfl
    | ackdelay => exact .of_same h hfresh rfl rfl rfl rfl rfl
    | sndbuf => exact .of_same h hfresh rfl rfl rfl rfl rfl
  | recv len =>
    cases hc
    exact scaleStep_recv env h hfresh len
  | send buffer =>
    cases hc
    exact scaleStep_send env h hfresh buffer
  | close force =>
    cases hc
    exact .of_same h hfresh rfl rfl rfl rfl rfl

end PseudoTcp

/-! ### The window that the peer sees -/

/-- A window that is cut to a multiple of its unit, and put together again with a unit that is no
larger, has grown by nothing. -/
theorem shift_window {wnd : UInt32} {scale peerScale : UInt8} (hscale : scale.toNat ≤ 16)
    (hpeer : peerScale.toNat ≤ scale.toNat) (hfit : wnd.toNat ≤ (2 ^ 16 - 1) * 2 ^ scale.toNat) :
    (wnd >>> scale.toUInt32).toNat < 2 ^ 16 ∧
      (wnd >>> scale.toUInt32).toUInt16.toUInt32 <<< peerScale.toUInt32 ≤ wnd := by
  have hunit : scale.toUInt32.toNat % 32 = scale.toNat := by
    rw [UInt8.toNat_toUInt32]
    omega
  have hunit' : peerScale.toUInt32.toNat % 32 = peerScale.toNat := by
    rw [UInt8.toNat_toUInt32]
    omega
  have hcut : (wnd >>> scale.toUInt32).toNat = wnd.toNat / 2 ^ scale.toNat := by
    rw [UInt32.toNat_shiftRight, hunit, Nat.shiftRight_eq_div_pow]
  have hlt : (wnd >>> scale.toUInt32).toNat < 2 ^ 16 := by
    have hle : wnd.toNat / 2 ^ scale.toNat ≤ 2 ^ 16 - 1 :=
      Nat.div_le_of_le_mul (by rw [Nat.mul_comm]; exact hfit)
    omega
  refine ⟨hlt, UInt32.le_iff_toNat_le.mpr ?_⟩
  rw [UInt32.toNat_shiftLeft, hunit', UInt16.toNat_toUInt32, UInt32.toNat_toUInt16,
    Nat.mod_eq_of_lt hlt, Nat.shiftLeft_eq, hcut]
  calc wnd.toNat / 2 ^ scale.toNat * 2 ^ peerScale.toNat % 2 ^ 32
      ≤ wnd.toNat / 2 ^ scale.toNat * 2 ^ peerScale.toNat := Nat.mod_le _ _
    _ ≤ wnd.toNat / 2 ^ scale.toNat * 2 ^ scale.toNat :=
        Nat.mul_le_mul_left _ (Nat.pow_le_pow_right (by decide) hpeer)
    _ ≤ wnd.toNat := Nat.div_mul_le_self _ _

/-- A connection, and the factor by which its peer shifts the windows that it is sent. -/
structure PeerView where
  tcp : PseudoTcp
  peerScale : UInt8

namespace PeerView

open PseudoTcp

variable (env : Env) {v v' : PeerView}

/-- In the beginning the peer has not been told a factor. -/
def new (conv : UInt32) : PeerView := ⟨.new env conv, 0⟩

/-- A call of the connection. The peer reads the factor in the first message that it is sent, and
shifts by nothing if it has no window scaling itself. -/
def call (v : PeerView) (c : Call) : Option PeerView :=
  (v.tcp.call env c).map fun s =>
    ⟨s, if v.tcp.state = .listen then s.announcedScale
      else if c.answersWithout v.tcp then 0
      else v.peerScale⟩

/-- The call keeps the factors. -/
def KeepsScale (v : PeerView) (c : Call) : Prop := v.tcp.KeepsScale c

/-- The invariant: the connection is scaled, and its factor is no smaller than the peer's. -/
structure Scaled (v : PeerView) : Prop where
  tcp : v.tcp.Scaled
  fresh : v.tcp.state = .listen → v.tcp.queued = []
  told : v.peerScale.toNat ≤ v.tcp.rwndScale.toNat

theorem scaled_new (conv : UInt32) : (new env conv).Scaled := by
  have hfactor : (0 : UInt8).toNat ≤ 16 := by decide
  have hsize : DEFAULT_RCV_BUF_SIZE.toNat ≤ (2 ^ 16 - 1) * 2 ^ (0 : UInt8).toNat := by decide
  have hshift : (0 : UInt8).toNat < 32 := by decide
  exact ⟨⟨hfactor, hsize, hsize, hshift⟩, fun _ => rfl, le_rfl⟩

theorem scaled_call {c : Call} (h : v.Scaled) (hok : v.KeepsScale c)
    (hc : v.call env c = some v') : v'.Scaled := by
  obtain ⟨s, hs, rfl⟩ := Option.map_eq_some_iff.mp hc
  have hstep := scaleStep_call env h.tcp h.fresh hok hs
  refine ⟨hstep.scaled, fun hl => ?_, ?_⟩
  · obtain ⟨hl', hsame⟩ := (progress_call env hs).listen hl
    exact hsame.trans (h.fresh hl')
  split
  · next hlisten => exact (hstep.announces hlisten).announcedScale_le
  next hne =>
  split
  · exact Nat.zero_le _
  next hanswer =>
  obtain ⟨hsame, -⟩ := (hstep.factor hne).resolve_right hanswer
  rw [hsame]
  exact h.told

/-- What the window field promises: it has 16 bits, the peer makes no larger window of it than was announced,
and shifts by less than 32. -/
structure Fits (v : PeerView) : Prop where
  field : (v.tcp.rcvWnd >>> v.tcp.rwndScale.toUInt32).toNat < 2 ^ 16
  window : (v.tcp.rcvWnd >>> v.tcp.rwndScale.toUInt32).toUInt16.toUInt32 <<<
    v.peerScale.toUInt32 ≤ v.tcp.rcvWnd
  shift : v.tcp.swndScale.toNat < 32

/-- In `TCP_ESTABLISHED`, the connect message in the datagram leaves the receive buffer alone. -/
def LeavesBuffer (v : PeerView) (buffer : List UInt8) : Prop :=
  v.tcp.state = .established → ∀ seg, Delivers buffer seg → seg.flags &&& FLAG_CTL ≠ 0 →
    (v.tcp.process env seg).2.rbuf = v.tcp.rbuf

/-- **Window scaling.** In every run of calls that keep the factors, the window field promises what it
should; and whatever connect message that keeps them comes next in `TCP_ESTABLISHED`, it leaves the
receive buffer alone. -/
theorem scale_of_run (conv : UInt32) (calls : List Call)
    (hrun : Runs.run (call env) (new env conv) calls = some v)
    (hok : Runs.Admissible (call env) KeepsScale (new env conv) calls) :
    v.Fits ∧ ∀ buffer, v.KeepsScale (.notifyPacket buffer) → v.LeavesBuffer env buffer := by
  have h : v.Scaled := Runs.invariant (P := Scaled)
    (fun _ _ _ h hc hcall => scaled_call env h hc hcall) (scaled_new env conv) hok hrun
  obtain ⟨hfield, hwindow⟩ := shift_window h.tcp.factor h.told h.tcp.window
  refine ⟨⟨hfield, hwindow, h.tcp.shift⟩, ?_⟩
  intro buffer hkeeps hstate seg hseg hctl
  have hstep := scaleStep_process env h.tcp h.fresh (hkeeps seg hseg)
  have hne : v.tcp.state ≠ .listen := by
    rw [hstate]
    decide
  obtain ⟨-, hbuf⟩ | ⟨-, -, -, hsent⟩ := hstep.factor hne
  · exact hbuf hctl
  · rw [hstate] at hsent
    cases hsent

instance (s : PseudoTcp) (options : List UInt8) : Decidable (s.DropsScaling options) :=
  decidable_of_iff (0 < s.rwndScale ∧ namesNone options = true) <| by
    rw [DropsScaling, namesNone]
    split
    · next heq => simp [heq]
    · next heq => simp [heq]

instance (s : PseudoTcp) (options : List UInt8) : Decidable (s.ScalesAlike options) :=
  inferInstanceAs (Decidable (_ ∧ _))

instance (s : PseudoTcp) (seg : Segment) : Decidable (s.AdmitsScale seg) :=
  inferInstanceAs (Decidable (_ ∧ _))

theorem keepsScale_datagram {seq ack : UInt32} {flags : UInt8} {data : List UInt8}
    (hok : v.tcp.AdmitsScale ⟨7, seq, ack, flags, 1000, data, 1, 0⟩) :
    v.KeepsScale (.notifyPacket (datagram seq ack flags data)) := by
  intro seg hseg _
  obtain rfl := Option.some.inj ((parseHeader_datagram _ _ _ _).symm.trans hseg.2)
  exact hok

/-- A receive buffer of a megabyte is announced in units of 32 bytes, and some data arrives. -/
def scaledRun : List Call :=
  [.setOption .rcvbuf 1048576, .connect, .notifyPacket (datagram 0 4 FLAG_CTL [0, 3, 1, 2]),
    .notifyPacket (datagram 4 4 0 [1, 2, 3])]

/-- The connect message may come once more. -/
theorem scale_of_scaledRun :
    ∃ v, Runs.run (call quietEnv) (new quietEnv 7) scaledRun = some v ∧
      v.peerScale = 5 ∧ v.tcp.rcvWnd = 1048573 ∧
      v.KeepsScale (.notifyPacket (datagram 0 4 FLAG_CTL [0, 3, 1, 2])) ∧
      v.Fits ∧ ∀ buffer, v.KeepsScale (.notifyPacket buffer) → v.LeavesBuffer quietEnv buffer := by
  refine ⟨_, rfl, by decide +kernel, by decide +kernel, keepsScale_datagram (by decide +kernel),
    scale_of_run quietEnv 7 scaledRun rfl ?_⟩
  refine ⟨⟨by decide +kernel, by decide +kernel⟩, fun _ h₁ => ?_⟩
  cases h₁
  refine ⟨trivial, fun _ h₂ => ?_⟩
  cases h₂
  refine ⟨keepsScale_datagram (by decide +kernel), fun _ h₃ => ?_⟩
  cases h₃
  exact ⟨keepsScale_datagram (by decide +kernel), fun _ _ => trivial⟩

/-- The size of the receive buffer is set in `TCP_LISTEN`. -/
def SetsEarly (v : PeerView) : Call → Prop
  | .setOption .rcvbuf _ => v.tcp.state = .listen
  | _ => True

/-- After the same handshake a connect message comes that names no factor. -/
def lateRun : List Call :=
  [.setOption .rcvbuf 1048576, .connect, .notifyPacket (datagram 0 4 FLAG_CTL [0, 3, 1, 2]),
    .notifyPacket (datagram 0 4 FLAG_CTL [0])]

/-- The peer goes on to shift by 5, so that it sees a window of almost two megabytes
where there are 60 kilobytes. -/
theorem not_scale_after_late_connect : ¬ ∀ (env : Env) (conv : UInt32) (calls : List Call) (v : PeerView),
      Runs.Admissible (call env) SetsEarly (new env conv) calls →
        Runs.run (call env) (new env conv) calls = some v →
          v.Fits ∧ ∀ buffer, v.LeavesBuffer env buffer := by
  intro h
  have hend : (Runs.run (call quietEnv) (new quietEnv 7) lateRun).map
      (fun v => (v.tcp.rcvWnd, v.tcp.rwndScale, v.peerScale)) = some (61440, 0, 5) := by
    decide +kernel
  obtain ⟨v, hv, heq⟩ := Option.map_eq_some_iff.mp hend
  obtain ⟨hwnd, heq⟩ := Prod.mk.inj heq
  obtain ⟨hscale, hpeer⟩ := Prod.mk.inj heq
  have hearly : Runs.Admissible (call quietEnv) SetsEarly (new quietEnv 7) lateRun :=
    ⟨rfl, fun _ _ => ⟨trivial, fun _ _ => ⟨trivial, fun _ _ => ⟨trivial, fun _ _ => trivial⟩⟩⟩⟩
  have hwindow := (h quietEnv 7 lateRun v hearly hv).1.window
  rw [hwnd, hscale, hpeer] at hwindow
  exact absurd hwindow (by decide)

end PeerView

end Synciga
