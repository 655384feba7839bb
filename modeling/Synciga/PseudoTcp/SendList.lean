import Synciga.PseudoTcp.Wire

/-!
# The segment list covers the send buffer

`m_slist` cuts the buffered bytes into consecutive segments from `m_snd_una` on, the transmitted ones come
first, and `m_snd_nxt` is where they end. Bytes of the stream carry their `bCtrl`, and a segment has bytes of
its own kind.

## Main definitions

* `Covers` — a list of segments and the stretch of the stream it stands for
* `SentFirst` — those that were transmitted come first

## Main results

* `Covers.split`, `Covers.drop`, `Covers.push`, `SentFirst.transmit` — what the functions do to it
-/

namespace Synciga

/-! ### Lengths -/

/-- The bytes of a segment list. -/
def lens (l : List SSegment) : ℕ := (l.map fun g => g.len.toNat).sum

/-- The bytes of the segments that have been transmitted. -/
def sentLens (l : List SSegment) : ℕ := lens (l.filter fun g => g.xmit ≠ 0)

@[simp] theorem lens_nil : lens [] = 0 := rfl

@[simp] theorem lens_cons (g : SSegment) (l : List SSegment) : lens (g :: l) = g.len.toNat + lens l := rfl

@[simp] theorem lens_append (l₁ l₂ : List SSegment) : lens (l₁ ++ l₂) = lens l₁ + lens l₂ := by
  simp [lens]

@[simp] theorem sentLens_nil : sentLens [] = 0 := rfl

variable {g : SSegment}

theorem sentLens_cons_of_xmit (l : List SSegment) (h : g.xmit ≠ 0) :
    sentLens (g :: l) = g.len.toNat + sentLens l := by
  simp [sentLens, h]

theorem sentLens_cons_of_fresh (l : List SSegment) (h : g.xmit = 0) : sentLens (g :: l) = sentLens l := by
  simp [sentLens, h]

@[simp] theorem sentLens_append (l₁ l₂ : List SSegment) :
    sentLens (l₁ ++ l₂) = sentLens l₁ + sentLens l₂ := by
  simp [sentLens]

variable {l : List SSegment}

theorem sentLens_of_all_fresh (h : ∀ g ∈ l, g.xmit = 0) : sentLens l = 0 := by
  have hnil : (l.filter fun g => g.xmit ≠ 0) = [] := by
    simpa [List.filter_eq_nil_iff] using h
  rw [sentLens, hnil, lens_nil]

theorem sentLens_of_all_sent (h : ∀ g ∈ l, g.xmit ≠ 0) : sentLens l = lens l := by
  rw [sentLens, List.filter_eq_self.mpr (by simpa using h)]

theorem sentLens_le_lens (l : List SSegment) : sentLens l ≤ lens l := by
  induction l with
  | nil => exact le_rfl
  | cons g l ih =>
    by_cases h : g.xmit = 0
    · rw [sentLens_cons_of_fresh l h, lens_cons]
      omega
    · rw [sentLens_cons_of_xmit l h, lens_cons]
      omega

/-- Transmitted segments come before fresh ones. -/
def SentFirst (l : List SSegment) : Prop := l.Pairwise fun a b => a.xmit = 0 → b.xmit = 0

variable {l₁ l₂ : List SSegment}

/-- If the first part of a list is no longer than everything that was transmitted, then it was
transmitted itself. -/
theorem SentFirst.sentLens_eq (h : SentFirst (l₁ ++ l₂))
    (hle : lens l₁ ≤ sentLens (l₁ ++ l₂)) : sentLens l₁ = lens l₁ := by
  induction l₁ with
  | nil => rfl
  | cons g l₁ ih =>
    obtain ⟨hg, hrest⟩ := List.pairwise_cons.mp h
    by_cases hx : g.xmit = 0
    · -- Nothing behind a fresh segment was transmitted, so the whole first part is empty.
      have hzero : sentLens (g :: l₁ ++ l₂) = 0 := by
        refine sentLens_of_all_fresh fun g' hg' => ?_
        rcases List.mem_cons.mp hg' with rfl | hmem
        · exact hx
        · exact hg g' hmem hx
      have := sentLens_le_lens (g :: l₁)
      omega
    · rw [List.cons_append, sentLens_cons_of_xmit _ hx, lens_cons] at hle
      rw [sentLens_cons_of_xmit _ hx, lens_cons, ih hrest (by omega)]

theorem SentFirst.transmit {l₁ l₂ rest : List SSegment} {g a : SSegment}
    (h : SentFirst (l₁ ++ g :: l₂)) (hl₁ : ∀ x ∈ l₁, x.xmit ≠ 0) (ha : a.xmit ≠ 0)
    (hrest : ∀ b ∈ rest, b.xmit = g.xmit) : SentFirst (l₁ ++ (a :: rest) ++ l₂) := by
  obtain ⟨h₁, h₂, -⟩ := List.pairwise_append.mp h
  obtain ⟨hg, hl₂⟩ := List.pairwise_cons.mp h₂
  refine List.pairwise_append.mpr ⟨List.pairwise_append.mpr ⟨h₁, ?_, ?_⟩, hl₂, ?_⟩
  · refine List.pairwise_cons.mpr ⟨fun b _ hx => absurd hx ha, ?_⟩
    exact List.pairwise_of_forall_mem_list fun x hx y hy hx0 => by
      rw [hrest y hy, ← hrest x hx, hx0]
  · exact fun x hx y _ hx0 => absurd hx0 (hl₁ x hx)
  intro x hx y hy hx0
  rcases List.mem_append.mp hx with hmem | hmem
  · exact absurd hx0 (hl₁ x hmem)
  · rcases List.mem_cons.mp hmem with rfl | hmem
    · exact absurd hx0 ha
    · exact hg y hy (by rw [← hrest x hmem, hx0])

theorem sentLens_transmit {l₁ l₂ rest : List SSegment} {g a : SSegment} (ha : a.xmit ≠ 0)
    (hrest : ∀ b ∈ rest, b.xmit = g.xmit) (hlen : a.len.toNat + lens rest = g.len.toNat) :
    sentLens (l₁ ++ (a :: rest) ++ l₂) =
      sentLens (l₁ ++ g :: l₂) + if g.xmit = 0 then a.len.toNat else 0 := by
  simp only [sentLens_append, sentLens_cons_of_xmit _ ha]
  by_cases hg : g.xmit = 0
  · have hzero : sentLens rest = 0 := sentLens_of_all_fresh fun b hb => (hrest b hb).trans hg
    rw [if_pos hg, sentLens_cons_of_fresh _ hg, hzero]
    omega
  · have hall : sentLens rest = lens rest :=
      sentLens_of_all_sent fun b hb => by rw [hrest b hb]; exact hg
    rw [if_neg hg, sentLens_cons_of_xmit _ hg, hall]
    omega

theorem SentFirst.replace_fresh (h : SentFirst (l₁ ++ g :: l₂)) (hg : g.xmit = 0) (segs : List SSegment)
    (hsegs : ∀ b ∈ segs, b.xmit = 0) :
    SentFirst (l₁ ++ segs ++ l₂) ∧ sentLens (l₁ ++ segs ++ l₂) = sentLens (l₁ ++ g :: l₂) := by
  obtain ⟨h₁, h₂, h₁₂⟩ := List.pairwise_append.mp h
  obtain ⟨hgl, hl₂⟩ := List.pairwise_cons.mp h₂
  constructor
  · refine List.pairwise_append.mpr ⟨List.pairwise_append.mpr ⟨h₁, ?_, ?_⟩, hl₂, ?_⟩
    · exact List.pairwise_of_forall_mem_list fun x _ y hy _ => hsegs y hy
    · exact fun x _ y hy _ => hsegs y hy
    · intro x hx y hy hx0
      rcases List.mem_append.mp hx with hmem | _
      · exact h₁₂ x hmem y (List.mem_cons_of_mem _ hy) hx0
      · exact hgl y hy hg
  · rw [sentLens_append, sentLens_append, sentLens_append, sentLens_cons_of_fresh _ hg,
      sentLens_of_all_fresh hsegs, Nat.add_zero]

/-! ### Covering -/

/-- `l` covers the stretch `q` of the stream that starts at the number `una`: its segments follow each other
without gap, make up all of `q`, and contain bytes of their own kind only. -/
def Covers (una : UInt32) (q : List (UInt8 × Bool)) : List SSegment → Prop
  | [] => q = []
  | g :: l => g.seq = una ∧ g.len.toNat ≤ q.length ∧ (∀ x ∈ q.take g.len.toNat, x.2 = g.bCtrl) ∧
      Covers (una + g.len) (q.drop g.len.toNat) l

variable {q : List (UInt8 × Bool)} {una : UInt32}

theorem Covers.lens_eq (h : Covers una q l) : lens l = q.length := by
  induction l generalizing una q with
  | nil => rw [h]; rfl
  | cons g l ih =>
    obtain ⟨-, hlen, -, hrest⟩ := h
    rw [lens_cons, ih hrest, List.length_drop]
    omega

theorem covers_append : Covers una q (l₁ ++ l₂) ↔ lens l₁ ≤ q.length ∧ Covers una (q.take (lens l₁)) l₁ ∧
      Covers (una + UInt32.ofNat (lens l₁)) (q.drop (lens l₁)) l₂ := by
  induction l₁ generalizing una q with
  | nil => simp [Covers]
  | cons g l₁ ih =>
    simp only [List.cons_append, Covers, ih, lens_cons, List.length_drop, List.length_take,
      List.take_take, List.drop_drop, UInt32.ofNat_add, UInt32.ofNat_toNat, ← UInt32.add_assoc,
      List.drop_take, Nat.add_sub_cancel_left, Nat.min_eq_left (Nat.le_add_right _ _)]
    constructor
    · rintro ⟨hseq, hlen, htag, hle, h₁, h₂⟩
      exact ⟨by omega, ⟨hseq, by omega, htag, h₁⟩, h₂⟩
    · rintro ⟨hle, ⟨hseq, hlen, htag, h₁⟩, h₂⟩
      exact ⟨hseq, by omega, htag, by omega, h₁, h₂⟩

theorem Covers.entry (h : Covers una q (l₁ ++ g :: l₂)) :
    g.seq = una + UInt32.ofNat (lens l₁) ∧ lens l₁ + g.len.toNat ≤ q.length ∧
      ∀ x ∈ (q.drop (lens l₁)).take g.len.toNat, x.2 = g.bCtrl := by
  obtain ⟨hle, -, hseq, hlen, htag, -⟩ := covers_append.mp h
  rw [List.length_drop] at hlen
  exact ⟨hseq, by omega, htag⟩

theorem covers_cons_congr {g g' : SSegment} (hseq : g'.seq = g.seq) (hlen : g'.len = g.len)
    (hctrl : g'.bCtrl = g.bCtrl) :
    Covers una q (g' :: l) ↔ Covers una q (g :: l) := by
  simp only [Covers, hseq, hlen, hctrl]

theorem Covers.split {g a b : SSegment} (h : Covers una q (g :: l)) {n : UInt32} (hn : n ≤ g.len)
    (ha : a.seq = g.seq ∧ a.len = n ∧ a.bCtrl = g.bCtrl)
    (hb : b.seq = g.seq + n ∧ b.len = g.len - n ∧ b.bCtrl = g.bCtrl) :
    Covers una q (a :: b :: l) := by
  obtain ⟨hseq, hlen, htag, hrest⟩ := h
  obtain ⟨ha1, ha2, ha3⟩ := ha
  obtain ⟨hb1, hb2, hb3⟩ := hb
  have hn' : n.toNat ≤ g.len.toNat := UInt32.le_iff_toNat_le.mp hn
  have hsub : (g.len - n).toNat = g.len.toNat - n.toNat := UInt32.toNat_sub_of_le _ _ hn
  refine ⟨ha1.trans hseq, by rw [ha2]; omega, ?_, by rw [hb1, ha2, hseq], ?_, ?_, ?_⟩
  · rw [ha2, ha3]
    intro x hx
    refine htag x ?_
    rw [← Nat.min_eq_left hn', ← List.take_take] at hx
    exact List.mem_of_mem_take hx
  · rw [ha2, hb2, hsub, List.length_drop]
    omega
  · rw [ha2, hb2, hb3, hsub]
    intro x hx
    refine htag x ?_
    rw [← List.drop_take] at hx
    exact List.mem_of_mem_drop hx
  · rw [ha2, hb2, hsub, List.drop_drop, UInt32.add_assoc, show n + (g.len - n) = g.len by grind,
      show n.toNat + (g.len.toNat - n.toNat) = g.len.toNat by omega]
    exact hrest

theorem Covers.push (h : Covers una q l) {data : List UInt8} {bCtrl : Bool}
    (hseq : g.seq = una + UInt32.ofNat q.length) (hlen : g.len.toNat = data.length)
    (hctrl : g.bCtrl = bCtrl) :
    Covers una (q ++ data.map fun b => (b, bCtrl)) (l ++ [g]) := by
  refine covers_append.mpr ⟨?_, ?_, ?_⟩
  · rw [h.lens_eq, List.length_append]
    omega
  · rw [h.lens_eq, List.take_left]
    exact h
  · rw [h.lens_eq, List.drop_left]
    refine ⟨hseq, by simp [hlen], fun x hx => ?_, by simp [Covers, hlen]⟩
    obtain ⟨b, -, rfl⟩ := List.mem_map.mp (List.mem_of_mem_take hx)
    exact hctrl.symm

theorem Covers.extend {g g' : SSegment}
    (h : Covers una q (l ++ [g])) {data : List UInt8} (hseq : g'.seq = g.seq)
    (hlen : g'.len.toNat = g.len.toNat + data.length) (hctrl : g'.bCtrl = g.bCtrl) :
    Covers una (q ++ data.map fun b => (b, g.bCtrl)) (l ++ [g']) := by
  obtain ⟨hle, hl, hgseq, hglen, hgtag, hgrest⟩ := covers_append.mp h
  have hq : q.length = lens l + g.len.toNat := by
    have := h.lens_eq
    simp only [lens_append, lens_cons, lens_nil] at this
    omega
  have hdrop : (q ++ data.map fun b => (b, g.bCtrl)).drop (lens l) =
      q.drop (lens l) ++ data.map fun b => (b, g.bCtrl) := List.drop_append_of_le_length hle
  refine covers_append.mpr ⟨?_, ?_, ?_⟩
  · rw [List.length_append]
    omega
  · rw [List.take_append_of_le_length hle]
    exact hl
  rw [hdrop]
  refine ⟨hseq.trans hgseq, ?_, fun x hx => ?_, ?_⟩
  · rw [hlen, List.length_append, List.length_drop, List.length_map]
    omega
  · rw [hctrl]
    rcases List.mem_append.mp (List.mem_of_mem_take hx) with hmem | hmem
    · refine hgtag x ?_
      rwa [List.take_of_length_le (by rw [List.length_drop]; omega)]
    · obtain ⟨b, -, rfl⟩ := List.mem_map.mp hmem
      rfl
  · refine List.drop_eq_nil_of_le ?_
    rw [hlen, List.length_append, List.length_drop, List.length_map]
    omega

/-! ### Freeing acknowledged segments -/

/-- `n` bytes from the front of `l` end on a segment boundary. -/
def OnBoundary (n : ℕ) (l : List SSegment) : Prop := ∃ k, lens (l.take k) = n

theorem freeAcked_of_boundary {n : UInt32} (largest : UInt32) (h : OnBoundary n.toNat l) :
    ∃ k, (PseudoTcp.freeAcked n largest l).2 = l.drop k ∧ lens (l.take k) = n.toNat := by
  induction l generalizing n largest with
  | nil =>
    obtain ⟨k, hk⟩ := h
    exact ⟨0, rfl, by simpa using hk⟩
  | cons front l ih =>
    rw [PseudoTcp.freeAcked]
    by_cases hn : n = 0
    · rw [if_pos hn, hn]
      exact ⟨0, rfl, rfl⟩
    rw [if_neg hn]
    have hpos : 0 < n.toNat := by
      rcases Nat.eq_zero_or_pos n.toNat with hz | hz
      · exact absurd (UInt32.toNat_inj.mp hz) hn
      · exact hz
    -- The boundary lies behind the first segment, since bytes are left to free.
    obtain ⟨k, hk⟩ := h
    cases k with
    | zero => exact absurd hk (by simp; omega)
    | succ k =>
      rw [List.take_succ_cons, lens_cons] at hk
      have hge : ¬ n < front.len := by
        rw [UInt32.lt_iff_toNat_lt]
        omega
      have hsub : (n - front.len).toNat = n.toNat - front.len.toNat :=
        UInt32.toNat_sub_of_le _ _ (UInt32.not_lt.mp hge)
      rw [if_neg hge]
      obtain ⟨j, hj, hlen⟩ := ih (n := n - front.len) (max largest front.len)
        ⟨k, by rw [hsub]; omega⟩
      refine ⟨j + 1, hj, ?_⟩
      rw [List.take_succ_cons, lens_cons, hlen, hsub]
      omega

theorem Covers.drop (h : Covers una q l) (k : ℕ) :
    Covers (una + UInt32.ofNat (lens (l.take k))) (q.drop (lens (l.take k))) (l.drop k) := by
  rw [← List.take_append_drop k l] at h
  exact (covers_append.mp h).2.2

end Synciga
