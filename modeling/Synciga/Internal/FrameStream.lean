import Mathlib.Data.List.Basic

/-!
# Frames in a stream

Packets are put into a stream one behind the other, each as a frame that tells where it ends. Whoever reads the
stream in pieces takes the frames that are complete.

## Main definitions

* `FrameCode`, `encodeAll`, `drain` — frames, and reading and writing them

## Main results

* `drain_encodeAll` — what was written is read
-/

/-- A way to write packets of a kind. -/
structure FrameCode (α β : Type*) where
  Valid : α → Prop
  encode : α → List β
  /-- The first frame is taken off, if it is complete. -/
  next : List β → Option (α × List β)
  encode_ne_nil : ∀ a, encode a ≠ []
  next_encode : ∀ a, Valid a → ∀ rest, next (encode a ++ rest) = some (a, rest)
  sound : ∀ l a rest, next l = some (a, rest) → Valid a ∧ l = encode a ++ rest

namespace FrameCode

variable {α β : Type*} (code : FrameCode α β)

theorem next_lt {l rest : List β} {a : α} (h : code.next l = some (a, rest)) : rest.length < l.length := by
  have hpos := List.length_pos_iff.mpr (code.encode_ne_nil a)
  rw [(code.sound l a rest h).2, List.length_append]
  omega

/-- Packets one behind the other. -/
def encodeAll (as : List α) : List β := as.flatMap code.encode

theorem encodeAll_cons (a : α) (as : List α) :
    code.encodeAll (a :: as) = code.encode a ++ code.encodeAll as :=
  List.flatMap_cons

theorem encodeAll_append (as bs : List α) :
    code.encodeAll (as ++ bs) = code.encodeAll as ++ code.encodeAll bs :=
  List.flatMap_append

/-- All frames that are complete, and the rest. -/
def drain (l : List β) : List α × List β :=
  match h : code.next l with
  | none => ([], l)
  | some (a, rest) =>
    have := code.next_lt h
    (a :: (drain rest).1, (drain rest).2)
  termination_by l.length

variable {code} {l rest more : List β} {a : α} {as bs : List α}

theorem drain_none (h : code.next l = none) : code.drain l = ([], l) := by
  rw [FrameCode.drain]
  split
  · rfl
  · rename_i hsome
    rw [h] at hsome
    cases hsome

theorem drain_some (h : code.next l = some (a, rest)) :
    code.drain l = (a :: (code.drain rest).1, (code.drain rest).2) := by
  rw [FrameCode.drain]
  split
  · rename_i hnone
    rw [h] at hnone
    cases hnone
  · rename_i hsome
    rw [h] at hsome
    cases hsome
    rfl

theorem drain_encodeAll (has : ∀ a ∈ as, code.Valid a) (l : List β) :
    code.drain (code.encodeAll as ++ l) = (as ++ (code.drain l).1, (code.drain l).2) := by
  induction as with
  | nil => rfl
  | cons a as ih =>
    have hnext := code.next_encode a (has a List.mem_cons_self) (code.encodeAll as ++ l)
    rw [encodeAll_cons, List.append_assoc, drain_some hnext,
      ih fun b hb => has b (List.mem_cons_of_mem a hb)]
    rfl

theorem drain_spec (l : List β) :
    (∀ a ∈ (code.drain l).1, code.Valid a) ∧ l = code.encodeAll (code.drain l).1 ++ (code.drain l).2 ∧
      code.next (code.drain l).2 = none := by
  induction hn : l.length using Nat.strongRecOn generalizing l with
  | _ n ih =>
    cases hnext : code.next l with
    | none =>
      rw [drain_none hnext]
      exact ⟨nofun, rfl, hnext⟩
    | some r =>
      obtain ⟨a, rest⟩ := r
      obtain ⟨hvalid, hl⟩ := code.sound l a rest hnext
      obtain ⟨hvalids, hrest, hdone⟩ := ih rest.length (hn ▸ code.next_lt hnext) rest rfl
      rw [drain_some hnext]
      refine ⟨?_, ?_, hdone⟩
      · intro b hb
        rcases List.mem_cons.mp hb with rfl | hb
        · exact hvalid
        · exact hvalids b hb
      · rw [encodeAll_cons, List.append_assoc, ← hrest]
        exact hl

theorem drain_append (l more : List β) : code.drain (l ++ more) =
      ((code.drain l).1 ++ (code.drain ((code.drain l).2 ++ more)).1,
        (code.drain ((code.drain l).2 ++ more)).2) := by
  obtain ⟨hvalid, hl, -⟩ := @drain_spec _ _ code l
  nth_rewrite 1 [hl]
  rw [List.append_assoc]
  exact drain_encodeAll hvalid _

theorem prefix_of_encodeAll (has : ∀ a ∈ as, code.Valid a) (hbs : ∀ b ∈ bs, code.Valid b)
    (h : code.encodeAll as ++ l = code.encodeAll bs) : as <+: bs := by
  induction as generalizing bs with
  | nil => exact List.nil_prefix
  | cons a as ih =>
    cases bs with
    | nil =>
      rw [encodeAll_cons, List.append_assoc] at h
      exact absurd (List.append_eq_nil_iff.mp h).1 (code.encode_ne_nil a)
    | cons b bs =>
      have ha := code.next_encode a (has a List.mem_cons_self) (code.encodeAll as ++ l)
      have hb := code.next_encode b (hbs b List.mem_cons_self) (code.encodeAll bs)
      rw [encodeAll_cons, encodeAll_cons, List.append_assoc] at h
      rw [h, hb, Option.some.injEq, Prod.mk.injEq] at ha
      refine List.cons_prefix_cons.mpr ⟨ha.1.symm, ih ?_ ?_ ha.2.symm⟩
      · exact fun c hc => has c (List.mem_cons_of_mem _ hc)
      · exact fun c hc => hbs c (List.mem_cons_of_mem _ hc)

theorem drain_prefix (has : ∀ a ∈ as, code.Valid a) (h : l ++ more = code.encodeAll as) :
    (code.drain l).1 <+: as := by
  obtain ⟨hvalid, hl, -⟩ := @drain_spec _ _ code l
  rw [hl, List.append_assoc] at h
  exact prefix_of_encodeAll hvalid has h

theorem prefix_drain (has : ∀ a ∈ as, code.Valid a) (h : l ++ more = code.encodeAll as) (k : ℕ)
    (hk : (code.encodeAll (as.take k)).length ≤ l.length) : as.take k <+: (code.drain l).1 := by
  rw [← List.take_append_drop k as, encodeAll_append] at h
  obtain ⟨t, rfl⟩ : code.encodeAll (as.take k) <+: l :=
    List.prefix_of_prefix_length_le ⟨_, rfl⟩ ⟨more, h⟩ hk
  rw [drain_encodeAll fun a ha => has a (List.mem_of_mem_take ha)]
  exact List.prefix_append _ _

end FrameCode
