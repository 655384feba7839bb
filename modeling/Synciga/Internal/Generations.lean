import Mathlib.Data.List.Induction
import Mathlib.Data.List.Perm.Lattice
import Mathlib.Order.Lattice

/-!
# Lists that keep the newest generation

An item drops those of older generations from a list, and is added to it unless one with the same key is there.

## Main definitions

* `remember` — the list behind one more item
* `Newest` — the list has exactly the newest generation, once for each key

## Main results

* `newest_foldl_iff` — this is so only if the last item is of that generation
-/

namespace Synciga.Generations

variable {α κ γ : Type} [LinearOrder γ] [DecidableEq κ] (key : α → κ) (generation : α → γ)

/-- Older items are dropped, and an item with a new key is added. -/
def remember (l : List α) (a : α) : List α :=
  let kept := l.filter fun b => ¬generation b < generation a
  if kept.any fun b => key b = key a then kept else kept ++ [a]

/-- Of all these items, the list has one for each key of the newest generation. -/
structure Newest (all l : List α) : Prop where
  newest : ∀ b ∈ l, b ∈ all ∧ ∀ c ∈ all, generation c ≤ generation b
  complete : ∀ c ∈ all, (∀ d ∈ all, generation d ≤ generation c) → ∃ b ∈ l, key b = key c
  once : (l.map key).Nodup

/-- What holds of the list at any time: no key is there twice, and the newest generation is complete. -/
structure Kept (all l : List α) : Prop where
  mem : ∀ b ∈ l, b ∈ all
  complete : ∀ c ∈ all, (∀ d ∈ all, generation d ≤ generation c) → ∃ b ∈ l, key b = key c
  once : (l.map key).Nodup

variable {key generation} {all all' l l' : List α} {a : α}

variable {b : α}

theorem mem_filter_older :
    (b ∈ l.filter fun b => ¬generation b < generation a) ↔ b ∈ l ∧ generation a ≤ generation b := by
  rw [List.mem_filter, decide_eq_true_eq, not_lt]

theorem mem_remember (h : b ∈ remember key generation l a) :
    b ∈ l ∧ generation a ≤ generation b ∨ b = a := by
  rw [remember] at h
  split at h
  · exact .inl (mem_filter_older.mp h)
  · rcases List.mem_append.mp h with hkept | hnew
    · exact .inl (mem_filter_older.mp hkept)
    · exact .inr (List.mem_singleton.mp hnew)

theorem mem_remember_of_le (hb : b ∈ l) (hle : generation a ≤ generation b) :
    b ∈ remember key generation l a := by
  have hkept := mem_filter_older.mpr ⟨hb, hle⟩
  rw [remember]
  split
  · exact hkept
  · exact List.mem_append_left _ hkept

theorem exists_key_remember : ∃ b ∈ remember key generation l a, key b = key a := by
  rw [remember]
  split
  · rename_i hany
    obtain ⟨b, hb, hkey⟩ := List.any_eq_true.mp hany
    exact ⟨b, hb, of_decide_eq_true hkey⟩
  · exact ⟨a, List.mem_append_right _ (List.mem_singleton_self a), rfl⟩

theorem nodup_remember (h : (l.map key).Nodup) : ((remember key generation l a).map key).Nodup := by
  have hkept : ((l.filter fun b => ¬generation b < generation a).map key).Nodup :=
    h.sublist (List.filter_sublist.map key)
  rw [remember]
  split
  · exact hkept
  rename_i hany
  rw [List.map_append, List.map_singleton]
  refine hkept.append (List.nodup_singleton _) ?_
  intro k hk hnew
  obtain ⟨b, hb, rfl⟩ := List.mem_map.mp hk
  exact hany (List.any_eq_true.mpr ⟨b, hb, decide_eq_true (List.mem_singleton.mp hnew)⟩)

omit [DecidableEq κ] in
theorem kept_nil : Kept key generation [] [] :=
  ⟨List.forall_mem_nil _, List.forall_mem_nil _, List.nodup_nil⟩

theorem Kept.remember (hgeneration : ∀ a b, key a = key b → generation a = generation b)
    (h : Kept key generation all l) : Kept key generation (all ++ [a]) (remember key generation l a) where
  mem b hb := by
    rcases mem_remember hb with ⟨hl, -⟩ | rfl
    · exact List.mem_append_left _ (h.mem b hl)
    · exact List.mem_append_right _ (List.mem_singleton_self b)
  complete c hc hnewest := by
    rcases List.mem_append.mp hc with hold | hnew
    · obtain ⟨b, hb, hkey⟩ := h.complete c hold fun d hd => hnewest d (List.mem_append_left _ hd)
      have hle : generation a ≤ generation b := by
        rw [hgeneration b c hkey]
        exact hnewest a (List.mem_append_right _ (List.mem_singleton_self a))
      exact ⟨b, mem_remember_of_le hb hle, hkey⟩
    · rw [List.mem_singleton.mp hnew]
      exact exists_key_remember
  once := nodup_remember h.once

theorem kept_foldl (hgeneration : ∀ a b, key a = key b → generation a = generation b) (all : List α) :
    Kept key generation all (all.foldl (remember key generation) []) := by
  induction all using List.reverseRecOn with
  | nil => exact kept_nil
  | append_singleton init a ih =>
    rw [List.foldl_concat]
    exact ih.remember hgeneration

theorem newest_foldl_iff (hgeneration : ∀ a b, key a = key b → generation a = generation b) (all : List α) :
    Newest key generation all (all.foldl (remember key generation) []) ↔
      ∀ last ∈ all.getLast?, ∀ c ∈ all, generation c ≤ generation last := by
  have hkept := kept_foldl hgeneration all
  rcases List.eq_nil_or_concat' all with rfl | ⟨init, a, rfl⟩
  · exact iff_of_true ⟨List.forall_mem_nil _, hkept.complete, hkept.once⟩ (fun last hlast => by cases hlast)
  rw [List.foldl_concat] at hkept ⊢
  rw [List.getLast?_concat]
  constructor
  · intro h last hlast c hc
    cases hlast
    obtain ⟨b, hb, hkey⟩ : ∃ b ∈ remember key generation (init.foldl (remember key generation) []) a,
      key b = key a := exists_key_remember
    rw [← hgeneration b a hkey]
    exact (h.newest b hb).2 c hc
  intro h
  have hnewest := h a rfl
  refine ⟨fun b hb => ⟨hkept.mem b hb, fun c hc => ?_⟩, hkept.complete, hkept.once⟩
  rcases mem_remember hb with ⟨-, hle⟩ | rfl
  · exact le_trans (hnewest c hc) hle
  · exact hnewest c hc

omit [DecidableEq κ] in
theorem Newest.perm (h : Newest key generation all l) (h' : Newest key generation all' l')
    (hall : all.Perm all') : (l.map key).Perm (l'.map key) := by
  have hsub {all all' l l' : List α} (h : Newest key generation all l) (h' : Newest key generation all' l')
      (hall : all.Perm all') (k : κ) (hk : k ∈ l.map key) : k ∈ l'.map key := by
    obtain ⟨b, hb, rfl⟩ := List.mem_map.mp hk
    obtain ⟨hmem, hnewest⟩ := h.newest b hb
    obtain ⟨b', hb', hkey⟩ := h'.complete b (hall.mem_iff.mp hmem)
      fun d hd => hnewest d (hall.mem_iff.mpr hd)
    exact List.mem_map.mpr ⟨b', hb', hkey⟩
  rw [List.perm_ext_iff_of_nodup h.once h'.once]
  exact fun k => ⟨hsub h h' hall k, hsub h' h hall.symm k⟩

end Synciga.Generations
