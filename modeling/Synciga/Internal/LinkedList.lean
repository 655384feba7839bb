import Mathlib.Data.List.Nodup
import Mathlib.Data.List.Perm.Subperm

/-!
# Linked lists with a pointer to the last cell

A list of cells in memory is kept by a pointer to its first and one to its last cell. What is done to it goes
through places: the pointer to the first cell, or the link of a cell. Cells that were taken out are not used
again.

## Main definitions

* `LinkedList` with `append`, `clear`, `copy` — the pointers and the memory
* `Sound` — the pointer to the last cell is right
-/

/-- Cells with links, and the pointers to the first and to the last one. The cells from `size` on
are new. -/
structure LinkedList (α : Type*) where
  value : ℕ → α
  next : ℕ → Option ℕ
  first : Option ℕ
  last : Option ℕ
  size : ℕ

namespace LinkedList

variable {α : Type*}

variable (t : LinkedList α)

/-- What a place holds: the link of a cell, or the pointer to the first one. -/
def after : Option ℕ → Option ℕ
  | none => t.first
  | some p => t.next p

/-- A place gets a pointer. -/
def link (place target : Option ℕ) : LinkedList α :=
  match place with
  | none => { t with first := target }
  | some p => { t with next := Function.update t.next p target }

/-- A new cell, with a link. -/
def alloc (x : α) (target : Option ℕ) : LinkedList α :=
  { t with
    value := Function.update t.value t.size x
    next := Function.update t.next t.size target
    size := t.size + 1 }

/-- A new cell behind the last one. -/
def append (x : α) : LinkedList α :=
  { (t.alloc x none).link t.last (some t.size) with last := some t.size }

/-- A new cell at a place. The pointer to the last cell is left alone. -/
def insertAfter (place : Option ℕ) (x : α) : LinkedList α :=
  (t.alloc x (t.after place)).link place (some t.size)

/-- The cell at a place is taken out, if there is one. -/
def removeAfter (place : Option ℕ) : Option (LinkedList α) :=
  (t.after place).map fun a =>
    { t.link place (t.next a) with last := if t.last = some a then place else t.last }

/-- No cells are left. -/
def clear : LinkedList α := { t with first := none, last := none }

/-- The place and the cell at which a search stops. It begins at a place that holds the pointer. -/
def search (t : LinkedList α) (p : α → Bool) : ℕ → Option ℕ → Option ℕ → Option ℕ × Option ℕ
  | _, place, none => (place, none)
  | 0, place, some _ => (place, none)
  | rounds + 1, place, some a =>
    if p (t.value a) then (place, some a) else t.search p rounds (some a) (t.next a)

/-- A cell gets another value. -/
def setValue (a : ℕ) (x : α) : LinkedList α :=
  { t with value := Function.update t.value a x }

/-- The cells whose values have the property are taken out, one after the other. -/
def removeAll (p : α → Bool) : ℕ → Option ℕ → Option ℕ → LinkedList α → LinkedList α
  | _, _, none, t => t
  | 0, _, some _, t => t
  | rounds + 1, place, some a, t =>
    if p (t.value a) then removeAll p rounds place (t.next a) ((t.removeAfter place).getD t)
    else removeAll p rounds (some a) (t.next a) t

/-- The values are copied to new cells, each linked behind the one before it. -/
def copyLoop : ℕ → Option ℕ → Option ℕ → LinkedList α → LinkedList α
  | _, place, none, t => { t with last := place }
  | 0, place, some _, t => { t with last := place }
  | rounds + 1, place, some a, t =>
    copyLoop rounds (some t.size) (t.next a) ((t.alloc (t.value a) none).link place (some t.size))

/-- A copy of the list. -/
def copy : LinkedList α :=
  copyLoop t.size none t.first { t with first := none, last := none }

/-- The cells that are reached from a pointer. -/
def reach (t : LinkedList α) : ℕ → Option ℕ → List ℕ
  | _, none => []
  | 0, some _ => []
  | rounds + 1, some a => a :: t.reach rounds (t.next a)

/-- The cells of the list. -/
def cells : List ℕ := t.reach t.size t.first

/-- The values of the list. -/
def toList : List α := t.cells.map t.value

/-! ### Links -/

/-- The links lead from a pointer over these cells to another pointer. -/
def Links (next : ℕ → Option ℕ) : Option ℕ → List ℕ → Option ℕ → Prop
  | p, [], q => p = q
  | p, a :: l, q => p = some a ∧ Links next (next a) l q

variable {next next' : ℕ → Option ℕ} {p q : Option ℕ} {l l₁ l₂ : List ℕ} {a : ℕ}

theorem links_append : Links next p (l₁ ++ l₂) q ↔ ∃ m, Links next p l₁ m ∧ Links next m l₂ q := by
  induction l₁ generalizing p with
  | nil =>
    constructor
    · exact fun h => ⟨p, rfl, h⟩
    · rintro ⟨m, rfl, h⟩
      exact h
  | cons a l₁ ih =>
    constructor
    · rintro ⟨hp, h⟩
      obtain ⟨m, h₁, h₂⟩ := ih.mp h
      exact ⟨m, ⟨hp, h₁⟩, h₂⟩
    · rintro ⟨m, ⟨hp, h₁⟩, h₂⟩
      exact ⟨hp, ih.mpr ⟨m, h₁, h₂⟩⟩

theorem Links.congr (h : Links next p l q) (hsame : ∀ a ∈ l, next' a = next a) : Links next' p l q := by
  induction l generalizing p with
  | nil => exact h
  | cons a l ih =>
    obtain ⟨hp, h⟩ := h
    refine ⟨hp, ?_⟩
    rw [hsame a List.mem_cons_self]
    exact ih h fun b hb => hsame b (List.mem_cons_of_mem a hb)

theorem Links.head (h : Links next p l none) : p = l.head? := by
  cases l with
  | nil => exact h
  | cons a l => exact h.1

theorem Links.relink (h : Links next p l q) (hnodup : l.Nodup) (hlast : l.getLast? = some a)
    (q' : Option ℕ) :
    Links (Function.update next a q') p l q' := by
  obtain ⟨l, rfl⟩ := List.getLast?_eq_some_iff.mp hlast
  obtain ⟨m, h₁, hm, -⟩ := links_append.mp h
  refine links_append.mpr ⟨m, h₁.congr fun b hb => ?_, hm, Function.update_self ..⟩
  refine Function.update_of_ne ?_ _ _
  rintro rfl
  exact (List.nodup_append.mp hnodup).2.2 b hb b (List.mem_singleton.mpr rfl) rfl

variable {t t' : LinkedList α} {x : α} {place target : Option ℕ}

@[simp] theorem value_link : (t.link place target).value = t.value := by
  cases place <;> rfl

@[simp] theorem size_link : (t.link place target).size = t.size := by
  cases place <;> rfl

@[simp] theorem last_link : (t.link place target).last = t.last := by
  cases place <;> rfl

theorem value_alloc (ha : a < t.size) : (t.alloc x target).value a = t.value a :=
  Function.update_of_ne (Nat.ne_of_lt ha) _ _

theorem next_alloc (ha : a < t.size) : (t.alloc x target).next a = t.next a :=
  Function.update_of_ne (Nat.ne_of_lt ha) _ _

theorem links_link (h : Links t.next t.first l p) (hnodup : l.Nodup) (target : Option ℕ) :
    Links (t.link l.getLast? target).next (t.link l.getLast? target).first l target := by
  cases hlast : l.getLast? with
  | none =>
    rw [List.getLast?_eq_none_iff.mp hlast]
    rfl
  | some a => exact h.relink hnodup hlast target

theorem next_link (ha : a ∉ l) (target : Option ℕ) : (t.link l.getLast? target).next a = t.next a := by
  cases hlast : l.getLast? with
  | none => rfl
  | some b =>
    refine Function.update_of_ne ?_ _ _
    rintro rfl
    exact ha (List.mem_of_getLast? hlast)

/-! ### Lists of cells -/

/-- These cells are reached from the pointer to the first one. -/
structure Linked (t : LinkedList α) (l : List ℕ) : Prop where
  links : Links t.next t.first l none
  nodup : l.Nodup
  made : ∀ a ∈ l, a < t.size

/-- The pointer to the last one is the last of them. -/
structure Sound (t : LinkedList α) (l : List ℕ) : Prop extends t.Linked l where
  last : t.last = l.getLast?

theorem Linked.after_eq (h : t.Linked (l₁ ++ l₂)) : t.after l₁.getLast? = l₂.head? := by
  obtain ⟨m, h₁, h₂⟩ := links_append.mp h.links
  rw [← h₂.head]
  cases hlast : l₁.getLast? with
  | none =>
    rw [List.getLast?_eq_none_iff.mp hlast] at h₁
    exact h₁
  | some a =>
    obtain ⟨l, rfl⟩ := List.getLast?_eq_some_iff.mp hlast
    obtain ⟨-, -, -, hm⟩ := links_append.mp h₁
    exact hm

theorem Linked.next_eq (h : t.Linked (l₁ ++ a :: l₂)) : t.next a = l₂.head? := by
  obtain ⟨-, -, -, h₂⟩ := links_append.mp h.links
  exact h₂.head

theorem Linked.insert (h : t.Linked (l₁ ++ l₂)) (x : α) :
    ((t.alloc x l₂.head?).link l₁.getLast? (some t.size)).Linked (l₁ ++ t.size :: l₂) := by
  have hsize : ∀ b ∈ l₁ ++ l₂, b ≠ t.size := fun b hb => Nat.ne_of_lt (h.made b hb)
  have hsame : ∀ b ∈ l₁ ++ l₂, (t.alloc x l₂.head?).next b = t.next b :=
    fun b hb => next_alloc (h.made b hb)
  obtain ⟨hnodup₁, hnodup₂, hdisjoint⟩ := List.nodup_append.mp h.nodup
  have hnew₁ : t.size ∉ l₁ := fun hmem => hsize _ (List.mem_append_left _ hmem) rfl
  have hnew₂ : t.size ∉ l₂ := fun hmem => hsize _ (List.mem_append_right _ hmem) rfl
  obtain ⟨m, h₁, h₂⟩ := links_append.mp h.links
  obtain rfl := h₂.head
  have hfront : Links (t.alloc x l₂.head?).next (t.alloc x l₂.head?).first l₁ l₂.head? :=
    h₁.congr fun b hb => hsame b (List.mem_append_left _ hb)
  refine ⟨links_append.mpr ⟨some t.size, links_link hfront hnodup₁ _, rfl, ?_⟩, ?_, fun b hb => ?_⟩
  · have hnext : ((t.alloc x l₂.head?).link l₁.getLast? (some t.size)).next t.size = l₂.head? := by
      rw [next_link hnew₁]
      exact Function.update_self ..
    rw [hnext]
    refine h₂.congr fun b hb => ?_
    rw [next_link fun hmem => hdisjoint b hmem b hb rfl]
    exact hsame b (List.mem_append_right _ hb)
  · refine List.nodup_append.mpr ⟨hnodup₁, List.nodup_cons.mpr ⟨hnew₂, hnodup₂⟩, fun b hb c hc => ?_⟩
    rcases List.mem_cons.mp hc with rfl | hc
    · exact hsize b (List.mem_append_left _ hb)
    · exact hdisjoint b hb c hc
  rw [size_link]
  rcases List.mem_append.mp hb with hb | hb
  · exact Nat.lt_succ_of_lt (h.made b (List.mem_append_left _ hb))
  · rcases List.mem_cons.mp hb with rfl | hb
    · exact Nat.lt_succ_self _
    · exact Nat.lt_succ_of_lt (h.made b (List.mem_append_right _ hb))

theorem Linked.remove (h : t.Linked (l₁ ++ a :: l₂)) :
    (t.link l₁.getLast? (t.next a)).Linked (l₁ ++ l₂) := by
  obtain ⟨m, h₁, -, h₂⟩ := links_append.mp h.links
  have hnodup : (l₁ ++ l₂).Nodup := h.nodup.sublist ((List.sublist_cons_self a l₂).append_left l₁)
  obtain ⟨hnodup₁, -, hdisjoint⟩ := List.nodup_append.mp hnodup
  refine ⟨links_append.mpr ⟨t.next a, links_link h₁ hnodup₁ _, h₂.congr fun b hb => ?_⟩, hnodup,
    fun b hb => ?_⟩
  · exact next_link (fun hmem => hdisjoint b hmem b hb rfl) _
  · rw [size_link]
    refine h.made b ?_
    rcases List.mem_append.mp hb with hb | hb
    · exact List.mem_append_left _ hb
    · exact List.mem_append_right _ (List.mem_cons_of_mem a hb)

/-! ### The operations -/

theorem Sound.append (h : t.Sound l) (x : α) : (t.append x).Sound (l ++ [t.size]) := by
  have hinsert : (l ++ []) = l := List.append_nil l
  have hlinked := (hinsert.symm ▸ h.toLinked : t.Linked (l ++ [])).insert x
  rw [List.head?_nil, ← h.last] at hlinked
  exact ⟨⟨hlinked.links, hlinked.nodup, hlinked.made⟩, (List.getLast?_concat).symm⟩

theorem Linked.insertAfter (h : t.Linked (l₁ ++ l₂)) (x : α) :
    (t.insertAfter l₁.getLast? x).Linked (l₁ ++ t.size :: l₂) := by
  rw [LinkedList.insertAfter, h.after_eq]
  exact h.insert x

theorem Sound.insertAfter_iff (h : t.Sound (l₁ ++ l₂)) (x : α) :
    (t.insertAfter l₁.getLast? x).Sound (l₁ ++ t.size :: l₂) ↔ l₂ ≠ [] := by
  have hlast : (t.insertAfter l₁.getLast? x).last = (l₁ ++ l₂).getLast? := by
    rw [LinkedList.insertAfter, last_link]
    exact h.last
  constructor
  · rintro hsound rfl
    have heq := hlast.symm.trans hsound.last
    rw [List.append_nil, List.getLast?_concat] at heq
    exact Nat.lt_irrefl _ (h.made _ (List.mem_append_left _ (List.mem_of_getLast? heq)))
  intro hrest
  refine ⟨h.toLinked.insertAfter x, ?_⟩
  rw [hlast, List.getLast?_append, List.getLast?_append, List.getLast?_cons]
  obtain ⟨b, hb⟩ := Option.ne_none_iff_exists'.mp (mt List.getLast?_eq_none_iff.mp hrest)
  rw [hb]
  rfl

theorem Sound.removeAfter (h : t.Sound (l₁ ++ a :: l₂)) :
    ∃ t', t.removeAfter l₁.getLast? = some t' ∧ t'.Sound (l₁ ++ l₂) ∧ t'.value = t.value ∧
      t'.size = t.size := by
  have hafter : t.after l₁.getLast? = some a := h.toLinked.after_eq
  have hremove : t.removeAfter l₁.getLast? = some { t.link l₁.getLast? (t.next a) with
      last := if t.last = some a then l₁.getLast? else t.last } := by
    rw [LinkedList.removeAfter, hafter]
    rfl
  have hlinked := h.toLinked.remove
  refine ⟨_, hremove, ⟨⟨hlinked.links, hlinked.nodup, hlinked.made⟩, ?_⟩, value_link, size_link⟩
  rw [h.last]
  cases hrest : l₂.getLast? with
  | none =>
    rw [List.getLast?_eq_none_iff.mp hrest, List.getLast?_concat, if_pos rfl, List.append_nil]
  | some b =>
    have hne : b ≠ a := by
      rintro rfl
      obtain ⟨-, hnodup, -⟩ := List.nodup_append.mp h.nodup
      exact (List.nodup_cons.mp hnodup).1 (List.mem_of_getLast? hrest)
    have hwhole : (l₁ ++ a :: l₂).getLast? = some b := by
      rw [List.getLast?_append, List.getLast?_cons, hrest]
      rfl
    rw [hwhole, if_neg fun heq => hne (Option.some.inj heq), List.getLast?_append, hrest]
    rfl

theorem Sound.clear (t : LinkedList α) : t.clear.Sound [] :=
  ⟨⟨rfl, List.nodup_nil, List.forall_mem_nil _⟩, rfl⟩

/-! ### Values -/

variable {rounds : ℕ}

theorem reach_eq (h : Links t.next p l none) (hrounds : l.length ≤ rounds) : t.reach rounds p = l := by
  induction l generalizing p rounds with
  | nil =>
    obtain rfl := h
    cases rounds <;> rfl
  | cons a l ih =>
    obtain ⟨rfl, h⟩ := h
    obtain ⟨n, rfl⟩ := Nat.exists_eq_add_of_le' hrounds
    rw [List.length_cons, ← Nat.add_assoc, reach, ih h (Nat.le_add_left _ _)]

theorem Linked.length_le (h : t.Linked l) : l.length ≤ t.size := by
  have hsubset : l ⊆ List.range t.size := fun a ha => List.mem_range.mpr (h.made a ha)
  have hle := (h.nodup.subperm hsubset).length_le
  rwa [List.length_range] at hle

theorem Linked.cells_eq (h : t.Linked l) : t.cells = l := reach_eq h.links h.length_le

theorem Linked.toList_eq (h : t.Linked l) : t.toList = l.map t.value := by
  rw [toList, h.cells_eq]

theorem Linked.map_value_alloc (h : t.Linked l) (x : α) (target : Option ℕ) :
    l.map (t.alloc x target).value = l.map t.value :=
  List.map_congr_left fun a ha => value_alloc (h.made a ha)

theorem Sound.toList_append (h : t.Sound l) (x : α) : (t.append x).toList = t.toList ++ [x] := by
  have hvalue : (t.append x).value = (t.alloc x none).value := value_link
  rw [(h.append x).toList_eq, h.toList_eq, List.map_append, hvalue, h.map_value_alloc]
  congr 1
  exact congrArg (fun y => [y]) (Function.update_self ..)

theorem Sound.setValue (h : t.Sound l) (a : ℕ) (x : α) : (t.setValue a x).Sound l :=
  ⟨⟨h.links, h.nodup, h.made⟩, h.last⟩

theorem Sound.toList_setValue (h : t.Sound (l₁ ++ a :: l₂)) (x : α) :
    (t.setValue a x).toList = l₁.map t.value ++ x :: l₂.map t.value := by
  obtain ⟨-, hnodup, hdisjoint⟩ := List.nodup_append.mp h.nodup
  have hsame : ∀ b, b ≠ a → (t.setValue a x).value b = t.value b :=
    fun b hb => Function.update_of_ne hb _ _
  have hfront : l₁.map (t.setValue a x).value = l₁.map t.value :=
    List.map_congr_left fun b hb => hsame b (hdisjoint b hb a List.mem_cons_self)
  have hback : l₂.map (t.setValue a x).value = l₂.map t.value :=
    List.map_congr_left fun b hb => hsame b fun heq => (List.nodup_cons.mp hnodup).1 (heq ▸ hb)
  rw [(h.setValue a x).toList_eq, List.map_append, List.map_cons, hfront, hback]
  congr 2
  exact Function.update_self ..

/-! ### Loops over the cells -/

/-- The search stops at the first value with the property, or behind the last cell. -/
theorem search_spec (l₁ : List ℕ) (q : α → Bool) (h : Links t.next p l₂ none)
    (hrounds : l₂.length ≤ rounds) :
    (t.search q rounds l₁.getLast? p = ((l₁ ++ l₂).getLast?, none) ∧ ∀ b ∈ l₂, q (t.value b) = false) ∨
      ∃ m₁ a m₂, l₂ = m₁ ++ a :: m₂ ∧ (∀ b ∈ m₁, q (t.value b) = false) ∧ q (t.value a) = true ∧
        t.search q rounds l₁.getLast? p = ((l₁ ++ m₁).getLast?, some a) := by
  induction l₂ generalizing l₁ p rounds with
  | nil =>
    obtain rfl := h
    refine .inl ⟨?_, List.forall_mem_nil _⟩
    rw [List.append_nil]
    cases rounds <;> rfl
  | cons b l₂ ih =>
    obtain ⟨rfl, h⟩ := h
    obtain ⟨n, rfl⟩ := Nat.exists_eq_add_of_le' hrounds
    rw [List.length_cons, ← Nat.add_assoc, search]
    by_cases hb : q (t.value b) = true
    · rw [if_pos hb]
      exact .inr ⟨[], b, l₂, rfl, List.forall_mem_nil _, hb, by rw [List.append_nil]⟩
    have hb' : q (t.value b) = false := Bool.eq_false_iff.mpr hb
    rw [if_neg hb]
    have hplace : some b = (l₁ ++ [b]).getLast? := List.getLast?_concat.symm
    rw [hplace]
    rcases ih (l₁ ++ [b]) h (Nat.le_add_left l₂.length n) with ⟨hsearch, hall⟩ |
      ⟨m₁, a, m₂, rfl, hbefore, ha, hsearch⟩
    · rw [← List.append_cons] at hsearch
      exact .inl ⟨hsearch, List.forall_mem_cons.mpr ⟨hb', hall⟩⟩
    · rw [← List.append_cons] at hsearch
      exact .inr ⟨b :: m₁, a, m₂, rfl, List.forall_mem_cons.mpr ⟨hb', hbefore⟩, ha, hsearch⟩

theorem Sound.removeAll (q : α → Bool) (h : t.Sound (l₁ ++ l₂)) (hrounds : l₂.length ≤ rounds) :
    (removeAll q rounds l₁.getLast? l₂.head? t).Sound (l₁ ++ l₂.filter fun a => !q (t.value a)) ∧
      (removeAll q rounds l₁.getLast? l₂.head? t).value = t.value := by
  induction l₂ generalizing l₁ t rounds with
  | nil => cases rounds <;> exact ⟨h, rfl⟩
  | cons a l₂ ih =>
    obtain ⟨n, rfl⟩ := Nat.exists_eq_add_of_le' hrounds
    have hnext : t.next a = l₂.head? := h.toLinked.next_eq
    rw [List.length_cons, ← Nat.add_assoc, List.head?_cons, LinkedList.removeAll, hnext]
    by_cases ha : q (t.value a) = true
    · obtain ⟨t', hremove, hsound, hvalue, -⟩ := h.removeAfter
      have hrest := ih hsound (Nat.le_add_left l₂.length n)
      rw [if_pos ha, hremove, Option.getD_some, List.filter_cons_of_neg (by simp [ha])]
      rwa [hvalue] at hrest
    have hplace : some a = (l₁ ++ [a]).getLast? := List.getLast?_concat.symm
    rw [List.append_cons] at h
    have hrest := ih h (Nat.le_add_left l₂.length n)
    rw [← List.append_cons] at hrest
    rw [if_neg ha, hplace, List.filter_cons_of_pos (by simp [ha])]
    exact hrest

theorem Linked.copyLoop (h : t.Linked l₁) (hlinks : Links t.next p l₂ none) (hmade : ∀ a ∈ l₂, a < t.size)
    (hdisjoint : ∀ a ∈ l₁, a ∉ l₂) (hrounds : l₂.length ≤ rounds) :
    ∃ l, (copyLoop rounds l₁.getLast? p t).Sound (l₁ ++ l) ∧
      (l₁ ++ l).map (copyLoop rounds l₁.getLast? p t).value = l₁.map t.value ++ l₂.map t.value := by
  induction l₂ generalizing l₁ t p rounds with
  | nil =>
    obtain rfl := hlinks
    refine ⟨[], ?_⟩
    rw [List.append_nil, List.map_nil, List.append_nil]
    cases rounds <;> exact ⟨⟨⟨h.links, h.nodup, h.made⟩, rfl⟩, rfl⟩
  | cons a l₂ ih =>
    obtain ⟨rfl, hlinks⟩ := hlinks
    obtain ⟨n, rfl⟩ := Nat.exists_eq_add_of_le' hrounds
    rw [List.length_cons, ← Nat.add_assoc, LinkedList.copyLoop]
    have hinsert : (l₁ ++ []) = l₁ := List.append_nil l₁
    have hlinked := (hinsert.symm ▸ h : t.Linked (l₁ ++ [])).insert (t.value a)
    rw [List.head?_nil] at hlinked
    have hrest : ∀ b ∈ l₂, b < t.size := fun b hb => hmade b (List.mem_cons_of_mem a hb)
    have hother : ∀ b ∈ l₂, b ∉ l₁ := fun b hb hmem => hdisjoint b hmem (List.mem_cons_of_mem a hb)
    have hfront : (l₁ ++ [t.size]).map (t.alloc (t.value a) none).value =
        l₁.map t.value ++ [t.value a] := by
      rw [List.map_append, h.map_value_alloc]
      congr 1
      exact congrArg (fun y => [y]) (Function.update_self ..)
    have hback : l₂.map (t.alloc (t.value a) none).value = l₂.map t.value :=
      List.map_congr_left fun b hb => value_alloc (hrest b hb)
    have hlinks' : Links ((t.alloc (t.value a) none).link l₁.getLast? (some t.size)).next (t.next a) l₂
        none :=
      hlinks.congr fun b hb => by rw [next_link (hother b hb), next_alloc (hrest b hb)]
    have hdisjoint' : ∀ b ∈ l₁ ++ [t.size], b ∉ l₂ := fun b hb hmem => by
      rcases List.mem_append.mp hb with hb | hb
      · exact hother b hmem hb
      · exact Nat.lt_irrefl _ (List.mem_singleton.mp hb ▸ hrest b hmem)
    obtain ⟨l, hsound, hvalues⟩ := ih hlinked hlinks'
      (fun b hb => by rw [size_link]; exact Nat.lt_succ_of_lt (hrest b hb)) hdisjoint'
      (Nat.le_add_left l₂.length n)
    rw [List.getLast?_concat, ← List.append_cons] at hsound hvalues
    refine ⟨t.size :: l, hsound, hvalues.trans ?_⟩
    rw [value_link, hfront, hback, ← List.append_cons, List.map_cons]

theorem Linked.copy (h : t.Linked l) : ∃ l', t.copy.Sound l' ∧ t.copy.toList = t.toList := by
  have hempty : { t with first := none, last := none }.Linked [] :=
    ⟨rfl, List.nodup_nil, List.forall_mem_nil _⟩
  obtain ⟨l', hsound, hvalues⟩ := hempty.copyLoop h.links h.made (List.forall_mem_nil _) h.length_le
  exact ⟨l', hsound, (hsound.toList_eq.trans hvalues).trans h.toList_eq.symm⟩

end LinkedList
