import Mathlib.Data.List.Induction

/-!
# Runs of a partial transition function

A system takes a state and an action to the next state, or to nothing where the action is not possible.

## Main definitions

* `run` — the state after a list of actions
* `Admissible` — each of them meets a condition on the state it is taken in, an assumption on the environment

## Main results

* `invariant` — what admissible steps keep holds after every admissible run
-/

namespace Runs

variable {σ α : Type*} (step : σ → α → Option σ) (ok : σ → α → Prop)

/-- The state after a list of actions, if all of them are possible. -/
def run : σ → List α → Option σ
  | s, [] => some s
  | s, a :: as => (step s a).bind fun s' => run s' as

/-- Every action of the list meets `ok` in the state it is taken in. -/
def Admissible : σ → List α → Prop
  | _, [] => True
  | s, a :: as => ok s a ∧ ∀ s', step s a = some s' → Admissible s' as

theorem of_guard {p : Prop} [Decidable p] {s s' : σ} (h : (if p then some s else none) = some s') :
    p ∧ s = s' :=
  (Option.ite_none_right_eq_some.mp h).imp_right Option.some.inj

variable {step ok}

theorem run_cons {s s' : σ} {a : α} {as : List α} (h : run step s (a :: as) = some s') :
    ∃ t, step s a = some t ∧ run step t as = some s' := by
  exact Option.bind_eq_some_iff.mp h

theorem run_append (s : σ) (as bs : List α) :
    run step s (as ++ bs) = (run step s as).bind fun t => run step t bs := by
  induction as generalizing s with
  | nil => rfl
  | cons a as ih =>
    rw [List.cons_append, run, run, Option.bind_assoc]
    congr 1
    funext t
    exact ih t

theorem admissible_append {s : σ} {as bs : List α} (h : Admissible step ok s (as ++ bs)) :
    Admissible step ok s as ∧ ∀ t, run step s as = some t → Admissible step ok t bs := by
  induction as generalizing s with
  | nil =>
    refine ⟨trivial, fun t ht => ?_⟩
    cases ht
    exact h
  | cons a as ih =>
    obtain ⟨hok, hrest⟩ := h
    refine ⟨⟨hok, fun s' hs' => (ih (hrest s' hs')).1⟩, fun t ht => ?_⟩
    obtain ⟨s', hs', ht'⟩ := run_cons ht
    exact (ih (hrest s' hs')).2 t ht'

theorem admissible_of_forall (h : ∀ s a, ok s a) (s : σ) (as : List α) : Admissible step ok s as := by
  induction as generalizing s with
  | nil => trivial
  | cons a as ih => exact ⟨h s a, fun s' _ => ih s'⟩

theorem invariant {P : σ → Prop}
    (hstep : ∀ s a s', P s → ok s a → step s a = some s' → P s') {s s' : σ} {as : List α}
    (hs : P s) (hok : Admissible step ok s as) (hrun : run step s as = some s') : P s' := by
  induction as generalizing s with
  | nil =>
    cases hrun
    exact hs
  | cons a as ih =>
    obtain ⟨t, ht, hrest⟩ := run_cons hrun
    exact ih (hstep s a t hs hok.1 ht) (hok.2 t ht) hrest

theorem invariant_of_step {P : σ → Prop} (hstep : ∀ s a s', P s → step s a = some s' → P s')
    {s s' : σ} {as : List α} (hs : P s) (hrun : run step s as = some s') : P s' := by
  have hkeeps : ∀ s a s', P s → True → step s a = some s' → P s' := fun s a s' h _ => hstep s a s' h
  exact invariant hkeeps hs (admissible_of_forall (fun _ _ => trivial) s as) hrun

/-- If admissible steps keep `P`, and a step to a state with `Q` was admissible, a run whose states all have `Q`
is admissible. -/
theorem admissible_of_shown {P Q : σ → Prop} (hkeep : ∀ s a s', P s → ok s a → step s a = some s' → P s')
    (hok : ∀ s a s', P s → step s a = some s' → Q s' → ok s a) {s s' : σ} {as : List α}
    (hs : P s) (hrun : run step s as = some s')
    (hall : ∀ pre suf t, as = pre ++ suf → run step s pre = some t → Q t) : Admissible step ok s as := by
  induction as generalizing s with
  | nil => trivial
  | cons a as ih =>
    obtain ⟨t, ht, hrest⟩ := run_cons hrun
    have hoka : ok s a := hok s a t hs ht (hall [a] as t rfl (by rw [run, ht]; rfl))
    refine ⟨hoka, fun t' ht' => ?_⟩
    cases ht.symm.trans ht'
    refine ih (hkeep s a t hs hoka ht) hrest fun pre suf u hcut hu => ?_
    refine hall (a :: pre) suf u (by rw [hcut, List.cons_append]) ?_
    rw [run, ht]
    exact hu

theorem admissible_of_states {P Q : σ → Prop} (hstep : ∀ s a s', P s → step s a = some s' → P s')
    (hok : ∀ s a s', P s → step s a = some s' → Q s' → ok s a) {s s' : σ} {as : List α}
    (hs : P s) (hrun : run step s as = some s')
    (hQ : ∀ pre suf t, as = pre ++ suf → run step s pre = some t → Q t) : Admissible step ok s as :=
  admissible_of_shown (fun s a s' h _ => hstep s a s' h) hok hs hrun hQ

/-- If admissible steps keep `P`, which gives `Q`, and a step to a state with `Q` was admissible, then a run is
admissible if and only if all of its states have `Q`. -/
theorem admissible_iff_shown {P Q : σ → Prop}
    (hkeep : ∀ s a s', P s → ok s a → step s a = some s' → P s') (hPQ : ∀ s, P s → Q s)
    (hok : ∀ s a s', P s → step s a = some s' → Q s' → ok s a) {s s' : σ} {as : List α}
    (hs : P s) (hrun : run step s as = some s') :
    Admissible step ok s as ↔ ∀ pre suf t, as = pre ++ suf → run step s pre = some t → Q t := by
  constructor
  · rintro h pre suf t rfl ht
    exact hPQ t (invariant hkeep hs (admissible_append h).1 ht)
  · exact admissible_of_shown hkeep hok hs hrun

/-- If `I` is kept by all steps, and `Q` by those steps that meet `ok`, then a run is admissible if and only
if `Q` holds in all of its states. -/
theorem admissible_iff_states {I Q : σ → Prop} (hI : ∀ s a s', I s → step s a = some s' → I s')
    (hQ : ∀ s a s', I s → Q s → step s a = some s' → (Q s' ↔ ok s a)) {s s' : σ} {as : List α}
    (hs : I s) (hq : Q s) (hrun : run step s as = some s') :
    Admissible step ok s as ↔ ∀ pre suf t, as = pre ++ suf → run step s pre = some t → Q t := by
  have hkeep : ∀ s a s', I s ∧ Q s → ok s a → step s a = some s' → I s' ∧ Q s' :=
    fun s a s' h hoka hstep => ⟨hI s a s' h.1 hstep, (hQ s a s' h.1 h.2 hstep).mpr hoka⟩
  exact admissible_iff_shown hkeep (fun _ h => h.2) (fun s a s' h hstep => (hQ s a s' h.1 h.2 hstep).mp) ⟨hs, hq⟩
    hrun

/-! ### Histories -/

/-- Every entry of the list meets `ok` behind the entries before it. -/
def Lawful (ok : List α → α → Prop) (l : List α) : Prop :=
  ∀ pre a suf, l = pre ++ a :: suf → ok pre a

theorem lawful_nil (ok : List α → α → Prop) : Lawful ok [] := by
  intro pre a suf h
  cases pre <;> cases h

theorem Lawful.append {ok : List α → α → Prop} {l : List α} {a : α} (h : Lawful ok l) (ha : ok l a) :
    Lawful ok (l ++ [a]) := by
  intro pre b suf hsplit
  rcases List.eq_nil_or_concat suf with rfl | ⟨suf', c, rfl⟩
  · obtain ⟨rfl, hab⟩ := List.append_inj' hsplit rfl
    cases hab
    exact ha
  · rw [List.concat_eq_append, ← List.cons_append, ← List.append_assoc] at hsplit
    obtain ⟨rfl, -⟩ := List.append_inj' hsplit rfl
    exact h pre b suf' rfl

theorem Lawful.countP_le_one {ok : List α → α → Prop} {l : List α} (h : Lawful ok l) {f : α → Bool}
    (hone : ∀ pre a, ok pre a → f a = true → ∀ b ∈ pre, f b = false) : l.countP f ≤ 1 := by
  induction l using List.reverseRecOn with
  | nil => exact Nat.zero_le _
  | append_singleton l a ih =>
    have hl : Lawful ok l := fun pre b suf hsplit =>
      h pre b (suf ++ [a]) (by rw [hsplit, List.append_assoc, List.cons_append])
    rw [List.countP_append, List.countP_singleton]
    by_cases ha : f a = true
    · have hnone : l.countP f = 0 := by
        rw [List.countP_eq_zero]
        intro b hb hfb
        rw [hone l a (h l a [] rfl) ha b hb] at hfb
        cases hfb
      exact Nat.le_of_eq (by rw [hnone, if_pos ha])
    · rw [if_neg ha]
      exact ih hl

/-! ### Checking a run -/

/-- A run can be checked for admissibility by executing it. -/
instance decidableAdmissible [∀ s a, Decidable (ok s a)] :
    ∀ (s : σ) (as : List α), Decidable (Admissible step ok s as)
  | _, [] => .isTrue trivial
  | s, a :: as =>
    match h : step s a with
    | none =>
      decidable_of_iff (ok s a)
        ⟨fun hok => ⟨hok, fun s' hs' => by rw [h] at hs'; cases hs'⟩, And.left⟩
    | some t =>
      have := decidableAdmissible t as
      decidable_of_iff (ok s a ∧ Admissible step ok t as)
        ⟨fun hok => ⟨hok.1, fun s' hs' => by rw [h] at hs'; cases hs'; exact hok.2⟩,
          fun hok => ⟨hok.1, hok.2 t h⟩⟩

end Runs
