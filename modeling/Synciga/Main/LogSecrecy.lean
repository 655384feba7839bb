import Synciga.Main.DebugLog

/-!
# What the log reveals of a password

A sent stream in which an `<auth>` tag with a mechanism is followed by a secret and a `<` is cut into `Output`
calls, and `Input` calls are made in between. A received text takes the flag that was meant for the secret,
unless a received `<auth>` tag raises it again. The library moves bytes also where they overlap.

## Main definitions

* `EndsText` — a text ends in the received data, and no authentication tag follows
* `Exposes` — the calls print the secret behind such a text

## Main results

* `log_secret_iff` — the log is the same for any two secrets exactly if the calls do not expose them
-/

namespace Synciga

open DebugLog

/-! ### What stays of a stream -/

/-- The bytes not printed yet, after more bytes. -/
def pendingAfter : List UInt8 → List UInt8 → List UInt8
  | pending, [] => pending
  | pending, c :: rest =>
    if c = rangle then pendingAfter [] rest
    else if c = langle ∧ pending ≠ [] then pendingAfter [langle] rest
    else pendingAfter (pending ++ [c]) rest

/-- The flag after more bytes: an authentication tag raises it, a text takes it down. -/
def flagAfter : List UInt8 → Bool → List UInt8 → Bool
  | _, censor, [] => censor
  | pending, censor, c :: rest =>
    if c = rangle then flagAfter [] (censor || isAuthTag (pending ++ [rangle])) rest
    else if c = langle ∧ pending ≠ [] then flagAfter [langle] false rest
    else flagAfter (pending ++ [c]) censor rest

theorem printStream_pending (pending data : List UInt8) (nest : ℤ) (censor : Bool) :
    (printStream pending data nest censor).pending = pendingAfter pending data := by
  induction data generalizing pending nest censor with
  | nil => rfl
  | cons c data ih =>
    rw [printStream, pendingAfter]
    split
    · exact ih _ _ _
    split
    · exact ih _ _ _
    · exact ih _ _ _

theorem printStream_censorPassword (pending data : List UInt8) (nest : ℤ) (censor : Bool) :
    (printStream pending data nest censor).censorPassword = flagAfter pending censor data := by
  induction data generalizing pending nest censor with
  | nil => rfl
  | cons c data ih =>
    rw [printStream, flagAfter]
    split
    · exact ih _ _ _
    split
    · exact ih _ _ _
    · exact ih _ _ _

theorem pendingAfter_append (pending x y : List UInt8) :
    pendingAfter pending (x ++ y) = pendingAfter (pendingAfter pending x) y := by
  induction x generalizing pending with
  | nil => rfl
  | cons c x ih =>
    rw [List.cons_append, pendingAfter, pendingAfter]
    split
    · exact ih _
    split
    · exact ih _
    · exact ih _

theorem flagAfter_append (pending : List UInt8) (censor : Bool) (x y : List UInt8) :
    flagAfter pending censor (x ++ y) =
      flagAfter (pendingAfter pending x) (flagAfter pending censor x) y := by
  induction x generalizing pending censor with
  | nil => rfl
  | cons c x ih =>
    rw [List.cons_append, flagAfter, pendingAfter, flagAfter]
    split
    · exact ih _ _
    split
    · exact ih _ _
    · exact ih _ _

/-! ### Texts without angle brackets -/

/-- A text that neither starts nor ends a tag. -/
def NoAngle (text : List UInt8) : Prop := langle ∉ text ∧ rangle ∉ text

theorem NoAngle.take {text : List UInt8} (h : NoAngle text) (k : ℕ) : NoAngle (text.take k) :=
  ⟨fun hm => h.1 (List.mem_of_mem_take hm), fun hm => h.2 (List.mem_of_mem_take hm)⟩

theorem NoAngle.settled {text : List UInt8} (h : NoAngle text) : Settled text :=
  ⟨h.2, fun hm => h.1 (List.mem_of_mem_tail hm)⟩

theorem NoAngle.settled_cons {text : List UInt8} (h : NoAngle text) : Settled (langle :: text) := by
  refine ⟨fun hm => ?_, h.1⟩
  rcases List.mem_cons.mp hm with heq | hm
  · exact absurd heq (by decide)
  · exact h.2 hm

theorem pendingAfter_wait {pending more : List UInt8} (h : Settled (pending ++ more)) :
    pendingAfter pending more = pending ++ more := by
  have hwait := congrArg Printed.pending (printStream_wait pending h [] 3 false)
  rwa [List.append_nil, printStream_pending] at hwait

theorem pendingAfter_langle (pending : List UInt8) {text : List UInt8} (h : NoAngle text) :
    pendingAfter pending (langle :: text) = langle :: text := by
  have hwait : pendingAfter [langle] text = langle :: text := pendingAfter_wait h.settled_cons
  rw [pendingAfter, if_neg (by decide)]
  split
  · exact hwait
  next hnil =>
  have hempty : pending = [] := by
    by_contra hne
    exact hnil ⟨rfl, hne⟩
  rw [hempty]
  exact hwait

/-- The tag with the given name and attributes. -/
def tagOf (body : List UInt8) : List UInt8 := langle :: (body ++ [rangle])

/-- Put lines before those printed. -/
def Printed.prepend (lines : List (List UInt8)) (r : Printed) : Printed :=
  { r with lines := lines ++ r.lines }

variable {body : List UInt8}

/-- Printing the rest of an authentication tag raises the flag. The line does not depend on what
comes behind the tag. -/
theorem printStream_tag_end (hbody : NoAngle body) (hauth : isAuthTag (tagOf body) = true)
    {b₁ b₂ : List UInt8} (hb : b₁ ++ b₂ = body) (nest : ℤ) (censor : Bool) :
    ∃ lines nest', ∀ rest, printStream (langle :: b₁) (b₂ ++ rangle :: rest) nest censor =
      (printStream [] rest nest' true).prepend lines := by
  have hsettled : Settled (langle :: b₁ ++ b₂) := by
    rw [List.cons_append, hb]
    exact hbody.settled_cons
  have hnest : ∀ rest, tagNest (langle :: body) rest nest = tagNest (langle :: body) [] nest := by
    intro rest
    have hsecond : (langle :: body ++ rangle :: rest)[1]? = (langle :: body ++ [rangle])[1]? := by
      cases body <;> rfl
    simp only [tagNest, hsecond]
  refine ⟨[indented (tagNest (langle :: body) [] nest).1 (tagOf body)],
    (tagNest (langle :: body) [] nest).2, fun rest => ?_⟩
  rw [printStream_wait _ hsettled, List.cons_append, hb, printStream, if_pos rfl, hnest,
    show langle :: body ++ [rangle] = tagOf body from rfl, hauth, Bool.or_true]
  rfl

theorem printStream_tag (hbody : NoAngle body) (hauth : isAuthTag (tagOf body) = true)
    (pending x : List UInt8) (nest : ℤ) (censor : Bool) :
    ∃ lines nest', ∀ rest, printStream pending (x ++ (tagOf body ++ rest)) nest censor =
      (printStream [] rest nest' true).prepend lines := by
  have hangles : langle ≠ rangle := by decide
  have hcut : ∀ rest, tagOf body ++ rest = langle :: (body ++ rangle :: rest) := by
    intro rest
    simp [tagOf]
  induction x generalizing pending nest censor with
  | nil =>
    by_cases hne : pending = []
    · subst hne
      obtain ⟨lines, nest', h⟩ := printStream_tag_end hbody hauth (List.nil_append body) nest censor
      refine ⟨lines, nest', fun rest => ?_⟩
      rw [List.nil_append, hcut, printStream, if_neg hangles, if_neg (fun h => h.2 rfl)]
      exact h rest
    · obtain ⟨lines, nest', h⟩ := printStream_tag_end hbody hauth (List.nil_append body) nest false
      refine ⟨indented nest (if censor then textRemoved else pending) :: lines, nest',
        fun rest => ?_⟩
      rw [List.nil_append, hcut, printStream, if_neg hangles, if_pos ⟨rfl, hne⟩, h rest]
      rfl
  | cons c x ih =>
    by_cases hgt : c = rangle
    · subst hgt
      -- What stands behind a `>` matters up to the next byte only, which is before the tag's end.
      have hnest : ∀ rest, tagNest pending (x ++ (tagOf body ++ rest)) nest =
          tagNest pending (x ++ [langle]) nest := by
        intro rest
        have hsecond : (pending ++ rangle :: (x ++ (tagOf body ++ rest)))[1]? =
            (pending ++ rangle :: (x ++ [langle]))[1]? := by
          rw [hcut, show pending ++ rangle :: (x ++ langle :: (body ++ rangle :: rest)) =
            (pending ++ rangle :: (x ++ [langle])) ++ (body ++ rangle :: rest) by simp,
            List.getElem?_append_left (by simp; omega)]
        simp only [tagNest, hsecond]
      obtain ⟨lines, nest', h⟩ := ih [] (tagNest pending (x ++ [langle]) nest).2
        (censor || isAuthTag (pending ++ [rangle]))
      refine ⟨indented (tagNest pending (x ++ [langle]) nest).1 (pending ++ [rangle]) :: lines,
        nest', fun rest => ?_⟩
      rw [List.cons_append, printStream, if_pos rfl, hnest, h rest]
      rfl
    · by_cases hlt : c = langle ∧ pending ≠ []
      · obtain ⟨lines, nest', h⟩ := ih [langle] nest false
        refine ⟨indented nest (if censor then textRemoved else pending) :: lines, nest',
          fun rest => ?_⟩
        rw [List.cons_append, printStream, if_neg hgt, if_pos hlt, h rest]
        rfl
      · obtain ⟨lines, nest', h⟩ := ih (pending ++ [c]) nest censor
        refine ⟨lines, nest', fun rest => ?_⟩
        rw [List.cons_append, printStream, if_neg hgt, if_neg hlt, h rest]

/-- Printing what is left of a stream up to an authentication tag, wherever the stream was cut. -/
theorem printStream_complete (hbody : NoAngle body) (hauth : isAuthTag (tagOf body) = true)
    (pre : List UInt8) {c : ℕ} (hc : c < (pre ++ tagOf body).length) (nest : ℤ) (censor : Bool) :
    ∃ lines nest', ∀ rest, printStream (pendingAfter [] ((pre ++ tagOf body).take c))
        ((pre ++ tagOf body).drop c ++ rest) nest censor =
      (printStream [] rest nest' true).prepend lines := by
  rcases Nat.lt_or_ge pre.length c with hin | hout
  · -- The cut is inside the tag: what is pending is the part of the tag before it.
    have hpre : c = pre.length + 1 + (c - pre.length - 1) := by omega
    have hle : c - pre.length - 1 ≤ body.length := by
      simp only [List.length_append, tagOf, List.length_cons, List.length_nil] at hc
      omega
    generalize c - pre.length - 1 = k at hpre hle
    subst hpre
    have htake : (pre ++ tagOf body).take (pre.length + 1 + k) = pre ++ langle :: body.take k := by
      rw [Nat.add_assoc, List.take_length_add_append, tagOf, Nat.add_comm, List.take_succ_cons,
        List.take_append_of_le_length hle]
    have hdrop : (pre ++ tagOf body).drop (pre.length + 1 + k) = body.drop k ++ [rangle] := by
      rw [Nat.add_assoc, List.drop_length_add_append, tagOf, Nat.add_comm, List.drop_succ_cons,
        List.drop_append_of_le_length hle]
    have hpending : pendingAfter [] (pre ++ langle :: body.take k) = langle :: body.take k := by
      rw [pendingAfter_append]
      exact pendingAfter_langle _ (hbody.take k)
    obtain ⟨lines, nest', h⟩ := printStream_tag_end hbody hauth (List.take_append_drop k body) nest censor
    refine ⟨lines, nest', fun rest => ?_⟩
    rw [htake, hdrop, hpending, List.append_assoc]
    exact h rest
  · obtain ⟨lines, nest', h⟩ := printStream_tag hbody hauth
      (pendingAfter [] ((pre ++ tagOf body).take c)) (pre.drop c) nest censor
    refine ⟨lines, nest', fun rest => ?_⟩
    rw [List.drop_append_of_le_length hout, List.append_assoc]
    exact h rest

/-! ### Texts that end in a stream -/

/-- In `y`, received behind `x`, a text ends, and no authentication tag stands behind it. -/
def EndsText (x y : List UInt8) : Prop :=
  ∃ u v, y = u ++ langle :: v ∧ x ++ u ≠ [] ∧ (x ++ u).getLast? ≠ some rangle ∧
    ∀ body, NoAngle body → isAuthTag (tagOf body) = true → ¬ tagOf body <:+: langle :: v

theorem pendingAfter_ne_nil_iff (x : List UInt8) :
    pendingAfter [] x ≠ [] ↔ x ≠ [] ∧ x.getLast? ≠ some rangle := by
  rcases List.eq_nil_or_concat x with rfl | ⟨x, c, rfl⟩
  · simp [pendingAfter]
  rw [List.concat_eq_append, pendingAfter_append, List.getLast?_concat]
  by_cases hgt : c = rangle
  · simp [pendingAfter, hgt]
  · by_cases hlt : c = langle ∧ pendingAfter [] x ≠ []
    · simp [pendingAfter, hlt]
    · simp [pendingAfter, hgt, hlt]

theorem exists_body_of_isAuthTag {pending : List UInt8} (h : Settled pending)
    (hauth : isAuthTag (pending ++ [rangle]) = true) :
    ∃ body, pending = langle :: body ∧ NoAngle body := by
  rw [isAuthTag, decide_eq_true_eq] at hauth
  rcases pending with _ | ⟨c, body⟩
  · exact absurd hauth.1 (by decide)
  · have hfirst : c = langle := (List.cons.inj hauth.1).1
    subst hfirst
    exact ⟨body, rfl, h.2, fun hm => h.1 (List.mem_cons_of_mem _ hm)⟩

theorem flagAfter_false {x pending : List UInt8} (hsettled : Settled pending)
    (hsuffix : pending <:+ x) (v : List UInt8)
    (h : ∀ body, NoAngle body → isAuthTag (tagOf body) = true → ¬ tagOf body <:+: x ++ v) :
    flagAfter pending false v = false := by
  induction v generalizing x pending with
  | nil => rfl
  | cons c v ih =>
    have hcut : x ++ c :: v = (x ++ [c]) ++ v := by simp
    rw [hcut] at h
    rw [flagAfter]
    split
    · next hgt =>
      have hno : isAuthTag (pending ++ [rangle]) = false := by
        rw [Bool.eq_false_iff]
        intro hauth
        obtain ⟨body, rfl, hbody⟩ := exists_body_of_isAuthTag hsettled hauth
        obtain ⟨t, rfl⟩ := hsuffix
        exact h body hbody hauth ⟨t, v, by simp [tagOf, hgt]⟩
      rw [hno]
      exact ih settled_nil (List.nil_suffix) h
    split
    · next hlt =>
      refine ih (NoAngle.settled_cons ⟨List.not_mem_nil, List.not_mem_nil⟩) ?_ h
      rw [hlt.1]
      exact List.suffix_append _ _
    · next hgt hlt =>
      refine ih (settled_push hsettled hgt hlt) ?_ h
      obtain ⟨t, rfl⟩ := hsuffix
      exact ⟨t, by simp⟩

theorem tagOf_suffix_concat {body l : List UInt8} {c : UInt8} (h : tagOf body <:+ l ++ [c]) :
    c = rangle ∧ langle :: body <:+ l := by
  obtain ⟨t, ht⟩ := h
  have hcut : (t ++ langle :: body) ++ [rangle] = l ++ [c] := by
    rw [← ht]
    simp [tagOf]
  obtain ⟨hl, hc⟩ := List.append_inj' hcut rfl
  exact ⟨(List.cons.inj hc).1.symm, t, hl⟩

/-- The received data takes the flag down exactly when a text ends in it and no authentication tag
follows. -/
theorem flagAfter_eq_false_iff (x y : List UInt8) :
    flagAfter (pendingAfter [] x) true y = false ↔ EndsText x y := by
  constructor
  · intro h
    induction y using List.reverseRecOn with
    | nil => exact absurd h Bool.noConfusion
    | append_singleton y c ih =>
      rw [flagAfter_append, ← pendingAfter_append, flagAfter] at h
      -- The last byte ends a text, or it leaves an earlier end in place.
      by_cases hlt : c = langle ∧ pendingAfter [] (x ++ y) ≠ []
      · obtain ⟨hne, hlast⟩ := (pendingAfter_ne_nil_iff _).mp hlt.2
        refine ⟨y, [], by rw [hlt.1], hne, hlast, fun body _ _ hinfix => ?_⟩
        have hlen := hinfix.length_le
        simp [tagOf] at hlen
      have hdown : flagAfter (pendingAfter [] x) true y = false ∧
          (c = rangle → isAuthTag (pendingAfter [] (x ++ y) ++ [rangle]) = false) := by
        by_cases hgt : c = rangle
        · rw [if_pos hgt] at h
          exact ⟨(Bool.or_eq_false_iff.mp h).1, fun _ => (Bool.or_eq_false_iff.mp h).2⟩
        · rw [if_neg hgt, if_neg hlt] at h
          exact ⟨h, fun hc => absurd hc hgt⟩
      obtain ⟨u, v, rfl, hne, hlast, hno⟩ := ih hdown.1
      refine ⟨u, v ++ [c], by simp, hne, hlast, fun body hbody hauth hinfix => ?_⟩
      rw [← List.cons_append, List.infix_concat_iff] at hinfix
      rcases hinfix with hsuffix | hinfix
      · obtain ⟨hgt, t, ht⟩ := tagOf_suffix_concat hsuffix
        have hpending : pendingAfter [] (x ++ (u ++ langle :: v)) = langle :: body := by
          rw [← ht, ← List.append_assoc, ← List.append_assoc, pendingAfter_append]
          exact pendingAfter_langle _ hbody
        have := hdown.2 hgt
        rw [hpending] at this
        exact absurd (this.symm.trans hauth) (by decide)
      · exact hno body hbody hauth hinfix
  · rintro ⟨u, v, rfl, hne, hlast, hno⟩
    have hpending := (pendingAfter_ne_nil_iff _).mpr ⟨hne, hlast⟩
    rw [flagAfter_append, ← pendingAfter_append, flagAfter, if_neg (by decide),
      if_pos ⟨rfl, hpending⟩]
    exact flagAfter_false (NoAngle.settled_cons ⟨List.not_mem_nil, List.not_mem_nil⟩)
      (List.suffix_refl [langle]) v hno

/-! ### Cutting a stream into calls -/

/-- The number of bytes sent by the calls. -/
def sent : List Call → ℕ
  | [] => 0
  | .input _ :: cs => sent cs
  | .output data :: cs => data.length + sent cs

/-- The bytes received by the calls. -/
def received : List Call → List UInt8
  | [] => []
  | .input data :: cs => data ++ received cs
  | .output _ :: cs => received cs

/-- The same calls, with the bytes of a stream in the place of those sent. -/
def withOutput : List Call → List UInt8 → List Call
  | [], _ => []
  | .input data :: cs, o => .input data :: withOutput cs o
  | .output data :: cs, o => .output (o.take data.length) :: withOutput cs (o.drop data.length)

theorem sent_append (cs₁ cs₂ : List Call) : sent (cs₁ ++ cs₂) = sent cs₁ + sent cs₂ := by
  induction cs₁ with
  | nil => exact (Nat.zero_add _).symm
  | cons c cs₁ ih =>
    cases c with
    | input data => exact ih
    | output data => rw [List.cons_append, sent, sent, ih, Nat.add_assoc]

theorem received_append (cs₁ cs₂ : List Call) : received (cs₁ ++ cs₂) = received cs₁ ++ received cs₂ := by
  induction cs₁ with
  | nil => rfl
  | cons c cs₁ ih =>
    cases c with
    | input data => rw [List.cons_append, received, received, ih, List.append_assoc]
    | output data => exact ih

theorem withOutput_append (cs₁ cs₂ : List Call) (o : List UInt8) :
    withOutput (cs₁ ++ cs₂) o = withOutput cs₁ o ++ withOutput cs₂ (o.drop (sent cs₁)) := by
  induction cs₁ generalizing o with
  | nil => rfl
  | cons c cs₁ ih =>
    cases c with
    | input data => rw [List.cons_append, withOutput, withOutput, ih, List.cons_append, sent]
    | output data =>
      rw [List.cons_append, withOutput, withOutput, ih, List.cons_append, sent, List.drop_drop]

theorem withOutput_congr {cs : List Call} {o o' : List UInt8}
    (h : o.take (sent cs) = o'.take (sent cs)) : withOutput cs o = withOutput cs o' := by
  induction cs generalizing o o' with
  | nil => rfl
  | cons c cs ih =>
    cases c with
    | input data =>
      rw [withOutput, withOutput, ih h]
    | output data =>
      rw [sent] at h
      have hfirst := congrArg (List.take data.length) h
      have hrest := congrArg (List.drop data.length) h
      rw [List.take_take, List.take_take, Nat.min_eq_left (Nat.le_add_right _ _)] at hfirst
      rw [List.drop_take, List.drop_take, Nat.add_sub_cancel_left] at hrest
      rw [withOutput, withOutput, hfirst, ih hrest]

theorem exists_call_of_lt {cs : List Call} {k : ℕ} (h : k < sent cs) :
    ∃ cs₁ data cs₂, cs = cs₁ ++ .output data :: cs₂ ∧ sent cs₁ ≤ k ∧ k < sent cs₁ + data.length := by
  induction cs generalizing k with
  | nil => exact absurd h (Nat.not_lt_zero k)
  | cons c cs ih =>
    cases c with
    | input data =>
      obtain ⟨cs₁, data', cs₂, rfl, h1, h2⟩ := ih h
      exact ⟨.input data :: cs₁, data', cs₂, rfl, h1, h2⟩
    | output data =>
      rw [sent] at h
      rcases Nat.lt_or_ge k data.length with hlt | hge
      · exact ⟨[], data, cs, rfl, Nat.zero_le _, by simpa [sent] using hlt⟩
      obtain ⟨cs₁, data', cs₂, rfl, h1, h2⟩ := @ih (k - data.length) (by omega)
      refine ⟨.output data :: cs₁, data', cs₂, rfl, ?_, ?_⟩
      · rw [sent]
        omega
      · rw [sent]
        omega

/-! ### The log over several calls -/

variable (libc : Libc)

theorem call_log (d : DebugLog) (log : List (List UInt8)) (c : Call) : { d with log := log }.call libc c =
      { { d with log := [] }.call libc c with
        log := log ++ ({ d with log := [] }.call libc c).log } := by
  cases c with
  | input data =>
    simp only [call, input]
    split
    · rw [List.append_nil]
    · rw [List.nil_append]
  | output data =>
    simp only [call, output]
    split
    · rw [List.append_nil]
    · rw [List.nil_append]

theorem run_log (d : DebugLog) (log : List (List UInt8)) (cs : List Call) :
    ({ d with log := log }.run libc cs).log = log ++ ({ d with log := [] }.run libc cs).log := by
  induction cs generalizing d log with
  | nil => exact (List.append_nil _).symm
  | cons c cs ih =>
    have hstep := call_log libc d log c
    change ((({ d with log := log } : DebugLog).call libc c).run libc cs).log =
      log ++ ((({ d with log := [] } : DebugLog).call libc c).run libc cs).log
    rw [hstep]
    generalize ({ d with log := [] } : DebugLog).call libc c = e
    rw [ih e, List.append_assoc, ← ih e e.log]

variable [libc.Moves]

theorem run_outputBuf {d : DebugLog} (h : d.Settled) (cs : List Call) (o : List UInt8) :
    (d.run libc (withOutput cs o)).debugOutputBuf = pendingAfter d.debugOutputBuf (o.take (sent cs)) := by
  induction cs generalizing d o with
  | nil => rfl
  | cons c cs ih =>
    cases c with
    | input data =>
      have hsame : (d.call libc (.input data)).debugOutputBuf = d.debugOutputBuf := by
        simp only [call, input]
        split <;> rfl
      rw [withOutput, sent, ← hsame]
      exact ih (settled_call libc h _) o
    | output data =>
      have hnext : (d.call libc (.output (o.take data.length))).debugOutputBuf =
          pendingAfter d.debugOutputBuf (o.take data.length) := by
        by_cases hne : d.debugOutputBuf ++ o.take data.length = []
        · obtain ⟨-, hdata⟩ := List.append_eq_nil_iff.mp hne
          rw [call, output_of_nil libc hne, hdata]
          rfl
        · rw [call, output_eq libc h hne]
          exact printStream_pending _ _ _ _
      rw [withOutput, sent, List.take_add, pendingAfter_append, ← hnext]
      exact ih (settled_call libc h _) (o.drop data.length)

theorem received_withOutput (cs : List Call) (o : List UInt8) :
    received (withOutput cs o) = received cs := by
  induction cs generalizing o with
  | nil => rfl
  | cons c cs ih =>
    cases c with
    | input data => rw [withOutput, received, received, ih]
    | output data => exact ih _

theorem input_state {d : DebugLog} (h : d.Settled) (data : List UInt8) :
    (d.input libc data).debugInputBuf = pendingAfter d.debugInputBuf data ∧
      (d.input libc data).censorPassword = flagAfter d.debugInputBuf d.censorPassword data := by
  by_cases hne : d.debugInputBuf ++ data = []
  · obtain ⟨-, hdata⟩ := List.append_eq_nil_iff.mp hne
    rw [input_of_nil libc hne, hdata]
    exact ⟨rfl, rfl⟩
  · rw [input_eq libc h hne]
    exact ⟨printStream_pending _ _ _ _, printStream_censorPassword _ _ _ _⟩

theorem run_inputBuf {d : DebugLog} (h : d.Settled) (cs : List Call) :
    (d.run libc cs).debugInputBuf = pendingAfter d.debugInputBuf (received cs) := by
  induction cs generalizing d with
  | nil => rfl
  | cons c cs ih =>
    have hrest := ih (settled_call libc h c)
    cases c with
    | input data =>
      rw [received, pendingAfter_append, ← (input_state libc h data).1]
      exact hrest
    | output data =>
      have hsame : (d.call libc (.output data)).debugInputBuf = d.debugInputBuf := by
        simp only [call, output]
        split <;> rfl
      rw [hsame] at hrest
      exact hrest

/-! ### A stream with a secret -/

/-- An authentication tag, a secret, and what follows the `<` behind it. -/
def secretStream (pre body secret post : List UInt8) : List UInt8 :=
  pre ++ tagOf body ++ (secret ++ langle :: post)

variable {n : ℕ}

theorem settled_with {e : DebugLog} (he : e.Settled) {text : List UInt8} (h : NoAngle text) :
    { e with debugOutputBuf := text }.Settled := ⟨he.input, h.settled⟩

/-- While the secret is being sent, nothing is printed of it, and the flag depends on the received
data only. -/
theorem run_waiting (cs : List Call) {e : DebugLog} (he : e.Settled) {k : ℕ} (hk : k + sent cs ≤ n) :
    ∃ e' : DebugLog, e'.Settled ∧
      e'.censorPassword = flagAfter e.debugInputBuf e.censorPassword (received cs) ∧
      ∀ w : List UInt8, w.length = n → NoAngle w →
        { e with debugOutputBuf := w.take k }.run libc (withOutput cs (w.drop k)) =
          { e' with debugOutputBuf := w.take (k + sent cs) } := by
  induction cs generalizing e k with
  | nil => exact ⟨e, he, rfl, fun w _ _ => rfl⟩
  | cons c cs ih =>
    cases c with
    | input data =>
      obtain ⟨e', he', hflag, hrun⟩ := ih (settled_call libc he (.input data)) hk
      refine ⟨e', he', ?_, fun w hw hangle => ?_⟩
      · obtain ⟨hbuf, hcensor⟩ := input_state libc he data
        rw [hflag, received, flagAfter_append, ← hbuf, ← hcensor]
        rfl
      have hcall : ({ e with debugOutputBuf := w.take k } : DebugLog).call libc (.input data) =
          { e.call libc (.input data) with debugOutputBuf := w.take k } := by
        simp only [call, input]
        split <;> rfl
      rw [sent, ← hrun w hw hangle, ← hcall]
      rfl
    | output data =>
      rw [sent, ← Nat.add_assoc] at hk
      -- The banner is printed unless there is nothing in the buffer at all.
      have hstep : ∃ e₁ : DebugLog, e₁.Settled ∧ e₁.debugInputBuf = e.debugInputBuf ∧
          e₁.censorPassword = e.censorPassword ∧ ∀ w : List UInt8, w.length = n → NoAngle w →
          ({ e with debugOutputBuf := w.take k } : DebugLog).output libc
            ((w.drop k).take data.length) = { e₁ with debugOutputBuf := w.take (k + data.length) } := by
        by_cases hz : k + data.length = 0
        · refine ⟨e, he, rfl, rfl, fun w _ _ => ?_⟩
          obtain ⟨rfl, hdata⟩ := Nat.add_eq_zero_iff.mp hz
          rw [hdata, output_of_nil libc (by simp)]
        refine ⟨{ e with
          times := e.times + 1
          log := e.log ++ [banner true ++ libc.asctime e.times] }, ⟨he.input, he.output⟩, rfl, rfl,
          fun w hw hangle => ?_⟩
        have hjoin : w.take k ++ (w.drop k).take data.length = w.take (k + data.length) :=
          List.take_add.symm
        have hne : w.take k ++ (w.drop k).take data.length ≠ [] := by
          rw [hjoin, ← List.length_pos_iff, List.length_take]
          omega
        have hprint : printStream (w.take k) ((w.drop k).take data.length) 3 e.censorPassword =
            ⟨[], w.take (k + data.length), e.censorPassword⟩ := by
          have hwait := printStream_wait (w.take k)
            (by rw [hjoin]; exact (hangle.take _).settled) [] 3 e.censorPassword
          rw [List.append_nil, hjoin] at hwait
          exact hwait
        rw [output_eq libc (settled_with he (hangle.take k)) hne]
        simp only [hprint]
      obtain ⟨e₁, he₁, hbuf, hcensor, hout⟩ := hstep
      obtain ⟨e', he', hflag, hrun⟩ := ih he₁ hk
      refine ⟨e', he', ?_, fun w hw hangle => ?_⟩
      · rw [hflag, hbuf, hcensor]
        rfl
      · rw [sent, ← Nat.add_assoc, ← hrun w hw hangle, ← hout w hw hangle, ← List.drop_drop]
        rfl

variable {pre post : List UInt8}

/-- The call that completes the tag raises the flag, and what it prints does not depend on the
secret. -/
theorem run_tag (post : List UInt8) (hbody : NoAngle body)
    (hauth : isAuthTag (tagOf body) = true) {cs : List Call} {data : List UInt8}
    (h₁ : sent cs < (pre ++ tagOf body).length)
    (h₂ : (pre ++ tagOf body).length ≤ sent cs + data.length)
    (h₃ : sent cs + data.length ≤ (pre ++ tagOf body).length + n) :
    ∃ e : DebugLog, e.Settled ∧ e.censorPassword = true ∧ e.debugInputBuf = pendingAfter [] (received cs) ∧
      ∀ w : List UInt8, w.length = n → NoAngle w →
        (DebugLog.new.run libc (withOutput cs (secretStream pre body w post))).output libc
            (((secretStream pre body w post).drop (sent cs)).take data.length) =
          { e with
            debugOutputBuf := w.take (sent cs + data.length - (pre ++ tagOf body).length) } := by
  set tagged := pre ++ tagOf body with htagged
  set d := DebugLog.new.run libc (withOutput cs tagged) with hd
  have hsettled : d.Settled := settled_run libc ⟨settled_nil, settled_nil⟩ _
  have hpending : d.debugOutputBuf = pendingAfter [] (tagged.take (sent cs)) :=
    run_outputBuf libc ⟨settled_nil, settled_nil⟩ cs tagged
  have hinput : d.debugInputBuf = pendingAfter [] (received cs) := by
    rw [hd, run_inputBuf libc ⟨settled_nil, settled_nil⟩, received_withOutput]
    rfl
  obtain ⟨lines, nest, hprint⟩ := printStream_complete hbody hauth pre h₁ 3 d.censorPassword
  refine ⟨{ d with
    debugOutputBuf := []
    censorPassword := true
    times := d.times + 1
    log := d.log ++ (banner true ++ libc.asctime d.times) :: lines }, ⟨hsettled.input, settled_nil⟩, rfl,
    hinput, fun w hw hangle => ?_⟩
  have hstream : secretStream pre body w post = tagged ++ (w ++ langle :: post) := rfl
  have hsame : withOutput cs (secretStream pre body w post) = withOutput cs tagged := by
    refine withOutput_congr ?_
    rw [hstream, List.take_append_of_le_length (Nat.le_of_lt h₁)]
  have hchunk : ((secretStream pre body w post).drop (sent cs)).take data.length =
      tagged.drop (sent cs) ++ w.take (sent cs + data.length - tagged.length) := by
    rw [hstream, List.drop_append_of_le_length (Nat.le_of_lt h₁), List.take_append,
      List.take_of_length_le (by rw [List.length_drop]; omega), List.length_drop,
      List.take_append_of_le_length (by omega)]
    congr 2
    omega
  have hne : d.debugOutputBuf ++
      (tagged.drop (sent cs) ++ w.take (sent cs + data.length - tagged.length)) ≠ [] := by
    refine List.ne_nil_of_length_pos ?_
    rw [List.length_append, List.length_append, List.length_drop]
    omega
  have hwait : printStream [] (w.take (sent cs + data.length - tagged.length)) nest true =
      ⟨[], w.take (sent cs + data.length - tagged.length), true⟩ := by
    have := printStream_wait [] (hangle.take (sent cs + data.length - tagged.length)).settled [] nest true
    rwa [List.append_nil] at this
  rw [hsame, hchunk, ← hd, output_eq libc hsettled hne]
  rw [← hpending] at hprint
  rw [hprint, hwait]
  simp [Printed.prepend]

theorem output_secret {e : DebugLog} (he : e.Settled) {k : ℕ} (hpos : 0 < n) {w : List UInt8}
    (hw : w.length = n) (hangle : NoAngle w) (rest : List UInt8) :
    ({ e with debugOutputBuf := w.take k } : DebugLog).output libc
        (w.drop k ++ langle :: rest) =
      { e with
        debugOutputBuf := (printStream [langle] rest 3 false).pending
        censorPassword := (printStream [langle] rest 3 false).censorPassword
        times := e.times + 1
        log := e.log ++ (banner true ++ libc.asctime e.times) ::
          indented 3 (if e.censorPassword then textRemoved else w) ::
            (printStream [langle] rest 3 false).lines } := by
  have hwne : w ≠ [] := List.ne_nil_of_length_pos (by omega)
  have hne : w.take k ++ (w.drop k ++ langle :: rest) ≠ [] := by simp
  have hprint : printStream (w.take k) (w.drop k ++ langle :: rest) 3 e.censorPassword =
      (printStream [langle] rest 3 false).prepend
        [indented 3 (if e.censorPassword then textRemoved else w)] := by
    rw [printStream_wait (w.take k) (by rw [List.take_append_drop]; exact hangle.settled),
      List.take_append_drop, printStream, if_neg (by decide), if_pos ⟨rfl, hwne⟩]
    rfl
  rw [output_eq libc (settled_with he (hangle.take k)) hne]
  simp only [hprint]
  simp [Printed.prepend]

omit [libc.Moves] in
theorem run_cut (d : DebugLog) (cs cs' : List Call) (data o : List UInt8) :
    d.run libc (withOutput (cs ++ .output data :: cs') o) =
      ((d.run libc (withOutput cs o)).output libc ((o.drop (sent cs)).take data.length)).run
        libc (withOutput cs' (o.drop (sent cs + data.length))) := by
  rw [withOutput_append, run_append, withOutput, ← List.drop_drop]
  rfl

theorem tagged_length_pos (pre body : List UInt8) : 0 < (pre ++ tagOf body).length := by
  rw [List.length_append, tagOf, List.length_cons]
  omega

theorem drop_secretStream {secret : List UInt8} {k : ℕ} (hk : (pre ++ tagOf body).length ≤ k) :
    (secretStream pre body secret post).drop k =
      (secret ++ langle :: post).drop (k - (pre ++ tagOf body).length) := by
  rw [secretStream, List.drop_append, List.drop_eq_nil_of_le hk, List.nil_append]

theorem drop_secret {secret : List UInt8} {k : ℕ} (hk : k ≤ secret.length) :
    (secret ++ langle :: post).drop k = secret.drop k ++ langle :: post :=
  List.drop_append_of_le_length hk

/-- If the tag and the secret are completed by different calls, the log is the same for all secrets but for one
line, which depends on what was received between the two. -/
theorem log_line (post : List UInt8) (cs₃ : List Call) (hbody : NoAngle body)
    (hauth : isAuthTag (tagOf body) = true) (hpos : 0 < n) {cs₁ cs₂ : List Call}
    {data₁ data₂ : List UInt8}
    (h₁ : sent cs₁ < (pre ++ tagOf body).length)
    (h₂ : (pre ++ tagOf body).length ≤ sent cs₁ + data₁.length)
    (h₃ : sent cs₁ + data₁.length + sent cs₂ ≤ (pre ++ tagOf body).length + n)
    (h₄ : (pre ++ tagOf body).length + n < sent cs₁ + data₁.length + sent cs₂ + data₂.length) :
    ∃ l₁ l₂, ∀ w : List UInt8, w.length = n → NoAngle w →
      (DebugLog.new.run libc
        (withOutput (cs₁ ++ .output data₁ :: (cs₂ ++ .output data₂ :: cs₃))
          (secretStream pre body w post))).log =
        l₁ ++ indented 3 (if flagAfter (pendingAfter [] (received cs₁)) true (received cs₂)
          then textRemoved else w) :: l₂ := by
  obtain ⟨e, he, hcensor, hinput, htag⟩ := run_tag libc post hbody hauth h₁ h₂
    (show sent cs₁ + data₁.length ≤ (pre ++ tagOf body).length + n by omega)
  set k := sent cs₁ + data₁.length - (pre ++ tagOf body).length with hk
  have hkn : k + sent cs₂ ≤ n := by omega
  obtain ⟨e', he', hflag, hwait⟩ := run_waiting libc (n := n) cs₂ he hkn
  rw [hcensor, hinput] at hflag
  -- How much of the last call lies behind the `<`.
  set m := data₂.length - (n - (k + sent cs₂)) - 1 with hm
  refine ⟨e'.log ++ [banner true ++ libc.asctime e'.times],
    (printStream [langle] (post.take m) 3 false).lines ++ ({ e' with
      debugOutputBuf := (printStream [langle] (post.take m) 3 false).pending
      censorPassword := (printStream [langle] (post.take m) 3 false).censorPassword
      times := e'.times + 1
      log := [] }.run libc (withOutput cs₃ (post.drop m))).log, fun w hw hangle => ?_⟩
  have hrest : (secretStream pre body w post).drop (sent cs₁ + data₁.length) =
      w.drop k ++ langle :: post := by
    rw [drop_secretStream h₂, drop_secret (by omega)]
  have hsame : withOutput cs₂ (w.drop k ++ langle :: post) = withOutput cs₂ (w.drop k) := by
    refine withOutput_congr ?_
    rw [List.take_append_of_le_length (by rw [List.length_drop]; omega)]
  have hdrop : (w.drop k ++ langle :: post).drop (sent cs₂) = w.drop (k + sent cs₂) ++ langle :: post := by
    rw [List.drop_append_of_le_length (by rw [List.length_drop]; omega), List.drop_drop]
  have hchunk : (w.drop (k + sent cs₂) ++ langle :: post).take data₂.length =
      w.drop (k + sent cs₂) ++ langle :: post.take m := by
    rw [List.take_append, List.take_of_length_le (by rw [List.length_drop]; omega),
      List.length_drop, hw, show data₂.length - (n - (k + sent cs₂)) = m + 1 by omega,
      List.take_succ_cons]
  have hlast : (w.drop k ++ langle :: post).drop (sent cs₂ + data₂.length) = post.drop m := by
    rw [← List.drop_drop, hdrop, List.drop_append, List.drop_eq_nil_of_le
      (by rw [List.length_drop]; omega), List.nil_append, List.length_drop, hw,
      show data₂.length - (n - (k + sent cs₂)) = m + 1 by omega, List.drop_succ_cons]
  rw [run_cut, htag w hw hangle, hrest, run_cut, hsame, hwait w hw hangle, hdrop, hchunk, hlast,
    output_secret libc he' hpos hw hangle, hflag]
  rw [run_log libc { e' with
    debugOutputBuf := (printStream [langle] (post.take m) 3 false).pending
    censorPassword := (printStream [langle] (post.take m) 3 false).censorPassword
    times := e'.times + 1 }]
  simp

theorem log_constant_of_not_sent (hbody : NoAngle body) (hauth : isAuthTag (tagOf body) = true)
    {cs : List Call} (h : sent cs ≤ (pre ++ tagOf body).length + n) :
    ∃ log, ∀ w : List UInt8, w.length = n → NoAngle w →
      (DebugLog.new.run libc (withOutput cs (secretStream pre body w post))).log = log := by
  rcases Nat.lt_or_ge (sent cs) (pre ++ tagOf body).length with hlt | hge
  · refine ⟨(DebugLog.new.run libc (withOutput cs (pre ++ tagOf body))).log, fun w _ _ => ?_⟩
    have hsame : withOutput cs (secretStream pre body w post) = withOutput cs (pre ++ tagOf body) := by
      refine withOutput_congr ?_
      rw [secretStream, List.take_append_of_le_length (Nat.le_of_lt hlt)]
    rw [hsame]
  have hpos := tagged_length_pos pre body
  -- The tag is completed by some call, and everything behind it waits.
  obtain ⟨cs₁, data, cs₂, rfl, h1, h2⟩ :=
    @exists_call_of_lt cs ((pre ++ tagOf body).length - 1) (by omega)
  rw [sent_append, sent] at h hge
  obtain ⟨e, he, -, -, htag⟩ := run_tag libc post hbody hauth
    (show sent cs₁ < (pre ++ tagOf body).length by omega)
    (show (pre ++ tagOf body).length ≤ sent cs₁ + data.length by omega)
    (show sent cs₁ + data.length ≤ (pre ++ tagOf body).length + n by omega)
  obtain ⟨e', -, -, hwait⟩ := run_waiting libc (n := n) cs₂ he
    (show sent cs₁ + data.length - (pre ++ tagOf body).length + sent cs₂ ≤ n by omega)
  refine ⟨e'.log, fun w hw hangle => ?_⟩
  have hsame : withOutput cs₂ ((w ++ langle :: post).drop
      (sent cs₁ + data.length - (pre ++ tagOf body).length)) =
      withOutput cs₂ (w.drop (sent cs₁ + data.length - (pre ++ tagOf body).length)) := by
    refine withOutput_congr ?_
    rw [drop_secret (by omega), List.take_append_of_le_length (by rw [List.length_drop]; omega)]
  rw [run_cut, htag w hw hangle, drop_secretStream (by omega), hsame, hwait w hw hangle]

/-- If one call completes the tag and brings the `<` behind the secret, then the log is the same for
all secrets. -/
theorem log_constant_of_one_call (hbody : NoAngle body) (hauth : isAuthTag (tagOf body) = true)
    {cs₁ cs₂ : List Call} {data : List UInt8} (h₁ : sent cs₁ < (pre ++ tagOf body).length)
    (h₂ : (pre ++ tagOf body).length + n < sent cs₁ + data.length) :
    ∃ log, ∀ w : List UInt8, w.length = n → NoAngle w →
      (DebugLog.new.run libc
        (withOutput (cs₁ ++ .output data :: cs₂) (secretStream pre body w post))).log = log := by
  set tagged := pre ++ tagOf body with htagged
  set d := DebugLog.new.run libc (withOutput cs₁ tagged) with hd
  have hsettled : d.Settled := settled_run libc ⟨settled_nil, settled_nil⟩ _
  have hpending : d.debugOutputBuf = pendingAfter [] (tagged.take (sent cs₁)) :=
    run_outputBuf libc ⟨settled_nil, settled_nil⟩ cs₁ tagged
  obtain ⟨lines, nest, hprint⟩ := printStream_complete hbody hauth pre h₁ 3 d.censorPassword
  rw [← hpending] at hprint
  set m := sent cs₁ + data.length - tagged.length - n - 1 with hm
  -- The secret is replaced, or it is empty and there is nothing to replace.
  have hsecret : ∃ r, ∀ w : List UInt8, w.length = n → NoAngle w →
      printStream [] (w ++ langle :: post.take m) nest true = r := by
    rcases Nat.eq_zero_or_pos n with hz | hpos
    · refine ⟨printStream [] (langle :: post.take m) nest true, fun w hw _ => ?_⟩
      rw [List.eq_nil_of_length_eq_zero (hw.trans hz), List.nil_append]
    refine ⟨(printStream [langle] (post.take m) nest false).prepend [indented nest textRemoved],
      fun w hw hangle => ?_⟩
    have hne : w ≠ [] := List.ne_nil_of_length_pos (by omega)
    rw [printStream_append_settled hangle.settled, printStream, if_neg (by decide),
      if_pos ⟨rfl, hne⟩]
    rfl
  obtain ⟨r, hr⟩ := hsecret
  refine ⟨({ d with
    debugOutputBuf := (r.prepend lines).pending
    censorPassword := (r.prepend lines).censorPassword
    times := d.times + 1
    log := d.log ++ (banner true ++ libc.asctime d.times) :: (r.prepend lines).lines }.run libc
      (withOutput cs₂ (post.drop m))).log, fun w hw hangle => ?_⟩
  have hsame : withOutput cs₁ (secretStream pre body w post) = withOutput cs₁ tagged := by
    refine withOutput_congr ?_
    rw [secretStream, List.take_append_of_le_length (Nat.le_of_lt h₁)]
  have hcut : data.length - (tagged.length - sent cs₁) - w.length = m + 1 := by omega
  have hchunk : ((secretStream pre body w post).drop (sent cs₁)).take data.length =
      tagged.drop (sent cs₁) ++ (w ++ langle :: post.take m) := by
    rw [secretStream, List.drop_append_of_le_length (Nat.le_of_lt h₁), List.take_append,
      List.take_of_length_le (by rw [List.length_drop]; omega), List.length_drop, List.take_append,
      List.take_of_length_le (by omega), hcut, List.take_succ_cons]
  have hlast : (secretStream pre body w post).drop (sent cs₁ + data.length) = post.drop m := by
    rw [drop_secretStream (show tagged.length ≤ _ by omega), ← htagged, List.drop_append,
      List.drop_eq_nil_of_le (by omega), List.nil_append,
      show sent cs₁ + data.length - tagged.length - w.length = m + 1 by omega,
      List.drop_succ_cons]
  have hne : d.debugOutputBuf ++ (tagged.drop (sent cs₁) ++ (w ++ langle :: post.take m)) ≠ [] := by
    simp
  rw [run_cut, hsame, ← hd, hchunk, hlast, output_eq libc hsettled hne, hprint, hr w hw hangle]

/-! ### When the log reveals the secret -/

/-- One call completes the tag that ends before byte `a`, a later one brings byte `z`, and between the two a
text is received that no authentication tag follows. -/
def Exposes (a z : ℕ) (calls : List Call) : Prop :=
  ∃ cs₁ data₁ cs₂ data₂ cs₃, calls = cs₁ ++ .output data₁ :: (cs₂ ++ .output data₂ :: cs₃) ∧
    sent cs₁ < a ∧ a ≤ sent cs₁ + data₁.length ∧ sent cs₁ + data₁.length + sent cs₂ ≤ z ∧
    z < sent cs₁ + data₁.length + sent cs₂ + data₂.length ∧
    EndsText (received cs₁) (received cs₂)

theorem log_constant (post : List UInt8) (hbody : NoAngle body)
    (hauth : isAuthTag (tagOf body) = true) {calls : List Call}
    (h : n = 0 ∨ ¬ Exposes (pre ++ tagOf body).length ((pre ++ tagOf body).length + n) calls) :
    ∃ log, ∀ w : List UInt8, w.length = n → NoAngle w →
      (DebugLog.new.run libc (withOutput calls (secretStream pre body w post))).log = log := by
  rcases Nat.eq_zero_or_pos n with rfl | hpos
  · refine ⟨(DebugLog.new.run libc (withOutput calls (secretStream pre body [] post))).log,
      fun w hw _ => ?_⟩
    rw [List.eq_nil_of_length_eq_zero hw]
  have hsafe := h.resolve_left (by omega)
  rcases Nat.lt_or_ge ((pre ++ tagOf body).length + n) (sent calls) with hlt | hge
  · -- The `<` is sent; either its call also completes the tag, or an earlier one does.
    obtain ⟨cs, data₂, cs₃, rfl, h1, h2⟩ := exists_call_of_lt hlt
    rcases Nat.lt_or_ge (sent cs) (pre ++ tagOf body).length with hone | htwo
    · exact log_constant_of_one_call libc hbody hauth hone h2
    have hlen := tagged_length_pos pre body
    obtain ⟨cs₁, data₁, cs₂, rfl, h3, h4⟩ :=
      @exists_call_of_lt cs ((pre ++ tagOf body).length - 1) (by omega)
    rw [sent_append, sent, ← Nat.add_assoc] at h1 h2 htwo
    have hflag : flagAfter (pendingAfter [] (received cs₁)) true (received cs₂) = true := by
      by_contra hdown
      refine hsafe ⟨cs₁, data₁, cs₂, data₂, cs₃, by simp, by omega, by omega, h1, h2, ?_⟩
      exact (flagAfter_eq_false_iff _ _).mp (Bool.eq_false_iff.mpr hdown)
    obtain ⟨l₁, l₂, hline⟩ := log_line libc post cs₃ hbody hauth hpos
      (show sent cs₁ < (pre ++ tagOf body).length by omega) (by omega) h1 h2
    refine ⟨l₁ ++ indented 3 textRemoved :: l₂, fun w hw hangle => ?_⟩
    have hw := hline w hw hangle
    rw [hflag, if_pos rfl] at hw
    rw [List.append_assoc, List.cons_append]
    exact hw
  · exact log_constant_of_not_sent libc hbody hauth hge

/-- **Secrecy of the log.** However the streams are cut and interleaved, the log is the same for any two secrets
of `n` bytes exactly when these are empty or not exposed. -/
theorem log_secret_iff (pre body post : List UInt8) (n : ℕ) (calls : List Call)
    (hbody : NoAngle body) (hauth : isAuthTag (tagOf body) = true) :
    (∀ w w' : List UInt8, w.length = n → w'.length = n → NoAngle w → NoAngle w' →
      (DebugLog.new.run libc (withOutput calls (secretStream pre body w post))).log =
        (DebugLog.new.run libc (withOutput calls (secretStream pre body w' post))).log) ↔
    n = 0 ∨ ¬ Exposes (pre ++ tagOf body).length ((pre ++ tagOf body).length + n) calls := by
  constructor
  · intro h
    rcases Nat.eq_zero_or_pos n with hz | hpos
    · exact .inl hz
    refine .inr ?_
    rintro ⟨cs₁, data₁, cs₂, data₂, cs₃, rfl, h1, h2, h3, h4, htext⟩
    have hflag := (flagAfter_eq_false_iff _ _).mpr htext
    -- Two secrets that differ, and the line that shows them.
    obtain ⟨l₁, l₂, hline⟩ := log_line libc post cs₃ hbody hauth hpos h1 h2 h3 h4
    have hangle : ∀ b, b ≠ langle → b ≠ rangle → NoAngle (List.replicate n b) := by
      intro b hl hr
      exact ⟨fun hm => hl (List.eq_of_mem_replicate hm).symm,
        fun hm => hr (List.eq_of_mem_replicate hm).symm⟩
    have ha := hangle 97 (by decide) (by decide)
    have hb := hangle 98 (by decide) (by decide)
    have hsame := h _ _ List.length_replicate List.length_replicate ha hb
    rw [hline _ List.length_replicate ha, hline _ List.length_replicate hb, hflag] at hsame
    have hheads := List.cons.inj (List.append_cancel_left hsame)
    have hsecrets : List.replicate n (97 : UInt8) = List.replicate n 98 :=
      List.append_cancel_left hheads.1
    have := (List.replicate_inj.mp hsecrets).2
    rcases this with hz | hbytes
    · omega
    · exact absurd hbytes (by decide)
  · intro h w w' hw hw' hangle hangle'
    obtain ⟨log, hlog⟩ := log_constant libc post hbody hauth h
    rw [hlog w hw hangle, hlog w' hw' hangle']

/-- `auth mechanism="PLAIN"`. -/
def plainBody : List UInt8 :=
  ascii ['a', 'u', 't', 'h', ' ', 'm', 'e', 'c', 'h', 'a', 'n', 'i', 's', 'm', '='] ++ [34] ++
    ascii ['P', 'L', 'A', 'I', 'N'] ++ [34]

/-- The tag is sent, a text and a `<` are received, and the secret and a `<` are sent. -/
def exposingCalls : List Call :=
  [.output (List.replicate 24 0), .input (ascii ['o', 'k', '<']), .output (List.replicate 3 0)]

/-- The same without the received text. -/
def sendingCalls : List Call :=
  [.output (List.replicate 24 0), .output (List.replicate 3 0)]

theorem not_exposes_sendingCalls : ¬ Exposes 24 26 sendingCalls := by
  rintro ⟨cs₁, data₁, cs₂, data₂, cs₃, hcalls, -, -, -, -, u, v, hcs₂, -⟩
  -- Nothing is received, so no text ends.
  have hnone : received (cs₁ ++ .output data₁ :: (cs₂ ++ .output data₂ :: cs₃)) = [] := by
    rw [← hcalls]
    rfl
  rw [received_append, received, received_append, hcs₂] at hnone
  simp at hnone

/-- Two secrets of two bytes that are logged alike. -/
theorem log_secret_of_sendingCalls : (DebugLog.new.run Libc.moving (withOutput sendingCalls
      (secretStream [] plainBody [97, 98] []))).log =
    (DebugLog.new.run Libc.moving (withOutput sendingCalls
      (secretStream [] plainBody [99, 100] []))).log := by
  have hiff := log_secret_iff Libc.moving [] plainBody [] 2 sendingCalls
    ⟨by decide, by decide⟩ (by decide +kernel)
  exact hiff.mpr (.inr not_exposes_sendingCalls) _ _ rfl rfl ⟨by decide, by decide⟩
    ⟨by decide, by decide⟩

/-- A text received between the tag and the secret reveals the secret. -/
theorem log_reveals_secret : ¬ ∀ (libc : Libc) [libc.Moves] (pre body post w w' : List UInt8)
    (calls : List Call), NoAngle body → isAuthTag (tagOf body) = true → NoAngle w → NoAngle w' →
    w.length = w'.length →
    (DebugLog.new.run libc (withOutput calls (secretStream pre body w post))).log =
      (DebugLog.new.run libc (withOutput calls (secretStream pre body w' post))).log := by
  intro h
  have hsame := h Libc.moving [] plainBody [] [97, 98] [99, 100] exposingCalls
    ⟨by decide, by decide⟩ (by decide +kernel) ⟨by decide, by decide⟩ ⟨by decide, by decide⟩ rfl
  exact absurd hsame (by decide +kernel)

end Synciga
