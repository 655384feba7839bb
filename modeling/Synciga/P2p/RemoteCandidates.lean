import Synciga.Internal.Generations
import Synciga.P2p.ChannelMoves

/-!
# The remote candidates of a channel

A channel remembers the remote candidates for the ports to come (`RememberRemoteCandidate`). One of a newer
generation drops those of the older ones, but one of an older generation that comes late is remembered until the
next of the newest.

## Main results

* `unordered_iff` — when what is remembered does not depend on the order in which candidates come
-/

namespace Synciga.P2p

/-! ### Equivalent candidates -/

/-- The candidate without what `IsEquivalent` ignores. -/
def Candidate.identity (c : Candidate) : Candidate :=
  { c with
    networkName := ""
    priority := 0
    hostname := if ipIsAny c.address.ip then c.hostname else "" }

theorem Candidate.isEquivalent_iff (c d : Candidate) : c.isEquivalent d = true ↔ c.identity = d.identity := by
  rw [isEquivalent, decide_eq_true_eq]
  obtain ⟨id, component, protocol, address, priority, username, password, type, networkName, generation, foundation,
    relatedAddress, hostname⟩ := c
  obtain ⟨id', component', protocol', address', priority', username', password', type', networkName', generation',
    foundation', relatedAddress', hostname'⟩ := d
  simp only [identity, Candidate.mk.injEq, true_and]
  by_cases haddress : address = address'
  · subst haddress
    by_cases hany : ipIsAny address.ip = true
    · simp only [hany, if_true]
    · simp only [hany, if_false, and_true, Bool.false_eq_true]
  · simp only [haddress, false_and, and_false]

namespace P2PTransportChannel

variable {ch ch' ch'' : P2PTransportChannel}

/-! ### What leaves the remote candidates alone -/

/-- Nothing of the other side changes. -/
structure SameRemote (ch ch' : P2PTransportChannel) : Prop where
  protocolType : ch'.protocolType = ch.protocolType
  remoteCandidateGeneration : ch'.remoteCandidateGeneration = ch.remoteCandidateGeneration
  remoteIceUfrag : ch'.remoteIceUfrag = ch.remoteIceUfrag
  remoteIcePwd : ch'.remoteIcePwd = ch.remoteIcePwd
  remoteCandidates : ch'.remoteCandidates = ch.remoteCandidates

theorem SameRemote.refl (ch : P2PTransportChannel) : SameRemote ch ch := ⟨rfl, rfl, rfl, rfl, rfl⟩

theorem SameRemote.trans (h : SameRemote ch ch') (h' : SameRemote ch' ch'') : SameRemote ch ch'' where
  protocolType := h'.protocolType.trans h.protocolType
  remoteCandidateGeneration := h'.remoteCandidateGeneration.trans h.remoteCandidateGeneration
  remoteIceUfrag := h'.remoteIceUfrag.trans h.remoteIceUfrag
  remoteIcePwd := h'.remoteIcePwd.trans h.remoteIcePwd
  remoteCandidates := h'.remoteCandidates.trans h.remoteCandidates

theorem SameRemote.completeCandidate (h : SameRemote ch ch') (c : Candidate) :
    ch'.completeCandidate c = ch.completeCandidate c := by
  rw [P2PTransportChannel.completeCandidate, P2PTransportChannel.completeCandidate, getRemoteCandidateGeneration,
    getRemoteCandidateGeneration, h.protocolType, h.remoteCandidateGeneration, h.remoteIceUfrag, h.remoteIcePwd]

theorem sameRemote_withConnection (conn : ℕ) (f : Connection → Connection) (ch : P2PTransportChannel) :
    SameRemote ch (ch.withConnection conn f) := by
  rw [withConnection]
  split
  · exact ⟨rfl, rfl, rfl, rfl, rfl⟩
  · exact ⟨rfl, rfl, rfl, rfl, rfl⟩

variable (now : UInt32)

theorem sorting_sameRemote : Sorting now SameRemote where
  refl := .refl
  trans := .trans
  updateState conn ch := sameRemote_withConnection conn _ ch
  prune conn ch := sameRemote_withConnection conn _ ch
  nominate conn ch := sameRemote_withConnection conn _ ch
  arrange _ _ _ _ _ _ _ _ _ _ := ⟨rfl, rfl, rfl, rfl, rfl⟩

theorem sameRemote_createConnection (port : ℕ) (c : Candidate) (originPort : Option ℕ)
    (readable : Bool) (ch : P2PTransportChannel) :
    SameRemote ch (ch.createConnection now port c originPort readable).1 := by
  have hmark (conn : ℕ) (ch : P2PTransportChannel) : SameRemote ch (ch.markReadable now readable conn) := by
    rw [markReadable]
    split
    · exact sameRemote_withConnection conn _ ch
    · exact .refl ch
  rcases createConnection_cases now port c originPort readable ch with h | ⟨conn, h⟩ | ⟨localPriority, h⟩
  · rw [h]
    exact .refl ch
  · rw [h]
    exact hmark conn ch
  · rw [h]
    have hadd : SameRemote ch (ch.addConnection port c localPriority) := ⟨rfl, rfl, rfl, rfl, rfl⟩
    exact hadd.trans (hmark _ _)

/-! ### What is remembered -/

/-- The remote candidates without the ports that they come from. -/
def remembered (ch : P2PTransportChannel) : List Candidate := ch.remoteCandidates.map Prod.fst

/-- The generation of a candidate as a number. -/
def generationOf (c : Candidate) : ℕ := c.generation.toNat

theorem generationOf_eq {c d : Candidate} (h : c.identity = d.identity) : generationOf c = generationOf d :=
  congrArg UInt32.toNat (congrArg Candidate.generation h :)

theorem remembered_rememberRemoteCandidate (c : Candidate) (originPort : Option ℕ) (ch : P2PTransportChannel) :
    (ch.rememberRemoteCandidate c originPort).remembered =
      Generations.remember Candidate.identity generationOf ch.remembered c := by
  have hkept : ((ch.remoteCandidates.filter fun r => ¬r.1.generation < c.generation).map Prod.fst) =
      ch.remembered.filter fun b => ¬generationOf b < generationOf c := by
    rw [remembered, List.filter_map]
    rfl
  have hany : ((ch.remoteCandidates.filter fun r => ¬r.1.generation < c.generation).any (·.1.isEquivalent c)) =
      (ch.remembered.filter fun b => ¬generationOf b < generationOf c).any fun b => b.identity = c.identity := by
    rw [← hkept, List.any_map]
    refine congrArg (List.any _) (funext fun r => ?_)
    exact Bool.eq_iff_iff.mpr ((Candidate.isEquivalent_iff r.1 c).trans decide_eq_true_iff.symm)
  rw [Generations.remember, ← hany, rememberRemoteCandidate, remembered]
  split
  · exact hkept
  · rw [List.map_append, hkept]
    rfl

theorem createConnections_eq (c : Candidate) (originPort : Option ℕ) (readable : Bool)
    (ch : P2PTransportChannel) : ∃ t, SameRemote ch t ∧
      (ch.createConnections now c originPort readable).1 =
        t.rememberRemoteCandidate (ch.completeCandidate c) originPort := by
  refine ⟨_, ?_, rfl⟩
  refine List.foldlRecOn (motive := fun (acc : P2PTransportChannel × Bool) => SameRemote ch acc.1) _ _ (.refl ch) ?_
  intro acc hacc port _
  exact hacc.trans (sameRemote_createConnection now port _ originPort readable acc.1)

theorem remembered_onCandidate (c : Candidate) (ch : P2PTransportChannel) :
    (ch.onCandidate now c).remembered =
      Generations.remember Candidate.identity generationOf ch.remembered (ch.completeCandidate c) := by
  obtain ⟨t, hsame, heq⟩ := createConnections_eq now c none false ch
  have hsorted := (sorting_sameRemote now).sortConnections (ch.createConnections now c none false).1
  have hremembered : t.remembered = ch.remembered := congrArg (List.map Prod.fst) hsame.remoteCandidates
  calc (ch.onCandidate now c).remembered = (ch.createConnections now c none false).1.remembered :=
        congrArg (List.map Prod.fst) hsorted.remoteCandidates
    _ = Generations.remember Candidate.identity generationOf t.remembered (ch.completeCandidate c) := by
        rw [heq, remembered_rememberRemoteCandidate]
    _ = Generations.remember Candidate.identity generationOf ch.remembered (ch.completeCandidate c) := by
        rw [hremembered]

theorem completeCandidate_onCandidate (c d : Candidate) (ch : P2PTransportChannel) :
    (ch.onCandidate now c).completeCandidate d = ch.completeCandidate d := by
  obtain ⟨t, hsame, heq⟩ := createConnections_eq now c none false ch
  have hsorted := (sorting_sameRemote now).sortConnections (ch.createConnections now c none false).1
  calc (ch.onCandidate now c).completeCandidate d
      = (ch.createConnections now c none false).1.completeCandidate d := hsorted.completeCandidate d
    _ = t.completeCandidate d := by rw [heq]; rfl
    _ = ch.completeCandidate d := hsame.completeCandidate d

/-! ### Candidates in any order -/

variable (arrivals : List (UInt32 × Candidate))

/-- Candidates come one after the other, each at its time. -/
def onCandidates (ch : P2PTransportChannel) : P2PTransportChannel :=
  arrivals.foldl (fun ch a => ch.onCandidate a.1 a.2) ch

/-- The candidates as the channel completes them. -/
def completed (ch : P2PTransportChannel) : List Candidate :=
  arrivals.map fun a => ch.completeCandidate a.2

theorem remembered_onCandidates (ch : P2PTransportChannel) : (ch.onCandidates arrivals).remembered =
      (ch.completed arrivals).foldl (Generations.remember Candidate.identity generationOf) ch.remembered := by
  induction arrivals generalizing ch with
  | nil => rfl
  | cons a arrivals ih =>
    have hcompleted : (ch.onCandidate a.1 a.2).completed arrivals = ch.completed arrivals :=
      List.map_congr_left fun b _ => completeCandidate_onCandidate a.1 a.2 b.2 ch
    calc (ch.onCandidates (a :: arrivals)).remembered
        = ((ch.onCandidate a.1 a.2).onCandidates arrivals).remembered := rfl
      _ = (ch.completed (a :: arrivals)).foldl (Generations.remember Candidate.identity generationOf)
            ch.remembered := by rw [ih, hcompleted, remembered_onCandidate]; rfl

/-- What is remembered of the candidates is one for each class of the newest generation. -/
def RemembersNewest (ch : P2PTransportChannel) : Prop :=
  Generations.Newest Candidate.identity generationOf (ch.completed arrivals) (ch.onCandidates arrivals).remembered

/-- In both orders what is remembered is one for each class of the newest generation, and the
classes are the same. -/
structure Unordered (arrivals arrivals' : List (UInt32 × Candidate)) (ch : P2PTransportChannel) : Prop where
  newest : ch.RemembersNewest arrivals
  newest' : ch.RemembersNewest arrivals'
  same : ((ch.onCandidates arrivals).remembered.map Candidate.identity).Perm
    ((ch.onCandidates arrivals').remembered.map Candidate.identity)

/-- The candidate that comes last is of the newest generation. -/
def EndsNewest (ch : P2PTransportChannel) : Prop :=
  ∀ last ∈ arrivals.getLast?, ∀ a ∈ arrivals,
    (ch.completeCandidate a.2).generation ≤ (ch.completeCandidate last.2).generation

theorem remembersNewest_iff (hnone : ch.remoteCandidates = []) (arrivals : List (UInt32 × Candidate)) :
    ch.RemembersNewest arrivals ↔ ch.EndsNewest arrivals := by
  have hremembered : ch.remembered = [] := by rw [remembered, hnone, List.map_nil]
  rw [RemembersNewest, remembered_onCandidates, hremembered,
    Generations.newest_foldl_iff (fun _ _ => generationOf_eq), completed, List.getLast?_map, EndsNewest]
  simp only [Option.mem_def, Option.map_eq_some_iff, List.mem_map, forall_exists_index, and_imp,
    forall_apply_eq_imp_iff₂]
  rfl

/-- For every channel without remote candidates, and all candidates that come in two orders: both remember one
candidate for each class of the newest generation, if and only if in both the last candidate is of the newest
generation. -/
theorem unordered_iff (ch : P2PTransportChannel) (hnone : ch.remoteCandidates = [])
    (arrivals arrivals' : List (UInt32 × Candidate))
    (hperm : (arrivals.map Prod.snd).Perm (arrivals'.map Prod.snd)) :
    ch.Unordered arrivals arrivals' ↔ ch.EndsNewest arrivals ∧ ch.EndsNewest arrivals' := by
  constructor
  · intro h
    exact ⟨(remembersNewest_iff hnone arrivals).mp h.newest, (remembersNewest_iff hnone arrivals').mp h.newest'⟩
  rintro ⟨hends, hends'⟩
  have hnewest := (remembersNewest_iff hnone arrivals).mpr hends
  have hnewest' := (remembersNewest_iff hnone arrivals').mpr hends'
  refine ⟨hnewest, hnewest', Generations.Newest.perm hnewest hnewest' ?_⟩
  have hmap := hperm.map ch.completeCandidate
  rwa [List.map_map, List.map_map] at hmap

/-- A candidate of a generation. -/
def ofGeneration (generation : UInt32) : Candidate := { blankCandidate with generation }

theorem endsNewest_ofGeneration (now now' : UInt32) :
    (create 1).EndsNewest [(now, ofGeneration 0), (now', ofGeneration 1)] := by
  intro last hlast a ha
  cases hlast
  rcases List.mem_pair.mp ha with rfl | rfl
  · exact of_decide_eq_true rfl
  · exact of_decide_eq_true rfl

theorem unordered_two_generations :
    (create 1).Unordered [(1, ofGeneration 0), (2, ofGeneration 1)] [(5, ofGeneration 0), (9, ofGeneration 1)] :=
  (unordered_iff (create 1) rfl [(1, ofGeneration 0), (2, ofGeneration 1)]
      [(5, ofGeneration 0), (9, ofGeneration 1)]
    (List.Perm.refl [ofGeneration 0, ofGeneration 1])).mpr
    ⟨endsNewest_ofGeneration 1 2, endsNewest_ofGeneration 5 9⟩

/-- The candidate of the old generation comes after that of the new one. -/
theorem not_unordered_late :
    ¬(create 1).Unordered [(1, ofGeneration 0), (2, ofGeneration 1)]
        [(1, ofGeneration 1), (2, ofGeneration 0)] := by
  intro h
  have hends := (remembersNewest_iff rfl _).mp h.newest'
  exact absurd (hends _ rfl (1, ofGeneration 1) (List.mem_cons_self ..)) (by decide)

end P2PTransportChannel

end Synciga.P2p
