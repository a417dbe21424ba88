import CraftClient.Tracker.Model

namespace CraftClient.Tracker

variable {L : ℤ} {t t' t'' : DlsnTracker} {d : ℤ} {oc : SlotOutcome} {weak : Bool}

structure Evolves (t t' : DlsnTracker) : Prop where
  next : t.nextDlsn ≤ t'.nextDlsn
  frontier : t.frontier ≤ t'.frontier
  acked : t.highestAcked ≤ t'.highestAcked
  base : t.tracker.base ≤ t'.tracker.base
  completed : t.tracker.completed ⊆ t'.tracker.completed
  slot : ∀ d s, t.tracker.data d = some s → ∃ s', t'.tracker.data d = some s' ∧
    s'.addr = s.addr ∧ s'.len = s.len ∧ (isResolved s.outcome = true → s'.outcome = s.outcome)
  lbaSize : t'.lbaSize = t.lbaSize

namespace Evolves

lemma refl (t : DlsnTracker) : Evolves t t :=
  ⟨le_rfl, le_rfl, le_rfl, le_rfl, subset_rfl, fun _ s hs => ⟨s, hs, rfl, rfl, fun _ => rfl⟩, rfl⟩

lemma trans (h : Evolves t t') (h' : Evolves t' t'') : Evolves t t'' where
  next := h.next.trans h'.next
  frontier := h.frontier.trans h'.frontier
  acked := h.acked.trans h'.acked
  base := h.base.trans h'.base
  completed := h.completed.trans h'.completed
  slot d s hs := by
    obtain ⟨s', hs', ha, hl, ho⟩ := h.slot d s hs
    obtain ⟨s'', hs'', ha', hl', ho'⟩ := h'.slot d s' hs'
    refine ⟨s'', hs'', ha'.trans ha, hl'.trans hl, fun hr => ?_⟩
    have he := ho hr
    rw [ho' (he ▸ hr), he]
  lbaSize := h'.lbaSize.trans h.lbaSize

lemma outcome (h : Evolves t t') (ho : t.outcome d = some oc) (hr : isResolved oc = true) :
    t'.outcome d = some oc := by
  obtain ⟨s, hs, rfl⟩ := Option.map_eq_some_iff.mp ho
  obtain ⟨s', hs', -, -, he⟩ := h.slot d s hs
  simp [DlsnTracker.outcome, hs', he hr]

lemma resolved (h : Evolves t t') (hr : t.Resolved d) : t'.Resolved d := by
  obtain ⟨oc, ho, hoc⟩ := hr
  exact ⟨oc, h.outcome ho hoc, hoc⟩

lemma isSome (h : Evolves t t') (hs : (t.tracker.data d).isSome) : (t'.tracker.data d).isSome := by
  obtain ⟨s, hs⟩ := Option.isSome_iff_exists.mp hs
  obtain ⟨s', hs', -⟩ := h.slot d s hs
  simp [hs']

end Evolves

structure Inv (L : ℤ) (t : DlsnTracker) : Prop where
  login_le_frontier : L ≤ t.frontier
  login_le_acked : L ≤ t.highestAcked
  frontier_lt : t.frontier < t.nextDlsn
  acked_lt : t.highestAcked < t.nextDlsn
  issued_of_data : ∀ d s, t.tracker.data d = some s → L < d ∧ d < t.nextDlsn
  resolved_of_completed : ∀ d ∈ t.tracker.completed, t.Resolved d
  completed_of_le : ∀ d, L < d → d ≤ t.frontier → d ∈ t.tracker.completed
  acked_top : L < t.highestAcked → t.outcome t.highestAcked = some .acked
  base_le : t.tracker.base ≤ t.frontier + 1
  login_lt_base : L < t.tracker.base

lemma inv_resetAt (maxInflight : UInt32) (L : ℤ) (lbaSize : UInt32) :
    Inv L (resetAt maxInflight L lbaSize) := by
  constructor <;> simp [resetAt, StreamTracker.emplace]

@[simp] lemma outcome_setOutcome (t : DlsnTracker) (d e : ℤ) (oc : SlotOutcome) :
    (t.setOutcome d oc).outcome e =
      if e = d then (t.outcome d).map fun _ => oc else t.outcome e := by
  simp only [DlsnTracker.outcome, DlsnTracker.setOutcome, StreamTracker.modify_data]
  split_ifs <;> simp [Function.comp_def]

@[simp] lemma outcome_setCompleted (t : DlsnTracker) (d e : ℤ) :
    (t.setCompleted d).outcome e = t.outcome e := rfl

lemma Inv.resolved (h : Inv L t) (hL : L < d) (hd : d ≤ t.frontier) : t.Resolved d :=
  h.resolved_of_completed d (h.completed_of_le d hL hd)

lemma Inv.issued_of_outcome (h : Inv L t) (ho : t.outcome d = some oc) : L < d ∧ d < t.nextDlsn := by
  obtain ⟨s, hs, -⟩ := Option.map_eq_some_iff.mp ho
  exact h.issued_of_data d s hs

lemma Inv.issued_of_completed (h : Inv L t) (hd : d ∈ t.tracker.completed) :
    L < d ∧ d < t.nextDlsn := by
  obtain ⟨oc, ho, -⟩ := h.resolved_of_completed d hd
  exact h.issued_of_outcome ho

section Updates

lemma evolves_setOutcome (hr : ¬ t.Resolved d) : Evolves t (t.setOutcome d oc) where
  next := le_rfl
  frontier := le_rfl
  acked := le_rfl
  base := le_rfl
  completed := subset_rfl
  slot e s hs := by
    by_cases he : e = d
    · subst he
      refine ⟨{ s with outcome := oc }, by simp [DlsnTracker.setOutcome, hs], rfl, rfl, fun h => ?_⟩
      exact absurd ⟨s.outcome, by simp [DlsnTracker.outcome, hs], h⟩ hr
    · exact ⟨s, by simp [DlsnTracker.setOutcome, he, hs], rfl, rfl, fun _ => rfl⟩
  lbaSize := rfl

lemma Inv.setOutcome (h : Inv L t) (hr : ¬ t.Resolved d) : Inv L (t.setOutcome d oc) where
  login_le_frontier := h.login_le_frontier
  login_le_acked := h.login_le_acked
  frontier_lt := h.frontier_lt
  acked_lt := h.acked_lt
  issued_of_data e s hs := by
    rw [DlsnTracker.setOutcome, StreamTracker.modify_data] at hs
    split_ifs at hs with he
    · obtain ⟨s', hs', -⟩ := Option.map_eq_some_iff.mp hs
      exact he ▸ h.issued_of_data d s' hs'
    · exact h.issued_of_data e s hs
  resolved_of_completed e he :=
    (evolves_setOutcome hr).resolved (h.resolved_of_completed e he)
  completed_of_le := h.completed_of_le
  acked_top hL := (evolves_setOutcome hr).outcome (h.acked_top hL) rfl
  base_le := h.base_le
  login_lt_base := h.login_lt_base

lemma evolves_setCompleted : Evolves t (t.setCompleted d) where
  next := le_rfl
  frontier := le_rfl
  acked := le_rfl
  base := le_rfl
  completed := Finset.subset_insert d _
  slot := (Evolves.refl t).slot
  lbaSize := rfl

lemma Inv.setCompleted (h : Inv L t) (hr : t.Resolved d) : Inv L (t.setCompleted d) where
  login_le_frontier := h.login_le_frontier
  login_le_acked := h.login_le_acked
  frontier_lt := h.frontier_lt
  acked_lt := h.acked_lt
  issued_of_data := h.issued_of_data
  resolved_of_completed e he := by
    rcases (t.tracker.mem_complete d e).mp he with rfl | he
    · exact evolves_setCompleted.resolved hr
    · exact evolves_setCompleted.resolved (h.resolved_of_completed e he)
  completed_of_le e hL he := Finset.mem_insert_of_mem (h.completed_of_le e hL he)
  acked_top := h.acked_top
  base_le := h.base_le
  login_lt_base := h.login_lt_base

lemma evolves_raise (hd : t.highestAcked ≤ d) : Evolves t { t with highestAcked := d } :=
  { Evolves.refl t with acked := hd }

lemma Inv.raise (h : Inv L t) (ho : t.outcome d = some .acked) :
    Inv L { t with highestAcked := d } :=
  { h with
    login_le_acked := (h.issued_of_outcome ho).1.le
    acked_lt := (h.issued_of_outcome ho).2
    resolved_of_completed := h.resolved_of_completed
    acked_top := fun _ => ho }

lemma evolves_advance {nf : ℤ} (hf : t.frontier ≤ nf) : Evolves t { t with frontier := nf } :=
  { Evolves.refl t with frontier := hf }

lemma Inv.advance {nf : ℤ} (h : Inv L t) (hf : t.frontier ≤ nf) (hn : nf < t.nextDlsn)
    (hc : ∀ j, t.frontier < j → j ≤ nf → j ∈ t.tracker.completed) :
    Inv L { t with frontier := nf } :=
  { h with
    login_le_frontier := h.login_le_frontier.trans hf
    frontier_lt := hn
    resolved_of_completed := h.resolved_of_completed
    acked_top := h.acked_top
    base_le := h.base_le.trans (by simpa using hf)
    completed_of_le := fun d hL hd => by
      rcases le_or_gt d t.frontier with hle | hgt
      · exact h.completed_of_le d hL hle
      · exact hc d hgt hd }

lemma evolves_truncate {nf : ℤ} : Evolves t { t with tracker := t.tracker.truncate nf } :=
  { Evolves.refl t with base := le_max_left _ _ }

lemma Inv.truncate {nf : ℤ} (h : Inv L t) (hf : nf ≤ t.frontier) :
    Inv L { t with tracker := t.tracker.truncate nf } :=
  { h with
    resolved_of_completed := h.resolved_of_completed
    acked_top := h.acked_top
    base_le := max_le h.base_le (by simpa using hf)
    login_lt_base := lt_max_of_lt_left h.login_lt_base }

end Updates

def ResolveOk (L : ℤ) (t : DlsnTracker) (d : ℤ) (oc : SlotOutcome) : ResolvePc → Prop
  | .complete => isResolved oc = true ∧ t.outcome d = some oc
  | .recomplete => t.Resolved d
  | .raiseLoad => t.outcome d = some .acked
  | .raise cur => t.outcome d = some .acked ∧ cur ≤ t.highestAcked
  | .advIssued f => L ≤ f ∧ f ≤ t.frontier
  | .advScan f issued => L ≤ f ∧ f ≤ t.frontier ∧ issued < t.nextDlsn
  | .advCas f nf =>
    f ≤ t.frontier ∧ f ≤ nf ∧ nf < t.nextDlsn ∧ ∀ j, f < j → j ≤ nf → j ∈ t.tracker.completed
  | .truncLoad nf | .truncCas nf _ | .truncate nf => nf ≤ t.frontier
  | .load | .store | .advLoad | .signal | .fire => True

lemma ResolveOk.mono {pc : ResolvePc} (he : Evolves t t') (h : ResolveOk L t d oc pc) :
    ResolveOk L t' d oc pc := by
  cases pc with
  | complete => exact ⟨h.1, he.outcome h.2 h.1⟩
  | recomplete => exact he.resolved h
  | raiseLoad => exact he.outcome h rfl
  | raise => exact ⟨he.outcome h.1 rfl, h.2.trans he.acked⟩
  | advIssued => exact ⟨h.1, h.2.trans he.frontier⟩
  | advScan => exact ⟨h.1, h.2.1.trans he.frontier, h.2.2.trans_le he.next⟩
  | advCas =>
    obtain ⟨hf, hnf, hn, hc⟩ := h
    exact ⟨hf.trans he.frontier, hnf, hn.trans_le he.next, fun j hj hjn => he.completed (hc j hj hjn)⟩
  | truncLoad | truncCas | truncate => exact le_trans h he.frontier
  | load | store | advLoad | signal | fire => trivial

def ThreadOk (L : ℤ) (t : DlsnTracker) : Thread → Prop
  | .create d _ _ => L < d ∧ d < t.nextDlsn ∧ t.tracker.data d = none
  | .resolve d oc pc _ => (t.tracker.data d).isSome ∧ ResolveOk L t d oc pc
  | .retireFill _ u => (t.tracker.data u).isSome
  | _ => True

def Thread.creating : Thread → Option ℤ
  | .create d _ _ => some d
  | _ => none

lemma ThreadOk.mono {th : Thread} (he : Evolves t t') (h : ThreadOk L t th)
    (hc : ∀ d, th.creating = some d → t'.tracker.data d = none) : ThreadOk L t' th := by
  cases th with
  | create d => exact ⟨h.1, h.2.1.trans_le he.next, hc d rfl⟩
  | resolve => exact ⟨he.isSome h.1, h.2.mono he⟩
  | retireFill => exact he.isSome h
  | _ => trivial

/-- The store of a `resolve` finds the slot as unresolved as its load did. -/
def StoresFresh (t : DlsnTracker) : Thread → Prop
  | .resolve d _ .store _ => ¬ t.Resolved d
  | _ => True

instance (t : DlsnTracker) (th : Thread) : Decidable (StoresFresh t th) := by
  unfold StoresFresh
  split <;> infer_instance

end CraftClient.Tracker
