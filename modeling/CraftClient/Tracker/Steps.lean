import CraftClient.Tracker.Invariant

namespace CraftClient.Tracker

variable {L : ℤ} {t t' : DlsnTracker} {d e : ℤ} {oc : SlotOutcome} {weak busy : Bool}
  {th th' : Thread} {ι : Type}

lemma resolveStep_spec {pc : ResolvePc} (weak : Bool) (h : Inv L t) (hd : (t.tracker.data d).isSome)
    (hp : ResolveOk L t d oc pc) (hf : pc = .store → ¬ t.Resolved d) :
    Inv L (resolveStep t d oc weak pc).1 ∧ Evolves t (resolveStep t d oc weak pc).1 ∧
      ∀ pc', (resolveStep t d oc weak pc).2 = some pc' →
        ResolveOk L (resolveStep t d oc weak pc).1 d oc pc' := by
  cases pc with
  | load =>
    simp only [resolveStep]
    cases hs : t.tracker.find d with
    | none => exact ⟨h, .refl t, by simp [ResolveOk]⟩
    | some s =>
      refine ⟨h, .refl t, ?_⟩
      rintro pc' ⟨⟩
      split_ifs with hr
      · have ho : t.outcome d = some s.outcome := by
          simp [DlsnTracker.outcome, (StreamTracker.find_eq_some.mp hs).2]
        exact ⟨s.outcome, ho, hr⟩
      · trivial
  | store =>
    have hr := hf rfl
    refine ⟨h.setOutcome hr, evolves_setOutcome hr, ?_⟩
    rintro pc' ⟨⟩
    split_ifs with hoc
    · refine ⟨hoc, ?_⟩
      obtain ⟨s, hs⟩ := Option.isSome_iff_exists.mp hd
      have ho : t.outcome d = some s.outcome := by simp [DlsnTracker.outcome, hs]
      simp [resolveStep, ho]
    · trivial
  | complete =>
    refine ⟨h.setCompleted ⟨oc, hp.2, hp.1⟩, evolves_setCompleted, ?_⟩
    rintro pc' ⟨⟩
    split_ifs with hoc
    · exact hoc ▸ hp.2
    · trivial
  | recomplete =>
    refine ⟨h.setCompleted hp, evolves_setCompleted, ?_⟩
    rintro pc' ⟨⟩
    trivial
  | raiseLoad => exact ⟨h, .refl t, by rintro pc' ⟨⟩; exact ⟨hp, le_rfl⟩⟩
  | raise cur =>
    simp only [resolveStep]
    split_ifs with hc hw
    · exact ⟨h, .refl t, by rintro pc' ⟨⟩; trivial⟩
    · exact ⟨h, .refl t, by rintro pc' ⟨⟩; exact ⟨hp.1, le_rfl⟩⟩
    · obtain rfl : t.highestAcked = cur := by tauto
      exact ⟨h.raise hp.1, evolves_raise (by omega), by rintro pc' ⟨⟩; trivial⟩
  | advLoad => exact ⟨h, .refl t, by rintro pc' ⟨⟩; exact ⟨h.login_le_frontier, le_rfl⟩⟩
  | advIssued f =>
    refine ⟨h, .refl t, ?_⟩
    rintro pc' ⟨⟩
    exact ⟨hp.1, hp.2, by simp [resolveStep, DlsnTracker.issued]⟩
  | advScan f issued =>
    refine ⟨h, .refl t, ?_⟩
    rintro pc' ⟨⟩
    split_ifs with hn
    · trivial
    · refine ⟨hp.2.1, by omega, lt_of_le_of_lt (min_le_right _ _) hp.2.2, fun j hj hjn => ?_⟩
      exact t.tracker.completedUpto_mem (by omega) (hjn.trans (min_le_left _ _))
  | advCas f nf =>
    simp only [resolveStep]
    split_ifs with hw
    · exact ⟨h, .refl t, by rintro pc' ⟨⟩; exact ⟨h.login_le_frontier, le_rfl⟩⟩
    · obtain rfl : t.frontier = f := by tauto
      obtain ⟨-, hnf, hn, hc⟩ := hp
      exact ⟨h.advance hnf hn hc, evolves_advance hnf, by rintro pc' ⟨⟩; exact le_rfl⟩
  | truncLoad nf =>
    refine ⟨h, .refl t, ?_⟩
    rintro pc' ⟨⟩
    split_ifs
    · exact hp
    · trivial
  | truncCas nf lt =>
    simp only [resolveStep]
    split_ifs
    · exact ⟨{ h with acked_top := h.acked_top, resolved_of_completed := h.resolved_of_completed },
        { Evolves.refl t with }, by rintro pc' ⟨⟩; exact hp⟩
    · exact ⟨h, .refl t, by rintro pc' ⟨⟩; trivial⟩
  | truncate nf => exact ⟨h.truncate hp, evolves_truncate, by rintro pc' ⟨⟩; trivial⟩
  | signal =>
    refine ⟨h, .refl t, ?_⟩
    simp only [resolveStep]
    split_ifs
    · rintro pc' ⟨⟩
    · rintro pc' ⟨⟩
      trivial
  | fire =>
    exact ⟨{ h with acked_top := h.acked_top, resolved_of_completed := h.resolved_of_completed },
      { Evolves.refl t with }, by rintro pc' ⟨⟩⟩

lemma resolveStep_data_none (d : ℤ) (oc : SlotOutcome) (weak : Bool) (pc : ResolvePc)
    (hn : t.tracker.data e = none) :
    (resolveStep t d oc weak pc).1.tracker.data e = none := by
  cases pc with
  | load =>
    simp only [resolveStep]
    split <;> exact hn
  | store =>
    simp only [resolveStep, DlsnTracker.setOutcome, StreamTracker.modify_data]
    split_ifs with he
    · simp [← he, hn]
    · exact hn
  | raise | advCas | truncCas =>
    simp only [resolveStep]
    split_ifs <;> exact hn
  | _ => exact hn

lemma Inv.create (h : Inv L t) (hL : L < d) (hn : d < t.nextDlsn) (hd : t.tracker.data d = none)
    (s : DlsnSlot) :
    Inv L { t with tracker := t.tracker.create d s } ∧
      Evolves t { t with tracker := t.tracker.create d s } := by
  have he : Evolves t { t with tracker := t.tracker.create d s } := by
    refine ⟨le_rfl, le_rfl, le_rfl, le_rfl, subset_rfl, fun e s' hs => ?_, rfl⟩
    have hne : e ≠ d := by
      rintro rfl
      simp [hd] at hs
    exact ⟨s', by simp [hne, hs], rfl, rfl, fun _ => rfl⟩
  refine ⟨?_, he⟩
  exact
    { h with
      issued_of_data := fun e s' hs => by
        rw [StreamTracker.create_data] at hs
        split_ifs at hs with heq
        · exact heq.symm ▸ ⟨hL, hn⟩
        · exact h.issued_of_data e s' hs
      resolved_of_completed := fun e hc => he.resolved (h.resolved_of_completed e hc)
      acked_top := fun hL => he.outcome (h.acked_top hL) rfl }

lemma threadOk_resume (ret : Option RetireFrame) : ThreadOk L t (.resume ret) := by
  cases ret <;> trivial

lemma threadStep_spec (h : Inv L t) (hk : ThreadOk L t th) (hf : StoresFresh t th)
    (hs : threadStep t weak th = some (t', th')) :
    Inv L t' ∧ Evolves t t' ∧ ThreadOk L t' th' := by
  cases th with
  | idle => cases hs
  | create d addr len =>
    cases hs
    obtain ⟨hi, he⟩ := h.create hk.1 hk.2.1 hk.2.2 ⟨addr, len, .inFlight⟩
    exact ⟨hi, he, trivial⟩
  | resolve d oc pc ret =>
    have hspec := resolveStep_spec weak h hk.1 hk.2 (by rintro rfl; exact hf)
    simp only [threadStep] at hs
    rcases hr : resolveStep t d oc weak pc with ⟨u, _ | pc'⟩
    · rw [hr] at hs hspec
      cases hs
      exact ⟨hspec.1, hspec.2.1, threadOk_resume ret⟩
    · rw [hr] at hs hspec
      cases hs
      exact ⟨hspec.1, hspec.2.1, hspec.2.1.isSome hk.1, hspec.2.2 pc' rfl⟩
  | retireHi | retireFrom =>
    cases hs
    exact ⟨h, .refl t, trivial⟩
  | retireScan fr =>
    cases hs
    refine ⟨h, .refl t, ?_⟩
    split_ifs <;> trivial
  | retireVisit fr u =>
    cases hs
    refine ⟨h, .refl t, ?_⟩
    split_ifs with hn hm
    · trivial
    · exact ⟨StreamTracker.isSome_of_find hn, trivial⟩
    · exact StreamTracker.isSome_of_find hn
  | retireFill fr u =>
    cases hs
    exact ⟨h, .refl t, hk, trivial⟩

lemma threadStep_data_none (hs : threadStep t weak th = some (t', th'))
    (hn : t.tracker.data e = none) (hc : th.creating ≠ some e) : t'.tracker.data e = none := by
  cases th with
  | create d addr len =>
    cases hs
    have hne : e ≠ d := fun he => hc (by rw [he]; rfl)
    simpa [hne] using hn
  | resolve d oc pc ret =>
    simp only [threadStep] at hs
    split at hs <;> rename_i hr <;> cases hs <;>
      simpa [hr] using resolveStep_data_none d oc weak pc hn
  | idle => cases hs
  | _ => cases hs; exact hn

lemma resolveStep_nextDlsn (t : DlsnTracker) (d : ℤ) (oc : SlotOutcome) (weak : Bool) (pc : ResolvePc) :
    (resolveStep t d oc weak pc).1.nextDlsn = t.nextDlsn := by
  cases pc with
  | load =>
    simp only [resolveStep]
    split <;> rfl
  | raise | advCas | truncCas =>
    simp only [resolveStep]
    split_ifs <;> rfl
  | _ => rfl

lemma threadStep_nextDlsn (hs : threadStep t weak th = some (t', th')) : t'.nextDlsn = t.nextDlsn := by
  cases th with
  | idle => cases hs
  | resolve d oc pc ret =>
    simp only [threadStep] at hs
    split at hs <;> rename_i hr <;> cases hs <;> simpa [hr] using resolveStep_nextDlsn t d oc weak pc
  | _ => cases hs; rfl

lemma threadStep_not_creating (hs : threadStep t weak th = some (t', th')) : th'.creating = none := by
  cases th with
  | idle => cases hs
  | resolve d oc pc ret =>
    simp only [threadStep] at hs
    split at hs <;> cases hs
    · rfl
    · cases ret <;> rfl
  | retireScan | retireVisit =>
    cases hs
    split_ifs <;> rfl
  | _ => cases hs; rfl

structure SysInv (L : ℤ) (s : Sys ι) : Prop where
  trk : Inv L s.trk
  threads : ∀ i, ThreadOk L s.trk (s.threads i)
  creating_inj : ∀ i j d, (s.threads i).creating = some d → (s.threads j).creating = some d → i = j

lemma sysInv_start (maxInflight : UInt32) (lbaSize : UInt32) :
    SysInv L (Sys.start (resetAt maxInflight L lbaSize) : Sys ι) :=
  ⟨inv_resetAt maxInflight L lbaSize, fun _ => trivial, by rintro i j d ⟨⟩⟩

variable [DecidableEq ι] [Fintype ι] {s s' : Sys ι} {a : Act ι}

def Act.Fresh (s : Sys ι) : Act ι → Prop
  | .go i _ => StoresFresh s.trk (s.threads i)
  | .call _ _ => True

instance (s : Sys ι) (a : Act ι) : Decidable (a.Fresh s) := by
  cases a <;> unfold Act.Fresh <;> infer_instance

lemma step_cases (hs : step busy s a = some s') :
    (∃ i c th, a = .call i c ∧ s.threads i = .idle ∧ startCall s.trk c = some (s'.trk, th) ∧
      s'.threads = Function.update s.threads i th ∧ s'.ackReturned = s.ackReturned) ∨
    (∃ i weak th, a = .go i weak ∧ threadStep s.trk weak (s.threads i) = some (s'.trk, th) ∧
      ¬ ((s.threads i).truncates ∧ (busy ∨ ∃ j, (s.threads j).inUpdate)) ∧
      s'.threads = Function.update s.threads i th ∧
      s'.ackReturned = returned s.trk (s.threads i) weak s.ackReturned) := by
  cases a with
  | call i c =>
    simp only [step] at hs
    split_ifs at hs with hi
    obtain ⟨⟨u, th⟩, hc, rfl⟩ := Option.map_eq_some_iff.mp hs
    exact Or.inl ⟨i, c, th, rfl, hi, hc, rfl, rfl⟩
  | go i weak =>
    simp only [step] at hs
    split_ifs at hs with hl
    obtain ⟨⟨u, th⟩, hc, rfl⟩ := Option.map_eq_some_iff.mp hs
    exact Or.inr ⟨i, weak, th, rfl, hc, hl, rfl, rfl⟩

lemma startCall_spec {c : Call} (h : Inv L t) (hs : startCall t c = some (t', th)) :
    Inv L t' ∧ Evolves t t' ∧ ThreadOk L t' th ∧ t'.tracker = t.tracker ∧
      ∀ d, th.creating = some d → d = t.nextDlsn := by
  cases c with
  | reserve addr len =>
    cases hs
    have hF := h.frontier_lt
    have hA := h.acked_lt
    have hL := h.login_le_frontier
    have hnone : t.tracker.data t.nextDlsn = none := by
      by_contra hne
      obtain ⟨s, hs⟩ := Option.ne_none_iff_exists'.mp hne
      exact lt_irrefl _ (h.issued_of_data _ s hs).2
    refine ⟨?_, { Evolves.refl t with next := by simp }, ⟨by omega, by simp, hnone⟩, rfl, ?_⟩
    · exact
        { h with
          frontier_lt := hF.trans (by simp)
          acked_lt := hA.trans (by simp)
          issued_of_data := fun d s hs => (h.issued_of_data d s hs).imp_right (·.trans (by simp))
          acked_top := h.acked_top
          resolved_of_completed := h.resolved_of_completed }
    · rintro d ⟨⟩
      rfl
  | resolve d oc =>
    simp only [startCall] at hs
    split_ifs at hs with hd
    cases hs
    exact ⟨h, .refl t, ⟨hd, trivial⟩, rfl, by rintro d ⟨⟩⟩
  | retireUpto upto empties =>
    cases hs
    exact ⟨h, .refl t, trivial, rfl, by rintro d ⟨⟩⟩

omit [Fintype ι] in
lemma creating_inj_update {threads : ι → Thread} {i : ι}
    (hinj : ∀ j k d, (threads j).creating = some d → (threads k).creating = some d → j = k)
    (hc : ∀ j d, th.creating = some d → (threads j).creating ≠ some d) :
    ∀ j k d, (Function.update threads i th j).creating = some d →
      (Function.update threads i th k).creating = some d → j = k := by
  intro j k d hj hk
  rw [Function.update_apply] at hj hk
  split_ifs at hj hk with hji hki hki
  · rw [hji, hki]
  · exact absurd hk (hc k d hj)
  · exact absurd hj (hc j d hk)
  · exact hinj j k d hj hk

omit [Fintype ι] in
lemma SysInv.of_move {i : ι} (h : SysInv L s) (hi : Inv L s'.trk) (he : Evolves s.trk s'.trk)
    (hth : s'.threads = Function.update s.threads i th) (hk : ThreadOk L s'.trk th)
    (hn : ∀ j, j ≠ i → ∀ d, (s.threads j).creating = some d → s'.trk.tracker.data d = none)
    (hc : ∀ j d, th.creating = some d → (s.threads j).creating ≠ some d) : SysInv L s' := by
  have hthreads : ∀ j, ThreadOk L s'.trk (s'.threads j) := by
    rw [hth]
    exact (Function.forall_update_iff s.threads fun _ => ThreadOk L s'.trk).mpr
      ⟨hk, fun j hj => (h.threads j).mono he (hn j hj)⟩
  exact ⟨hi, hthreads, hth ▸ creating_inj_update h.creating_inj hc⟩

lemma SysInv.step (h : SysInv L s) (hf : a.Fresh s) (hs : step busy s a = some s') :
    SysInv L s' ∧ Evolves s.trk s'.trk := by
  have hnone : ∀ j d, (s.threads j).creating = some d →
      s.trk.tracker.data d = none ∧ d < s.trk.nextDlsn := by
    intro j d hj
    have hk := h.threads j
    cases hth : s.threads j with
    | create d' addr len =>
      rw [hth] at hj hk
      cases hj
      exact ⟨hk.2.2, hk.2.1⟩
    | _ => rw [hth] at hj; cases hj
  rcases step_cases hs with ⟨i, c, th, rfl, -, hc, hth, -⟩ | ⟨i, weak, th, rfl, hc, -, hth, -⟩
  · obtain ⟨hi, he, hk, htr, hcr⟩ := startCall_spec h.trk hc
    refine ⟨h.of_move hi he hth hk (fun j _ d hj => htr ▸ (hnone j d hj).1) ?_, he⟩
    intro j d hd hj
    have hlt := (hnone j d hj).2
    rw [hcr d hd] at hlt
    exact lt_irrefl _ hlt
  · obtain ⟨hi, he, hk⟩ := threadStep_spec h.trk (h.threads i) hf hc
    refine ⟨h.of_move hi he hth hk (fun j hji d hj => ?_) ?_, he⟩
    · exact threadStep_data_none hc (hnone j d hj).1 fun hcr => hji (h.creating_inj j i d hj hcr)
    · intro j d hd
      rw [threadStep_not_creating hc] at hd
      cases hd

end CraftClient.Tracker
