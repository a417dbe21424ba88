import CraftClient.Tracker.Steps

namespace CraftClient.Tracker

open Runs

variable {L : ℤ} {t t' : DlsnTracker} {d k : ℤ} {oc : SlotOutcome} {weak busy : Bool}
  {th th' : Thread} {ι : Type}

def ResolvePc.Advances (F k : ℤ) : ResolvePc → Prop
  | .complete | .raiseLoad | .raise _ | .advLoad | .advIssued _ => True
  | .advScan _ issued => k ≤ issued
  | .advCas f nf => k ≤ nf ∨ f ≠ F
  | _ => False

def ResolvePc.Raises : ResolvePc → Prop
  | .complete | .raiseLoad | .raise _ => True
  | _ => False

structure Pending (L : ℤ) (s : Sys ι) : Prop where
  marked : ∀ d, s.trk.Resolved d → d ∈ s.trk.tracker.completed ∨
    ∃ i oc ret, s.threads i = .resolve d oc .complete ret
  raised : ∀ d, s.trk.outcome d = some .acked → d ≤ s.trk.highestAcked ∨
    ∃ i pc ret, s.threads i = .resolve d .acked pc ret ∧ pc.Raises
  advanced : ∀ k, s.trk.frontier < k → (∀ j, L < j → j ≤ k → j ∈ s.trk.tracker.completed) →
    ∃ i d oc pc ret, s.threads i = .resolve d oc pc ret ∧ pc.Advances s.trk.frontier k

lemma pending_start (maxInflight lbaSize : UInt32) :
    Pending L (Sys.start (resetAt maxInflight L lbaSize) : Sys ι) where
  marked d hr := by
    obtain ⟨oc, ho, -⟩ := hr
    cases ho
  raised d ho := by cases ho
  advanced k hk hc := by
    have hm := hc k hk le_rfl
    simp [Sys.start, resetAt, StreamTracker.emplace] at hm

section Step

variable {pc : ResolvePc}

lemma resolveStep_outcome (h : pc ≠ .store) (e : ℤ) :
    (resolveStep t d oc weak pc).1.outcome e = t.outcome e := by
  cases pc with
  | store => exact absurd rfl h
  | load =>
    simp only [resolveStep]
    split <;> rfl
  | raise | advCas | truncCas =>
    simp only [resolveStep]
    split_ifs <;> rfl
  | _ => rfl

lemma resolveStep_marked {r : DlsnTracker × Option ResolvePc} (h : resolveStep t d oc weak pc = r)
    {e : ℤ} (hr : r.1.Resolved e) :
    t.Resolved e ∨ e = d ∧ pc = .store ∧ isResolved oc = true ∧ r.2 = some .complete := by
  subst h
  obtain ⟨oc', ho, hoc⟩ := hr
  by_cases hstore : pc = .store
  · subst hstore
    simp only [resolveStep, outcome_setOutcome] at ho
    split_ifs at ho with he
    · obtain ⟨-, -, rfl⟩ := Option.map_eq_some_iff.mp ho
      exact Or.inr ⟨he, rfl, hoc, by simp [resolveStep, hoc]⟩
    · exact Or.inl ⟨oc', ho, hoc⟩
  · rw [resolveStep_outcome hstore] at ho
    exact Or.inl ⟨oc', ho, hoc⟩

lemma resolveStep_acked {r : DlsnTracker × Option ResolvePc} (h : resolveStep t d oc weak pc = r)
    {e : ℤ} (hr : r.1.outcome e = some .acked) :
    t.outcome e = some .acked ∨ e = d ∧ oc = .acked ∧ r.2 = some .complete := by
  subst h
  by_cases hstore : pc = .store
  · subst hstore
    simp only [resolveStep, outcome_setOutcome] at hr
    split_ifs at hr with he
    · obtain ⟨-, -, rfl⟩ := Option.map_eq_some_iff.mp hr
      exact Or.inr ⟨he, rfl, rfl⟩
    · exact Or.inl hr
  · rw [resolveStep_outcome hstore] at hr
    exact Or.inl hr

lemma resolveStep_completed {r : DlsnTracker × Option ResolvePc} (h : resolveStep t d oc weak pc = r) :
    r.1.tracker.completed = t.tracker.completed ∨
      (pc = .complete ∨ pc = .recomplete) ∧ r.1.tracker.completed = insert d t.tracker.completed := by
  subst h
  cases pc with
  | complete | recomplete => exact Or.inr ⟨by simp, rfl⟩
  | load =>
    left
    simp only [resolveStep]
    split <;> rfl
  | raise | advCas | truncCas =>
    left
    simp only [resolveStep]
    split_ifs <;> rfl
  | _ => exact Or.inl rfl

lemma resolveStep_raises {r : DlsnTracker × Option ResolvePc}
    (h : resolveStep t d .acked weak pc = r) (hp : pc.Raises) (hk : ResolveOk L t d .acked pc) :
    d ≤ r.1.highestAcked ∨ ∃ pc', r.2 = some pc' ∧ pc'.Raises := by
  subst h
  cases pc with
  | complete => exact Or.inr ⟨.raiseLoad, rfl, trivial⟩
  | raiseLoad => exact Or.inr ⟨.raise t.highestAcked, rfl, trivial⟩
  | raise cur =>
    simp only [resolveStep]
    split_ifs with hc
    · exact Or.inl (hc.trans hk.2)
    · exact Or.inr ⟨.raise t.highestAcked, rfl, trivial⟩
    · exact Or.inl le_rfl
  | _ => exact hp.elim

lemma resolveStep_advances {r : DlsnTracker × Option ResolvePc} (h : resolveStep t d oc weak pc = r)
    (hi : Inv L t) (hk : ResolveOk L t d oc pc) (hp : pc.Advances t.frontier k)
    (hF : t.frontier < k) (hF' : r.1.frontier < k)
    (hc : pc = .complete ∨ ∀ j, L < j → j ≤ k → j ∈ t.tracker.completed) :
    ∃ pc', r.2 = some pc' ∧ pc'.Advances r.1.frontier k := by
  subst h
  have hL := hi.login_le_frontier
  cases pc with
  | complete =>
    simp only [resolveStep]
    split_ifs <;> exact ⟨_, rfl, trivial⟩
  | raiseLoad | advLoad => exact ⟨_, rfl, trivial⟩
  | raise cur =>
    simp only [resolveStep]
    split_ifs <;> exact ⟨_, rfl, trivial⟩
  | advIssued f =>
    have hm := hc.resolve_left (by simp) k (by omega) le_rfl
    have hn := (hi.issued_of_completed hm).2
    exact ⟨.advScan f t.issued, rfl, by simp only [ResolvePc.Advances, DlsnTracker.issued]; omega⟩
  | advScan f issued =>
    have hle : k ≤ t.tracker.completedUpto (f + 1) := by
      refine t.tracker.le_completedUpto fun j hj hjk => ?_
      exact hc.resolve_left (by simp) j (by linarith [hk.1]) hjk
    have hnf : k ≤ min (t.tracker.completedUpto (f + 1)) issued := le_min hle hp
    have hf := hk.2.1
    refine ⟨.advCas f (min (t.tracker.completedUpto (f + 1)) issued), ?_, Or.inl hnf⟩
    simp only [resolveStep]
    rw [if_neg (by omega)]
  | advCas f nf =>
    simp only [resolveStep] at hF' ⊢
    split_ifs at hF' ⊢ with hw
    · exact ⟨_, rfl, trivial⟩
    · rcases hp with hp | hp
      · simp only at hF'
        omega
      · tauto
  | _ => exact hp.elim

end Step

def Thread.Quiet : Thread → Prop
  | .resolve .. => False
  | _ => True

structure SameDebts (t t' : DlsnTracker) : Prop where
  frontier : t'.frontier = t.frontier
  acked : t'.highestAcked = t.highestAcked
  completed : t'.tracker.completed = t.tracker.completed
  outcome : ∀ e oc, isResolved oc = true → t'.outcome e = some oc → t.outcome e = some oc

lemma SameDebts.refl (t : DlsnTracker) : SameDebts t t := ⟨rfl, rfl, rfl, fun _ _ _ h => h⟩

lemma startCall_sameDebts {c : Call} (hs : startCall t c = some (t', th)) : SameDebts t t' := by
  cases c with
  | reserve addr len =>
    cases hs
    exact ⟨rfl, rfl, rfl, fun _ _ _ h => h⟩
  | resolve d oc =>
    simp only [startCall] at hs
    split_ifs at hs
    cases hs
    exact .refl t
  | retireUpto upto empties =>
    cases hs
    exact .refl t

lemma threadStep_sameDebts (hq : th.Quiet) (hs : threadStep t weak th = some (t', th')) :
    SameDebts t t' := by
  cases th with
  | idle => cases hs
  | create d addr len =>
    cases hs
    refine ⟨rfl, rfl, rfl, fun e oc hr ho => ?_⟩
    simp only [DlsnTracker.outcome, StreamTracker.create_data] at ho
    split_ifs at ho with he
    · cases ho
      cases hr
    · exact ho
  | resolve => exact hq.elim
  | _ =>
    cases hs
    exact .refl t

lemma threadStep_resolve {pc : ResolvePc} {ret : Option RetireFrame}
    (hs : threadStep t weak (.resolve d oc pc ret) = some (t', th')) :
    ∃ r, resolveStep t d oc weak pc = r ∧ t' = r.1 ∧
      ∀ pc', r.2 = some pc' → th' = .resolve d oc pc' ret := by
  simp only [threadStep] at hs
  refine ⟨_, rfl, ?_⟩
  split at hs <;> rename_i hr <;> cases hs <;> simp [hr]

variable [DecidableEq ι] {s s' : Sys ι}

lemma Pending.of_sameDebts {i : ι} (h : Pending L s) (hd : SameDebts s.trk s'.trk)
    (hq : (s.threads i).Quiet) (hth : s'.threads = Function.update s.threads i th) :
    Pending L s' := by
  have keep : ∀ j d oc pc ret, s.threads j = .resolve d oc pc ret →
      s'.threads j = .resolve d oc pc ret := by
    intro j d oc pc ret hj
    have hne : j ≠ i := by
      rintro rfl
      rw [hj] at hq
      exact hq
    rw [hth, Function.update_of_ne hne, hj]
  refine ⟨fun d hr => ?_, fun d ho => ?_, fun k hk hc => ?_⟩
  · obtain ⟨oc, ho, hoc⟩ := hr
    rw [hd.completed]
    refine (h.marked d ⟨oc, hd.outcome d oc hoc ho, hoc⟩).imp_right ?_
    rintro ⟨j, oc, ret, hj⟩
    exact ⟨j, oc, ret, keep _ _ _ _ _ hj⟩
  · rw [hd.acked]
    refine (h.raised d (hd.outcome d _ rfl ho)).imp_right ?_
    rintro ⟨j, pc, ret, hj, hp⟩
    exact ⟨j, pc, ret, keep _ _ _ _ _ hj, hp⟩
  · rw [hd.frontier] at hk ⊢
    rw [hd.completed] at hc
    obtain ⟨j, d, oc, pc, ret, hj, hp⟩ := h.advanced k hk hc
    exact ⟨j, d, oc, pc, ret, keep _ _ _ _ _ hj, hp⟩

lemma ResolvePc.Advances.mono {pc : ResolvePc} (hk : ResolveOk L t d oc pc)
    (he : Evolves t t') (hp : pc.Advances t.frontier k) : pc.Advances t'.frontier k := by
  cases pc with
  | advCas f nf =>
    have hf := hk.1
    have hF := he.frontier
    rcases hp with hp | hp
    · exact Or.inl hp
    · exact Or.inr (by omega)
  | _ => exact hp

lemma Pending.resolve {i : ι} {pc : ResolvePc} {ret : Option RetireFrame} (hi : SysInv L s)
    (h : Pending L s) (hpc : s.threads i = .resolve d oc pc ret) (he : Evolves s.trk s'.trk)
    (hs : threadStep s.trk weak (s.threads i) = some (s'.trk, th))
    (hth : s'.threads = Function.update s.threads i th) : Pending L s' := by
  rw [hpc] at hs
  obtain ⟨r, hr, ht', hnext⟩ := threadStep_resolve hs
  have hok : ∀ j d oc pc ret, s.threads j = .resolve d oc pc ret → ResolveOk L s.trk d oc pc := by
    intro j d oc pc ret hj
    have hk := hi.threads j
    rw [hj] at hk
    exact hk.2
  have self : s'.threads i = th := by simp [hth]
  have other : ∀ j, j ≠ i → s'.threads j = s.threads j := by
    intro j hj
    rw [hth, Function.update_of_ne hj]
  refine ⟨fun e hres => ?_, fun e ho => ?_, fun k hk hc => ?_⟩
  · rw [ht'] at hres
    rcases resolveStep_marked hr hres with hres | ⟨rfl, -, -, hcomp⟩
    · rcases h.marked e hres with hm | ⟨j, oc', ret', hj⟩
      · exact Or.inl (he.completed hm)
      · by_cases hji : j = i
        · subst hji
          rw [hpc] at hj
          cases hj
          left
          subst hr
          simp [ht', resolveStep, DlsnTracker.setCompleted]
        · exact Or.inr ⟨j, oc', ret', by rw [other j hji, hj]⟩
    · exact Or.inr ⟨i, oc, ret, by rw [self, hnext _ hcomp]⟩
  · rw [ht'] at ho
    rcases resolveStep_acked hr ho with ho | ⟨rfl, rfl, hcomp⟩
    · rcases h.raised e ho with hle | ⟨j, pc', ret', hj, hp⟩
      · exact Or.inl (hle.trans he.acked)
      · by_cases hji : j = i
        · subst hji
          have hk := hok j _ _ _ _ hj
          rw [hpc] at hj
          cases hj
          rw [ht']
          refine (resolveStep_raises hr hp hk).imp_right ?_
          rintro ⟨pc', hpc', hp'⟩
          exact ⟨j, pc', ret, by rw [self, hnext _ hpc'], hp'⟩
        · exact Or.inr ⟨j, pc', ret', by rw [other j hji, hj], hp⟩
    · exact Or.inr ⟨i, .complete, ret, by rw [self, hnext _ hcomp], trivial⟩
  · have hF : s.trk.frontier < k := he.frontier.trans_lt hk
    -- whoever owed the advance before still does; a new completion bit is the doing of its thread
    have old : (∃ j d oc pc ret, s.threads j = .resolve d oc pc ret ∧ pc.Advances s.trk.frontier k ∧
        (j = i → pc = .complete ∨ ∀ j, L < j → j ≤ k → j ∈ s.trk.tracker.completed)) := by
      rcases resolveStep_completed hr with hcomp | ⟨hpc', hcomp⟩
      · rw [ht', hcomp] at hc
        obtain ⟨j, d', oc', pc', ret', hj, hp⟩ := h.advanced k hF hc
        exact ⟨j, d', oc', pc', ret', hj, hp, fun _ => Or.inr hc⟩
      · rcases hpc' with rfl | rfl
        · exact ⟨i, d, oc, .complete, ret, hpc, trivial, fun _ => Or.inl rfl⟩
        · rcases h.marked d (hok i d oc .recomplete ret hpc) with hm | ⟨j, oc', ret', hj⟩
          · rw [ht', hcomp, Finset.insert_eq_of_mem hm] at hc
            obtain ⟨j, d', oc', pc', ret', hj, hp⟩ := h.advanced k hF hc
            exact ⟨j, d', oc', pc', ret', hj, hp, fun _ => Or.inr hc⟩
          · exact ⟨j, d, oc', .complete, ret', hj, trivial, fun _ => Or.inl rfl⟩
    obtain ⟨j, d', oc', pc', ret', hj, hp, hself⟩ := old
    by_cases hji : j = i
    · subst hji
      have hk' := hok j _ _ _ _ hj
      have hcomp := hself rfl
      rw [hpc] at hj
      cases hj
      rw [ht'] at hk
      obtain ⟨pc'', hpc'', hp''⟩ := resolveStep_advances hr hi.trk hk' hp hF hk hcomp
      exact ⟨j, d, oc, pc'', ret, by rw [self, hnext _ hpc''], ht' ▸ hp''⟩
    · exact ⟨j, d', oc', pc', ret', by rw [other j hji, hj], hp.mono (hok j _ _ _ _ hj) he⟩

variable [Fintype ι] {a : Act ι}

lemma Pending.step (hi : SysInv L s) (h : Pending L s) (hf : a.Fresh s)
    (hs : step busy s a = some s') : Pending L s' := by
  have he := (hi.step hf hs).2
  rcases step_cases hs with ⟨i, c, th, rfl, hidle, hc, hth, -⟩ | ⟨i, weak, th, rfl, hc, -, hth, -⟩
  · exact h.of_sameDebts (startCall_sameDebts hc) (by rw [hidle]; trivial) hth
  · by_cases hq : (s.threads i).Quiet
    · exact h.of_sameDebts (threadStep_sameDebts hq hc) hq hth
    · cases hpc : s.threads i with
      | resolve d oc pc ret => exact h.resolve hi hpc he hc hth
      | _ => exact absurd (by rw [hpc]; trivial) hq

end CraftClient.Tracker
