import CraftClient.Tracker.Frontier
import CraftClient.Tracker.PlanSafety

namespace CraftClient.Tracker

variable {Q : ℤ → Prop} {resolved : Finset ℤ} {t t' : DlsnTracker} {d e : ℤ} {oc : SlotOutcome}
  {weak busy : Bool} {th th' : Thread} {ι κ : Type}

def Thread.resolving : Thread → Option ℤ
  | .resolve d _ _ _ => some d
  | _ => none

/-- The thread reserves, or resolves a slot that nobody else does; it acks only slots that have `Q`. -/
def OnceOk (Q : ℤ → Prop) (resolved : Finset ℤ) (t : DlsnTracker) : Thread → Prop
  | .idle | .create _ _ _ => True
  | .resolve d oc pc ret =>
    ret = none ∧ d ∈ resolved ∧ (oc = .acked → Q d) ∧ (pc = .load ∨ pc = .store → ¬ t.Resolved d)
  | _ => False

lemma OnceOk.storesFresh (h : OnceOk Q resolved t th) : StoresFresh t th := by
  cases th with
  | resolve d oc pc ret =>
    cases pc with
    | store => exact h.2.2.2 (Or.inr rfl)
    | _ => trivial
  | _ => trivial

lemma OnceOk.raisesFirst (h : OnceOk Q resolved t th) : RaisesFirst t th := by
  cases th with
  | resolve d oc pc ret =>
    cases oc with
    | acked =>
      cases pc with
      | load => exact fun ho => absurd ⟨_, ho, rfl⟩ (h.2.2.2 (Or.inl rfl))
      | _ => trivial
    | _ => trivial
  | _ => trivial

lemma OnceOk.mem_resolved (h : OnceOk Q resolved t th) (hd : th.resolving = some d) : d ∈ resolved := by
  cases th with
  | resolve e oc pc ret =>
    cases hd
    exact h.2.1
  | _ => cases hd

lemma OnceOk.mono {Q' : ℤ → Prop} {resolved' : Finset ℤ} (h : OnceOk Q resolved t th)
    (hQ : ∀ d, Q d → Q' d) (hr : resolved ⊆ resolved')
    (ht : ∀ d, th.resolving = some d → t'.Resolved d → t.Resolved d) : OnceOk Q' resolved' t' th := by
  cases th with
  | resolve d oc pc ret =>
    exact ⟨h.1, hr h.2.1, fun ho => hQ d (h.2.2.1 ho), fun hpc hd => h.2.2.2 hpc (ht d rfl hd)⟩
  | idle | create => trivial
  | _ => exact h.elim

lemma resolveStep_load_or_store {pc pc' : ResolvePc} (h : (resolveStep t d oc weak pc).2 = some pc')
    (hpc : pc' = .load ∨ pc' = .store) : pc = .load ∧ (resolveStep t d oc weak pc).1 = t := by
  rcases hpc with rfl | rfl
  all_goals
    cases pc with
    | load =>
      refine ⟨rfl, ?_⟩
      simp only [resolveStep]
      split <;> rfl
    | store | complete | advScan | truncLoad | signal =>
      simp only [resolveStep] at h
      split_ifs at h <;> cases h
    | raise | advCas | truncCas =>
      simp only [resolveStep] at h
      split_ifs at h <;> cases h
    | _ => cases h

lemma threadStep_once (h : OnceOk Q resolved t th) (hs : threadStep t weak th = some (t', th')) :
    OnceOk Q resolved t' th' ∧ (∀ e, t'.Resolved e → t.Resolved e ∨ th.resolving = some e) ∧
      (∀ e, t'.outcome e = some .acked → t.outcome e = some .acked ∨ Q e) ∧
      (th'.resolving = none ∨ th'.resolving = th.resolving) := by
  cases th with
  | idle => cases hs
  | create d addr len =>
    cases hs
    have ho : ∀ e oc, isResolved oc = true →
        ({ t with tracker := t.tracker.create d ⟨addr, len, .inFlight⟩ } : DlsnTracker).outcome e = some oc →
        t.outcome e = some oc := by
      intro e oc hoc he
      simp only [DlsnTracker.outcome, StreamTracker.create_data] at he
      split_ifs at he
      · cases he
        cases hoc
      · exact he
    refine ⟨trivial, ?_, fun e he => Or.inl (ho e .acked rfl he), Or.inl rfl⟩
    rintro e ⟨oc, he, hoc⟩
    exact Or.inl ⟨oc, ho e oc hoc he, hoc⟩
  | resolve d oc pc ret =>
    obtain ⟨rfl, hd, hQ, hpc⟩ := h
    refine ⟨?_, ?_, ?_, ?_⟩
    · simp only [threadStep] at hs
      split at hs <;> rename_i hr <;> cases hs
      · refine ⟨rfl, hd, hQ, fun hpc' => ?_⟩
        obtain ⟨hload, ht⟩ := resolveStep_load_or_store (congrArg Prod.snd hr) hpc'
        obtain rfl : t' = t := by rwa [hr] at ht
        exact hpc (Or.inl hload)
      · trivial
    · obtain ⟨r, hr, rfl, -⟩ := threadStep_resolve hs
      intro e he
      rcases resolveStep_marked hr he with he | ⟨rfl, -⟩
      · exact Or.inl he
      · exact Or.inr rfl
    · obtain ⟨r, hr, rfl, -⟩ := threadStep_resolve hs
      intro e he
      rcases resolveStep_acked hr he with he | ⟨rfl, rfl, -⟩
      · exact Or.inl he
      · exact Or.inr (hQ rfl)
    · simp only [threadStep] at hs
      split at hs <;> cases hs
      · exact Or.inr rfl
      · exact Or.inl rfl
  | _ => exact h.elim

structure OnceInv (Q : ℤ → Prop) (resolved : Finset ℤ) (s : Sys ι) : Prop where
  threads : ∀ i, OnceOk Q resolved s.trk (s.threads i)
  unique : ∀ i j d, (s.threads i).resolving = some d → (s.threads j).resolving = some d → i = j
  pending : ∀ d, d ∉ resolved → ¬ s.trk.Resolved d
  acked : ∀ d, s.trk.outcome d = some .acked → Q d

namespace OnceInv

variable {s s' : Sys ι}

lemma mono {Q' : ℤ → Prop} (h : OnceInv Q resolved s) (hQ : ∀ d, Q d → Q' d) : OnceInv Q' resolved s where
  threads i := (h.threads i).mono hQ subset_rfl fun _ _ => id
  unique := h.unique
  pending := h.pending
  acked d hd := hQ d (h.acked d hd)

lemma of_outcome (h : OnceInv Q resolved s) (hth : s'.threads = s.threads)
    (ho : s'.trk.outcome = s.trk.outcome) : OnceInv Q resolved s' := by
  have hr : ∀ d, s'.trk.Resolved d ↔ s.trk.Resolved d := fun d => by
    simp only [DlsnTracker.Resolved, ho]
  refine ⟨fun i => ?_, ?_, fun d hd => ?_, fun d hd => ?_⟩
  · rw [hth]
    exact (h.threads i).mono (fun _ => id) subset_rfl fun d _ => (hr d).mp
  · rw [hth]
    exact h.unique
  · rw [hr]
    exact h.pending d hd
  · exact h.acked d (ho ▸ hd)

variable [DecidableEq ι]

lemma of_move {i : ι} {resolved' : Finset ℤ} (h : OnceInv Q resolved s) (hsub : resolved ⊆ resolved')
    (hth : s'.threads = Function.update s.threads i th) (hk : OnceOk Q resolved' s'.trk th)
    (hr : ∀ e, s'.trk.Resolved e → s.trk.Resolved e ∨ (s.threads i).resolving = some e)
    (ha : ∀ e, s'.trk.outcome e = some .acked → s.trk.outcome e = some .acked ∨ Q e)
    (hown : ∀ d, th.resolving = some d → d ∉ resolved ∨ (s.threads i).resolving = some d) :
    OnceInv Q resolved' s' := by
  have hne : ∀ j d, j ≠ i → (s.threads j).resolving = some d → th.resolving ≠ some d := by
    intro j d hji hj hd
    rcases hown d hd with hd | hd
    · exact hd ((h.threads j).mem_resolved hj)
    · exact hji (h.unique j i d hj hd)
  refine ⟨fun j => ?_, fun j k d hj hk' => ?_, fun d hd hres => ?_, fun d hd => ?_⟩
  · rw [hth, Function.update_apply]
    split_ifs with hji
    · exact hk
    · refine (h.threads j).mono (fun _ => id) hsub fun d hj hd => (hr d hd).resolve_right fun hi => ?_
      exact hji (h.unique j i d hj hi)
  · rw [hth, Function.update_apply] at hj hk'
    split_ifs at hj hk' with hji hki hki
    · rw [hji, hki]
    · exact absurd hj (hne k d hki hk')
    · exact absurd hk' (hne j d hji hj)
    · exact h.unique j k d hj hk'
  · rcases hr d hres with hres | hi
    · exact h.pending d (fun hm => hd (hsub hm)) hres
    · exact hd (hsub ((h.threads i).mem_resolved hi))
  · exact (ha d hd).elim (h.acked d) id

variable [Fintype ι]

lemma go {i : ι} (h : OnceInv Q resolved s) (hs : step busy s (.go i weak) = some s') :
    OnceInv Q resolved s' := by
  rcases step_cases hs with ⟨j, c, th, ⟨⟩, -⟩ | ⟨j, w, th, heq, hc, -, hth, -⟩
  cases heq
  obtain ⟨hk, hr, ha, hown⟩ := threadStep_once (h.threads i) hc
  refine h.of_move subset_rfl hth hk hr ha fun d hd => ?_
  rcases hown with hn | heq
  · rw [hn] at hd
    cases hd
  · exact Or.inr (heq ▸ hd)

lemma reserve {i : ι} {addr len : UInt64} (h : OnceInv Q resolved s)
    (hs : step busy s (.call i (.reserve addr len)) = some s') : OnceInv Q resolved s' := by
  rcases step_cases hs with ⟨j, c, th, heq, -, hc, hth, -⟩ | ⟨j, w, th, ⟨⟩, -⟩
  cases heq
  simp only [startCall, Option.some.injEq, Prod.mk.injEq] at hc
  obtain ⟨htrk, rfl⟩ := hc
  have ho : s'.trk.outcome = s.trk.outcome := by
    rw [← htrk]
    rfl
  refine h.of_move subset_rfl hth trivial (fun e he => Or.inl ?_) (fun e he => Or.inl (ho ▸ he)) (by rintro d ⟨⟩)
  simpa only [DlsnTracker.Resolved, ho] using he

lemma resolve {i : ι} (h : OnceInv Q resolved s) (hd : d ∉ resolved) (hQ : oc = .acked → Q d)
    (hs : step busy s (.call i (.resolve d oc)) = some s') : OnceInv Q (insert d resolved) s' := by
  rcases step_cases hs with ⟨j, c, th, heq, -, hc, hth, -⟩ | ⟨j, w, th, ⟨⟩, -⟩
  cases heq
  simp only [startCall] at hc
  split_ifs at hc
  simp only [Option.some.injEq, Prod.mk.injEq] at hc
  obtain ⟨htrk, rfl⟩ := hc
  apply h.of_move (Finset.subset_insert d resolved) hth
  · rw [← htrk]
    exact ⟨rfl, Finset.mem_insert_self d resolved, hQ, fun _ => h.pending d hd⟩
  · rw [← htrk]
    exact fun e => Or.inl
  · rw [← htrk]
    exact fun e => Or.inl
  · rintro d ⟨⟩
    exact Or.inl hd

variable [DecidableEq κ] [Fintype κ] {p p' : PlanSys ι κ} {k : κ}

lemma planRead (h : OnceInv Q resolved p.sys) (hs : planSysStep p (.read k) = some p') :
    OnceInv Q resolved p'.sys ∧ ∀ j r', p'.reads j = some r' →
      ∃ r, p.reads j = some r ∧ r.toPlanCall = r'.toPlanCall := by
  simp only [planSysStep] at hs
  obtain ⟨r, hr, hs⟩ := Option.bind_eq_some_iff.mp hs
  obtain ⟨⟨u, pc⟩, hpc, hs⟩ := Option.bind_eq_some_iff.mp hs
  cases hs
  constructor
  · refine h.of_outcome ?_ ?_
    · rfl
    · change u.outcome = p.sys.trk.outcome
      rw [planStep_touches hpc]
      rfl
  · intro j r' hr'
    simp only [Function.update_apply] at hr'
    split_ifs at hr' with hj
    · cases hr'
      exact ⟨r, hj ▸ hr, rfl⟩
    · exact ⟨r', hr', rfl⟩

end OnceInv

lemma PlanInv.evolves [DecidableEq ι] [Fintype ι] [DecidableEq κ] [Fintype κ] {L : ℤ} {p p' : PlanSys ι κ}
    {a : PlanAct ι κ} (h : PlanInv L p) (hok : a.Ok p) (hs : planSysStep p a = some p') :
    Evolves p.sys.trk p'.sys.trk := by
  cases a with
  | write a =>
    obtain ⟨u, hu, rfl⟩ := Option.map_eq_some_iff.mp hs
    refine (h.sys.step ?_ hu).2
    cases a with
    | call => trivial
    | go => exact hok.1
  | planRead k addr len =>
    simp only [planSysStep] at hs
    split_ifs at hs
    cases hs
    exact .refl _
  | read k =>
    simp only [planSysStep] at hs
    obtain ⟨r, hr, hs⟩ := Option.bind_eq_some_iff.mp hs
    obtain ⟨⟨u, pc⟩, hpc, hs⟩ := Option.bind_eq_some_iff.mp hs
    cases hs
    exact (planStep_touches hpc).evolves

lemma onceInv_start (maxInflight lbaSize : UInt32) (L : ℤ) :
    OnceInv Q ∅ (Sys.start (resetAt maxInflight L lbaSize) : Sys ι) where
  threads _ := trivial
  unique := nofun
  pending := by
    rintro d - ⟨oc, ho, -⟩
    cases ho
  acked := nofun

end CraftClient.Tracker
