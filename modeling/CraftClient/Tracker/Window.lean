import CraftClient.Tracker.Plan

namespace CraftClient.Tracker

variable {t t' : DlsnTracker} {d : ℤ} {oc : SlotOutcome} {weak busy : Bool} {th th' : Thread} {ι : Type}

structure Window (t : DlsnTracker) : Prop where
  base_le : t.tracker.base ≤ t.frontier + 1
  created : ∀ d ∈ t.tracker.completed, (t.tracker.data d).isSome
  issued : ∀ d, (t.tracker.data d).isSome → d < t.nextDlsn

lemma window_resetAt (maxInflight : UInt32) (L : ℤ) (lbaSize : UInt32) :
    Window (resetAt maxInflight L lbaSize) := by
  constructor <;> simp [resetAt, StreamTracker.emplace]

structure Grows (t t' : DlsnTracker) : Prop where
  next : t.nextDlsn ≤ t'.nextDlsn
  frontier : t.frontier ≤ t'.frontier
  isSome : ∀ d, (t.tracker.data d).isSome → (t'.tracker.data d).isSome

lemma Grows.refl (t : DlsnTracker) : Grows t t := ⟨le_rfl, le_rfl, fun _ h => h⟩

def ResolvePc.Bounded (t : DlsnTracker) : ResolvePc → Prop
  | .advCas f nf => f ≤ nf
  | .truncLoad nf | .truncCas nf _ | .truncate nf => nf ≤ t.frontier
  | _ => True

def Thread.Bounded (t : DlsnTracker) : Thread → Prop
  | .create d _ _ => d < t.nextDlsn ∧ t.tracker.data d = none
  | .resolve d _ pc _ => (t.tracker.data d).isSome ∧ pc.Bounded t
  | .retireFill _ u => (t.tracker.data u).isSome
  | _ => True

lemma ResolvePc.Bounded.mono {pc : ResolvePc} (hg : Grows t t') (h : pc.Bounded t) : pc.Bounded t' := by
  cases pc with
  | truncLoad | truncCas | truncate => exact le_trans h hg.frontier
  | _ => exact h

lemma Thread.Bounded.mono (hg : Grows t t') (h : th.Bounded t)
    (hc : ∀ d, th.creating = some d → t'.tracker.data d = none) : th.Bounded t' := by
  cases th with
  | create d => exact ⟨h.1.trans_le hg.next, hc d rfl⟩
  | resolve => exact ⟨hg.isSome _ h.1, h.2.mono hg⟩
  | retireFill => exact hg.isSome _ h
  | _ => trivial

lemma isSome_setOutcome (t : DlsnTracker) (d e : ℤ) (oc : SlotOutcome) :
    ((t.setOutcome d oc).tracker.data e).isSome = (t.tracker.data e).isSome := by
  simp only [DlsnTracker.setOutcome, StreamTracker.modify_data]
  split_ifs with he
  · simp [he]
  · rfl

lemma Window.setOutcome (h : Window t) : Window (t.setOutcome d oc) where
  base_le := h.base_le
  created e he := by
    rw [isSome_setOutcome]
    exact h.created e he
  issued e he := by
    rw [isSome_setOutcome] at he
    exact h.issued e he

lemma Window.setCompleted (h : Window t) (hd : (t.tracker.data d).isSome) : Window (t.setCompleted d) where
  base_le := h.base_le
  created e he := by
    rcases (t.tracker.mem_complete d e).mp he with rfl | he
    · exact hd
    · exact h.created e he
  issued := h.issued

lemma resolveStep_window {pc : ResolvePc} (oc : SlotOutcome) (weak : Bool) (h : Window t)
    (hd : (t.tracker.data d).isSome) (hp : pc.Bounded t) :
    Window (resolveStep t d oc weak pc).1 ∧ Grows t (resolveStep t d oc weak pc).1 ∧
      ∀ pc', (resolveStep t d oc weak pc).2 = some pc' → pc'.Bounded (resolveStep t d oc weak pc).1 := by
  cases pc with
  | load =>
    simp only [resolveStep]
    split
    · exact ⟨h, .refl t, by rintro pc' ⟨⟩; trivial⟩
    · refine ⟨h, .refl t, ?_⟩
      rintro pc' ⟨⟩
      split_ifs <;> trivial
  | store =>
    refine ⟨h.setOutcome, ⟨le_rfl, le_rfl, fun e he => by rwa [resolveStep, isSome_setOutcome]⟩, ?_⟩
    rintro pc' ⟨⟩
    split_ifs <;> trivial
  | complete =>
    refine ⟨h.setCompleted hd, ⟨le_rfl, le_rfl, fun _ he => he⟩, ?_⟩
    rintro pc' ⟨⟩
    split_ifs <;> trivial
  | recomplete =>
    exact ⟨h.setCompleted hd, ⟨le_rfl, le_rfl, fun _ he => he⟩, by rintro pc' ⟨⟩; trivial⟩
  | raise =>
    simp only [resolveStep]
    split_ifs
    · exact ⟨h, .refl t, by rintro pc' ⟨⟩; trivial⟩
    · exact ⟨h, .refl t, by rintro pc' ⟨⟩; trivial⟩
    · exact ⟨{ h with }, { Grows.refl t with }, by rintro pc' ⟨⟩; trivial⟩
  | advScan f issued =>
    refine ⟨h, .refl t, ?_⟩
    rintro pc' ⟨⟩
    split_ifs with hn
    · trivial
    · exact (not_le.mp hn).le
  | advCas f nf =>
    simp only [resolveStep]
    split_ifs with hw
    · exact ⟨h, .refl t, by rintro pc' ⟨⟩; trivial⟩
    · obtain rfl : t.frontier = f := by tauto
      have hle : t.frontier ≤ nf := hp
      refine ⟨{ h with base_le := h.base_le.trans (by simpa using hle) },
        { Grows.refl t with frontier := hle }, ?_⟩
      rintro pc' ⟨⟩
      exact le_rfl
  | truncLoad nf =>
    refine ⟨h, .refl t, ?_⟩
    rintro pc' ⟨⟩
    split_ifs
    · exact hp
    · trivial
  | truncCas nf lt =>
    simp only [resolveStep]
    split_ifs
    · exact ⟨{ h with }, { Grows.refl t with }, by rintro pc' ⟨⟩; exact hp⟩
    · exact ⟨h, .refl t, by rintro pc' ⟨⟩; trivial⟩
  | truncate nf =>
    have hle : nf ≤ t.frontier := hp
    refine ⟨{ h with base_le := max_le h.base_le ?_ }, { Grows.refl t with }, by rintro pc' ⟨⟩; trivial⟩
    exact Int.add_le_add_right hle 1
  | signal =>
    refine ⟨h, .refl t, ?_⟩
    simp only [resolveStep]
    split_ifs
    · rintro pc' ⟨⟩
    · rintro pc' ⟨⟩
      trivial
  | fire => exact ⟨{ h with }, { Grows.refl t with }, by rintro pc' ⟨⟩⟩
  | raiseLoad | advLoad | advIssued => exact ⟨h, .refl t, by rintro pc' ⟨⟩; trivial⟩

lemma Window.create (h : Window t) (hn : d < t.nextDlsn) (s : DlsnSlot) :
    Window { t with tracker := t.tracker.create d s } ∧
      Grows t { t with tracker := t.tracker.create d s } := by
  have hsome : ∀ e, (t.tracker.data e).isSome → ((t.tracker.create d s).data e).isSome := by
    intro e he
    rw [StreamTracker.create_data]
    split_ifs
    · rfl
    · exact he
  refine ⟨⟨h.base_le, fun e he => hsome e (h.created e he), fun e he => ?_⟩, ⟨le_rfl, le_rfl, hsome⟩⟩
  simp only [StreamTracker.create_data] at he
  split_ifs at he with hed
  · exact hed ▸ hn
  · exact h.issued e he

lemma threadStep_window (h : Window t) (hb : th.Bounded t) (hs : threadStep t weak th = some (t', th')) :
    Window t' ∧ Grows t t' ∧ th'.Bounded t' := by
  cases th with
  | idle => cases hs
  | create d addr len =>
    cases hs
    obtain ⟨hw, hg⟩ := h.create hb.1 ⟨addr, len, .inFlight⟩
    exact ⟨hw, hg, trivial⟩
  | resolve d oc pc ret =>
    have hspec := resolveStep_window oc weak h hb.1 hb.2
    simp only [threadStep] at hs
    rcases hr : resolveStep t d oc weak pc with ⟨u, _ | pc'⟩ <;> rw [hr] at hs hspec <;> cases hs
    · refine ⟨hspec.1, hspec.2.1, ?_⟩
      cases ret <;> trivial
    · exact ⟨hspec.1, hspec.2.1, hspec.2.1.isSome d hb.1, hspec.2.2 pc' rfl⟩
  | retireHi | retireFrom =>
    cases hs
    exact ⟨h, .refl t, trivial⟩
  | retireScan fr =>
    cases hs
    refine ⟨h, .refl t, ?_⟩
    split_ifs <;> trivial
  | retireVisit fr u =>
    cases hs
    refine ⟨h, .refl t, ?_⟩
    split_ifs with hn hm
    · trivial
    · exact ⟨StreamTracker.isSome_of_find hn, trivial⟩
    · exact StreamTracker.isSome_of_find hn
  | retireFill fr u =>
    cases hs
    exact ⟨h, .refl t, hb, trivial⟩

structure WindowSys (s : Sys ι) : Prop where
  trk : Window s.trk
  threads : ∀ i, (s.threads i).Bounded s.trk
  creating_inj : ∀ i j d, (s.threads i).creating = some d → (s.threads j).creating = some d → i = j

lemma windowSys_start (maxInflight : UInt32) (L : ℤ) (lbaSize : UInt32) :
    WindowSys (Sys.start (resetAt maxInflight L lbaSize) : Sys ι) :=
  ⟨window_resetAt maxInflight L lbaSize, fun _ => trivial, by rintro i j d ⟨⟩⟩

lemma startCall_window {c : Call} (h : Window t) (hs : startCall t c = some (t', th)) :
    Window t' ∧ Grows t t' ∧ th.Bounded t' ∧ t'.tracker = t.tracker ∧
      ∀ d, th.creating = some d → d = t.nextDlsn := by
  cases c with
  | reserve addr len =>
    cases hs
    have hnone : t.tracker.data t.nextDlsn = none := by
      by_contra hne
      exact lt_irrefl _ (h.issued _ (Option.isSome_iff_ne_none.mpr hne))
    refine ⟨{ h with issued := fun d hd => (h.issued d hd).trans (by simp) },
      { Grows.refl t with next := by simp }, ⟨by simp, hnone⟩, rfl, ?_⟩
    rintro d ⟨⟩
    rfl
  | resolve d oc =>
    simp only [startCall] at hs
    split_ifs at hs with hd
    cases hs
    exact ⟨h, .refl t, ⟨hd, trivial⟩, rfl, by rintro d ⟨⟩⟩
  | retireUpto upto empties =>
    cases hs
    exact ⟨h, .refl t, trivial, rfl, by rintro d ⟨⟩⟩

variable [DecidableEq ι] {s s' : Sys ι} {a : Act ι}

lemma WindowSys.of_move {i : ι} (h : WindowSys s) (hw : Window s'.trk) (hg : Grows s.trk s'.trk)
    (hth : s'.threads = Function.update s.threads i th) (hb : th.Bounded s'.trk)
    (hn : ∀ j, j ≠ i → ∀ d, (s.threads j).creating = some d → s'.trk.tracker.data d = none)
    (hc : ∀ j d, th.creating = some d → (s.threads j).creating ≠ some d) : WindowSys s' := by
  have hthreads : ∀ j, (s'.threads j).Bounded s'.trk := by
    rw [hth]
    exact (Function.forall_update_iff s.threads fun _ th => th.Bounded s'.trk).mpr
      ⟨hb, fun j hj => (h.threads j).mono hg (hn j hj)⟩
  exact ⟨hw, hthreads, hth ▸ creating_inj_update h.creating_inj hc⟩

omit [DecidableEq ι] in
lemma WindowSys.creating_none (h : WindowSys s) {j : ι} (hj : (s.threads j).creating = some d) :
    s.trk.tracker.data d = none ∧ d < s.trk.nextDlsn := by
  have hk := h.threads j
  cases hth : s.threads j with
  | create d' addr len =>
    rw [hth] at hj hk
    cases hj
    exact ⟨hk.2, hk.1⟩
  | _ => rw [hth] at hj; cases hj

variable [Fintype ι]

lemma WindowSys.step (h : WindowSys s) (hs : step busy s a = some s') : WindowSys s' := by
  rcases step_cases hs with ⟨i, c, th, rfl, -, hc, hth, -⟩ | ⟨i, weak, th, rfl, hc, -, hth, -⟩
  · obtain ⟨hw, hg, hb, htr, hcr⟩ := startCall_window h.trk hc
    refine h.of_move hw hg hth hb (fun j _ d hj => htr ▸ (h.creating_none hj).1) ?_
    intro j d hd hj
    have hlt := (h.creating_none hj).2
    rw [hcr d hd] at hlt
    exact lt_irrefl _ hlt
  · obtain ⟨hw, hg, hb⟩ := threadStep_window h.trk (h.threads i) hc
    refine h.of_move hw hg hth hb (fun j hji d hj => ?_) ?_
    · exact threadStep_data_none hc (h.creating_none hj).1 fun hcr => hji (h.creating_inj j i d hj hcr)
    · intro j d hd
      rw [threadStep_not_creating hc] at hd
      cases hd

end CraftClient.Tracker
