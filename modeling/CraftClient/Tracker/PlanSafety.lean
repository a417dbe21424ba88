import CraftClient.Tracker.Acknowledged
import CraftClient.Tracker.PlanSteps

namespace CraftClient.Tracker

open Runs

variable {L : ℤ} {t t' : DlsnTracker} {d : ℤ} {weak busy : Bool} {th th' : Thread}

lemma Geometry.of_evolves (he : Evolves t t') (h : Geometry t)
    (hn : ∀ d, t.tracker.data d = none → t'.tracker.data d = none) : Geometry t' := by
  intro d s' hs'
  cases hs : t.tracker.data d with
  | none =>
    rw [hn d hs] at hs'
    cases hs'
  | some s =>
    obtain ⟨s'', hs'', ha, hl, -⟩ := he.slot d s hs
    obtain rfl : s' = s'' := Option.some.inj (hs'.symm.trans hs'')
    rw [he.lbaSize, ha, hl]
    exact h d s hs

lemma threadStep_geometry (h : Geometry t) (he : Evolves t t')
    (hc : ∀ d addr len, th = .create d addr len → RangeOk t.lbaSize addr len)
    (hs : threadStep t weak th = some (t', th')) : Geometry t' := by
  cases hth : th.creating with
  | none =>
    exact h.of_evolves he fun d hd => threadStep_data_none hs hd (by rw [hth]; nofun)
  | some d =>
    cases th with
    | create d' addr len =>
      cases hs
      intro e s hse
      rw [StreamTracker.create_data] at hse
      split_ifs at hse
      · cases hse
        exact hc d' addr len rfl
      · exact h e s hse
    | _ => cases hth

lemma threadStep_base (hn : th.truncates = false) (hs : threadStep t weak th = some (t', th')) :
    t'.tracker.base = t.tracker.base := by
  cases th with
  | idle => cases hs
  | resolve d oc pc ret =>
    have hb : (resolveStep t d oc weak pc).1.tracker.base = t.tracker.base := by
      cases pc with
      | truncate => cases hn
      | load =>
        simp only [resolveStep]
        split <;> rfl
      | raise | advCas | truncCas =>
        simp only [resolveStep]
        split_ifs <;> rfl
      | _ => rfl
    simp only [threadStep] at hs
    split at hs <;> rename_i hr <;> cases hs <;> simpa [hr] using hb
  | _ =>
    cases hs
    rfl

variable {ι κ : Type} [DecidableEq ι] [Fintype ι] [DecidableEq κ] [Fintype κ] {s s' : PlanSys ι κ}
  {a : PlanAct ι κ}

structure PlanInv (L : ℤ) (s : PlanSys ι κ) : Prop where
  sys : SysInv L s.sys
  acks : AckInv s.sys
  geometry : Geometry s.sys.trk
  creating : ∀ i d addr len, s.sys.threads i = .create d addr len →
    RangeOk s.sys.trk.lbaSize addr len
  reads : ∀ k r, s.reads k = some r → ReadOk L s.sys.trk r

/-- Ranges are as the caller's precheck leaves them and end below the address space, no outcome is stored
over a resolved slot, and a second ack of a slot comes after the horizon was raised. -/
def PlanAct.Ok (s : PlanSys ι κ) : PlanAct ι κ → Prop
  | .write (.call _ (.reserve addr len)) => RangeOk s.sys.trk.lbaSize addr len
  | .write (.go i _) =>
    StoresFresh s.sys.trk (s.sys.threads i) ∧ RaisesFirst s.sys.trk (s.sys.threads i)
  | .planRead _ addr len => RangeOk s.sys.trk.lbaSize addr len
  | _ => True

instance (s : PlanSys ι κ) (a : PlanAct ι κ) : Decidable (a.Ok s) := by
  unfold PlanAct.Ok
  split <;> infer_instance

omit [DecidableEq ι] [Fintype ι] [DecidableEq κ] [Fintype κ] in
lemma planInv_start (maxInflight lbaSize : UInt32) :
    PlanInv L (.start (resetAt maxInflight L lbaSize) : PlanSys ι κ) where
  sys := sysInv_start maxInflight lbaSize
  acks := ⟨fun _ => trivial, by simp [PlanSys.start, Sys.start]⟩
  geometry := by
    rintro d s ⟨⟩
  creating := by
    rintro i d addr len ⟨⟩
  reads := by
    rintro k r ⟨⟩

lemma PlanInv.write {a : Act ι} (h : PlanInv L s) (hok : (PlanAct.write a).Ok s)
    (hs : planSysStep s (.write a) = some s') : PlanInv L s' := by
  simp only [planSysStep] at hs
  obtain ⟨u, hu, rfl⟩ := Option.map_eq_some_iff.mp hs
  have hfresh : a.Fresh s.sys := by
    cases a with
    | call => trivial
    | go => exact hok.1
  have hraise : a.Raises s.sys := by
    cases a with
    | call => trivial
    | go => exact hok.2
  obtain ⟨hi, he⟩ := h.sys.step hfresh hu
  refine ⟨hi, h.acks.step h.sys hfresh hraise hu, ?_, ?_, ?_⟩
  · rcases step_cases hu with ⟨i, c, th, rfl, -, hc, -⟩ | ⟨i, weak, th, rfl, hc, -⟩
    · refine h.geometry.of_evolves he fun d hd => ?_
      rw [(startCall_spec h.sys.trk hc).2.2.2.1]
      exact hd
    · exact threadStep_geometry h.geometry he (h.creating i) hc
  · intro i d addr len hth'
    simp only at hth' ⊢
    rw [he.lbaSize]
    rcases step_cases hu with ⟨j, c, th, rfl, -, hc, hth, -⟩ | ⟨j, weak, th, rfl, hc, -, hth, -⟩
    · rw [hth, Function.update_apply] at hth'
      split_ifs at hth' with hij
      · subst hth'
        cases c with
        | reserve =>
          simp only [startCall, Option.some.injEq, Prod.mk.injEq, Thread.create.injEq] at hc
          obtain ⟨-, -, rfl, rfl⟩ := hc
          exact hok
        | resolve =>
          simp only [startCall] at hc
          split_ifs at hc
          simp at hc
        | retireUpto => simp [startCall] at hc
      · exact h.creating i d addr len hth'
    · rw [hth, Function.update_apply] at hth'
      split_ifs at hth' with hij
      · have hcr := threadStep_not_creating hc
        rw [hth'] at hcr
        cases hcr
      · exact h.creating i d addr len hth'
  · intro k r hr
    change s.reads k = some r at hr
    refine (h.reads k r hr).mono hi.trk he fun hfor => ?_
    have hbusy : decide (∃ k, (s.reads k).any PlanRead.inForeach) = true := by
      rw [decide_eq_true_eq]
      exact ⟨k, by simpa [hr] using hfor⟩
    rw [hbusy] at hu
    rcases step_cases hu with ⟨i, c, th, rfl, -, hc, -⟩ | ⟨i, weak, th, rfl, hc, hlock, -⟩
    · rw [(startCall_spec h.sys.trk hc).2.2.2.1]
    · refine threadStep_base ?_ hc
      cases htr : (s.sys.threads i).truncates with
      | false => rfl
      | true => exact absurd ⟨htr, Or.inl rfl⟩ hlock

lemma PlanInv.read {k : κ} (hL : -1 ≤ L) (h : PlanInv L s)
    (hs : planSysStep s (.read k) = some s') : PlanInv L s' := by
  simp only [planSysStep] at hs
  obtain ⟨r, hr, hs⟩ := Option.bind_eq_some_iff.mp hs
  obtain ⟨⟨u, pc⟩, hpc, hs⟩ := Option.bind_eq_some_iff.mp hs
  cases hs
  have ht := planStep_touches hpc
  have he := ht.evolves
  have hi := ht.inv h.sys.trk
  have htr : u.tracker = s.sys.trk.tracker := by rw [ht]
  refine ⟨⟨hi, fun i => ?_, h.sys.creating_inj⟩, ⟨fun i => (h.acks.threads i).mono he, ?_⟩, ?_, ?_, ?_⟩
  · refine (h.sys.threads i).mono he fun d hd => ?_
    have hk := h.sys.threads i
    cases hth : s.sys.threads i with
    | create d' addr len =>
      rw [hth] at hd hk
      cases hd
      rw [htr]
      exact hk.2.2
    | _ =>
      rw [hth] at hd
      cases hd
  · intro d hd
    obtain ⟨ho, hle⟩ := h.acks.returned d hd
    exact ⟨he.outcome ho rfl, hle.trans he.readHorizon⟩
  · exact h.geometry.of_evolves he fun d hd => by rw [htr]; exact hd
  · intro i d addr len hth
    rw [he.lbaSize]
    exact h.creating i d addr len hth
  · intro k' r' hr'
    simp only [Function.update_apply] at hr'
    split_ifs at hr' with hk
    · cases hr'
      exact planStep_spec hL h.sys.trk h.geometry (h.reads k r hr) hpc
    · exact (h.reads k' r' hr').mono hi he fun _ => by rw [htr]

lemma PlanInv.step (hL : -1 ≤ L) (h : PlanInv L s) (hok : a.Ok s)
    (hs : planSysStep s a = some s') : PlanInv L s' := by
  cases a with
  | write a => exact h.write hok hs
  | read k => exact h.read hL hs
  | planRead k addr len =>
    simp only [planSysStep] at hs
    split_ifs at hs
    cases hs
    refine { h with reads := fun k' r' hr' => ?_ }
    simp only [Function.update_apply] at hr'
    split_ifs at hr' with hk
    · cases hr'
      refine ⟨⟨hok, h.sys.trk.login_le_frontier, le_rfl, fun d hd => ?_⟩, trivial⟩
      obtain ⟨ho, hle⟩ := h.acks.returned d hd
      exact ⟨ho, le_max_iff.mp hle⟩
    · exact h.reads k' r' hr'

lemma planInv_of_reach (hL : -1 ≤ L) {maxInflight lbaSize : UInt32}
    (h : Reach planSysStep (fun s a => a.Ok s) (.start (resetAt maxInflight L lbaSize)) s) :
    PlanInv L s :=
  h.invariant (P := PlanInv L) (planInv_start maxInflight lbaSize)
    fun _ _ _ hi hok hs => hi.step hL hok hs

lemma ReadOk.planned {r : PlanRead} {segs : List ReadSegment} (h : ReadOk L t r)
    (hres : r.result = some segs) : Planned L t r.toPlanCall segs := by
  have hp := h.plan
  cases hpc : r.pc with
  | done p =>
    rw [hpc] at hp
    simp only [PlanRead.result, hpc] at hres
    split_ifs at hres with hdeg
    cases hres
    refine hp.2 fun hnil => hdeg ?_
    have hst := hp.1
    simp only [PlanOutcome.stall, hnil, List.isEmpty_nil, Bool.true_and, Bool.not_eq_false'] at hst
    simp [PlanOutcome.degraded, hnil, hst]
  | _ => simp [PlanRead.result, hpc] at hres

lemma Safe.winner_acked {x : ℕ} {H : ℤ} (h : Safe L t x H) (hd : L < d) (hH : d ≤ H)
    (hx : t.CoversAt d x) (hne : t.outcome d ≠ some .empty)
    (htop : ∀ e, d < e → e ≤ H → t.CoversAt e x → t.outcome e = some .empty) :
    t.outcome d = some .acked := by
  rcases h d hd hH hx with ⟨oc, ho, hr⟩ | ⟨e, hde, heH, hex, ho⟩
  · cases oc with
    | acked => exact ho
    | empty => exact absurd ho hne
    | inFlight | failed => cases hr
  · rw [htop e hde heH hex] at ho
    cases ho

theorem planRead_safe (hL : -1 ≤ L) (maxInflight lbaSize : UInt32) {k : κ} {r : PlanRead}
    {segs : List ReadSegment}
    (h : Reach planSysStep (fun s a => a.Ok s) (.start (resetAt maxInflight L lbaSize)) s)
    (hr : s.reads k = some r) (hres : r.result = some segs) :
    Partition s.sys.trk.lbaSize.toNat segs r.addr.toNat (r.addr.toNat + r.len.toNat) ∧
    segs.length ≤ kMaxSegments ∧
    ∀ seg ∈ segs, ∀ x, seg.addr.toNat ≤ x → x < seg.addr.toNat + seg.len.toNat →
      r.startFrontier ≤ seg.H ∧
      (∀ d ∈ r.startAcks, s.sys.trk.CoversAt d x → d ≤ seg.H) ∧
      ∀ d, L < d → d ≤ seg.H → s.sys.trk.CoversAt d x → s.sys.trk.outcome d ≠ some .empty →
        (∀ e, d < e → e ≤ seg.H → s.sys.trk.CoversAt e x → s.sys.trk.outcome e = some .empty) →
        s.sys.trk.outcome d = some .acked := by
  have hp := ((planInv_of_reach hL h).reads k r hr).planned hres
  refine ⟨hp.partition, hp.length_le, fun seg hs x h₁ h₂ => ?_⟩
  refine ⟨hp.start_le seg hs, hp.acks_le seg hs x h₁ h₂, ?_⟩
  intro d hd hH hx hne htop
  exact (hp.safe seg hs x h₁ h₂).winner_acked hd hH hx hne htop

def writes {ι κ : Type} (as : List (Act ι)) : List (PlanAct ι κ) := as.map .write

def splitRead : List (PlanAct (Fin 1) (Fin 1)) :=
  writes ([.call 0 (.reserve 0 4096), .go 0 false, .call 0 (.reserve 4096 4096), .go 0 false,
    .call 0 (.resolve 1 .acked)] ++ List.replicate 9 (.go 0 false)) ++
  [.planRead 0 0 8192] ++ List.replicate 9 (.read 0)

theorem planRead_safe_splitRead :
    ∃ s : PlanSys (Fin 1) (Fin 1),
      Reach planSysStep (fun s a => a.Ok s) (.start (resetAt 4 (-1) 4096)) s ∧
      ∃ r, s.reads 0 = some r ∧ r.result = some [⟨0, 4096, -1⟩, ⟨4096, 4096, 1⟩] ∧
        Partition s.sys.trk.lbaSize.toNat [⟨0, 4096, -1⟩, ⟨4096, 4096, 1⟩] r.addr.toNat
          (r.addr.toNat + r.len.toNat) := by
  obtain ⟨s, hs, hp⟩ := Reach.exists_of_exec planSysStep (fun s a => a.Ok s)
    (.start (resetAt 4 (-1) 4096)) splitRead
    (fun s => (s.reads 0).any fun r : PlanRead =>
      decide (r.result = some [⟨0, 4096, -1⟩, ⟨4096, 4096, 1⟩]))
    (by decide +kernel)
  obtain ⟨r, hr, hres⟩ := (Option.any_eq_true _ _).mp hp
  have hres := of_decide_eq_true hres
  exact ⟨s, hs, r, hr, hres, (planRead_safe (by decide) 4 4096 hs hr hres).1⟩

def topOfAddressSpace : List (PlanAct (Fin 1) (Fin 1)) :=
  writes ([.call 0 (.reserve 18446744073709543424 8192), .go 0 false,
    .call 0 (.reserve 0 4096), .go 0 false, .call 0 (.resolve 1 .acked)] ++
    List.replicate 9 (.go 0 false)) ++
  [.planRead 0 18446744073709543424 4096] ++ List.replicate 5 (.read 0)

theorem planRead_shows_unresolved_slot :
    ∃ s : PlanSys (Fin 1) (Fin 1), Reach planSysStep free (.start (resetAt 4 (-1) 4096)) s ∧
      ∃ r, s.reads 0 = some r ∧ r.addr.toNat = 2 ^ 64 - 8192 ∧ r.len.toNat = 4096 ∧
        r.result = some [⟨r.addr, r.len, 1⟩] ∧
        s.sys.trk.CoversAt 0 (2 ^ 64 - 8192) ∧ s.sys.trk.outcome 0 = some .inFlight ∧
        ∀ e, 0 < e → e ≤ 1 → ¬ s.sys.trk.CoversAt e (2 ^ 64 - 8192) := by
  obtain ⟨s, hs, hp⟩ := Reach.exists_of_exec planSysStep free
    (.start (resetAt 4 (-1) 4096)) topOfAddressSpace
    (fun s => (s.reads 0).any fun r : PlanRead =>
      decide ((r.addr.toNat = 2 ^ 64 - 8192 ∧ r.len.toNat = 4096 ∧
        r.result = some [⟨r.addr, r.len, 1⟩]) ∧
        s.sys.trk.tracker.data 0 = some ⟨18446744073709543424, 8192, .inFlight⟩ ∧
        s.sys.trk.tracker.data 1 = some ⟨0, 4096, .acked⟩))
    (by decide +kernel)
  obtain ⟨r, hr, hres⟩ := (Option.any_eq_true _ _).mp hp
  obtain ⟨⟨ha, hl, hplan⟩, h₀, h₁⟩ := of_decide_eq_true hres
  refine ⟨s, hs, r, hr, ha, hl, hplan, ⟨_, h₀, by decide⟩, outcome_of_data h₀, ?_⟩
  intro e hpos hle hc
  obtain rfl : e = 1 := by omega
  obtain ⟨s', hs', hx⟩ := hc
  rw [h₁] at hs'
  cases hs'
  exact absurd hx.2 (by decide)

end CraftClient.Tracker
