import CraftClient.Tracker.Watermarks

namespace CraftClient.Tracker

open Runs

variable {L : ℤ} {t₀ t t' : DlsnTracker} {d k hi u : ℤ} {oc : SlotOutcome} {weak : Bool} {th th' : Thread}
  {empties : List ℤ} {filled : List (ℤ × Option SlotOutcome)}

structure AtRest (L : ℤ) (t : DlsnTracker) : Prop extends Inv L t where
  created : ∀ d, L < d → d < t.nextDlsn → (t.tracker.data d).isSome
  completed_of_resolved : ∀ d, t.Resolved d → d ∈ t.tracker.completed
  le_highestAcked : ∀ d, t.outcome d = some .acked → d ≤ t.highestAcked
  frontier_stop : t.frontier + 1 ∉ t.tracker.completed

lemma AtRest.of_idle {ι : Type} {s : Sys ι} (hs : SysInv L s) (hp : Pending L s)
    (hidle : ∀ i, s.threads i = .idle)
    (hc : ∀ d, L < d → d < s.trk.nextDlsn → (s.trk.tracker.data d).isSome) : AtRest L s.trk where
  toInv := hs.trk
  created := hc
  completed_of_resolved d hr := by
    rcases hp.marked d hr with hm | ⟨i, oc, ret, hi⟩
    · exact hm
    · rw [hidle i] at hi
      cases hi
  le_highestAcked d ho := by
    rcases hp.raised d ho with hle | ⟨i, pc, ret, hi, -⟩
    · exact hle
    · rw [hidle i] at hi
      cases hi
  frontier_stop hm := by
    obtain ⟨i, d, oc, pc, ret, hi, -⟩ := hp.advanced (s.trk.frontier + 1) (by omega) fun j hL hj => by
      rcases eq_or_lt_of_le hj with rfl | hlt
      · exact hm
      · exact hs.trk.completed_of_le j hL (by omega)
    rw [hidle i] at hi
    cases hi

/-- The call and the tracker, with the slots that `on_filled` has been called for and the outcome that
each of them had at that moment. -/
structure Retiring where
  sys : Sys Unit
  filled : List (ℤ × Option SlotOutcome)

def Retiring.call (t : DlsnTracker) (upto : ℤ) (empties : List ℤ) : Retiring :=
  ⟨⟨t, fun _ => .retireHi upto empties, ∅⟩, []⟩

def onFilled (t : DlsnTracker) (filled : List (ℤ × Option SlotOutcome)) :
    Thread → List (ℤ × Option SlotOutcome)
  | .retireFill _ u => filled ++ [(u, t.outcome u)]
  | _ => filled

def retireStep (r : Retiring) (weak : Bool) : Option Retiring :=
  (step false r.sys (.go () weak)).map fun sys =>
    ⟨sys, onFilled r.sys.trk r.filled (r.sys.threads ())⟩

section Spec

def verdict (empties : List ℤ) (d : ℤ) : SlotOutcome := if d ∈ empties then .empty else .acked

lemma isResolved_verdict : isResolved (verdict empties d) = true := by
  unfold verdict
  split_ifs <;> rfl

def retired (t₀ : DlsnTracker) (hi : ℤ) (empties : List ℤ) (k d : ℤ) : Option SlotOutcome :=
  if d < k ∧ d ≤ hi ∧ ¬ t₀.Resolved d then (t₀.outcome d).map fun _ => verdict empties d
  else t₀.outcome d

def Outcomes (t₀ : DlsnTracker) (hi : ℤ) (empties : List ℤ) (k : ℤ) (t : DlsnTracker) : Prop :=
  ∀ d, t.outcome d = retired t₀ hi empties k d

def Filled (t₀ : DlsnTracker) (hi : ℤ) (empties : List ℤ) (k : ℤ)
    (filled : List (ℤ × Option SlotOutcome)) : Prop :=
  ∀ d, filled.filter (fun e => e.1 = d) =
    if d < k ∧ d ≤ hi ∧ (t₀.outcome d).isSome ∧ ¬ t₀.Resolved d ∧ d ∉ empties then [(d, t₀.outcome d)]
    else []

lemma isSome_retired : (retired t₀ hi empties k d).isSome = (t₀.outcome d).isSome := by
  unfold retired
  split_ifs <;> simp

lemma retired_of_le (h : k ≤ d) : retired t₀ hi empties k d = t₀.outcome d := by
  rw [retired, if_neg (by omega)]

lemma retired_of_resolved (h : t₀.Resolved d) : retired t₀ hi empties k d = t₀.outcome d := by
  rw [retired, if_neg (by tauto)]

lemma retired_of_unresolved (hk : d < k) (hd : d ≤ hi) (hr : ¬ t₀.Resolved d) (h : (t₀.outcome d).isSome) :
    retired t₀ hi empties k d = some (verdict empties d) := by
  obtain ⟨oc, hoc⟩ := Option.isSome_iff_exists.mp h
  rw [retired, if_pos ⟨hk, hd, hr⟩, hoc]
  rfl

lemma resolved_congr (h : t.outcome d = t'.outcome d) : t.Resolved d ↔ t'.Resolved d := by
  simp only [DlsnTracker.Resolved, h]

namespace Outcomes

lemma resolved_iff (h : Outcomes t₀ hi empties k t) (hd : k ≤ d) : t.Resolved d ↔ t₀.Resolved d :=
  resolved_congr ((h d).trans (retired_of_le hd))

lemma pass {h' : ℤ} (h : Outcomes t₀ hi empties k t)
    (hr : ∀ d, k ≤ d → d < h' → d ≤ hi → t.Resolved d) (hk : k ≤ h') : Outcomes t₀ hi empties h' t := by
  intro d
  rw [h d]
  by_cases hd : k ≤ d ∧ d < h' ∧ d ≤ hi
  · have hres : t₀.Resolved d := (h.resolved_iff hd.1).mp (hr d hd.1 hd.2.1 hd.2.2)
    rw [retired_of_resolved hres, retired_of_resolved hres]
  · have hiff : (d < k ∧ d ≤ hi ∧ ¬ t₀.Resolved d) ↔ (d < h' ∧ d ≤ hi ∧ ¬ t₀.Resolved d) := by
      constructor
      · rintro ⟨h1, h2⟩
        exact ⟨by omega, h2⟩
      · rintro ⟨h1, h2⟩
        exact ⟨by omega, h2⟩
    simp only [retired, hiff]

lemma store (h : Outcomes t₀ hi empties u t) (hu : u ≤ hi) (hr : ¬ t₀.Resolved u)
    (hs : (t₀.outcome u).isSome) :
    Outcomes t₀ hi empties (u + 1) (t.setOutcome u (verdict empties u)) := by
  intro d
  rw [outcome_setOutcome]
  split_ifs with hd
  · subst hd
    obtain ⟨oc, hoc⟩ := Option.isSome_iff_exists.mp hs
    rw [retired_of_unresolved (by omega) hu hr hs, h d, retired_of_le le_rfl, hoc]
    rfl
  · have hlt : d < u + 1 ↔ d < u := by omega
    rw [h d]
    simp only [retired, hlt]

end Outcomes

namespace Filled

lemma pass {h' : ℤ} (h : Filled t₀ hi empties k filled)
    (hr : ∀ d, k ≤ d → d < h' → d ≤ hi → t₀.Resolved d) (hk : k ≤ h') : Filled t₀ hi empties h' filled := by
  intro d
  rw [h d]
  refine if_congr ⟨fun hd => ⟨hd.1.trans_le hk, hd.2⟩, fun hd => ⟨?_, hd.2⟩⟩ rfl rfl
  by_contra hlt
  exact hd.2.2.2.1 (hr d (by omega) hd.1 hd.2.1)

lemma skip (h : Filled t₀ hi empties u filled) (hu : u ∈ empties) : Filled t₀ hi empties (u + 1) filled := by
  intro d
  rw [h d]
  refine if_congr ⟨fun hd => ⟨by omega, hd.2⟩, fun hd => ⟨?_, hd.2⟩⟩ rfl rfl
  rcases eq_or_ne d u with rfl | hne
  · exact absurd hu hd.2.2.2.2
  · omega

lemma fill (h : Filled t₀ hi empties u filled) (hu : u ≤ hi) (hr : ¬ t₀.Resolved u)
    (hs : (t₀.outcome u).isSome) (he : u ∉ empties) :
    Filled t₀ hi empties (u + 1) (filled ++ [(u, t₀.outcome u)]) := by
  intro d
  rw [List.filter_append, h d]
  by_cases hd : d = u
  · subst hd
    rw [if_neg (by omega), if_pos ⟨by omega, hu, hs, hr, he⟩]
    simp
  · have hlt : d < u + 1 ↔ d < u := by omega
    simp only [hlt]
    simp [Ne.symm hd]

end Filled

end Spec

section Progress

def ResolvePc.Current (t : DlsnTracker) : ResolvePc → Prop
  | .raise cur => cur = t.highestAcked
  | .advIssued f | .advScan f _ | .advCas f _ => f = t.frontier
  | _ => True

def ResolvePc.rank : ResolvePc → ℕ
  | .load => 14
  | .store => 13
  | .complete => 12
  | .raiseLoad => 11
  | .raise _ => 10
  | .advLoad => 9
  | .advIssued _ => 8
  | .advScan _ _ => 7
  | .advCas _ _ => 6
  | .truncLoad _ => 5
  | .truncCas _ _ => 4
  | .truncate _ => 3
  | .recomplete => 2
  | .signal => 1
  | .fire => 0

lemma resolveStep_current {pc pc' : ResolvePc} (h : pc.Current t)
    (hs : (resolveStep t d oc weak pc).2 = some pc') : pc'.Current (resolveStep t d oc weak pc).1 := by
  cases pc with
  | load =>
    simp only [resolveStep] at hs ⊢
    split at hs <;> cases hs
    · trivial
    · split_ifs <;> trivial
  | store | complete | truncLoad =>
    cases hs
    split_ifs <;> trivial
  | raise | truncCas =>
    simp only [resolveStep] at hs ⊢
    split_ifs at hs ⊢ <;> cases hs <;> trivial
  | advScan =>
    cases hs
    split_ifs
    · trivial
    · exact h
  | advCas =>
    simp only [resolveStep] at hs ⊢
    split_ifs at hs ⊢ <;> cases hs
    · exact rfl
    · trivial
  | signal =>
    simp only [resolveStep] at hs
    split_ifs at hs
    cases hs
    trivial
  | fire => cases hs
  | recomplete | truncate => cases hs; trivial
  | raiseLoad | advLoad => cases hs; exact rfl
  | advIssued => cases hs; exact h

lemma resolveStep_rank {pc pc' : ResolvePc} (h : pc.Current t)
    (hs : (resolveStep t d oc false pc).2 = some pc') : pc'.rank < pc.rank := by
  cases pc with
  | load =>
    simp only [resolveStep] at hs
    split at hs <;> cases hs
    · simp [ResolvePc.rank]
    · split_ifs <;> simp [ResolvePc.rank]
  | store | complete | truncLoad | advScan =>
    cases hs
    split_ifs <;> simp [ResolvePc.rank]
  | raise cur =>
    obtain rfl : cur = t.highestAcked := h
    simp only [resolveStep, Bool.false_eq_true, ne_eq, not_true_eq_false, or_false, if_false] at hs
    split_ifs at hs <;> cases hs <;> simp [ResolvePc.rank]
  | advCas f nf =>
    obtain rfl : f = t.frontier := h
    simp only [resolveStep, Bool.false_eq_true, ne_eq, not_true_eq_false, or_false, if_false] at hs
    cases hs
    simp [ResolvePc.rank]
  | truncCas =>
    simp only [resolveStep] at hs
    split_ifs at hs <;> cases hs <;> simp [ResolvePc.rank]
  | signal =>
    simp only [resolveStep] at hs
    split_ifs at hs
    cases hs
    simp [ResolvePc.rank]
  | fire => cases hs
  | _ => cases hs; simp [ResolvePc.rank]

lemma resolveStep_late {pc pc' : ResolvePc} (h : pc ≠ .load)
    (hs : (resolveStep t d oc weak pc).2 = some pc') : pc' ≠ .load ∧ pc' ≠ .store ∧ pc' ≠ .recomplete := by
  cases pc with
  | load => exact absurd rfl h
  | store | complete | truncLoad | advScan =>
    cases hs
    split_ifs <;> simp
  | raise | advCas | truncCas | signal =>
    simp only [resolveStep] at hs
    split_ifs at hs <;> cases hs <;> simp
  | fire => cases hs
  | _ => cases hs; simp

def RetireFrame.left (fr : RetireFrame) : ℕ := 20 * (fr.hi + 1 - fr.h).toNat

/-- How far the call is from its end, counted in steps none of which fails spuriously. -/
def Thread.rank (t : DlsnTracker) : Thread → ℕ
  | .idle | .create _ _ _ | .resolve _ _ _ none => 0
  | .retireHi upto _ => 20 * (min upto t.issued - t.frontier).toNat + 3
  | .retireFrom hi _ => 20 * (hi - t.frontier).toNat + 2
  | .retireScan fr => fr.left + 1
  | .retireVisit fr u => 20 * (fr.hi - u).toNat + 19
  | .retireFill fr _ => fr.left + 18
  | .resolve _ _ pc (some fr) => fr.left + pc.rank + 2

end Progress

section Call

structure Retires (L : ℤ) (t₀ : DlsnTracker) (hi : ℤ) (empties : List ℤ) (fr : RetireFrame) (u : ℤ) :
    Prop where
  hi_eq : fr.hi = hi
  empties_eq : fr.empties = empties
  login_lt : L < u
  le_hi : u ≤ hi
  unresolved : ¬ t₀.Resolved u

def At (L : ℤ) (t₀ : DlsnTracker) (hi : ℤ) (empties : List ℤ) (t : DlsnTracker)
    (filled : List (ℤ × Option SlotOutcome)) : Thread → Prop
  | .idle => ∃ k, hi < k ∧ Outcomes t₀ hi empties k t ∧ Filled t₀ hi empties k filled
  | .create _ _ _ | .resolve _ _ _ none => False
  | .retireHi upto es => min upto t₀.issued = hi ∧ es = empties ∧ t = t₀ ∧ filled = []
  | .retireFrom hi' es => hi' = hi ∧ es = empties ∧ t = t₀ ∧ filled = []
  | .retireScan fr => fr.hi = hi ∧ fr.empties = empties ∧ L < fr.h ∧
    Outcomes t₀ hi empties fr.h t ∧ Filled t₀ hi empties fr.h filled
  | .retireVisit fr u => Retires L t₀ hi empties fr u ∧
    Outcomes t₀ hi empties u t ∧ Filled t₀ hi empties u filled
  | .retireFill fr u => Retires L t₀ hi empties fr u ∧ fr.h = u + 1 ∧ u ∉ empties ∧
    Outcomes t₀ hi empties u t ∧ Filled t₀ hi empties u filled
  | .resolve u oc pc (some fr) => Retires L t₀ hi empties fr u ∧ fr.h = u + 1 ∧ oc = verdict empties u ∧
    Filled t₀ hi empties (u + 1) filled ∧ pc.Current t ∧ pc ≠ .recomplete ∧
    Outcomes t₀ hi empties (if pc = .load ∨ pc = .store then u else u + 1) t

lemma Outcomes.isSome (h : Outcomes t₀ hi empties k t) (hs : (t₀.outcome d).isSome) :
    (t.outcome d).isSome := by
  rw [h d, isSome_retired, hs]

lemma AtRest.isSome_outcome (h : AtRest L t₀) (hL : L < d) (hd : d ≤ t₀.issued) :
    (t₀.outcome d).isSome := by
  have hs := h.created d hL (by simp only [DlsnTracker.issued] at hd; omega)
  simpa [DlsnTracker.outcome] using hs

lemma Inv.find_of_unresolved (h : Inv L t) (hr : ¬ t.Resolved u) (hs : (t.outcome u).isSome) :
    ∃ s, t.tracker.find u = some s ∧ isResolved s.outcome = false := by
  obtain ⟨oc, ho⟩ := Option.isSome_iff_exists.mp hs
  obtain ⟨s, hs, rfl⟩ := Option.map_eq_some_iff.mp ho
  have hres : isResolved s.outcome = false := by
    by_contra hres
    exact hr ⟨s.outcome, ho, by simpa using hres⟩
  exact ⟨s, h.find_ne_none hs hres, hres⟩

variable (h₀ : AtRest L t₀) (hhi : hi ≤ t₀.issued)
include h₀ hhi

lemma At.resolve {fr : RetireFrame} {pc pc' : ResolvePc} (hinv : Inv L t)
    (h : At L t₀ hi empties t filled (.resolve u oc pc (some fr)))
    (hs : resolveStep t u oc weak pc = (t', some pc')) :
    At L t₀ hi empties t' filled (.resolve u oc pc' (some fr)) := by
  obtain ⟨rfl, hs⟩ := Prod.ext_iff.mp hs
  obtain ⟨hfr, hh, hoc, hfill, hcur, hpc, hout⟩ := h
  have hsome : (t₀.outcome u).isSome := h₀.isSome_outcome hfr.login_lt (hfr.le_hi.trans hhi)
  refine ⟨hfr, hh, hoc, hfill, resolveStep_current hcur hs, ?_⟩
  by_cases hload : pc = .load
  · subst hload
    have hr : ¬ t.Resolved u := fun hr => hfr.unresolved ((hout.resolved_iff (by simp)).mp hr)
    obtain ⟨s, hfind, hres⟩ := hinv.find_of_unresolved hr (hout.isSome hsome)
    simp only [resolveStep, hfind, hres, Bool.false_eq_true, if_false] at hs ⊢
    cases hs
    exact ⟨by simp, hout⟩
  · obtain ⟨hl, hst, hre⟩ := resolveStep_late hload hs
    refine ⟨hre, ?_⟩
    rw [if_neg (by tauto)]
    by_cases hstore : pc = .store
    · subst hstore hoc
      exact Outcomes.store hout hfr.le_hi hfr.unresolved hsome
    · intro d
      rw [resolveStep_outcome hstore, hout d, if_neg (by tauto)]

lemma At.step (hinv : Inv L t) (hm : th.Quiet → ∀ d, t.Resolved d → d ∈ t.tracker.completed)
    (h : At L t₀ hi empties t filled th) (hs : threadStep t weak th = some (t', th')) :
    At L t₀ hi empties t' (onFilled t filled th) th' := by
  cases th with
  | idle => cases hs
  | create => exact h.elim
  | resolve u oc pc ret =>
    cases ret with
    | none => exact h.elim
    | some fr =>
      simp only [threadStep] at hs
      split at hs
      case h_1 t₁ pc₁ hr =>
        cases hs
        exact h.resolve h₀ hhi hinv hr
      case h_2 t₁ hr =>
        cases hs
        obtain ⟨hfr, hh, -, hfill, -, -, hout⟩ := h
        have hlast : pc ≠ .load ∧ pc ≠ .store := by
          constructor <;> rintro rfl
          · simp only [resolveStep] at hr
            split at hr <;> cases hr
          · cases hr
        refine ⟨hfr.hi_eq, hfr.empties_eq, by rw [hh]; linarith [hfr.login_lt], ?_, hh ▸ hfill⟩
        intro d
        obtain ⟨rfl, -⟩ := Prod.ext_iff.mp hr
        rw [hh, resolveStep_outcome hlast.2, hout d, if_neg (by tauto)]
  | retireHi upto es =>
    cases hs
    obtain ⟨hmin, hes, rfl, hf⟩ := h
    exact ⟨hmin, hes, rfl, hf⟩
  | retireFrom hi' es =>
    cases hs
    obtain ⟨rfl, rfl, rfl, rfl⟩ := h
    have hnone : ∀ d, d < t.frontier + 1 → t.Resolved d ∨ t.outcome d = none := by
      intro d hd
      rcases le_or_gt d L with hle | hL
      · right
        by_contra hne
        obtain ⟨oc, ho⟩ := Option.ne_none_iff_exists'.mp hne
        exact absurd (h₀.issued_of_outcome ho).1 (by omega)
      · exact Or.inl (h₀.resolved hL (by omega))
    refine ⟨rfl, rfl, by linarith [h₀.login_le_frontier], fun d => ?_, fun d => ?_⟩
    · simp only [retired]
      split_ifs with hd
      · rcases hnone d hd.1 with hr | ho
        · exact absurd hr hd.2.2
        · simp [ho]
      · rfl
    · rw [if_neg]
      · rfl
      · rintro ⟨hd, -, hsome, hr, -⟩
        rcases hnone d hd with hr' | ho
        · exact hr hr'
        · simp [ho] at hsome
  | retireScan fr =>
    cases hs
    obtain ⟨rfl, rfl, hL, hout, hfill⟩ := h
    have hge := t.tracker.completedUpto_ge fr.h
    have hpassed : ∀ d, fr.h ≤ d → d < t.tracker.completedUpto fr.h + 1 → d ≤ fr.hi → t.Resolved d :=
      fun d hd hlt _ => hinv.resolved_of_completed d (t.tracker.completedUpto_mem hd (by omega))
    have hpassed₀ : ∀ d, fr.h ≤ d → d < t.tracker.completedUpto fr.h + 1 → d ≤ fr.hi → t₀.Resolved d :=
      fun d hd hlt hle => (hout.resolved_iff hd).mp (hpassed d hd hlt hle)
    have hout' := hout.pass hpassed (by omega)
    have hfill' := hfill.pass hpassed₀ (by omega)
    split_ifs with hstop
    · rcases hstop with hlt | hlt
      · exact ⟨fr.h, hlt, hout, hfill⟩
      · exact ⟨t.tracker.completedUpto fr.h + 1, by omega, hout', hfill'⟩
    · have hu : min (t.tracker.completedUpto fr.h) fr.hi = t.tracker.completedUpto fr.h := by omega
      rw [hu] at hstop ⊢
      refine ⟨⟨rfl, rfl, by omega, by omega, fun hr => ?_⟩, hout', hfill'⟩
      have hres := (hout.resolved_iff (by omega)).mpr hr
      exact t.tracker.completedUpto_stop fr.h (hm trivial _ hres)
  | retireVisit fr u =>
    cases hs
    obtain ⟨hfr, hout, hfill⟩ := h
    have hsome : (t₀.outcome u).isSome := h₀.isSome_outcome hfr.login_lt (hfr.le_hi.trans hhi)
    have hr : ¬ t.Resolved u := fun hr => hfr.unresolved ((hout.resolved_iff le_rfl).mp hr)
    obtain ⟨s, hfind, -⟩ := hinv.find_of_unresolved hr (hout.isSome hsome)
    have hfr' : Retires L t₀ hi empties { fr with h := u + 1 } u := { hfr with }
    rw [if_neg (by simp [hfind])]
    split_ifs with hmem <;> rw [hfr.empties_eq] at hmem
    · exact ⟨hfr', rfl, by simp [verdict, hmem], hfill.skip hmem, trivial, by simp, by simpa using hout⟩
    · exact ⟨hfr', rfl, hmem, hout, hfill⟩
  | retireFill fr u =>
    cases hs
    obtain ⟨hfr, hh, hmem, hout, hfill⟩ := h
    have hsome : (t₀.outcome u).isSome := h₀.isSome_outcome hfr.login_lt (hfr.le_hi.trans hhi)
    have ho : t.outcome u = t₀.outcome u := (hout u).trans (retired_of_le le_rfl)
    refine ⟨hfr, hh, by simp [verdict, hmem], ?_, trivial, by simp, by simpa using hout⟩
    simpa [onFilled, ho] using hfill.fill hfr.le_hi hfr.unresolved hsome hmem

omit h₀ hhi in
lemma At.rank_lt (h : At L t₀ hi empties t filled th) (hs : threadStep t false th = some (t', th')) :
    th'.rank t' < th.rank t := by
  cases th with
  | idle => cases hs
  | create => exact h.elim
  | resolve u oc pc ret =>
    cases ret with
    | none => exact h.elim
    | some fr =>
      simp only [threadStep] at hs
      split at hs <;> rename_i hr <;> cases hs
      · have hlt := resolveStep_rank h.2.2.2.2.1 (congrArg Prod.snd hr)
        simp only [Thread.rank]
        omega
      · simp only [Thread.rank, Thread.resume]
        omega
  | retireHi upto es =>
    cases hs
    simp only [Thread.rank]
    omega
  | retireFrom hi' es =>
    cases hs
    simp only [Thread.rank, RetireFrame.left]
    omega
  | retireScan fr =>
    cases hs
    have hge := t.tracker.completedUpto_ge fr.h
    split_ifs with hstop
    · simp [Thread.rank]
    · simp only [Thread.rank, RetireFrame.left]
      omega
  | retireVisit fr u =>
    cases hs
    split_ifs <;> simp only [Thread.rank, RetireFrame.left, ResolvePc.rank] <;> omega
  | retireFill fr u =>
    cases hs
    simp only [Thread.rank, ResolvePc.rank]
    omega

end Call

structure RetireInv (L : ℤ) (t₀ : DlsnTracker) (hi : ℤ) (empties : List ℤ) (r : Retiring) : Prop where
  sys : SysInv L r.sys
  pending : Pending L r.sys
  point : At L t₀ hi empties r.sys.trk r.filled (r.sys.threads ())

lemma AtRest.pending (h : AtRest L t) : Pending L (⟨t, fun _ => th, ∅⟩ : Sys Unit) where
  marked d hr := Or.inl (h.completed_of_resolved d hr)
  raised d ho := Or.inl (h.le_highestAcked d ho)
  advanced k hk hc := by
    have hle : t.frontier + 1 ≤ k := hk
    exact absurd (hc _ (by linarith [h.login_le_frontier]) hle) h.frontier_stop

lemma retireInv_call (h : AtRest L t) (upto : ℤ) (empties : List ℤ) :
    RetireInv L t (min upto t.issued) empties (.call t upto empties) where
  sys := ⟨h.toInv, fun _ => trivial, by rintro i j d ⟨⟩⟩
  pending := h.pending
  point := ⟨rfl, rfl, rfl, rfl⟩

lemma At.fresh (h : At L t₀ hi empties t filled th) : StoresFresh t th := by
  cases th with
  | resolve u oc pc ret =>
    cases ret with
    | none => exact h.elim
    | some fr =>
      cases pc with
      | store =>
        obtain ⟨hfr, -, -, -, -, -, hout⟩ := h
        exact fun hr => hfr.unresolved ((hout.resolved_iff (by simp)).mp hr)
      | _ => trivial
  | _ => trivial

lemma RetireInv.step {r r' : Retiring} (h₀ : AtRest L t₀) (hhi : hi ≤ t₀.issued)
    (h : RetireInv L t₀ hi empties r) (hs : retireStep r weak = some r') :
    RetireInv L t₀ hi empties r' ∧
      (weak = false → (r'.sys.threads ()).rank r'.sys.trk < (r.sys.threads ()).rank r.sys.trk) := by
  obtain ⟨sys, hsys, rfl⟩ := Option.map_eq_some_iff.mp hs
  have hf : (Act.go () weak).Fresh r.sys := h.point.fresh
  obtain ⟨hinv, -⟩ := h.sys.step hf hsys
  have hpend := h.pending.step h.sys hf hsys
  rcases step_cases hsys with ⟨i, c, th, ha, -⟩ | ⟨i, w, th, ha, hth, -, hthreads, -⟩
  · cases ha
  · cases ha
    have hmove : sys.threads () = th := by simp [hthreads]
    have hm : (r.sys.threads ()).Quiet → ∀ d, r.sys.trk.Resolved d → d ∈ r.sys.trk.tracker.completed := by
      intro hq d hr
      rcases h.pending.marked d hr with hm | ⟨i, oc, ret, hi⟩
      · exact hm
      · rw [hi] at hq
        exact hq.elim
    refine ⟨⟨hinv, hpend, ?_⟩, ?_⟩
    · rw [hmove]
      exact h.point.step h₀ hhi h.sys.trk hm hth
    · rintro rfl
      rw [hmove]
      exact h.point.rank_lt hth

lemma exists_retireStep {r : Retiring} (hne : r.sys.threads () ≠ .idle) :
    ∃ r', retireStep r false = some r' := by
  obtain ⟨⟨t', th'⟩, hs⟩ : ∃ x, threadStep r.sys.trk false (r.sys.threads ()) = some x := by
    cases hth : r.sys.threads () with
    | idle => exact absurd hth hne
    | resolve u oc pc ret =>
      simp only [threadStep]
      split <;> exact ⟨_, rfl⟩
    | _ => exact ⟨_, rfl⟩
  have hlock : ¬ ((r.sys.threads ()).truncates ∧ ((false : Bool) ∨ ∃ j, (r.sys.threads j).inUpdate)) := by
    rintro ⟨htr, hb | ⟨⟨⟩, hup⟩⟩
    · cases hb
    · unfold Thread.truncates at htr
      split at htr
      · rename_i hth
        rw [hth] at hup
        cases hup
      · cases htr
  exact ⟨_, by rw [retireStep, Tracker.step, if_neg hlock, hs]; rfl⟩

lemma RetireInv.frontier_ge {r : Retiring} (h : RetireInv L t₀ hi empties r)
    (hidle : r.sys.threads () = .idle) (hres : ∀ d, L < d → d ≤ hi → r.sys.trk.Resolved d) :
    hi ≤ r.sys.trk.frontier := by
  by_contra hlt
  obtain ⟨i, d, oc, pc, ret, hth, -⟩ := h.pending.advanced hi (by omega) fun j hL hj => by
    rcases h.pending.marked j (hres j hL hj) with hm | ⟨i, oc, ret, hth⟩
    · exact hm
    · rw [hidle] at hth
      cases hth
  rw [hidle] at hth
  cases hth

theorem retire_upto_exact {r : Retiring} (h : AtRest L t) (upto : ℤ) (empties : List ℤ)
    (hr : Reach retireStep free (.call t upto empties) r) :
    (∃ r', Reach retireStep (fun _ weak => weak = false) r r' ∧ r'.sys.threads () = .idle) ∧
    (r.sys.threads () = .idle →
      (∀ d, L < d → d ≤ t.issued → d ≤ upto → r.sys.trk.Resolved d) ∧
      (∀ d, L < d → d ≤ t.issued → d ≤ upto → ¬ t.Resolved d →
        (d ∈ empties → r.sys.trk.outcome d = some .empty) ∧
        (d ∉ empties → r.sys.trk.outcome d = some .acked ∧
          r.filled.filter (fun e => e.1 = d) = [(d, t.outcome d)])) ∧
      (∀ d, t.Resolved d ∨ upto < d ∨ d ∈ empties → r.filled.filter (fun e => e.1 = d) = []) ∧
      (∀ d, t.Resolved d ∨ upto < d → r.sys.trk.outcome d = t.outcome d) ∧
      min upto t.issued ≤ r.sys.trk.frontier) := by
  have hhi : min upto t.issued ≤ t.issued := min_le_right _ _
  have hinv : RetireInv L t (min upto t.issued) empties r :=
    hr.invariant (retireInv_call h upto empties) fun _ _ _ hi _ hs => (hi.step h hhi hs).1
  refine ⟨?_, fun hidle => ?_⟩
  · refine Reach.exists_end (fun r => (r.sys.threads ()).rank r.sys.trk) hinv fun r hi hne => ?_
    obtain ⟨r', hs⟩ := exists_retireStep hne
    obtain ⟨hi', hlt⟩ := hi.step h hhi hs
    exact ⟨false, r', rfl, hs, hi', hlt rfl⟩
  · obtain ⟨k, hk, hout, hfill⟩ : At L t _ empties r.sys.trk r.filled .idle := hidle ▸ hinv.point
    have hverdict : ∀ d, L < d → d ≤ t.issued → d ≤ upto → ¬ t.Resolved d →
        r.sys.trk.outcome d = some (verdict empties d) := by
      intro d hL hd hu hn
      rw [hout d, retired_of_unresolved (by omega) (by omega) hn (h.isSome_outcome hL hd)]
    have hres : ∀ d, L < d → d ≤ t.issued → d ≤ upto → r.sys.trk.Resolved d := by
      intro d hL hd hu
      by_cases hn : t.Resolved d
      · exact (resolved_congr ((hout d).trans (retired_of_resolved hn))).mpr hn
      · exact ⟨_, hverdict d hL hd hu hn, isResolved_verdict⟩
    refine ⟨hres, fun d hL hd hu hn => ⟨fun he => ?_, fun he => ⟨?_, ?_⟩⟩, fun d hd => ?_, fun d hd => ?_, ?_⟩
    · simp [hverdict d hL hd hu hn, verdict, he]
    · simp [hverdict d hL hd hu hn, verdict, he]
    · rw [hfill d, if_pos ⟨by omega, by omega, h.isSome_outcome hL hd, hn, he⟩]
    · rw [hfill d, if_neg]
      rintro ⟨-, hle, -, hn, he⟩
      rcases hd with hr | hlt | hmem
      · exact hn hr
      · omega
      · exact he hmem
    · rcases hd with hr | hlt
      · exact (hout d).trans (retired_of_resolved hr)
      · rw [hout d, retired, if_neg (by omega)]
    · exact hinv.frontier_ge hidle fun d hL hd => hres d hL (by omega) (by omega)

def fourWrites : List (Act Unit) :=
  List.flatten [(List.replicate 4 [.call () (.reserve 0 4096), .go () false]).flatten,
    [.call () (.resolve 0 .acked)], List.replicate 11 (.go () false),
    [.call () (.resolve 1 .failed)], List.replicate 3 (.go () false),
    [.call () (.resolve 3 .failed)], List.replicate 3 (.go () false)]

theorem retire_upto_exact_fourWrites :
    ∃ t, AtRest (-1) t ∧ t.frontier = 0 ∧ t.issued = 3 ∧
      ∃ r, Reach retireStep free (.call t 2 [2]) r ∧ r.sys.threads () = .idle ∧
        r.sys.trk.outcome 1 = some .acked ∧ r.sys.trk.outcome 2 = some .empty ∧
        r.sys.trk.outcome 3 = some .failed ∧ r.filled.filter (fun e => e.1 = 1) = [(1, some .failed)] ∧
        2 ≤ r.sys.trk.frontier := by
  obtain ⟨s, hs, hp⟩ := Reach.exists_of_exec (step false) (fun s a => a.Fresh s)
    (.start (resetAt 4 (-1) 4096)) fourWrites
    (fun s => decide (s.threads () = .idle ∧ s.trk.frontier = 0 ∧ s.trk.issued = 3 ∧
      s.trk.outcome 1 = some .failed ∧ s.trk.outcome 2 = some .inFlight ∧
      s.trk.outcome 3 = some .failed ∧ (s.trk.outcome 0).isSome)) (by decide +kernel)
  obtain ⟨hidle, hF, hissued, h1, h2, h3, h0⟩ := of_decide_eq_true hp
  obtain ⟨hi, hpend⟩ := reach_fresh hs
  have hrest : AtRest (-1) s.trk := by
    refine .of_idle hi hpend (fun _ => hidle) fun d hL hd => ?_
    simp only [DlsnTracker.issued] at hissued
    have hsome : (s.trk.outcome d).isSome := by
      obtain rfl | rfl | rfl | rfl : d = 0 ∨ d = 1 ∨ d = 2 ∨ d = 3 := by omega
      · exact h0
      · simp [h1]
      · simp [h2]
      · simp [h3]
    simpa [DlsnTracker.outcome] using hsome
  obtain ⟨r, hr, hend⟩ := (retire_upto_exact hrest 2 [2] .refl).1
  have hrun : Reach retireStep free (.call s.trk 2 [2]) r := hr.mono fun _ _ _ => trivial
  obtain ⟨-, hunres, -, hkeep, hfront⟩ := (retire_upto_exact hrest 2 [2] hrun).2 hend
  have hn1 : ¬ s.trk.Resolved 1 := by simp [DlsnTracker.Resolved, h1, isResolved]
  have hn2 : ¬ s.trk.Resolved 2 := by simp [DlsnTracker.Resolved, h2, isResolved]
  have hslot1 := (hunres 1 (by omega) (by omega) (by omega) hn1).2 (by decide)
  refine ⟨s.trk, hrest, hF, hissued, r, hrun, hend, hslot1.1, ?_, ?_, ?_, ?_⟩
  · exact (hunres 2 (by omega) (by omega) le_rfl hn2).1 (by decide)
  · rw [hkeep 3 (Or.inr (by omega)), h3]
  · rw [hslot1.2, h1]
  · rw [hissued] at hfront
    simpa using hfront

end CraftClient.Tracker
