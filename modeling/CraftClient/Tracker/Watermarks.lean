import CraftClient.Tracker.Frontier

namespace CraftClient.Tracker

open Runs

variable {L : ℤ} {t : DlsnTracker} {d : ℤ} {ι : Type}

lemma DlsnTracker.Resolved.acked_or_empty (h : t.Resolved d) :
    t.outcome d = some .acked ∨ t.outcome d = some .empty := by
  obtain ⟨oc, ho, hr⟩ := h
  cases oc with
  | acked => exact Or.inl ho
  | empty => exact Or.inr ho
  | inFlight | failed => cases hr

lemma Inv.find_ne_none {s : DlsnSlot} (h : Inv L t) (hs : t.tracker.data d = some s)
    (hr : isResolved s.outcome = false) : t.tracker.find d = some s := by
  refine StreamTracker.find_eq_some.mpr ⟨?_, hs⟩
  by_contra hb
  have hF := h.base_le
  obtain ⟨oc, ho, hoc⟩ := h.resolved (h.issued_of_data d s hs).1 (by omega)
  simp only [DlsnTracker.outcome, hs, Option.map_some, Option.some.injEq] at ho
  rw [← ho, hr] at hoc
  cases hoc

lemma Pending.isGreatest_frontier {s : Sys ι} (hi : SysInv L s) (h : Pending L s)
    (hidle : ∀ i, s.threads i = .idle) :
    IsGreatest {f | L ≤ f ∧ ∀ d, L < d → d ≤ f → s.trk.Resolved d} s.trk.frontier := by
  refine ⟨⟨hi.trk.login_le_frontier, fun d => hi.trk.resolved⟩, fun f hf => ?_⟩
  by_contra hlt
  have hc : ∀ j, L < j → j ≤ f → j ∈ s.trk.tracker.completed := by
    intro j hj hjf
    rcases h.marked j (hf.2 j hj hjf) with hm | ⟨i, oc, ret, hth⟩
    · exact hm
    · rw [hidle i] at hth
      cases hth
  obtain ⟨i, d, oc, pc, ret, hth, -⟩ := h.advanced f (by omega) hc
  rw [hidle i] at hth
  cases hth

lemma Pending.isGreatest_acked {s : Sys ι} (hi : SysInv L s) (h : Pending L s)
    (hidle : ∀ i, s.threads i = .idle) :
    IsGreatest (insert L {d | s.trk.outcome d = some .acked}) s.trk.highestAcked := by
  constructor
  · rcases hi.trk.login_le_acked.eq_or_lt with he | hlt
    · exact Or.inl he.symm
    · exact Or.inr (hi.trk.acked_top hlt)
  · rintro d (rfl | ho)
    · exact hi.trk.login_le_acked
    · rcases h.raised d ho with hle | ⟨i, pc, ret, hth, -⟩
      · exact hle
      · rw [hidle i] at hth
        cases hth

section Runs

variable [DecidableEq ι] [Fintype ι]

lemma reach_fresh {maxInflight lbaSize : UInt32} {s : Sys ι}
    (h : Reach (step false) (fun s a => a.Fresh s) (.start (resetAt maxInflight L lbaSize)) s) :
    SysInv L s ∧ Pending L s := by
  refine h.invariant (P := fun s => SysInv L s ∧ Pending L s)
    ⟨sysInv_start maxInflight lbaSize, pending_start maxInflight lbaSize⟩ ?_
  rintro s a s' ⟨hi, hp⟩ hf hs
  exact ⟨(hi.step hf hs).1, hp.step hi hf hs⟩

lemma evolves_of_reach {s s' : Sys ι} (hi : SysInv L s)
    (h : Reach (step false) (fun s a => a.Fresh s) s s') : Evolves s.trk s'.trk := by
  refine h.related (R := fun s s' => Evolves s.trk s'.trk) hi ?_ (fun s => .refl _)
    fun _ _ _ => .trans
  intro s a s' hi hf hs
  exact hi.step hf hs

theorem watermarks_of_fresh (maxInflight lbaSize : UInt32) {s s' : Sys ι}
    (h : Reach (step false) (fun s a => a.Fresh s) (.start (resetAt maxInflight L lbaSize)) s)
    (h' : Reach (step false) (fun s a => a.Fresh s) s s') :
    (∀ d, L < d → d ≤ s.trk.frontier →
      s.trk.outcome d = some .acked ∨ s.trk.outcome d = some .empty) ∧
    (s.trk.frontier ≤ s'.trk.frontier ∧ s.trk.highestAcked ≤ s'.trk.highestAcked) ∧
    (s.trk.frontier ≤ s.trk.issued ∧ s.trk.highestAcked ≤ s.trk.issued) ∧
    (∀ d oc, s.trk.outcome d = some oc → isResolved oc = true → s'.trk.outcome d = some oc) ∧
    (∀ d sl, s.trk.tracker.data d = some sl → isResolved sl.outcome = false →
      s.trk.tracker.find d = some sl) ∧
    ((∀ i, s.threads i = .idle) →
      IsGreatest {f | L ≤ f ∧ ∀ d, L < d → d ≤ f → s.trk.Resolved d} s.trk.frontier ∧
      IsGreatest (insert L {d | s.trk.outcome d = some .acked}) s.trk.highestAcked) := by
  obtain ⟨hi, hp⟩ := reach_fresh h
  have he := evolves_of_reach hi h'
  refine ⟨fun d hL hd => (hi.trk.resolved hL hd).acked_or_empty, ⟨he.frontier, he.acked⟩,
    ⟨Int.le_sub_one_of_lt hi.trk.frontier_lt, Int.le_sub_one_of_lt hi.trk.acked_lt⟩,
    fun d oc ho hr => he.outcome ho hr, fun d sl hs hr => hi.trk.find_ne_none hs hr, fun hidle => ?_⟩
  exact ⟨hp.isGreatest_frontier hi hidle, hp.isGreatest_acked hi hidle⟩

end Runs

def goes {ι : Type} (i : ι) (n : ℕ) : List (Act ι) := List.replicate n (.go i false)

def writeAndResolve : List (Act (Fin 2)) :=
  [.call 0 (.reserve 0 4096), .go 0 false, .call 1 (.reserve 4096 4096), .go 1 false,
    .call 1 (.resolve 1 .acked)] ++ goes 1 9 ++ [.call 0 (.resolve 0 .empty)] ++ goes 0 9

theorem watermarks_of_fresh_writeAndResolve :
    ∃ s : Sys (Fin 2), Reach (step false) (fun s a => a.Fresh s) (.start (resetAt 4 (-1) 4096)) s ∧
      (s.trk.frontier = 1 ∧ s.trk.highestAcked = 1) ∧
      IsGreatest {f | -1 ≤ f ∧ ∀ d, -1 < d → d ≤ f → s.trk.Resolved d} s.trk.frontier := by
  obtain ⟨s, hs, hp⟩ := Reach.exists_of_exec (step false) (fun s a => a.Fresh s)
    (.start (resetAt 4 (-1) 4096)) writeAndResolve
    (fun s => decide ((∀ i, s.threads i = .idle) ∧ s.trk.frontier = 1 ∧ s.trk.highestAcked = 1))
    (by decide +kernel)
  obtain ⟨hidle, hw⟩ := of_decide_eq_true hp
  exact ⟨s, hs, hw, ((watermarks_of_fresh 4 4096 hs .refl).2.2.2.2.2 hidle).1⟩

def retireOverFailing : List (Act (Fin 2)) :=
  [.call 0 (.reserve 0 4096), .go 0 false, .call 0 (.resolve 0 .failed), .go 0 false,
    .call 1 (.retireUpto 0 [])] ++ goes 1 17

theorem acked_slot_overwritten_below_frontier :
    ∃ s : Sys (Fin 2), Reach (step false) free (.start (resetAt 4 (-1) 4096)) s ∧
      s.trk.outcome 0 = some .acked ∧
      ∃ s', Reach (step false) free s s' ∧ (∀ i, s'.threads i = .idle) ∧
        s'.trk.frontier = 0 ∧ s'.trk.outcome 0 = some .failed := by
  obtain ⟨s, hs, hp⟩ := Reach.exists_of_exec (step false) free
    (.start (resetAt 4 (-1) 4096)) retireOverFailing
    (fun s => decide (s.trk.outcome 0 = some .acked) &&
      (exec (step false) free s (goes 0 2)).any fun s' : Sys (Fin 2) =>
        decide ((∀ i, s'.threads i = .idle) ∧ s'.trk.frontier = 0 ∧ s'.trk.outcome 0 = some .failed))
    (by decide +kernel)
  obtain ⟨hacked, hnext⟩ := Bool.and_eq_true_iff.mp hp
  obtain ⟨s', hs', hp'⟩ := Reach.exists_of_exec _ _ _ _ _ hnext
  exact ⟨s, hs, of_decide_eq_true hacked, s', hs', of_decide_eq_true hp'⟩

end CraftClient.Tracker
