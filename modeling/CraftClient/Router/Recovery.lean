import CraftClient.Router.CommonHolder

namespace CraftClient.Router

open Runs

variable {n : ℕ} {L : ℤ} {r r' : RouteMap n} {d : ℤ} {i : Fin n} {s : RouteSlot n}

lemma val_of_mem_foldl {sg : Segment ℕ ℤ} (l : List (PendingMiss n)) (m : Fin n → MissingMap)
    (h : sg ∈ (l.foldl RouteMap.applyMiss m i).segs) :
    (∃ t ∈ (m i).segs, t.val = sg.val) ∨ ∃ e ∈ l, i ∉ e.held ∧ e.dlsn = sg.val := by
  induction l generalizing m with
  | nil => exact Or.inl ⟨sg, h, rfl⟩
  | cons a l ih =>
    rcases ih _ h with ⟨t, ht, htv⟩ | ⟨e, he, hi⟩
    · rw [RouteMap.applyMiss] at ht
      split_ifs at ht with hheld
      · obtain ⟨u, hu, huv⟩ := IntervalMap.exists_val_of_mem_erase ht
        exact Or.inl ⟨u, hu, huv.trans htv⟩
      · rcases IntervalMap.exists_val_of_mem_set ht with hnew | ⟨u, hu, huv⟩
        · exact Or.inr ⟨a, List.mem_cons_self, hheld, hnew.symm.trans htv⟩
        · exact Or.inl ⟨u, hu, huv.trans htv⟩
    · exact Or.inr ⟨e, List.mem_cons_of_mem a he, hi⟩

structure RecoverInv (L : ℤ) (r : RouteMap n) : Prop extends FoldInv L r where
  unproved : ∀ d s i, r.overlay.data d = some s → r.folded < d → i ∈ s.completed → i ∉ s.holders →
    r.synced i < d
  recovered : ∀ i, ∀ sg ∈ (r.miss i).segs, r.synced i < sg.val

lemma recoverInv_reset (L : ℤ) : RecoverInv L (RouteMap.reset n L) := by
  refine ⟨foldInv_reset L, ?_, ?_⟩ <;>
    simp +contextual [RouteMap.reset, StreamTracker.emplace, IntervalMap.empty]

lemma RecoverInv.slotChange (h : RecoverInv L r) (hc : SlotChange r r' d s) (h' : FoldInv L r')
    (hsynced : r'.synced = r.synced) (hs : ∀ i ∈ s.completed, i ∉ s.holders → r.synced i < d) :
    RecoverInv L r' := by
  refine ⟨h', fun e s' j hs' hlt hj hnot => ?_, ?_⟩
  · rw [hc.folded] at hlt
    rw [hsynced]
    rcases hc.data_cases hs' with ⟨rfl, rfl⟩ | hs'
    · exact hs j hj hnot
    · exact h.unproved e s' j hs' hlt hj hnot
  · rw [hc.miss, hsynced]
    exact h.recovered

lemma RecoverInv.foldTo (h : RecoverInv L r) (F : ℤ) : RecoverInv L (r.foldTo F) := by
  rcases foldTo_cases h.hint_le F with ⟨-, he⟩ | hf
  · rw [he]
    exact h
  · refine ⟨h.toFoldInv.foldsTo hf, fun d s i hs hd => ?_, fun i sg hsg => ?_⟩
    · rw [hf.data] at hs
      rw [hf.folded] at hd
      rw [hf.synced]
      exact h.unproved d s i hs (hf.lt.trans hd)
    · rw [hf.miss] at hsg
      rw [hf.synced]
      rcases val_of_mem_foldl _ _ hsg with ⟨t, ht, hv⟩ | ⟨e, he, hi, hv⟩
      · exact hv ▸ h.recovered i t ht
      -- a queued slot has all its legs in, so the member that lacks it has not reported it
      · have hmem := (List.mem_filter.mp (mem_sortBatch.mp he)).1
        obtain ⟨hlt, s, hs, hall, -, -, hes⟩ := (h.pending_spec e).mp hmem
        rw [hes] at hi
        exact hv ▸ h.unproved _ s i hs hlt (hall ▸ Finset.mem_univ i) hi

variable [NeZero n]

lemma RecoverInv.advanceSynced {C : ℤ} (h : RecoverInv L r)
    (hC : ∀ d s, r.overlay.data d = some s → r.folded < d → d ≤ C → i ∈ s.completed → i ∈ s.holders) :
    RecoverInv L (r.advanceSynced i C) := by
  have hfold := h.toFoldInv.advanceSynced (i := i) C
  rw [RouteMap.advanceSynced] at hfold ⊢
  split_ifs at hfold ⊢
  · exact h
  · refine ⟨hfold, fun d s j hs hd hj hnot => ?_, fun j sg hsg => ?_⟩
    · simp only [Function.update_apply]
      split_ifs with hji
      · subst hji
        exact not_le.mp fun hle => hnot (hC d s hs hd hle hj)
      · exact h.unproved d s j hs hd hj hnot
    · simp only [Function.update_apply] at hsg ⊢
      split_ifs at hsg ⊢
      · have hval := (List.mem_filter.mp hsg).2
        simpa using hval
      · exact h.recovered j sg hsg

/-- A slot that is not folded yet is not both missed and reported as committed by one member. -/
def RouteAct.Agrees (r : RouteMap n) : RouteAct n → Prop
  | .recordCompletion d idx acked => acked = false → r.synced idx < d
  | .advanceSynced idx C => ∀ d s, r.overlay.data d = some s → r.folded < d → d ≤ C →
      idx ∈ s.completed → idx ∈ s.holders
  | _ => True

lemma RecoverInv.step {a : RouteAct n} (h : RecoverInv L r) (hok : a.Agrees r)
    (hs : routeStep r a = some r') : RecoverInv L r' := by
  have h' := h.toFoldInv.step hs
  cases a with
  | create d addr len =>
    obtain ⟨-, hnone, rfl⟩ := routeStep_create hs
    exact h.slotChange (slotChange_create (h.not_mem_completed (open_of_none hnone))) h' rfl (by simp)
  | recordCompletion d idx acked =>
    obtain ⟨s, hdata, hi, rfl⟩ := routeStep_recordCompletion hs
    have hF := h.folded_lt (h.login_lt d s hdata) (open_of_not_mem hdata hi)
    refine h.slotChange (h.slotChange_answer hdata hi) h' (RouteMap.recordCompletion_synced r d idx acked)
      fun j hj hnot => ?_
    simp only [RouteSlot.answer] at hj hnot
    rcases Finset.mem_insert.mp hj with rfl | hj
    · cases acked with
      | true => simp at hnot
      | false => exact hok rfl
    · refine h.unproved d s j hdata hF hj fun hh => hnot ?_
      split_ifs
      · exact Finset.mem_insert_of_mem hh
      · exact hh
  | foldTo F =>
    cases hs
    exact h.foldTo F
  | advanceSynced idx C =>
    cases hs
    exact h.advanceSynced hok

theorem recovered_of_agreeing_reports
    (h : Reach routeStep (fun r a => a.Agrees r) (RouteMap.reset n L) r) (i : Fin n) :
    ∀ sg ∈ (r.miss i).segs, r.synced i < sg.val := by
  have hinv : RecoverInv L r := h.invariant (recoverInv_reset L) fun _ _ _ hi hok hs => hi.step hok hs
  exact hinv.recovered i

def RouteAct.afterFold (r : RouteMap n) : RouteAct n → Bool
  | .recordCompletion d idx acked => acked || decide (r.synced idx < d)
  | .advanceSynced _ C => decide (C ≤ r.folded)
  | _ => true

omit [NeZero n] in
lemma RouteAct.agrees_of_afterFold {a : RouteAct n} (h : a.afterFold r = true) : a.Agrees r := by
  cases a with
  | recordCompletion d idx acked =>
    rintro rfl
    simpa [RouteAct.afterFold] using h
  | advanceSynced idx C =>
    have hC : C ≤ r.folded := of_decide_eq_true h
    exact fun d s _ hd hle => absurd hle (by omega)
  | create | foldTo => trivial

theorem recovered_of_agreeing_reports_twoSlots :
    ∃ r : RouteMap 3, Reach routeStep (fun r a => a.Agrees r) (RouteMap.reset 3 (-1)) r ∧
      r.synced 0 = 0 ∧ (r.miss 0).get 0 = none ∧ (r.miss 0).get 4096 = some 1 ∧
      ∀ sg ∈ (r.miss 0).segs, r.synced 0 < sg.val := by
  obtain ⟨r, hr, hp⟩ := Reach.exists_of_exec routeStep (fun r a => a.afterFold r = true)
    (RouteMap.reset 3 (-1)) (ackedBut 0 0 0 ++ ackedBut 1 4096 0 ++ [.foldTo 1, .advanceSynced 0 0])
    (fun r => decide (r.synced 0 = 0 ∧ (r.miss 0).get 0 = none ∧ (r.miss 0).get 4096 = some 1))
    (by decide +kernel)
  obtain ⟨hsync, h₀, h₁⟩ := of_decide_eq_true hp
  have hr := hr.mono fun r a ha => RouteAct.agrees_of_afterFold (r := r) ha
  exact ⟨r, hr, hsync, h₀, h₁, recovered_of_agreeing_reports hr 0⟩

theorem reported_slot_marked_again :
    ∃ r : RouteMap 3, Reach routeStep free (RouteMap.reset 3 (-1)) r ∧ r.synced 0 = 0 ∧
      (∃ sg ∈ (r.miss 0).segs, sg.val ≤ r.synced 0) ∧ r.eligible 0 0 4096 0 = false := by
  obtain ⟨r, hr, hp⟩ := Reach.exists_of_exec routeStep free (RouteMap.reset 3 (-1))
    [.create 0 0 4096, .recordCompletion 0 0 false, .recordCompletion 0 1 true, .advanceSynced 0 0,
      .recordCompletion 0 2 true, .foldTo 0]
    (fun r => decide (r.synced 0 = 0 ∧ (∃ sg ∈ (r.miss 0).segs, sg.val ≤ r.synced 0) ∧
      r.eligible 0 0 4096 0 = false))
    (by decide +kernel)
  exact ⟨r, hr, of_decide_eq_true hp⟩

end CraftClient.Router
