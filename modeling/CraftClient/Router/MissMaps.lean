import CraftClient.Lib.LastWriter
import CraftClient.Router.Eligible

/-! The miss maps as a function of the slots alone. -/

namespace CraftClient.Router

open LastWriter Runs

variable {n : ℕ} {L : ℤ} {holds : Fin n → ℤ → Prop} {heard : Fin n → ℤ} {r r' : RouteMap n} {d : ℤ} {x : ℕ}
  {i : Fin n} {s : RouteSlot n}

def RouteSlot.Lacked (s : RouteSlot n) : Prop := s.Quorate ∧ s.holders ≠ Finset.univ

def LastLacked (r : RouteMap n) (x : ℕ) (d : ℤ) (s : RouteSlot n) : Prop :=
  d ≤ r.folded ∧ r.overlay.data d = some s ∧ s.Covers x ∧ s.Lacked ∧
    ∀ e s', d < e → e ≤ r.folded → r.overlay.data e = some s' → s'.Covers x → ¬ s'.Lacked

def RouteSlot.mark (i : Fin n) (d : ℤ) (s : RouteSlot n) : Option ℤ := if i ∈ s.holders then none else some d

/-- Slot `d` is the highest folded one on `x` that a quorum but not every member holds; the ends of the slots are
taken in 64 bits. -/
def LastMiss (r : RouteMap n) (x : ℕ) (d : ℤ) (s : RouteSlot n) : Prop :=
  d ≤ r.folded ∧ r.overlay.data d = some s ∧ s.miss.Covers x ∧ s.Lacked ∧
    ∀ e s', d < e → e ≤ r.folded → r.overlay.data e = some s' → s'.miss.Covers x → ¬ s'.Lacked

lemma RouteInv.lastMiss_iff (h : RouteInv L holds r) : LastMiss r x d s ↔ LastLacked r x d s := by
  have hcov : ∀ d s, r.overlay.data d = some s → (s.miss.Covers x ↔ s.Covers x) :=
    fun d s hs => RouteSlot.miss_covers (h.end_lt d s hs)
  refine and_congr_right fun _ => and_congr_right fun hs => and_congr (hcov d s hs) (and_congr_right fun _ => ?_)
  refine forall₂_congr fun e s' => forall₃_congr fun _ _ hs' => imp_congr_left (hcov e s' hs')

abbrev MarksTo (r : RouteMap n) (i : Fin n) (x : ℕ) (old : Option ℤ) (a b : ℤ) (v : Option ℤ) : Prop :=
  Shows r.overlay.data (fun s => s.miss.Covers x ∧ s.Lacked) (RouteSlot.mark i) old a b v

lemma FoldInv.mem_batch {target : ℤ} {e : PendingMiss n} (h : FoldInv L r)
    (hpre : ∀ d, r.folded < d → d ≤ target → d ∈ r.overlay.completed) :
    e ∈ r.batch target ↔ ∃ s, r.folded < e.dlsn ∧ e.dlsn ≤ target ∧ r.overlay.data e.dlsn = some s ∧
      s.Lacked ∧ e = s.miss := by
  rw [RouteMap.batch, List.mem_filter, h.pending_spec, decide_eq_true_eq]
  constructor
  · rintro ⟨⟨hlt, s, hs, -, hq, hne, he⟩, hle⟩
    exact ⟨s, hlt, hle, hs, ⟨hq, hne⟩, he⟩
  · rintro ⟨s, hlt, hle, hs, ⟨hq, hne⟩, he⟩
    obtain ⟨s', hs', hc⟩ := (h.complete_iff _).mp (hpre _ hlt hle)
    obtain rfl : s = s' := Option.some.inj (hs.symm.trans hs')
    exact ⟨⟨hlt, s, hs, hc, hq, hne, he⟩, hle⟩

lemma FoldInv.marksTo_batch {target : ℤ} (h : FoldInv L r)
    (hpre : ∀ d, r.folded < d → d ≤ target → d ∈ r.overlay.completed) :
    MarksTo r i x ((r.miss i).get x) r.folded target
      (((RouteMap.sortBatch (r.batch target)).foldl RouteMap.applyMiss r.miss i).get x) := by
  have hmem : ∀ d s, r.folded < d → d ≤ target → r.overlay.data d = some s → s.Lacked →
      s.miss ∈ RouteMap.sortBatch (r.batch target) := by
    intro d s hlt hle hs hl
    obtain rfl : s.dlsn = d := h.dlsn_eq d s hs
    exact mem_sortBatch.mpr ((h.mem_batch hpre).mpr ⟨s, hlt, hle, hs, hl, rfl⟩)
  rcases get_foldl_applyMiss_last _ r.miss (pairwise_sortBatch (r.batch target)) with
    ⟨hnone, hget⟩ | ⟨e, he, hx, htop, hget⟩
  · rw [hget]
    exact Or.inr ⟨fun d s hlt hle hs hc => hnone _ (hmem d s hlt hle hs hc.2) hc.1, rfl⟩
  · rw [hget]
    obtain ⟨s, hlt, hle, hs, hl, rfl⟩ := (h.mem_batch hpre).mp (mem_sortBatch.mp he)
    apply shows_last hlt hle hs ⟨hx, hl⟩
    intro f s' hlt' hle' hs' hc
    have hmiss := htop _ (hmem f s' (hlt.trans hlt') hle' hs' hc.2) hc.1
    change s'.dlsn ≤ s.dlsn at hmiss
    rw [h.dlsn_eq f s' hs'] at hmiss
    exact absurd hlt' hmiss.not_gt

lemma MarksTo.eq_some {a b : ℤ} (h : MarksTo r i x none a b (some d)) :
    ∃ s, d ≤ b ∧ r.overlay.data d = some s ∧ (s.miss.Covers x ∧ s.Lacked) ∧ i ∉ s.holders ∧
      Untouched r.overlay.data (fun s => s.miss.Covers x ∧ s.Lacked) d b := by
  rcases h with ⟨e, s, -, hle, hs, hc, hu, hv⟩ | ⟨-, hv⟩
  · rw [RouteSlot.mark] at hv
    split_ifs at hv with hi
    cases hv
    exact ⟨s, hle, hs, hc, hi, hu⟩
  · cases hv

structure MarkInv (L : ℤ) (heard : Fin n → ℤ) (r : RouteMap n) : Prop where
  fold : FoldInv L r
  heard_le : ∀ i, heard i ≤ r.folded
  marks : ∀ i x, ∃ v, MarksTo r i x none L r.folded v ∧ (r.miss i).get x = v.filter fun d => heard i < d

lemma markInv_reset (L : ℤ) : MarkInv L (fun _ => L) (RouteMap.reset n L) :=
  ⟨foldInv_reset L, fun _ => le_rfl, fun _ _ => ⟨none, shows_self, rfl⟩⟩

lemma MarkInv.slotChange (h : MarkInv L heard r) (hc : SlotChange r r' d s) (hF : r.folded < d)
    (h' : FoldInv L r') : MarkInv L heard r' := by
  refine ⟨h', fun i => hc.folded ▸ h.heard_le i, fun i x => ?_⟩
  obtain ⟨v, hv, hget⟩ := h.marks i x
  rw [hc.folded, hc.miss]
  exact ⟨v, hv.congr fun e _ hle => hc.data_of_ne (by omega), hget⟩

lemma MarkInv.foldTo (h : MarkInv L heard r) (F : ℤ) : MarkInv L heard (r.foldTo F) := by
  rcases foldTo_cases h.fold.hint_le F with ⟨-, he⟩ | hf
  · rw [he]
    exact h
  · refine ⟨h.fold.foldsTo hf, fun i => (h.heard_le i).trans (hf.folded ▸ hf.lt.le), fun i x => ?_⟩
    have hbatch := h.fold.marksTo_batch (i := i) (x := x) hf.prefix_completed
    obtain ⟨v, hv, hget⟩ := h.marks i x
    simp only [MarksTo, hf.data, hf.folded, hf.miss]
    rcases hbatch with ⟨e, s, hlt, hle, hs, hc, hu, hnew⟩ | ⟨hu, hold⟩
    · refine ⟨RouteSlot.mark i e s, shows_last (h.fold.login_le.trans_lt hlt) hle hs hc hu, ?_⟩
      have hheard : heard i < e := (h.heard_le i).trans_lt hlt
      rw [hnew, RouteSlot.mark]
      split_ifs <;> simp [Option.filter, hheard]
    · exact ⟨v, hv.extend hu hf.lt.le, hold.trans hget⟩

def RouteMap.hear (r : RouteMap n) (heard : Fin n → ℤ) : RouteAct n → Fin n → ℤ
  | .advanceSynced idx C =>
    if C ≤ r.synced idx then heard else Function.update heard idx (max (heard idx) (min C r.folded))
  | _ => heard

variable [NeZero n]

lemma MarkInv.advanceSynced (h : MarkInv L heard r) (j : Fin n) (C : ℤ) :
    MarkInv L (r.hear heard (.advanceSynced j C)) (r.advanceSynced j C) := by
  have hfold := h.fold.advanceSynced (i := j) C
  rw [RouteMap.advanceSynced] at hfold ⊢
  rw [RouteMap.hear]
  split_ifs at hfold ⊢
  · exact h
  · refine ⟨hfold, fun i => ?_, fun i x => ?_⟩
    · have hle := h.heard_le i
      simp only [Function.update_apply]
      split_ifs with hi
      · subst hi
        exact max_le hle (min_le_right _ _)
      · exact hle
    · obtain ⟨v, hv, hget⟩ := h.marks i x
      refine ⟨v, hv, ?_⟩
      simp only [Function.update_apply]
      split_ifs with hi
      · subst hi
        refine Option.ext fun d => ?_
        simp only [IntervalMap.get_eraseIf, hget, Option.filter_eq_some_iff, Bool.not_eq_true', decide_eq_true_eq,
          decide_eq_false_iff_not, and_assoc]
        refine and_congr_right ?_
        rintro rfl
        -- what the map shows is folded, so the report clears it up to the frontier at most
        obtain ⟨-, hle, -⟩ := hv.eq_some
        omega
      · exact hget

lemma MarkInv.step {a : RouteAct n} (h : MarkInv L heard r) (hs : routeStep r a = some r') :
    MarkInv L (r.hear heard a) r' := by
  have h' := h.fold.step hs
  cases a with
  | create d addr len =>
    obtain ⟨hd, hnone, rfl⟩ := routeStep_create hs
    have hopen := open_of_none hnone
    exact h.slotChange (slotChange_create (h.fold.not_mem_completed hopen))
      (h.fold.folded_lt (h.fold.login ▸ hd) hopen) h'
  | recordCompletion d idx acked =>
    obtain ⟨s, hdata, hi, rfl⟩ := routeStep_recordCompletion hs
    exact h.slotChange (h.fold.slotChange_answer hdata hi)
      (h.fold.folded_lt (h.fold.login_lt d s hdata) (open_of_not_mem hdata hi)) h'
  | foldTo F =>
    cases hs
    exact h.foldTo F
  | advanceSynced idx C =>
    cases hs
    exact h.advanceSynced idx C

omit [NeZero n] in
lemma MarkInv.get_iff (h : MarkInv L heard r) :
    (r.miss i).get x = some d ↔ ∃ s, LastMiss r x d s ∧ i ∉ s.holders ∧ heard i < d := by
  obtain ⟨v, hv, hget⟩ := h.marks i x
  rw [hget, Option.filter_eq_some_iff, decide_eq_true_eq]
  constructor
  · rintro ⟨rfl, hd⟩
    obtain ⟨s, hle, hs, hc, hi, hu⟩ := hv.eq_some
    exact ⟨s, ⟨hle, hs, hc.1, hc.2, fun f s' hlt hf hs' hx hl => hu f s' hlt hf hs' ⟨hx, hl⟩⟩, hi, hd⟩
  · rintro ⟨s, ⟨hle, hs, hx, hl, htop⟩, hi, hd⟩
    have hlast : MarksTo r i x none L r.folded (RouteSlot.mark i d s) :=
      shows_last (h.fold.login_lt d s hs) hle hs ⟨hx, hl⟩
        fun f s' hlt hf hs' hc => htop f s' hlt hf hs' hc.1 hc.2
    rw [hv.unique hlast, RouteSlot.mark, if_neg hi]
    exact ⟨rfl, hd⟩

def RouteAct.Unreported : RouteAct n → Prop
  | .advanceSynced _ _ => False
  | _ => True

instance : (a : RouteAct n) → Decidable a.Unreported
  | .create _ _ _ | .recordCompletion _ _ _ | .foldTo _ => .isTrue trivial
  | .advanceSynced _ _ => .isFalse id

omit [NeZero n] in
lemma RouteAct.Unreported.hear {a : RouteAct n} (h : a.Unreported) : r.hear heard a = heard := by
  cases a with
  | advanceSynced => exact absurd h id
  | create | recordCompletion | foldTo => rfl

lemma get_iff_of_unreported
    (h : Reach routeStep (fun _ a => a.Fits ∧ a.Unreported) (RouteMap.reset n L) r) :
    (r.miss i).get x = some d ↔ ∃ s, LastLacked r x d s ∧ i ∉ s.holders := by
  have hinv : RouteInv L (fun _ _ => True) r ∧ MarkInv L (fun _ => L) r := by
    refine h.invariant (P := fun r => RouteInv L (fun _ _ => True) r ∧ MarkInv L (fun _ => L) r)
      ⟨routeInv_reset L _, markInv_reset L⟩ fun r a r' hi hok hs => ⟨?_, ?_⟩
    · exact hi.1.step (by cases a <;> simp [RouteAct.Truthful]) hok.1 hs
    · have hm := hi.2.step hs
      rwa [hok.2.hear] at hm
  obtain ⟨hr, hm⟩ := hinv
  simp only [hm.get_iff, hr.lastMiss_iff]
  refine exists_congr fun s => and_congr_right fun hs => and_iff_left (hm.fold.login_lt d s hs.2.1)

def RouteMap.slowFold (r : RouteMap n) (target : ℤ) : RouteMap n :=
  (((r.drain target).applyBatch (r.batch target)).advanceFolded target).maybeTruncate target

omit [NeZero n] in
lemma RouteMap.maybeTruncate_hint (q : RouteMap n) (target k : ℤ) :
    RouteMap.maybeTruncate { q with pendingHint := k } target =
      { q.maybeTruncate target with pendingHint := k } := by
  simp only [RouteMap.maybeTruncate]
  split_ifs <;> rfl

omit [NeZero n] in
lemma FoldInv.foldTo_eq_slowFold {F : ℤ} (h : FoldInv L r) (hlt : r.folded < r.foldTarget F) :
    (r.foldTo F).miss = (r.slowFold (r.foldTarget F)).miss ∧
      (r.foldTo F).folded = (r.slowFold (r.foldTarget F)).folded ∧
      (r.foldTo F).pending = (r.slowFold (r.foldTarget F)).pending ∧
      (r.foldTo F).overlay = (r.slowFold (r.foldTarget F)).overlay := by
  have hF : r.foldTarget F ≤ F := min_le_left _ _
  simp only [RouteMap.foldTo, if_neg (show ¬ (F ≤ r.folded ∨ r.foldTarget F ≤ r.folded) by omega)]
  generalize r.foldTarget F = target at *
  split_ifs with hfast
  · have hgt : ∀ e ∈ r.pending, target < e.dlsn := fun e he => hfast.trans_le (h.hint_le e he)
    have hbatch : r.batch target = [] := by
      rw [RouteMap.batch, List.filter_eq_nil_iff]
      exact fun e he hle => absurd (of_decide_eq_true hle) (hgt e he).not_ge
    have hkeep : r.pending.filter (fun e => ¬ e.dlsn ≤ target) = r.pending := by
      rw [List.filter_eq_self]
      exact fun e he => decide_eq_true (hgt e he).not_ge
    -- only the hint, which the slow path takes afresh, may differ
    have hslow : r.slowFold target = { (r.advanceFolded target).maybeTruncate target with
        pendingHint := (r.drain target).pendingHint } := by
      rw [← RouteMap.maybeTruncate_hint]
      simp only [RouteMap.slowFold, hbatch, RouteMap.drain, hkeep]
      rfl
    rw [hslow]
    exact ⟨rfl, rfl, rfl, rfl⟩
  · exact ⟨rfl, rfl, rfl, rfl⟩

omit [NeZero n] in
lemma lastLacked_congr (hfolded : r'.folded = r.folded)
    (hdata : ∀ d, d ≤ r.folded → r'.overlay.data d = r.overlay.data d) :
    LastLacked r' x d s ↔ LastLacked r x d s := by
  simp only [LastLacked, hfolded]
  refine and_congr_right fun hle => ?_
  rw [hdata d hle]
  refine and_congr_right fun _ => and_congr_right fun _ => and_congr_right fun _ => ?_
  refine forall₂_congr fun e s' => forall₂_congr fun _ hf => ?_
  rw [hdata e hf]

theorem miss_maps_schedule_free
    (h : Reach routeStep (fun _ a => a.Fits ∧ a.Unreported) (RouteMap.reset n L) r) :
    (∀ i x d, (r.miss i).get x = some d ↔ ∃ s, LastLacked r x d s ∧ i ∉ s.holders) ∧
    (∀ r', Reach routeStep (fun _ a => a.Fits ∧ a.Unreported) (RouteMap.reset n L) r' →
      r'.folded = r.folded → (∀ d, d ≤ r.folded → r'.overlay.data d = r.overlay.data d) →
      ∀ i x, (r'.miss i).get x = (r.miss i).get x) ∧
    ∀ F, r.folded < r.foldTarget F →
      (r.foldTo F).miss = (r.slowFold (r.foldTarget F)).miss ∧
      (r.foldTo F).folded = (r.slowFold (r.foldTarget F)).folded ∧
      (r.foldTo F).pending = (r.slowFold (r.foldTarget F)).pending ∧
      (r.foldTo F).overlay = (r.slowFold (r.foldTarget F)).overlay := by
  refine ⟨fun i x d => get_iff_of_unreported h, fun r' h' hfolded hdata i x => ?_, fun F hF => ?_⟩
  · refine Option.ext fun d => ?_
    rw [get_iff_of_unreported h', get_iff_of_unreported h]
    simp only [lastLacked_congr hfolded hdata]
  · have hinv : FoldInv L r := h.invariant (foldInv_reset L) fun _ _ _ hi _ hs => hi.step hs
    exact hinv.foldTo_eq_slowFold hF

theorem miss_maps_schedule_free_missedByZero :
    ∃ r : RouteMap 3, Reach routeStep (fun _ a => a.Fits ∧ a.Unreported) (RouteMap.reset 3 (-1)) r ∧
      r.folded = 0 ∧ (r.miss 0).get 0 = some 0 ∧ ∃ s, LastLacked r 0 0 s ∧ 0 ∉ s.holders := by
  obtain ⟨r, hr, hp⟩ := Reach.exists_of_exec routeStep (fun _ a => a.Fits ∧ a.Unreported)
    (RouteMap.reset 3 (-1)) (missedByZero 0 4096)
    (fun r => decide (r.folded = 0 ∧ (r.miss 0).get 0 = some 0)) (by decide +kernel)
  obtain ⟨hF, hget⟩ := of_decide_eq_true hp
  exact ⟨r, hr, hF, hget, ((miss_maps_schedule_free hr).1 0 0 0).mp hget⟩

theorem miss_lost_at_top :
    ∃ r : RouteMap 3, Reach routeStep (fun _ a => a.Unreported) (RouteMap.reset 3 (-1)) r ∧
      (r.miss 0).get 18446744073709543424 = none ∧
      ∃ s, LastLacked r 18446744073709543424 0 s ∧ 0 ∉ s.holders := by
  obtain ⟨r, hr, hp⟩ := Reach.exists_of_exec routeStep (fun _ a => a.Unreported)
    (RouteMap.reset 3 (-1)) (missedByZero 18446744073709543424 8192)
    (fun r => decide (r.folded = 0 ∧ (r.miss 0).get 18446744073709543424 = none) &&
      (r.overlay.data 0).any fun s : RouteSlot 3 =>
        decide (s.addr = 18446744073709543424 ∧ s.len = 8192 ∧ s.holders = {1, 2}))
    (by decide +kernel)
  obtain ⟨h, hs⟩ := Bool.and_eq_true_iff.mp hp
  obtain ⟨hF, hget⟩ := of_decide_eq_true h
  obtain ⟨s, hs, hslot⟩ := (Option.any_eq_true _ _).mp hs
  obtain ⟨ha, hl, hh⟩ := of_decide_eq_true hslot
  refine ⟨r, hr, hget, s, ⟨hF.ge, hs, ?_, ⟨?_, ?_⟩, fun e s' hlt hle => absurd hle (by omega)⟩, by simp [hh]⟩
  · rw [RouteSlot.Covers, ha, hl]
    decide
  · rw [RouteSlot.Quorate, hh]
    decide
  · rw [hh]
    decide

end CraftClient.Router
