import CraftClient.Client.WritePath

namespace CraftClient.Client

open Runs Router

variable {ι : Type} {n : ℕ} {r r' : RouteMap n} {d : ℤ} {x : ℕ} {i : Fin n}

structure AscInv (r : RouteMap n) : Prop where
  login_lt : ∀ d s, r.overlay.data d = some s → r.loginDlsn < d
  dlsn_eq : ∀ d s, r.overlay.data d = some s → s.dlsn = d
  completed_univ : ∀ d ∈ r.overlay.completed,
    ∃ s, r.overlay.data d = some s ∧ s.completed = Finset.univ
  completed_of_le : ∀ d, r.loginDlsn < d → d ≤ r.folded → d ∈ r.overlay.completed
  folded_lt : ∀ e ∈ r.pending, r.folded < e.dlsn
  hint_le : ∀ e ∈ r.pending, r.pendingHint ≤ e.dlsn
  miss_le : ∀ i x v, (r.miss i).get x = some v → v ≤ r.folded

lemma AscInv.folded_lt_of_open {s : RouteSlot n} (h : AscInv r) (hs : r.overlay.data d = some s)
    (hi : i ∉ s.completed) : r.folded < d := by
  by_contra hle
  obtain ⟨s', hs', hc⟩ := h.completed_univ d (h.completed_of_le d (h.login_lt d s hs) (not_lt.mp hle))
  obtain rfl : s = s' := Option.some.inj (hs.symm.trans hs')
  exact hi (hc ▸ Finset.mem_univ i)

lemma AscInv.create {addr len : UInt64} (h : AscInv r) (hL : r.loginDlsn < d)
    (hn : r.overlay.data d = none) : AscInv (r.create d addr len) := by
  have hdata : ∀ e s, (r.create d addr len).overlay.data e = some s →
      e = d ∧ s.dlsn = d ∨ r.overlay.data e = some s := by
    intro e s hs
    simp only [RouteMap.create, StreamTracker.create_data] at hs
    split_ifs at hs with he
    · cases hs
      exact Or.inl ⟨he, rfl⟩
    · exact Or.inr hs
  refine ⟨?_, ?_, ?_, h.completed_of_le, h.folded_lt, h.hint_le, h.miss_le⟩
  · intro e s hs
    rcases hdata e s hs with ⟨rfl, -⟩ | hs
    · exact hL
    · exact h.login_lt e s hs
  · intro e s hs
    rcases hdata e s hs with ⟨rfl, hd⟩ | hs
    · exact hd
    · exact h.dlsn_eq e s hs
  · intro e he
    obtain ⟨s, hs, hc⟩ := h.completed_univ e he
    have hne : e ≠ d := by
      rintro rfl
      rw [hn] at hs
      cases hs
    exact ⟨s, by simp [RouteMap.create, hne, hs], hc⟩

lemma AscInv.modify {s : RouteSlot n} (h : AscInv r) (hs : r.overlay.data d = some s)
    (s' : RouteSlot n) (hd : s'.dlsn = s.dlsn) (hc : s.completed ⊆ s'.completed) :
    AscInv { r with overlay := r.overlay.modify d fun _ => s' } := by
  have hdata : ∀ e q, (r.overlay.modify d fun _ => s').data e = some q →
      e = d ∧ q = s' ∨ r.overlay.data e = some q := by
    intro e q hq
    simp only [StreamTracker.modify_data, hs, Option.map_some] at hq
    split_ifs at hq with he
    · exact Or.inl ⟨he, (Option.some.inj hq).symm⟩
    · exact Or.inr hq
  refine ⟨?_, ?_, ?_, h.completed_of_le, h.folded_lt, h.hint_le, h.miss_le⟩
  · intro e q hq
    rcases hdata e q hq with ⟨rfl, -⟩ | hq
    · exact h.login_lt e s hs
    · exact h.login_lt e q hq
  · intro e q hq
    rcases hdata e q hq with ⟨rfl, rfl⟩ | hq
    · rw [hd]
      exact h.dlsn_eq e s hs
    · exact h.dlsn_eq e q hq
  · intro e he
    obtain ⟨q, hq, hqc⟩ := h.completed_univ e he
    by_cases hed : e = d
    · subst hed
      obtain rfl : s = q := Option.some.inj (hs.symm.trans hq)
      refine ⟨s', by simp [hs], Finset.eq_univ_iff_forall.mpr fun j => hc ?_⟩
      rw [hqc]
      exact Finset.mem_univ j
    · exact ⟨q, by simp [hed, hq], hqc⟩

lemma AscInv.pushMiss {e : PendingMiss n} (h : AscInv r) (he : r.folded < e.dlsn) :
    AscInv (r.pushMiss e) :=
  { h with
    folded_lt := fun e' he' => by
      rcases List.mem_append.mp he' with he' | he'
      · exact h.folded_lt e' he'
      · rw [List.mem_singleton.mp he']
        exact he
    hint_le := fun e' he' => by
      rcases List.mem_append.mp he' with he' | he'
      · exact (min_le_right _ _).trans (h.hint_le e' he')
      · rw [List.mem_singleton.mp he']
        exact min_le_left _ _ }

lemma AscInv.recordCompletion {s : RouteSlot n} {acked : Bool} (h : AscInv r)
    (hs : r.overlay.data d = some s) (hi : i ∉ s.completed) :
    AscInv (r.recordCompletion d i acked) := by
  have hlt := h.folded_lt_of_open hs hi
  have hmod := h.modify hs (s.answer i acked) rfl (Finset.subset_insert i s.completed)
  have hdata : (r.overlay.modify d fun _ => s.answer i acked).data d = some (s.answer i acked) := by
    simp [hs]
  simp only [RouteMap.recordCompletion]
  cases hf : r.overlay.find d with
  | none => exact h
  | some s₁ =>
    obtain rfl : s = s₁ := Option.some.inj (hs.symm.trans (StreamTracker.find_eq_some.mp hf).2)
    dsimp only
    split_ifs with hcomp hpush
    · exact hmod
    -- the completed bit is set last, over the slot as it now is
    · have hd : s.dlsn = d := h.dlsn_eq d s hs
      have hp := hmod.pushMiss (e := (s.answer i acked).miss) (hd.symm ▸ hlt)
      refine { hp with
        completed_univ := fun e he => ?_
        completed_of_le := fun e hL hle => Finset.mem_insert_of_mem (hp.completed_of_le e hL hle) }
      rcases Finset.mem_insert.mp he with rfl | he
      · exact ⟨_, hdata, not_not.mp hcomp⟩
      · exact hp.completed_univ e he
    · refine { hmod with
        completed_univ := fun e he => ?_
        completed_of_le := fun e hL hle => Finset.mem_insert_of_mem (hmod.completed_of_le e hL hle) }
      rcases Finset.mem_insert.mp he with rfl | he
      · exact ⟨_, hdata, not_not.mp hcomp⟩
      · exact hmod.completed_univ e he

lemma AscInv.noteFilled (h : AscInv r) (hlt : r.folded < d) : AscInv (r.noteFilled d i) := by
  rw [RouteMap.noteFilled]
  cases hf : r.overlay.find d with
  | none => exact h
  | some s =>
    have hs := (StreamTracker.find_eq_some.mp hf).2
    have hmod := h.modify hs { s with holders := insert i s.holders, verdict := true } rfl
      subset_rfl
    have hd : s.dlsn = d := h.dlsn_eq d s hs
    dsimp only
    split_ifs
    · exact hmod.pushMiss (hd.symm ▸ hlt)
    · exact hmod

lemma get_foldl_applyMiss_le {B : ℤ} (l : List (PendingMiss n)) (m : Fin n → MissingMap)
    (hm : ∀ i x v, (m i).get x = some v → v ≤ B) (hl : ∀ e ∈ l, e.dlsn ≤ B) :
    ∀ i x v, (l.foldl RouteMap.applyMiss m i).get x = some v → v ≤ B := by
  induction l generalizing m with
  | nil => exact hm
  | cons e l ih =>
    refine ih _ (fun i x v hv => ?_) fun e' he' => hl e' (List.mem_cons_of_mem e he')
    rw [get_applyMiss] at hv
    split_ifs at hv
    · exact Option.some.inj hv ▸ hl e List.mem_cons_self
    · exact hm i x v hv

lemma mem_foldBatch {F : ℤ} {e : PendingMiss n} (h : e ∈ foldBatch r F) :
    e ∈ r.pending ∧ e.dlsn ≤ r.foldTarget F := by
  simp only [foldBatch] at h
  split_ifs at h
  · cases h
  · cases h
  · simpa [RouteMap.batch] using mem_sortBatch.mp h

lemma pairwise_foldBatch (r : RouteMap n) (F : ℤ) :
    (foldBatch r F).Pairwise fun x y => x.dlsn ≤ y.dlsn := by
  simp only [foldBatch]
  split_ifs
  · exact .nil
  · exact .nil
  · exact pairwise_sortBatch _

lemma AscInv.foldTo (h : AscInv r) (F : ℤ) : AscInv (r.foldTo F) := by
  rcases foldTo_cases h.hint_le F with ⟨-, he⟩ | hf
  · rw [he]
    exact h
  have hlt := hf.lt
  refine ⟨?_, ?_, ?_, ?_, ?_, hf.hint, ?_⟩
  · rw [hf.data, hf.login]
    exact h.login_lt
  · rw [hf.data]
    exact h.dlsn_eq
  · rw [hf.data, hf.completed]
    exact h.completed_univ
  · intro d hL hle
    rw [hf.login] at hL
    rw [hf.folded] at hle
    rw [hf.completed]
    rcases le_or_gt d r.folded with h₁ | h₁
    · exact h.completed_of_le d hL h₁
    · exact hf.prefix_completed d h₁ hle
  · intro e he
    rw [hf.folded]
    exact ((hf.pending e).mp he).2
  · rw [hf.miss, hf.folded]
    apply get_foldl_applyMiss_le
    · intro i x v hv
      exact (h.miss_le i x v hv).trans hlt.le
    · intro e he
      have hm := mem_sortBatch.mp he
      simp only [RouteMap.batch, List.mem_filter, decide_eq_true_eq] at hm
      exact hm.2

lemma AscInv.le_folded_foldTo {F : ℤ} (h : AscInv r) :
    r.folded ≤ (r.foldTo F).folded ∧ ∀ e ∈ foldBatch r F, e.dlsn ≤ (r.foldTo F).folded := by
  rcases foldTo_cases h.hint_le F with ⟨hstop, he⟩ | hf
  · refine ⟨by rw [he], fun e hm => ?_⟩
    simp only [foldBatch, if_pos hstop] at hm
    cases hm
  · rw [hf.folded]
    exact ⟨hf.lt.le, fun e hm => (mem_foldBatch hm).2⟩

section Runs

variable [DecidableEq ι] [Fintype ι] {leader : ι → Fin n} {s s' : WritePath ι n} {a : WriteAct ι n}

structure AppliedInv (s : WritePath ι n) : Prop where
  route : AscInv s.route
  le_folded : ∀ d ∈ s.applied, d ≤ s.route.folded
  ascending : s.applied.Pairwise (· ≤ ·)

def WriteAct.NotesAhead (s : WritePath ι n) : WriteAct ι n → Prop
  | .go i _ => ∀ u, filling (s.sys.threads i) = some u → s.route.folded < u
  | _ => True

instance (s : WritePath ι n) (a : WriteAct ι n) : Decidable (a.NotesAhead s) := by
  cases a with
  | go i weak =>
    cases h : filling (s.sys.threads i) with
    | none => exact .isTrue fun u hu => by simp [h] at hu
    | some u =>
      exact decidable_of_iff (s.route.folded < u)
        ⟨fun hlt u' hu' => by rw [h] at hu'; exact Option.some.inj hu' ▸ hlt, fun hall => hall u h⟩
  | _ => exact .isTrue trivial

lemma noteFilled_folded (r : RouteMap n) (d : ℤ) (i : Fin n) : (r.noteFilled d i).folded = r.folded := by
  rw [RouteMap.noteFilled]
  cases r.overlay.find d with
  | none => rfl
  | some s =>
    dsimp only
    split_ifs <;> rfl

lemma recordCompletion_folded (r : RouteMap n) (d : ℤ) (i : Fin n) (acked : Bool) :
    (r.recordCompletion d i acked).folded = r.folded := by
  rw [RouteMap.recordCompletion]
  cases r.overlay.find d with
  | none => rfl
  | some s =>
    dsimp only
    split_ifs <;> rfl

omit [DecidableEq ι] [Fintype ι] in
lemma AppliedInv.of_route (h : AppliedInv s) (hr : AscInv s'.route)
    (hF : s'.route.folded = s.route.folded) (ha : s'.applied = s.applied) : AppliedInv s' :=
  ⟨hr, by rw [ha, hF]; exact h.le_folded, by rw [ha]; exact h.ascending⟩

lemma AppliedInv.step (h : AppliedInv s) (hn : a.NotesAhead s) (hs : writeStep leader s a = some s') :
    AppliedInv s' := by
  cases a with
  | reserve | retire =>
    obtain ⟨sys, -, rfl⟩ := Option.map_eq_some_iff.mp hs
    exact h.of_route h.route rfl rfl
  | resolve i d oc =>
    simp only [writeStep] at hs
    split_ifs at hs
    obtain ⟨sys, -, rfl⟩ := Option.map_eq_some_iff.mp hs
    exact h.of_route h.route rfl rfl
  | go i weak =>
    obtain ⟨sys, -, rfl⟩ := Option.map_eq_some_iff.mp hs
    cases hf : filling (s.sys.threads i) with
    | none => exact h.of_route (by simpa [hf] using h.route) (by simp) rfl
    | some u =>
      refine h.of_route ?_ ?_ rfl
      · simpa [hf] using h.route.noteFilled (hn u hf)
      · simpa [hf] using noteFilled_folded _ _ _
  | create d =>
    simp only [writeStep] at hs
    split_ifs at hs with hd
    obtain ⟨sl, -, rfl⟩ := Option.map_eq_some_iff.mp hs
    exact h.of_route (h.route.create hd.1 (Option.isNone_iff_eq_none.mp hd.2)) rfl rfl
  | complete d idx acked =>
    simp only [writeStep] at hs
    split_ifs at hs with hd <;> cases hs <;> obtain ⟨sl, hsl, hi⟩ := (Option.any_eq_true _ _).mp hd
    · exact h.of_route (h.route.recordCompletion hsl (of_decide_eq_true hi))
        (recordCompletion_folded _ _ _ _) rfl
    · exact h.of_route (h.route.recordCompletion hsl (of_decide_eq_true hi))
        (recordCompletion_folded _ _ _ _) rfl
  | fold F =>
    simp only [writeStep] at hs
    split_ifs at hs
    cases hs
    obtain ⟨hle, hbatch⟩ := h.route.le_folded_foldTo (F := F)
    refine ⟨h.route.foldTo F, fun d hd => ?_, List.pairwise_append.mpr ⟨h.ascending, ?_, ?_⟩⟩
    · rcases List.mem_append.mp hd with hd | hd
      · exact (h.le_folded d hd).trans hle
      · obtain ⟨e, he, rfl⟩ := List.mem_map.mp hd
        exact hbatch e he
    · exact List.pairwise_map.mpr (pairwise_foldBatch s.route F)
    · intro d hd d' hd'
      obtain ⟨e, he, rfl⟩ := List.mem_map.mp hd'
      exact (h.le_folded d hd).trans (h.route.folded_lt e (mem_foldBatch he).1).le

end Runs

def goes (i : Fin 2) (k : ℕ) : List (WriteAct (Fin 2) 3) := List.replicate k (.go i false)

def answers (d : ℤ) (a₀ a₁ a₂ : Bool) : List (WriteAct (Fin 2) 3) :=
  [.complete d 0 a₀, .complete d 1 a₁, .complete d 2 a₂]

end CraftClient.Client
