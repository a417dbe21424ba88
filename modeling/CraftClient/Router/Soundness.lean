import CraftClient.Router.Invariant

namespace CraftClient.Router

open Runs

variable {n : ℕ} {L : ℤ} {holds : Fin n → ℤ → Prop} {r r' : RouteMap n} {d : ℤ} {x : ℕ}
  {i : Fin n} {s : RouteSlot n}

section Batch

lemma get_applyMiss (m : Fin n → MissingMap) (e : PendingMiss n) (i : Fin n) (x : ℕ) :
    (RouteMap.applyMiss m e i).get x =
      if e.Covers x then (if i ∈ e.held then none else some e.dlsn) else (m i).get x := by
  simp only [RouteMap.applyMiss, PendingMiss.Covers]
  split_ifs <;> simp_all

lemma get_foldl_applyMiss_last (l : List (PendingMiss n)) (m : Fin n → MissingMap)
    (hsort : l.Pairwise fun a b => a.dlsn ≤ b.dlsn) :
    (∀ e ∈ l, ¬ e.Covers x) ∧ (l.foldl RouteMap.applyMiss m i).get x = (m i).get x ∨
      ∃ e ∈ l, e.Covers x ∧ (∀ a ∈ l, a.Covers x → a.dlsn ≤ e.dlsn) ∧
        (l.foldl RouteMap.applyMiss m i).get x = if i ∈ e.held then none else some e.dlsn := by
  induction l generalizing m with
  | nil => exact Or.inl ⟨by simp, rfl⟩
  | cons a l ih =>
    obtain ⟨ha, hl⟩ := List.pairwise_cons.mp hsort
    rw [List.foldl_cons]
    rcases ih (RouteMap.applyMiss m a) hl with ⟨hnone, hget⟩ | ⟨e, he, hx, htop, hget⟩
    · rw [hget, get_applyMiss]
      by_cases hax : a.Covers x
      · refine Or.inr ⟨a, List.mem_cons_self, hax, fun b hb hbx => ?_, if_pos hax⟩
        rcases List.mem_cons.mp hb with rfl | hb
        · exact le_rfl
        · exact absurd hbx (hnone b hb)
      · exact Or.inl ⟨List.forall_mem_cons.mpr ⟨hax, hnone⟩, if_neg hax⟩
    · exact Or.inr ⟨e, List.mem_cons_of_mem a he, hx,
        List.forall_mem_cons.mpr ⟨fun _ => ha e he, htop⟩, hget⟩

lemma mem_sortBatch {b : List (PendingMiss n)} {e : PendingMiss n} :
    e ∈ RouteMap.sortBatch b ↔ e ∈ b :=
  List.mem_insertionSort _

lemma pairwise_sortBatch (b : List (PendingMiss n)) :
    (RouteMap.sortBatch b).Pairwise fun x y => x.dlsn ≤ y.dlsn := by
  have : Std.Total fun x y : PendingMiss n => x.dlsn ≤ y.dlsn := ⟨fun x y => le_total _ _⟩
  have : IsTrans (PendingMiss n) fun x y => x.dlsn ≤ y.dlsn := ⟨fun _ _ _ => le_trans⟩
  exact List.pairwise_insertionSort _ b

lemma foldl_min_le (l : List (PendingMiss n)) (a : ℤ) :
    l.foldl (fun h e => min h e.dlsn) a ≤ a ∧
      ∀ e ∈ l, l.foldl (fun h e => min h e.dlsn) a ≤ e.dlsn := by
  induction l generalizing a with
  | nil => simp
  | cons b l ih =>
    obtain ⟨h₁, h₂⟩ := ih (min a b.dlsn)
    refine ⟨h₁.trans (min_le_left _ _), fun e he => ?_⟩
    rcases List.mem_cons.mp he with rfl | he
    · exact h₁.trans (min_le_right _ _)
    · exact h₂ e he

end Batch

structure FoldsTo (r r' : RouteMap n) (target : ℤ) : Prop where
  login : r'.loginDlsn = r.loginDlsn
  lt : r.folded < target
  prefix_completed : ∀ d, r.folded < d → d ≤ target → d ∈ r.overlay.completed
  folded : r'.folded = target
  base : r'.overlay.base ≤ max r.overlay.base (target + 1)
  data : r'.overlay.data = r.overlay.data
  completed : r'.overlay.completed = r.overlay.completed
  synced : r'.synced = r.synced
  miss : r'.miss = (RouteMap.sortBatch (r.batch target)).foldl RouteMap.applyMiss r.miss
  pending : ∀ e, e ∈ r'.pending ↔ e ∈ r.pending ∧ target < e.dlsn
  hint : ∀ e ∈ r'.pending, r'.pendingHint ≤ e.dlsn

lemma foldTo_cases (hh : ∀ e ∈ r.pending, r.pendingHint ≤ e.dlsn) (F : ℤ) :
    (F ≤ r.folded ∨ r.foldTarget F ≤ r.folded) ∧ r.foldTo F = r ∨
      FoldsTo r (r.foldTo F) (r.foldTarget F) := by
  set target := r.foldTarget F with htarget
  have hpre : ∀ d, r.folded < d → d ≤ target → d ∈ r.overlay.completed := by
    intro d hlt hle
    exact r.overlay.completedUpto_mem (by omega) (hle.trans (min_le_right _ _))
  have htrunc : ∀ q : RouteMap n, (q.maybeTruncate target) = q ∨ q.maybeTruncate target =
      { q with lastTrunc := target, overlay := q.overlay.truncate target } := by
    intro q
    rw [RouteMap.maybeTruncate]
    split_ifs
    · exact Or.inr rfl
    · exact Or.inl rfl
  simp only [RouteMap.foldTo, ← htarget]
  split_ifs with hstop hfast
  · exact Or.inl ⟨hstop, rfl⟩
  all_goals
    right
    obtain ⟨-, hlt⟩ := not_or.mp hstop
    have hmax : max r.folded target = target := max_eq_right (by omega)
  · have hbatch : r.batch target = [] := by
      rw [RouteMap.batch, List.filter_eq_nil_iff]
      intro e he hle
      have hle' := hh e he
      have := of_decide_eq_true hle
      omega
    have hpend : ∀ e, e ∈ r.pending ↔ e ∈ r.pending ∧ target < e.dlsn := by
      intro e
      refine ⟨fun he => ⟨he, ?_⟩, And.left⟩
      have hle' := hh e he
      omega
    rcases htrunc (r.advanceFolded target) with ht | ht <;> rw [ht]
    · exact ⟨rfl, by omega, hpre, hmax, le_max_left _ _, rfl, rfl, rfl, by rw [hbatch]; rfl, hpend, hh⟩
    · exact ⟨rfl, by omega, hpre, hmax, le_rfl, rfl, rfl, rfl, by rw [hbatch]; rfl, hpend, hh⟩
  · have hpend : ∀ e, e ∈ (r.drain target).pending ↔ e ∈ r.pending ∧ target < e.dlsn := by
      intro e
      simp [RouteMap.drain]
    have hhint : ∀ e ∈ (r.drain target).pending, (r.drain target).pendingHint ≤ e.dlsn :=
      (foldl_min_le _ kNever).2
    rcases htrunc (((r.drain target).applyBatch (r.batch target)).advanceFolded target) with ht | ht <;>
      rw [ht]
    · exact ⟨rfl, by omega, hpre, hmax, le_max_left _ _, rfl, rfl, rfl, rfl, hpend, hhint⟩
    · exact ⟨rfl, by omega, hpre, hmax, le_rfl, rfl, rfl, rfl, rfl, hpend, hhint⟩

lemma RouteSlot.miss_covers (hend : s.addr.toNat + s.len.toNat < 2 ^ 64) :
    s.miss.Covers x ↔ s.Covers x := by
  simp only [PendingMiss.Covers, RouteSlot.Covers, RouteSlot.miss, ivlLo, ivlHi, UInt64.toNat_add,
    Nat.mod_eq_of_lt hend]

lemma get_applyBatch {M target : ℤ} {b : List (PendingMiss n)}
    (hend : ∀ d s, r.overlay.data d = some s → s.addr.toNat + s.len.toNat < 2 ^ 64)
    (hb : ∀ e ∈ b, M < e.dlsn ∧ e.dlsn ≤ target ∧
      ∃ s, r.overlay.data e.dlsn = some s ∧ s.Quorate ∧ e = s.miss)
    (hhi : Highest r target x d s) (hi : i ∉ s.holders) (hd : s.dlsn = d)
    (hmem : M < d → s.miss ∈ b) :
    ((RouteMap.sortBatch b).foldl RouteMap.applyMiss r.miss i).get x =
      if d ≤ M then (r.miss i).get x else some d := by
  obtain ⟨-, hs, hx, -, htop⟩ := hhi
  -- an entry of the batch that covers `x` belongs to a slot that is not above `d`
  have hcov : ∀ e ∈ RouteMap.sortBatch b, e.Covers x → e.dlsn ≤ d := by
    intro e he hex
    obtain ⟨-, hle, s', hs', hq, rfl⟩ := hb e (mem_sortBatch.mp he)
    by_contra hgt
    exact htop _ s' (not_le.mp hgt) hle hs'
      ((RouteSlot.miss_covers (hend _ s' hs')).mp hex) hq
  rcases get_foldl_applyMiss_last _ r.miss (pairwise_sortBatch b) with ⟨hnone, hget⟩ | ⟨e, he, hex, hmax, hget⟩
  · rw [hget, if_pos]
    by_contra hold
    exact hnone _ (mem_sortBatch.mpr (hmem (not_le.mp hold))) ((RouteSlot.miss_covers (hend d s hs)).mpr hx)
  · obtain ⟨hlt, -, s', hs', -, hes⟩ := hb e (mem_sortBatch.mp he)
    have hle := hcov e he hex
    have hold : ¬ d ≤ M := by omega
    have hge : s.dlsn ≤ e.dlsn :=
      hmax _ (mem_sortBatch.mpr (hmem (not_le.mp hold))) ((RouteSlot.miss_covers (hend d s hs)).mpr hx)
    have heq : e.dlsn = d := by omega
    rw [heq, hs] at hs'
    obtain rfl : s = s' := Option.some.inj hs'
    have hheld : i ∉ e.held := by rwa [hes]
    rw [hget, if_neg hold, if_neg hheld, heq]

lemma FoldInv.foldsTo {target : ℤ} (h : FoldInv L r) (hf : FoldsTo r r' target) : FoldInv L r' := by
  have hlt := hf.lt
  have hL := h.login_le
  have hb := h.base_le
  have hb' := hf.base
  refine ⟨hf.login.trans h.login, by rw [hf.folded]; omega, by rw [hf.folded]; omega,
    by rw [hf.data]; exact h.login_lt, by rw [hf.data]; exact h.dlsn_eq,
    by rw [hf.data]; exact h.no_verdict, by rw [hf.data, hf.completed]; exact h.complete_iff, ?_, ?_, hf.hint⟩
  · intro d hLd hle
    rw [hf.folded] at hle
    rw [hf.completed]
    rcases le_or_gt d r.folded with h₁ | h₁
    · exact h.completed_of_le d hLd h₁
    · exact hf.prefix_completed d h₁ hle
  · intro e
    rw [hf.pending, h.pending_spec, hf.folded, hf.data]
    constructor
    · rintro ⟨⟨-, hs⟩, hlt'⟩
      exact ⟨hlt', hs⟩
    · rintro ⟨hlt', hs⟩
      exact ⟨⟨by omega, hs⟩, hlt'⟩

lemma FoldInv.foldTo (h : FoldInv L r) (F : ℤ) : FoldInv L (r.foldTo F) := by
  rcases foldTo_cases h.hint_le F with ⟨-, he⟩ | hf
  · rw [he]
    exact h
  · exact h.foldsTo hf

lemma FoldInv.advanceSynced [NeZero n] (h : FoldInv L r) (C : ℤ) : FoldInv L (r.advanceSynced i C) := by
  rw [RouteMap.advanceSynced]
  split_ifs
  · exact h
  · exact { h with }

lemma RouteInv.foldsTo {target : ℤ} (h : RouteInv L holds r) (hf : FoldsTo r r' target) :
    RouteInv L holds r' := by
  refine ⟨h.toFoldInv.foldsTo hf, by rw [hf.data]; exact h.end_lt,
    by rw [hf.data]; exact h.holds_of_acked, ?_⟩
  intro d s i x hhi hi
  have hhi : Highest r target x d s := by
    simpa only [Highest, hf.folded, hf.data] using hhi
  obtain ⟨hle, hs, hx, hq, htop⟩ := hhi
  have hd := h.dlsn_eq d s hs
  have hbatch : ∀ e ∈ r.batch target, r.folded < e.dlsn ∧ e.dlsn ≤ target ∧
      ∃ s, r.overlay.data e.dlsn = some s ∧ s.Quorate ∧ e = s.miss := by
    intro e he
    obtain ⟨hp, hle'⟩ := List.mem_filter.mp he
    obtain ⟨hlt', s', hs', -, hq', -, hes⟩ := (h.pending_spec e).mp hp
    exact ⟨hlt', of_decide_eq_true hle', s', hs', hq', hes⟩
  have hmem : r.folded < d → s.miss ∈ r.batch target := by
    intro hnew
    obtain ⟨s', hs', hcomp⟩ := (h.complete_iff d).mp (hf.prefix_completed d hnew hle)
    obtain rfl : s = s' := Option.some.inj (hs.symm.trans hs')
    have hne : s.holders ≠ Finset.univ := fun he => hi (he ▸ Finset.mem_univ i)
    refine List.mem_filter.mpr ⟨(h.pending_spec _).mpr ?_, by simpa [RouteSlot.miss, hd] using hle⟩
    change r.folded < s.dlsn ∧ ∃ s', r.overlay.data s.dlsn = some s' ∧ _
    rw [hd]
    exact ⟨hnew, s, hs, hcomp, hq, hne, rfl⟩
  rw [hf.miss, get_applyBatch h.end_lt hbatch ⟨hle, hs, hx, hq, htop⟩ hi hd hmem]
  split_ifs with hold
  · refine h.missed d s i x ⟨hold, hs, hx, hq, fun e s' hde heF => ?_⟩ hi
    exact htop e s' hde (heF.trans hf.lt.le)
  · exact Or.inl rfl

lemma RouteInv.foldTo (h : RouteInv L holds r) (F : ℤ) : RouteInv L holds (r.foldTo F) := by
  rcases foldTo_cases h.hint_le F with ⟨-, he⟩ | hf
  · rw [he]
    exact h
  · exact h.foldsTo hf

lemma RouteInv.advanceSynced [NeZero n] {C : ℤ} (h : RouteInv L holds r)
    (hC : ∀ d s, r.overlay.data d = some s → d ≤ C → holds i d) :
    RouteInv L holds (r.advanceSynced i C) := by
  rw [RouteMap.advanceSynced]
  split_ifs with hle
  · exact h
  · refine { h with missed := fun d s j x hhi hj => ?_ }
    rcases h.missed d s j x hhi hj with hm | hh
    · by_cases hji : j = i
      · subst hji
        simp only [Function.update_self, IntervalMap.get_eraseIf, hm]
        by_cases hd : d ≤ C
        · exact Or.inr (hC d s hhi.2.1 hd)
        · exact Or.inl (by simp [Option.filter, hd])
      · left
        simp only [Function.update_of_ne hji]
        exact hm
    · exact Or.inr hh

end CraftClient.Router
