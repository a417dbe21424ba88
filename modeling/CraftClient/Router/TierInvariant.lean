import CraftClient.Router.TierSteps

namespace CraftClient.Router

variable {n : ℕ} {L M : ℤ} {t t' : Tiers n} {d : ℤ} {s s₁ : RouteSlot n} {idx : Fin n} {x : ℕ}

def Tiers.Done (L : ℤ) (t : Tiers n) (M : ℤ) : Prop :=
  ∀ d, L < d → d ≤ M → d ∈ t.route.overlay.completed

def RouteSlot.Owes (s : RouteSlot n) : Prop :=
  s.completed = Finset.univ ∧ s.Quorate ∧ s.holders ≠ Finset.univ

structure TiersInv (L : ℤ) (t : Tiers n) : Prop where
  login : t.route.loginDlsn = L
  login_folded : L ≤ t.route.folded
  login_mapped : L ≤ t.mapped
  base_le : t.route.overlay.base ≤ t.route.folded + 1
  login_lt : ∀ d s, t.route.overlay.data d = some s → L < d
  dlsn_eq : ∀ d s, t.route.overlay.data d = some s → s.dlsn = d
  end_lt : ∀ d s, t.route.overlay.data d = some s → s.addr.toNat + s.len.toNat < 2 ^ 64
  full : ∀ d ∈ t.route.overlay.completed, ∃ s, t.route.overlay.data d = some s ∧
    s.completed = Finset.univ
  folded_done : t.Done L t.route.folded
  mapped_done : t.Done L t.mapped
  queue_spec : ∀ e, e ∈ t.route.pending ∨ e ∈ t.drained → t.mapped < e.dlsn ∧
    ∃ s, t.route.overlay.data e.dlsn = some s ∧ s.Owes ∧ e = s.miss
  hint_le : ∀ e ∈ t.route.pending, t.route.pendingHint ≤ e.dlsn
  queued : ∀ d s, t.mapped < d → d ∈ t.route.overlay.completed → t.route.overlay.data d = some s →
    s.Owes → s.miss ∈ t.route.pending ∨ s.miss ∈ t.drained
  folded_mapped : ∀ d s, t.route.overlay.data d = some s → s.Owes → d ≤ t.route.folded → d ≤ t.mapped
  missed : ∀ d s i x, Highest t.route t.mapped x d s → i ∉ s.holders →
    (t.route.miss i).get x = some d ∨ d ≤ t.route.synced i

structure Frame (L : ℤ) (t t' : Tiers n) (leg : Option (ℤ × Fin n)) (last : Option ℤ) : Prop where
  grow : ∀ d s, t.route.overlay.data d = some s → ∃ s', t'.route.overlay.data d = some s' ∧
    s'.addr = s.addr ∧ s'.len = s.len ∧ s.holders ⊆ s'.holders ∧
    (s.completed = Finset.univ → s' = s)
  bits : ∀ d s' idx, t'.route.overlay.data d = some s' → idx ∈ s'.completed →
    (∃ s, t.route.overlay.data d = some s ∧ idx ∈ s.completed) ∨ leg = some (d, idx)
  done : t.route.overlay.completed ⊆ t'.route.overlay.completed
  marked : ∀ d ∈ t'.route.overlay.completed, d ∈ t.route.overlay.completed ∨ last = some d
  folded : t.route.folded ≤ t'.route.folded
  synced : ∀ i, t.route.synced i ≤ t'.route.synced i
  pushed : ∀ e ∈ t'.route.pending, e ∈ t.route.pending ∨
    L < e.dlsn ∧ e.dlsn ∉ t.route.overlay.completed
  kept : ∀ e ∈ t.route.pending, e ∈ t'.route.pending ∨ e.dlsn ∈ t.route.overlay.completed

lemma Frame.of_eq {leg : Option (ℤ × Fin n)} {last : Option ℤ} (L : ℤ)
    (hd : t'.route.overlay.data = t.route.overlay.data)
    (hc : t'.route.overlay.completed = t.route.overlay.completed)
    (hp : t'.route.pending = t.route.pending) (hf : t.route.folded ≤ t'.route.folded)
    (hs : ∀ i, t.route.synced i ≤ t'.route.synced i) : Frame L t t' leg last where
  grow _ s h := ⟨s, hd ▸ h, rfl, rfl, Finset.Subset.refl _, fun _ => rfl⟩
  bits _ s' _ h hi := Or.inl ⟨s', hd ▸ h, hi⟩
  done := hc ▸ Finset.Subset.refl _
  marked _ h := Or.inl (hc ▸ h)
  folded := hf
  synced := hs
  pushed _ he := Or.inl (hp ▸ he)
  kept _ he := Or.inl (hp ▸ he)

lemma Frame.refl (L : ℤ) (t : Tiers n) (leg : Option (ℤ × Fin n)) (last : Option ℤ) :
    Frame L t t leg last :=
  .of_eq L rfl rfl rfl le_rfl fun _ => le_rfl

lemma Tiers.Done.mono (h : t.Done L M) (hc : t.route.overlay.completed ⊆ t'.route.overlay.completed) :
    t'.Done L M :=
  fun d h₁ h₂ => hc (h d h₁ h₂)

lemma Tiers.Done.lt (h : t.Done L M) (hL : L < d) (hd : d ∉ t.route.overlay.completed) : M < d := by
  by_contra hle
  exact hd (h d hL (not_lt.mp hle))

namespace TiersInv

lemma not_done (h : TiersInv L t) (hs : t.route.overlay.data d = some s)
    (hi : s.completed ≠ Finset.univ) : d ∉ t.route.overlay.completed := by
  intro hm
  obtain ⟨s', hs', hc⟩ := h.full d hm
  rw [hs] at hs'
  cases hs'
  exact hi hc

section Slot

lemma setSlot (h : TiersInv L t) (hL : L < d)
    (hn : ∀ s, t.route.overlay.data d = some s → s.completed ≠ Finset.univ) (hd : s₁.dlsn = d)
    (hend : s₁.addr.toNat + s₁.len.toNat < 2 ^ 64) :
    TiersInv L (t.on fun r => { r with overlay := r.overlay.create d s₁ }) := by
  have hnd : d ∉ t.route.overlay.completed := fun hm =>
    have ⟨s, hs, hc⟩ := h.full d hm
    hn s hs hc
  have hF := h.folded_done.lt hL hnd
  have hM := h.mapped_done.lt hL hnd
  have hdata : ∀ e s', (t.route.overlay.create d s₁).data e = some s' →
      e = d ∧ s' = s₁ ∨ e ≠ d ∧ t.route.overlay.data e = some s' := by
    intro e s' hs'
    rw [StreamTracker.create_data] at hs'
    split_ifs at hs' with he
    · exact Or.inl ⟨he, (Option.some.inj hs').symm⟩
    · exact Or.inr ⟨he, hs'⟩
  have hdata' : ∀ e s', e ≠ d → t.route.overlay.data e = some s' →
      (t.route.overlay.create d s₁).data e = some s' := by
    intro e s' he hs'
    rw [StreamTracker.create_data, if_neg he, hs']
  refine { h with
    login_lt := ?_, dlsn_eq := ?_, end_lt := ?_, full := ?_, queue_spec := ?_, queued := ?_
    folded_mapped := ?_, missed := ?_ }
  · intro e s' hs'
    rcases hdata e s' hs' with ⟨rfl, -⟩ | ⟨-, hs'⟩
    · exact hL
    · exact h.login_lt e s' hs'
  · intro e s' hs'
    rcases hdata e s' hs' with ⟨rfl, rfl⟩ | ⟨-, hs'⟩
    · exact hd
    · exact h.dlsn_eq e s' hs'
  · intro e s' hs'
    rcases hdata e s' hs' with ⟨rfl, rfl⟩ | ⟨-, hs'⟩
    · exact hend
    · exact h.end_lt e s' hs'
  · intro e he
    obtain ⟨s', hs', hc⟩ := h.full e he
    exact ⟨s', hdata' e s' (fun hed => hnd (hed ▸ he)) hs', hc⟩
  · intro e he
    obtain ⟨hlt, s', hs', ho, hes⟩ := h.queue_spec e he
    exact ⟨hlt, s', hdata' _ s' (fun hed => hn s' (hed ▸ hs') ho.1) hs', ho, hes⟩
  · intro e s' hlt he hs' ho
    rcases hdata e s' hs' with ⟨rfl, -⟩ | ⟨-, hs'⟩
    · exact absurd he hnd
    · exact h.queued e s' hlt he hs' ho
  · intro e s' hs' ho hle
    rcases hdata e s' hs' with ⟨rfl, -⟩ | ⟨-, hs'⟩
    · exact absurd hle (not_le.mpr hF)
    · exact h.folded_mapped e s' hs' ho hle
  · intro e s' i x hhi hi
    obtain ⟨hle, hs', hx, hq, htop⟩ := hhi
    have hle : e ≤ t.mapped := hle
    rcases hdata e s' hs' with ⟨rfl, -⟩ | ⟨-, hs'⟩
    · exact absurd hle (not_le.mpr hM)
    · refine h.missed e s' i x ⟨hle, hs', hx, hq, fun f s'' hlt hf hs'' => ?_⟩ hi
      exact htop f s'' hlt hf (hdata' f s'' (by omega) hs'')

lemma setSlot_frame {leg : Option (ℤ × Fin n)} {last : Option ℤ} (L : ℤ)
    (hg : ∀ s, t.route.overlay.data d = some s → s₁.addr = s.addr ∧ s₁.len = s.len ∧
      s.holders ⊆ s₁.holders ∧ (s.completed = Finset.univ → s₁ = s))
    (hb : ∀ idx ∈ s₁.completed, (∃ s, t.route.overlay.data d = some s ∧ idx ∈ s.completed) ∨
      leg = some (d, idx)) :
    Frame L t (t.on fun r => { r with overlay := r.overlay.create d s₁ }) leg last := by
  refine { Frame.refl L t leg last with grow := fun e s hs => ?_, bits := fun e s' idx hs' hi => ?_ }
  · by_cases he : e = d
    · subst he
      exact ⟨s₁, by simp [Tiers.on], hg s hs⟩
    · exact ⟨s, by simp [Tiers.on, he, hs], rfl, rfl, Finset.Subset.refl _, fun _ => rfl⟩
  · simp only [Tiers.on, StreamTracker.create_data] at hs'
    split_ifs at hs' with he
    · subst he
      cases hs'
      exact hb idx hi
    · exact Or.inl ⟨s', hs', hi⟩

end Slot

lemma pushSlot (h : TiersInv L t) (hs : t.route.overlay.data d = some s)
    (hc : s.completed = Finset.univ) (hd : d ∉ t.route.overlay.completed) :
    TiersInv L (t.on (·.pushSlot s)) ∧ Frame L t (t.on (·.pushSlot s)) none (some d) ∧
      (s.Owes → s.miss ∈ (t.on (·.pushSlot s)).route.pending) := by
  have hL := h.login_lt d s hs
  have hM := h.mapped_done.lt hL hd
  have hdl : s.miss.dlsn = d := h.dlsn_eq d s hs
  simp only [Tiers.on, RouteMap.pushSlot]
  split_ifs with hp
  · refine ⟨{ h with queue_spec := ?_, hint_le := ?_, queued := ?_ },
      { Frame.refl L t none (some d) with pushed := ?_, kept := ?_ }, fun _ => by simp [RouteMap.pushMiss]⟩
    · intro e he
      simp only [RouteMap.pushMiss, List.mem_append, List.mem_singleton] at he
      rcases he with (he | rfl) | he
      · exact h.queue_spec e (Or.inl he)
      · rw [hdl]
        exact ⟨hM, s, hs, ⟨hc, hp⟩, rfl⟩
      · exact h.queue_spec e (Or.inr he)
    · intro e he
      simp only [RouteMap.pushMiss, List.mem_append, List.mem_singleton] at he
      rcases he with he | rfl
      · exact (min_le_right _ _).trans (h.hint_le e he)
      · exact min_le_left _ _
    · intro e s' hlt he hs' ho
      rcases h.queued e s' hlt he hs' ho with hq | hq
      · exact Or.inl (List.mem_append_left _ hq)
      · exact Or.inr hq
    · intro e he
      simp only [RouteMap.pushMiss, List.mem_append, List.mem_singleton] at he
      rcases he with he | rfl
      · exact Or.inl he
      · rw [hdl]
        exact Or.inr ⟨hL, hd⟩
    · exact fun e he => Or.inl (List.mem_append_left _ he)
  · exact ⟨h, Frame.refl L t _ _, fun ho => absurd ho.2 hp⟩

lemma markComplete (h : TiersInv L t) (hs : t.route.overlay.data d = some s)
    (hc : s.completed = Finset.univ) (hp : s.Owes → s.miss ∈ t.route.pending) :
    TiersInv L (t.on (·.markComplete d)) ∧ Frame L t (t.on (·.markComplete d)) none (some d) := by
  have hsub : t.route.overlay.completed ⊆ (t.route.overlay.complete d).completed :=
    fun e he => by simp [he]
  refine ⟨{ h with
      full := ?_, queued := ?_
      folded_done := h.folded_done.mono hsub, mapped_done := h.mapped_done.mono hsub },
    { Frame.refl L t none (some d) with done := hsub, marked := ?_ }⟩
  · intro e he
    rcases (StreamTracker.mem_complete _ _ _).mp he with rfl | he
    · exact ⟨s, hs, hc⟩
    · exact h.full e he
  · intro e s' hlt he hs' ho
    rcases (StreamTracker.mem_complete _ _ _).mp he with rfl | he
    · obtain rfl : s = s' := Option.some.inj (hs.symm.trans hs')
      exact Or.inl (hp ho)
    · exact h.queued e s' hlt he hs' ho
  · intro e he
    rcases (StreamTracker.mem_complete _ _ _).mp he with rfl | he
    · exact Or.inr rfl
    · exact Or.inl he

section Fold

variable {target : ℤ}

lemma drain (h : TiersInv L t) (hd : t.drained = []) (hdone : t.Done L target) :
    TiersInv L { t with route := t.route.drain target, drained := t.route.batch target } ∧
      Frame L t { t with route := t.route.drain target, drained := t.route.batch target } none none := by
  have hpend : ∀ e, e ∈ (t.route.drain target).pending ↔ e ∈ t.route.pending ∧ target < e.dlsn := by
    intro e
    simp [RouteMap.drain]
  have hbatch : ∀ e, e ∈ t.route.batch target ↔ e ∈ t.route.pending ∧ e.dlsn ≤ target := by
    intro e
    simp [RouteMap.batch]
  refine ⟨{ h with queue_spec := ?_, hint_le := (foldl_min_le _ kNever).2, queued := ?_ },
    { Frame.refl L t none none with pushed := ?_, kept := ?_ }⟩
  · intro e he
    refine h.queue_spec e (Or.inl ?_)
    rcases he with he | he
    · exact ((hpend e).mp he).1
    · exact ((hbatch e).mp he).1
  · intro d s hlt he hs ho
    have hq : s.miss ∈ t.route.pending := by simpa [hd] using h.queued d s hlt he hs ho
    rcases le_or_gt s.miss.dlsn target with hle | hgt
    · exact Or.inr ((hbatch _).mpr ⟨hq, hle⟩)
    · exact Or.inl ((hpend _).mpr ⟨hq, hgt⟩)
  · exact fun e he => Or.inl ((hpend e).mp he).1
  · intro e he
    rcases le_or_gt e.dlsn target with hle | hgt
    · obtain ⟨-, s, hs, -⟩ := h.queue_spec e (Or.inl he)
      exact Or.inr (hdone e.dlsn (h.login_lt _ s hs) hle)
    · exact Or.inl ((hpend e).mpr ⟨he, hgt⟩)

lemma applyBatch (h : TiersInv L t) (hdone : t.Done L target) (hlt : t.mapped < target)
    (hpend : ∀ e ∈ t.route.pending, target < e.dlsn) (hle : ∀ e ∈ t.drained, e.dlsn ≤ target) :
    TiersInv L ⟨t.route.applyBatch t.drained, target, []⟩ := by
  have hL := h.login_mapped
  have hmem : ∀ d s, t.mapped < d → d ≤ target → t.route.overlay.data d = some s → s.Quorate →
      s.holders ≠ Finset.univ → s.miss ∈ t.drained := by
    intro d s hd hdt hs hq hne
    have hm := hdone d (by omega) hdt
    obtain ⟨s', hs', hc⟩ := h.full d hm
    obtain rfl : s = s' := Option.some.inj (hs.symm.trans hs')
    refine (h.queued d s hd hm hs ⟨hc, hq, hne⟩).resolve_left fun hp => ?_
    have hgt : target < s.dlsn := hpend _ hp
    rw [h.dlsn_eq d s hs] at hgt
    omega
  refine { h with
    login_mapped := by change L ≤ target; omega
    mapped_done := hdone, queue_spec := ?_, queued := ?_, folded_mapped := ?_, missed := ?_ }
  · intro e he
    have he : e ∈ t.route.pending := by simpa [RouteMap.applyBatch] using he
    exact ⟨hpend e he, (h.queue_spec e (Or.inl he)).2⟩
  · intro d s hd hm hs ho
    change target < d at hd
    refine Or.inl ((h.queued d s (by omega) hm hs ho).resolve_right fun hq => ?_)
    have hle' : s.dlsn ≤ target := hle _ hq
    rw [h.dlsn_eq d s hs] at hle'
    omega
  · intro d s hs ho hd
    exact (h.folded_mapped d s hs ho hd).trans hlt.le
  · intro d s i x hhi hi
    have hhi : Highest t.route target x d s := hhi
    obtain ⟨hdt, hs, hx, hq, htop⟩ := hhi
    have hne : s.holders ≠ Finset.univ := fun he => hi (he ▸ Finset.mem_univ i)
    have hget := get_applyBatch (b := t.drained) (M := t.mapped) h.end_lt
      (fun e he => have ⟨h₁, s', hs', ho, hes⟩ := h.queue_spec e (Or.inr he)
        ⟨h₁, hle e he, s', hs', ho.2.1, hes⟩)
      ⟨hdt, hs, hx, hq, htop⟩ hi (h.dlsn_eq d s hs) fun hd => hmem d s hd hdt hs hq hne
    change ((RouteMap.sortBatch t.drained).foldl RouteMap.applyMiss t.route.miss i).get x = _ ∨ _
    rw [hget]
    split_ifs with hold
    · refine h.missed d s i x ⟨hold, hs, hx, hq, fun e s' hde heM => ?_⟩ hi
      exact htop e s' hde (by omega)
    · exact Or.inl rfl

lemma advanceFolded (h : TiersInv L t) (hdone : t.Done L target)
    (hm : ∀ d s, t.route.overlay.data d = some s → s.Owes → d ≤ target → d ≤ t.mapped) :
    TiersInv L (t.on (·.advanceFolded target)) := by
  have hfold : (t.on (·.advanceFolded target)).route.folded = max t.route.folded target := rfl
  have hb := h.base_le
  have hL := h.login_folded
  refine { h with
    login_folded := by rw [hfold]; omega
    base_le := by
      rw [hfold]
      change t.route.overlay.base ≤ _
      omega
    folded_done := ?_, folded_mapped := ?_ }
  · intro d hLd hle
    rw [hfold] at hle
    rcases le_max_iff.mp hle with hle | hle
    · exact h.folded_done d hLd hle
    · exact hdone d hLd hle
  · intro d s hs ho hle
    rw [hfold] at hle
    rcases le_max_iff.mp hle with hle | hle
    · exact h.folded_mapped d s hs ho hle
    · exact hm d s hs ho hle

lemma maybeTruncate (h : TiersInv L t) (hle : target ≤ t.route.folded) :
    TiersInv L (t.on (·.maybeTruncate target)) ∧
      Frame L t (t.on (·.maybeTruncate target)) none none := by
  have hb := h.base_le
  simp only [Tiers.on, RouteMap.maybeTruncate]
  split_ifs
  · refine ⟨{ h with base_le := ?_ }, .of_eq L rfl rfl rfl le_rfl fun _ => le_rfl⟩
    change max t.route.overlay.base (target + 1) ≤ t.route.folded + 1
    omega
  · exact ⟨h, Frame.refl L t _ _⟩

end Fold

section Sync

variable {C : ℤ}

lemma storeSynced [NeZero n] (h : TiersInv L t) (hC : t.route.synced idx ≤ C) :
    TiersInv L (t.on (·.storeSynced idx C)) ∧ Frame L t (t.on (·.storeSynced idx C)) none none := by
  have hle : ∀ i, t.route.synced i ≤ Function.update t.route.synced idx C i := by
    intro i
    by_cases hi : i = idx
    · subst hi
      simpa using hC
    · simp [Function.update_of_ne hi]
  refine ⟨{ h with missed := ?_ }, .of_eq L rfl rfl rfl le_rfl hle⟩
  intro d s i x hhi hi
  exact (h.missed d s i x hhi hi).imp_right fun hd => hd.trans (hle i)

lemma eraseApplied (h : TiersInv L t) (hC : C ≤ t.route.synced idx) :
    TiersInv L (t.on (·.eraseApplied idx C)) := by
  refine { h with missed := ?_ }
  intro d s i x hhi hi
  rcases h.missed d s i x hhi hi with hm | hd
  · change (Function.update t.route.miss idx _ i).get x = some d ∨ d ≤ t.route.synced i
    by_cases hii : i = idx
    · subst hii
      by_cases hd : d ≤ C
      · exact Or.inr (hd.trans hC)
      · left
        simp [IntervalMap.get_eraseIf, hm, Option.filter, hd]
    · rw [Function.update_of_ne hii]
      exact Or.inl hm
  · exact Or.inr hd

end Sync

end TiersInv

end CraftClient.Router
