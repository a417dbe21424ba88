import CraftClient.Router.TierInvariant

namespace CraftClient.Router

variable {n : ℕ} {ι κ : Type} {L : ℤ} {t t' : Tiers n} {th : TierThread n}

namespace TierThread

def leg : TierThread n → Option (ℤ × Fin n)
  | .holders d idx _ | .completed d idx => some (d, idx)
  | _ => none

def last : TierThread n → Option ℤ
  | .push d | .mark d => some d
  | _ => none

def locked : TierThread n → Bool
  | .foldReload _ | .foldRescan _ _ | .foldDrain _ | .foldApply _ _ | .syncStore _ _
  | .syncErase _ _ => true
  | .advance _ locked | .truncate _ locked => locked
  | _ => false

end TierThread

def Tiers.Rest (t : Tiers n) : Prop := t.mapped ≤ t.route.folded ∧ t.drained = []

def Knows (L : ℤ) (t : Tiers n) : TierThread n → Prop
  | .holders d idx _ | .completed d idx =>
    ∃ s, t.route.overlay.data d = some s ∧ idx ∉ s.completed
  | .push d => d ∉ t.route.overlay.completed ∧
    ∃ s, t.route.overlay.data d = some s ∧ s.completed = Finset.univ
  | .mark d => d ∉ t.route.overlay.completed ∧ ∃ s, t.route.overlay.data d = some s ∧
    s.completed = Finset.univ ∧ (s.Owes → s.miss ∈ t.route.pending)
  | .foldScan _ cur => L ≤ cur ∧ cur ≤ t.route.folded
  | .foldHint _ target => t.Done L target
  | .foldReload _ | .syncStore _ _ => t.Rest
  | .foldRescan _ cur => t.Rest ∧ t.mapped ≤ cur ∧ cur ≤ t.route.folded
  | .foldDrain target => t.drained = [] ∧ t.Done L target ∧ t.mapped < target
  | .foldApply batch target => batch = t.drained ∧ t.Done L target ∧ t.mapped < target ∧
    (∀ e ∈ t.route.pending, target < e.dlsn) ∧ ∀ e ∈ t.drained, e.dlsn ≤ target
  | .advance target true => t.drained = [] ∧ target = t.mapped
  | .advance target false => t.Done L target ∧ ∀ e ∈ t.route.pending, target < e.dlsn
  | .truncate target locked => target ≤ t.route.folded ∧ (locked = true → t.Rest)
  | .syncErase idx C => t.Rest ∧ C ≤ t.route.synced idx
  | .idle | .foldLoad _ | .foldLock _ | .syncLoad _ _ | .syncLock _ _ => True

lemma Knows.last_full {d : ℤ} (h : Knows L t th) (hl : th.last = some d) :
    ∃ s, t.route.overlay.data d = some s ∧ s.completed = Finset.univ := by
  cases th with
  | push e =>
    cases hl
    exact h.2
  | mark e =>
    cases hl
    obtain ⟨-, s, hs, hc, -⟩ := h
    exact ⟨s, hs, hc⟩
  | _ => cases hl

lemma Frame.pending_lt {leg : Option (ℤ × Fin n)} {last : Option ℤ} {target : ℤ}
    (hf : Frame L t t' leg last) (hd : t.Done L target) (hp : ∀ e ∈ t.route.pending, target < e.dlsn) :
    ∀ e ∈ t'.route.pending, target < e.dlsn := by
  intro e he
  rcases hf.pushed e he with he | ⟨hL, hn⟩
  · exact hp e he
  · exact hd.lt hL hn

lemma Tiers.Rest.mono (h : t.Rest) (hf : t.route.folded ≤ t'.route.folded)
    (hm : t'.mapped = t.mapped) (hd : t'.drained = t.drained) : t'.Rest :=
  ⟨by rw [hm]; exact h.1.trans hf, hd.trans h.2⟩

lemma Knows.stable {leg : Option (ℤ × Fin n)} {last : Option ℤ} (h : Knows L t th)
    (ht : TiersInv L t) (hf : Frame L t t' leg last) (hleg : ∀ p, th.leg = some p → leg ≠ some p)
    (hlast : ∀ d, th.last = some d → last ≠ some d)
    (hlock : th.locked = true → t'.mapped = t.mapped ∧ t'.drained = t.drained) : Knows L t' th := by
  have hfold := hf.folded
  cases th with
  | idle | foldLoad | foldLock | syncLoad | syncLock => trivial
  | holders d idx acked | completed d idx =>
    obtain ⟨s, hs, hi⟩ := h
    obtain ⟨s', hs', -⟩ := hf.grow d s hs
    refine ⟨s', hs', fun hi' => ?_⟩
    rcases hf.bits d s' idx hs' hi' with ⟨s₀, hs₀, hc⟩ | hc
    · obtain rfl : s = s₀ := Option.some.inj (hs.symm.trans hs₀)
      exact hi hc
    · exact hleg _ rfl hc
  | push d =>
    obtain ⟨hd, s, hs, hc⟩ := h
    obtain ⟨s', hs', -, -, -, he⟩ := hf.grow d s hs
    obtain rfl := he hc
    refine ⟨fun hm => ?_, s', hs', hc⟩
    rcases hf.marked d hm with hm | hm
    · exact hd hm
    · exact hlast d rfl hm
  | mark d =>
    obtain ⟨hd, s, hs, hc, hp⟩ := h
    obtain ⟨s', hs', -, -, -, he⟩ := hf.grow d s hs
    obtain rfl := he hc
    refine ⟨fun hm => ?_, s', hs', hc, fun ho => ?_⟩
    · rcases hf.marked d hm with hm | hm
      · exact hd hm
      · exact hlast d rfl hm
    · refine (hf.kept _ (hp ho)).resolve_right fun hm => hd ?_
      rw [← ht.dlsn_eq d s' hs]
      exact hm
  | foldScan F cur => exact ⟨h.1, h.2.trans hfold⟩
  | foldHint F target => exact h.mono hf.done
  | foldReload | syncStore =>
    obtain ⟨hm, hd⟩ := hlock rfl
    exact h.mono hfold hm hd
  | foldRescan F cur =>
    obtain ⟨hm, hd⟩ := hlock rfl
    exact ⟨h.1.mono hfold hm hd, hm ▸ h.2.1, h.2.2.trans hfold⟩
  | foldDrain target =>
    obtain ⟨hm, hd⟩ := hlock rfl
    exact ⟨hd.trans h.1, h.2.1.mono hf.done, hm ▸ h.2.2⟩
  | foldApply batch target =>
    obtain ⟨hm, hd⟩ := hlock rfl
    obtain ⟨hb, hdone, hlt, hp, hle⟩ := h
    exact ⟨hb.trans hd.symm, hdone.mono hf.done, hm ▸ hlt, hf.pending_lt hdone hp, hd ▸ hle⟩
  | advance target locked =>
    cases locked with
    | true =>
      obtain ⟨hm, hd⟩ := hlock rfl
      exact ⟨hd.trans h.1, h.2.trans hm.symm⟩
    | false => exact ⟨h.1.mono hf.done, hf.pending_lt h.1 h.2⟩
  | truncate target locked =>
    refine ⟨h.1.trans hfold, fun hl => ?_⟩
    obtain ⟨hm, hd⟩ := hlock hl
    exact (h.2 hl).mono hfold hm hd
  | syncErase idx C =>
    obtain ⟨hm, hd⟩ := hlock rfl
    exact ⟨h.1.mono hfold hm hd, h.2.trans (hf.synced idx)⟩

structure MoveSpec (L : ℤ) (t : Tiers n) (mu : Option ι) (i : ι) (th : TierThread n)
    (m : TierMove ι n) : Prop where
  inv : TiersInv L m.tiers
  frame : Frame L t m.tiers th.leg th.last
  knows : Knows L m.tiers m.thread
  owner : m.thread.locked = true → m.foldMu = some i
  rest : m.foldMu = none → m.tiers.Rest
  keepMu : ∀ j, j ≠ i → mu = some j → m.foldMu = some j
  keepGhost : th.locked = true ∨ m.tiers.mapped = t.mapped ∧ m.tiers.drained = t.drained
  leg : m.thread.leg = none ∨ m.thread.leg = th.leg
  last : m.thread.last = none ∨ m.thread.last = th.last ∨
    ∃ d idx, th = .completed d idx ∧ m.thread = .push d

section Move

variable {mu : Option ι} {i : ι} {th' : TierThread n}

lemma MoveSpec.quiet (ht : TiersInv L t) (hr : mu = none → t.Rest) (hk : Knows L t th')
    (ho : th'.locked = true → mu = some i) (hleg : th'.leg = none ∨ th'.leg = th.leg)
    (hlast : th'.last = none) : MoveSpec L t mu i th ⟨t, mu, th'⟩ :=
  ⟨ht, Frame.refl _ _ _ _, hk, ho, hr, fun _ _ h => h, Or.inr ⟨rfl, rfl⟩, hleg, Or.inl hlast⟩

lemma MoveSpec.acquire (ht : TiersInv L t) (hk : Knows L t th')
    (hleg : th'.leg = none) (hlast : th'.last = none) :
    MoveSpec L t none i th ⟨t, some i, th'⟩ :=
  ⟨ht, Frame.refl _ _ _ _, hk, fun _ => rfl, nofun, nofun, Or.inr ⟨rfl, rfl⟩, Or.inl hleg,
    Or.inl hlast⟩

lemma MoveSpec.release (ht : TiersInv L t') (hf : Frame L t t' th.leg th.last) (hr : t'.Rest)
    (hl : th.locked = true) : MoveSpec L t (some i) i th ⟨t', none, .idle⟩ :=
  ⟨ht, hf, trivial, nofun, fun _ => hr, fun _ hj h => absurd (Option.some.inj h).symm hj, Or.inl hl,
    Or.inl rfl, Or.inl rfl⟩

lemma TiersInv.done_target (ht : TiersInv L t) {F cur : ℤ} (hle : cur ≤ t.route.folded) :
    t.Done L (min F (t.route.overlay.completedUpto (cur + 1))) := by
  intro d hL hd
  rcases le_or_gt d cur with h | h
  · exact ht.folded_done d hL (h.trans hle)
  · exact t.route.overlay.completedUpto_mem (by omega) (hd.trans (min_le_right _ _))

lemma TiersInv.answer (ht : TiersInv L t) {d : ℤ} {s s₁ : RouteSlot n} {idx : Fin n}
    {t₁ : Tiers n} (hs : t.route.overlay.data d = some s) (hi : idx ∉ s.completed)
    (h₁ : t₁ = t.on fun r => { r with overlay := r.overlay.create d s₁ })
    (hd : s₁.dlsn = s.dlsn) (ha : s₁.addr = s.addr) (hl : s₁.len = s.len)
    (hh : s.holders ⊆ s₁.holders) (hc : s₁.completed ⊆ insert idx s.completed) :
    TiersInv L t₁ ∧ Frame L t t₁ (some (d, idx)) none := by
  subst h₁
  have hne : s.completed ≠ Finset.univ := fun he => hi (he ▸ Finset.mem_univ idx)
  have hu : ∀ s', t.route.overlay.data d = some s' → s' = s := by
    intro s' hs'
    rw [hs] at hs'
    exact (Option.some.inj hs').symm
  refine ⟨ht.setSlot (ht.login_lt d s hs) (fun s' hs' => hu s' hs' ▸ hne)
    (hd.trans (ht.dlsn_eq d s hs)) (by rw [ha, hl]; exact ht.end_lt d s hs),
    TiersInv.setSlot_frame L (fun s' hs' => ?_) fun j hj => ?_⟩
  · rw [hu s' hs']
    exact ⟨ha, hl, hh, fun he => absurd he hne⟩
  · rcases Finset.mem_insert.mp (hc hj) with rfl | hj
    · exact Or.inr rfl
    · exact Or.inl ⟨s, hs, hj⟩

lemma on_addHolder {d : ℤ} {s : RouteSlot n} {idx : Fin n} (hs : t.route.overlay.data d = some s) :
    t.on (·.addHolder d idx) = t.on fun r => { r with
      overlay := r.overlay.create d { s with holders := insert idx s.holders } } := by
  simp [Tiers.on, RouteMap.addHolder, StreamTracker.modify, StreamTracker.create, hs]

lemma on_addCompleted {d : ℤ} {s : RouteSlot n} {idx : Fin n} (hs : t.route.overlay.data d = some s) :
    t.on (·.addCompleted d idx) = t.on fun r => { r with
      overlay := r.overlay.create d { s with completed := insert idx s.completed } } := by
  simp [Tiers.on, RouteMap.addCompleted, StreamTracker.modify, StreamTracker.create, hs]

variable [NeZero n] {m : TierMove ι n}

lemma tierMove_leg_spec {d : ℤ} {idx : Fin n} (ht : TiersInv L t) (hk : Knows L t th)
    (hr : mu = none → t.Rest) (hth : th.leg = some (d, idx)) (hm : tierMove t mu i th = some m) :
    MoveSpec L t mu i th m := by
  cases th with
  | holders d idx acked =>
    obtain ⟨s, hs, hi⟩ := hk
    simp only [tierMove] at hm
    split_ifs at hm
    · cases hm
      exact .quiet ht hr trivial (absurd · Bool.false_ne_true) (Or.inl rfl) rfl
    all_goals cases hm
    · obtain ⟨ht', hf⟩ := ht.answer hs hi (on_addHolder hs) rfl rfl rfl
        (Finset.subset_insert idx _) (Finset.subset_insert idx _)
      refine ⟨ht', hf, ⟨{ s with holders := insert idx s.holders }, ?_, hi⟩, (absurd · Bool.false_ne_true),
        fun h => (hr h).mono hf.folded rfl rfl, fun _ _ h => h, Or.inr ⟨rfl, rfl⟩, Or.inr rfl,
        Or.inl rfl⟩
      rw [on_addHolder hs]
      simp [Tiers.on]
    · exact .quiet ht hr ⟨s, hs, hi⟩ (absurd · Bool.false_ne_true) (Or.inr rfl) rfl
  | completed d idx =>
    obtain ⟨s, hs, hi⟩ := hk
    obtain ⟨ht', hf⟩ := ht.answer hs hi (on_addCompleted hs) rfl rfl rfl (Finset.Subset.refl _)
      (Finset.Subset.refl _)
    have hnd := ht.not_done hs fun he => hi (he ▸ Finset.mem_univ idx)
    have hdata : (t.on (·.addCompleted d idx)).route.overlay.data d =
        some { s with completed := insert idx s.completed } := by
      rw [on_addCompleted hs]
      simp [Tiers.on]
    simp only [tierMove, hdata, Option.any_some, decide_eq_true_eq] at hm
    cases hm
    have hrest : mu = none → (t.on (·.addCompleted d idx)).Rest := fun h => (hr h).mono hf.folded rfl rfl
    -- the last leg to answer goes on to push the slot
    split_ifs with hfull
    · exact ⟨ht', hf, ⟨hnd, _, hdata, hfull⟩, (absurd · Bool.false_ne_true), hrest, fun _ _ h => h,
        Or.inr ⟨rfl, rfl⟩, Or.inl rfl, Or.inr (Or.inr ⟨d, idx, rfl, rfl⟩)⟩
    · exact ⟨ht', hf, trivial, (absurd · Bool.false_ne_true), hrest, fun _ _ h => h, Or.inr ⟨rfl, rfl⟩, Or.inl rfl,
        Or.inl rfl⟩
  | _ => cases hth

lemma tierMove_last_spec {d : ℤ} (ht : TiersInv L t) (hk : Knows L t th)
    (hr : mu = none → t.Rest) (hth : th.last = some d) (hm : tierMove t mu i th = some m) :
    MoveSpec L t mu i th m := by
  cases th with
  | push d =>
    obtain ⟨hd, s, hs, hc⟩ := hk
    simp only [tierMove, hs, Option.map_some] at hm
    cases hm
    obtain ⟨ht', hf, hp⟩ := ht.pushSlot hs hc hd
    have hov : (t.on (·.pushSlot s)).route.overlay = t.route.overlay := by
      simp only [Tiers.on, RouteMap.pushSlot]
      split_ifs <;> rfl
    refine ⟨ht', hf, ⟨by rwa [hov], s, by rwa [hov], hc, hp⟩, (absurd · Bool.false_ne_true),
      fun h => (hr h).mono hf.folded rfl rfl, fun _ _ h => h, Or.inr ⟨rfl, rfl⟩, Or.inl rfl,
      Or.inr (Or.inl rfl)⟩
  | mark d =>
    obtain ⟨-, s, hs, hc, hp⟩ := hk
    cases hm
    obtain ⟨ht', hf⟩ := ht.markComplete hs hc hp
    exact ⟨ht', hf, trivial, (absurd · Bool.false_ne_true), fun h => (hr h).mono hf.folded rfl rfl, fun _ _ h => h,
      Or.inr ⟨rfl, rfl⟩, Or.inl rfl, Or.inl rfl⟩
  | _ => cases hth

lemma tierMove_spec (ht : TiersInv L t) (hk : Knows L t th) (hr : mu = none → t.Rest)
    (ho : th.locked = true → mu = some i)
    (hg : ∀ target locked, th = .advance target locked → ∀ e ∈ t.drained, target < e.dlsn)
    (hm : tierMove t mu i th = some m) : MoveSpec L t mu i th m := by
  cases th with
  | idle => cases hm
  | holders | completed => exact tierMove_leg_spec ht hk hr rfl hm
  | push | mark => exact tierMove_last_spec ht hk hr rfl hm
  | foldLoad F =>
    cases hm
    split_ifs
    · exact .quiet ht hr trivial nofun (Or.inl rfl) rfl
    · exact .quiet ht hr ⟨ht.login_folded, le_rfl⟩ nofun (Or.inl rfl) rfl
  | foldScan F cur =>
    cases hm
    split_ifs
    · exact .quiet ht hr trivial nofun (Or.inl rfl) rfl
    · exact .quiet ht hr (ht.done_target hk.2) nofun (Or.inl rfl) rfl
  | foldHint F target =>
    cases hm
    split_ifs with hlt
    · exact .quiet ht hr ⟨hk, fun e he => hlt.trans_le (ht.hint_le e he)⟩ nofun (Or.inl rfl) rfl
    · exact .quiet ht hr trivial nofun (Or.inl rfl) rfl
  | foldLock F =>
    simp only [tierMove] at hm
    split_ifs at hm with hmu
    cases hm
    obtain rfl := Option.isNone_iff_eq_none.mp hmu
    exact .acquire ht (hr rfl) rfl rfl
  | foldReload F =>
    cases hm
    exact .quiet ht hr ⟨hk, hk.1, le_rfl⟩ (fun _ => ho rfl) (Or.inl rfl) rfl
  | foldRescan F cur =>
    obtain ⟨hrest, hcur, hle⟩ := hk
    obtain rfl := ho rfl
    simp only [tierMove] at hm
    split_ifs at hm with htgt
    all_goals cases hm
    · exact .release ht (Frame.refl _ _ _ _) hrest rfl
    · refine .quiet ht hr ⟨hrest.2, ht.done_target hle, ?_⟩ (fun _ => rfl) (Or.inl rfl) rfl
      omega
  | foldDrain target =>
    obtain ⟨hd, hdone, hlt⟩ := hk
    obtain rfl := ho rfl
    cases hm
    obtain ⟨ht', hf⟩ := ht.drain hd hdone
    refine ⟨ht', hf, ⟨rfl, hdone, hlt, fun e he => ?_, fun e he => ?_⟩, fun _ => rfl, nofun,
      fun _ _ h => h, Or.inl rfl, Or.inl rfl, Or.inl rfl⟩
    · simpa using (List.mem_filter.mp he).2
    · simpa using (List.mem_filter.mp he).2
  | foldApply batch target =>
    obtain ⟨rfl, hdone, hlt, hp, hle⟩ := hk
    obtain rfl := ho rfl
    cases hm
    exact ⟨ht.applyBatch hdone hlt hp hle, .of_eq L rfl rfl rfl le_rfl fun _ => le_rfl, ⟨rfl, rfl⟩,
      fun _ => rfl, nofun, fun _ _ h => h, Or.inl rfl, Or.inl rfl, Or.inl rfl⟩
  | advance target locked =>
    cases hm
    have hf : ∀ lg la, Frame L t (t.on (·.advanceFolded target)) lg la := fun _ _ =>
      .of_eq L rfl rfl rfl (le_max_left _ _) fun _ => le_rfl
    have hle : target ≤ (t.on (·.advanceFolded target)).route.folded := le_max_right _ _
    cases locked with
    | true =>
      obtain ⟨hd, rfl⟩ := hk
      obtain rfl := ho rfl
      exact ⟨ht.advanceFolded ht.mapped_done fun _ _ _ _ h => h, hf _ _, ⟨hle, fun _ => ⟨hle, hd⟩⟩,
        fun _ => rfl, nofun, fun _ _ h => h, Or.inl rfl, Or.inl rfl, Or.inl rfl⟩
    | false =>
      obtain ⟨hdone, hp⟩ := hk
      refine ⟨ht.advanceFolded hdone fun d s hs ho hd => ?_, hf _ _, ⟨hle, nofun⟩, nofun,
        fun h => (hr h).mono (hf none none).folded rfl rfl, fun _ _ h => h, Or.inr ⟨rfl, rfl⟩,
        Or.inl rfl, Or.inl rfl⟩
      -- a miss that is neither pending nor drained has been applied
      by_contra hgt
      have hdl : s.miss.dlsn = d := ht.dlsn_eq d s hs
      rcases ht.queued d s (not_le.mp hgt) (hdone d (ht.login_lt d s hs) hd) hs ho with hq | hq
      · have := hp _ hq
        omega
      · have := hg target false rfl _ hq
        omega
  | truncate target locked =>
    cases hm
    obtain ⟨ht', hf⟩ := ht.maybeTruncate hk.1
    cases locked with
    | true =>
      obtain rfl := ho rfl
      exact .release ht' hf ((hk.2 rfl).mono hf.folded rfl rfl) rfl
    | false =>
      exact ⟨ht', hf, trivial, nofun, fun h => (hr h).mono hf.folded rfl rfl, fun _ _ h => h,
        Or.inr ⟨rfl, rfl⟩, Or.inl rfl, Or.inl rfl⟩
  | syncLoad idx C =>
    cases hm
    split_ifs
    · exact .quiet ht hr trivial nofun (Or.inl rfl) rfl
    · exact .quiet ht hr trivial nofun (Or.inl rfl) rfl
  | syncLock idx C =>
    simp only [tierMove] at hm
    split_ifs at hm with hmu
    cases hm
    obtain rfl := Option.isNone_iff_eq_none.mp hmu
    exact .acquire ht (hr rfl) rfl rfl
  | syncStore idx C =>
    obtain rfl := ho rfl
    simp only [tierMove] at hm
    split_ifs at hm with hC
    all_goals cases hm
    · exact .release ht (Frame.refl _ _ _ _) hk rfl
    · obtain ⟨ht', hf⟩ := ht.storeSynced (not_le.mp hC).le
      refine ⟨ht', hf, ⟨hk, ?_⟩, fun _ => rfl, nofun, fun _ _ h => h, Or.inl rfl, Or.inl rfl, Or.inl rfl⟩
      simp [Tiers.on, RouteMap.storeSynced]
  | syncErase idx C =>
    obtain rfl := ho rfl
    cases hm
    exact .release (ht.eraseApplied hk.2) (.of_eq L rfl rfl rfl le_rfl fun _ => le_rfl) hk.1 rfl

lemma folded_of_tierMove (hm : tierMove t mu i th = some m) : m.tiers.route.folded = t.route.folded ∨
      ∃ target locked, th = .advance target locked ∧
        m.tiers.route.folded = max t.route.folded target := by
  cases th with
  | advance target locked =>
    cases hm
    exact Or.inr ⟨target, locked, rfl, rfl⟩
  | push d =>
    obtain ⟨r, -, rfl⟩ := Option.map_eq_some_iff.mp hm
    left
    simp only [Tiers.on, RouteMap.pushSlot]
    split_ifs <;> rfl
  | truncate target locked =>
    cases hm
    left
    simp only [Tiers.on, RouteMap.maybeTruncate]
    split_ifs <;> rfl
  | _ =>
    left
    simp only [tierMove] at hm
    first
      | cases hm
      | (split_ifs at hm <;> cases hm)
    all_goals rfl

end Move

end CraftClient.Router
