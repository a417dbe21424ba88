import CraftClient.Router.TierThreads

namespace CraftClient.Router

open Runs

variable {n : ℕ} {ι κ : Type} {L : ℤ} {t t' : Tiers n} {c : EligibleCall n}
  {s s' : TierSys ι κ n} {d : ℤ} {x : ℕ}

section Calls

def EligibleCall.InRange (c : EligibleCall n) (x : ℕ) : Prop :=
  c.addr.toNat ≤ x ∧ x < c.addr.toNat + c.len.toNat

structure Unheld (t : Tiers n) (c : EligibleCall n) (d : ℤ) (x : ℕ) : Prop where
  done : d ∈ c.startDone
  above : t.route.synced c.idx < d
  inRange : c.InRange x
  slot : ∃ s, t.route.overlay.data d = some s ∧ s.Covers x ∧ s.Quorate ∧ c.idx ∉ s.holders

def Superseded (t : Tiers n) (c : EligibleCall n) (d : ℤ) (x : ℕ) : Prop :=
  ∃ e s, d < e ∧ e ≤ max t.route.folded c.Hmax ∧ t.route.overlay.data e = some s ∧ s.Covers x ∧
    s.Quorate ∧ c.idx ∈ s.holders

structure CallOk (t : Tiers n) (c : EligibleCall n) : Prop where
  fits : c.addr.toNat + c.len.toNat < 2 ^ 64
  started : c.startDone ⊆ t.route.overlay.completed
  looked : c.pc = .overlay → ∀ d x, Unheld t c d x → Superseded t c d x ∨ t.route.folded < d
  passed : c.pc = .result true → ∀ d x, Unheld t c d x → d ≤ c.Hmax → Superseded t c d x

/-- The frontier stays below the slots in the range that the member of an open test has not acked. -/
def Waits (t : Tiers n) (c : EligibleCall n) (target : ℤ) : Prop :=
  c.pc = .overlay → ∀ d s, t.route.folded < d → d ≤ target → t.route.overlay.data d = some s →
    overlaps c.addr c.len s.addr s.len = true → s.Quorate → c.idx ∈ s.holders

variable {leg : Option (ℤ × Fin n)} {last : Option ℤ}

lemma Unheld.of_frame (h : Unheld t' c d x) (ht : TiersInv L t) (hf : Frame L t t' leg last)
    (hc : CallOk t c) : Unheld t c d x := by
  obtain ⟨s', hs', hx, hq, hi⟩ := h.slot
  obtain ⟨s, hs, hfull⟩ := ht.full d (hc.started h.done)
  obtain ⟨s'', hs'', -, -, -, he⟩ := hf.grow d s hs
  obtain rfl := he hfull
  rw [hs'] at hs''
  cases hs''
  exact ⟨h.done, (hf.synced c.idx).trans_lt h.above, h.inRange, s', hs, hx, hq, hi⟩

lemma Superseded.mono (h : Superseded t c d x) (hf : Frame L t t' leg last) : Superseded t' c d x := by
  obtain ⟨e, s, hde, hle, hs, hx, hq, hi⟩ := h
  obtain ⟨s', hs', ha, hl, hh, -⟩ := hf.grow e s hs
  refine ⟨e, s', hde, hle.trans (max_le_max_right _ hf.folded), hs', ?_, ?_, hh hi⟩
  · rw [RouteSlot.Covers, ha, hl]
    exact hx
  · exact le_trans hq (Finset.card_le_card hh)

lemma CallOk.stable (h : CallOk t c) (ht : TiersInv L t) (hf : Frame L t t' leg last)
    (hw : Waits t c t'.route.folded) : CallOk t' c := by
  refine ⟨h.fits, h.started.trans hf.done, fun hpc d x hu => ?_, fun hpc d x hu hle => ?_⟩
  · have hu := hu.of_frame ht hf h
    rcases h.looked hpc d x hu with hsup | hlt
    · exact Or.inl (hsup.mono hf)
    · obtain ⟨s, hs, hx, hq, hi⟩ := hu.slot
      right
      by_contra hge
      have hov := overlaps_of_covers h.fits (ht.end_lt d s hs) hu.inRange.1 hu.inRange.2 hx
      exact hi (hw hpc d s hlt (not_lt.mp hge) hs hov hq)
  · exact (h.passed hpc d x (hu.of_frame ht hf h) hle).mono hf

/-- No batch is applied ahead of the frontier and of the test's horizon in which the member holds a slot of
the range. -/
def Even (t : Tiers n) (c : EligibleCall n) : Prop :=
  c.pc = .missMap → ∀ d s, max t.route.folded c.Hmax < d → d ≤ t.mapped →
    t.route.overlay.data d = some s → overlaps c.addr c.len s.addr s.len = true → s.Quorate →
    c.idx ∉ s.holders

lemma exists_highest {r : RouteMap n} {M : ℤ} {s : RouteSlot n} (hle : d ≤ M)
    (hs : r.overlay.data d = some s) (hx : s.Covers x) (hq : s.Quorate) :
    ∃ e s', d ≤ e ∧ Highest r M x e s' := by
  let P : ℤ → Prop := fun e => d ≤ e ∧ e ≤ M ∧ ∃ s', r.overlay.data e = some s' ∧ s'.Covers x ∧ s'.Quorate
  obtain ⟨e, ⟨hde, heM, s', hs', hx', hq'⟩, hmax⟩ :=
    Int.exists_greatest_of_bdd (P := P) ⟨M, fun e he => he.2.1⟩ ⟨d, le_rfl, hle, s, hs, hx, hq⟩
  refine ⟨e, s', hde, heM, hs', hx', hq', fun f s'' hlt hf hs'' hx'' hq'' => ?_⟩
  exact absurd (hmax f ⟨by omega, hf, s'', hs'', hx'', hq''⟩) (by omega)

lemma TiersInv.looked_missMap (ht : TiersInv L t) (hc : CallOk t c) (hpc : c.pc = .missMap)
    (he : Even t c) (hm : (t.route.miss c.idx).intersects (ivlLo c.addr) (ivlHi c.addr c.len) = false)
    (hu : Unheld t c d x) : Superseded t c d x ∨ t.route.folded < d := by
  obtain ⟨s, hs, hx, hq, hi⟩ := hu.slot
  obtain ⟨h₁, h₂⟩ := hu.inRange
  by_cases hlt : t.route.folded < d
  · exact Or.inr hlt
  left
  have howes : s.Owes := by
    obtain ⟨s', hs', hfull⟩ := ht.full d (hc.started hu.done)
    rw [hs] at hs'
    cases hs'
    exact ⟨hfull, hq, fun he => hi (he ▸ Finset.mem_univ _)⟩
  obtain ⟨e, s', hde, hhi⟩ :=
    exists_highest (ht.folded_mapped d s hs howes (not_lt.mp hlt)) hs hx hq
  have ⟨heM, hs', hx', hq', _⟩ := hhi
  have hov := overlaps_of_covers hc.fits (ht.end_lt e s' hs') h₁ h₂ hx'
  by_cases hi' : c.idx ∈ s'.holders
  · refine ⟨e, s', lt_of_le_of_ne hde fun hed => ?_, ?_, hs', hx', hq', hi'⟩
    · subst hed
      rw [hs] at hs'
      cases hs'
      exact hi hi'
    · by_contra hgt
      exact he hpc e s' (not_le.mp hgt) heM hs' hov hq' hi'
  · exfalso
    rcases ht.missed e s' c.idx x hhi hi' with hget | hle
    · have hint : (t.route.miss c.idx).intersects (ivlLo c.addr) (ivlHi c.addr c.len) = true := by
        rw [IntervalMap.intersects_iff]
        refine ⟨x, ⟨h₁, ?_⟩, by simp [hget]⟩
        rwa [ivlHi, UInt64.toNat_add, Nat.mod_eq_of_lt hc.fits]
      rw [hm] at hint
      cases hint
    · have := hu.above
      omega

lemma TiersInv.looked_overlay (ht : TiersInv L t) (hc : CallOk t c) (hpc : c.pc = .overlay)
    (ho : t.route.overlayOk c.idx c.addr c.len c.Hmax = true) (hu : Unheld t c d x)
    (hle : d ≤ c.Hmax) : Superseded t c d x := by
  refine (hc.looked hpc d x hu).resolve_right fun hlt => ?_
  obtain ⟨s, hs, hx, hq, hi⟩ := hu.slot
  have hb := ht.base_le
  have hskip := RouteMap.holdsOrSkips_of_overlayOk ho hlt hle
  have hfind : t.route.overlay.find d = some s := StreamTracker.find_eq_some.mpr ⟨by omega, hs⟩
  have hov := overlaps_of_covers hc.fits (ht.end_lt d s hs) hu.inRange.1 hu.inRange.2 hx
  have hdur : s.durable = true := by simp [RouteSlot.durable, show quorum n ≤ s.holders.card from hq]
  simp [RouteMap.holdsOrSkips, hfind, hdur, hov, hi] at hskip

end Calls

structure TierSysInv (L : ℤ) (s : TierSys ι κ n) : Prop where
  tiers : TiersInv L s.tiers
  knows : ∀ i, Knows L s.tiers (s.threads i)
  owner : ∀ i, (s.threads i).locked = true → s.foldMu = some i
  rest : s.foldMu = none → s.tiers.Rest
  legs : ∀ i j p, (s.threads i).leg = some p → (s.threads j).leg = some p → i = j
  lasts : ∀ i j d, (s.threads i).last = some d → (s.threads j).last = some d → i = j
  legs_started : ∀ i p, (s.threads i).leg = some p → p ∈ s.started
  reported : ∀ d r idx, s.tiers.route.overlay.data d = some r → idx ∈ r.completed →
    (d, idx) ∈ s.started
  calls : ∀ k c, s.calls k = some c → CallOk s.tiers c

lemma tierSysInv_reset (L : ℤ) : TierSysInv L (TierSys.reset n L : TierSys ι κ n) := by
  refine ⟨?_, fun _ => trivial, nofun, fun _ => ⟨le_rfl, rfl⟩, nofun, nofun, nofun, ?_, nofun⟩
  · constructor <;>
      simp [TierSys.reset, RouteMap.reset, StreamTracker.emplace, Highest, Tiers.Done]
  · intro d r idx hr
    simp [TierSys.reset, RouteMap.reset, StreamTracker.emplace] at hr

lemma TierSysInv.create {addr len : UInt64} (h : TierSysInv L s) (hL : L < d)
    (hn : s.tiers.route.overlay.data d = none) (hend : addr.toNat + len.toNat < 2 ^ 64) :
    TierSysInv L { s with tiers := s.tiers.on (·.create d addr len) } := by
  have hf : Frame L s.tiers (s.tiers.on (·.create d addr len)) none none :=
    TiersInv.setSlot_frame L (by simp [hn]) (by simp)
  refine { h with
    tiers := h.tiers.setSlot hL (by simp [hn]) rfl hend
    knows := fun i => (h.knows i).stable h.tiers hf nofun nofun fun _ => ⟨rfl, rfl⟩
    rest := h.rest, reported := ?_
    calls := fun k c hc => (h.calls k c hc).stable h.tiers hf
      fun _ e r hlt hle => absurd hle (not_le.mpr hlt) }
  intro e r idx hr hi
  simp only [Tiers.on, RouteMap.create, StreamTracker.create_data] at hr
  split_ifs at hr with he
  · cases hr
    cases hi
  · exact h.reported e r idx hr hi

lemma key_unique_update {β : Type} [DecidableEq ι] {threads : ι → TierThread n} {i : ι}
    {th : TierThread n} {key : TierThread n → Option β}
    (h : ∀ i j p, key (threads i) = some p → key (threads j) = some p → i = j)
    (hn : ∀ j p, j ≠ i → key th = some p → key (threads j) ≠ some p) :
    ∀ j k p, key (Function.update threads i th j) = some p →
      key (Function.update threads i th k) = some p → j = k := by
  intro j k p hj hk
  by_cases hji : j = i <;> by_cases hki : k = i
  · exact hji.trans hki.symm
  · subst hji
    rw [Function.update_self] at hj
    rw [Function.update_of_ne hki] at hk
    exact absurd hk (hn k p hki hj)
  · subst hki
    rw [Function.update_self] at hk
    rw [Function.update_of_ne hji] at hj
    exact absurd hj (hn j p hji hk)
  · rw [Function.update_of_ne hji] at hj
    rw [Function.update_of_ne hki] at hk
    exact h j k p hj hk

variable [NeZero n] [DecidableEq ι] [DecidableEq κ]

def TierAct.Ok (s : TierSys ι κ n) : TierAct ι κ n → Prop
  | .create _ addr len | .eligible _ _ addr len _ => addr.toNat + len.toNat < 2 ^ 64
  | .go i => ∀ target locked, s.threads i = .advance target locked →
    (∀ e ∈ s.tiers.drained, target < e.dlsn) ∧ ∀ k c, s.calls k = some c → Waits s.tiers c target
  | .look k => ∀ c, s.calls k = some c → Even s.tiers c
  | _ => True

namespace TierSysInv

omit [NeZero n] [DecidableEq κ] in
lemma spawn {i : ι} {th : TierThread n} {started : Finset (ℤ × Fin n)} (h : TierSysInv L s)
    (hs : s.spawn i th = some s') (hk : Knows L s.tiers th) (hl : th.locked = false)
    (hlast : th.last = none) (hleg : ∀ p, th.leg = some p → p ∉ s.started ∧ p ∈ started)
    (hst : s.started ⊆ started) : TierSysInv L { s' with started := started } := by
  simp only [TierSys.spawn] at hs
  split_ifs at hs
  cases hs
  exact { h with
    knows := (Function.forall_update_iff _ _).mpr ⟨hk, fun j _ => h.knows j⟩
    owner := (Function.forall_update_iff _ fun j (th' : TierThread n) => th'.locked = true → s.foldMu = some j).mpr
      ⟨by simp [hl], fun j _ => h.owner j⟩
    legs := key_unique_update h.legs fun j p _ hp hjp => (hleg p hp).1 (h.legs_started j p hjp)
    lasts := key_unique_update h.lasts fun j p _ hp => by simp [hlast] at hp
    legs_started := (Function.forall_update_iff _ fun _ (th' : TierThread n) => ∀ p, th'.leg = some p → p ∈ started).mpr
      ⟨fun p hp => (hleg p hp).2, fun j _ p hp => hst (h.legs_started j p hp)⟩
    reported := fun d r idx hr hi => hst (h.reported d r idx hr hi) }

lemma go {i : ι} (h : TierSysInv L s) (hok : TierAct.Ok s (.go i))
    (hs : tierStep s (.go i) = some s') : TierSysInv L s' := by
  obtain ⟨m, hm, rfl⟩ := Option.map_eq_some_iff.mp hs
  have hspec := tierMove_spec h.tiers (h.knows i) h.rest (h.owner i)
    (fun target locked he => (hok target locked he).1) hm
  have hf := hspec.frame
  -- the keys of the other threads are not those of the step
  have hleg : ∀ j, j ≠ i → ∀ p, (s.threads j).leg = some p → (s.threads i).leg ≠ some p :=
    fun j hj p hp hi => hj (h.legs j i p hp hi)
  have hlast : ∀ j, j ≠ i → ∀ d, (s.threads j).last = some d → (s.threads i).last ≠ some d :=
    fun j hj d hd hi => hj (h.lasts j i d hd hi)
  have hlock : ∀ j, j ≠ i → (s.threads j).locked = true →
      m.tiers.mapped = s.tiers.mapped ∧ m.tiers.drained = s.tiers.drained := by
    intro j hj hl
    refine hspec.keepGhost.resolve_left fun hi => hj ?_
    exact Option.some.inj ((h.owner j hl).symm.trans (h.owner i hi))
  refine ⟨hspec.inv, ?_, ?_, hspec.rest, ?_, ?_, ?_, ?_, fun k c hc => ?_⟩
  · exact (Function.forall_update_iff _ _).mpr ⟨hspec.knows, fun j hj =>
      (h.knows j).stable h.tiers hf (hleg j hj) (hlast j hj) (hlock j hj)⟩
  · exact (Function.forall_update_iff _ fun j (th : TierThread n) => th.locked = true → m.foldMu = some j).mpr
      ⟨hspec.owner, fun j hj hl => hspec.keepMu j hj (h.owner j hl)⟩
  · refine key_unique_update h.legs fun j p hj hp => ?_
    rcases hspec.leg with he | he
    · rw [he] at hp
      cases hp
    · exact fun hjp => hleg j hj p hjp (he ▸ hp)
  · refine key_unique_update h.lasts fun j d hj hd hjd => ?_
    rcases hspec.last with he | he | ⟨e, idx, hth, he⟩
    · rw [he] at hd
      cases hd
    · exact hlast j hj d hjd (he ▸ hd)
    · -- a slot with a leg still to answer has no thread that pushes or marks it
      obtain ⟨r, hr, hi⟩ : Knows L s.tiers (.completed e idx) := hth ▸ h.knows i
      rw [he] at hd
      obtain rfl : e = d := Option.some.inj hd
      obtain ⟨r', hr', hfull⟩ := (h.knows j).last_full hjd
      rw [hr] at hr'
      cases hr'
      exact hi (hfull ▸ Finset.mem_univ idx)
  · refine (Function.forall_update_iff _ fun _ (th : TierThread n) => ∀ p, th.leg = some p → p ∈ s.started).mpr
      ⟨fun p hp => ?_, fun j _ => h.legs_started j⟩
    rcases hspec.leg with he | he
    · rw [he] at hp
      cases hp
    · exact h.legs_started i p (he ▸ hp)
  · intro d r idx hr hi
    rcases hf.bits d r idx hr hi with ⟨r', hr', hi'⟩ | hp
    · exact h.reported d r' idx hr' hi'
    · exact h.legs_started i _ hp
  · refine (h.calls k c hc).stable h.tiers hf ?_
    rcases folded_of_tierMove hm with he | ⟨target, locked, hth, he⟩
    · intro _ d r hlt hle
      rw [he] at hle
      exact absurd hle (not_le.mpr hlt)
    · intro hpc d r hlt hle
      rw [he] at hle
      exact (hok target locked hth).2 k c hc hpc d r hlt (by omega)

omit [NeZero n] [DecidableEq ι] [DecidableEq κ] in
lemma callOk_look {pc : EligiblePc} (ht : TiersInv L t) (hc : CallOk t c) (he : Even t c)
    (hl : lookStep t.route c = some pc) : CallOk t { c with pc := pc } := by
  have hu : ∀ d x, Unheld t { c with pc := pc } d x → Unheld t c d x :=
    fun d x h => ⟨h.done, h.above, h.inRange, h.slot⟩
  cases hpc : c.pc with
  | synced =>
    simp only [lookStep, hpc] at hl
    split_ifs at hl
    all_goals
      cases hl
      exact ⟨hc.fits, hc.started, nofun, nofun⟩
  | missMap =>
    simp only [lookStep, hpc] at hl
    split_ifs at hl with hm
    all_goals cases hl
    · exact ⟨hc.fits, hc.started, nofun, nofun⟩
    · refine ⟨hc.fits, hc.started, fun _ d x hux => ?_, nofun⟩
      have hlook := ht.looked_missMap hc hpc he (Bool.not_eq_true _ ▸ hm) (hu d x hux)
      exact hlook
  | overlay =>
    simp only [lookStep, hpc] at hl
    cases hl
    refine ⟨hc.fits, hc.started, nofun, fun h d x hux hle => ?_⟩
    have hlook := ht.looked_overlay hc hpc (EligiblePc.result.inj h) (hu d x hux) hle
    exact hlook
  | result ok => simp [lookStep, hpc] at hl

lemma step {a : TierAct ι κ n} (h : TierSysInv L s) (hok : a.Ok s) (hs : tierStep s a = some s') :
    TierSysInv L s' := by
  cases a with
  | create d addr len =>
    simp only [tierStep] at hs
    split_ifs at hs with hd
    cases hs
    exact h.create (h.tiers.login ▸ hd.1) (Option.isNone_iff_eq_none.mp hd.2) hok
  | recordCompletion i d idx acked =>
    simp only [tierStep] at hs
    split_ifs at hs with hd
    obtain ⟨s₁, hs₁, rfl⟩ := Option.map_eq_some_iff.mp hs
    obtain ⟨r, hr⟩ := Option.isSome_iff_exists.mp hd.1
    refine h.spawn hs₁ ⟨r, hr, fun hi => hd.2 (h.reported d r idx hr hi)⟩ rfl rfl ?_
      (Finset.subset_insert _ _)
    intro p hp
    cases hp
    exact ⟨hd.2, Finset.mem_insert_self _ _⟩
  | foldTo i F | advanceSynced i idx C =>
    have hst : s'.started = s.started := by
      simp only [tierStep, TierSys.spawn] at hs
      split_ifs at hs
      cases hs
      rfl
    have hsp := h.spawn hs trivial rfl rfl nofun (Finset.Subset.refl _)
    rwa [← hst] at hsp
  | go i => exact h.go hok hs
  | eligible k idx addr len Hmax =>
    simp only [tierStep] at hs
    split_ifs at hs
    cases hs
    refine { h with calls := (Function.forall_update_iff _
      fun _ c' => ∀ c, c' = some c → CallOk s.tiers c).mpr ⟨fun c hc => ?_, fun k _ => h.calls k⟩ }
    cases hc
    exact ⟨hok, Finset.Subset.refl _, nofun, nofun⟩
  | look k =>
    simp only [tierStep, Option.bind_eq_bind] at hs
    obtain ⟨c, hc, hs⟩ := Option.bind_eq_some_iff.mp hs
    obtain ⟨pc, hpc, hs⟩ := Option.bind_eq_some_iff.mp hs
    cases hs
    refine { h with calls := (Function.forall_update_iff _
      fun _ c' => ∀ c, c' = some c → CallOk s.tiers c).mpr ⟨fun c' hc' => ?_, fun k _ => h.calls k⟩ }
    cases hc'
    exact callOk_look h.tiers (h.calls k c hc) (hok c hc) hpc

end TierSysInv

theorem eligible_superseded {k : κ} (h : Reach tierStep TierAct.Ok (TierSys.reset n L) s)
    (hc : s.calls k = some c) (hpc : c.pc = .result true) (hu : Unheld s.tiers c d x)
    (hle : d ≤ c.Hmax) : Superseded s.tiers c d x := by
  have hi : TierSysInv L s := h.invariant (P := TierSysInv L) (tierSysInv_reset L)
    fun _ _ _ hi hok hs => hi.step hok hs
  exact (hi.calls k c hc).passed hpc d x hu hle

section Runs

def oneLeg (d : ℤ) (idx : Fin 3) (acked : Bool) : List (TierAct (Fin 2) Unit 3) :=
  [.recordCompletion 0 d idx acked, .go 0, .go 0]

def missedBy (d : ℤ) (idx : Fin 3) : List (TierAct (Fin 2) Unit 3) :=
  [.create d 0 4096] ++ (oneLeg d 0 (idx != 0) ++ oneLeg d 1 (idx != 1) ++ oneLeg d 2 (idx != 2)) ++
    [.go 0, .go 0]

def goes (i : Fin 2) (k : ℕ) : List (TierAct (Fin 2) Unit 3) := List.replicate k (.go i)

def TierAct.calm (s : TierSys (Fin 2) Unit 3) : TierAct (Fin 2) Unit 3 → Bool
  | .create _ addr len | .eligible _ _ addr len _ => decide (addr.toNat + len.toNat < 2 ^ 64)
  | .go i => match s.threads i with
    | .advance _ _ => s.tiers.drained.isEmpty && (s.calls ()).isNone
    | _ => true
  | .look _ => decide (s.tiers.mapped ≤ s.tiers.route.folded)
  | _ => true

lemma TierAct.ok_of_calm {s : TierSys (Fin 2) Unit 3} {a : TierAct (Fin 2) Unit 3}
    (h : a.calm s = true) : a.Ok s := by
  cases a with
  | create _ addr len | eligible _ _ addr len _ =>
    have hfit : addr.toNat + len.toNat < 2 ^ 64 := of_decide_eq_true h
    exact hfit
  | go i =>
    intro target locked he
    simp only [TierAct.calm, he, Bool.and_eq_true, List.isEmpty_iff, Option.isNone_iff_eq_none] at h
    refine ⟨by simp [h.1], fun k c hc => ?_⟩
    rw [h.2] at hc
    cases hc
  | look k =>
    intro c _ _ d r hlt hle
    have := of_decide_eq_true h
    omega
  | recordCompletion | foldTo | advanceSynced => trivial

def passedZero (Hmax : ℤ) (s : TierSys (Fin 2) Unit 3) : Bool :=
  decide (s.tiers.route.folded = Hmax ∧ s.tiers.route.synced 0 = -1) &&
    ((s.calls ()).any fun c : EligibleCall 3 => decide (c.pc = .result true ∧ c.idx = 0 ∧ c.addr = 0 ∧
      c.len = 4096 ∧ c.Hmax = Hmax ∧ 0 ∈ c.startDone)) &&
    (s.tiers.route.overlay.data 0).any fun r : RouteSlot 3 =>
      decide (r.addr = 0 ∧ r.len = 4096 ∧ r.holders = {1, 2})

lemma unheld_of_passedZero {Hmax : ℤ} {s : TierSys (Fin 2) Unit 3} (h : passedZero Hmax s = true) :
    s.tiers.route.folded = Hmax ∧ ∃ c, s.calls () = some c ∧ c.pc = .result true ∧ c.Hmax = Hmax ∧
      Unheld s.tiers c 0 0 := by
  simp only [passedZero, Bool.and_eq_true, Option.any_eq_true, decide_eq_true_eq] at h
  obtain ⟨⟨⟨hF, hsync⟩, c, hc, hpc, hi, ha, hl, hH, hd⟩, r, hr, hra, hrl, hrh⟩ := h
  refine ⟨hF, c, hc, hpc, hH, hd, by rw [hi, hsync]; decide, ?_, r, hr, ?_, ?_, ?_⟩
  · rw [EligibleCall.InRange, ha, hl]
    decide
  · rw [RouteSlot.Covers, hra, hrl]
    decide
  · rw [RouteSlot.Quorate, hrh]
    decide
  · rw [hi, hrh]
    decide

theorem eligible_superseded_laterSlot : ∃ s : TierSys (Fin 2) Unit 3,
    Reach tierStep TierAct.Ok (TierSys.reset 3 (-1)) s ∧ ∃ c, s.calls () = some c ∧
      c.pc = .result true ∧ Unheld s.tiers c 0 0 ∧ Superseded s.tiers c 0 0 := by
  obtain ⟨s, hr, hp⟩ := Reach.exists_of_exec tierStep (fun s a => TierAct.calm s a = true)
    (TierSys.reset 3 (-1)) (List.flatten [missedBy 0 0, missedBy 1 2, [.foldTo 0 1], goes 0 10,
      [.eligible () 0 0 4096 1, .look (), .look (), .look ()]])
    (passedZero 1) (by decide +kernel)
  obtain ⟨-, c, hc, hpc, hH, hu⟩ := unheld_of_passedZero hp
  have hr := hr.mono fun s a => TierAct.ok_of_calm (s := s) (a := a)
  exact ⟨s, hr, c, hc, hpc, hu, eligible_superseded hr hc hpc hu (by omega)⟩

lemma not_superseded_of_passedZero {s : TierSys (Fin 2) Unit 3} (h : passedZero 0 s = true) :
    ∃ c, s.calls () = some c ∧ c.pc = .result true ∧ Unheld s.tiers c 0 0 ∧ 0 ≤ c.Hmax ∧
      ¬ Superseded s.tiers c 0 0 := by
  obtain ⟨hF, c, hc, hpc, hH, hu⟩ := unheld_of_passedZero h
  refine ⟨c, hc, hpc, hu, hH.ge, ?_⟩
  rintro ⟨e, r, hlt, hle, -⟩
  omega

/-- Thread 0 has drained slot 0 and not applied it yet; thread 1 finds the hint gone and moves the frontier
past it, so the test finds the slot in neither tier. -/
theorem drained_slot_in_neither_tier : ∃ s : TierSys (Fin 2) Unit 3,
    Reach tierStep free (TierSys.reset 3 (-1)) s ∧ ∃ c, s.calls () = some c ∧
      c.pc = .result true ∧ Unheld s.tiers c 0 0 ∧ 0 ≤ c.Hmax ∧ ¬ Superseded s.tiers c 0 0 := by
  obtain ⟨s, hr, hp⟩ := Reach.exists_of_exec tierStep free (TierSys.reset 3 (-1))
    (List.flatten [missedBy 0 0, [.foldTo 0 0], goes 0 7, [.foldTo 1 0], goes 1 4,
      [.eligible () 0 0 4096 0, .look (), .look (), .look ()]])
    (passedZero 0) (by decide +kernel)
  exact ⟨s, hr, not_superseded_of_passedZero hp⟩

theorem folded_slot_between_looks : ∃ s : TierSys (Fin 2) Unit 3,
    Reach tierStep free (TierSys.reset 3 (-1)) s ∧ ∃ c, s.calls () = some c ∧
      c.pc = .result true ∧ Unheld s.tiers c 0 0 ∧ 0 ≤ c.Hmax ∧ ¬ Superseded s.tiers c 0 0 := by
  obtain ⟨s, hr, hp⟩ := Reach.exists_of_exec tierStep free (TierSys.reset 3 (-1))
    (List.flatten [missedBy 0 0, [.eligible () 0 0 4096 0, .look (), .look (), .foldTo 0 0], goes 0 10,
      [.look ()]])
    (passedZero 0) (by decide +kernel)
  exact ⟨s, hr, not_superseded_of_passedZero hp⟩

theorem applied_slot_ahead_of_frontier : ∃ s : TierSys (Fin 2) Unit 3,
    Reach tierStep free (TierSys.reset 3 (-1)) s ∧ ∃ c, s.calls () = some c ∧
      c.pc = .result true ∧ Unheld s.tiers c 0 0 ∧ 0 ≤ c.Hmax ∧ ¬ Superseded s.tiers c 0 0 := by
  obtain ⟨s, hr, hp⟩ := Reach.exists_of_exec tierStep free (TierSys.reset 3 (-1))
    (List.flatten [missedBy 0 0, [.foldTo 0 0], goes 0 10, missedBy 1 2, [.foldTo 0 1], goes 0 8,
      [.eligible () 0 0 4096 0, .look (), .look (), .look ()]])
    (passedZero 0) (by decide +kernel)
  exact ⟨s, hr, not_superseded_of_passedZero hp⟩

end Runs

end CraftClient.Router
