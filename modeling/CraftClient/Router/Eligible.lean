import CraftClient.Router.Soundness

namespace CraftClient.Router

open Runs

variable {n : ℕ} {L : ℤ} {holds : Fin n → ℤ → Prop} {r r' : RouteMap n} {i : Fin n}
  {addr len : UInt64} {Hmax : ℤ}

lemma overlaps_of_covers {s : RouteSlot n} {x : ℕ} (hend : addr.toNat + len.toNat < 2 ^ 64)
    (hs : s.addr.toNat + s.len.toNat < 2 ^ 64) (h₁ : addr.toNat ≤ x)
    (h₂ : x < addr.toNat + len.toNat) (hx : s.Covers x) : overlaps addr len s.addr s.len = true := by
  obtain ⟨h₃, h₄⟩ := hx
  simp only [overlaps, Bool.and_eq_true, decide_eq_true_eq, UInt64.lt_iff_toNat_lt,
    UInt64.toNat_add, Nat.mod_eq_of_lt hend, Nat.mod_eq_of_lt hs]
  omega

lemma RouteMap.holdsOrSkips_of_overlayOk {d : ℤ} (h : r.overlayOk i addr len Hmax = true)
    (hlt : r.folded < d) (hle : d ≤ Hmax) : r.holdsOrSkips i addr len d = true := by
  rw [RouteMap.overlayOk, List.all_eq_true] at h
  have hk := h (d - r.folded - 1).toNat (List.mem_range.mpr (by omega))
  have hd : r.folded + 1 + ((d - r.folded - 1).toNat : ℤ) = d := by omega
  rwa [hd] at hk

section Test

variable {x : ℕ} {d : ℤ} {s : RouteSlot n}

lemma RouteInv.holds_of_overlay (h : RouteInv L holds r) (hend : addr.toNat + len.toNat < 2 ^ 64)
    (he : r.eligible i addr len Hmax = true) (h₁ : addr.toNat ≤ x) (h₂ : x < addr.toNat + len.toNat)
    (hlt : r.folded < d) (hle : d ≤ Hmax) (hs : r.overlay.data d = some s) (hx : s.Covers x)
    (hq : s.Quorate) : holds i d := by
  by_cases hi : i ∈ s.holders
  · exact h.holds_of_acked d s i hs hi
  · simp only [RouteMap.eligible, Bool.and_eq_true] at he
    have hb := h.base_le
    have hskip := RouteMap.holdsOrSkips_of_overlayOk he.2 hlt hle
    have hfind : r.overlay.find d = some s := StreamTracker.find_eq_some.mpr ⟨by omega, hs⟩
    have hov := overlaps_of_covers hend (h.end_lt d s hs) h₁ h₂ hx
    have hdur : s.durable = true := by simp [RouteSlot.durable, show quorum n ≤ s.holders.card from hq]
    simp [RouteMap.holdsOrSkips, hfind, hdur, hov, hi] at hskip

lemma RouteInv.holds_of_folded (h : RouteInv L holds r) (hend : addr.toNat + len.toNat < 2 ^ 64)
    (he : r.eligible i addr len Hmax = true) (h₁ : addr.toNat ≤ x) (h₂ : x < addr.toNat + len.toNat)
    (hd : Highest r r.folded x d s) : holds i d := by
  by_cases hi : i ∈ s.holders
  · exact h.holds_of_acked d s i hd.2.1 hi
  · rcases h.missed d s i x hd hi with hm | hh
    · have hint : (r.miss i).intersects (ivlLo addr) (ivlHi addr len) = true := by
        rw [IntervalMap.intersects_iff]
        refine ⟨x, ⟨h₁, ?_⟩, by simp [hm]⟩
        rwa [ivlHi, UInt64.toNat_add, Nat.mod_eq_of_lt hend]
      simp [RouteMap.eligible, hint] at he
    · exact hh

lemma RouteInv.holds_of_eligible (h : RouteInv L holds r) (hend : addr.toNat + len.toNat < 2 ^ 64)
    (he : r.eligible i addr len Hmax = true) (h₁ : addr.toNat ≤ x) (h₂ : x < addr.toNat + len.toNat)
    (hd : Highest r (max r.folded Hmax) x d s) : holds i d := by
  obtain ⟨hle, hs, hx, hq, htop⟩ := hd
  rcases le_or_gt d r.folded with hold | hnew
  · apply h.holds_of_folded hend he h₁ h₂ (s := s)
    exact ⟨hold, hs, hx, hq, fun e s' hde heF => htop e s' hde (le_max_of_le_left heF)⟩
  · exact h.holds_of_overlay hend he h₁ h₂ hnew (by omega) hs hx hq

end Test

inductive RouteAct (n : ℕ)
  | create (d : ℤ) (addr len : UInt64)
  | recordCompletion (d : ℤ) (idx : Fin n) (acked : Bool)
  | foldTo (F : ℤ)
  | advanceSynced (idx : Fin n) (C : ℤ)

variable [NeZero n]

def routeStep (r : RouteMap n) : RouteAct n → Option (RouteMap n)
  | .create d addr len =>
    if r.loginDlsn < d ∧ (r.overlay.data d).isNone then some (r.create d addr len) else none
  | .recordCompletion d idx acked =>
    if (r.overlay.data d).any fun s => idx ∉ s.completed then some (r.recordCompletion d idx acked)
    else none
  | .foldTo F => some (r.foldTo F)
  | .advanceSynced idx C => some (r.advanceSynced idx C)

def RouteAct.Truthful (holds : Fin n → ℤ → Prop) (r : RouteMap n) : RouteAct n → Prop
  | .recordCompletion d idx acked => acked = true → holds idx d
  | .advanceSynced idx C => ∀ d s, r.overlay.data d = some s → d ≤ C → holds idx d
  | _ => True

def RouteAct.Fits : RouteAct n → Prop
  | .create _ addr len => addr.toNat + len.toNat < 2 ^ 64
  | _ => True

lemma routeStep_create {d : ℤ} (h : routeStep r (.create d addr len) = some r') :
    r.loginDlsn < d ∧ r.overlay.data d = none ∧ r' = r.create d addr len := by
  simp only [routeStep] at h
  split_ifs at h with hd
  exact ⟨hd.1, Option.isNone_iff_eq_none.mp hd.2, (Option.some.inj h).symm⟩

lemma routeStep_recordCompletion {d : ℤ} {acked : Bool} (h : routeStep r (.recordCompletion d i acked) = some r') :
    ∃ s, r.overlay.data d = some s ∧ i ∉ s.completed ∧ r' = r.recordCompletion d i acked := by
  simp only [routeStep] at h
  split_ifs at h with hd
  obtain ⟨s, hs, hi⟩ := (Option.any_eq_true _ _).mp hd
  exact ⟨s, hs, of_decide_eq_true hi, (Option.some.inj h).symm⟩

lemma FoldInv.step {a : RouteAct n} (h : FoldInv L r) (hs : routeStep r a = some r') : FoldInv L r' := by
  cases a with
  | create d addr len =>
    obtain ⟨hd, hnone, rfl⟩ := routeStep_create hs
    have hopen := open_of_none hnone
    exact h.slotChange (slotChange_create (h.not_mem_completed hopen)) (h.login ▸ hd) hopen rfl rfl
  | recordCompletion d idx acked =>
    obtain ⟨s, hdata, hi, rfl⟩ := routeStep_recordCompletion hs
    exact h.slotChange (h.slotChange_answer hdata hi) (h.login_lt d s hdata) (open_of_not_mem hdata hi)
      (h.dlsn_eq d s hdata) (h.no_verdict d s hdata)
  | foldTo F =>
    cases hs
    exact h.foldTo F
  | advanceSynced idx C =>
    cases hs
    exact h.advanceSynced C

lemma RouteInv.step {a : RouteAct n} (h : RouteInv L holds r) (ht : a.Truthful holds r)
    (hf : a.Fits) (hs : routeStep r a = some r') : RouteInv L holds r' := by
  cases a with
  | create d addr len =>
    obtain ⟨hd, hnone, rfl⟩ := routeStep_create hs
    exact h.create (h.login ▸ hd) hnone hf
  | recordCompletion d idx acked =>
    obtain ⟨s, hdata, hi, rfl⟩ := routeStep_recordCompletion hs
    exact h.recordCompletion hdata hi ht
  | foldTo F =>
    cases hs
    exact h.foldTo F
  | advanceSynced idx C =>
    cases hs
    exact h.advanceSynced ht

theorem eligible_sound
    (h : Reach routeStep (fun r a => a.Truthful holds r ∧ a.Fits) (RouteMap.reset n L) r)
    (hend : addr.toNat + len.toNat < 2 ^ 64) (he : r.eligible i addr len Hmax = true) :
    L ≤ r.synced i ∧ ∀ x, addr.toNat ≤ x → x < addr.toNat + len.toNat →
      ∀ d s, Highest r (max r.folded Hmax) x d s → holds i d := by
  have hi : RouteInv L holds r := h.invariant (P := RouteInv L holds) (routeInv_reset L holds)
    fun _ _ _ hi hok hs => hi.step hok.1 hok.2 hs
  refine ⟨?_, fun x h₁ h₂ d s hd => hi.holds_of_eligible hend he h₁ h₂ hd⟩
  simp only [RouteMap.eligible, Bool.and_eq_true, decide_eq_true_eq] at he
  exact hi.login ▸ he.1.1

def RouteAct.skipsZero : RouteAct 3 → Bool
  | .recordCompletion _ idx acked => !acked || idx != 0
  | .advanceSynced _ _ => false
  | _ => true

lemma RouteAct.truthful_of_skipsZero {r : RouteMap 3} {a : RouteAct 3} (h : a.skipsZero = true) :
    a.Truthful (fun i _ => i ≠ 0) r := by
  cases a with
  | recordCompletion d idx acked =>
    rintro rfl
    simpa [RouteAct.skipsZero] using h
  | advanceSynced => cases h
  | create | foldTo => trivial

instance (a : RouteAct n) : Decidable a.Fits := by
  cases a <;> unfold RouteAct.Fits <;> infer_instance

def missedByZero (addr len : UInt64) : List (RouteAct 3) :=
  [.create 0 addr len, .recordCompletion 0 1 true, .recordCompletion 0 2 true,
    .recordCompletion 0 0 false, .foldTo 0]

theorem eligible_sound_missedByZero :
    ∃ r : RouteMap 3, Reach routeStep (fun r a => a.Truthful (fun i _ => i ≠ 0) r ∧ a.Fits)
      (RouteMap.reset 3 (-1)) r ∧ r.folded = 0 ∧ r.eligible 0 0 4096 0 = false ∧
      r.eligible 1 0 4096 0 = true ∧ -1 ≤ r.synced 1 := by
  obtain ⟨r, hr, hp⟩ := Reach.exists_of_exec routeStep (fun _ a => a.skipsZero = true ∧ a.Fits)
    (RouteMap.reset 3 (-1)) (missedByZero 0 4096)
    (fun r => decide (r.folded = 0 ∧ r.eligible 0 0 4096 0 = false ∧ r.eligible 1 0 4096 0 = true))
    (by decide +kernel)
  obtain ⟨hF, h₀, h₁⟩ := of_decide_eq_true hp
  have hr := hr.mono fun r a ha => And.intro (RouteAct.truthful_of_skipsZero (r := r) ha.1) ha.2
  exact ⟨r, hr, hF, h₀, h₁, (eligible_sound hr (by decide) h₁).1⟩

theorem eligible_unsound_at_top :
    ∃ r : RouteMap 3, Reach routeStep (fun r a => a.Truthful (fun i _ => i ≠ 0) r)
      (RouteMap.reset 3 (-1)) r ∧ r.eligible 0 18446744073709543424 4096 0 = true ∧
      ∃ s, Highest r (max r.folded 0) 18446744073709543424 0 s ∧ 0 ∉ s.holders := by
  obtain ⟨r, hr, hp⟩ := Reach.exists_of_exec routeStep (fun _ a => a.skipsZero = true)
    (RouteMap.reset 3 (-1)) (missedByZero 18446744073709543424 8192)
    (fun r => decide (r.folded = 0 ∧ r.eligible 0 18446744073709543424 4096 0 = true) &&
      (r.overlay.data 0).any fun s : RouteSlot 3 =>
        decide (s.addr = 18446744073709543424 ∧ s.len = 8192 ∧ s.holders = {1, 2}))
    (by decide +kernel)
  obtain ⟨h, hs⟩ := Bool.and_eq_true_iff.mp hp
  obtain ⟨hF, he⟩ := of_decide_eq_true h
  obtain ⟨s, hs, hslot⟩ := (Option.any_eq_true _ _).mp hs
  obtain ⟨ha, hl, hh⟩ := of_decide_eq_true hslot
  refine ⟨r, hr.mono fun r a ha => RouteAct.truthful_of_skipsZero ha, he, s, ?_, by simp [hh]⟩
  rw [hF]
  refine ⟨by decide, hs, ?_, ?_, fun e s' hlt hle => absurd hle (by omega)⟩
  · rw [RouteSlot.Covers, ha, hl]
    decide
  · rw [RouteSlot.Quorate, hh]
    decide

end CraftClient.Router
