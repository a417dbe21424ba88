import CraftClient.Tracker.Segments

namespace CraftClient.Tracker

variable {L : ℤ} {t t' : DlsnTracker} {r : PlanCall} {d e H : ℤ} {x : ℕ}

def DlsnTracker.CoversAt (t : DlsnTracker) (d : ℤ) (x : ℕ) : Prop :=
  ∃ s, t.tracker.data d = some s ∧ s.Covers x

def Created (L : ℤ) (t : DlsnTracker) (H : ℤ) : Prop :=
  ∀ d, L < d → d ≤ H → (t.tracker.data d).isSome

def Safe (L : ℤ) (t : DlsnTracker) (x : ℕ) (H : ℤ) : Prop :=
  ∀ d, L < d → d ≤ H → t.CoversAt d x →
    t.Resolved d ∨ ∃ e, d < e ∧ e ≤ H ∧ t.CoversAt e x ∧ t.outcome e = some .acked

def Geometry (t : DlsnTracker) : Prop :=
  ∀ d s, t.tracker.data d = some s → RangeOk t.lbaSize s.addr s.len

lemma Evolves.coversAt (he : Evolves t t') (hc : t.CoversAt d x) : t'.CoversAt d x := by
  obtain ⟨s, hs, hx⟩ := hc
  obtain ⟨s', hs', ha, hl, -⟩ := he.slot d s hs
  exact ⟨s', hs', by rwa [DlsnSlot.Covers, ha, hl]⟩

lemma Evolves.coversAt_of (he : Evolves t t') (hd : (t.tracker.data d).isSome)
    (hc : t'.CoversAt d x) : t.CoversAt d x := by
  obtain ⟨s', hs', hx⟩ := hc
  obtain ⟨s, hs⟩ := Option.isSome_iff_exists.mp hd
  obtain ⟨s'', hs'', ha, hl, -⟩ := he.slot d s hs
  obtain rfl : s' = s'' := Option.some.inj (hs'.symm.trans hs'')
  exact ⟨s, hs, by rwa [DlsnSlot.Covers, ← ha, ← hl]⟩

lemma Created.mono (he : Evolves t t') (h : Created L t H) : Created L t' H :=
  fun d hL hd => he.isSome (h d hL hd)

lemma Created.le {H' : ℤ} (h : Created L t H) (hle : H' ≤ H) : Created L t H' :=
  fun d hL hd => h d hL (hd.trans hle)

lemma Safe.mono (he : Evolves t t') (hc : Created L t H) (h : Safe L t x H) : Safe L t' x H := by
  intro d hL hd hx
  rcases h d hL hd (he.coversAt_of (hc d hL hd) hx) with hr | ⟨e, hde, heH, hex, ho⟩
  · exact Or.inl (he.resolved hr)
  · exact Or.inr ⟨e, hde, heH, he.coversAt hex, he.outcome ho rfl⟩

lemma Safe.succ (h : Safe L t x (e - 1)) (hr : t.CoversAt e x → t.Resolved e) : Safe L t x e := by
  intro d hL hd hx
  rcases hd.lt_or_eq with hlt | rfl
  · rcases h d hL (by omega) hx with hr | ⟨e', h₁, h₂, h₃⟩
    · exact Or.inl hr
    · exact Or.inr ⟨e', h₁, by omega, h₃⟩
  · exact Or.inl (hr hx)

lemma safe_of_acked (hx : t.CoversAt e x) (ho : t.outcome e = some .acked) : Safe L t x e := by
  intro d hL hd _
  rcases hd.lt_or_eq with hlt | rfl
  · exact Or.inr ⟨e, hlt, le_rfl, hx, ho⟩
  · exact Or.inl ⟨_, ho, rfl⟩

structure ScanOk (L : ℤ) (t : DlsnTracker) (r : PlanCall) (Ha h umin : ℤ) (anyGap : Bool) : Prop where
  acked_le : Ha ≤ t.highestAcked
  start_lt : r.startFrontier < h
  start_lt_acked : r.startFrontier < Ha
  acks_le : ∀ d ∈ r.startAcks, d ≤ Ha
  umin_bounds : 0 ≤ umin → r.startFrontier < umin ∧ umin ≤ Ha ∧ umin < h
  seen : ∀ j, L < j → j < h →
    (∃ s, t.tracker.data j = some s ∧
      (t.Resolved j ∨ overlaps r.addr r.len s.addr s.len = false)) ∨
    0 ≤ umin ∧ umin ≤ j ∧ (anyGap = true ∨ (t.tracker.data j).isSome)

structure SplitOk (L : ℤ) (t : DlsnTracker) (r : PlanCall) (Ha umin : ℤ) : Prop where
  acked_le : Ha ≤ t.highestAcked
  start_lt_acked : r.startFrontier < Ha
  acks_le : ∀ d ∈ r.startAcks, d ≤ Ha
  umin_nonneg : 0 ≤ umin
  start_lt_umin : r.startFrontier < umin
  umin_le : umin ≤ Ha
  created : Created L t Ha
  below : ∀ j s, j < umin → t.tracker.data j = some s →
    t.Resolved j ∨ overlaps r.addr r.len s.addr s.len = false

structure WinnerOk (L : ℤ) (t : DlsnTracker) (r : PlanCall) (idx u : ℤ) (x : ℕ) : Prop where
  clear : u < 0 → Safe L t x (idx - 1)
  fenced : 0 ≤ u → r.startFrontier < u ∧ t.tracker.base ≤ u ∧ u < idx ∧ Safe L t x (u - 1) ∧
    ∀ d ∈ r.startAcks, t.CoversAt d x → d < idx → d < u

structure WinnersOk (L : ℤ) (t : DlsnTracker) (r : PlanCall) (Ha idx : ℤ) (ustar : List ℤ) :
    Prop where
  acked_le : Ha ≤ t.highestAcked
  start_lt_acked : r.startFrontier < Ha
  start_lt : r.startFrontier < idx
  acks_le : ∀ d ∈ r.startAcks, d ≤ Ha
  created : Created L t Ha
  idx_le : idx ≤ Ha + 1
  len_eq : r.len.toNat = t.lbaSize.toNat * ustar.length
  winner : ∀ k u x, ustar[k]? = some u → InBlock t.lbaSize r.addr k x → WinnerOk L t r idx u x

structure Planned (L : ℤ) (t : DlsnTracker) (r : PlanCall) (segs : List ReadSegment) : Prop where
  partition : Partition t.lbaSize.toNat segs r.addr.toNat (r.addr.toNat + r.len.toNat)
  length_le : segs.length ≤ kMaxSegments
  start_le : ∀ seg ∈ segs, r.startFrontier ≤ seg.H
  created : ∀ seg ∈ segs, Created L t seg.H
  acks_le : ∀ seg ∈ segs, ∀ x, seg.addr.toNat ≤ x → x < seg.addr.toNat + seg.len.toNat →
    ∀ d ∈ r.startAcks, t.CoversAt d x → d ≤ seg.H
  safe : ∀ seg ∈ segs, ∀ x, seg.addr.toNat ≤ x → x < seg.addr.toNat + seg.len.toNat →
    Safe L t x seg.H

def ComputeOk (L : ℤ) (t : DlsnTracker) (r : PlanCall) : ComputePc → Prop
  | .loadFrontier => True
  | .loadAcked F => r.startFrontier ≤ F ∧ F ≤ t.frontier
  | .scan Ha h umin _ anyGap => ScanOk L t r Ha h umin anyGap
  | .visit Ha u umin _ anyGap => u ≤ Ha ∧ ScanOk L t r Ha u umin anyGap
  | .split Ha umin _ => SplitOk L t r Ha umin
  | .winners Ha idx _ ustar => WinnersOk L t r Ha idx ustar

def PlanOk (L : ℤ) (t : DlsnTracker) (r : PlanCall) : PlanPc → Prop
  | .compute _ pc => ComputeOk L t r pc
  | .leave (some p) | .done p => p.stall = false ∧ (p.segs ≠ [] → Planned L t r p.segs)
  | _ => True

structure CallOk (L : ℤ) (t : DlsnTracker) (r : PlanCall) : Prop where
  range : RangeOk t.lbaSize r.addr r.len
  login_le : L ≤ r.startFrontier
  start_le : r.startFrontier ≤ t.frontier
  acks : ∀ d ∈ r.startAcks, t.outcome d = some .acked ∧ (d ≤ r.startFrontier ∨ d ≤ t.highestAcked)

structure ReadOk (L : ℤ) (t : DlsnTracker) (r : PlanRead) : Prop where
  call : CallOk L t r.toPlanCall
  plan : PlanOk L t r.toPlanCall r.pc

section Mono

lemma ScanOk.mono {Ha h umin : ℤ} {anyGap : Bool} (he : Evolves t t')
    (hs : ScanOk L t r Ha h umin anyGap) : ScanOk L t' r Ha h umin anyGap :=
  { hs with
    acked_le := hs.acked_le.trans he.acked
    seen := fun j hL hj => by
      rcases hs.seen j hL hj with ⟨s, hd, hr⟩ | ⟨h₁, h₂, h₃⟩
      · obtain ⟨s', hd', ha, hl, -⟩ := he.slot j s hd
        exact Or.inl ⟨s', hd', by rw [ha, hl]; exact hr.imp_left he.resolved⟩
      · exact Or.inr ⟨h₁, h₂, h₃.imp_right he.isSome⟩ }

lemma SplitOk.mono {Ha umin : ℤ} (hi : Inv L t') (he : Evolves t t') (hs : SplitOk L t r Ha umin) :
    SplitOk L t' r Ha umin :=
  { hs with
    acked_le := hs.acked_le.trans he.acked
    created := hs.created.mono he
    below := fun j s' hj hd' => by
      have hle := hs.umin_le
      obtain ⟨s, hd⟩ := Option.isSome_iff_exists.mp
        (hs.created j (hi.issued_of_data j s' hd').1 (by omega))
      obtain ⟨s'', hd'', ha, hl, -⟩ := he.slot j s hd
      obtain rfl : s' = s'' := Option.some.inj (hd'.symm.trans hd'')
      rw [ha, hl]
      exact (hs.below j s hj hd).imp_left he.resolved }

lemma WinnersOk.mono {Ha idx : ℤ} {ustar : List ℤ} (he : Evolves t t')
    (hb : t'.tracker.base = t.tracker.base) (hacks : ∀ d ∈ r.startAcks, (t.tracker.data d).isSome)
    (hs : WinnersOk L t r Ha idx ustar) : WinnersOk L t' r Ha idx ustar :=
  { hs with
    acked_le := hs.acked_le.trans he.acked
    created := hs.created.mono he
    len_eq := by rw [he.lbaSize, hs.len_eq]
    winner := fun k u x hu hx => by
      rw [he.lbaSize] at hx
      obtain ⟨hclear, hfenced⟩ := hs.winner k u x hu hx
      have hidx := hs.idx_le
      refine ⟨fun hneg => (hclear hneg).mono he (hs.created.le (by omega)), fun hpos => ?_⟩
      obtain ⟨h₁, h₂, h₃, h₄, h₅⟩ := hfenced hpos
      refine ⟨h₁, hb ▸ h₂, h₃, h₄.mono he (hs.created.le (by omega)), fun d hd hc hlt => ?_⟩
      exact h₅ d hd (he.coversAt_of (hacks d hd) hc) hlt }

lemma Planned.mono {segs : List ReadSegment} (he : Evolves t t')
    (hacks : ∀ d ∈ r.startAcks, (t.tracker.data d).isSome) (h : Planned L t r segs) :
    Planned L t' r segs :=
  { h with
    partition := he.lbaSize ▸ h.partition
    created := fun seg hs => (h.created seg hs).mono he
    acks_le := fun seg hs x h₁ h₂ d hd hc =>
      h.acks_le seg hs x h₁ h₂ d hd (he.coversAt_of (hacks d hd) hc)
    safe := fun seg hs x h₁ h₂ => (h.safe seg hs x h₁ h₂).mono he (h.created seg hs) }

lemma ComputeOk.mono {pc : ComputePc} (hi : Inv L t') (he : Evolves t t')
    (hb : (∃ Ha idx anyFailed ustar, pc = .winners Ha idx anyFailed ustar) →
      t'.tracker.base = t.tracker.base)
    (hacks : ∀ d ∈ r.startAcks, (t.tracker.data d).isSome) (h : ComputeOk L t r pc) :
    ComputeOk L t' r pc := by
  cases pc with
  | loadFrontier => trivial
  | loadAcked F => exact ⟨h.1, h.2.trans he.frontier⟩
  | scan => exact ScanOk.mono he h
  | visit => exact ⟨h.1, h.2.mono he⟩
  | split => exact SplitOk.mono hi he h
  | winners => exact WinnersOk.mono he (hb ⟨_, _, _, _, rfl⟩) hacks h

lemma PlanOk.mono {pc : PlanPc} (hi : Inv L t') (he : Evolves t t')
    (hb : (∃ ev Ha idx anyFailed ustar, pc = .compute ev (.winners Ha idx anyFailed ustar)) →
      t'.tracker.base = t.tracker.base)
    (hacks : ∀ d ∈ r.startAcks, (t.tracker.data d).isSome) (h : PlanOk L t r pc) :
    PlanOk L t' r pc := by
  cases pc with
  | compute ev pc =>
    refine ComputeOk.mono hi he (fun ⟨Ha, idx, anyFailed, ustar, hpc⟩ => ?_) hacks h
    exact hb ⟨ev, Ha, idx, anyFailed, ustar, by rw [hpc]⟩
  | leave p =>
    cases p with
    | none => trivial
    | some p => exact ⟨h.1, fun hne => (h.2 hne).mono he hacks⟩
  | done p => exact ⟨h.1, fun hne => (h.2 hne).mono he hacks⟩
  | _ => trivial

lemma CallOk.acks_isSome (h : CallOk L t r) : ∀ d ∈ r.startAcks, (t.tracker.data d).isSome := by
  intro d hd
  obtain ⟨s, hs, -⟩ := Option.map_eq_some_iff.mp (h.acks d hd).1
  simp [hs]

lemma CallOk.mono (he : Evolves t t') (h : CallOk L t r) : CallOk L t' r where
  range := he.lbaSize ▸ h.range
  login_le := h.login_le
  start_le := h.start_le.trans he.frontier
  acks d hd := ⟨he.outcome (h.acks d hd).1 rfl, (h.acks d hd).2.imp_right (·.trans he.acked)⟩

lemma ReadOk.mono {r : PlanRead} (hi : Inv L t') (he : Evolves t t')
    (hb : r.inForeach = true → t'.tracker.base = t.tracker.base) (h : ReadOk L t r) :
    ReadOk L t' r := by
  refine ⟨h.call.mono he, h.plan.mono hi he (fun hpc => hb ?_) h.call.acks_isSome⟩
  obtain ⟨ev, Ha, idx, anyFailed, ustar, hpc⟩ := hpc
  simp [PlanRead.inForeach, hpc]

end Mono

end CraftClient.Tracker
