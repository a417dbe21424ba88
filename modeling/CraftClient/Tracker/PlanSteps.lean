import CraftClient.Tracker.PlanInvariant

namespace CraftClient.Tracker

variable {L : ℤ} {t t' : DlsnTracker} {r : PlanCall} {d e H : ℤ} {x : ℕ}

lemma planned_oneSegment (h : CallOk L t r) (hH : r.startFrontier ≤ H) (hc : Created L t H)
    (hacks : ∀ d ∈ r.startAcks, d ≤ H)
    (hs : ∀ d, L < d → d ≤ H → ∀ s, t.tracker.data d = some s →
      t.Resolved d ∨ overlaps r.addr r.len s.addr s.len = false) (hg : Geometry t) :
    Planned L t r (PlanOutcome.oneSegment r.addr r.len H).segs where
  partition := ⟨rfl, h.range.pos, h.range.addr_dvd, h.range.len_dvd, rfl⟩
  length_le := by simp [PlanOutcome.oneSegment, kMaxSegments]
  start_le := by simpa [PlanOutcome.oneSegment] using hH
  created := by simpa [PlanOutcome.oneSegment] using hc
  acks_le := by
    simp only [PlanOutcome.oneSegment, List.mem_singleton, forall_eq]
    exact fun x _ _ d hd _ => hacks d hd
  safe := by
    simp only [PlanOutcome.oneSegment, List.mem_singleton, forall_eq]
    intro x h₁ h₂ d hL hd ⟨s, hds, hx⟩
    rcases hs d hL hd s hds with hr | ho
    · exact Or.inl hr
    · have hov : overlaps r.addr r.len s.addr s.len = true := by
        rw [overlaps_iff h.range (hg d s hds)]
        exact ⟨h₁.trans_lt hx.2, hx.1.trans_lt h₂⟩
      rw [hov] at ho
      cases ho

lemma afterScan_spec {Ha h umin : ℤ} {anyFailed anyGap : Bool} (hi : Inv L t) (hr : CallOk L t r) (hg : Geometry t)
    (hs : ScanOk L t r Ha h umin anyGap) (hh : Ha < h) :
    (∀ pc, afterScan t r.addr r.len Ha umin anyFailed anyGap = .inl pc → ComputeOk L t r pc) ∧
    ∀ p, afterScan t r.addr r.len Ha umin anyFailed anyGap = .inr p → p.segs ≠ [] →
      Planned L t r p.segs := by
  have seen := fun j hL (hj : j ≤ Ha) => hs.seen j hL (by omega)
  simp only [afterScan]
  split_ifs with hneg hcap
  · refine ⟨by simp, ?_⟩
    rintro p ⟨⟩ -
    have hres : ∀ j, L < j → j ≤ Ha → ∃ s, t.tracker.data j = some s ∧
        (t.Resolved j ∨ overlaps r.addr r.len s.addr s.len = false) :=
      fun j hL hj => (seen j hL hj).resolve_right (by omega)
    refine planned_oneSegment hr hs.start_lt_acked.le ?_ hs.acks_le ?_ hg
    · intro d hL hd
      obtain ⟨s, hds, -⟩ := hres d hL hd
      simp [hds]
    · intro d hL hd s hds
      obtain ⟨s', hds', hov⟩ := hres d hL hd
      obtain rfl : s = s' := Option.some.inj (hds.symm.trans hds')
      exact hov
  · refine ⟨by simp, ?_⟩
    rintro p ⟨⟩ hne
    exact absurd rfl hne
  · refine ⟨?_, by simp⟩
    rintro pc ⟨⟩
    rw [not_or] at hcap
    have hb := hs.umin_bounds (by omega)
    refine ⟨hs.acked_le, hs.start_lt_acked, hs.acks_le, by omega, hb.1, hb.2.1, ?_, ?_⟩
    · intro d hL hd
      rcases seen d hL hd with ⟨s, hds, -⟩ | ⟨-, -, hgap | hsome⟩
      · simp [hds]
      · exact absurd hgap hcap.1
      · exact hsome
    · intro j s hj hds
      rcases seen j (hi.issued_of_data j s hds).1 (by omega) with ⟨s', hds', hov⟩ | hj'
      · obtain rfl : s = s' := Option.some.inj (hds.symm.trans hds')
        exact hov
      · omega

lemma getElem?_visitWinner {lbaSize addr len : UInt64} {idx : ℤ} {s : DlsnSlot} {ustar : List ℤ}
    {k : ℕ} {u' : ℤ} (hu : (visitWinner addr len lbaSize idx s ustar)[k]? = some u') :
    ∃ u, ustar[k]? = some u ∧
      ((s.outcome = .empty ∨ overlaps addr len s.addr s.len = false ∨
          ¬ ((blockSpan addr len lbaSize ustar.length s).1 ≤ k ∧
            k ≤ (blockSpan addr len lbaSize ustar.length s).2)) ∧ u' = u ∨
        (s.outcome ≠ .empty ∧ overlaps addr len s.addr s.len = true ∧
          (blockSpan addr len lbaSize ustar.length s).1 ≤ k ∧
            k ≤ (blockSpan addr len lbaSize ustar.length s).2) ∧
          u' = if s.outcome = .acked then -1 else if u < 0 then idx else u) := by
  rw [visitWinner] at hu
  by_cases he : s.outcome = .empty
  · rw [if_pos he] at hu
    exact ⟨u', hu, Or.inl ⟨Or.inl he, rfl⟩⟩
  rw [if_neg he] at hu
  cases ho : overlaps addr len s.addr s.len with
  | false =>
    rw [if_pos (by simp [ho])] at hu
    exact ⟨u', hu, Or.inl ⟨Or.inr (Or.inl rfl), rfl⟩⟩
  | true =>
    rw [if_neg (by simp [ho])] at hu
    simp only [List.getElem?_mapIdx, Option.map_eq_some_iff] at hu
    obtain ⟨u, hu, rfl⟩ := hu
    refine ⟨u, hu, ?_⟩
    by_cases hb : (blockSpan addr len lbaSize ustar.length s).1 ≤ k ∧
        k ≤ (blockSpan addr len lbaSize ustar.length s).2
    · exact Or.inr ⟨⟨he, rfl, hb⟩, if_pos hb⟩
    · exact Or.inl ⟨Or.inr (Or.inr hb), if_neg hb⟩

@[simp] lemma length_visitWinner (lbaSize addr len : UInt64) (idx : ℤ) (s : DlsnSlot)
    (ustar : List ℤ) : (visitWinner addr len lbaSize idx s ustar).length = ustar.length := by
  simp only [visitWinner]
  split_ifs <;> simp

lemma outcome_of_data {s : DlsnSlot} (hs : t.tracker.data d = some s) :
    t.outcome d = some s.outcome := by
  simp [DlsnTracker.outcome, hs]

lemma WinnerOk.visit {idx u u' : ℤ} {s : DlsnSlot} (hL : -1 ≤ L) (hr : CallOk L t r)
    (hw : WinnerOk L t r idx u x) (hlt : r.startFrontier < idx) (hs : t.tracker.find idx = some s)
    (hu : (s.Covers x → s.outcome = .empty) ∧ u' = u ∨
      s.Covers x ∧ s.outcome ≠ .empty ∧
        u' = if s.outcome = .acked then -1 else if u < 0 then idx else u) :
    WinnerOk L t r (idx + 1) u' x := by
  obtain ⟨hbase, hdata⟩ := StreamTracker.find_eq_some.mp hs
  have ho := outcome_of_data hdata
  have hcov : t.CoversAt idx x ↔ s.Covers x := by
    constructor
    · rintro ⟨s', hs', hx⟩
      obtain rfl : s = s' := Option.some.inj (hdata.symm.trans hs')
      exact hx
    · exact fun hx => ⟨s, hdata, hx⟩
  have hack : idx ∈ r.startAcks → s.outcome = .acked := by
    intro hm
    have hh := (hr.acks idx hm).1
    rw [ho] at hh
    exact Option.some.inj hh
  have hlogin := hr.login_le
  rcases hu with ⟨hquiet, rfl⟩ | ⟨hx, hne, rfl⟩
  · have hnot : idx ∈ r.startAcks → ¬ s.Covers x := by
      intro hm hx
      have hh := (hack hm).symm.trans (hquiet hx)
      cases hh
    refine ⟨fun hneg => ?_, fun hpos => ?_⟩
    · rw [add_sub_cancel_right]
      refine (hw.clear hneg).succ fun hc => ?_
      exact ⟨s.outcome, ho, by rw [hquiet (hcov.mp hc)]; rfl⟩
    · obtain ⟨h₁, h₂, h₃, h₄, h₅⟩ := hw.fenced hpos
      refine ⟨h₁, h₂, by omega, h₄, fun d hd hc hd' => ?_⟩
      rcases (Int.lt_add_one_iff.mp hd').lt_or_eq with hlt' | rfl
      · exact h₅ d hd hc hlt'
      · exact absurd (hcov.mp hc) (hnot hd)
  · split_ifs with hacked hneg
    · refine ⟨fun _ => ?_, fun hpos => absurd hpos (by decide)⟩
      rw [add_sub_cancel_right]
      exact safe_of_acked (hcov.mpr hx) (by rw [ho, hacked])
    · refine ⟨fun hidx => by omega, fun _ => ?_⟩
      refine ⟨hlt, hbase, by omega, hw.clear hneg, fun d hd hc hd' => ?_⟩
      rcases (Int.lt_add_one_iff.mp hd').lt_or_eq with hlt' | rfl
      · exact hlt'
      · exact absurd (hack hd) hacked
    · refine ⟨fun hidx => by omega, fun hpos => ?_⟩
      obtain ⟨h₁, h₂, h₃, h₄, h₅⟩ := hw.fenced hpos
      refine ⟨h₁, h₂, by omega, h₄, fun d hd hc hd' => ?_⟩
      rcases (Int.lt_add_one_iff.mp hd').lt_or_eq with hlt' | rfl
      · exact h₅ d hd hc hlt'
      · exact absurd (hack hd) hacked

lemma WinnersOk.visit {Ha idx : ℤ} {ustar : List ℤ} {s : DlsnSlot} (hL : -1 ≤ L) (hr : CallOk L t r)
    (hg : Geometry t) (hw : WinnersOk L t r Ha idx ustar) (hidx : idx ≤ Ha)
    (hs : t.tracker.find idx = some s) :
    WinnersOk L t r Ha (idx + 1) (visitWinner r.addr r.len t.lbaSize idx s ustar) :=
  { hw with
    start_lt := hw.start_lt.trans (by omega)
    idx_le := by omega
    len_eq := by rw [length_visitWinner, hw.len_eq]
    winner := fun k u' x hu' hx => by
      obtain ⟨u, hu, hcase⟩ := getElem?_visitWinner hu'
      have hk : k < ustar.length := (List.getElem?_eq_some_iff.mp hu).1
      have hgs := hg idx s (StreamTracker.find_eq_some.mp hs).2
      apply (hw.winner k u x hu hx).visit hL hr hw.start_lt hs
      rcases hcase with ⟨hquiet, rfl⟩ | ⟨⟨hne, ho, hspan⟩, rfl⟩
      · refine Or.inl ⟨fun hx' => ?_, rfl⟩
        have ho := overlaps_of_covers hr.range hgs hw.len_eq hk hx hx'
        have hspan := (mem_blockSpan hr.range hgs ho hw.len_eq hk hx).mpr hx'
        rcases hquiet with he | hno | hnspan
        · exact he
        · rw [ho] at hno
          cases hno
        · exact absurd hspan hnspan
      · exact Or.inr ⟨(mem_blockSpan hr.range hgs ho hw.len_eq hk hx).mp hspan, hne, rfl⟩ }

lemma WinnersOk.skip {Ha idx : ℤ} {ustar : List ℤ} (hi : Inv L t) (hr : CallOk L t r)
    (hw : WinnersOk L t r Ha idx ustar) (hidx : idx ≤ Ha) (hs : t.tracker.find idx = none) :
    WinnersOk L t r Ha (idx + 1) ustar := by
  have hlogin := hr.login_le
  have hstart := hw.start_lt
  have hF := hi.base_le
  have hbase : idx < t.tracker.base := by
    by_contra hge
    have hsome := hw.created idx (by omega) hidx
    rw [← StreamTracker.find_of_base_le (not_lt.mp hge), hs] at hsome
    cases hsome
  have hres : t.Resolved idx := hi.resolved (by omega) (by omega)
  refine
    { hw with
      start_lt := by omega
      idx_le := by omega
      winner := fun k u x hu hx => ?_ }
  obtain ⟨hclear, hfenced⟩ := hw.winner k u x hu hx
  refine ⟨fun hneg => ?_, fun hpos => ?_⟩
  · rw [add_sub_cancel_right]
    exact (hclear hneg).succ fun _ => hres
  · have hu' := hfenced hpos
    omega

lemma WinnersOk.planned {Ha idx : ℤ} {ustar : List ℤ} {anyFailed : Bool} (hr : CallOk L t r)
    (hw : WinnersOk L t r Ha idx ustar) (hidx : Ha < idx)
    (hne : (segments r.addr t.lbaSize Ha anyFailed ustar).segs ≠ []) :
    Planned L t r (segments r.addr t.lbaSize Ha anyFailed ustar).segs := by
  obtain rfl : idx = Ha + 1 := le_antisymm hw.idx_le hidx
  obtain ⟨hpart, hcar, hlen⟩ := segments_spec (fun k => horizonOf Ha ((ustar[k]?).getD 0))
    hr.range hw.len_eq (fun k u hu => by simp [hu]) hne
  rw [← hw.len_eq] at hpart
  -- every byte of a segment lies in a block whose winner gives the segment's horizon
  have block : ∀ seg ∈ (segments r.addr t.lbaSize Ha anyFailed ustar).segs, ∀ x,
      seg.addr.toNat ≤ x → x < seg.addr.toNat + seg.len.toNat →
      ∃ u, WinnerOk L t r (Ha + 1) u x ∧ seg.H = horizonOf Ha u := by
    intro seg hseg x h₁ h₂
    obtain ⟨hlo, -, hhi⟩ := hpart.mem_bounds hseg
    obtain ⟨k, hk, hx⟩ := exists_inBlock hr.range.lbaSize_pos hw.len_eq (hlo.trans h₁)
      (h₂.trans_le hhi)
    have hu : ustar[k]? = some ustar[k] := List.getElem?_eq_getElem hk
    refine ⟨ustar[k], hw.winner k _ x hu hx, ?_⟩
    simpa [hu] using hcar seg hseg k x hx h₁ h₂
  have hstart := hw.start_lt_acked
  have bound : ∀ seg ∈ (segments r.addr t.lbaSize Ha anyFailed ustar).segs,
      r.startFrontier ≤ seg.H ∧ seg.H ≤ Ha := by
    intro seg hseg
    obtain ⟨-, hpos, -⟩ := hpart.mem_bounds hseg
    obtain ⟨u, hu, hH⟩ := block seg hseg seg.addr.toNat le_rfl (by omega)
    rw [hH, horizonOf]
    split_ifs with hneg
    · exact ⟨hstart.le, le_rfl⟩
    · have hf := hu.fenced (by omega)
      omega
  refine ⟨hpart, hlen, fun seg hs => (bound seg hs).1,
    fun seg hs => hw.created.le (bound seg hs).2, ?_, ?_⟩
  · intro seg hseg x h₁ h₂ d hd hc
    obtain ⟨u, hu, hH⟩ := block seg hseg x h₁ h₂
    have hle := hw.acks_le d hd
    rw [hH, horizonOf]
    split_ifs with hneg
    · exact hle
    · have hlt := (hu.fenced (by omega)).2.2.2.2 d hd hc (by omega)
      omega
  · intro seg hseg x h₁ h₂
    obtain ⟨u, hu, hH⟩ := block seg hseg x h₁ h₂
    rw [hH, horizonOf]
    split_ifs with hneg
    · have hsafe := hu.clear hneg
      rwa [add_sub_cancel_right] at hsafe
    · exact (hu.fenced (by omega)).2.2.2.1

lemma ScanOk.hop {Ha h umin : ℤ} {anyGap : Bool} (hi : Inv L t) (hs : ScanOk L t r Ha h umin anyGap) :
    ScanOk L t r Ha (t.tracker.completedUpto h + 1) umin anyGap := by
  have hge := t.tracker.completedUpto_ge h
  have hstart := hs.start_lt
  refine
    { hs with
      start_lt := by omega
      umin_bounds := fun hpos => by have hb := hs.umin_bounds hpos; omega
      seen := fun j hL hj => ?_ }
  rcases lt_or_ge j h with hlt | hle
  · exact hs.seen j hL hlt
  · have hres := hi.resolved_of_completed j (t.tracker.completedUpto_mem hle (by omega))
    obtain ⟨oc, ho, hoc⟩ := hres
    obtain ⟨s, hd, rfl⟩ := Option.map_eq_some_iff.mp ho
    exact Or.inl ⟨s, hd, Or.inl ⟨s.outcome, outcome_of_data hd, hoc⟩⟩

lemma ScanOk.visit {Ha u umin : ℤ} {anyGap : Bool} (hL : -1 ≤ L) (hr : CallOk L t r)
    (hu : u ≤ Ha) (hs : ScanOk L t r Ha u umin anyGap) :
    if (t.tracker.find u).all fun s => overlaps r.addr r.len s.addr s.len then
      ScanOk L t r Ha (u + 1) (if umin < 0 then u else umin) (anyGap || (t.tracker.find u).isNone)
    else ScanOk L t r Ha (u + 1) umin anyGap := by
  have hstart := hs.start_lt
  have hlogin := hr.login_le
  have hb := hs.umin_bounds
  have hself : (anyGap || (t.tracker.find u).isNone) = true ∨ (t.tracker.data u).isSome := by
    cases hf : t.tracker.find u with
    | none => left; simp
    | some s => right; simp [(StreamTracker.find_eq_some.mp hf).2]
  split_ifs with hits hneg
  · refine
      { hs with
        start_lt := by omega
        umin_bounds := fun _ => by omega
        seen := fun j hj hlt => ?_ }
    rcases (Int.lt_add_one_iff.mp hlt).lt_or_eq with hlt' | rfl
    · exact Or.inl ((hs.seen j hj hlt').resolve_right (by omega))
    · exact Or.inr ⟨by omega, le_rfl, hself⟩
  · refine
      { hs with
        start_lt := by omega
        umin_bounds := fun _ => by omega
        seen := fun j hj hlt => ?_ }
    rcases (Int.lt_add_one_iff.mp hlt).lt_or_eq with hlt' | rfl
    · refine (hs.seen j hj hlt').imp_right fun ⟨h₁, h₂, h₃⟩ => ⟨h₁, h₂, ?_⟩
      exact h₃.imp_left fun hgap => by simp [hgap]
    · exact Or.inr ⟨by omega, by omega, hself⟩
  · refine
      { hs with
        start_lt := by omega
        umin_bounds := fun hpos => by omega
        seen := fun j hj hlt => ?_ }
    rcases (Int.lt_add_one_iff.mp hlt).lt_or_eq with hlt' | rfl
    · exact hs.seen j hj hlt'
    · left
      cases hf : t.tracker.find j with
      | none => simp [hf] at hits
      | some s =>
        refine ⟨s, (StreamTracker.find_eq_some.mp hf).2, Or.inr ?_⟩
        simpa [hf] using hits

lemma split_spec {Ha umin : ℤ} {anyFailed : Bool} {n : ℕ} (hr : CallOk L t r)
    (hg : Geometry t) (hs : SplitOk L t r Ha umin) (hn : r.len.toNat = t.lbaSize.toNat * n) :
    ComputeOk L t r (.winners Ha umin anyFailed (List.replicate n (-1))) := by
  have hle := hs.umin_le
  refine ⟨hs.acked_le, hs.start_lt_acked, hs.start_lt_umin, hs.acks_le, hs.created, by omega,
    by rw [List.length_replicate, hn], fun k u x hu hx => ?_⟩
  rw [List.getElem?_replicate] at hu
  split_ifs at hu with hk
  cases hu
  refine ⟨fun _ d hL hd hc => ?_, fun hpos => absurd hpos (by decide)⟩
  obtain ⟨s, hds, hcov⟩ := hc
  rcases hs.below d s (by omega) hds with hres | hno
  · exact Or.inl hres
  · have ho := overlaps_of_covers hr.range (hg d s hds) hn hk hx hcov
    rw [ho] at hno
    cases hno

lemma computeStep_spec {pc : ComputePc} (hL : -1 ≤ L) (hi : Inv L t) (hg : Geometry t)
    (hr : CallOk L t r) (hc : ComputeOk L t r pc) :
    (∀ pc', (computeStep t r.addr r.len pc).2 = .inl pc' → ComputeOk L t r pc') ∧
    ∀ p, (computeStep t r.addr r.len pc).2 = .inr p → p.segs ≠ [] → Planned L t r p.segs := by
  have hstart := hr.start_le
  have hlogin := hr.login_le
  cases pc with
  | loadFrontier =>
    refine ⟨?_, by rintro p ⟨⟩⟩
    rintro pc' ⟨⟩
    exact ⟨hr.start_le, le_rfl⟩
  | loadAcked F =>
    obtain ⟨h₁, h₂⟩ := hc
    simp only [computeStep]
    split_ifs with hle
    · refine ⟨by rintro pc' ⟨⟩, ?_⟩
      rintro p ⟨⟩ -
      rw [max_eq_left hle]
      have hres : ∀ d, L < d → d ≤ F → t.Resolved d := fun d hLd hd => hi.resolved hLd (hd.trans h₂)
      refine planned_oneSegment hr h₁ ?_ ?_ (fun d hLd hd s _ => Or.inl (hres d hLd hd)) hg
      · intro d hLd hd
        obtain ⟨oc, ho, -⟩ := hres d hLd hd
        obtain ⟨s, hs, -⟩ := Option.map_eq_some_iff.mp ho
        simp [hs]
      · intro d hd
        rcases (hr.acks d hd).2 with h | h <;> omega
    · refine ⟨?_, by rintro p ⟨⟩⟩
      rintro pc' ⟨⟩
      refine ⟨le_rfl, by omega, by omega, fun d hd => ?_, fun hpos => absurd hpos (by decide), fun j hj hlt => ?_⟩
      · rcases (hr.acks d hd).2 with h | h <;> omega
      · obtain ⟨oc, ho, hoc⟩ := hi.resolved hj (show j ≤ t.frontier by omega)
        obtain ⟨s, hs, rfl⟩ := Option.map_eq_some_iff.mp ho
        exact Or.inl ⟨s, hs, Or.inl ⟨s.outcome, ho, hoc⟩⟩
  | scan Ha h umin anyFailed anyGap =>
    have hge := t.tracker.completedUpto_ge h
    simp only [computeStep]
    split_ifs with hend
    · rcases hend with hh | hu | hu
      · exact afterScan_spec hi hr hg hc hh
      · exact afterScan_spec hi hr hg (ScanOk.hop hi hc) hu
      · omega
    · refine ⟨?_, by rintro p ⟨⟩⟩
      rintro pc' ⟨⟩
      exact ⟨by omega, ScanOk.hop hi hc⟩
  | visit Ha u umin anyFailed anyGap =>
    refine ⟨?_, by rintro p ⟨⟩⟩
    rintro pc' ⟨⟩
    have hv := hc.2.visit hL hr hc.1
    split_ifs at hv ⊢ <;> exact hv
  | split Ha umin anyFailed =>
    obtain ⟨n, hn⟩ := hr.range.len_dvd
    have hnblk : (r.len / t.lbaSize).toNat = n := by
      rw [UInt64.toNat_div, hn, Nat.mul_div_cancel_left _ hr.range.lbaSize_pos]
    have hne : t.lbaSize ≠ 0 := by
      intro h0
      have hpos := hr.range.lbaSize_pos
      simp [h0] at hpos
    simp only [computeStep, if_pos hne, hnblk]
    split_ifs with hcap
    · refine ⟨by rintro pc' ⟨⟩, ?_⟩
      rintro p ⟨⟩ hp
      exact absurd rfl hp
    · refine ⟨?_, by rintro p ⟨⟩⟩
      rintro pc' ⟨⟩
      exact split_spec hr hg hc hn
  | winners Ha idx anyFailed ustar =>
    simp only [computeStep]
    split_ifs with hend
    · refine ⟨by rintro pc' ⟨⟩, ?_⟩
      rintro p ⟨⟩ hp
      exact WinnersOk.planned hr hc hend hp
    · cases hf : t.tracker.find idx with
      | none =>
        refine ⟨?_, by rintro p ⟨⟩⟩
        rintro pc' ⟨⟩
        exact WinnersOk.skip hi hr hc (by omega) hf
      | some s =>
        refine ⟨?_, by rintro p ⟨⟩⟩
        rintro pc' ⟨⟩
        exact WinnersOk.visit hL hr hg hc (by omega) hf

def Touches (t t' : DlsnTracker) : Prop :=
  t' = { t with winnerScans := t'.winnerScans, gate := t'.gate }

lemma Touches.evolves (h : Touches t t') : Evolves t t' := by
  rw [h]
  exact { Evolves.refl t with }

lemma Touches.inv (h : Touches t t') (hi : Inv L t) : Inv L t' := by
  rw [h]
  exact { hi with acked_top := hi.acked_top, resolved_of_completed := hi.resolved_of_completed }

lemma computeStep_touches (t : DlsnTracker) (addr len : UInt64) (pc : ComputePc) :
    Touches t (computeStep t addr len pc).1 := by
  cases pc <;> rfl

lemma planStep_touches {addr len : UInt64} {pc pc' : PlanPc}
    (hs : planStep t addr len pc = some (t', pc')) : Touches t t' := by
  cases pc with
  | compute ev pc =>
    have ht := computeStep_touches t addr len pc
    simp only [planStep] at hs
    split at hs <;> rename_i hc <;> cases hs <;> simpa [hc] using ht
  | await ev =>
    simp only [planStep] at hs
    split_ifs at hs
    cases hs
    rfl
  | done p => cases hs
  | _ =>
    cases hs
    rfl

lemma planOk_afterCompute {p : PlanOutcome} (hp : p.segs ≠ [] → Planned L t r p.segs)
    (ev : Option ℕ) : PlanOk L t r (afterCompute p ev) := by
  cases ev with
  | none =>
    simp only [afterCompute]
    split_ifs with hs
    · trivial
    · exact ⟨by simpa using hs, hp⟩
  | some ev =>
    simp only [afterCompute]
    split_ifs with hs
    · trivial
    · exact ⟨by simpa using hs, hp⟩

lemma planStep_spec {r : PlanRead} {pc' : PlanPc} (hL : -1 ≤ L) (hi : Inv L t) (hg : Geometry t)
    (hr : ReadOk L t r) (hs : planStep t r.addr r.len r.pc = some (t', pc')) :
    ReadOk L t' { r with pc := pc' } := by
  have ht := planStep_touches hs
  have hbase : t'.tracker = t.tracker := by rw [ht]
  -- the new program counter is justified in the old state first
  suffices hok : PlanOk L t r.toPlanCall pc' by
    exact ReadOk.mono (ht.inv hi) ht.evolves (fun _ => by rw [hbase]) ⟨hr.call, hok⟩
  have hplan := hr.plan
  cases hpc : r.pc with
  | compute ev pc =>
    rw [hpc] at hs hplan
    obtain ⟨hnext, hdone⟩ := computeStep_spec hL hi hg hr.call hplan
    simp only [planStep] at hs
    split at hs <;> rename_i hc <;> cases hs
    · exact hnext _ (by rw [hc])
    · exact planOk_afterCompute (hdone _ (by rw [hc])) ev
  | arm | enter ev =>
    rw [hpc] at hs
    cases hs
    trivial
  | await ev =>
    rw [hpc] at hs
    simp only [planStep] at hs
    split_ifs at hs
    cases hs
    trivial
  | leave p =>
    rw [hpc] at hs hplan
    cases p with
    | none =>
      cases hs
      trivial
    | some p =>
      cases hs
      exact hplan
  | done p =>
    rw [hpc] at hs
    cases hs

end CraftClient.Tracker
