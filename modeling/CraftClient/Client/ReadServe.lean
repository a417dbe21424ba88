import CraftClient.Client.ReadSteps

namespace CraftClient.Client

open Replica Router Cluster Tracker

variable {ι κ ρ : Type} {n : ℕ} {L : ℤ} {P : UInt32} {base : UInt64 → Block} {s s' : Session ι κ ρ n}
  {call : PlanCall} {segs : List ReadSegment} {seg : ReadSegment} {m : Fin n}

section Geometry

lemma rangeOk_of_planned {t : DlsnTracker} (h : Planned L t call segs) (hc : RangeOk t.lbaSize call.addr call.len)
    (hm : seg ∈ segs) : RangeOk t.lbaSize seg.addr seg.len := by
  obtain ⟨h₁, h₂, h₃⟩ := h.partition.mem_bounds hm
  obtain ⟨h₄, h₅⟩ := h.partition.mem_dvd hm
  exact ⟨h₂, h₄, h₅, h₃.trans_lt hc.end_lt⟩

lemma planReqs_of_planned {t : DlsnTracker} (h : Planned L t call segs) :
    planReqs call.addr call.len segs = segs := by
  match segs with
  | [] | _ :: _ :: _ => rfl
  | [seg] =>
    obtain ⟨ha, -, -, -, he⟩ := h.partition
    have hl : seg.len.toNat = call.len.toNat := Nat.add_left_cancel he
    simp only [planReqs, UInt64.toNat_inj.mp ha.symm, UInt64.toNat_inj.mp hl.symm]

lemma le_foldl_max (l : List ReadSegment) (F : ℤ) :
    F ≤ l.foldl (fun H seg => max H seg.H) F ∧ ∀ seg ∈ l, seg.H ≤ l.foldl (fun H seg => max H seg.H) F := by
  induction l generalizing F with
  | nil => exact ⟨le_rfl, nofun⟩
  | cons a l ih =>
    obtain ⟨h₁, h₂⟩ := ih (max F a.H)
    refine ⟨(le_max_left _ _).trans h₁, fun seg hm => ?_⟩
    rcases List.mem_cons.mp hm with rfl | hm
    · exact (le_max_right _ _).trans h₁
    · exact h₂ seg hm

lemma blocksOk_flatMap {results : List ReadResult} {a e : ℕ} (hP : 0 < P.toNat)
    (hp : Partition P.toNat segs a e)
    (h : List.Forall₂ (fun seg res => BlocksOk s P base call seg.addr seg.len res.blocks) segs results) :
    List.Forall₂ (BlockOk s P base call) (List.range' (a / P.toNat) ((e - a) / P.toNat))
      (results.flatMap ReadResult.blocks) := by
  induction h generalizing a with
  | nil =>
    obtain rfl : a = e := hp
    simp
  | @cons seg res segs results hseg _ ih =>
    obtain ⟨rfl, -, hda, ⟨l, hl⟩, hp⟩ := hp
    have hle := hp.le
    have hcut : (e - seg.addr.toNat) / P.toNat =
        seg.len.toNat / P.toNat + (e - (seg.addr.toNat + seg.len.toNat)) / P.toNat := by
      rw [hl, Nat.mul_div_cancel_left _ hP, ← Nat.mul_add_div hP]
      congr 1
      omega
    have hstart : (seg.addr.toNat + seg.len.toNat) / P.toNat =
        seg.addr.toNat / P.toNat + seg.len.toNat / P.toNat := Nat.add_div_of_dvd_right hda
    rw [hcut, ← List.range'_append_1, ← hstart, List.flatMap_cons]
    exact List.rel_append hseg (ih hp)

end Geometry

section Collect

lemma commitOf_le {results : List ReadResult} {C : ℤ} (hC : -1 ≤ C)
    (h : ∀ res ∈ results, res.lsns.commitLsn ≤ C) : commitOf results ≤ C := by
  have hfold : ∀ (l : List ReadResult) (c : ℤ), c ≤ C → (∀ res ∈ l, res.lsns.commitLsn ≤ C) →
      l.foldl (fun c r => max c r.lsns.commitLsn) c ≤ C := by
    intro l
    induction l with
    | nil => exact fun c hc _ => hc
    | cons a l ih =>
      intro c hc hl
      apply ih
      · exact max_le hc (hl a List.mem_cons_self)
      · exact fun res hm => hl res (List.mem_cons_of_mem a hm)
  match results with
  | [] => exact hC
  | [r] => exact h r List.mem_cons_self
  | _ :: _ :: _ => exact hfold _ (-1) hC h

lemma RepliesOk.set {replies : List ReadReply} {j : ℕ} {x : Except ErrorCond ReadResult}
    (h : RepliesOk s P base call m segs replies)
    (hx : ∀ seg res, segs[j]? = some seg → x = .ok res →
      s.Reported m res.lsns.commitLsn ∧ BlocksOk s P base call seg.addr seg.len res.blocks) :
    RepliesOk s P base call m segs (replies.set j (some x)) := by
  refine ⟨by rw [List.length_set, h.length], fun i seg res hseg hres => ?_⟩
  rw [List.getElem?_set] at hres
  split_ifs at hres with hij hlt
  · subst hij
    exact hx seg res hseg (Option.some.inj (Option.some.inj hres))
  · exact h.reply i seg res hseg hres

lemma RepliesOk.collected {replies : List ReadReply} {results : List ReadResult} (hL : -1 ≤ L)
    (hP : 0 < P.toNat) (hlba : s.trk.lbaSize = P.toUInt64) (hc : CallOk L s.trk call)
    (hp : Planned L s.trk call segs) (hs : s.Serves L call segs m)
    (h : RepliesOk s P base call m segs replies) (hr : collect replies = some (.ok results)) :
    s.Reported m (commitOf results) ∧
      BlocksOk s P base call call.addr call.len (results.flatMap ReadResult.blocks) := by
  obtain rfl := collect_ok hr
  have hlen : results.length = segs.length := by simpa using h.length
  have hall : ∀ (j : ℕ) (seg : ReadSegment) (res : ReadResult), segs[j]? = some seg → results[j]? = some res →
      s.Reported m res.lsns.commitLsn ∧ BlocksOk s P base call seg.addr seg.len res.blocks := by
    intro j seg res hseg hres
    exact h.reply j seg res hseg (by simp [hres])
  have hrep : ∀ res ∈ results, s.Reported m res.lsns.commitLsn := by
    intro res hm
    obtain ⟨j, hj⟩ := List.mem_iff_getElem?.mp hm
    obtain ⟨hlt, -⟩ := List.getElem?_eq_some_iff.mp hj
    exact (hall j _ res (List.getElem?_eq_getElem (hlen ▸ hlt)) hj).1
  have hpart := hp.partition
  rw [hlba, UInt32.toNat_toUInt64] at hpart
  constructor
  · have hne : results ≠ [] := by
      rintro rfl
      obtain rfl : segs = [] := List.length_eq_zero_iff.mp hlen.symm
      have hpos := hc.range.pos
      have heq : call.addr.toNat = call.addr.toNat + call.len.toNat := hpart
      omega
    obtain ⟨res, hm⟩ := List.exists_mem_of_ne_nil results hne
    exact ⟨(hrep res hm).1, commitOf_le (hL.trans hs.1) fun res hm => (hrep res hm).2⟩
  · have hall₂ : List.Forall₂ (fun seg res => BlocksOk s P base call seg.addr seg.len res.blocks)
        segs results := by
      refine List.forall₂_iff_get.mpr ⟨hlen.symm, fun j h₁ h₂ => ?_⟩
      exact (hall j _ _ (List.getElem?_eq_getElem h₁) (List.getElem?_eq_getElem h₂)).2
    have hblocks := blocksOk_flatMap hP hpart hall₂
    rwa [Nat.add_sub_cancel_left] at hblocks

end Collect

variable [NeZero n]

section Eligible

def FoldsBelow (r : RouteMap n) (seg : ReadSegment) : Prop :=
  ∀ d rs, seg.H < d → d ≤ r.folded → r.overlay.data d = some rs → rs.Quorate →
    Router.overlaps seg.addr seg.len rs.addr rs.len = false

lemma SessInv.coversAt_iff {d : ℤ} {rs : RouteSlot n} {y : ℕ} (h : SessInv L P base s)
    (hrs : s.route.overlay.data d = some rs) : s.trk.CoversAt d y ↔ rs.Covers y := by
  obtain ⟨sl, hsl, ha, hl⟩ := h.slots d rs hrs
  rw [DlsnTracker.CoversAt, hsl, RouteSlot.Covers, ← ha, ← hl]
  constructor
  · rintro ⟨sl', ⟨⟩, hx⟩
    exact hx
  · exact fun hx => ⟨sl, rfl, hx⟩

lemma SessInv.login_lt {d : ℤ} {y : ℕ} (h : SessInv L P base s) (hx : s.trk.CoversAt d y) : L < d := by
  obtain ⟨sl, hsl, -⟩ := hx
  exact (h.plan.sys.trk.issued_of_data d sl hsl).1

lemma SessInv.tops_of_eligible {d Hmax : ℤ} {y : ℕ} (h : SessInv L P base s)
    (hend : call.addr.toNat + call.len.toNat < 2 ^ 64) (he : s.route.eligible m call.addr call.len Hmax = true)
    (hH : seg.H ≤ Hmax) (hfold : FoldsBelow s.route seg) (hbound : call.addr.toNat ≤ seg.addr.toNat ∧
      seg.addr.toNat + seg.len.toNat ≤ call.addr.toNat + call.len.toNat)
    (h₁ : seg.addr.toNat ≤ y) (h₂ : y < seg.addr.toNat + seg.len.toNat) (hd : d ≤ seg.H)
    (hx : s.trk.CoversAt d y) (hq : s.Quorate d) : s.Tops m y seg.H d := by
  obtain ⟨rs, hrs, hq⟩ := hq
  have hy₁ : call.addr.toNat ≤ y := hbound.1.trans h₁
  have hy₂ : y < call.addr.toNat + call.len.toNat := h₂.trans_le hbound.2
  rcases lt_or_ge s.route.folded d with hnew | hold
  · refine ⟨d, le_rfl, hd, hx, ?_⟩
    exact h.route.holds_of_overlay hend he hy₁ hy₂ hnew (hd.trans hH) hrs ((h.coversAt_iff hrs).mp hx) hq
  · -- the miss maps answer for the highest such slot, which the guard keeps below the horizon
    have hx := (h.coversAt_iff hrs).mp hx
    obtain ⟨g, ⟨hg, sg, hsg, hxg, hqg⟩, htop⟩ := Int.exists_greatest_of_bdd
      (P := fun e => e ≤ s.route.folded ∧ ∃ rs, s.route.overlay.data e = some rs ∧ rs.Covers y ∧ rs.Quorate)
      ⟨s.route.folded, fun e he => he.1⟩ ⟨d, hold, rs, hrs, hx, hq⟩
    have hgH : g ≤ seg.H := by
      by_contra hgt
      have hov := Router.overlaps_of_covers (hbound.2.trans_lt hend) (h.route.end_lt g sg hsg) h₁ h₂ hxg
      rw [hfold g sg (not_le.mp hgt) hg hsg hqg] at hov
      cases hov
    refine ⟨g, htop d ⟨hold, rs, hrs, hx, hq⟩, hgH, (h.coversAt_iff hsg).mpr hxg, ?_⟩
    refine h.route.holds_of_folded hend he hy₁ hy₂ ⟨hg, hsg, hxg, hqg, fun e rs' hlt hle hrs' hxe hqe => ?_⟩
    exact absurd (htop e ⟨hle, rs', hrs', hxe, hqe⟩) hlt.not_ge

lemma SessInv.serves_of_eligible {Hmax : ℤ} (h : SessInv L P base s) (hc : CallOk L s.trk call)
    (hp : Planned L s.trk call segs) (hH : ∀ seg ∈ segs, seg.H ≤ Hmax)
    (hfold : ∀ seg ∈ segs, FoldsBelow s.route seg)
    (he : s.route.eligible m call.addr call.len Hmax = true) : s.Serves L call segs m := by
  constructor
  · have hsync := he
    simp only [RouteMap.eligible, Bool.and_eq_true, decide_eq_true_eq, h.route.login] at hsync
    exact hsync.1.1.trans (h.synced m)
  · intro seg hseg y h₁ h₂ d hL hd hx
    obtain ⟨hb₁, -, hb₂⟩ := hp.partition.mem_bounds hseg
    have htop : ∀ e, e ≤ seg.H → s.trk.CoversAt e y → s.trk.outcome e = some .acked → s.Tops m y seg.H e :=
      fun e heH hxe ho => h.tops_of_eligible hc.range.end_lt he (hH seg hseg) (hfold seg hseg) ⟨hb₁, hb₂⟩ h₁ h₂
        heH hxe (h.once.acked e ho)
    refine ⟨(hp.safe seg hseg y h₁ h₂ d hL hd hx).imp_right ?_, fun ha => htop d hd hx (hc.acks d ha).1⟩
    rintro ⟨e, hde, heH, hxe, ho⟩
    obtain ⟨g, hg, hrest⟩ := htop e heH hxe ho
    exact ⟨g, by omega, hrest⟩

end Eligible

section Served

variable {x : UInt64} {d : ℤ} {sl : MemJournalSlot}

lemma SessInv.journal_spec {r : MemReplica} (h : SessInv L P base s) (hm : MemberOk s L P base r) (hL : L < d)
    (hsl : r.journal.find d = some sl) :
    (sl.covers x = true ↔ s.trk.CoversAt d (x.toNat * P.toNat)) ∧ ∃ w, s.writes d = some w ∧
      (sl.covers x = true → (r.slotBlock x d sl).page = w.req.page P x.toNat) := by
  obtain ⟨w, hw, rfl⟩ := hm.journal d sl hL hsl
  obtain ⟨rs, hok⟩ := h.writes d w hw
  obtain ⟨tl, htl, ha, hl⟩ := h.slots d rs hok.slot
  have hrange : RangeOk P.toUInt64 w.req.addr w.req.len := by
    have hg := h.plan.geometry d tl htl
    change RangeOk s.trk.lbaSize tl.addr tl.len at hg
    rwa [h.lbaSize, ha, hl, hok.addr, hok.len] at hg
  have hfits := hm.replays.fits d _ hL hsl
  rw [hm.pageSize] at hfits
  refine ⟨?_, w, hw, WriteReq.slotBlock_page hm.pageSize hrange hfits⟩
  rw [WriteReq.slot_covers hrange hok.blocks, h.coversAt_iff hok.slot, RouteSlot.Covers, hok.addr, hok.len]

lemma SessInv.blockOk (h : SessInv L P base s) (hp : Planned L s.trk call segs)
    (hs : s.Serves L call segs m) (hterm : (s.net.members m).term = s.term) (hseg : seg ∈ segs)
    (h₁ : seg.addr.toNat ≤ x.toNat * P.toNat) (h₂ : x.toNat * P.toNat < seg.addr.toNat + seg.len.toNat) :
    BlockOk s P base call x.toNat ((s.net.members m).readBlock seg.H x) := by
  have hm := h.members m hterm
  set r := s.net.members m with hr
  -- what the member holds below the horizon reaches the acknowledged writes
  have hack : ∀ a ∈ call.startAcks, s.trk.CoversAt a (x.toNat * P.toNat) →
      s.Tops m (x.toNat * P.toNat) seg.H a := by
    intro a ha hxa
    exact (hs.2 seg hseg _ h₁ h₂ a (h.login_lt hxa) (hp.acks_le seg hseg _ h₁ h₂ a ha hxa) hxa).2 ha
  have hheld : ∀ D e, LastWriter.Untouched r.journal.find (fun s => s.covers x = true) D
      (max seg.H r.commitLsn) → e ≤ seg.H → s.trk.CoversAt e (x.toNat * P.toNat) → s.holds m e → e ≤ D := by
    intro D e hu heH hxe hh
    obtain ⟨sl, hsl⟩ := Option.isSome_iff_exists.mp hh
    exact hu.le (le_max_of_le_left heH) hsl ((h.journal_spec hm (h.login_lt hxe) hsl).1.mpr hxe)
  rcases hm.replays.readBlock hs.1 seg.H x with ⟨d, sl, hL, hd, hsl, hx, hu, hB⟩ | ⟨hu, hB⟩
  · obtain ⟨hcov, w, hw, hpage⟩ := h.journal_spec (x := x) hm hL hsl
    refine Or.inl ⟨d, w, hw, hcov.mp hx, ?_, fun a ha hxa => ?_, ?_, ?_⟩
    · rcases le_or_gt d r.commitLsn with hle | hgt
      · exact h.plan.sys.trk.resolved hL (hle.trans hm.commit_le)
      · have hdH : d ≤ seg.H := by omega
        refine (hs.2 seg hseg _ h₁ h₂ d hL hdH (hcov.mp hx)).1.resolve_right ?_
        rintro ⟨e, hde, heH, hxe, hh⟩
        have hed := hheld d e hu heH hxe hh
        omega
    · obtain ⟨e, hae, heH, hxe, hh⟩ := hack a ha hxa
      exact hae.trans (hheld d e hu heH hxe hh)
    · rw [hB]
      exact MemReplica.slotBlock_src
    · rw [hB]
      exact hpage hx
  · refine Or.inr ⟨fun a ha hxa => ?_, by rw [hB, UInt64.ofNat_toNat]⟩
    obtain ⟨e, -, heH, hxe, hh⟩ := hack a ha hxa
    exact absurd (hheld L e hu heH hxe hh) (h.login_lt hxe).not_ge

lemma SessInv.blocksOk (h : SessInv L P base s) (hc : CallOk L s.trk call) (hp : Planned L s.trk call segs)
    (hlen : call.len.toNat / P.toNat < 2 ^ 32) (hs : s.Serves L call segs m)
    (hterm : (s.net.members m).term = s.term) (hseg : seg ∈ segs) :
    BlocksOk s P base call seg.addr seg.len ((s.net.members m).readRange seg.H seg.addr seg.len).1 := by
  have hrange := rangeOk_of_planned hp hc.range hseg
  rw [h.lbaSize] at hrange
  obtain ⟨hP, ha, hl⟩ := rangeOk_blocks hrange
  have hend := hrange.end_lt
  obtain ⟨hb₁, -, hb₂⟩ := hp.partition.mem_bounds hseg
  have hsize : (s.net.members m).blockSize = P.toUInt64 := by
    rw [MemReplica.blockSize, (h.members m hterm).pageSize]
  have hnblk : (seg.len / P.toUInt64).toUInt32.toNat = seg.len.toNat / P.toNat := by
    have hle : seg.len.toNat / P.toNat ≤ call.len.toNat / P.toNat := Nat.div_le_div_right (by omega)
    rw [UInt64.toNat_toUInt32, UInt64.toNat_div, UInt32.toNat_toUInt64, Nat.mod_eq_of_lt (hle.trans_lt hlen)]
  have hlba : (seg.addr / P.toUInt64).toNat = seg.addr.toNat / P.toNat := by
    rw [UInt64.toNat_div, UInt32.toNat_toUInt64]
  rw [BlocksOk, List.range'_eq_map_range, MemReplica.readRange]
  simp only [hsize, hnblk, List.map_map, List.forall₂_map_left_iff, List.forall₂_map_right_iff,
    List.forall₂_same, List.mem_range, Function.comp_apply]
  intro i hi
  have hi' : (i + 1) * P.toNat ≤ seg.len.toNat := by
    rw [hl]
    exact Nat.mul_le_mul_right _ hi
  rw [Nat.add_mul, Nat.one_mul] at hi'
  have hbytes : (seg.addr.toNat / P.toNat + i) * P.toNat = seg.addr.toNat + i * P.toNat := by
    rw [Nat.add_mul, ← hlba, ← ha]
  have hx : (seg.addr / P.toUInt64 + UInt64.ofNat i).toNat = seg.addr.toNat / P.toNat + i := by
    have hle := Nat.le_mul_of_pos_right (seg.addr.toNat / P.toNat + i) hP
    rw [UInt64.toNat_add, UInt64.toNat_ofNat_of_lt' (by simp only [UInt64.size]; omega), hlba,
      Nat.mod_eq_of_lt (by omega)]
  rw [← hx]
  apply h.blockOk hp hs hterm hseg
  · rw [hx, hbytes]
    omega
  · rw [hx, hbytes]
    omega

end Served

section Reads

variable {k : κ} {rd : PlanRead}

lemma SessInv.readStep {start : Fin n} {pc pc' : ReadPc n} {route : RouteMap n} (hL : -1 ≤ L)
    (h : SessInv L P base s) (hrd : s.plan.reads k = some rd)
    (hpc : PcOk s L P base rd.toPlanCall pc)
    (hok : ∀ a, pc = .test a → ∀ seg ∈ a.segs, FoldsBelow s.route seg)
    (hs : Client.readStep s rd start pc = some (route, pc')) :
    SessInv L P base { s with route := route } ∧ PcOk { s with route := route } L P base rd.toPlanCall pc' := by
  have hread := h.plan.reads k rd hrd
  have keep : ∀ {route : RouteMap n} (pc : ReadPc n), PcOk s L P base rd.toPlanCall pc →
      PcOk { s with route := route } L P base rd.toPlanCall pc := by
    intro route pc hpc
    have hg : Grows s { s with route := route } := .of_tracker (.refl _) rfl rfl rfl
    exact hpc.mono hg hread.call.acks_isSome
  cases pc with
  | plan =>
    simp only [Client.readStep] at hs
    split_ifs at hs
    cases hs
    refine ⟨h, ?_⟩
    cases hres : rd.result with
    | none => trivial
    | some segs => exact hread.planned hres
  | makeHdr segs =>
    cases hs
    exact ⟨h, keep (.frontier segs s.makeHdr) ⟨hpc, rfl, le_rfl⟩⟩
  | frontier segs hdr =>
    cases hs
    exact ⟨h, keep (.fold segs hdr s.trk.frontier) hpc⟩
  | fold segs hdr F =>
    cases hs
    refine ⟨h.foldTo F, keep (.test _) ⟨hpc.1, hpc.2, (le_foldl_max segs F).2⟩⟩
  | test a =>
    simp only [Client.readStep] at hs
    split_ifs at hs with hhop he
    · cases hs
      exact ⟨h, trivial⟩
    · cases hs
      refine ⟨h, keep (.await _ _) ⟨⟨hpc.planned, hpc.hdr, hpc.horizon⟩, ?_, ?_⟩⟩
      · exact h.serves_of_eligible hread.call hpc.planned hpc.horizon (hok a rfl) he
      · rw [planReqs_of_planned hpc.planned]
        refine ⟨List.length_map _, fun j seg res _ hres => ?_⟩
        rw [List.getElem?_map] at hres
        obtain ⟨-, -, hres⟩ := Option.map_eq_some_iff.mp hres
        cases hres
    · cases hs
      exact ⟨h, keep (.test _) ⟨hpc.planned, hpc.hdr, hpc.horizon⟩⟩
  | await a replies =>
    obtain ⟨ha, hserves, hreplies⟩ := hpc
    simp only [Client.readStep] at hs
    split at hs
    case h_1 => cases hs
    case h_2 results hc =>
      cases hs
      have hP : 0 < P.toNat := by
        have hpos := hread.call.range.lbaSize_pos
        change 0 < s.trk.lbaSize.toNat at hpos
        rwa [h.lbaSize, UInt32.toNat_toUInt64] at hpos
      exact ⟨h, keep (.sync _ _)
        (hreplies.collected hL hP h.lbaSize hread.call ha.planned hserves hc)⟩
    case h_3 e hc =>
      split_ifs at hs <;> cases hs
      · exact ⟨h, keep (.test _) ⟨ha.planned, ha.hdr, ha.horizon⟩⟩
      · exact ⟨h, trivial⟩
  | sync idx results =>
    cases hs
    exact ⟨h.advanceSynced hpc.1, keep (.done _) hpc.2⟩
  | done res => cases hs

end Reads

end CraftClient.Client
