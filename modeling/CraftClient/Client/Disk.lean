import CraftClient.Client.Stability
import CraftClient.Lib.Device

/-! A session as its user sees it: a disk on which the acknowledged writes are performed in the order of their dLSNs. -/

namespace CraftClient.Client

open Replica Router Cluster Tracker Runs

variable {ι κ ρ : Type} {n : ℕ} {L : ℤ} {P : UInt32} {base : UInt64 → Block} {s s' : Session ι κ ρ n}
  {d : ℤ} {k : κ} {call : PlanCall}

def WriteReq.diskWrite (P : UInt32) (q : WriteReq) : DeviceWrite ℕ (List UInt8) where
  covers b := decide (q.addr.toNat ≤ b * P.toNat ∧ b * P.toNat < q.addr.toNat + q.len.toNat)
  page := q.page P

namespace Session

def diskWrite (P : UInt32) (s : Session ι κ ρ n) (d : ℤ) : DeviceWrite ℕ (List UInt8) :=
  match s.writes d with
  | none => ⟨fun _ => false, fun _ => []⟩
  | some w => w.req.diskWrite P

def disk (P : UInt32) (base : UInt64 → Block) (s : Session ι κ ρ n) (acks : Finset ℤ) : ℕ → List UInt8 :=
  DeviceWrite.replayIn (fun b => (base (.ofNat b)).page) (s.diskWrite P) acks

def pages (P : UInt32) (base : UInt64 → Block) (s : Session ι κ ρ n) (call : PlanCall) : List (List UInt8) :=
  (List.range' (call.addr.toNat / P.toNat) (call.len.toNat / P.toNat)).map (s.disk P base call.startAcks)

end Session

section Apart

structure Apart (sys : Sys ι) (call : PlanCall) : Prop where
  slots : ∀ d sl, sys.trk.tracker.data d = some sl → Tracker.overlaps call.addr call.len sl.addr sl.len = true →
    d ∈ call.startAcks
  creating : ∀ i d addr len, sys.threads i = .create d addr len → Tracker.overlaps call.addr call.len addr len = false

variable {sys sys' : Sys ι} {t t' : DlsnTracker} {th th' : Thread} {weak busy : Bool} {sl' : DlsnSlot}

lemma threadStep_slot (hs : threadStep t weak th = some (t', th')) (hn : t.tracker.data d = none)
    (h : t'.tracker.data d = some sl') : th = .create d sl'.addr sl'.len := by
  have hc : th.creating = some d := by
    by_contra hc
    rw [threadStep_data_none hs hn hc] at h
    cases h
  cases th with
  | create e addr len =>
    cases hc
    cases hs
    rw [StreamTracker.create_data, if_pos rfl] at h
    cases h
    rfl
  | _ => cases hc

lemma startCall_slot {c : Call} (hc : startCall t c = some (t', th)) :
    t'.tracker = t.tracker ∧ ∀ d addr len, th = .create d addr len → c = .reserve addr len := by
  cases c with
  | reserve addr len =>
    cases hc
    refine ⟨rfl, fun d addr' len' h => ?_⟩
    cases h
    rfl
  | resolve =>
    simp only [startCall] at hc
    split_ifs at hc
    cases hc
    exact ⟨rfl, fun d addr len h => by cases h⟩
  | retireUpto =>
    cases hc
    exact ⟨rfl, fun d addr len h => by cases h⟩

lemma Apart.of_touches (h : Apart sys call) (ht : Touches sys.trk t) : Apart { sys with trk := t } call where
  slots := by
    have htr : t.tracker = sys.trk.tracker := by rw [ht]
    simpa only [htr] using h.slots
  creating := h.creating

variable [DecidableEq ι] [Fintype ι] {a : Act ι}

lemma Apart.step (h : Apart sys call) (he : Evolves sys.trk sys'.trk)
    (hr : ∀ i addr len, a = .call i (.reserve addr len) → Tracker.overlaps call.addr call.len addr len = false)
    (hs : Tracker.step busy sys a = some sys') : Apart sys' call := by
  rcases step_cases hs with ⟨i, c, th, rfl, -, hc, hth, -⟩ | ⟨i, weak, th, rfl, hc, -, hth, -⟩
  · obtain ⟨htr, hcr⟩ := startCall_slot hc
    refine ⟨fun d sl hd => h.slots d sl (htr ▸ hd), fun j d addr len hj => ?_⟩
    rw [hth, Function.update_apply] at hj
    split_ifs at hj
    · exact hr i addr len (by rw [hcr d addr len hj])
    · exact h.creating j d addr len hj
  · refine ⟨fun d sl hd ho => ?_, fun j d addr len hj => ?_⟩
    · cases h₀ : sys.trk.tracker.data d with
      | some sl₀ =>
        obtain ⟨sl₁, h₁, ha, hl, -⟩ := he.slot d sl₀ h₀
        obtain rfl : sl = sl₁ := Option.some.inj (hd.symm.trans h₁)
        exact h.slots d sl₀ h₀ (by rwa [← ha, ← hl])
      | none =>
        rw [h.creating i d sl.addr sl.len (threadStep_slot hc h₀ hd)] at ho
        cases ho
    · rw [hth, Function.update_apply] at hj
      split_ifs at hj
      · have hcr := threadStep_not_creating hc
        rw [hj] at hcr
        cases hcr
      · exact h.creating j d addr len hj

end Apart

section Requests

def KeepsRequests (s s' : Session ι κ ρ n) : Prop :=
  ∀ d w, s.writes d = some w → ∃ w', s'.writes d = some w' ∧ w'.req = w.req

lemma KeepsRequests.pages (hk : KeepsRequests s s') (hw : ∀ a ∈ call.startAcks, (s.writes a).isSome = true) :
    s'.pages P base call = s.pages P base call := by
  have hdisk : s'.disk P base call.startAcks = s.disk P base call.startAcks := by
    apply DeviceWrite.replayIn_congr
    intro a ha
    obtain ⟨w, hw⟩ := Option.isSome_iff_exists.mp (hw a ha)
    obtain ⟨w', hw', hreq⟩ := hk a w hw
    simp only [Session.diskWrite, hw, hw', hreq]
  rw [Session.pages, hdisk, Session.pages]

lemma KeepsRequests.of_eq (h : s'.writes = s.writes) : KeepsRequests s s' := fun _ w hw => ⟨w, h ▸ hw, rfl⟩

lemma Session.deliver_writes (s : Session ι κ ρ n) (d : ℤ) (w : WriteCall n) (m : Fin n) :
    ∃ l, (s.deliver d w m).writes = (s.setWrite d (w.setLeg m l)).writes := by
  simp only [Session.deliver]
  split <;> exact ⟨_, rfl⟩

lemma KeepsRequests.setLeg {w : WriteCall n} {m : Fin n} {l : WriteLeg} (hw : s.writes d = some w)
    (h : s'.writes = (s.setWrite d (w.setLeg m l)).writes) : KeepsRequests s s' := by
  intro e w' hw'
  rw [h]
  refine (Grows.setWrite fun w₀ hw₀ => ?_).writes e w' hw'
  obtain rfl : w = w₀ := Option.some.inj (hw.symm.trans hw₀)
  rfl

end Requests

variable [NeZero n]

section Shown

lemma SessInv.covers_diskWrite {w : WriteCall n} {b : ℕ} (h : SessInv L P base s) (hw : s.writes d = some w) :
    (s.diskWrite P d).covers b = true ↔ s.trk.CoversAt d (b * P.toNat) := by
  obtain ⟨rs, hok⟩ := h.writes d w hw
  rw [h.coversAt_iff hok.slot, RouteSlot.Covers, hok.addr, hok.len, Session.diskWrite, hw]
  exact decide_eq_true_iff

lemma SessInv.overlaps_of_coversAt {y : ℕ} {sl : DlsnSlot} (h : SessInv L P base s)
    (hc : RangeOk s.trk.lbaSize call.addr call.len) (h₁ : call.addr.toNat ≤ y)
    (h₂ : y < call.addr.toNat + call.len.toNat) (hsl : s.trk.tracker.data d = some sl) (hy : sl.Covers y) :
    Tracker.overlaps call.addr call.len sl.addr sl.len = true := by
  rw [overlaps_iff hc (h.plan.geometry d sl hsl)]
  exact ⟨h₁.trans_lt hy.2, hy.1.trans_lt h₂⟩

lemma SessInv.page_of_blockOk {b : ℕ} {B : Block} (h : SessInv L P base s) (hc : CallOk L s.trk call)
    (ha : Apart s.plan.sys call) (hw : ∀ a ∈ call.startAcks, (s.writes a).isSome = true)
    (h₁ : call.addr.toNat ≤ b * P.toNat) (h₂ : b * P.toNat < call.addr.toNat + call.len.toNat)
    (hB : BlockOk s P base call b B) : s.disk P base call.startAcks b = B.page := by
  rcases hB with ⟨d, w, hd, ⟨sl, hsl, hy⟩, -, hlast, -, hpage⟩ | ⟨hnone, rfl⟩
  · have hmem : d ∈ call.startAcks := ha.slots d sl hsl (h.overlaps_of_coversAt hc.range h₁ h₂ hsl hy)
    rw [hpage, Session.disk, DeviceWrite.replayIn_of_last hmem ((h.covers_diskWrite hd).mpr ⟨sl, hsl, hy⟩),
      Session.diskWrite, hd]
    · rfl
    · intro a hm hcov
      obtain ⟨wa, hwa⟩ := Option.isSome_iff_exists.mp (hw a hm)
      exact hlast a hm ((h.covers_diskWrite hwa).mp hcov)
  · apply DeviceWrite.replayIn_of_untouched
    intro a hm
    obtain ⟨wa, hwa⟩ := Option.isSome_iff_exists.mp (hw a hm)
    exact Bool.eq_false_iff.mpr fun hcov => hnone a hm ((h.covers_diskWrite hwa).mp hcov)

lemma SessInv.pages_of_blocksOk {blocks : List Block} (h : SessInv L P base s) (hc : CallOk L s.trk call)
    (ha : Apart s.plan.sys call) (hw : ∀ a ∈ call.startAcks, (s.writes a).isSome = true)
    (hb : BlocksOk s P base call call.addr call.len blocks) : blocks.map Block.page = s.pages P base call := by
  have hrange := hc.range
  rw [h.lbaSize] at hrange
  obtain ⟨hP, haddr, hlen⟩ := rangeOk_blocks hrange
  obtain ⟨hlength, hget⟩ := List.forall₂_iff_get.mp hb
  refine List.ext_getElem (by simpa [Session.pages] using hlength.symm) fun j h₁ h₂ => ?_
  have hj : j < call.len.toNat / P.toNat := by simpa [Session.pages] using h₂
  have hB := hget j (by simpa using hj) (by simpa using h₁)
  simp only [List.get_eq_getElem, List.getElem_range', Nat.one_mul] at hB
  simp only [Session.pages, List.getElem_map, List.getElem_range', Nat.one_mul]
  -- block `j` of the range starts inside it
  have hdiv : call.addr.toNat / P.toNat * P.toNat = call.addr.toNat := by
    rw [haddr, Nat.mul_div_cancel _ hP]
  have hstart : (call.addr.toNat / P.toNat + j) * P.toNat = call.addr.toNat + j * P.toNat := by
    rw [Nat.add_mul, hdiv]
  have hend : j * P.toNat < call.len.toNat := by
    rw [hlen]
    exact Nat.mul_lt_mul_of_pos_right hj hP
  exact (h.page_of_blockOk hc ha hw (by omega) (by omega) hB).symm

lemma SessInv.foldsBelow {a : Attempt n} (h : SessInv L P base s) (hc : CallOk L s.trk call)
    (ha : Apart s.plan.sys call) (hat : AttemptOk s L call a) : ∀ seg ∈ a.segs, FoldsBelow s.route seg := by
  intro seg hseg d rs hlt hle hrs hq
  by_contra hov
  obtain ⟨sl, hsl, haddr, hlen⟩ := h.slots d rs hrs
  obtain ⟨hb₁, hpos, hb₂⟩ := hat.planned.partition.mem_bounds hseg
  have hrange := hc.range.end_lt
  have hend := h.route.end_lt d rs hrs
  have hseg' : seg.addr.toNat + seg.len.toNat < 2 ^ 64 := hb₂.trans_lt hrange
  simp only [Router.overlaps, Bool.not_eq_false, Bool.and_eq_true, decide_eq_true_eq, UInt64.lt_iff_toNat_lt,
    UInt64.toNat_add, Nat.mod_eq_of_lt hseg', Nat.mod_eq_of_lt hend] at hov
  -- a byte that the segment and the slot have in common
  have hrs_pos : 0 < rs.len.toNat := by
    rw [← hlen]
    exact (h.plan.geometry d sl hsl).pos
  have hy : sl.Covers (max seg.addr.toNat rs.addr.toNat) := by
    rw [DlsnSlot.Covers, haddr, hlen]
    omega
  have hmem : d ∈ call.startAcks :=
    ha.slots d sl hsl (h.overlaps_of_coversAt hc.range (by omega) (by omega) hsl hy)
  have := hat.planned.acks_le seg hseg _ (le_max_left _ _) (by omega) d hmem ⟨sl, hsl, hy⟩
  omega

end Shown

section Frames

structure DiskInv (L : ℤ) (P : UInt32) (base : UInt64 → Block) (s : Session ι κ ρ n) : Prop where
  sess : SessInv L P base s
  issued : ∀ d ∈ s.resolved, (s.writes d).isSome = true
  apart : ∀ k c rd, s.reads k = some c → s.plan.reads k = some rd → c.isDone = false →
    Apart s.plan.sys rd.toPlanCall
  shown : ∀ k c rd blocks, s.reads k = some c → s.plan.reads k = some rd → c.pc.returned = some blocks →
    blocks.map Block.page = s.pages P base rd.toPlanCall

lemma DiskInv.writes_of_acks {rd : PlanRead} (h : DiskInv L P base s) (hrd : s.plan.reads k = some rd) :
    ∀ a ∈ rd.startAcks, (s.writes a).isSome = true := by
  intro a ha
  have ho := ((h.sess.plan.reads k rd hrd).call.acks a ha).1
  by_contra hn
  exact h.sess.once.pending a (fun hm => hn (h.issued a hm)) ⟨_, ho, rfl⟩

lemma DiskInv.of_frame (h : DiskInv L P base s) (h' : SessInv L P base s') (hr : s'.reads = s.reads)
    (hc : ∀ k rd', s'.plan.reads k = some rd' →
      ∃ rd, s.plan.reads k = some rd ∧ rd.toPlanCall = rd'.toPlanCall)
    (ha : ∀ k c rd, s.reads k = some c → s.plan.reads k = some rd → c.isDone = false →
      Apart s.plan.sys rd.toPlanCall → Apart s'.plan.sys rd.toPlanCall)
    (hres : ∀ d ∈ s'.resolved, d ∈ s.resolved ∨ (s.writes d).isSome = true) (hk : KeepsRequests s s') :
    DiskInv L P base s' where
  sess := h'
  issued d hd := by
    obtain ⟨w, hw⟩ := Option.isSome_iff_exists.mp ((hres d hd).elim (h.issued d) id)
    obtain ⟨w', hw', -⟩ := hk d w hw
    simp [hw']
  apart k c rd' hk' hrd' hdone := by
    obtain ⟨rd, hrd, hcall⟩ := hc k rd' hrd'
    rw [hr] at hk'
    rw [← hcall]
    exact ha k c rd hk' hrd hdone (h.apart k c rd hk' hrd hdone)
  shown k c rd' blocks hk' hrd' hb := by
    obtain ⟨rd, hrd, hcall⟩ := hc k rd' hrd'
    rw [← hcall, hk.pages (h.writes_of_acks hrd)]
    exact h.shown k c rd blocks (hr ▸ hk') hrd hb

lemma DiskInv.of_plan_eq (h : DiskInv L P base s) (h' : SessInv L P base s') (hp : s'.plan = s.plan)
    (hr : s'.reads = s.reads) (hres : s'.resolved = s.resolved) (hk : KeepsRequests s s') :
    DiskInv L P base s' := by
  refine h.of_frame h' hr (fun k rd hrd => ⟨rd, hp ▸ hrd, rfl⟩) (fun k c rd _ _ _ ha => ?_) (fun d hd => ?_) hk
  · rwa [hp]
  · exact Or.inl (hres ▸ hd)

lemma DiskInv.of_setRead [DecidableEq κ] {c : ClientRead n} {pc : ReadPc n} (h : DiskInv L P base s)
    (h' : SessInv L P base s')
    (hc : s.reads k = some c) (hrun : c.isDone = false)
    (hr : s'.reads = Function.update s.reads k (some { c with pc := pc })) (hp : s'.plan = s.plan)
    (hw : s'.writes = s.writes) (hres : s'.resolved = s.resolved)
    (hshow : ∀ rd blocks, s.plan.reads k = some rd → pc.returned = some blocks →
      blocks.map Block.page = s.pages P base rd.toPlanCall) : DiskInv L P base s' := by
  have hk : KeepsRequests s s' := .of_eq hw
  refine ⟨h', fun d hd => ?_, fun j c' rd hj hrd hdone => ?_, fun j c' rd blocks hj hrd hb => ?_⟩
  · rw [hw]
    exact h.issued d (hres ▸ hd)
  · rw [hp] at hrd ⊢
    rw [hr, Function.update_apply] at hj
    split_ifs at hj with hjk
    · exact h.apart k c rd hc (hjk ▸ hrd) hrun
    · exact h.apart j c' rd hj hrd hdone
  · rw [hp] at hrd
    rw [hk.pages (h.writes_of_acks hrd)]
    rw [hr, Function.update_apply] at hj
    split_ifs at hj with hjk
    · cases hj
      exact hshow rd blocks (hjk ▸ hrd) hb
    · exact h.shown j c' rd blocks hj hrd hb

lemma DiskInv.reply [DecidableEq κ] {j : ℕ} {c : ClientRead n} {a : Attempt n} {replies : List ReadReply}
    {x : Except ErrorCond ReadResult} (h : DiskInv L P base s) (h' : SessInv L P base s')
    (hc : s.reads k = some c) (hpc : c.pc = .await a replies)
    (hr : s'.reads = Function.update s.reads k (some { c with pc := .await a (replies.set j (some x)) }))
    (hp : s'.plan = s.plan) (hw : s'.writes = s.writes) (hres : s'.resolved = s.resolved) :
    DiskInv L P base s' := by
  refine h.of_setRead h' hc (by simp [ClientRead.isDone, hpc]) hr hp hw hres fun rd blocks _ hb => ?_
  cases hb

lemma readStep_returned {rd : PlanRead} {start : Fin n} {pc pc' : ReadPc n} {route : RouteMap n}
    {blocks : List Block} (hs : readStep s rd start pc = some (route, pc')) (hb : pc'.returned = some blocks) :
    ∃ idx results, pc = .sync idx results ∧ blocks = results.flatMap ReadResult.blocks := by
  cases pc with
  | sync idx results =>
    cases hs
    exact ⟨idx, results, rfl, (Option.some.inj hb).symm⟩
  | plan =>
    simp only [readStep] at hs
    split_ifs at hs
    cases hs
    split at hb <;> cases hb
  | test a =>
    simp only [readStep] at hs
    split_ifs at hs <;> cases hs <;> cases hb
  | await a replies =>
    simp only [readStep] at hs
    split at hs
    · cases hs
    · cases hs
      cases hb
    · split_ifs at hs <;> cases hs <;> cases hb
  | done => cases hs
  | _ =>
    cases hs
    cases hb

end Frames

def creates (addr len : UInt64) : Thread → Bool
  | .create _ addr' len' => Tracker.overlaps addr len addr' len'
  | _ => false

/-- No round is asked for; ranges end below the address space and have fewer than `2 ^ 32` blocks; a read starts
when every write on its range has been acknowledged, and no write to it is made before the read is done. -/
def SessAct.RaceFree (s : Session ι κ ρ n) : SessAct ι κ ρ n → Prop
  | .reserve _ addr len => addr.toNat + len.toNat < 2 ^ 64 ∧ ∀ k, ∀ c ∈ s.reads k, ∀ rd ∈ s.plan.reads k,
      c.isDone = true ∨ Tracker.overlaps rd.addr rd.len addr len = false
  | .issue d _ => ∀ rs ∈ s.route.overlay.data d, rs.len.toNat / s.trk.lbaSize.toNat < 2 ^ 32
  | .startRead _ addr len => (addr.toNat + len.toNat < 2 ^ 64 ∧ len.toNat / s.trk.lbaSize.toNat < 2 ^ 32) ∧
      (∀ d, s.route.loginDlsn < d → d ≤ s.trk.issued → ∀ sl ∈ s.trk.tracker.data d,
        Tracker.overlaps addr len sl.addr sl.len = true → d ∈ s.plan.sys.ackReturned) ∧
      ∀ i, creates addr len (s.plan.sys.threads i) = false
  | .request _ _ _ => False
  | _ => True

section Steps

variable [DecidableEq ι] [Fintype ι] [DecidableEq κ] [Fintype κ]

lemma DiskInv.of_tracks {a : Act ι} {plan : PlanSys ι κ} (h : DiskInv L P base s) (h' : SessInv L P base s')
    (hp : planSysStep s.plan (.write a) = some plan) (hok : (PlanAct.write a).Ok s.plan) (hplan : s'.plan = plan)
    (hr : s'.reads = s.reads)
    (hfree : ∀ i addr len, a = .call i (.reserve addr len) → ∀ k, ∀ c ∈ s.reads k, ∀ rd ∈ s.plan.reads k,
      c.isDone = true ∨ Tracker.overlaps rd.addr rd.len addr len = false)
    (hres : ∀ d ∈ s'.resolved, d ∈ s.resolved ∨ (s.writes d).isSome = true) (hw : s'.writes = s.writes) :
    DiskInv L P base s' := by
  have he := h.sess.plan.evolves hok hp
  obtain ⟨sys, hsys, rfl⟩ := Option.map_eq_some_iff.mp hp
  refine h.of_frame h' hr (fun k rd hrd => ⟨rd, by rwa [hplan] at hrd, rfl⟩) (fun k c rd hk hrd hd ha => ?_) hres
    (.of_eq hw)
  rw [hplan]
  refine ha.step he (fun i addr len heq => ?_) hsys
  exact (hfree i addr len heq k c hk rd hrd).resolve_left (by simp [hd])

variable [DecidableEq ρ]

lemma DiskInv.startRead {addr len : UInt64} (h : DiskInv L P base s) (h' : SessInv L P base s')
    (hok : (SessAct.startRead k addr len : SessAct ι κ ρ n).RaceFree s)
    (hs : sessStep s (.startRead k addr len) = some s') : DiskInv L P base s' := by
  obtain ⟨-, -, plan, hp, rfl⟩ := sessStep_startRead hs
  simp only [planSysStep] at hp
  split_ifs at hp
  cases hp
  refine ⟨h', h.issued, fun j c rd hj hrd hdone => ?_, fun j c rd blocks hj hrd hb => ?_⟩
  · simp only [Function.update_apply] at hj hrd
    split_ifs at hj hrd with hjk
    · cases hrd
      refine ⟨fun d sl hsl hov => ?_, fun i d addr' len' hth => ?_⟩
      · obtain ⟨hlt, hle⟩ := h.sess.plan.sys.trk.issued_of_data d sl hsl
        refine hok.2.1 d (h.sess.route.login.trans_lt hlt) ?_ sl hsl hov
        rw [DlsnTracker.issued]
        exact Int.le_sub_one_of_lt hle
      · have hcr := hok.2.2 i
        rwa [hth] at hcr
    · exact h.apart j c rd hj hrd hdone
  · simp only [Function.update_apply] at hj hrd
    split_ifs at hj hrd with hjk
    · cases hj
      cases hb
    · exact h.shown j c rd blocks hj hrd hb

lemma DiskInv.read {start : Fin n} (h : DiskInv L P base s) (h' : SessInv L P base s')
    (hs : sessStep s (.read k start) = some s') : DiskInv L P base s' := by
  obtain ⟨c, rd, route, pc, hc, hrd, hr, rfl⟩ := sessStep_read hs
  have hrun : c.isDone = false := by
    cases hpc : c.pc with
    | done =>
      rw [hpc] at hr
      cases hr
    | _ => simp [ClientRead.isDone, hpc]
  refine h.of_setRead h' hc hrun rfl rfl rfl rfl fun rd' blocks hrd' hb => ?_
  obtain rfl : rd = rd' := Option.some.inj (hrd.symm.trans hrd')
  obtain ⟨idx, results, hpc, rfl⟩ := readStep_returned hr hb
  have hok := (h.sess.reads k c rd hc hrd).2
  rw [hpc] at hok
  exact h.sess.pages_of_blocksOk (h.sess.plan.reads k rd hrd).call (h.apart k c rd hc hrd hrun)
    (h.writes_of_acks hrd) hok.2

lemma DiskInv.stableOk {a : SessAct ι κ ρ n} (h : DiskInv L P base s) (hok : a.RaceFree s)
    (hs : sessStep s a = some s') : a.StableOk s := by
  cases a with
  | reserve | startRead => exact hok.1
  | issue | request => exact hok
  | read k start =>
    obtain ⟨c, rd, route, pc, hc, hrd, -, -⟩ := sessStep_read hs
    simp only [SessAct.StableOk, hc]
    split
    case h_2 => trivial
    case h_1 e a heq =>
      cases heq
      exact h.sess.foldsBelow (h.sess.plan.reads k rd hrd).call (h.apart k _ rd hc hrd rfl)
        (h.sess.reads k _ rd hc hrd).2
  | _ => trivial

lemma DiskInv.planRead (h : DiskInv L P base s) (h' : SessInv L P base s')
    (hs : sessStep s (.planRead k) = some s') : DiskInv L P base s' := by
  obtain ⟨plan, hp, rfl⟩ := Session.tracks_some hs
  refine h.of_frame h' rfl (h.sess.once.planRead hp).2 (fun j c rd _ _ _ ha => ?_) (fun d hd => Or.inl hd)
    (.of_eq rfl)
  simp only [planSysStep] at hp
  obtain ⟨r, hr, hp⟩ := Option.bind_eq_some_iff.mp hp
  obtain ⟨⟨u, pc⟩, hpc, hp⟩ := Option.bind_eq_some_iff.mp hp
  cases hp
  exact ha.of_touches (planStep_touches hpc)

lemma DiskInv.step {a : SessAct ι κ ρ n} (hL : -1 ≤ L) (h : DiskInv L P base s) (hok : a.RaceFree s)
    (hs : sessStep s a = some s') : DiskInv L P base s' := by
  have h' := h.sess.step hL (h.stableOk hok hs) hs
  cases a with
  | reserve i addr len =>
    simp only [sessStep] at hs
    split_ifs at hs with hpre
    obtain ⟨plan, hp, rfl⟩ := Session.tracks_some hs
    refine h.of_tracks h' hp (Session.rangeOk_of_precheck hpre hok.1) rfl rfl (fun j addr' len' heq => ?_)
      (fun d hd => Or.inl hd) rfl
    cases heq
    exact hok.2
  | go i weak =>
    obtain ⟨s₁, ht, rfl⟩ := Option.map_eq_some_iff.mp hs
    obtain ⟨plan, hp, rfl⟩ := Session.tracks_some ht
    have hone := h.sess.once.threads i
    refine h.of_tracks h' hp ⟨hone.storesFresh, hone.raisesFirst⟩ rfl rfl (fun j addr' len' heq => ?_)
      (fun d hd => Or.inl hd) rfl
    cases heq
  | resolve i d =>
    obtain ⟨w, oc, plan, hw, hd, hoc, hp, rfl⟩ := sessStep_resolve hs
    refine h.of_tracks h' hp trivial rfl rfl (fun j addr' len' heq => ?_) (fun e he => ?_) rfl
    · cases heq
    · rcases Finset.mem_insert.mp he with rfl | he
      · exact Or.inr (by simp [hw])
      · exact Or.inl he
  | create d =>
    obtain ⟨-, -, sl, -, rfl⟩ := sessStep_create hs
    exact h.of_plan_eq h' rfl rfl rfl (.of_eq rfl)
  | issue d bytes =>
    obtain ⟨hn, sl, -, rfl⟩ := sessStep_issue hs
    exact h.of_plan_eq h' rfl rfl rfl (Grows.setWrite fun w' hw' => by simp [hn] at hw').writes
  | leg d m a =>
    obtain ⟨w, leg, hw, -, rfl⟩ := sessStep_leg hs
    exact h.of_plan_eq h' rfl rfl rfl (.setLeg hw rfl)
  | deliver d m =>
    obtain ⟨w, hw, -, rfl⟩ := sessStep_deliver hs
    obtain ⟨l, hl⟩ := s.deliver_writes d w m
    refine h.of_plan_eq h' ?_ ?_ ?_ (.setLeg hw hl)
    all_goals
      simp only [Session.deliver]
      split <;> rfl
  | record d m =>
    obtain ⟨w, res, hw, -, -, rfl⟩ := sessStep_record hs
    exact h.of_plan_eq h' rfl rfl rfl (.setLeg hw rfl)
  | sync d m =>
    obtain ⟨w, l, hw, -, -, rfl⟩ := sessStep_sync hs
    exact h.of_plan_eq h' rfl rfl rfl (.setLeg hw rfl)
  | fold F =>
    simp only [sessStep] at hs
    split_ifs at hs
    cases hs
    exact h.of_plan_eq h' rfl rfl rfl (.of_eq rfl)
  | keepAlive m C =>
    rcases sessStep_keepAlive hs with rfl | ⟨-, l, r, -, rfl⟩
    · exact h
    · exact h.of_plan_eq h' rfl rfl rfl (.of_eq rfl)
  | report m C =>
    simp only [sessStep] at hs
    split_ifs at hs
    cases hs
    exact h.of_plan_eq h' rfl rfl rfl (.of_eq rfl)
  | setUp m up | setLeader m =>
    cases hs
    exact h.of_plan_eq h' rfl rfl rfl (.of_eq rfl)
  | request => exact hok.elim
  | round j =>
    obtain ⟨net, hgo, -⟩ := Option.map_eq_some_iff.mp hs
    simp [MemTransport.goRound, h.sess.idle j] at hgo
  | drop j => simp [sessStep, h.sess.idle j] at hs
  | retire i j => simp [sessStep, h.sess.idle j] at hs
  | startRead k addr len => exact h.startRead h' hok hs
  | planRead k => exact h.planRead h' hs
  | read k start => exact h.read h' hs
  | serve k j =>
    obtain ⟨c, rd, a, replies, seg, hc, -, hpc, -, -, ⟨res, q, -, rfl⟩ | ⟨e, rfl⟩⟩ := sessStep_serve hs
    · exact h.reply h' hc hpc rfl rfl rfl rfl
    · exact h.reply h' hc hpc rfl rfl rfl rfl
  | fail k j timedOut =>
    obtain ⟨c, a, replies, e, hc, hpc, rfl⟩ := sessStep_fail hs
    exact h.reply h' hc hpc rfl rfl rfl rfl

end Steps

variable [DecidableEq ι] [Fintype ι] [DecidableEq κ] [Fintype κ] [DecidableEq ρ]

section Runs

instance decidableRaceFree (s : Session ι κ ρ n) : ∀ a : SessAct ι κ ρ n, Decidable (a.RaceFree s)
  | .reserve .. => inferInstanceAs (Decidable (_ ∧ ∀ k, ∀ c ∈ s.reads k, ∀ rd ∈ s.plan.reads k, _ ∨ _))
  | .issue d _ => inferInstanceAs (Decidable (∀ rs ∈ s.route.overlay.data d, _))
  | .startRead _ addr len => @instDecidableAnd _ _ inferInstance (@instDecidableAnd _ _
      (decidable_of_iff (∀ d ∈ MemReplica.dlsns s.route.loginDlsn s.trk.issued, ∀ sl ∈ s.trk.tracker.data d,
        Tracker.overlaps addr len sl.addr sl.len = true → d ∈ s.plan.sys.ackReturned) (by
          simp only [mem_dlsns, and_imp])) inferInstance)
  | .request .. => .isFalse id
  | .read .. | .go .. | .create .. | .leg .. | .deliver .. | .record .. | .sync .. | .resolve .. | .fold ..
  | .keepAlive .. | .report .. | .setUp .. | .setLeader .. | .round .. | .drop .. | .retire .. | .planRead ..
  | .serve .. | .fail .. => .isTrue trivial

end Runs

end CraftClient.Client
