import CraftClient.Client.ReadServe
import CraftClient.Client.Surfacing

namespace CraftClient.Client

open Replica Router Cluster Tracker Runs

variable {ι κ ρ : Type} {n : ℕ} [NeZero n] {L : ℤ} {P : UInt32} {base : UInt64 → Block}
  {s s' : Session ι κ ρ n} {k : κ}

section Steps

variable [DecidableEq ι] [Fintype ι] [DecidableEq κ] [Fintype κ] [DecidableEq ρ]

lemma SessInv.startRead {addr len : UInt64} (hL : -1 ≤ L) (h : SessInv L P base s)
    (hend : addr.toNat + len.toNat < 2 ^ 64) (hlen : len.toNat / s.trk.lbaSize.toNat < 2 ^ 32)
    (hs : sessStep s (.startRead k addr len) = some s') : SessInv L P base s' := by
  obtain ⟨hpre, -, plan, hp, rfl⟩ := sessStep_startRead hs
  have hok : (PlanAct.planRead k addr len).Ok s.plan := Session.rangeOk_of_precheck hpre hend
  have hplan := h.plan.step hL hok hp
  have ht := h.plan.evolves hok hp
  simp only [planSysStep] at hp
  split_ifs at hp
  cases hp
  rw [h.lbaSize, UInt32.toNat_toUInt64] at hlen
  refine h.setPlan (by rfl) hplan ht h.once fun hg j c rd hj hrd => ?_
  simp only [Function.update_apply] at hj hrd
  split_ifs at hj hrd with hjk
  · cases hj
    cases hrd
    exact ⟨hlen, trivial⟩
  · obtain ⟨hlen', hpc⟩ := h.reads j c rd hj hrd
    exact ⟨hlen', hpc.mono hg (h.acks hrd)⟩

lemma SessInv.planRead (hL : -1 ≤ L) (h : SessInv L P base s) (hs : sessStep s (.planRead k) = some s') :
    SessInv L P base s' := by
  obtain ⟨plan, hp, rfl⟩ := Session.tracks_some hs
  obtain ⟨hone, hcall⟩ := h.once.planRead hp
  have hok : (PlanAct.read k : PlanAct ι κ).Ok s.plan := trivial
  refine h.setPlan (by rfl) (h.plan.step hL hok hp) (h.plan.evolves hok hp) hone fun hg => ?_
  exact h.reads_mono hg rfl hcall

lemma SessInv.read {start : Fin n} (hL : -1 ≤ L) (h : SessInv L P base s)
    (hok : ∀ c a, s.reads k = some c → c.pc = .test a → ∀ seg ∈ a.segs, FoldsBelow s.route seg)
    (hs : sessStep s (.read k start) = some s') : SessInv L P base s' := by
  obtain ⟨c, rd, route, pc, hc, hrd, hr, rfl⟩ := sessStep_read hs
  obtain ⟨h', hpc⟩ := h.readStep hL hrd (h.reads k c rd hc hrd).2 (fun a => hok c a hc) hr
  refine h'.setRead hc fun rd' hrd' => ?_
  obtain rfl : rd = rd' := Option.some.inj (hrd.symm.trans hrd')
  exact hpc

lemma SessInv.serve {j : ℕ} (h : SessInv L P base s) (hs : sessStep s (.serve k j) = some s') :
    SessInv L P base s' := by
  obtain ⟨c, rd, a, replies, seg, hc, hrd, hpc, hj, hseg, hs⟩ := sessStep_serve hs
  obtain ⟨hlen, hok⟩ := h.reads k c rd hc hrd
  rw [hpc] at hok
  have hcall := (h.plan.reads k rd hrd).call
  rw [planReqs_of_planned hok.1.planned] at hseg
  rcases hs with ⟨res, q, hr, rfl⟩ | ⟨e, rfl⟩
  · obtain ⟨-, hterm, rfl, rfl⟩ := MemReplica.doRead_ok hr
    obtain ⟨h', hg⟩ := h.applyUpTo (m := a.target) hok.1.hdr.2
    refine h'.setRead hc fun rd' hrd' => ?_
    obtain rfl : rd = rd' := Option.some.inj (hrd.symm.trans hrd')
    obtain ⟨ha, hserves, hreplies⟩ := PcOk.mono hg hcall.acks_isSome hok
    have hm : (s.setMember a.target ((s.net.members a.target).applyUpTo a.hdr.commitLsn)).net.members a.target =
        (s.net.members a.target).applyUpTo a.hdr.commitLsn := Function.update_self ..
    have hterm' : ((s.net.members a.target).applyUpTo a.hdr.commitLsn).term = s.term := by
      rw [MemReplica.applyUpTo_term, ← hterm]
      exact hok.1.hdr.1
    refine ⟨ha, hserves, hreplies.set fun seg' res hseg' hres => ?_⟩
    obtain rfl : seg = seg' := Option.some.inj (hseg.symm.trans hseg')
    cases hres
    have hblocks := h'.blocksOk (h'.plan.reads k rd hrd).call ha.planned hlen hserves (by rwa [hm])
      (List.mem_of_getElem? hseg)
    rw [hm] at hblocks
    exact ⟨⟨by rwa [hm], by rw [hm]; exact le_rfl⟩, hblocks⟩
  · refine h.setRead hc fun rd' hrd' => ?_
    obtain rfl : rd = rd' := Option.some.inj (hrd.symm.trans hrd')
    exact ⟨hok.1, hok.2.1, hok.2.2.set nofun⟩

lemma SessInv.fail {j : ℕ} {timedOut : Bool} (h : SessInv L P base s)
    (hs : sessStep s (.fail k j timedOut) = some s') : SessInv L P base s' := by
  obtain ⟨c, a, replies, e, hc, hpc, rfl⟩ := sessStep_fail hs
  refine h.setRead hc fun rd hrd => ?_
  have hok := (h.reads k c rd hc hrd).2
  rw [hpc] at hok
  exact ⟨hok.1, hok.2.1, hok.2.2.set nofun⟩

/-- No round is asked for; ranges end below the address space and have fewer than `2 ^ 32` blocks; and when a
read tests a member, no acked slot above its plan has been folded onto its range. -/
def SessAct.StableOk (s : Session ι κ ρ n) : SessAct ι κ ρ n → Prop
  | .reserve _ addr len => addr.toNat + len.toNat < 2 ^ 64
  | .issue d _ => ∀ rs ∈ s.route.overlay.data d, rs.len.toNat / s.trk.lbaSize.toNat < 2 ^ 32
  | .startRead _ addr len => addr.toNat + len.toNat < 2 ^ 64 ∧ len.toNat / s.trk.lbaSize.toNat < 2 ^ 32
  | .read k _ =>
    match s.reads k with
    | some ⟨_, .test a⟩ => ∀ seg ∈ a.segs, FoldsBelow s.route seg
    | _ => True
  | .request _ _ _ => False
  | _ => True

lemma SessInv.step {a : SessAct ι κ ρ n} (hL : -1 ≤ L) (h : SessInv L P base s) (hok : a.StableOk s)
    (hs : sessStep s a = some s') : SessInv L P base s' := by
  cases a with
  | reserve i addr len => exact h.reserve hL hok hs
  | go i weak => exact h.go hL hs
  | create d => exact h.create hs
  | issue d bytes => exact h.issue (fun rs hrs => hok rs hrs) hs
  | leg d m a => exact h.leg hs
  | deliver d m => exact h.deliver hs
  | record d m => exact h.record hs
  | sync d m => exact h.sync hs
  | resolve i d => exact h.resolve hL hs
  | fold F =>
    simp only [sessStep] at hs
    split_ifs at hs
    cases hs
    exact h.foldTo F
  | keepAlive m C => exact h.keepAlive hs
  | report m C =>
    simp only [sessStep] at hs
    split_ifs at hs with hC
    cases hs
    exact h.advanceSynced (h.beats m C hC)
  | setUp m up | setLeader m =>
    cases hs
    exact h.setNet rfl rfl h.beats
  | request => exact hok.elim
  | round j =>
    obtain ⟨net, hgo, -⟩ := Option.map_eq_some_iff.mp hs
    simp [MemTransport.goRound, h.idle j] at hgo
  | drop j => simp [sessStep, h.idle j] at hs
  | retire i j => simp [sessStep, h.idle j] at hs
  | startRead k addr len => exact h.startRead hL hok.1 hok.2 hs
  | planRead k => exact h.planRead hL hs
  | read k start =>
    apply h.read hL _ hs
    rintro ⟨E, pc⟩ a hc rfl
    simpa only [SessAct.StableOk, hc] using hok
  | serve k j => exact h.serve hs
  | fail k j timedOut => exact h.fail hs

end Steps

/-- A cluster on which a client has logged in at `L`: its members have the content `base` there, or lag behind
it, and no slot above it. A member of another term takes no part. -/
structure Prepared (L : ℤ) (P : UInt32) (base : UInt64 → Block) (net : MemTransport ρ n) : Prop where
  idle : ∀ j, net.rounds j = .idle
  commit : ∀ m, -1 ≤ (net.members m).commitLsn
  member : ∀ m, (net.members m).term = net.term → (net.members m).pageSize = P ∧
    (net.members m).commitLsn ≤ L ∧ (∀ d, L < d → (net.members m).journal.find d = none) ∧
    (((net.members m).applyUpTo L).commitLsn = L → ∀ x, ((net.members m).applyUpTo L).indexBlock x = base x)

lemma sessInv_login {maxInflight : UInt32} {net : MemTransport ρ n} {clientToken : UInt64}
    (h : Prepared L P base net) :
    SessInv L P base (.login maxInflight L P net clientToken : Session ι κ ρ n) where
  plan := planInv_start maxInflight P
  lbaSize := rfl
  idle := h.idle
  route := routeInv_reset L _
  slots d rs hrs := by cases hrs
  unissued d rs hrs := by cases hrs
  once := onceInv_start maxInflight P L
  synced := h.commit
  beats m C hC := by cases hC
  members m hm := by
    obtain ⟨hP, hle, hnone, hcontent⟩ := h.member m hm
    refine ⟨hP, ⟨fun d s hd hs => ?_, fun d hd hle' => ?_, fun _ => hcontent, fun hlt => ?_⟩, fun d sl hd hs => ?_,
      hle⟩
    · cases (hnone d hd).symm.trans hs
    · exact absurd (hle'.trans hle) hd.not_ge
    · exact absurd hle hlt.not_ge
    · cases (hnone d hd).symm.trans hs
  writes d w hw := by cases hw
  reads k c rd hc := by cases hc

variable [DecidableEq ι] [Fintype ι] [DecidableEq κ] [Fintype κ] [DecidableEq ρ]

/-- In every run whose steps all meet the guard, a read that has returned has, for every block of its range, the
bytes of a resolved write that no write acknowledged before the read outruns, or else the content at the login. -/
theorem read_stable {maxInflight : UInt32} {net : MemTransport ρ n} {clientToken : UInt64} (hL : -1 ≤ L)
    (hnet : Prepared L P base net)
    (h : Reach sessStep (fun s a => a.StableOk s) (.login maxInflight L P net clientToken) s)
    {c : ClientRead n} {rd : PlanRead} {blocks : List Block} (hc : s.reads k = some c)
    (hrd : s.plan.reads k = some rd) (hb : c.pc.returned = some blocks) :
    List.Forall₂ (BlockOk s P base rd.toPlanCall)
      (List.range' (rd.addr.toNat / P.toNat) (rd.len.toNat / P.toNat)) blocks := by
  have hi : SessInv L P base s := h.invariant (P := SessInv L P base) (sessInv_login hnet)
    fun _ _ _ hi hok hs => hi.step hL hok hs
  have hpc := (hi.reads k c rd hc hrd).2
  cases hr : c.pc with
  | done res =>
    rw [hr] at hpc hb
    cases res with
    | ok => exact Option.some.inj hb ▸ hpc
    | error => cases hb
  | _ =>
    rw [hr] at hb
    cases hb

section Runs

instance (r : RouteMap n) (seg : ReadSegment) : Decidable (FoldsBelow r seg) :=
  decidable_of_iff (∀ d ∈ MemReplica.dlsns seg.H r.folded, (r.overlay.data d).all fun rs =>
      !(decide (quorum n ≤ rs.holders.card) && Router.overlaps seg.addr seg.len rs.addr rs.len)) (by
    simp only [FoldsBelow, mem_dlsns, Option.all_eq_true, Bool.not_eq_true', Bool.and_eq_false_iff,
      decide_eq_false_iff_not, RouteSlot.Quorate]
    constructor
    · intro h d rs h₁ h₂ hrs hq
      exact (h d ⟨h₁, h₂⟩ rs hrs).resolve_left fun hn => hn hq
    · intro h d hd rs hrs
      exact or_iff_not_imp_left.mpr fun hq => h d rs hd.1 hd.2 hrs (not_not.mp hq))

instance (s : Session ι κ ρ n) : ∀ a : SessAct ι κ ρ n, Decidable (a.StableOk s)
  | .reserve .. => inferInstanceAs (Decidable (_ < _))
  | .issue d _ => inferInstanceAs (Decidable (∀ rs ∈ s.route.overlay.data d, _))
  | .startRead .. => inferInstanceAs (Decidable (_ ∧ _))
  | .read .. => by
    dsimp only [SessAct.StableOk]
    split <;> infer_instance
  | .request .. => .isFalse id
  | .go .. | .create .. | .leg .. | .deliver .. | .record .. | .sync .. | .resolve .. | .fold .. | .keepAlive ..
  | .report .. | .setUp .. | .setLeader .. | .round .. | .drop .. | .retire .. | .planRead .. | .serve ..
  | .fail .. => .isTrue trivial

lemma prepared_trio : Prepared (-1) 1 (fun _ => ⟨none, [0], true⟩) trio.net where
  idle _ := rfl
  commit _ := le_rfl
  member _ _ := ⟨rfl, le_rfl, fun _ _ => rfl, fun _ _ => rfl⟩

def returns (blocks : List Block) (acks : Finset ℤ) (s : Trio) : Bool :=
  ((s.reads 0).any fun c : ClientRead 3 => decide (c.pc.returned = some blocks)) &&
    (s.plan.reads 0).any fun rd : PlanRead => decide (rd.addr = 0 ∧ rd.len = 1 ∧ rd.startAcks = acks)

lemma exists_of_returns {blocks : List Block} {acks : Finset ℤ} {s : Trio}
    (h : returns blocks acks s = true) : ∃ c rd, s.reads 0 = some c ∧ s.plan.reads 0 = some rd ∧
      c.pc.returned = some blocks ∧ rd.addr = 0 ∧ rd.len = 1 ∧ rd.startAcks = acks := by
  obtain ⟨hc, hrd⟩ := Bool.and_eq_true_iff.mp h
  obtain ⟨c, hc, hb⟩ := (Option.any_eq_true _ _).mp hc
  obtain ⟨rd, hrd, hcall⟩ := (Option.any_eq_true _ _).mp hrd
  exact ⟨c, rd, hc, hrd, of_decide_eq_true hb, of_decide_eq_true hcall⟩

theorem read_stable_missedByZero : ∃ s : Trio, Reach sessStep (fun s a => a.StableOk s) trio s ∧
    ∃ c rd, s.reads 0 = some c ∧ s.plan.reads 0 = some rd ∧ c.pc.returned = some [⟨some 0, [9], false⟩] ∧
      rd.startAcks = {0} ∧ List.Forall₂ (BlockOk s 1 (fun _ => ⟨none, [0], true⟩) rd.toPlanCall)
        (List.range' (rd.addr.toNat / 1) (rd.len.toNat / 1)) [⟨some 0, [9], false⟩] := by
  obtain ⟨s, hs, hp⟩ := Reach.exists_of_exec sessStep (fun s a => a.StableOk s) trio
    (List.flatten [writeByte 0 9 [1, 2] [] [0], resolveByte 0 11,
      [.startRead 0 0 1, .planRead 0, .planRead 0], List.replicate 6 (.read 0 0),
      [.serve 0 0, .read 0 0, .read 0 0]])
    (returns [⟨some 0, [9], false⟩] {0}) (by decide +kernel)
  obtain ⟨c, rd, hc, hrd, hb, -, -, hacks⟩ := exists_of_returns hp
  exact ⟨s, hs, c, rd, hc, hrd, hb, hacks, read_stable (by decide) prepared_trio hs hc hrd hb⟩

/-- The write of slot 0 is acknowledged before the read; member 0 misses it. Between the plan and the fold a
write of slot 1 that member 0 has is acknowledged, and the fold clears the miss: member 0 serves the plan, whose
horizon is 0, from a journal without slot 0. -/
theorem read_loses_acknowledged_write : ∃ s : Trio, Reach sessStep free trio s ∧
    ∃ c rd, s.reads 0 = some c ∧ s.plan.reads 0 = some rd ∧ c.pc.returned = some [⟨none, [0], true⟩] ∧
      rd.addr = 0 ∧ rd.len = 1 ∧ rd.startAcks = {0} ∧ s.trk.CoversAt 0 0 := by
  obtain ⟨s, hs, hp⟩ := Reach.exists_of_exec sessStep free trio
    (List.flatten [writeByte 0 9 [1, 2] [] [0], resolveByte 0 11, [.startRead 0 0 1, .planRead 0, .planRead 0],
      writeByte 1 8 [0, 1] [] [2], resolveByte 1 11, List.replicate 5 (.read 0 0),
      [.serve 0 0, .read 0 0, .read 0 0]])
    (fun s => returns [⟨none, [0], true⟩] {0} s && decide (s.trk.tracker.data 0 = some ⟨0, 1, .acked⟩))
    (by decide +kernel)
  obtain ⟨hp, hslot⟩ := Bool.and_eq_true_iff.mp hp
  obtain ⟨c, rd, hc, hrd, hb, ha, hl, hacks⟩ := exists_of_returns hp
  exact ⟨s, hs, c, rd, hc, hrd, hb, ha, hl, hacks, _, of_decide_eq_true hslot, by decide⟩

end Runs

end CraftClient.Client
