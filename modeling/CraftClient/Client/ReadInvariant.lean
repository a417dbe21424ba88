import CraftClient.Client.SessionSteps
import CraftClient.Replica.Content
import CraftClient.Router.Eligible
import CraftClient.Tracker.Once

namespace CraftClient.Client

open Replica Router Cluster Tracker

variable {ι κ ρ : Type} {n : ℕ} {L : ℤ} {P : UInt32} {base : UInt64 → Block} {q : WriteReq} {x : UInt64}

section Payload

def WriteReq.page (P : UInt32) (q : WriteReq) (b : ℕ) : List UInt8 :=
  match q.bytes with
  | none => List.replicate P.toNat 0
  | some bs => (bs.drop (b * P.toNat - q.addr.toNat)).take P.toNat

lemma rangeOk_blocks {addr len : UInt64} (h : RangeOk P.toUInt64 addr len) : 0 < P.toNat ∧
    addr.toNat = (addr / P.toUInt64).toNat * P.toNat ∧ len.toNat = len.toNat / P.toNat * P.toNat := by
  have hp := h.lbaSize_pos
  have ha := h.addr_dvd
  have hl := h.len_dvd
  rw [UInt32.toNat_toUInt64] at hp ha hl
  rw [UInt64.toNat_div, UInt32.toNat_toUInt64]
  exact ⟨hp, (Nat.div_mul_cancel ha).symm, (Nat.div_mul_cancel hl).symm⟩

lemma WriteReq.toNat_slot_len (hb : q.len.toNat / P.toNat < 2 ^ 32) :
    (q.slot P).len.toNat = q.len.toNat / P.toNat := by
  have hlen : (q.slot P).len.toNat = (q.len / P.toUInt64).toNat % 2 ^ 32 := UInt64.toNat_toUInt32 _
  rw [hlen, UInt64.toNat_div, UInt32.toNat_toUInt64, Nat.mod_eq_of_lt hb]

lemma WriteReq.slot_end_lt (h : RangeOk P.toUInt64 q.addr q.len) (hb : q.len.toNat / P.toNat < 2 ^ 32) :
    (q.slot P).lba.toNat + (q.slot P).len.toNat < 2 ^ 64 := by
  obtain ⟨hp, ha, hl⟩ := rangeOk_blocks h
  rw [WriteReq.toNat_slot_len hb]
  change (q.addr / P.toUInt64).toNat + _ < _
  have he := h.end_lt
  have h₁ := Nat.le_mul_of_pos_right (q.addr / P.toUInt64).toNat hp
  have h₂ := Nat.le_mul_of_pos_right (q.len.toNat / P.toNat) hp
  omega

lemma WriteReq.slot_fits (h : RangeOk P.toUInt64 q.addr q.len) (hb : q.len.toNat / P.toNat < 2 ^ 32)
    (hlen : ∀ bs, q.bytes = some bs → bs.length = q.len.toNat) : (q.slot P).Fits P.toNat where
  data := rfl
  end_lt := q.slot_end_lt h hb
  zeros := rfl
  length bs hbs := by
    rw [WriteReq.toNat_slot_len hb, ← (rangeOk_blocks h).2.2]
    exact hlen bs hbs

lemma WriteReq.slot_covers (h : RangeOk P.toUInt64 q.addr q.len) (hb : q.len.toNat / P.toNat < 2 ^ 32) :
    (q.slot P).covers x = true ↔
      q.addr.toNat ≤ x.toNat * P.toNat ∧ x.toNat * P.toNat < q.addr.toNat + q.len.toNat := by
  obtain ⟨hp, ha, hl⟩ := rangeOk_blocks h
  rw [MemJournalSlot.covers_iff (q.slot_end_lt h hb), WriteReq.toNat_slot_len hb]
  change (q.addr / P.toUInt64).toNat ≤ _ ∧ _ < (q.addr / P.toUInt64).toNat + _ ↔ _
  rw [ha, hl, ← Nat.add_mul, Nat.mul_div_cancel _ hp]
  exact and_congr (Nat.mul_le_mul_right_iff hp).symm (Nat.mul_lt_mul_right hp).symm

lemma WriteReq.slotBlock_page {r : MemReplica} {d : ℤ} (hP : r.pageSize = P)
    (h : RangeOk P.toUInt64 q.addr q.len) (hf : (q.slot P).Fits P.toNat) (hx : (q.slot P).covers x = true) :
    (r.slotBlock x d (q.slot P)).page = q.page P x.toNat := by
  obtain ⟨-, ha, -⟩ := rangeOk_blocks h
  rw [MemReplica.slotBlock_page (by rwa [hP]) hx, hP, WriteReq.page]
  change (match q.bytes with | none => _ | some bs => _) = _
  cases q.bytes with
  | none => rfl
  | some bs =>
    change ((bs.drop ((x.toNat - (q.addr / P.toUInt64).toNat) * P.toNat)).take P.toNat) = _
    rw [Nat.sub_mul, ← ha]

end Payload

section Facts

variable (s : Session ι κ ρ n)

def Session.holds (m : Fin n) (d : ℤ) : Prop := ((s.net.members m).journal.find d).isSome

def Session.Quorate (d : ℤ) : Prop := ∃ rs, s.route.overlay.data d = some rs ∧ rs.Quorate

def Session.Reported (m : Fin n) (C : ℤ) : Prop :=
  (s.net.members m).term = s.term ∧ C ≤ (s.net.members m).commitLsn

structure LegOk (d : ℤ) (m : Fin n) (rs : RouteSlot n) (l : WriteLeg) : Prop where
  served : ∀ p, l.leg.request = .served (.ok p) → s.holds m d ∧ s.Reported m p.commitLsn
  seen : ∀ p, l.leg.seen = some (.ok p) → l.leg.request = .served (.ok p)
  waiting : l.stage = .waiting → m ∉ rs.completed
  recorded : l.stage ≠ .waiting → l.leg.seen ≠ none ∧ ∀ p, l.leg.seen = some (.ok p) → m ∈ rs.holders

structure WriteOk (P : UInt32) (d : ℤ) (w : WriteCall n) (rs : RouteSlot n) : Prop where
  slot : s.route.overlay.data d = some rs
  addr : rs.addr = w.req.addr
  len : rs.len = w.req.len
  dlsn : w.req.dlsn = d
  term : w.req.hdr.term = s.term
  commit : w.req.hdr.commitLsn ≤ s.trk.frontier
  blocks : w.req.len.toNat / P.toNat < 2 ^ 32
  legs : ∀ m, LegOk s d m rs (w.legs m)

structure MemberOk (L : ℤ) (P : UInt32) (base : UInt64 → Block) (r : MemReplica) : Prop where
  pageSize : r.pageSize = P
  replays : Replays L base r
  journal : ∀ d sl, L < d → r.journal.find d = some sl → ∃ w, s.writes d = some w ∧ sl = w.req.slot P
  commit_le : r.commitLsn ≤ s.trk.frontier

def Session.Tops (m : Fin n) (y : ℕ) (H d : ℤ) : Prop :=
  ∃ e, d ≤ e ∧ e ≤ H ∧ s.trk.CoversAt e y ∧ s.holds m e

def Session.Serves (L : ℤ) (call : PlanCall) (segs : List ReadSegment) (m : Fin n) : Prop :=
  L ≤ (s.net.members m).commitLsn ∧
  ∀ seg ∈ segs, ∀ y, seg.addr.toNat ≤ y → y < seg.addr.toNat + seg.len.toNat →
    ∀ d, L < d → d ≤ seg.H → s.trk.CoversAt d y →
      (s.trk.Resolved d ∨ s.Tops m y seg.H (d + 1)) ∧ (d ∈ call.startAcks → s.Tops m y seg.H d)

/-- What a read may return of block `b`: the bytes of a resolved write to it that no write acknowledged before
the read outruns, or the content at the login if there is no such write. -/
def BlockOk (P : UInt32) (base : UInt64 → Block) (call : PlanCall) (b : ℕ) (B : Block) : Prop :=
  (∃ d w, s.writes d = some w ∧ s.trk.CoversAt d (b * P.toNat) ∧ s.trk.Resolved d ∧
    (∀ a ∈ call.startAcks, s.trk.CoversAt a (b * P.toNat) → a ≤ d) ∧
    B.src = some d ∧ B.page = w.req.page P b) ∨
  (∀ a ∈ call.startAcks, ¬ s.trk.CoversAt a (b * P.toNat)) ∧ B = base (.ofNat b)

def BlocksOk (P : UInt32) (base : UInt64 → Block) (call : PlanCall) (addr len : UInt64) (blocks : List Block) :
    Prop :=
  List.Forall₂ (BlockOk s P base call) (List.range' (addr.toNat / P.toNat) (len.toNat / P.toNat)) blocks

def HdrOk (hdr : ClientHdr) : Prop := hdr.term = s.term ∧ hdr.commitLsn ≤ s.trk.frontier

structure AttemptOk (L : ℤ) (call : PlanCall) (a : Attempt n) : Prop where
  planned : Planned L s.trk call a.segs
  hdr : HdrOk s a.hdr
  horizon : ∀ seg ∈ a.segs, seg.H ≤ a.Hmax

structure RepliesOk (P : UInt32) (base : UInt64 → Block) (call : PlanCall) (m : Fin n) (segs : List ReadSegment)
    (replies : List ReadReply) : Prop where
  length : replies.length = segs.length
  reply : ∀ (j : ℕ) (seg : ReadSegment) (res : ReadResult), segs[j]? = some seg →
    replies[j]? = some (some (.ok res)) →
    s.Reported m res.lsns.commitLsn ∧ BlocksOk s P base call seg.addr seg.len res.blocks

def PcOk [NeZero n] (L : ℤ) (P : UInt32) (base : UInt64 → Block) (call : PlanCall) : ReadPc n → Prop
  | .plan => True
  | .makeHdr segs => Planned L s.trk call segs
  | .frontier segs hdr | .fold segs hdr _ => Planned L s.trk call segs ∧ HdrOk s hdr
  | .test a => AttemptOk s L call a
  | .await a replies => AttemptOk s L call a ∧ s.Serves L call a.segs a.target ∧
      RepliesOk s P base call a.target a.segs replies
  | .sync idx results => s.Reported idx (commitOf results) ∧
      BlocksOk s P base call call.addr call.len (results.flatMap ReadResult.blocks)
  | .done (.ok blocks) => BlocksOk s P base call call.addr call.len blocks
  | .done (.error _) => True

end Facts

structure SessInv [NeZero n] (L : ℤ) (P : UInt32) (base : UInt64 → Block) (s : Session ι κ ρ n) : Prop where
  plan : PlanInv L s.plan
  lbaSize : s.trk.lbaSize = P.toUInt64
  idle : ∀ j, s.net.rounds j = .idle
  route : RouteInv L s.holds s.route
  slots : ∀ d rs, s.route.overlay.data d = some rs →
    ∃ sl, s.trk.tracker.data d = some sl ∧ sl.addr = rs.addr ∧ sl.len = rs.len
  unissued : ∀ d rs, s.route.overlay.data d = some rs → s.writes d = none → rs.completed = ∅
  once : OnceInv s.Quorate s.resolved s.plan.sys
  synced : ∀ m, s.route.synced m ≤ (s.net.members m).commitLsn
  beats : ∀ m, ∀ C ∈ s.beats m, s.Reported m C
  members : ∀ m, (s.net.members m).term = s.term → MemberOk s L P base (s.net.members m)
  writes : ∀ d w, s.writes d = some w → ∃ rs, WriteOk s P d w rs
  reads : ∀ k c rd, s.reads k = some c → s.plan.reads k = some rd →
    rd.len.toNat / P.toNat < 2 ^ 32 ∧ PcOk s L P base rd.toPlanCall c.pc

section Growth

structure Grows (s s' : Session ι κ ρ n) : Prop where
  trk : Evolves s.trk s'.trk
  term : s'.term = s.term
  memberTerm : ∀ m, (s'.net.members m).term = (s.net.members m).term
  commit : ∀ m, (s.net.members m).commitLsn ≤ (s'.net.members m).commitLsn
  holds : ∀ m d, s.holds m d → s'.holds m d
  writes : ∀ d w, s.writes d = some w → ∃ w', s'.writes d = some w' ∧ w'.req = w.req

variable {s s' : Session ι κ ρ n} {d C : ℤ} {m : Fin n} {call : PlanCall} {segs : List ReadSegment} {y : ℕ}
  {H : ℤ}

lemma Grows.of_tracker (ht : Evolves s.trk s'.trk) (hn : s'.net = s.net) (hw : s'.writes = s.writes)
    (hterm : s'.term = s.term) : Grows s s' where
  trk := ht
  term := hterm
  memberTerm m := by rw [hn]
  commit m := by rw [hn]
  holds m d h := by rwa [Session.holds, hn]
  writes d w h := ⟨w, by rw [hw, h], rfl⟩

lemma Session.Reported.mono (hg : Grows s s') (h : s.Reported m C) : s'.Reported m C :=
  ⟨by rw [hg.memberTerm, hg.term, h.1], h.2.trans (hg.commit m)⟩

lemma LegOk.mono {rs : RouteSlot n} {l : WriteLeg} (hg : Grows s s') (h : LegOk s d m rs l) :
    LegOk s' d m rs l :=
  { h with served := fun p hp => ⟨hg.holds m d (h.served p hp).1, (h.served p hp).2.mono hg⟩ }

lemma WriteOk.mono {w : WriteCall n} {rs : RouteSlot n} (hg : Grows s s') (h : WriteOk s P d w rs)
    (hr : s'.route.overlay.data d = some rs) : WriteOk s' P d w rs :=
  { h with
    slot := hr
    term := h.term.trans hg.term.symm
    commit := h.commit.trans hg.trk.frontier
    legs := fun m => (h.legs m).mono hg }

lemma MemberOk.mono {r : MemReplica} (hg : Grows s s') (h : MemberOk s L P base r) : MemberOk s' L P base r :=
  { h with
    journal := fun d sl hL hsl => by
      obtain ⟨w, hw, rfl⟩ := h.journal d sl hL hsl
      obtain ⟨w', hw', hreq⟩ := hg.writes d w hw
      exact ⟨w', hw', by rw [hreq]⟩
    commit_le := h.commit_le.trans hg.trk.frontier }

lemma Session.Tops.mono (hg : Grows s s') (h : s.Tops m y H d) : s'.Tops m y H d := by
  obtain ⟨e, hde, heH, hx, hh⟩ := h
  exact ⟨e, hde, heH, hg.trk.coversAt hx, hg.holds m e hh⟩

lemma Session.Serves.mono (hg : Grows s s') (hc : ∀ seg ∈ segs, Created L s.trk seg.H)
    (h : s.Serves L call segs m) : s'.Serves L call segs m := by
  refine ⟨h.1.trans (hg.commit m), fun seg hseg y h₁ h₂ d hL hd hx => ?_⟩
  obtain ⟨hres, hack⟩ := h.2 seg hseg y h₁ h₂ d hL hd (hg.trk.coversAt_of (hc seg hseg d hL hd) hx)
  exact ⟨hres.imp hg.trk.resolved (·.mono hg), fun ha => (hack ha).mono hg⟩

variable {b : ℕ} {B : Block} {blocks : List Block} {addr len : UInt64}

lemma BlockOk.mono (hg : Grows s s') (hacks : ∀ a ∈ call.startAcks, (s.trk.tracker.data a).isSome)
    (h : BlockOk s P base call b B) : BlockOk s' P base call b B := by
  rcases h with ⟨d, w, hw, hx, hr, ha, hsrc, hpage⟩ | ⟨ha, hB⟩
  · obtain ⟨w', hw', hreq⟩ := hg.writes d w hw
    refine Or.inl ⟨d, w', hw', hg.trk.coversAt hx, hg.trk.resolved hr, fun a hm hc => ?_, hsrc, hreq ▸ hpage⟩
    exact ha a hm (hg.trk.coversAt_of (hacks a hm) hc)
  · exact Or.inr ⟨fun a hm hc => ha a hm (hg.trk.coversAt_of (hacks a hm) hc), hB⟩

lemma BlocksOk.mono (hg : Grows s s') (hacks : ∀ a ∈ call.startAcks, (s.trk.tracker.data a).isSome)
    (h : BlocksOk s P base call addr len blocks) : BlocksOk s' P base call addr len blocks :=
  h.imp fun _ _ hb => hb.mono hg hacks

lemma HdrOk.mono {hdr : ClientHdr} (hg : Grows s s') (h : HdrOk s hdr) : HdrOk s' hdr :=
  ⟨h.1.trans hg.term.symm, h.2.trans hg.trk.frontier⟩

lemma AttemptOk.mono {a : Attempt n} (hg : Grows s s')
    (hacks : ∀ a ∈ call.startAcks, (s.trk.tracker.data a).isSome) (h : AttemptOk s L call a) :
    AttemptOk s' L call a :=
  ⟨h.planned.mono hg.trk hacks, h.hdr.mono hg, h.horizon⟩

lemma PcOk.mono [NeZero n] {pc : ReadPc n} (hg : Grows s s')
    (hacks : ∀ a ∈ call.startAcks, (s.trk.tracker.data a).isSome) (h : PcOk s L P base call pc) :
    PcOk s' L P base call pc := by
  cases pc with
  | plan => trivial
  | makeHdr segs => exact Planned.mono hg.trk hacks h
  | frontier | fold => exact ⟨h.1.mono hg.trk hacks, h.2.mono hg⟩
  | test a => exact AttemptOk.mono hg hacks h
  | await a replies =>
    obtain ⟨ha, hs, hr⟩ := h
    refine ⟨ha.mono hg hacks, hs.mono hg ha.planned.created, hr.length, fun j seg res hseg hres => ?_⟩
    exact ⟨(hr.reply j seg res hseg hres).1.mono hg, (hr.reply j seg res hseg hres).2.mono hg hacks⟩
  | sync idx results => exact ⟨h.1.mono hg, h.2.mono hg hacks⟩
  | done res =>
    cases res with
    | ok blocks => exact BlocksOk.mono hg hacks h
    | error => trivial

end Growth

end CraftClient.Client
