import CraftClient.Net.AsyncConn

namespace CraftClient.Net

open Bytes Runs Wire

variable {κ : Type} {s s' : AsyncConn κ} {k : κ} {pc : OpPc}

lemma AsyncMsg.head_bytes (m : AsyncMsg) : m.bytes.head? = some m.op.code := by
  simp [AsyncMsg.bytes, frameMessage, MsgHdr.encode]

lemma AsyncMsg.length_bytes_pos (m : AsyncMsg) : 0 < m.bytes.length := by
  simp [AsyncMsg.bytes, frameMessage]

def Greeted (s : AsyncConn κ) : Prop := ∃ f, s.fd = some f ∧ s.sent f ≠ []

def Ungreeted (s : AsyncConn κ) : Prop := ∃ f, s.fd = some f ∧ s.sent f = []

def OpOk (s : AsyncConn κ) (k : κ) : OpPc → Prop
  | .trip _ t =>
    if t.helo then
      s.connector = some k ∧ s.ready = false ∧ t.msg.op = .helo ∧ if t.pc = .waitReply then Greeted s else Ungreeted s
    else t.pc ≠ .waitReply → s.ready = true
  | .connecting _ => s.connector = some k ∧ s.ready = false ∧ Ungreeted s
  | _ => True

structure AsyncBase (s : AsyncConn κ) : Prop where
  ops : ∀ k, OpOk s k (s.ops k)
  nodup : s.sendWaiters.Nodup
  waits : ∀ k, k ∈ s.sendWaiters ↔ (s.ops k).waitsSend = true
  ready : s.ready = true → s.connector = none ∧ Greeted s
  opened : ∀ f, s.fd = some f → f < s.opened
  unopened : ∀ f, s.opened ≤ f → s.wire f = [] ∧ s.sent f = []
  old : ∀ f, s.fd ≠ some f → s.Whole f
  first : ∀ f, s.fd = some f → ∀ m ∈ (s.sent f).head?, m.op = .helo

structure SlotIdle (s : AsyncConn κ) : Prop where
  nobody : ∀ k, (s.ops k).sendPos = none
  whole : ∀ f, s.fd = some f → s.wire f = (s.sent f).flatMap AsyncMsg.bytes

structure SlotHeld (s : AsyncConn κ) (k : κ) (msg : AsyncMsg) (off : ℕ) : Prop where
  pos : (s.ops k).sendPos = some (msg, off, s.fd)
  others : ∀ j, j ≠ k → (s.ops j).sendPos = none
  lt : off < msg.bytes.length
  part : ∀ f, s.fd = some f → s.wire f = (s.sent f).flatMap AsyncMsg.bytes ++ msg.bytes.take off

def SlotOk (s : AsyncConn κ) : Prop :=
  s.sending = false ∧ s.sendWaiters = [] ∧ SlotIdle s ∨ s.sending = true ∧ ∃ k msg off, SlotHeld s k msg off

structure AsyncInv (s : AsyncConn κ) : Prop extends AsyncBase s where
  slot : SlotOk s

lemma SlotOk.congr (h : SlotOk s) (hf : s'.fd = s.fd) (hs : s'.sending = s.sending)
    (hl : s'.sendWaiters = s.sendWaiters) (ho : s'.ops = s.ops) (hw : s'.wire = s.wire) (he : s'.sent = s.sent) :
    SlotOk s' := by
  rcases h with ⟨hn, hnl, hidle⟩ | ⟨hh, k, msg, off, hk⟩
  · refine Or.inl ⟨hs.trans hn, hl.trans hnl, ?_, ?_⟩
    · rw [ho]
      exact hidle.nobody
    · rw [hf, hw, he]
      exact hidle.whole
  · refine Or.inr ⟨hs.trans hh, k, msg, off, ?_, ?_, hk.lt, ?_⟩
    · rw [ho, hf]
      exact hk.pos
    · rw [ho]
      exact hk.others
    · rw [hf, hw, he]
      exact hk.part

lemma SlotHeld.eq_of_sendPos {msg : AsyncMsg} {off : ℕ} {p : AsyncMsg × ℕ × Option ℕ} {j : κ}
    (h : SlotHeld s k msg off) (hj : (s.ops j).sendPos = some p) : j = k ∧ p = (msg, off, s.fd) := by
  by_cases hjk : j = k
  · rw [hjk, h.pos] at hj
    exact ⟨hjk, (Option.some.inj hj).symm⟩
  · rw [h.others j hjk] at hj
    cases hj

lemma AsyncInv.held_of_sendPos (h : AsyncInv s) {p : AsyncMsg × ℕ × Option ℕ} (hk : (s.ops k).sendPos = some p) :
    s.sending = true ∧ p.2.2 = s.fd ∧ SlotHeld s k p.1 p.2.1 := by
  rcases h.slot with ⟨-, -, hidle⟩ | ⟨hs, j, msg, off, hj⟩
  · rw [hidle.nobody k] at hk
    cases hk
  · obtain ⟨rfl, rfl⟩ := hj.eq_of_sendPos hk
    exact ⟨hs, rfl, hj⟩

lemma trip_of_sendPos {p : AsyncMsg × ℕ × Option ℕ} (h : pc.sendPos = some p) :
    ∃ c helo slot, pc = .trip c ⟨helo, p.1, slot, .sending p.2.1 p.2.2⟩ := by
  cases pc with
  | trip c t =>
    obtain ⟨helo, msg, slot, tpc⟩ := t
    cases tpc with
    | sending off fd =>
      cases h
      exact ⟨c, helo, slot, rfl⟩
    | _ => cases h
  | _ => cases h

lemma trip_of_waitsSend (h : pc.waitsSend = true) : ∃ c helo msg slot, pc = .trip c ⟨helo, msg, slot, .waitSend⟩ := by
  cases pc with
  | trip c t =>
    obtain ⟨helo, msg, slot, tpc⟩ := t
    cases tpc with
    | waitSend => exact ⟨c, helo, msg, slot, rfl⟩
    | _ => cases h
  | _ => cases h

lemma AsyncBase.helo_of_sendPos (h : AsyncBase s) {p : AsyncMsg × ℕ × Option ℕ} (hk : (s.ops k).sendPos = some p)
    {f : ℕ} (hf : s.fd = some f) (hs : s.sent f = []) : p.1.op = .helo := by
  obtain ⟨c, helo, slot, he⟩ := trip_of_sendPos hk
  have ho := h.ops k
  rw [he] at ho
  cases helo with
  | true => exact ho.2.2.1
  | false =>
    obtain ⟨-, f', hf', hne⟩ := h.ready (ho nofun)
    rw [hf] at hf'
    cases hf'
    exact absurd hs hne

lemma AsyncBase.whole (h : AsyncBase s) (hi : SlotIdle s) (f : ℕ) : s.Whole f := by
  by_cases hf : s.fd = some f
  · exact ⟨hi.whole f hf, h.first f hf⟩
  · exact h.old f hf

lemma AsyncInv.wellFramed (h : AsyncInv s) (f : ℕ) : s.WellFramed f := by
  rcases h.slot with ⟨-, -, hidle⟩ | ⟨-, k, msg, off, hk⟩
  · exact Or.inl (h.whole hidle f)
  · by_cases hf : s.fd = some f
    · refine Or.inr ⟨k, msg, off, hf ▸ hk.pos, hk.lt, hk.part f hf, ?_⟩
      cases hs : s.sent f with
      | nil =>
        intro m hm
        cases hm
        exact h.helo_of_sendPos hk.pos hf hs
      | cons m ms =>
        have hm := h.first f hf
        rw [hs] at hm
        exact hm
    · exact Or.inl (h.old f hf)

def Plain : OpPc → Prop
  | .trip _ t => t.helo = false
  | .connecting _ => False
  | _ => True

lemma OpOk.connector (h : OpOk s k pc) (hp : ¬ Plain pc) : s.connector = some k ∧ s.ready = false := by
  cases pc with
  | trip c t =>
    simp only [OpOk, if_pos (Bool.eq_true_of_not_eq_false hp)] at h
    exact ⟨h.1, h.2.1⟩
  | connecting c => exact ⟨h.1, h.2.1⟩
  | _ => exact absurd trivial hp

lemma OpOk.of_plain (h : OpOk s k pc) (hp : Plain pc) (hr : s.ready = true → s'.ready = true) : OpOk s' k pc := by
  cases pc with
  | trip c t =>
    have ht : t.helo = false := hp
    simp only [OpOk, ht] at h ⊢
    exact fun hw => hr (h hw)
  | connecting c => exact hp.elim
  | _ => trivial

lemma OpOk.move {c : AsyncCall} {helo : Bool} {msg : AsyncMsg} {slot slot' : ReplySlot} {p p' : TripPc}
    (h : OpOk s k (.trip c ⟨helo, msg, slot, p⟩)) (hp : p ≠ .waitReply) (hp' : p' ≠ .waitReply) :
    OpOk s k (.trip c ⟨helo, msg, slot', p'⟩) := by
  cases helo with
  | true =>
    simp only [OpOk, if_true, if_neg hp, if_neg hp'] at h ⊢
    exact h
  | false => exact fun _ => h hp

lemma AsyncBase.plain (h : AsyncBase s) (hk : ∀ k, s.connector = some k → Plain (s.ops k)) (j : κ) :
    Plain (s.ops j) := by
  by_contra hj
  exact hj (hk j ((h.ops j).connector hj).1)

lemma AsyncInv.idle (h : AsyncInv s) (hp : ∀ j, Plain (s.ops j)) (hr : s.ready = false) :
    s.sending = false ∧ s.sendWaiters = [] ∧ SlotIdle s := by
  rcases h.slot with hidle | ⟨-, k, msg, off, hk⟩
  · exact hidle
  · obtain ⟨c, helo, slot, he⟩ := trip_of_sendPos hk.pos
    have ho := h.ops k
    have hh := hp k
    rw [he] at ho hh
    obtain rfl : helo = false := hh
    exact absurd (ho nofun) (by simp [hr])

lemma AsyncInv.disconnected (h : AsyncInv s) (hp : ∀ j, Plain (s.ops j)) (ws : List κ) :
    AsyncInv { s with connector := none, connectWaiters := ws } := by
  exact ⟨⟨fun j => (h.ops j).of_plain (hp j) id, h.nodup, h.waits, fun hr => ⟨rfl, (h.ready hr).2⟩, h.opened,
    h.unopened, h.old, h.first⟩, h.slot.congr rfl rfl rfl rfl rfl rfl⟩

lemma AsyncInv.readied (h : AsyncInv s) (hp : ∀ j, Plain (s.ops j)) (hg : Greeted s) (ws : List κ) :
    AsyncInv { s with ready := true, connector := none, connectWaiters := ws } := by
  exact ⟨⟨fun j => (h.ops j).of_plain (hp j) fun _ => rfl, h.nodup, h.waits, fun _ => ⟨rfl, hg⟩, h.opened,
    h.unopened, h.old, h.first⟩, h.slot.congr rfl rfl rfl rfl rfl rfl⟩

lemma AsyncInv.dropFd (h : AsyncInv s) (hp : ∀ j, Plain (s.ops j)) (hr : s.ready = false) : AsyncInv s.dropFd := by
  obtain ⟨hs, hw, hidle⟩ := h.idle hp hr
  have hready : s.ready = true → s.dropFd.ready = true := fun ht => absurd ht (by simp [hr])
  exact ⟨⟨fun j => (h.ops j).of_plain (hp j) hready, h.nodup, h.waits, nofun, nofun, h.unopened,
    fun f _ => h.whole hidle f, nofun⟩, Or.inl ⟨hs, hw, hidle.nobody, nofun⟩⟩

lemma AsyncInv.plain_returned (h : AsyncInv s) (hc : s.connector = some k) (hk : s.ops k = .returned) (j : κ) :
    Plain (s.ops j) := by
  apply h.plain
  intro i hi
  obtain rfl : k = i := Option.some.inj (hc.symm.trans hi)
  rw [hk]
  trivial

variable [DecidableEq κ]

lemma forall_ops_setOp (p : κ → OpPc → Prop) :
    (∀ j, p j ((s.setOp k pc).ops j)) ↔ p k pc ∧ ∀ j ≠ k, p j (s.ops j) :=
  Function.forall_update_iff s.ops p

lemma AsyncBase.setOp (h : AsyncBase s) (ho : OpOk s k pc) (hw : k ∈ s.sendWaiters ↔ pc.waitsSend = true) :
    AsyncBase (s.setOp k pc) := by
  refine ⟨?_, h.nodup, ?_, h.ready, h.opened, h.unopened, h.old, h.first⟩
  · exact (forall_ops_setOp (OpOk (s.setOp k pc))).mpr ⟨ho, fun j _ => h.ops j⟩
  · exact (forall_ops_setOp fun j q => j ∈ s.sendWaiters ↔ q.waitsSend = true).mpr ⟨hw, fun j _ => h.waits j⟩

lemma sendPos_setOp (hp : pc.sendPos = none) (h : ∀ j ≠ k, (s.ops j).sendPos = none) (j : κ) :
    ((s.setOp k pc).ops j).sendPos = none :=
  (forall_ops_setOp fun _ q => q.sendPos = none).mpr ⟨hp, h⟩ j

lemma SlotIdle.setOp (h : SlotIdle s) (hp : pc.sendPos = none) : SlotIdle (s.setOp k pc) :=
  ⟨sendPos_setOp hp fun j _ => h.nobody j, h.whole⟩

lemma SlotHeld.setOp {msg : AsyncMsg} {off : ℕ} {j : κ} (h : SlotHeld s j msg off)
    (hp : pc.sendPos = (s.ops k).sendPos) : SlotHeld (s.setOp k pc) j msg off := by
  have hops := (forall_ops_setOp (s := s) fun i q => q.sendPos = (s.ops i).sendPos).mpr ⟨hp, fun _ _ => rfl⟩
  exact ⟨(hops j).trans h.pos, fun i hi => (hops i).trans (h.others i hi), h.lt, h.part⟩

lemma AsyncInv.setOp (h : AsyncInv s) (ho : OpOk s k pc) (hp : pc.sendPos = (s.ops k).sendPos)
    (hw : pc.waitsSend = (s.ops k).waitsSend) : AsyncInv (s.setOp k pc) := by
  refine ⟨h.toAsyncBase.setOp ho (by rw [hw]; exact h.waits k), ?_⟩
  rcases h.slot with ⟨hs, hl, hidle⟩ | ⟨hs, j, msg, off, hj⟩
  · exact Or.inl ⟨hs, hl, hidle.setOp (hp.trans (hidle.nobody k))⟩
  · exact Or.inr ⟨hs, j, msg, off, hj.setOp hp⟩

lemma AsyncBase.park (h : AsyncBase s) (ho : OpOk s k pc) (hk : (s.ops k).waitsSend = false)
    (hw : pc.waitsSend = true) : AsyncBase { s.setOp k pc with sendWaiters := s.sendWaiters ++ [k] } := by
  have hnot : k ∉ s.sendWaiters := by
    rw [h.waits k, hk]
    exact Bool.false_ne_true
  refine ⟨?_, ?_, ?_, h.ready, h.opened, h.unopened, h.old, h.first⟩
  · exact (forall_ops_setOp (OpOk (s.setOp k pc))).mpr ⟨ho, fun j _ => h.ops j⟩
  · exact h.nodup.append (List.nodup_singleton k) (List.disjoint_singleton.mpr hnot)
  · apply (forall_ops_setOp fun j q => j ∈ s.sendWaiters ++ [k] ↔ q.waitsSend = true).mpr
    exact ⟨by simp [hw], fun j hj => by simp [hj, h.waits j]⟩

lemma SlotIdle.held (h : SlotIdle s) {msg : AsyncMsg} (hp : pc.sendPos = some (msg, 0, s.fd)) :
    SlotHeld (s.setOp k pc) k msg 0 := by
  refine ⟨?_, fun j hj => ?_, msg.length_bytes_pos, fun f hf => ?_⟩
  · simpa only [AsyncConn.setOp, Function.update_self] using hp
  · simp only [AsyncConn.setOp, Function.update_of_ne hj]
    exact h.nobody j
  · rw [List.take_zero, List.append_nil]
    exact h.whole f hf

omit [DecidableEq κ] in
lemma AsyncInv.beside (h : AsyncInv s) (rid : UInt16) (pump : Bool) (ws : List κ) :
    AsyncInv { s with nextRid := rid, pump := pump, connectWaiters := ws } := by
  exact ⟨⟨h.ops, h.nodup, h.waits, h.ready, h.opened, h.unopened, h.old, h.first⟩,
    h.slot.congr rfl rfl rfl rfl rfl rfl⟩

lemma AsyncInv.beginTrip (h : AsyncInv s) {c : AsyncCall} {helo : Bool} (hp : (s.ops k).sendPos = none)
    (hw : (s.ops k).waitsSend = false)
    (ho : if helo then s.connector = some k ∧ s.ready = false ∧ Ungreeted s else s.ready = true) :
    AsyncInv (s.beginTrip k c helo) := by
  have hr : AsyncInv s.takeRid := h.beside _ s.pump s.connectWaiters
  generalize hmsg : (if helo then (⟨.helo, s.nextRid, c.helo, []⟩ : AsyncMsg)
    else ⟨c.op.op, s.nextRid, c.opHeader, c.body⟩) = msg
  have hop : helo = true → msg.op = .helo := by
    rintro rfl
    rw [← hmsg]
    rfl
  have hok : ∀ tpc, tpc ≠ TripPc.waitReply → OpOk s.takeRid k (.trip c ⟨helo, msg, .empty, tpc⟩) := by
    intro tpc ht
    cases helo with
    | true => exact ⟨ho.1, ho.2.1, hop rfl, by rw [if_neg ht]; exact ho.2.2⟩
    | false => exact fun _ => ho
  simp only [AsyncConn.beginTrip, hmsg]
  rcases h.slot with ⟨hs, hl, hidle⟩ | ⟨hs, j, m, off, hj⟩
  · rw [if_neg (by simp [hs])]
    have hbase : AsyncBase (s.takeRid.setOp k (.trip c ⟨helo, msg, .empty, .sending 0 s.fd⟩)) := by
      apply hr.toAsyncBase.setOp (hok (.sending 0 s.fd) nofun)
      exact iff_of_false (by simp [AsyncConn.takeRid, hl]) nofun
    have hidle' : SlotIdle s.takeRid := ⟨hidle.nobody, hidle.whole⟩
    have hheld : SlotHeld (s.takeRid.setOp k (.trip c ⟨helo, msg, .empty, .sending 0 s.fd⟩)) k msg 0 := hidle'.held rfl
    exact ⟨⟨hbase.ops, hbase.nodup, hbase.waits, hbase.ready, hbase.opened, hbase.unopened, hbase.old, hbase.first⟩,
      Or.inr ⟨rfl, k, msg, 0, hheld.pos, hheld.others, hheld.lt, hheld.part⟩⟩
  · rw [if_pos hs]
    have hj' : SlotHeld s.takeRid j m off := ⟨hj.pos, hj.others, hj.lt, hj.part⟩
    have hheld : SlotHeld (s.takeRid.setOp k (.trip c ⟨helo, msg, .empty, .waitSend⟩)) j m off := hj'.setOp hp.symm
    exact ⟨hr.toAsyncBase.park (hok .waitSend nofun) hw rfl,
      Or.inr ⟨hs, j, m, off, hheld.pos, hheld.others, hheld.lt, hheld.part⟩⟩

lemma AsyncBase.releaseSend (h : AsyncBase s) (hi : SlotIdle s) (hs : s.sending = true) : AsyncInv s.releaseSend := by
  rw [AsyncConn.releaseSend]
  split
  case h_1 hl =>
    exact ⟨⟨h.ops, h.nodup, h.waits, h.ready, h.opened, h.unopened, h.old, h.first⟩,
      Or.inl ⟨rfl, hl, hi.nobody, hi.whole⟩⟩
  case h_2 k rest hl =>
    have hnd := h.nodup
    rw [hl, List.nodup_cons] at hnd
    obtain ⟨c, helo, msg, slot, he⟩ := trip_of_waitsSend ((h.waits k).mp (by simp [hl]))
    have ho := h.ops k
    rw [he] at ho
    simp only [AsyncConn.resumeSend, he]
    have hheld : SlotHeld (s.setOp k (.trip c ⟨helo, msg, slot, .sending 0 s.fd⟩)) k msg 0 := hi.held rfl
    refine ⟨⟨?_, hnd.2, ?_, h.ready, h.opened, h.unopened, h.old, h.first⟩,
      Or.inr ⟨hs, k, msg, 0, hheld.pos, hheld.others, hheld.lt, hheld.part⟩⟩
    · exact (forall_ops_setOp (OpOk s)).mpr ⟨ho.move nofun nofun, fun j _ => h.ops j⟩
    · apply (forall_ops_setOp fun j q => j ∈ rest ↔ q.waitsSend = true).mpr
      refine ⟨iff_of_false hnd.1 nofun, fun j hj => ?_⟩
      rw [← h.waits j, hl]
      simp [hj]

structure Resumes (s s' : AsyncConn κ) : Prop where
  ready : s'.ready = s.ready
  returned : ∀ k, s.ops k = .returned → s'.ops k = .returned
  slot : s.ready = false → s'.sending = s.sending ∧ s'.sendWaiters = s.sendWaiters

lemma ready_beginTrip (s : AsyncConn κ) (k : κ) (c : AsyncCall) (helo : Bool) :
    (s.beginTrip k c helo).ready = s.ready := by
  simp only [AsyncConn.beginTrip]
  split <;> rfl

lemma ops_beginTrip (s : AsyncConn κ) {j : κ} (c : AsyncCall) (helo : Bool) (hj : j ≠ k) :
    (s.beginTrip k c helo).ops j = s.ops j := by
  simp only [AsyncConn.beginTrip]
  split <;> exact Function.update_of_ne hj _ _

lemma resumes_resumeConnect (s : AsyncConn κ) (j : κ) : Resumes s (s.resumeConnect j) := by
  rw [AsyncConn.resumeConnect]
  split
  case h_1 c hj =>
    have hne : ∀ k, s.ops k = .returned → k ≠ j := by
      rintro k hk rfl
      rw [hj] at hk
      cases hk
    split_ifs with hr
    · refine ⟨ready_beginTrip s j c false, fun k hk => ?_, fun h => absurd hr (by simp [h])⟩
      rw [ops_beginTrip s c false (hne k hk)]
      exact hk
    · refine ⟨rfl, fun k hk => ?_, fun _ => ⟨rfl, rfl⟩⟩
      simpa only [AsyncConn.setOp, Function.update_of_ne (hne k hk)] using hk
  case h_2 => exact ⟨rfl, fun _ hk => hk, fun _ => ⟨rfl, rfl⟩⟩

lemma resumes_foldl (ws : List κ) (s : AsyncConn κ) : Resumes s (ws.foldl AsyncConn.resumeConnect s) := by
  induction ws generalizing s with
  | nil => exact ⟨rfl, fun _ hk => hk, fun _ => ⟨rfl, rfl⟩⟩
  | cons j ws ih =>
    have h₁ := resumes_resumeConnect s j
    have h₂ := ih (s.resumeConnect j)
    refine ⟨h₂.ready.trans h₁.ready, fun k hk => h₂.returned k (h₁.returned k hk), fun hr => ?_⟩
    obtain ⟨ha, hb⟩ := h₂.slot (h₁.ready.trans hr)
    exact ⟨ha.trans (h₁.slot hr).1, hb.trans (h₁.slot hr).2⟩

lemma AsyncInv.resumeConnect (h : AsyncInv s) (j : κ) : AsyncInv (s.resumeConnect j) := by
  rw [AsyncConn.resumeConnect]
  split
  case h_1 c hj =>
    split_ifs with hr
    · exact h.beginTrip (by rw [hj]; rfl) (by rw [hj]; rfl) hr
    · exact h.setOp trivial (by rw [hj]; rfl) (by rw [hj]; rfl)
  case h_2 => exact h

lemma AsyncInv.foldl (h : AsyncInv s) (ws : List κ) : AsyncInv (ws.foldl AsyncConn.resumeConnect s) := by
  induction ws generalizing s with
  | nil => exact h
  | cons j ws ih => exact ih (h.resumeConnect j)

lemma AsyncInv.finish (h : AsyncInv s) (hp : ∀ j, Plain (s.ops j)) : AsyncInv s.finish :=
  (h.disconnected hp []).foldl s.connectWaiters

lemma AsyncInv.endTrip (h : AsyncInv s) {c : AsyncCall} {t : Trip} {slot : ReplySlot} (hk : s.ops k = .trip c t)
    (ht : t.pc = .waitReply) : AsyncInv (s.endTrip k c t.helo slot) := by
  obtain ⟨helo, msg, sl, tpc⟩ := t
  obtain rfl : tpc = .waitReply := ht
  have ho := h.ops k
  rw [hk] at ho
  have hret : AsyncInv (s.setOp k .returned) := h.setOp trivial (by rw [hk]; rfl) (by rw [hk]; rfl)
  cases helo with
  | false => exact hret
  | true =>
    obtain ⟨hc, hr, -, hg⟩ := ho
    rw [if_pos rfl] at hg
    have hp := hret.plain_returned hc (Function.update_self ..)
    cases slot with
    | replied granted =>
      cases granted with
      | true =>
        have hrd := hret.readied hp hg []
        have hres := resumes_foldl s.connectWaiters
          { s.setOp k .returned with ready := true, connector := none, connectWaiters := [] }
        have hops := hres.returned k (Function.update_self ..)
        refine (hrd.foldl s.connectWaiters).beginTrip ?_ ?_ hres.ready
        · rw [hops]
          rfl
        · rw [hops]
          rfl
      | false => exact (hret.dropFd hp hr).finish hp
    | empty => exact hret.finish hp
    | failed => exact hret.finish hp

end CraftClient.Net
