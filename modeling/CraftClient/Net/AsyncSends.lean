import CraftClient.Net.AsyncSlot

namespace CraftClient.Net

open Bytes Runs Wire

variable {κ : Type} {s s' : AsyncConn κ} {k : κ} {pc : OpPc}

section Steps

variable [DecidableEq κ]

section Sent

variable {c : AsyncCall} {helo : Bool} {msg : AsyncMsg} {slot : ReplySlot} {off n fd : ℕ}

lemma connector_releaseSend (s : AsyncConn κ) : s.releaseSend.connector = s.connector := by
  rw [AsyncConn.releaseSend]
  split
  · rfl
  · rw [AsyncConn.resumeSend]
    split <;> rfl

lemma ops_releaseSend (hk : k ∉ s.sendWaiters) : s.releaseSend.ops k = s.ops k := by
  rw [AsyncConn.releaseSend]
  split
  case h_1 => rfl
  case h_2 j rest hl =>
    have hkj : k ≠ j := by
      rintro rfl
      exact hk (by simp [hl])
    rw [AsyncConn.resumeSend]
    split
    · exact Function.update_of_ne hkj _ _
    · rfl

omit [DecidableEq κ] in
lemma AsyncBase.ne_of_unopened (h : AsyncBase s) (hf : s.fd = some fd) {f : ℕ} (hle : s.opened ≤ f) : f ≠ fd := by
  have hlt := h.opened fd hf
  omega

omit [DecidableEq κ] in
lemma AsyncBase.notMem_sendWaiters (h : AsyncBase s) {p : AsyncMsg × ℕ × Option ℕ} (hk : (s.ops k).sendPos = some p) :
    k ∉ s.sendWaiters := by
  obtain ⟨c, helo, slot, he⟩ := trip_of_sendPos hk
  rw [h.waits k, he]
  exact Bool.false_ne_true

omit [DecidableEq κ] in
lemma AsyncBase.write (h : AsyncBase s) (hf : s.fd = some fd) (w : List UInt8) :
    AsyncBase { s with wire := Function.update s.wire fd w } := by
  refine ⟨h.ops, h.nodup, h.waits, h.ready, h.opened, fun f hle => ?_, fun f hne => ?_, h.first⟩
  · simp only [Function.update_of_ne (h.ne_of_unopened hf hle)]
    exact h.unopened f hle
  · have hfd : f ≠ fd := by
      rintro rfl
      exact hne hf
    simp only [AsyncConn.Whole, Function.update_of_ne hfd]
    exact h.old f hne

lemma AsyncBase.complete (h : AsyncBase s) (hf : s.fd = some fd)
    (hk : s.ops k = .trip c ⟨helo, msg, slot, .sending off (some fd)⟩) :
    AsyncBase ({ s with sent := Function.update s.sent fd (s.sent fd ++ [msg]) }.setOp k
      (.trip c ⟨helo, msg, slot, .waitReply⟩)) := by
  have hg : Greeted { s with sent := Function.update s.sent fd (s.sent fd ++ [msg]) } := by
    refine ⟨fd, hf, ?_⟩
    simp only [Function.update_self]
    exact List.append_ne_nil_of_right_ne_nil _ (List.cons_ne_nil _ _)
  have ho := h.ops k
  rw [hk] at ho
  have hwait := h.waits k
  rw [hk] at hwait
  refine ⟨?_, h.nodup, ?_, fun hr => ⟨(h.ready hr).1, hg⟩, h.opened, fun f hle => ?_, fun f hne => ?_,
    fun f hf' m hm => ?_⟩
  · apply (forall_ops_setOp (OpOk _)).mpr
    refine ⟨?_, fun j hj => ?_⟩
    · cases helo with
      | true =>
        refine ⟨ho.1, ho.2.1, ho.2.2.1, ?_⟩
        rw [if_pos rfl]
        exact hg
      | false => exact fun hne => absurd rfl hne
    · by_cases hp : Plain (s.ops j)
      · exact (h.ops j).of_plain hp id
      · obtain ⟨hc, hr⟩ := (h.ops j).connector hp
        cases helo with
        | true => exact absurd (Option.some.inj (hc.symm.trans ho.1)) hj
        | false => exact absurd (ho nofun) (by simp [hr])
  · apply (forall_ops_setOp fun j q => j ∈ s.sendWaiters ↔ q.waitsSend = true).mpr
    exact ⟨hwait, fun j _ => h.waits j⟩
  · simp only [AsyncConn.setOp, Function.update_of_ne (h.ne_of_unopened hf hle)]
    exact h.unopened f hle
  · have hfd : f ≠ fd := by
      rintro rfl
      exact hne hf
    simp only [AsyncConn.Whole, AsyncConn.setOp, Function.update_of_ne hfd]
    exact h.old f hne
  · obtain rfl : fd = f := Option.some.inj (hf.symm.trans hf')
    simp only [AsyncConn.setOp, Function.update_self] at hm
    cases hs : s.sent fd with
    | nil =>
      rw [hs] at hm
      cases hm
      exact h.helo_of_sendPos (p := (msg, off, some fd)) (by rw [hk]; rfl) hf hs
    | cons m' ms =>
      rw [hs] at hm
      exact h.first fd hf m (by rw [hs]; exact hm)

lemma AsyncInv.sent (h : AsyncInv s) (hs : asyncStep s (.sent k n) = some s') : AsyncInv s' := by
  simp only [asyncStep] at hs
  split at hs
  case h_1 c helo msg slot off fd hk =>
    have hpos : (s.ops k).sendPos = some (msg, off, some fd) := by
      rw [hk]
      rfl
    obtain ⟨hsend, hfd, hheld⟩ := h.held_of_sendPos hpos
    have hw := h.toAsyncBase.write hfd.symm (s.wire fd ++ slice msg.bytes off n)
    have hnw := h.notMem_sendWaiters hpos
    have hwire : s.wire fd ++ slice msg.bytes off n =
        (s.sent fd).flatMap AsyncMsg.bytes ++ msg.bytes.take (off + n) := by
      rw [hheld.part fd hfd.symm, List.append_assoc, take_append_slice]
    split_ifs at hs with hn hlt
    · cases hs
      have ho := h.ops k
      rw [hk] at ho
      refine ⟨hw.setOp (ho.move nofun nofun) (iff_of_false hnw nofun), Or.inr ⟨hsend, k, msg, off + n, ?_, ?_, hlt, ?_⟩⟩
      · simp only [AsyncConn.setOp, Function.update_self]
        rfl
      · intro j hj
        simp only [AsyncConn.setOp, Function.update_of_ne hj]
        exact hheld.others j hj
      · intro f hf
        obtain rfl : fd = f := Option.some.inj (hfd.trans hf)
        simp only [AsyncConn.setOp, Function.update_self]
        exact hwire
    · cases hs
      have hb := hw.complete hfd.symm hk
      have hidle : SlotIdle ({ s with
          wire := Function.update s.wire fd (s.wire fd ++ slice msg.bytes off n)
          sent := Function.update s.sent fd (s.sent fd ++ [msg]) }.setOp k
            (.trip c ⟨helo, msg, slot, .waitReply⟩)) := by
        refine ⟨sendPos_setOp rfl hheld.others, fun f hf => ?_⟩
        obtain rfl : fd = f := Option.some.inj (hfd.trans hf)
        simp only [AsyncConn.setOp, Function.update_self]
        rw [hwire, List.take_of_length_le (not_lt.mp hlt), List.flatMap_append, List.flatMap_singleton]
      have hrel := hb.releaseSend hidle hsend
      simp only [AsyncConn.sendDone]
      split_ifs
      · exact hrel
      · refine hrel.endTrip (t := ⟨helo, msg, slot, .waitReply⟩) ?_ rfl
        refine (ops_releaseSend ?_).trans (Function.update_self ..)
        exact hnw
  case h_2 => cases hs

end Sent

lemma AsyncInv.start (h : AsyncInv s) {c : AsyncCall} (hs : asyncStep s (.start k c) = some s') : AsyncInv s' := by
  simp only [asyncStep] at hs
  split_ifs at hs with hk hr hc
  · cases hs
    exact h.beginTrip (by rw [hk]; rfl) (by rw [hk]; rfl) hr
  · cases hs
    have hset : AsyncInv (s.setOp k (.waitConnect c)) := h.setOp trivial (by rw [hk]; rfl) (by rw [hk]; rfl)
    exact hset.beside s.nextRid s.pump (s.connectWaiters ++ [k])
  · cases hs
    have hnone : ∀ j, s.connector = some j → Plain (s.ops j) := fun j hj => absurd (by simp [hj]) hc
    have hp := h.plain hnone
    obtain ⟨hsend, hl, hidle⟩ := h.idle hp (Bool.eq_false_of_not_eq_true hr)
    obtain ⟨hwire, hsent⟩ := h.unopened s.opened le_rfl
    refine ⟨⟨?_, h.nodup, ?_, fun hr' => absurd hr' hr, ?_, ?_, fun f _ => h.whole hidle f, ?_⟩,
      Or.inl ⟨hsend, hl, sendPos_setOp rfl fun j _ => hidle.nobody j, ?_⟩⟩
    · apply (forall_ops_setOp (OpOk _)).mpr
      refine ⟨?_, fun j _ => (h.ops j).of_plain (hp j) id⟩
      exact ⟨rfl, Bool.eq_false_of_not_eq_true hr, s.opened, rfl, hsent⟩
    · apply (forall_ops_setOp fun j q => j ∈ s.sendWaiters ↔ q.waitsSend = true).mpr
      exact ⟨by simp [hl, OpPc.waitsSend], fun j _ => h.waits j⟩
    · rintro f ⟨⟩
      exact Nat.lt_succ_self _
    · intro f hle
      exact h.unopened f (Nat.le_of_succ_le hle)
    · rintro f ⟨⟩ m hm
      simp [AsyncConn.setOp, hsent] at hm
    · rintro f ⟨⟩
      simp [AsyncConn.setOp, hwire, hsent]

lemma AsyncInv.connected (h : AsyncInv s) {ok : Bool} (hs : asyncStep s (.connected k ok) = some s') : AsyncInv s' := by
  simp only [asyncStep] at hs
  split at hs
  case h_1 c hk =>
    have ho := h.ops k
    rw [hk] at ho
    cases hs
    cases ok with
    | true =>
      have hpump := h.beside s.nextRid true s.connectWaiters
      exact hpump.beginTrip (by simp only [hk]; rfl) (by simp only [hk]; rfl) ho
    | false =>
      have hret : AsyncInv (s.setOp k .returned) := h.setOp trivial (by rw [hk]; rfl) (by rw [hk]; rfl)
      have hp := hret.plain_returned ho.1 (Function.update_self ..)
      exact (hret.dropFd hp ho.2.1).finish hp
  case h_2 => cases hs

lemma AsyncInv.sendError (h : AsyncInv s) (hok : FaultsBetween s (.sendError k))
    (hs : asyncStep s (.sendError k) = some s') : AsyncInv s' := by
  simp only [asyncStep] at hs
  split at hs
  case h_1 c helo msg slot off fd hk =>
    have hpos : (s.ops k).sendPos = some (msg, off, fd) := by
      rw [hk]
      rfl
    obtain ⟨hsend, -, hheld⟩ := h.held_of_sendPos hpos
    obtain rfl : off = 0 := hok _ hpos
    have hnw := h.notMem_sendWaiters hpos
    have hidle : SlotIdle (s.setOp k .returned) := by
      refine ⟨sendPos_setOp rfl hheld.others, fun f hf => ?_⟩
      have hpart := hheld.part f hf
      rwa [List.take_zero, List.append_nil] at hpart
    have hb : AsyncBase (s.setOp k .returned) := h.toAsyncBase.setOp trivial (iff_of_false hnw nofun)
    have hrel := hb.releaseSend hidle hsend
    cases hs
    cases helo with
    | false => exact hrel
    | true =>
      have ho := h.ops k
      rw [hk] at ho
      have hret : (s.setOp k .returned).releaseSend.ops k = .returned := by
        refine (ops_releaseSend ?_).trans (Function.update_self ..)
        exact hnw
      exact hrel.finish (hrel.plain_returned ((connector_releaseSend _).trans ho.1) hret)
  case h_2 => cases hs

lemma AsyncInv.reply (h : AsyncInv s) {granted : Bool} (hs : asyncStep s (.reply k granted) = some s') :
    AsyncInv s' := by
  simp only [asyncStep] at hs
  split at hs
  case h_1 c t hk =>
    split_ifs at hs with hp ht
    · cases hs
      exact h.endTrip hk ht
    · cases hs
      obtain ⟨helo, msg, slot, tpc⟩ := t
      have ho := h.ops k
      rw [hk] at ho
      apply h.setOp (ho.move ht ht)
      · rw [hk]
        cases tpc <;> rfl
      · rw [hk]
        cases tpc <;> rfl
  case h_2 => cases hs

section Fault

omit [DecidableEq κ]

lemma failOp_of_quiet (hp : pc.sendPos = none) (hw : pc.waitsSend = false) :
    AsyncConn.failOp pc = pc ∨ AsyncConn.failOp pc = .returned := by
  cases pc with
  | trip c t =>
    obtain ⟨helo, msg, slot, tpc⟩ := t
    cases tpc with
    | waitReply =>
      by_cases hs : slot = .empty
      · exact Or.inr (by simp [AsyncConn.failOp, hs])
      · exact Or.inl (by simp [AsyncConn.failOp, hs])
    | waitSend => cases hw
    | sending off fd => cases hp
  | _ => exact Or.inl rfl

lemma OpOk.down (h : OpOk s k pc) (hp : pc.sendPos = none) (hw : pc.waitsSend = false) (r : Bool)
    (hc : s'.connector = s.connector) (hr : s'.ready = (s.ready && r)) (hf : s'.fd = s.fd) (hs : s'.sent = s.sent) :
    OpOk s' k pc := by
  cases pc with
  | trip c t =>
    obtain ⟨helo, msg, slot, tpc⟩ := t
    cases tpc with
    | waitReply =>
      cases helo with
      | true =>
        obtain ⟨h₁, h₂, h₃, h₄⟩ := h
        refine ⟨hc.trans h₁, by rw [hr, h₂, Bool.false_and], h₃, ?_⟩
        rw [if_pos rfl] at h₄ ⊢
        rwa [Greeted, hf, hs]
      | false => exact fun hne => absurd rfl hne
    | waitSend => cases hw
    | sending off fd => cases hp
  | connecting c =>
    refine ⟨hc.trans h.1, by rw [hr, h.2.1, Bool.false_and], ?_⟩
    rw [Ungreeted, hf, hs]
    exact h.2.2
  | _ => trivial

lemma AsyncInv.failed (h : AsyncInv s) (hs : s.sending = false) (hl : s.sendWaiters = []) (r : Bool) :
    AsyncInv { s with ready := s.ready && r, pump := false, ops := fun k => AsyncConn.failOp (s.ops k) } := by
  have hw : ∀ k, (s.ops k).waitsSend = false := by
    intro k
    have hk := h.waits k
    rw [hl] at hk
    exact Bool.eq_false_of_not_eq_true fun ht => List.not_mem_nil (hk.mpr ht)
  rcases h.slot with ⟨-, -, hidle⟩ | ⟨hs', -⟩
  · refine ⟨⟨fun k => ?_, h.nodup, fun k => ?_, fun hr => ?_, h.opened, h.unopened, h.old, h.first⟩,
      Or.inl ⟨hs, hl, fun k => ?_, hidle.whole⟩⟩
    · rcases failOp_of_quiet (hidle.nobody k) (hw k) with he | he
      · simp only [he]
        exact (h.ops k).down (hidle.nobody k) (hw k) r rfl rfl rfl rfl
      · simp only [he]
        trivial
    · rcases failOp_of_quiet (hidle.nobody k) (hw k) with he | he
      · simp only [he]
        exact h.waits k
      · simp only [he, hl]
        exact iff_of_false List.not_mem_nil nofun
    · exact h.ready (Bool.and_eq_true_iff.mp hr).1
    · rcases failOp_of_quiet (hidle.nobody k) (hw k) with he | he
      · simp only [he]
        exact hidle.nobody k
      · simp only [he]
        rfl
  · exact absurd hs' (by simp [hs])

lemma failOp_of_awaitsHelo (h : AsyncConn.awaitsHelo pc = true) :
    AsyncConn.failOp pc = .returned ∧ ∃ c t, pc = .trip c t ∧ t.helo = true := by
  cases pc with
  | trip c t =>
    simp only [AsyncConn.awaitsHelo, Bool.and_eq_true, decide_eq_true_eq] at h
    refine ⟨?_, c, t, rfl, h.1.1⟩
    rw [AsyncConn.failOp, if_neg (not_not.mpr h.1.2), if_pos h.2]
  | _ => cases h

end Fault

lemma AsyncInv.recvFault (h : AsyncInv s) {starved : Bool} (hok : FaultsBetween s (.recvFault starved))
    (hs : asyncStep s (.recvFault starved) = some s') : AsyncInv s' := by
  obtain ⟨hsend, hl⟩ := hok
  simp only [asyncStep] at hs
  split_ifs at hs with hpump
  cases hs
  have hf := h.failed hsend hl starved
  -- Without senders the second half of `fail_all` finds nothing to do.
  have hlast : ∀ s₂ : AsyncConn κ, AsyncInv s₂ → s₂.sending = false → s₂.sendWaiters = [] →
      AsyncInv (s₂.sendWaiters.foldl AsyncConn.resumeSend { s₂ with sending := false, sendWaiters := [] }) := by
    rintro ⟨⟩ h₂ hs₂ hl₂
    cases hs₂
    cases hl₂
    exact h₂
  simp only [AsyncConn.failAll]
  split_ifs with ha
  · obtain ⟨k, hc, hk⟩ : ∃ k, s.connector = some k ∧ AsyncConn.awaitsHelo (s.ops k) = true := by
      cases hc : s.connector with
      | none => simp [hc] at ha
      | some k => exact ⟨k, rfl, by simpa [hc] using ha⟩
    obtain ⟨hret, c, t, htrip, hh⟩ := failOp_of_awaitsHelo hk
    have ho := h.ops k
    rw [htrip] at ho
    obtain ⟨-, hr⟩ := ho.connector fun hp => Bool.false_ne_true (hp.symm.trans hh)
    have hres := resumes_foldl s.connectWaiters
      { s with
        ready := s.ready && starved
        pump := false
        ops := fun k => AsyncConn.failOp (s.ops k)
        connector := none
        connectWaiters := [] }
    obtain ⟨hsend', hl'⟩ := hres.slot (by simp [hr])
    exact hlast _ (hf.finish (hf.plain_returned hc hret)) (hsend'.trans hsend) (hl'.trans hl)
  · exact hlast _ hf hsend hl

lemma AsyncInv.step (h : AsyncInv s) {a : AsyncAct κ} (hok : FaultsBetween s a) (hs : asyncStep s a = some s') :
    AsyncInv s' := by
  cases a with
  | start k c => exact h.start hs
  | connected k ok => exact h.connected hs
  | sent k n => exact h.sent hs
  | sendError k => exact h.sendError hok hs
  | reply k granted => exact h.reply hs
  | recvFault starved => exact h.recvFault hok hs

end Steps

lemma asyncInv_new : AsyncInv (.new : AsyncConn κ) :=
  ⟨⟨fun _ => trivial, List.nodup_nil, fun _ => iff_of_false List.not_mem_nil nofun, nofun, nofun, fun _ _ => ⟨rfl, rfl⟩,
    fun _ _ => ⟨rfl, nofun⟩, nofun⟩, Or.inl ⟨rfl, rfl, fun _ => rfl, nofun⟩⟩

theorem sends_never_interleave [DecidableEq κ] {s : AsyncConn κ} (h : Reach asyncStep FaultsBetween .new s) :
    (∀ j k, s.Holds j → s.Holds k → j = k) ∧ ∀ f, s.WellFramed f := by
  have hi : AsyncInv s := h.invariant asyncInv_new fun _ _ _ hi hok hs => hi.step hok hs
  refine ⟨fun j k hj hk => ?_, hi.wellFramed⟩
  obtain ⟨p, hp⟩ := Option.isSome_iff_exists.mp hj
  obtain ⟨q, hq⟩ := Option.isSome_iff_exists.mp hk
  exact ((hi.held_of_sendPos hq).2.2.eq_of_sendPos hp).1

section Runs

def keepAliveCall : AsyncCall := ⟨List.replicate 32 0, .keepalive, List.replicate 16 0, []⟩

theorem sends_never_interleave_reconnect :
    ∃ s : AsyncConn (Fin 4), Reach asyncStep FaultsBetween .new s ∧
      ((s.wire 0).length = 88 ∧ (s.wire 1).length = 45 ∧ s.Holds 3) ∧
      (∀ j k, s.Holds j → s.Holds k → j = k) ∧ ∀ f, s.WellFramed f := by
  obtain ⟨s, hr, hp⟩ := Reach.exists_of_exec asyncStep FaultsBetween (.new : AsyncConn (Fin 4))
    [.start 0 keepAliveCall, .start 1 keepAliveCall, .connected 0 true, .sent 0 10, .sent 0 30, .reply 0 true,
      .start 2 keepAliveCall, .sent 1 8, .sent 1 16, .sent 0 24, .sendError 2, .reply 1 true, .recvFault false,
      .start 3 keepAliveCall, .connected 3 true, .sent 3 40, .reply 3 true, .sent 3 5]
    (fun s => (s.wire 0).length = 88 ∧ (s.wire 1).length = 45 ∧ s.Holds 3) (by decide +kernel)
  exact ⟨s, hr, of_decide_eq_true hp, sends_never_interleave hr⟩

/-- A fault in the middle of a message: the sender goes on with the rest on the socket of the next connection, whose
HELO takes the slot beside it. And a send that fails in the middle of one: the next message follows what was taken. -/
theorem tail_before_helo :
    (∃ s : AsyncConn (Fin 2), Reach asyncStep free .new s ∧
      (s.Holds 0 ∧ s.Holds 1 ∧ s.wire 1 = [0, 0] ∧ s.sent 1 = []) ∧ ¬ s.WellFramed 1) ∧
    ∃ s : AsyncConn (Fin 2), Reach asyncStep free .new s ∧
      ((s.wire 0).length = 72 ∧ (s.sent 0).length = 2 ∧ ((s.sent 0).flatMap AsyncMsg.bytes).length = 64) ∧
        ¬ s.WellFramed 0 := by
  constructor
  · obtain ⟨s, hr, hp⟩ := Reach.exists_of_exec asyncStep free (.new : AsyncConn (Fin 2))
      [.start 0 keepAliveCall, .connected 0 true, .sent 0 40, .reply 0 true, .sent 0 8, .recvFault false,
        .start 1 keepAliveCall, .sent 0 4, .connected 1 true, .sent 0 2]
      (fun s => s.Holds 0 ∧ s.Holds 1 ∧ s.wire 1 = [0, 0] ∧ s.sent 1 = []) (by decide +kernel)
    have hs := of_decide_eq_true hp
    have hwire := hs.2.2.1
    have hsent := hs.2.2.2
    refine ⟨s, hr, hs, ?_⟩
    rintro (hw | ⟨k, msg, off, -, -, hw, hhelo⟩)
    · rw [AsyncConn.Whole, hwire, hsent] at hw
      cases hw.1
    · rw [hsent] at hw hhelo
      rw [hwire, List.flatMap_nil, List.nil_append] at hw
      have hh := congrArg List.head? hw
      rw [List.head?_take, msg.head_bytes, hhelo msg rfl] at hh
      split_ifs at hh
      · cases hh
      · exact absurd hh (by decide)
  · obtain ⟨s, hr, hp⟩ := Reach.exists_of_exec asyncStep free (.new : AsyncConn (Fin 2))
      [.start 0 keepAliveCall, .connected 0 true, .sent 0 40, .reply 0 true, .start 1 keepAliveCall, .sent 0 8,
        .sendError 0, .sent 1 24]
      (fun s => (∀ k, ¬ s.Holds k) ∧
        (s.wire 0).length = 72 ∧ (s.sent 0).length = 2 ∧ ((s.sent 0).flatMap AsyncMsg.bytes).length = 64)
      (by decide +kernel)
    obtain ⟨hnone, hs⟩ := of_decide_eq_true hp
    refine ⟨s, hr, hs, ?_⟩
    rintro (hw | ⟨k, msg, off, hk, -⟩)
    · have hlen := congrArg List.length hw.1
      omega
    · exact hnone k (Option.isSome_iff_exists.mpr ⟨_, hk⟩)

end Runs

end CraftClient.Net
