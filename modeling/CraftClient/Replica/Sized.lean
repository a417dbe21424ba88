import CraftClient.Replica.Replay

namespace CraftClient.Replica

structure Sized (r : MemReplica) : Prop where
  slots : ∀ d s bs, r.journal.find d = some s → s.bytes = some bs → s.len.toNat * r.pageSize.toNat ≤ bs.length
  cells : ∀ x c bs, r.index x = some c → c.buf = some bs → c.off + r.pageSize.toNat ≤ bs.length

namespace Sized

variable {r : MemReplica} {s : MemJournalSlot}

lemma applyNext (h : Sized r) (hs : r.journal.find (r.commitLsn + 1) = some s) : Sized (r.applyNext s) := by
  have hp := (MemReplica.applies_applyNext r s).pageSize
  have hj := (MemReplica.applies_applyNext r s).journal
  refine ⟨by rw [hp, hj]; exact h.slots, ?_⟩
  rw [hp]
  intro x c bs hc hb
  simp only [MemReplica.applyNext] at hc
  split_ifs at hc
  · exact h.cells x c bs hc hb
  · -- the cell is as it was, or one of those that the slot has set
    simp only [MemReplica.applySlot] at hc
    by_cases hx : ∃ i ∈ List.range s.len.toNat, s.lba + UInt64.ofNat i = x
    · obtain ⟨i, hi, hix⟩ := hx
      obtain ⟨j, hj, -, hval⟩ := MemReplica.foldl_update_of_mem (fun i : ℕ => s.lba + UInt64.ofNat i)
        (fun i => some (r.cellOf (r.commitLsn + 1) s i)) _ r.index hi hix
      rw [hval] at hc
      cases hc
      simp only [MemReplica.cellOf] at hb ⊢
      split_ifs at hb
      have hle := h.slots _ s bs hs hb
      have hmul : (j + 1) * r.pageSize.toNat ≤ s.len.toNat * r.pageSize.toNat :=
        Nat.mul_le_mul_right _ (List.mem_range.mp hj)
      rw [Nat.succ_mul] at hmul
      omega
    · rw [MemReplica.foldl_update_of_ne _ _ _ _ fun i hi hix => hx ⟨i, hi, hix⟩] at hc
      exact h.cells x c bs hc hb

lemma applyUpTo (h : Sized r) (target : ℤ) : Sized (r.applyUpTo target) :=
  MemReplica.applyUpTo_induction h target fun _ _ h hs => h.applyNext hs

lemma perform {a : ReplicaAct} (h : Sized r)
    (ha : ∀ d s bs, a = .install d s → s.bytes = some bs → s.len.toNat * r.pageSize.toNat ≤ bs.length) :
    Sized (r.perform a) := by
  have happend : ∀ d s, (∀ bs, s.bytes = some bs → s.len.toNat * r.pageSize.toNat ≤ bs.length) →
      Sized (r.append d s) := by
    intro d s hs
    refine ⟨fun e s' bs hs' hb => ?_, h.cells⟩
    rw [MemReplica.find_append] at hs'
    split_ifs at hs'
    · cases hs'
      exact hs bs hb
    · exact h.slots e s' bs hs' hb
  cases a with
  | write hdr d addr len bytes =>
    by_cases hacc : hdr.term = r.term ∧ r.Accepts d ⟨addr, len, bytes⟩
    · rw [MemReplica.perform, MemReplica.after_doWrite hacc]
      apply Sized.applyUpTo
      apply happend
      intro bs hb
      have hlen : bs.length = len.toNat := hacc.2.2.1 bs hb
      have hle := MemReplica.blocksOf_mul_le r len
      rw [hlen]
      exact hle
    · rw [MemReplica.perform, MemReplica.after_doWrite_of_not hacc]
      exact h
  | read hdr H addr len destSize =>
    rw [MemReplica.perform]
    rcases r.after_doRead hdr H addr len destSize with hr | hr
    · rw [hr]
      exact h
    · rw [hr]
      exact h.applyUpTo _
  | keepAlive hdr =>
    rw [MemReplica.perform, MemReplica.after_doKeepAlive]
    split_ifs
    · exact h.applyUpTo _
    · exact h
  | resolveLocal hdr upto =>
    rw [MemReplica.perform]
    cases hr : r.doResolveLocal hdr upto with
    | error e => exact h
    | ok out =>
      obtain ⟨-, -, hj⟩ := doResolveLocal_ok hr
      simp only [MemReplica.doResolveLocal] at hr
      split_ifs at hr
      cases hr
      simp only [MemReplica.applyUpTo_journal] at hj
      apply Sized.applyUpTo
      refine ⟨fun e s bs hs hb => ?_, h.cells⟩
      rw [hj] at hs
      split_ifs at hs
      · cases hs
        cases hb
      · exact h.slots e s bs hs hb
  | install d s =>
    rw [MemReplica.perform, MemReplica.coldInstallSlot]
    split_ifs
    · exact h
    · exact happend d s fun bs => ha d s bs rfl
  | markEmpty d => exact happend d _ (by rintro bs ⟨⟩)

lemma length_pageAt {bytes : Option (List UInt8)} {off : ℕ} {bs : List UInt8} (hb : bytes = some bs)
    (h : off + r.pageSize.toNat ≤ bs.length) : (r.pageAt bytes off).length = r.pageSize.toNat := by
  rw [MemReplica.pageAt, hb, Option.getD_some, List.length_take, List.length_drop]
  omega

lemma length_dataPage {d : ℤ} {bytes : Option (List UInt8)} {off : ℕ}
    (h : ∀ bs, bytes = some bs → off + r.pageSize.toNat ≤ bs.length) :
    (r.dataPage d bytes off).page.length = r.pageSize.toNat := by
  cases hb : bytes with
  | none =>
    rw [MemReplica.dataPage_none]
    exact List.length_replicate
  | some bs =>
    have hlen := length_pageAt (r := r) hb (h bs hb)
    rw [← hb, MemReplica.dataPage_page hlen, hlen]

lemma length_readBlock (h : Sized r) (H : ℤ) (x : UInt64) : (r.readBlock H x).page.length = r.pageSize.toNat := by
  rw [MemReplica.readBlock]
  split
  case h_1 d s htop =>
    obtain ⟨hs, -, -, -, hx, -⟩ := MemReplica.highestSlotLe_some htop
    split_ifs
    · exact List.length_replicate
    · apply length_dataPage
      intro bs hb
      -- a slot that covers a block does not wrap below it
      simp only [MemJournalSlot.covers, Bool.and_eq_true, decide_eq_true_eq, UInt64.le_iff_toNat_le,
        UInt64.lt_iff_toNat_lt, UInt64.toNat_add, UInt32.toNat_toUInt64] at hx
      have hlt : (x - s.lba).toNat < s.len.toNat := by
        rw [UInt64.toNat_sub_of_le _ _ (UInt64.le_iff_toNat_le.mpr hx.1)]
        have hmod := Nat.mod_le (s.lba.toNat + s.len.toNat) (2 ^ 64)
        omega
      have hle := h.slots d s bs hs hb
      have hmul : ((x - s.lba).toNat + 1) * r.pageSize.toNat ≤ s.len.toNat * r.pageSize.toNat :=
        Nat.mul_le_mul_right _ hlt
      rw [Nat.succ_mul] at hmul
      omega
  case h_2 =>
    rw [MemReplica.indexBlock]
    cases hc : r.index x with
    | none => exact List.length_replicate
    | some c => exact length_dataPage fun bs hb => h.cells x c bs hc hb

end Sized

end CraftClient.Replica
