import CraftClient.Client.Login
import CraftClient.Replica.Content
import CraftClient.Replica.Layout
import CraftClient.Tracker.Plan

namespace CraftClient.Client

open Replica Router

variable {n : ℕ} {c : ClientState n} {addr len addr' len' : UInt64}

def bytesOf (addr len : UInt64) : Set ℕ := Set.Ico addr.toNat (addr.toNat + len.toNat)

def EndsInside (addr len : UInt64) : Prop := addr.toNat + len.toNat < 2 ^ 64

lemma EndsInside.toNat_end (h : EndsInside addr len) : (addr + len).toNat = addr.toNat + len.toNat := by
  rw [UInt64.toNat_add, Nat.mod_eq_of_lt h]

lemma ClientState.precheck_none (h : c.precheck addr len = none) : c.term ≠ 0 ∧ c.lbaSize ≠ 0 ∧ 0 < len.toNat := by
  simp only [precheck] at h
  split_ifs at h with hterm hok
  exact ⟨hterm, hok.1, Nat.pos_of_ne_zero fun h0 => hok.2.1 (UInt64.toNat_inj.mp h0)⟩

lemma crosses_iff (hlen : 0 < len.toNat) (hlen' : 0 < len'.toNat) (hend : EndsInside addr len)
    (hend' : EndsInside addr' len') :
    addr < addr' + len' ∧ addr' < addr + len ↔ (bytesOf addr len ∩ bytesOf addr' len').Nonempty := by
  rw [bytesOf, bytesOf, Set.Ico_inter_Ico, Set.nonempty_Ico, UInt64.lt_iff_toNat_lt, UInt64.lt_iff_toNat_lt,
    hend.toNat_end, hend'.toNat_end, max_lt_iff, lt_min_iff, lt_min_iff]
  omega

structure KeptExactly (c : ClientState n) (r' : MemReplica) (d : ℤ) (addr len : UInt64) (slot : MemJournalSlot) :
    Prop where
  tracker : ∀ addr' len', c.precheck addr' len' = none → EndsInside addr' len' →
    (Tracker.overlaps addr len addr' len' = true ↔ (bytesOf addr len ∩ bytesOf addr' len').Nonempty)
  router : ∀ addr' len', c.precheck addr' len' = none → EndsInside addr' len' →
    (Router.overlaps addr len addr' len' = true ↔ (bytesOf addr len ∩ bytesOf addr' len').Nonempty)
  interval : Set.Ico (ivlLo addr) (ivlHi addr len) = bytesOf addr len
  journaled : r'.journal.find d = some slot
  pages : ∀ x, slot.covers x = true ↔
    addr.toNat / r'.pageSize.toNat ≤ x.toNat ∧
      x.toNat < addr.toNat / r'.pageSize.toNat + len.toNat / r'.pageSize.toNat
  -- until it is applied a read at its horizon finds it, and applying it sets every page
  read : r'.commitLsn < d → ∀ x, slot.covers x = true → r'.readBlock d x = r'.slotBlock x d slot
  applied : ∀ q : MemReplica, ∀ x, (q.applySlot d slot).indexBlock x =
    if slot.covers x then q.slotBlock x d slot else q.indexBlock x

variable {r r' : MemReplica} {hdr : ClientHdr} {d : ℤ} {bytes : Option (List UInt8)} {l : LsnPair}

lemma toNat_writeSlot (r : MemReplica) (hdr : ClientHdr) (addr len : UInt64) (bytes : Option (List UInt8)) :
    (r.writeSlot hdr addr len bytes).lba.toNat = addr.toNat / r.pageSize.toNat ∧
      (r.writeSlot hdr addr len bytes).len.toNat = len.toNat / r.pageSize.toNat % 2 ^ 32 := by
  have hlba := UInt64.toNat_div addr r.blockSize
  rw [MemReplica.toNat_blockSize] at hlba
  exact ⟨hlba, r.blocksOf_eq len⟩

lemma EndsInside.pages_lt (hend : EndsInside addr len) (r : MemReplica) :
    addr.toNat / r.pageSize.toNat + len.toNat / r.pageSize.toNat < 2 ^ 64 := by
  have hend : addr.toNat + len.toNat < 2 ^ 64 := hend
  have ha := Nat.div_le_self addr.toNat r.pageSize.toNat
  have hl := Nat.div_le_self len.toNat r.pageSize.toNat
  omega

lemma covers_writeSlot (hend : EndsInside addr len) (x : UInt64) :
    (r.writeSlot hdr addr len bytes).covers x = true ↔ addr.toNat / r.pageSize.toNat ≤ x.toNat ∧
      x.toNat < addr.toNat / r.pageSize.toNat + len.toNat / r.pageSize.toNat % 2 ^ 32 := by
  have hlt := hend.pages_lt r
  have hmod := Nat.mod_le (len.toNat / r.pageSize.toNat) (2 ^ 32)
  obtain ⟨hlba, hlen⟩ := toNat_writeSlot r hdr addr len bytes
  rw [MemJournalSlot.covers_iff (by omega), hlba, hlen]

lemma endsInside_of_interval (hlen : 0 < len.toNat)
    (h : Set.Ico (ivlLo addr) (ivlHi addr len) = bytesOf addr len) : EndsInside addr len := by
  have hlast : addr.toNat + len.toNat - 1 ∈ bytesOf addr len := ⟨by omega, by omega⟩
  rw [← h] at hlast
  have hlt : addr.toNat + len.toNat - 1 < (addr + len).toNat := hlast.2
  have hend := (addr + len).toNat_lt
  rw [EndsInside]
  omega

lemma KeptExactly.pages_lt (h : KeptExactly c r' d addr len (r.writeSlot hdr addr len bytes))
    (hsize : r'.pageSize = r.pageSize) (hend : EndsInside addr len) : len.toNat / r.pageSize.toNat < 2 ^ 32 := by
  by_contra hge
  have hlt := hend.pages_lt r
  have hmod := Nat.mod_lt (len.toNat / r.pageSize.toNat) (show 0 < 2 ^ 32 by decide)
  -- the first page behind those that the slot counts
  let x := UInt64.ofNat (addr.toNat / r.pageSize.toNat + len.toNat / r.pageSize.toNat % 2 ^ 32)
  have hx : x.toNat = addr.toNat / r.pageSize.toNat + len.toNat / r.pageSize.toNat % 2 ^ 32 :=
    UInt64.toNat_ofNat_of_lt' (show _ < 2 ^ 64 by omega)
  have hcovers := (h.pages x).mpr (by rw [hsize, hx]; omega)
  rw [covers_writeSlot hend, hx] at hcovers
  omega

theorem accepted_range_kept_exactly_iff (c : ClientState n) (hpre : c.precheck addr len = none)
    (hw : r.doWrite hdr d addr len bytes = .ok (l, r')) :
    KeptExactly c r' d addr len (r.writeSlot hdr addr len bytes) ↔
      EndsInside addr len ∧ len.toNat / r.pageSize.toNat < 2 ^ 32 := by
  obtain ⟨-, -, -, rfl, -⟩ := MemReplica.doWrite_ok hw
  have hlen := (ClientState.precheck_none hpre).2.2
  have happ := MemReplica.applies_applyUpTo (r.append d (r.writeSlot hdr addr len bytes)) hdr.commitLsn
  constructor
  · intro h
    have hend := endsInside_of_interval hlen h.interval
    exact ⟨hend, h.pages_lt happ.pageSize hend⟩
  · rintro ⟨hend, hpages⟩
    have hfind : ((r.append d (r.writeSlot hdr addr len bytes)).applyUpTo hdr.commitLsn).journal.find d =
        some (r.writeSlot hdr addr len bytes) := by
      rw [happ.journal, MemReplica.find_append, if_pos rfl]
    have hfit : (r.writeSlot hdr addr len bytes).lba.toNat + (r.writeSlot hdr addr len bytes).len.toNat < 2 ^ 64 := by
      rw [(toNat_writeSlot r hdr addr len bytes).1, (toNat_writeSlot r hdr addr len bytes).2, Nat.mod_eq_of_lt hpages]
      exact hend.pages_lt r
    refine ⟨fun a' l' hpre' hend' => ?_, fun a' l' hpre' hend' => ?_, ?_, hfind, fun x => ?_, fun hlt x hx => ?_,
      fun q x => MemReplica.applySlot_indexBlock hfit x⟩
    · rw [Tracker.overlaps, Bool.and_eq_true, decide_eq_true_eq, decide_eq_true_eq]
      exact crosses_iff hlen (ClientState.precheck_none hpre').2.2 hend hend'
    · rw [Router.overlaps, Bool.and_eq_true, decide_eq_true_eq, decide_eq_true_eq]
      exact crosses_iff hlen (ClientState.precheck_none hpre').2.2 hend hend'
    · rw [ivlLo, ivlHi, hend.toNat_end, bytesOf]
    · rw [covers_writeSlot hend, Nat.mod_eq_of_lt hpages, happ.pageSize]
      rfl
    · exact MemReplica.readBlock_of_find hfind rfl hlt hx

def replicaInSession : MemReplica := (MemReplica.new 4096).coldApplyLogin 7 5

theorem accepted_range_kept_exactly_twoPages :
    ∃ l r', replicaInSession.doWrite ⟨5, 4, 4, 7⟩ 5 8192 8192 none = .ok (l, r') ∧
      KeptExactly (clientAt 5) r' 5 8192 8192 (replicaInSession.writeSlot ⟨5, 4, 4, 7⟩ 8192 8192 none) := by
  refine ⟨_, _, rfl, ?_⟩
  exact (accepted_range_kept_exactly_iff (clientAt 5) (by decide +kernel) rfl).mpr
    ⟨show 8192 + 8192 < 2 ^ 64 by decide, by decide +kernel⟩

theorem long_write_and_top_page_lost :
    (clientAt 5).precheck 0 (2 ^ 44) = none ∧
      (∃ l r' s, replicaInSession.doWrite ⟨5, 4, 4, 7⟩ 5 0 (2 ^ 44) none = .ok (l, r') ∧
        r'.journal.find 5 = some s ∧ ∀ x, s.covers x = false) ∧
      (clientAt 5).precheck 18446744073709547520 4096 = none ∧
      (∃ l r', replicaInSession.doWrite ⟨5, 4, 4, 7⟩ 5 18446744073709547520 4096 none = .ok (l, r')) ∧
      Tracker.overlaps 18446744073709547520 4096 18446744073709547520 4096 = false ∧
      Router.overlaps 18446744073709547520 4096 18446744073709547520 4096 = false ∧
      ivlHi 18446744073709547520 4096 = 0 := by
  refine ⟨by decide +kernel, ⟨_, _, ⟨5, 0, 0, true, false, none⟩, rfl, by decide +kernel, fun x => ?_⟩,
    by decide +kernel, ⟨_, _, rfl⟩, by decide, by decide, by decide⟩
  apply Bool.and_eq_false_iff.mpr
  exact Or.inr (decide_eq_false (UInt64.not_lt.mpr (UInt64.zero_le)))

end CraftClient.Client
