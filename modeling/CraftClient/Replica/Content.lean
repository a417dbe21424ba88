import CraftClient.Lib.LastWriter
import CraftClient.Replica.Index

namespace CraftClient.Replica

open LastWriter

variable {r r' : MemReplica} {L d e target : ℤ} {x : UInt64} {s : MemJournalSlot} {base : UInt64 → Block}
  {B : Block}

structure MemJournalSlot.Fits (P : ℕ) (s : MemJournalSlot) : Prop where
  data : s.isEmpty = false
  end_lt : s.lba.toNat + s.len.toNat < 2 ^ 64
  zeros : s.allZeros = s.bytes.isNone
  length : ∀ bs, s.bytes = some bs → bs.length = s.len.toNat * P

namespace MemJournalSlot

lemma covers_iff (h : s.lba.toNat + s.len.toNat < 2 ^ 64) :
    s.covers x = true ↔ s.lba.toNat ≤ x.toNat ∧ x.toNat < s.lba.toNat + s.len.toNat := by
  have he : (s.lba + s.len.toUInt64).toNat = s.lba.toNat + s.len.toNat := by
    rw [UInt64.toNat_add, UInt32.toNat_toUInt64, Nat.mod_eq_of_lt h]
  simp only [covers, Bool.and_eq_true, decide_eq_true_eq, UInt64.le_iff_toNat_le, UInt64.lt_iff_toNat_lt, he]

lemma toNat_block (h : s.lba.toNat + s.len.toNat < 2 ^ 64) {i : ℕ} (hi : i < s.len.toNat) :
    (s.lba + UInt64.ofNat i).toNat = s.lba.toNat + i := by
  rw [UInt64.toNat_add, UInt64.toNat_ofNat_of_lt' (by simp only [UInt64.size]; omega),
    Nat.mod_eq_of_lt (by omega)]

lemma toNat_sub_lba (h : s.lba.toNat + s.len.toNat < 2 ^ 64) (hx : s.covers x = true) :
    (x - s.lba).toNat = x.toNat - s.lba.toNat :=
  UInt64.toNat_sub_of_le _ _ (UInt64.le_iff_toNat_le.mpr ((covers_iff h).mp hx).1)

end MemJournalSlot

namespace MemReplica

def slotBlock (r : MemReplica) (x : UInt64) (d : ℤ) (s : MemJournalSlot) : Block :=
  if s.allZeros then r.hole (some d) else r.dataPage d s.bytes ((x - s.lba).toNat * r.pageSize.toNat)

lemma slotBlock_src : (r.slotBlock x d s).src = some d := by
  rw [slotBlock]
  split_ifs
  · rfl
  · exact dataPage_src _

lemma readBlock_of_find (hs : r.journal.find d = some s) (hdata : s.isEmpty = false) (hlt : r.commitLsn < d)
    (hx : s.covers x = true) : r.readBlock d x = r.slotBlock x d s := by
  have hhighest : r.highestSlotLe x d = some (d, s) := by
    cases hh : r.highestSlotLe x d with
    | none =>
      have hno := highestSlotLe_none hh hlt le_rfl hs hdata
      exact absurd (hx.symm.trans hno) (by decide)
    | some p =>
      obtain ⟨hfind, -, hle, -, -, htop⟩ := highestSlotLe_some hh
      rcases hle.eq_or_lt with heq | hlt'
      · rw [heq, hs] at hfind
        rw [Option.some.inj hfind, ← heq]
      · have hno := htop d s hlt' le_rfl hs hdata
        exact absurd (hx.symm.trans hno) (by decide)
  rw [readBlock, hhighest]
  rfl

lemma dataPage_none (r : MemReplica) (d : ℤ) (off : ℕ) : r.dataPage d none off = r.hole (some d) := by
  simp [dataPage, pageAt]

lemma dataPage_page {bytes : Option (List UInt8)} {off : ℕ}
    (h : (r.pageAt bytes off).length = r.pageSize.toNat) :
    (r.dataPage d bytes off).page = r.pageAt bytes off := by
  simp only [dataPage]
  split
  case isTrue hz =>
    symm
    apply List.eq_replicate_iff.mpr
    exact ⟨h, fun b hb => of_decide_eq_true (List.all_eq_true.mp hz b hb)⟩
  case isFalse => rfl

lemma slotBlock_page (h : s.Fits r.pageSize.toNat) (hx : s.covers x = true) :
    (r.slotBlock x d s).page = match s.bytes with
      | none => List.replicate r.pageSize.toNat 0
      | some bs => (bs.drop ((x.toNat - s.lba.toNat) * r.pageSize.toNat)).take r.pageSize.toNat := by
  rw [slotBlock, h.zeros, MemJournalSlot.toNat_sub_lba h.end_lt hx]
  cases hb : s.bytes with
  | none => rfl
  | some bs =>
    apply dataPage_page
    obtain ⟨h₁, h₂⟩ := (MemJournalSlot.covers_iff h.end_lt).mp hx
    have hle : (x.toNat - s.lba.toNat + 1) * r.pageSize.toNat ≤ s.len.toNat * r.pageSize.toNat :=
      Nat.mul_le_mul_right _ (by omega)
    rw [Nat.add_mul, Nat.one_mul] at hle
    rw [pageAt, Option.getD_some, List.length_take, List.length_drop, h.length bs hb]
    omega

lemma applySlot_index (h : s.lba.toNat + s.len.toNat < 2 ^ 64) (x : UInt64) :
    (r.applySlot d s).index x =
      if s.covers x then some (r.cellOf d s (x - s.lba).toNat) else r.index x := by
  split_ifs with hx
  · have hsub := MemJournalSlot.toNat_sub_lba h hx
    obtain ⟨h₁, h₂⟩ := (MemJournalSlot.covers_iff h).mp hx
    have hi : (x - s.lba).toNat < s.len.toNat := by omega
    have hkey : s.lba + UInt64.ofNat (x - s.lba).toNat = x := by
      rw [← UInt64.toNat_inj, MemJournalSlot.toNat_block h hi]
      omega
    obtain ⟨j, hj, hjx, hval⟩ := foldl_update_of_mem (fun i : ℕ => s.lba + UInt64.ofNat i)
      (fun i => some (r.cellOf d s i)) _ r.index (List.mem_range.mpr hi) hkey
    have hjn := MemJournalSlot.toNat_block h (List.mem_range.mp hj)
    have hji : j = (x - s.lba).toNat := by
      rw [hjx] at hjn
      omega
    rw [← hji]
    exact hval
  · apply foldl_update_of_ne (fun i : ℕ => s.lba + UInt64.ofNat i) (fun i => some (r.cellOf d s i))
    intro i hi hix
    have hin := MemJournalSlot.toNat_block h (List.mem_range.mp hi)
    have hlt := List.mem_range.mp hi
    rw [hix] at hin
    exact hx ((MemJournalSlot.covers_iff h).mpr (by omega))

lemma applySlot_indexBlock (h : s.lba.toNat + s.len.toNat < 2 ^ 64) (x : UInt64) :
    (r.applySlot d s).indexBlock x = if s.covers x then r.slotBlock x d s else r.indexBlock x := by
  rw [indexBlock, applySlot_index h]
  split_ifs with hx
  · simp only [cellOf, slotBlock]
    split_ifs
    · exact dataPage_none r d _
    · rfl
  · rfl

lemma applyLoop_append (hd : r.commitLsn + (k : ℕ) < d) :
    applyLoop k (r.append d s) = (applyLoop k r).append d s := by
  induction k generalizing r with
  | zero => rfl
  | succ k ih =>
    have hne : r.commitLsn + 1 ≠ d := by
      push_cast at hd
      omega
    have hfind : (r.append d s).journal.find ((r.append d s).commitLsn + 1) = r.journal.find (r.commitLsn + 1) := by
      rw [find_append]
      exact if_neg hne
    rw [applyLoop, applyLoop, hfind]
    cases r.journal.find (r.commitLsn + 1) with
    | none => rfl
    | some s' =>
      have hnext : (r.append d s).applyNext s' = (r.applyNext s').append d s := by
        simp only [applyNext]
        split_ifs <;> rfl
      simp only [hnext]
      apply ih
      simp only [applyNext]
      push_cast at hd
      omega

end MemReplica

def MemReplica.Shows (r : MemReplica) (L : ℤ) (base : UInt64 → Block) (M : ℤ) (x : UInt64) (B : Block) :
    Prop :=
  LastWriter.Shows r.journal.find (fun s => s.covers x = true) (r.slotBlock x) (base x) L M B

lemma MemReplica.Shows.congr {M : ℤ} (h : r.Shows L base M x B) (hp : r'.pageSize = r.pageSize)
    (hj : ∀ d, L < d → d ≤ M → r'.journal.find d = r.journal.find d) : r'.Shows L base M x B := by
  have hb : r'.slotBlock x = r.slotBlock x := by
    cases r
    cases r'
    cases hp
    rfl
  rw [Shows, hb]
  exact LastWriter.Shows.congr h hj

/-- A member of the session that logged in at `L`, over the content `base`. It may lag behind `L`; once it has
caught up from its own journal it has that content. -/
structure Replays (L : ℤ) (base : UInt64 → Block) (r : MemReplica) : Prop where
  fits : ∀ d s, L < d → r.journal.find d = some s → s.Fits r.pageSize.toNat
  present : ∀ d, L < d → d ≤ r.commitLsn → (r.journal.find d).isSome
  lagging : r.commitLsn ≤ L → (r.applyUpTo L).commitLsn = L → ∀ x, (r.applyUpTo L).indexBlock x = base x
  index : L < r.commitLsn → ∀ x, r.Shows L base r.commitLsn x (r.indexBlock x)

namespace Replays

lemma shows_index (h : Replays L base r) (hL : L ≤ r.commitLsn) (x : UInt64) :
    r.Shows L base r.commitLsn x (r.indexBlock x) := by
  rcases hL.lt_or_eq with hlt | heq
  · exact h.index hlt x
  · have hsame : r.applyUpTo L = r := by
      rw [MemReplica.applyUpTo, heq, sub_self]
      rfl
    have hb := h.lagging heq.ge (by rw [hsame, heq]) x
    rw [hsame] at hb
    rw [← heq, hb]
    exact shows_self

lemma applyNext (h : Replays L base r) (hs : r.journal.find (r.commitLsn + 1) = some s) :
    Replays L base (r.applyNext s) := by
  have hj := (MemReplica.applies_applyNext r s).journal
  have hp := (MemReplica.applies_applyNext r s).pageSize
  have hc : (r.applyNext s).commitLsn = r.commitLsn + 1 := rfl
  refine ⟨?_, ?_, ?_, ?_⟩
  · rw [hj, hp]
    exact h.fits
  · rw [hj, hc]
    intro d hL hd
    rcases hd.lt_or_eq with hlt | rfl
    · exact h.present d hL (by omega)
    · rw [hs]
      rfl
  · rw [hc]
    intro hle
    have hstep : (r.applyNext s).applyUpTo L = r.applyUpTo L := by
      obtain ⟨k, hk⟩ : ∃ k, (L - r.commitLsn).toNat = k + 1 := ⟨(L - r.commitLsn).toNat - 1, by omega⟩
      rw [MemReplica.applyUpTo, MemReplica.applyUpTo, hk, MemReplica.applyLoop, hs, hc,
        show (L - (r.commitLsn + 1)).toNat = k by omega]
    rw [hstep]
    exact h.lagging (by omega)
  · rw [hc]
    intro hlt x
    have hfits := h.fits _ s hlt hs
    apply MemReplica.Shows.congr (r := r) _ hp fun d _ _ => by rw [hj]
    have hblock : (r.applyNext s).indexBlock x = (r.applySlot (r.commitLsn + 1) s).indexBlock x := by
      rw [MemReplica.applyNext, hfits.data]
      rfl
    rw [hblock, MemReplica.applySlot_indexBlock hfits.end_lt]
    split_ifs with hx
    · exact shows_last hlt le_rfl hs hx untouched_self
    · apply (h.shows_index (by omega) x).extend _ (by omega)
      intro d s' h₁ h₂ hs'
      obtain rfl : d = r.commitLsn + 1 := by omega
      rw [hs] at hs'
      cases hs'
      exact hx

lemma applyUpTo (h : Replays L base r) (target : ℤ) : Replays L base (r.applyUpTo target) :=
  MemReplica.applyUpTo_induction h target fun _ _ h hs => h.applyNext hs

lemma append (h : Replays L base r) (hd : L < d) (hs : s.Fits r.pageSize.toNat)
    (hsame : ∀ s', r.journal.find d = some s' → s' = s) : Replays L base (r.append d s) := by
  refine ⟨?_, ?_, ?_, ?_⟩
  · intro e s' hL hs'
    rw [MemReplica.find_append] at hs'
    split_ifs at hs'
    · cases hs'
      exact hs
    · exact h.fits e s' hL hs'
  · intro e hL he
    rw [MemReplica.find_append]
    split_ifs
    · rfl
    · exact h.present e hL he
  · intro hle
    change r.commitLsn ≤ L at hle
    have hloop : (r.append d s).applyUpTo L = (r.applyUpTo L).append d s :=
      MemReplica.applyLoop_append (r := r) (k := (L - r.commitLsn).toNat) (by omega)
    rw [hloop]
    exact h.lagging hle
  · intro hlt x
    apply (h.index hlt x).congr (show (r.append d s).pageSize = r.pageSize from rfl)
    intro e hL he
    rw [MemReplica.find_append]
    split_ifs with hed
    · obtain ⟨s', hs'⟩ := Option.isSome_iff_exists.mp (h.present e hL he)
      rw [hs', hsame s' (hed ▸ hs')]
    · rfl

lemma readBlock (h : Replays L base r) (hL : L ≤ r.commitLsn) (H : ℤ) (x : UInt64) :
    r.Shows L base (max H r.commitLsn) x (r.readBlock H x) := by
  rw [MemReplica.readBlock]
  split
  case h_1 d s htop =>
    obtain ⟨hs, hc, hH, -, hx, htop⟩ := MemReplica.highestSlotLe_some htop
    apply shows_last (hL.trans_lt hc) (le_max_of_le_left hH) hs hx
    intro e s' hlt hle hs'
    have hfits := h.fits e s' (by omega) hs'
    exact Bool.eq_false_iff.mp (htop e s' hlt (by omega) hs' hfits.data)
  case h_2 hnone =>
    apply (h.shows_index hL x).extend _ (le_max_right _ _)
    intro e s' hlt hle hs'
    have hfits := h.fits e s' (by omega) hs'
    exact Bool.eq_false_iff.mp (MemReplica.highestSlotLe_none hnone hlt (by omega) hs' hfits.data)

end Replays

end CraftClient.Replica
