import CraftClient.Replica.Content

namespace CraftClient.Replica

open LastWriter

variable {r r' : MemReplica} {L M d e H target : ℤ} {x : UInt64} {s : MemJournalSlot} {base : UInt64 → Option IndexCell}
  {c : Option IndexCell}

namespace MemReplica

def written (r : MemReplica) (x : UInt64) (d : ℤ) : Option IndexCell :=
  (r.journal.find d).bind fun s =>
    if !s.isEmpty && s.covers x then some (r.cellOf d s (x - s.lba).toNat) else none

lemma written_eq_some {c : IndexCell} : r.written x d = some c ↔ ∃ s, r.journal.find d = some s ∧
    s.isEmpty = false ∧ s.covers x = true ∧ r.cellOf d s (x - s.lba).toNat = c := by
  simp only [written, Option.bind_eq_some_iff, Option.ite_none_right_eq_some, Bool.and_eq_true,
    Bool.not_eq_eq_eq_not, Bool.not_true, Option.some.injEq, and_assoc]

lemma written_eq_none (h : ∀ s, r.journal.find d = some s → s.isEmpty = false → s.covers x = false) :
    r.written x d = none := by
  apply Option.eq_none_iff_forall_ne_some.mpr
  intro c hc
  obtain ⟨s, hs, he, hx, -⟩ := written_eq_some.mp hc
  rw [h s hs he] at hx
  cases hx

def ShowsAt (r : MemReplica) (L : ℤ) (base : UInt64 → Option IndexCell) (M : ℤ) (x : UInt64) (c : Option IndexCell) :
    Prop :=
  LastWriter.Shows (r.written x) (fun _ => True) (fun _ c => some c) (base x) L M c

lemma untouched_written {a b : ℤ} (h : ∀ e, a < e → e ≤ b → r.written x e = none) :
    Untouched (r.written x) (fun _ => True) a b := by
  intro e c h₁ h₂ hc
  rw [h e h₁ h₂] at hc
  cases hc

def readCell (r : MemReplica) (H : ℤ) (x : UInt64) : Option IndexCell :=
  match r.highestSlotLe x H with
  | some (d, s) => some (r.cellOf d s (x - s.lba).toNat)
  | none => r.index x

def cellBlock (r : MemReplica) : Option IndexCell → Block
  | some c => r.dataPage c.dlsn c.buf c.off
  | none => r.hole none

lemma cellBlock_cellOf (r : MemReplica) (d : ℤ) (s : MemJournalSlot) (x : UInt64) :
    r.cellBlock (some (r.cellOf d s (x - s.lba).toNat)) = r.slotBlock x d s := by
  simp only [cellBlock, cellOf, slotBlock]
  split_ifs
  · exact dataPage_none r d _
  · rfl

lemma readBlock_eq (r : MemReplica) (H : ℤ) (x : UInt64) : r.readBlock H x = r.cellBlock (r.readCell H x) := by
  rw [readBlock, readCell]
  cases r.highestSlotLe x H with
  | none => rfl
  | some w =>
    obtain ⟨d, s⟩ := w
    exact (cellBlock_cellOf r d s x).symm

lemma readBlock_hole (r : MemReplica) (H : ℤ) (x : UInt64) :
    (r.readBlock H x).hole = (r.readBlock H x).page.all fun b => b = 0 := by
  have hhole : ∀ src, (r.hole src).hole = (r.hole src).page.all fun b => b = 0 := by simp [hole]
  rw [readBlock_eq]
  cases r.readCell H x with
  | none => exact hhole none
  | some c =>
    simp only [cellBlock, dataPage]
    split_ifs with hz
    · exact hhole _
    · exact (Bool.eq_false_iff.mpr hz).symm

end MemReplica

structure Follows (L : ℤ) (base : UInt64 → Option IndexCell) (r : MemReplica) : Prop where
  end_lt : ∀ d s, L < d → r.journal.find d = some s → s.isEmpty = false → s.lba.toNat + s.len.toNat < 2 ^ 64
  present : ∀ d, L < d → d ≤ r.commitLsn → (r.journal.find d).isSome
  le_commit : L ≤ r.commitLsn
  index : ∀ x, r.ShowsAt L base r.commitLsn x (r.index x)

namespace Follows

lemma self (h : ∀ d s, r.commitLsn < d → r.journal.find d = some s → s.isEmpty = false →
    s.lba.toNat + s.len.toNat < 2 ^ 64) : Follows r.commitLsn r.index r :=
  ⟨h, fun _ h₁ h₂ => absurd h₂ h₁.not_ge, le_rfl, fun _ => shows_self⟩

lemma rejournal (h : Follows L base r) (hc : r'.commitLsn = r.commitLsn) (hi : r'.index = r.index)
    (hend : ∀ d s, L < d → r'.journal.find d = some s → s.isEmpty = false → s.lba.toNat + s.len.toNat < 2 ^ 64)
    (hsome : ∀ d, L < d → d ≤ r.commitLsn → (r'.journal.find d).isSome)
    (hw : ∀ d, L < d → d ≤ r.commitLsn → ∀ x, r'.written x d = r.written x d) : Follows L base r' := by
  refine ⟨hend, ?_, ?_, ?_⟩
  · rw [hc]
    exact hsome
  · rw [hc]
    exact h.le_commit
  · intro x
    rw [hc, hi]
    exact LastWriter.Shows.congr (h.index x) fun d h₁ h₂ => hw d h₁ h₂ x

lemma applyNext (h : Follows L base r) (hs : r.journal.find (r.commitLsn + 1) = some s) :
    Follows L base (r.applyNext s) := by
  have hj := (MemReplica.applies_applyNext r s).journal
  have hp := (MemReplica.applies_applyNext r s).pageSize
  have hc : (r.applyNext s).commitLsn = r.commitLsn + 1 := rfl
  have hle := h.le_commit
  have hwritten : ∀ x, (r.applyNext s).written x = r.written x := by
    intro x
    funext d
    simp only [MemReplica.written, MemReplica.cellOf, hj, hp]
  refine ⟨?_, ?_, ?_, ?_⟩
  · rw [hj]
    exact h.end_lt
  · rw [hj, hc]
    intro d hL hd
    rcases hd.lt_or_eq with hlt | rfl
    · exact h.present d hL (by omega)
    · rw [hs]
      rfl
  · rw [hc]
    omega
  · intro x
    rw [hc, MemReplica.ShowsAt, hwritten]
    -- the slot that is passed has written the cell, or has left it as it was
    by_cases hx : s.isEmpty = false ∧ s.covers x = true
    · obtain ⟨he, hx⟩ := hx
      have hend := h.end_lt _ s (by omega) hs he
      have hcell : (r.applyNext s).index x = some (r.cellOf (r.commitLsn + 1) s (x - s.lba).toNat) := by
        rw [MemReplica.applyNext, he]
        exact (MemReplica.applySlot_index hend x).trans (if_pos hx)
      rw [hcell]
      apply shows_last (by omega) le_rfl _ trivial untouched_self
      exact MemReplica.written_eq_some.mpr ⟨s, hs, he, hx, rfl⟩
    · have hcell : (r.applyNext s).index x = r.index x := by
        rw [MemReplica.applyNext]
        cases he : s.isEmpty with
        | true => rfl
        | false =>
          have hend := h.end_lt _ s (by omega) hs he
          exact (MemReplica.applySlot_index hend x).trans (if_neg fun hcov => hx ⟨he, hcov⟩)
      rw [hcell]
      apply (h.index x).extend _ (by omega)
      apply MemReplica.untouched_written
      intro e h₁ h₂
      obtain rfl : e = r.commitLsn + 1 := by omega
      apply MemReplica.written_eq_none
      intro s' hs' he
      rw [hs] at hs'
      cases hs'
      exact Bool.eq_false_iff.mpr fun hcov => hx ⟨he, hcov⟩

lemma applyUpTo (h : Follows L base r) (target : ℤ) : Follows L base (r.applyUpTo target) :=
  MemReplica.applyUpTo_induction h target fun _ _ h hs => h.applyNext hs

lemma readCell (h : Follows L base r) (H : ℤ) (x : UInt64) :
    r.ShowsAt L base (max H r.commitLsn) x (r.readCell H x) := by
  have hle := h.le_commit
  rw [MemReplica.readCell]
  split
  case h_1 d s htop =>
    obtain ⟨hs, hc, hH, he, hx, htop⟩ := MemReplica.highestSlotLe_some htop
    apply shows_last (by omega) (le_max_of_le_left hH) (MemReplica.written_eq_some.mpr ⟨s, hs, he, hx, rfl⟩) trivial
    apply MemReplica.untouched_written
    intro e h₁ h₂
    exact MemReplica.written_eq_none fun s' hs' => htop e s' h₁ (by omega) hs'
  case h_2 hnone =>
    apply (h.index x).extend _ (le_max_right _ _)
    apply MemReplica.untouched_written
    intro e h₁ h₂
    exact MemReplica.written_eq_none fun s' hs' => MemReplica.highestSlotLe_none hnone h₁ (by omega) hs'

end Follows

end CraftClient.Replica
