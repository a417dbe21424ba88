import CraftClient.Raft.ResolveAndApply
import Mathlib.Data.List.TakeWhile

/-! The holes of a journal, as `get_missing_slots` lists them and as `stats` counts and samples them. -/

namespace CraftClient.Replica

def kMissingSample : ℕ := 16

structure ReplicaStats where
  pageSize : UInt32
  commitLsn : ℤ
  lastAppendLsn : ℤ
  term : UInt64
  clientToken : UInt64
  journalSlots : ℕ
  journalFirstDlsn : ℤ
  journalLastDlsn : ℤ
  zeroWriteSlots : ℕ
  emptySlots : ℕ
  journalDataBytes : UInt64
  missingCount : ℕ
  missingSample : List ℤ

def sampleGap : ℕ → ℤ → List ℤ → List ℤ
  | 0, _, sample => sample
  | left + 1, expect, sample =>
    if sample.length < kMissingSample then sampleGap left (expect + 1) (sample ++ [expect]) else sample

def sampleLoop (hi : ℤ) : ℤ → List (ℤ × MemJournalSlot) → List ℤ → List ℤ
  | expect, [], sample => sampleGap (hi + 1 - expect).toNat expect sample
  | expect, (d, _) :: rest, sample =>
    if sample.length < kMissingSample then sampleLoop hi (d + 1) rest (sampleGap (d - expect).toNat expect sample)
    else sampleGap (hi + 1 - expect).toNat expect sample

namespace MemReplica

variable (r : MemReplica)

def journalBetween (lo hi : ℤ) : List (ℤ × MemJournalSlot) :=
  (r.journal.entries.dropWhile fun e => e.1 < lo).takeWhile fun e => e.1 ≤ hi

def stats : ReplicaStats where
  pageSize := r.pageSize
  commitLsn := r.commitLsn
  lastAppendLsn := r.lastAppendLsn
  term := r.term
  clientToken := r.clientToken
  journalSlots := r.journal.entries.length
  journalFirstDlsn := (r.journal.entries.head?.map Prod.fst).getD (-1)
  journalLastDlsn := (r.journal.entries.getLast?.map Prod.fst).getD (-1)
  zeroWriteSlots := r.journal.entries.countP fun e => !e.2.isEmpty && e.2.allZeros
  emptySlots := r.journal.entries.countP fun e => e.2.isEmpty
  journalDataBytes := r.journal.entries.foldl (fun bytes e =>
    if e.2.isEmpty || e.2.allZeros then bytes else bytes + e.2.len.toUInt64 * r.blockSize) 0
  missingCount :=
    let lo := r.commitLsn + 1
    let hi := r.lastAppendLsn
    if lo ≤ hi then (hi - lo + 1).toNat - (r.journalBetween lo hi).length else 0
  missingSample :=
    let lo := r.commitLsn + 1
    let hi := r.lastAppendLsn
    if lo ≤ hi then sampleLoop hi lo (r.journalBetween lo hi) [] else []

end MemReplica

end CraftClient.Replica

namespace CraftClient.Raft

open Replica

variable {hi expect : ℤ} {l : List (ℤ × MemJournalSlot)} {sample : List ℤ}

lemma sampleGap_eq (left : ℕ) (hcap : sample.length ≤ kMissingSample) :
    sampleGap left expect sample =
      (sample ++ MemReplica.dlsns (expect - 1) (expect - 1 + left)).take kMissingSample := by
  induction left generalizing expect sample with
  | zero =>
    rw [sampleGap, dlsns_nil (by omega), List.append_nil, List.take_of_length_le hcap]
  | succ left ih =>
    have hnext : MemReplica.dlsns (expect - 1) (expect - 1 + (left + 1 : ℕ)) =
        expect :: MemReplica.dlsns (expect + 1 - 1) (expect + 1 - 1 + left) := by
      rw [dlsns_cons (by omega)]
      congr 1
      · omega
      · congr 1 <;> omega
    rw [sampleGap, hnext]
    split_ifs with hroom
    · rw [ih (by rw [List.length_append]; exact hroom), List.append_assoc]
      rfl
    · rw [List.take_append_of_le_length (not_lt.mp hroom), List.take_of_length_le hcap]

lemma sampleLoop_eq (hs : l.Pairwise fun a b => a.1 < b.1) (hl : ∀ e ∈ l, expect ≤ e.1 ∧ e.1 ≤ hi)
    (hexp : expect ≤ hi + 1) (hcap : sample.length ≤ kMissingSample) :
    sampleLoop hi expect l sample = (sample ++ missingLoop hi expect l).take kMissingSample := by
  have htail : expect - 1 + ((hi + 1 - expect).toNat : ℤ) = hi := by omega
  induction l generalizing expect sample with
  | nil => rw [sampleLoop, missingLoop, sampleGap_eq _ hcap, htail]
  | cons a l ih =>
    obtain ⟨ha, hs⟩ := List.pairwise_cons.mp hs
    obtain ⟨hlo, hhi⟩ := hl a List.mem_cons_self
    rw [sampleLoop, missingLoop, if_pos hhi]
    split_ifs with hroom
    · have hgap : expect - 1 + ((a.1 - expect).toNat : ℤ) = a.1 - 1 := by omega
      rw [sampleGap_eq _ hcap, hgap, ih hs _ (by omega) (List.length_take_le _ _) (by omega), ← List.append_assoc]
      · -- the sample cut at its bound does not change what is cut off behind it
        rw [List.take_append, List.take_take, min_self, List.length_take]
        conv_rhs => rw [List.take_append]
        congr 2
        omega
      · exact fun e he => ⟨ha e he, (hl e (List.mem_cons_of_mem a he)).2⟩
    · rw [sampleGap_eq _ hcap, List.take_append_of_le_length (not_lt.mp hroom),
        List.take_append_of_le_length (not_lt.mp hroom)]

lemma missingLoop_takeWhile (watermark : ℤ) :
    missingLoop watermark expect (l.takeWhile fun e => e.1 ≤ watermark) = missingLoop watermark expect l := by
  induction l generalizing expect with
  | nil => rfl
  | cons a l ih =>
    by_cases hw : a.1 ≤ watermark
    · rw [List.takeWhile_cons_of_pos (by simpa using hw), missingLoop, missingLoop, if_pos hw, if_pos hw, ih]
    · rw [List.takeWhile_cons_of_neg (by simpa using hw), missingLoop, missingLoop, if_neg hw]

lemma length_missingLoop (hs : l.Pairwise fun a b => a.1 < b.1) (hl : ∀ e ∈ l, expect ≤ e.1 ∧ e.1 ≤ hi) :
    (missingLoop hi expect l).length + l.length = (hi + 1 - expect).toNat := by
  induction l generalizing expect with
  | nil =>
    rw [missingLoop, length_dlsns, List.length_nil]
    omega
  | cons a l ih =>
    obtain ⟨ha, hs⟩ := List.pairwise_cons.mp hs
    obtain ⟨hlo, hhi⟩ := hl a List.mem_cons_self
    have hrest := ih hs fun e he => ⟨ha e he, (hl e (List.mem_cons_of_mem a he)).2⟩
    rw [missingLoop, if_pos hhi, List.length_append, length_dlsns, List.length_cons]
    omega

lemma pairwise_missingLoop (hs : l.Pairwise fun a b => a.1 < b.1) (hl : ∀ e ∈ l, expect ≤ e.1) (watermark : ℤ) :
    (missingLoop watermark expect l).Pairwise (· < ·) := by
  induction l generalizing expect with
  | nil => exact pairwise_dlsns _ _
  | cons a l ih =>
    obtain ⟨ha, hs⟩ := List.pairwise_cons.mp hs
    have hnext : ∀ e ∈ l, a.1 + 1 ≤ e.1 := ha
    rw [missingLoop]
    split_ifs
    · refine List.pairwise_append.mpr ⟨pairwise_dlsns _ _, ih hs hnext, fun x hx y hy => ?_⟩
      have hx := (mem_dlsns.mp hx).2
      have hy := ((mem_missingLoop hs hnext).mp hy).1
      omega
    · exact pairwise_dlsns _ _

section Stats

variable (r : MemReplica)

lemma mem_journalBetween {lo hi : ℤ} {e : ℤ × MemJournalSlot} (he : e ∈ r.journalBetween lo hi) :
    lo ≤ e.1 ∧ e.1 ≤ hi := by
  have hdrop := List.takeWhile_subset _ he
  have hle := List.mem_takeWhile_imp he
  exact ⟨((OrdMap.mem_dropWhile_lt lo).mp hdrop).2, by simpa using hle⟩

lemma pairwise_journalBetween (lo hi : ℤ) : (r.journalBetween lo hi).Pairwise fun a b => a.1 < b.1 :=
  (r.journal.sorted.sublist (List.dropWhile_sublist _)).sublist (List.takeWhile_sublist _)

lemma getMissingSlots_eq (watermark : ℤ) : getMissingSlots r watermark =
    missingLoop watermark (r.commitLsn + 1) (r.journalBetween (r.commitLsn + 1) watermark) :=
  (missingLoop_takeWhile watermark).symm

lemma missing_sorted (watermark : ℤ) : (getMissingSlots r watermark).Pairwise (· < ·) := by
  rw [getMissingSlots_eq]
  exact pairwise_missingLoop (pairwise_journalBetween r _ _) (fun e he => (mem_journalBetween r he).1) watermark

theorem missing_slots_exact (r : MemReplica) :
    (∀ watermark, (getMissingSlots r watermark).Pairwise (· < ·) ∧
      ∀ d, d ∈ getMissingSlots r watermark ↔ r.commitLsn < d ∧ d ≤ watermark ∧ r.journal.find d = none) ∧
    r.stats.missingCount = (getMissingSlots r r.lastAppendLsn).length ∧
    r.stats.missingSample = (getMissingSlots r r.lastAppendLsn).take kMissingSample := by
  refine ⟨fun watermark => ⟨missing_sorted r watermark, fun d => mem_getMissingSlots⟩, ?_⟩
  have hs := pairwise_journalBetween r (r.commitLsn + 1) r.lastAppendLsn
  have hl := fun e he => @mem_journalBetween r (r.commitLsn + 1) r.lastAppendLsn e he
  rw [getMissingSlots_eq]
  simp only [MemReplica.stats]
  by_cases hle : r.commitLsn + 1 ≤ r.lastAppendLsn
  · have hlen := length_missingLoop hs hl
    rw [if_pos hle, if_pos hle, sampleLoop_eq hs hl (by omega) (Nat.zero_le _), List.nil_append]
    exact ⟨by omega, rfl⟩
  · have hnil : r.journalBetween (r.commitLsn + 1) r.lastAppendLsn = [] := by
      rw [List.eq_nil_iff_forall_not_mem]
      intro e he
      have := hl e he
      omega
    rw [if_neg hle, if_neg hle, hnil, missingLoop, dlsns_nil (by omega)]
    exact ⟨rfl, rfl⟩

end Stats

end CraftClient.Raft
